import ComponentKit.Text.Basic
import Mathlib

/-!
# Spans

The longest start of a text whose characters have a property, and what is left behind it. A span that ends inside a
text does not depend on what follows the text; `splitOn` is a sequence of spans.
-/

namespace ComponentKit.Text

variable {p : Char → Bool} {text : Text}

/-- A property that no character of a text has. -/
theorem eq_false_of_any (h : text.any p = false) : ∀ c ∈ text, p c = false :=
  fun c hc => by simpa using List.any_eq_false.mp h c hc

/-- The last character of a text that stands behind another one. -/
theorem getLast?_cons_or (c : Char) (text : Text) (before : Option Char) :
    (c :: text).getLast?.or before = text.getLast?.or (some c) := by
  rw [List.getLast?_cons]
  cases text.getLast? <;> rfl

/-- Dropping the span by its length drops the span. -/
theorem drop_length_takeWhile (p : Char → Bool) (text : Text) :
    text.drop (text.takeWhile p).length = text.dropWhile p := by
  induction text with
  | nil => rfl
  | cons c text ih => cases h : p c <;> simp [h, ih]

theorem drop_length_takeWhile_append (p : Char → Bool) (text rest : Text) :
    (text ++ rest).drop (text.takeWhile p).length = text.dropWhile p ++ rest := by
  rw [List.drop_append_of_le_length (List.takeWhile_sublist p).length_le, drop_length_takeWhile]

/-- Behind a span the text ends, or a character without the property follows. -/
theorem dropWhile_cases (p : Char → Bool) (text : Text) :
    text.dropWhile p = [] ∨ ∃ c rest, text.dropWhile p = c :: rest ∧ p c = false := by
  cases h : text.dropWhile p with
  | nil => exact .inl rfl
  | cons c rest =>
    refine .inr ⟨c, rest, rfl, ?_⟩
    have := List.head?_dropWhile_not p text
    rw [h] at this
    simpa using this

/-- A span that ends inside a text is the same in a longer text. -/
theorem dropWhile_append_of_ne_nil (rest : Text) (h : text.dropWhile p ≠ []) :
    (text ++ rest).dropWhile p = text.dropWhile p ++ rest := by
  rw [List.dropWhile_append, if_neg (by simpa using h)]

theorem takeWhile_append_of_ne_nil (rest : Text) (h : text.dropWhile p ≠ []) :
    (text ++ rest).takeWhile p = text.takeWhile p := by
  rw [List.takeWhile_append, if_neg]
  intro he
  apply h
  -- a span as long as the text would leave nothing behind it
  have := congrArg List.length (List.takeWhile_append_dropWhile (p := p) (l := text))
  rw [List.length_append, he] at this
  exact List.eq_nil_of_length_eq_zero (by omega)

/-- A span ends in front of a character without the property. -/
theorem dropWhile_eq_of_forall {span rest : Text} (hspan : ∀ c ∈ span, p c = true)
    (hr : rest.head?.any p = false) :
    (span ++ rest).dropWhile p = rest := by
  rw [List.dropWhile_append_of_pos hspan]
  cases rest with
  | nil => rfl
  | cons c rest =>
    rw [List.dropWhile_cons_of_neg]
    simpa using hr

theorem takeWhile_eq_of_forall {span rest : Text} (hspan : ∀ c ∈ span, p c = true)
    (hr : rest.head?.any p = false) :
    (span ++ rest).takeWhile p = span := by
  rw [List.takeWhile_append_of_pos hspan]
  cases rest with
  | nil => simp
  | cons c rest =>
    rw [List.takeWhile_cons_of_neg, List.append_nil]
    simpa using hr

/-- A text without a separator is its only part. -/
theorem splitOn_eq_singleton {separator : Char} (h : separator ∉ text) : splitOn separator text = [text] := by
  induction text with
  | nil => rfl
  | cons c text ih =>
    rw [List.mem_cons, not_or] at h
    rw [splitOn, if_neg (Ne.symm h.1), ih h.2]

/-- A tail without separators belongs to the last part. -/
theorem splitOn_append (separator : Char) (text : Text) :
    ∃ front last, splitOn separator text = front ++ [last] ∧
      ∀ tail, separator ∉ tail → splitOn separator (text ++ tail) = front ++ [last ++ tail] := by
  induction text with
  | nil => exact ⟨[], [], rfl, fun tail h => splitOn_eq_singleton h⟩
  | cons c text ih =>
    obtain ⟨front, last, hsplit, htail⟩ := ih
    by_cases hc : c = separator
    · refine ⟨[] :: front, last, ?_, fun tail h => ?_⟩
      · rw [splitOn, if_pos hc, hsplit, List.cons_append]
      · rw [List.cons_append, splitOn, if_pos hc, htail tail h, List.cons_append]
    -- a character goes into the first part, which is the last one if there is no other
    · cases front with
      | nil =>
        refine ⟨[], c :: last, ?_, fun tail h => ?_⟩
        · rw [splitOn, if_neg hc, hsplit]
          rfl
        · rw [List.cons_append, splitOn, if_neg hc, htail tail h]
          rfl
      | cons part front =>
        refine ⟨(c :: part) :: front, last, ?_, fun tail h => ?_⟩
        · rw [splitOn, if_neg hc, hsplit]
          rfl
        · rw [List.cons_append, splitOn, if_neg hc, htail tail h]
          rfl

end ComponentKit.Text
