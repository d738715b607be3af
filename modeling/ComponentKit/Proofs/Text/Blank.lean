import ComponentKit.Text.Line
import Mathlib

/-!
# Blanks and line breaks

Indentation and line breaks are blank. The `lineBreak` that an edit uses is a line feed, with a carriage return in
front of it or without (`IsBreak`).
-/

namespace ComponentKit.Text

theorem isBlank_of_isIndent {c : Char} (h : isIndent c = true) : isBlank c = true := by
  simp only [isIndent, Bool.or_eq_true, beq_iff_eq] at h
  rcases h with rfl | rfl <;> decide

/-- A line break. -/
def IsBreak (text : Text) : Prop :=
  text = ['\n'] ∨ text = ['\r', '\n']

namespace IsBreak

variable {newline : Text}

theorem getLast? (h : IsBreak newline) : newline.getLast? = some '\n' := by
  rcases h with rfl | rfl <;> rfl

theorem ne_nil (h : IsBreak newline) : newline ≠ [] := by
  rcases h with rfl | rfl <;> simp

theorem isBlank (h : IsBreak newline) {c : Char} (hc : c ∈ newline) : isBlank c = true := by
  rcases h with rfl | rfl
  · rw [List.mem_singleton] at hc
    subst hc
    decide
  · simp only [List.mem_cons, List.not_mem_nil, or_false] at hc
    rcases hc with rfl | rfl <;> decide

end IsBreak

/-- Whether a text starts with a line break. -/
def startsWithBreak (text : Text) : Prop :=
  ∃ rest, text = '\n' :: rest ∨ text = '\r' :: '\n' :: rest

theorem IsBreak.startsWithBreak {newline : Text} (h : IsBreak newline) (rest : Text) :
    startsWithBreak (newline ++ rest) := by
  rcases h with rfl | rfl
  · exact ⟨rest, .inl rfl⟩
  · exact ⟨rest, .inr rfl⟩

theorem startsWithBreak.append_right {text : Text} (h : startsWithBreak text) (more : Text) :
    startsWithBreak (text ++ more) := by
  obtain ⟨rest, rfl | rfl⟩ := h
  · exact ⟨rest ++ more, .inl rfl⟩
  · exact ⟨rest ++ more, .inr rfl⟩

/-- A line break ends the indentation. -/
theorem indentation_append_break {gap newline : Text} (hgap : ∀ c ∈ gap, isIndent c = true)
    (hn : IsBreak newline) (rest : Text) : indentation (gap ++ (newline ++ rest)) = gap := by
  rw [indentation, List.takeWhile_append_of_pos hgap]
  rcases hn with rfl | rfl <;> simp [isIndent]

/-- Trimming takes the blanks at the end away, and nothing else. -/
theorem trimEnd_append_of_blank {front back : Text} (hfront : front.getLast?.any isBlank = false)
    (hback : ∀ c ∈ back, isBlank c = true) : trimEnd (front ++ back) = front := by
  -- trimming works on the reversed text, which starts with the last character of `front`
  have hdrop : front.reverse.dropWhile isBlank = front.reverse := by
    rw [← List.head?_reverse] at hfront
    cases hr : front.reverse with
    | nil => rfl
    | cons c rest =>
      rw [hr] at hfront
      exact List.dropWhile_cons_of_neg (by simpa using hfront)
  rw [trimEnd, List.reverse_append, List.dropWhile_append_of_pos (by simpa using hback), hdrop,
    List.reverse_reverse]

theorem isBreak_lineBreak (text : Text) : IsBreak (lineBreak text) := by
  rw [lineBreak]
  split
  · exact .inr rfl
  · exact .inl rfl

end ComponentKit.Text
