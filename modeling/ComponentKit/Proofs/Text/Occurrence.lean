import ComponentKit.Text.Basic
import Mathlib

/-!
# Occurrences

Where one text stands in another. The searches of the library are tied to the relations of lists
(`<+:` for a text that starts with another one, `<:+:` for one that has it inside), and an
occurrence in a text made of two parts is put into one of the parts or across the seam.
-/

namespace ComponentKit.Text

/-! ## Searching -/

theorem indexOf?_isSome_iff {needle text : Text} :
    (indexOf? needle text).isSome = true ↔ needle <:+: text := by
  induction text with
  | nil => cases needle <;> simp [indexOf?]
  | cons c rest ih =>
    rw [List.infix_cons_iff, indexOf?]
    by_cases h : needle.isPrefixOf (c :: rest) = true
    · simp [h, List.isPrefixOf_iff_prefix.mp h]
    · have hp : ¬ needle <+: c :: rest := fun hp => h (List.isPrefixOf_iff_prefix.mpr hp)
      simp [h, hp, ih]

theorem occursIn_iff {needle text : Text} : occursIn needle text = true ↔ needle <:+: text :=
  indexOf?_isSome_iff

theorem occursIn_eq_false_iff {needle text : Text} :
    occursIn needle text = false ↔ ¬ needle <:+: text := by
  rw [← occursIn_iff, Bool.not_eq_true]

/-- The first occurrence is the one behind a text in which, with all but the end of the next one, there is
none. -/
theorem indexOf?_append {needle x : Text} (hne : needle ≠ []) (h : ¬ needle <:+: x ++ needle.dropLast)
    (y : Text) : indexOf? needle (x ++ (needle ++ y)) = some x.length := by
  induction x with
  | nil =>
    obtain ⟨c, rest, rfl⟩ := List.exists_cons_of_ne_nil hne
    rw [List.nil_append, List.cons_append, indexOf?, if_pos]
    · rfl
    · exact List.isPrefixOf_iff_prefix.mpr (List.prefix_append (c :: rest) y)
  | cons d x ih =>
    -- an occurrence at the start would end within the part that has none
    have hstart : ¬ needle <+: d :: (x ++ (needle ++ y)) := by
      intro hp
      have hfront : d :: x ++ needle.dropLast <+: d :: x ++ (needle ++ y) :=
        (List.prefix_append_right_inj _).mpr ((List.dropLast_prefix _).trans (List.prefix_append _ _))
      have hlength : needle.length ≤ (d :: x ++ needle.dropLast).length := by simp; omega
      exact h (List.prefix_of_prefix_length_le hp hfront hlength).isInfix
    rw [List.cons_append, indexOf?, if_neg fun hp => hstart (List.isPrefixOf_iff_prefix.mp hp),
      ih fun hin => h (List.infix_cons hin)]
    rfl

theorem lastIndexOf?_eq_none_iff {needle text : Text} :
    lastIndexOf? needle text = none ↔ ¬ needle <:+: text := by
  induction text with
  | nil => cases needle <;> simp [lastIndexOf?]
  | cons c rest ih =>
    rw [List.infix_cons_iff, lastIndexOf?]
    cases hr : lastIndexOf? needle rest with
    | some k =>
      have hin : needle <:+: rest := by
        by_contra hn
        rw [ih.mpr hn] at hr
        cases hr
      simp [hin]
    | none =>
      have hn := ih.mp hr
      by_cases h : needle.isPrefixOf (c :: rest) = true
      · simp [h, List.isPrefixOf_iff_prefix.mp h]
      · have hp : ¬ needle <+: c :: rest := fun hp => h (List.isPrefixOf_iff_prefix.mpr hp)
        simp [h, hp, hn]

/-- The last occurrence is the offset of one behind which no other one starts. -/
theorem lastIndexOf?_eq_some_iff {needle text : Text} {i : Nat} :
    lastIndexOf? needle text = some i ↔
      i ≤ text.length ∧ needle <+: text.drop i ∧ ∀ j, i < j → j ≤ text.length →
        ¬ needle <+: text.drop j := by
  induction text generalizing i with
  | nil =>
    cases needle with
    | nil =>
      simp only [lastIndexOf?, List.isEmpty_nil, if_true, Option.some.injEq, List.length_nil,
        Nat.le_zero_eq]
      constructor
      · rintro rfl
        exact ⟨rfl, List.nil_prefix, by omega⟩
      · exact fun h => h.1.symm
    | cons a needle => simp [lastIndexOf?]
  | cons c rest ih =>
    rw [lastIndexOf?]
    -- an occurrence in the rest comes before one at the start
    cases hr : lastIndexOf? needle rest with
    | some k =>
      -- offsets into the rest are one less than those into the text
      obtain ⟨hle, hat, hlast⟩ := ih.mp hr
      simp only [Option.some.injEq]
      constructor
      · rintro rfl
        refine ⟨by simpa using hle, by simpa using hat, fun j hj hjl => ?_⟩
        obtain ⟨j, rfl⟩ : ∃ m, j = m + 1 := ⟨j - 1, by omega⟩
        simpa using hlast j (by omega) (by simpa using hjl)
      · rintro ⟨hi, hp, hj⟩
        cases i with
        | zero => exact absurd (by simpa using hat) (hj (k + 1) (by omega) (by simpa using hle))
        | succ i =>
          have := ih.mpr ⟨by simpa using hi, by simpa using hp, fun j hij hjl =>
            by simpa using hj (j + 1) (by omega) (by simpa using hjl)⟩
          rw [hr] at this
          simpa using this
    | none =>
      have hn := lastIndexOf?_eq_none_iff.mp hr
      -- nothing is found in the rest, so only the start can be the offset
      have hrest : ∀ j, ¬ needle <+: rest.drop j :=
        fun j hp => hn (hp.isInfix.trans (List.drop_suffix j rest).isInfix)
      by_cases h : needle.isPrefixOf (c :: rest) = true
      · simp only [h, if_true, Option.some.injEq]
        constructor
        · rintro rfl
          refine ⟨by simp, by simpa using List.isPrefixOf_iff_prefix.mp h, fun j hj _ => ?_⟩
          obtain ⟨j, rfl⟩ : ∃ m, j = m + 1 := ⟨j - 1, by omega⟩
          simpa using hrest j
        · rintro ⟨-, hp, -⟩
          cases i with
          | zero => rfl
          | succ i => exact absurd (by simpa using hp) (hrest i)
      · have hp : ¬ needle <+: c :: rest := fun hp => h (List.isPrefixOf_iff_prefix.mpr hp)
        simp only [h, Bool.false_eq_true, if_false, reduceCtorEq, false_iff]
        rintro ⟨-, hi, -⟩
        cases i with
        | zero => exact hp (by simpa using hi)
        | succ i => exact hrest i (by simpa using hi)

/-- An occurrence behind which no other one starts is the last one. -/
theorem lastIndexOf?_append {needle x y : Text} (hy : needle <+: y)
    (hlast : ¬ needle <:+: y.tail) : lastIndexOf? needle (x ++ y) = some x.length := by
  refine lastIndexOf?_eq_some_iff.mpr ⟨by simp, by rwa [List.drop_left], fun j hj _ hp => hlast ?_⟩
  -- a later occurrence would stand behind the first character of `y`
  obtain ⟨k, rfl⟩ : ∃ k, j = x.length + (1 + k) := ⟨j - x.length - 1, by omega⟩
  rw [← List.drop_drop, List.drop_left, ← List.drop_drop, List.drop_one] at hp
  exact hp.isInfix.trans (List.drop_suffix k _).isInfix

/-! ## Seams -/

/-- A part at the end of a text ends like the text. -/
theorem getLast?_of_suffix {s text : Text} (h : s <:+ text) (hs : s ≠ []) :
    s.getLast? = text.getLast? := by
  obtain ⟨front, rfl⟩ := h
  rw [List.getLast?_append, List.getLast?_eq_some_getLast hs, Option.some_or]

/-- A character that the second part does not have is in the first one. -/
theorem append_cons_eq_of_notMem {a b x y : Text} {c : Char} (hb : c ∉ b) (h : a ++ b = x ++ c :: y) :
    ∃ z, a = x ++ c :: z ∧ y = z ++ b := by
  rcases List.append_eq_append_iff.mp h with ⟨z, rfl, hz⟩ | ⟨z, rfl, hz⟩
  · exact absurd (by rw [hz]; simp) hb
  · cases z with
    | nil =>
      rw [List.nil_append] at hz
      exact absurd (by rw [← hz]; simp) hb
    | cons d z =>
      obtain ⟨rfl, rfl⟩ := List.cons.inj hz
      exact ⟨z, rfl, rfl⟩

/-- An occurrence in a text made of two parts lies in one of them or across the seam. -/
theorem infix_append_iff {needle a b : Text} :
    needle <:+: a ++ b ↔ needle <:+: a ∨ needle <:+: b ∨
      ∃ front back, front ≠ [] ∧ back ≠ [] ∧ needle = front ++ back ∧ front <:+ a ∧ back <+: b := by
  constructor
  · rintro ⟨before, after, h⟩
    rw [List.append_assoc] at h
    rcases List.append_eq_append_iff.mp h with ⟨mid, ha, hm⟩ | ⟨mid, hb, hm⟩
    · -- the occurrence starts in the first part
      rcases List.append_eq_append_iff.mp hm with ⟨rest, rfl, hb⟩ | ⟨back, rfl, hb⟩
      · exact .inl ⟨before, rest, by rw [ha, List.append_assoc]⟩
      · by_cases hmid : mid = []
        · subst hmid
          exact .inr (.inl ⟨[], after, by simp [hb]⟩)
        by_cases hback : back = []
        · subst hback
          exact .inl ⟨before, [], by simp [ha]⟩
        exact .inr (.inr ⟨mid, back, hmid, hback, rfl, ⟨before, ha.symm⟩, ⟨after, hb.symm⟩⟩)
    · exact .inr (.inl ⟨mid, after, by rw [List.append_assoc, hm]⟩)
  · rintro (h | h | ⟨front, back, -, -, rfl, ⟨x, rfl⟩, ⟨y, rfl⟩⟩)
    · exact h.trans List.infix_append_left
    · exact h.trans List.infix_append_right
    · exact ⟨x, y, by simp [List.append_assoc]⟩

/-- A text stands on one side of a character that it does not have. -/
theorem infix_append_cons_iff {needle a b : Text} {c : Char} (hc : c ∉ needle) :
    needle <:+: a ++ c :: b ↔ needle <:+: a ∨ needle <:+: b := by
  constructor
  · intro h
    rcases infix_append_iff.mp h with h | h | ⟨front, back, -, hback, rfl, -, hb⟩
    · exact .inl h
    · rcases List.infix_cons_iff.mp h with h | h
      · cases needle with
        | nil => exact .inl List.nil_infix
        | cons d needle =>
          obtain ⟨rest, hrest⟩ := h
          exact absurd (by rw [(List.cons.inj hrest).1]; exact List.mem_cons_self) hc
      · exact .inr h
    -- an occurrence across the seam would have the character
    · obtain ⟨d, back, rfl⟩ := List.exists_cons_of_ne_nil hback
      obtain ⟨rest, hrest⟩ := hb
      exact absurd (by rw [(List.cons.inj hrest).1]; simp) hc
  · rintro (h | h)
    · exact h.trans List.infix_append_left
    · exact h.trans ((List.suffix_cons c b).trans (List.suffix_append a _)).isInfix

/-- Texts that each have a character once are aligned at it when one stands in the other. -/
theorem split_of_infix {a b x y : Text} {c : Char} (hx : c ∉ x) (hy : c ∉ y)
    (h : a ++ c :: b <:+: x ++ c :: y) : a <:+ x ∧ b <+: y := by
  obtain ⟨before, after, heq⟩ := h
  have hsplit : x ++ c :: y = (before ++ a) ++ c :: (b ++ after) := by
    rw [← heq]
    simp
  obtain ⟨hleft, -, hright⟩ := (List.append_cons_inj_of_notMem hx hy).mp hsplit
  exact ⟨⟨before, hleft.symm⟩, ⟨after, hright.symm⟩⟩

theorem eq_of_prefix {a b x : Text} {c : Char} (hb : c ∉ b) (hx : c ∉ x)
    (h : a ++ c :: x <+: b ++ c :: x) : a = b := by
  obtain ⟨after, heq⟩ := h
  have hsplit : b ++ c :: x = a ++ c :: (x ++ after) := by
    rw [← heq]
    simp
  exact ((List.append_cons_inj_of_notMem hb hx).mp hsplit).1.symm

/-! ## Seams without occurrences -/

/-- Whether no occurrence goes through the seam of two texts. -/
def Apart (needle a b : Text) : Prop :=
  ∀ front back, needle = front ++ back → front ≠ [] → back ≠ [] → front <:+ a → ¬ back <+: b

/-- What does not go through the seam is in one of the parts. -/
theorem Apart.infix_iff {needle a b : Text} (h : Apart needle a b) :
    needle <:+: a ++ b ↔ needle <:+: a ∨ needle <:+: b := by
  rw [infix_append_iff]
  constructor
  · rintro (hin | hin | ⟨front, back, hf, hb, hsplit, hfront, hback⟩)
    · exact .inl hin
    · exact .inr hin
    · exact absurd hback (h front back hsplit hf hb hfront)
  · exact fun hin => hin.imp_right .inl

/-- A text that cannot be cut behind the last character of the first part. -/
theorem apart_of_getLast {needle a b : Text} {c : Char} (hc : a.getLast? = some c) (hn : c ∉ needle.dropLast) :
    Apart needle a b := by
  rintro front back rfl hf hb hfa -
  -- a cut would be behind a character that stands only at the end of the needle
  rw [← getLast?_of_suffix hfa hf, List.getLast?_eq_some_getLast hf] at hc
  apply hn
  rw [List.dropLast_append_of_ne_nil hb, ← Option.some.inj hc]
  exact List.mem_append_left _ (List.getLast_mem hf)

/-- A text that cannot be cut in front of the first character of the second part. -/
theorem apart_of_head {needle a b : Text} {c : Char} (hc : b.head? = some c) (hn : c ∉ needle.tail) :
    Apart needle a b := by
  rintro front back rfl hf hb - ⟨after, rfl⟩
  obtain ⟨d, back, rfl⟩ := List.exists_cons_of_ne_nil hb
  obtain ⟨e, front, rfl⟩ := List.exists_cons_of_ne_nil hf
  obtain rfl : d = c := by simpa using hc
  exact hn (by simp)

/-- A text whose first character is not in the first part. -/
theorem apart_of_first {needle a b : Text} {c : Char} (hc : needle.head? = some c) (hn : c ∉ a) :
    Apart needle a b := by
  rintro front back rfl hf - hfa -
  obtain ⟨d, front, rfl⟩ := List.exists_cons_of_ne_nil hf
  obtain rfl : d = c := by simpa using hc
  exact hn (hfa.subset List.mem_cons_self)

/-- Such a text is in the second part, if at all. -/
theorem infix_append_of_first {needle a b : Text} {c : Char} (hc : needle.head? = some c) (hn : c ∉ a) :
    needle <:+: a ++ b ↔ needle <:+: b := by
  rw [(apart_of_first hc hn).infix_iff, or_iff_right]
  exact fun hin => hn (hin.subset (List.mem_of_head? hc))

end ComponentKit.Text
