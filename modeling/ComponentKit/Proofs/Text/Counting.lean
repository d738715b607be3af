import ComponentKit.Proofs.Text.Blank
import ComponentKit.Proofs.Text.Occurrence

/-!
# Counting occurrences

How often one text stands in another (`occurrences`), and lines that stand in a text in a given order (`InOrder`).
Where no occurrence goes through a seam, the occurrences in the two parts are all there are.
-/

namespace ComponentKit.Text

variable {needle text a b : Text} {line : Text} {lines : List Text}

/-! ## Numbers of occurrences -/

/-- At how many offsets a text that is not empty stands in another one. -/
def occurrences (needle : Text) : Text → Nat
  | [] => 0
  | c :: rest => (if needle.isPrefixOf (c :: rest) then 1 else 0) + occurrences needle rest

theorem occurrences_eq_zero_iff (hne : needle ≠ []) :
    occurrences needle text = 0 ↔ ¬ needle <:+: text := by
  induction text with
  | nil => simp [occurrences, hne]
  | cons c rest ih =>
    rw [occurrences, List.infix_cons_iff, not_or, ← ih, Nat.add_eq_zero_iff]
    refine and_congr_left' ?_
    rw [← List.isPrefixOf_iff_prefix]
    cases needle.isPrefixOf (c :: rest) <;> simp

theorem occurrences_self (hne : needle ≠ []) : occurrences needle needle = 1 := by
  cases needle with
  | nil => exact absurd rfl hne
  | cons c rest =>
    -- a text does not fit into a shorter one
    have hrest : occurrences (c :: rest) rest = 0 := by
      rw [occurrences_eq_zero_iff hne]
      intro h
      have := h.length_le
      rw [List.length_cons] at this
      omega
    have hself : (c :: rest).isPrefixOf (c :: rest) = true :=
      List.isPrefixOf_iff_prefix.mpr (List.prefix_refl _)
    rw [occurrences, hrest, if_pos hself]

/-- Two parts have no more occurrences than the whole. -/
theorem occurrences_add_le (needle a b : Text) :
    occurrences needle a + occurrences needle b ≤ occurrences needle (a ++ b) := by
  induction a with
  | nil => simp [occurrences]
  | cons c a ih =>
    have hstep : (if needle.isPrefixOf (c :: a) then 1 else 0)
        ≤ (if needle.isPrefixOf (c :: (a ++ b)) then 1 else 0) := by
      by_cases h : needle.isPrefixOf (c :: a) = true
      · have hlong : needle.isPrefixOf (c :: (a ++ b)) = true :=
          List.isPrefixOf_iff_prefix.mpr
            ((List.isPrefixOf_iff_prefix.mp h).trans (List.prefix_append (c :: a) b))
        exact Nat.le_of_eq (by rw [if_pos h, if_pos hlong])
      · rw [if_neg h]
        exact Nat.zero_le _
    rw [List.cons_append, occurrences, occurrences]
    omega

/-! ## Occurrences around a seam -/

theorem occurrences_append (h : Apart needle a b) :
    occurrences needle (a ++ b) = occurrences needle a + occurrences needle b := by
  induction a with
  | nil => simp [occurrences]
  | cons c a ih =>
    -- an occurrence that starts in the first part ends in it, or goes through the seam
    have hstep : needle.isPrefixOf (c :: (a ++ b)) = needle.isPrefixOf (c :: a) := by
      rw [Bool.eq_iff_iff, List.isPrefixOf_iff_prefix, List.isPrefixOf_iff_prefix]
      refine ⟨fun hp => ?_, fun hp => hp.trans (List.prefix_append (c :: a) b)⟩
      rcases List.prefix_or_prefix_of_prefix hp (List.prefix_append (c :: a) b) with h' | ⟨q, rfl⟩
      · exact h'
      · by_cases hq : q = []
        · simp [hq]
        · exact absurd ((List.prefix_append_right_inj (c :: a)).mp hp)
            (h (c :: a) q rfl (by simp) hq List.suffix_rfl)
    rw [List.cons_append, occurrences, occurrences, hstep, ih, Nat.add_assoc]
    intro front back hn hf hb hfa
    exact h front back hn hf hb (hfa.trans (List.suffix_cons c a))

/-- What is put in at a cut adds its own occurrences at most, if it stays apart from both sides. -/
theorem occurrences_insert_le {inserted : Text} (hleft : Apart needle a (inserted ++ b))
    (hright : Apart needle inserted b) :
    occurrences needle (a ++ (inserted ++ b))
      ≤ occurrences needle (a ++ b) + occurrences needle inserted := by
  -- the cut can only have parted occurrences, and both seams of the insert add none
  have := occurrences_add_le needle a b
  rw [occurrences_append hleft, occurrences_append hright]
  omega

/-! ## Lines of one statement -/

/-- A line that holds one statement: it is not blank in front and has its only semicolon at the end. -/
structure IsOneStatement (line : Text) : Prop where
  /-- It is one line. -/
  unbroken : ∀ c ∈ line, c ≠ '\n' ∧ c ≠ '\r'
  /-- It is one statement. -/
  last : ∃ init, line = init ++ [';'] ∧ ';' ∉ init
  /-- It is not indented. -/
  head : ∃ c tail, line = c :: tail ∧ isBlank c = false

namespace IsOneStatement

theorem ne_nil (h : IsOneStatement line) : line ≠ [] := by
  obtain ⟨c, tail, rfl, -⟩ := h.head
  simp

theorem getLast? (h : IsOneStatement line) : line.getLast? = some ';' := by
  obtain ⟨init, rfl, -⟩ := h.last
  exact List.getLast?_concat

/-- No statement goes through a line break. -/
theorem apart_of_startsWithBreak (h : IsOneStatement needle) (hb : startsWithBreak b) :
    Apart needle a b := by
  have hn : ∀ {c}, c ∈ needle.tail → c ≠ '\n' ∧ c ≠ '\r' :=
    fun hc => h.unbroken _ (List.mem_of_mem_tail hc)
  obtain ⟨rest, rfl | rfl⟩ := hb
  · exact apart_of_head rfl fun hc => (hn hc).1 rfl
  · exact apart_of_head rfl fun hc => (hn hc).2 rfl

/-- No statement goes on behind a semicolon or a line break. -/
theorem apart_of_getLast? (h : IsOneStatement needle)
    (ha : a.getLast? = some ';' ∨ a.getLast? = some '\n') : Apart needle a b := by
  obtain ⟨init, rfl, hinit⟩ := h.last
  rcases ha with ha | ha
  · exact apart_of_getLast ha (by rwa [List.dropLast_concat])
  · refine apart_of_getLast ha fun hn => (h.unbroken '\n' ?_).1 rfl
    exact (List.dropLast_sublist _).subset hn

/-- No statement starts in blanks. -/
theorem apart_of_blank (h : IsOneStatement needle) (ha : ∀ c ∈ a, isBlank c = true) : Apart needle a b := by
  obtain ⟨c, tail, rfl, hc⟩ := h.head
  refine apart_of_first rfl fun hmem => ?_
  rw [ha c hmem] at hc
  cases hc

theorem occurrences_blank (h : IsOneStatement needle) (ha : ∀ c ∈ a, isBlank c = true) :
    occurrences needle a = 0 := by
  rw [occurrences_eq_zero_iff h.ne_nil]
  intro hin
  obtain ⟨c, tail, rfl, hc⟩ := h.head
  rw [ha c (hin.subset List.mem_cons_self)] at hc
  cases hc

end IsOneStatement

/-! ## Lines in order -/

/-- Whether the lines stand in a text one after another. -/
def InOrder : List Text → Text → Prop
  | [], _ => True
  | line :: lines, text => ∃ before after, text = before ++ line ++ after ∧ InOrder lines after

theorem InOrder.append_right (h : InOrder lines text) (more : Text) : InOrder lines (text ++ more) := by
  induction lines generalizing text with
  | nil => trivial
  | cons line lines ih =>
    obtain ⟨before, after, rfl, hrest⟩ := h
    exact ⟨before, after ++ more, by simp only [List.append_assoc], ih hrest⟩

theorem InOrder.append_left (h : InOrder lines text) (more : Text) : InOrder lines (more ++ text) := by
  cases lines with
  | nil => trivial
  | cons line lines =>
    obtain ⟨before, after, rfl, hrest⟩ := h
    exact ⟨more ++ before, after, by simp only [List.append_assoc], hrest⟩

/-- A line behind the others is the last one. -/
theorem InOrder.concat (h : InOrder lines text) (between line : Text) :
    InOrder (lines ++ [line]) (text ++ between ++ line) := by
  induction lines generalizing text with
  | nil => exact ⟨text ++ between, [], by simp, trivial⟩
  | cons first lines ih =>
    obtain ⟨before, after, rfl, hrest⟩ := h
    exact ⟨before, after ++ between ++ line, by simp only [List.append_assoc], ih hrest⟩

theorem InOrder.infix (h : InOrder lines text) (hl : line ∈ lines) : line <:+: text := by
  induction lines generalizing text with
  | nil => exact absurd hl List.not_mem_nil
  | cons first lines ih =>
    obtain ⟨before, after, rfl, hrest⟩ := h
    rcases List.mem_cons.mp hl with rfl | hl
    · exact ⟨before, after, rfl⟩
    · exact (ih hrest hl).trans (List.suffix_append _ _).isInfix

end ComponentKit.Text
