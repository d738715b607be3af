import ComponentKit.Proofs.Name.Sign
import ComponentKit.Text.Line

/-!
# No blanks in the forms of a name

A change of case makes no character blank, and the `words` of a name have no blanks. So the forms of a name have
none: each of them stands on one line, whatever counts as the end of a line.
-/

namespace ComponentKit

namespace Text

/-! ## Blanks as ranges of code points -/

/-- The code points of the blanks, by the first and the last of each range. -/
def blankRanges : List (Nat × Nat) :=
  [(0x09, 0x0D), (0x1C, 0x20), (0x85, 0x85), (0xA0, 0xA0), (0x1680, 0x1680), (0x2000, 0x200A),
    (0x2028, 0x2029), (0x202F, 0x202F), (0x205F, 0x205F), (0x3000, 0x3000)]

theorem exists_blankRange {c : Char} (h : isBlank c = true) :
    ∃ range ∈ blankRanges, range.1 ≤ c.toNat ∧ c.toNat ≤ range.2 := by
  simp only [isBlank, Bool.or_eq_true, Bool.and_eq_true, decide_eq_true_eq, beq_iff_eq] at h
  simp only [blankRanges, List.exists_mem_cons_iff, List.not_mem_nil, false_and, exists_false, or_false]
  omega

theorem isBlank_of_isLineEnd {c : Char} (h : isLineEnd c = true) : isBlank c = true := by
  simp only [isLineEnd, isBlank, Bool.or_eq_true, Bool.and_eq_true, decide_eq_true_eq, beq_iff_eq] at h ⊢
  omega

end Text

/-! ## Case mappings -/

namespace Unicode

open Text

/-- Whether no image of a run is a blank. -/
def CaseRun.sparesBlanks (run : CaseRun) : Bool :=
  blankRanges.all fun range =>
    decide ((run.last : Int) + run.shift < range.1) || decide ((range.2 : Int) < run.first + run.shift)

theorem sparesBlanks_lowerRuns : lowerRuns.all CaseRun.sparesBlanks = true := by
  decide +kernel

theorem sparesBlanks_upperRuns : upperRuns.all CaseRun.sparesBlanks = true := by
  decide +kernel

theorem isBlank_shiftIn {runs : List CaseRun} (hruns : runs.all CaseRun.sparesBlanks = true) {c : Char}
    (hc : isBlank c = false) : isBlank (CaseRun.shiftIn runs c) = false := by
  rcases CaseRun.shiftIn_cases hruns c with heq | ⟨run, hspares, hfirst, hlast, heq⟩
  · rwa [heq]
  · -- the run would move the character into a range of blanks, past which its ends are moved
    by_contra hblank
    obtain ⟨range, hrange, hlow, hhigh⟩ := exists_blankRange (Bool.not_eq_false _ ▸ hblank)
    rw [heq] at hlow hhigh
    have hout := List.all_eq_true.mp hspares range hrange
    simp only [Bool.or_eq_true, decide_eq_true_eq] at hout
    have hpositive : 0 < range.1 := (by decide : ∀ range ∈ blankRanges, 0 < range.1) range hrange
    have := toNat_ofNat_cases ((c.toNat : Int) + run.shift).toNat
    omega

theorem isBlank_ascii {f : Char → Char}
    (hf : ∀ n < 128, isBlank (Char.ofNat n) = false → isBlank (f (Char.ofNat n)) = false) {c : Char}
    (hcode : c.toNat < 128) (hc : isBlank c = false) : isBlank (f c) = false := by
  have := hf c.toNat hcode
  rw [Char.ofNat_toNat] at this
  exact this hc

/-- The lower case of a character that is not blank has no blanks. -/
theorem isBlank_lowerCharacter {c : Char} (hc : isBlank c = false) :
    ∀ d ∈ lowerCharacter c, isBlank d = false := by
  rw [lowerCharacter]
  split
  · rename_i hcode
    simpa using isBlank_ascii (f := Char.toLower) (by decide) hcode hc
  · split
    · rename_i expansion hlookup
      exact eq_false_of_expansion (by decide) hlookup
    · simpa using isBlank_shiftIn sparesBlanks_lowerRuns hc

/-- Nor has its upper case. -/
theorem isBlank_upperCharacter {c : Char} (hc : isBlank c = false) :
    ∀ d ∈ upperCharacter c, isBlank d = false := by
  rw [upperCharacter]
  split
  · rename_i hcode
    simpa using isBlank_ascii (f := Char.toUpper) (by decide) hcode hc
  · split
    · rename_i expansion hlookup
      exact eq_false_of_expansion (by decide +kernel) hlookup
    · simpa using isBlank_shiftIn sparesBlanks_upperRuns hc

end Unicode

namespace Text

open Unicode

variable {text : Text} {c : Char}

theorem isBlank_lowerAfter {before : Text} (h : ∀ d ∈ text, isBlank d = false) :
    ∀ d ∈ lowerAfter before text, isBlank d = false := by
  induction text generalizing before with
  | nil => simp [lowerAfter]
  | cons c text ih =>
    obtain ⟨hc, htext⟩ := List.forall_mem_cons.mp h
    intro d hd
    rw [lowerAfter, List.mem_append] at hd
    rcases hd with hd | hd
    · split at hd
      -- the two forms of a sigma
      · rw [List.mem_singleton] at hd
        subst hd
        split <;> decide
      · exact isBlank_lowerCharacter hc d hd
    · exact ih htext d hd

theorem isBlank_capitalize (h : ∀ d ∈ text, isBlank d = false) :
    ∀ d ∈ capitalize text, isBlank d = false := by
  cases text with
  | nil => simp [capitalize]
  | cons c text =>
    obtain ⟨hc, htext⟩ := List.forall_mem_cons.mp h
    intro d hd
    rw [capitalize, List.mem_append] at hd
    exact hd.elim (isBlank_upperCharacter hc d) (isBlank_lowerAfter htext d)

end Text

/-! ## Names -/

namespace Name

open Text

variable {name : Text}

theorem isBlank_of_mem_words {w : Text} (hw : w ∈ words name) : ∀ c ∈ w, isBlank c = false := by
  intro c hc
  have hseparator := ((mem_words hw).2 c hc).2
  simp only [isSeparator, Bool.or_eq_false_iff] at hseparator
  exact hseparator.2

/-- The hyphenated form of a name has no blanks. -/
theorem isBlank_of_mem_kebab {c : Char} (hc : c ∈ kebab name) : isBlank c = false := by
  rcases mem_kebab hc with rfl | ⟨w, hw, hc⟩
  · decide
  · exact isBlank_lowerAfter (isBlank_of_mem_words hw) c hc

/-- Nor has its capitalized form. -/
theorem isBlank_of_mem_pascal {c : Char} (hc : c ∈ pascal name) : isBlank c = false := by
  obtain ⟨w, hw, hcw⟩ := List.mem_flatMap.mp hc
  exact isBlank_capitalize (isBlank_of_mem_words hw) c hcw

theorem ne_break_of_not_isBlank {c : Char} (h : isBlank c = false) : c ≠ '\n' ∧ c ≠ '\r' := by
  constructor <;> rintro rfl <;> cases h

/-- The forms of a name break no line. -/
theorem ne_break_of_mem_kebab {c : Char} (hc : c ∈ kebab name) : c ≠ '\n' ∧ c ≠ '\r' :=
  ne_break_of_not_isBlank (isBlank_of_mem_kebab hc)

theorem ne_break_of_mem_pascal {c : Char} (hc : c ∈ pascal name) : c ≠ '\n' ∧ c ≠ '\r' :=
  ne_break_of_not_isBlank (isBlank_of_mem_pascal hc)

end Name

end ComponentKit
