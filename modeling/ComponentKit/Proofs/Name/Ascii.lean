import ComponentKit.Proofs.Name.Words
import ComponentKit.Proofs.Result

/-!
# Plain names

A name `IsPlain` when its words have ASCII letters and digits only, which every accepted name has. Case mappings of
such words go character by character, so that `kebab` of a plain name is plain and its own hyphenated form.
-/

namespace ComponentKit.Text

/-! ## Case of ASCII words -/

/-- Whether all characters are ASCII letters and digits. -/
def isAscii (text : Text) : Prop :=
  ∀ c ∈ text, c.isAlphanum = true

theorem toNat_lt_of_isAlphanum {c : Char} (h : c.isAlphanum = true) : c.toNat < 128 := by
  simp only [Char.isAlphanum, Char.isAlpha, Char.isUpper, Char.isLower, Char.isDigit,
    Bool.or_eq_true, Bool.and_eq_true, decide_eq_true_eq, UInt32.le_iff_toNat_le] at h
  have hz : 'Z'.val.toNat < 128 ∧ 'z'.val.toNat < 128 ∧ '9'.val.toNat < 128 := by decide
  show c.val.toNat < 128
  omega

/-- A property that all ASCII letters and digits have, which can be checked for each of them. -/
theorem forall_isAlphanum {p : Char → Prop} [DecidablePred p]
    (h : ∀ n < 128, (Char.ofNat n).isAlphanum = true → p (Char.ofNat n)) {c : Char}
    (hc : c.isAlphanum = true) : p c := by
  have := h c.toNat (toNat_lt_of_isAlphanum hc)
  rw [Char.ofNat_toNat] at this
  exact this hc

theorem isLower_or_isDigit_toLower {c : Char} (h : c.isAlphanum = true) :
    (c.toLower.isLower || c.toLower.isDigit) = true :=
  forall_isAlphanum (p := fun c => (c.toLower.isLower || c.toLower.isDigit) = true) (by decide) h

theorem toLower_toLower {c : Char} (h : c.isAlphanum = true) : c.toLower.toLower = c.toLower :=
  forall_isAlphanum (p := fun c => c.toLower.toLower = c.toLower) (by decide) h

theorem toUpper_toLower {c : Char} (h : c.isAlphanum = true) : c.toLower.toUpper = c.toUpper :=
  forall_isAlphanum (p := fun c => c.toLower.toUpper = c.toUpper) (by decide) h

theorem isAlphanum_toUpper {c : Char} (h : c.isAlphanum = true) : c.toUpper.isAlphanum = true :=
  forall_isAlphanum (p := fun c => c.toUpper.isAlphanum = true) (by decide) h

theorem isAlphanum_of_isLower_or_isDigit {c : Char} (h : (c.isLower || c.isDigit) = true) :
    c.isAlphanum = true := by
  rcases Bool.or_eq_true_iff.mp h with h | h <;> simp [Char.isAlphanum, Char.isAlpha, h]

theorem lowerAfter_eq_map {before text : Text} (h : ∀ c ∈ text, c.toNat < 128) :
    lowerAfter before text = text.map Char.toLower := by
  induction text generalizing before with
  | nil => rfl
  | cons c text ih =>
    have hc := h c List.mem_cons_self
    have hsigma : c ≠ 'Σ' := by
      rintro rfl
      exact absurd hc (by decide)
    rw [lowerAfter, ih fun d hd => h d (List.mem_cons_of_mem c hd), if_neg hsigma,
      Unicode.lowerCharacter, if_pos hc]
    rfl

theorem lower_eq_map {text : Text} (h : isAscii text) : lower text = text.map Char.toLower :=
  lowerAfter_eq_map fun c hc => toNat_lt_of_isAlphanum (h c hc)

theorem lower_cons {c : Char} {text : Text} (h : isAscii (c :: text)) :
    lower (c :: text) = c.toLower :: lower text := by
  rw [lower_eq_map h, lower_eq_map (List.forall_mem_cons.mp h).2, List.map_cons]

theorem capitalize_cons {c : Char} {text : Text} (h : isAscii (c :: text)) :
    capitalize (c :: text) = c.toUpper :: lower text := by
  rw [capitalize, Unicode.upperCharacter, if_pos (toNat_lt_of_isAlphanum (h c List.mem_cons_self)),
    List.singleton_append]

theorem isAscii_lower {text : Text} (h : isAscii text) : isAscii (lower text) := by
  intro c hc
  rw [lower_eq_map h] at hc
  obtain ⟨d, hd, rfl⟩ := List.mem_map.mp hc
  exact isAlphanum_of_isLower_or_isDigit (isLower_or_isDigit_toLower (h d hd))

theorem lower_lower {text : Text} (h : isAscii text) : lower (lower text) = lower text := by
  rw [lower_eq_map (isAscii_lower h), lower_eq_map h, List.map_map]
  exact List.map_congr_left fun c hc => toLower_toLower (h c hc)

/-- Whether a word is capitalized depends on its letters alone. -/
theorem capitalize_lower {text : Text} (h : isAscii text) : capitalize (lower text) = capitalize text := by
  cases text with
  | nil => rfl
  | cons c text =>
    obtain ⟨hc, htext⟩ := List.forall_mem_cons.mp h
    have hlower := isAscii_lower h
    rw [lower_cons h] at hlower ⊢
    rw [capitalize_cons hlower, capitalize_cons h, lower_lower htext, toUpper_toLower hc]

theorem isAscii_capitalize {text : Text} (h : isAscii text) : isAscii (capitalize text) := by
  cases text with
  | nil => exact h
  | cons c text =>
    have hc : c.isAlphanum = true := h c (by simp)
    intro d hd
    rw [capitalize_cons h, List.mem_cons] at hd
    rcases hd with rfl | hd
    · exact isAlphanum_toUpper hc
    · exact isAscii_lower (fun e he => h e (List.mem_cons_of_mem c he)) d hd

end ComponentKit.Text

namespace ComponentKit.Name

open Text

variable {name : Text}

/-! ## Plain names -/

/-- A name whose `words` have ASCII letters and digits only. -/
def IsPlain (name : Text) : Prop :=
  ∀ w ∈ words name, isAscii w

theorem isSeparator_of_isAlphanum {c : Char} (h : c.isAlphanum = true) : isSeparator c = false :=
  forall_isAlphanum (p := fun c => isSeparator c = false) (by decide) h

/-- Whether a character can stand in `kebab` of a plain name. -/
def isKeyCharacter (c : Char) : Bool :=
  c.isLower || c.isDigit || c == '-'

/-- A key has no capital letters. -/
theorem isUpper_of_isKeyCharacter {c : Char} (h : isKeyCharacter c = true) : c.isUpper = false := by
  simp only [isKeyCharacter, Bool.or_eq_true, beq_iff_eq] at h
  rcases h with h | rfl
  · have halphanum : c.isAlphanum = true := isAlphanum_of_isLower_or_isDigit (by simpa using h)
    exact forall_isAlphanum (p := fun c => c.isLower = true ∨ c.isDigit = true → c.isUpper = false)
      (by decide) halphanum h
  · rfl

theorem IsPlain.isKeyCharacter_of_mem_kebab (h : IsPlain name) {c : Char} (hc : c ∈ kebab name) :
    isKeyCharacter c = true := by
  rcases mem_kebab hc with rfl | ⟨w, hw, hc⟩
  · rfl
  · rw [lower_eq_map (h w hw)] at hc
    obtain ⟨d, hd, rfl⟩ := List.mem_map.mp hc
    rw [isKeyCharacter, isLower_or_isDigit_toLower (h w hw d hd), Bool.true_or]

theorem IsPlain.words_kebab (h : IsPlain name) : words (kebab name) = (words name).map lower := by
  refine words_join fun w hw => ?_
  obtain ⟨v, hv, rfl⟩ := List.mem_map.mp hw
  have hlower := isAscii_lower (h v hv)
  refine ⟨?_, fun c hc => isSeparator_of_isAlphanum (hlower c hc)⟩
  rw [lower_eq_map (h v hv)]
  simpa using (mem_words hv).1

/-- The hyphenated form of a plain name is plain. -/
theorem IsPlain.kebab (h : IsPlain name) : IsPlain (Name.kebab name) := by
  intro w hw
  rw [h.words_kebab] at hw
  obtain ⟨v, hv, rfl⟩ := List.mem_map.mp hw
  exact isAscii_lower (h v hv)

/-- The hyphenated form of a plain name is its own hyphenated form. -/
theorem IsPlain.kebab_kebab (h : IsPlain name) : Name.kebab (Name.kebab name) = Name.kebab name := by
  have hmap : ((words name).map lower).map lower = (words name).map lower := by
    rw [List.map_map]
    exact List.map_congr_left fun w hw => lower_lower (h w hw)
  rw [Name.kebab, h.words_kebab, hmap]
  rfl

theorem IsPlain.isAscii_pascal (h : IsPlain name) : isAscii (pascal name) := by
  intro c hc
  obtain ⟨w, hw, hcw⟩ := List.mem_flatMap.mp hc
  exact isAscii_capitalize (h w hw) c hcw

/-! ## Accepted names -/

/-- What `check` finds of the tidied form of a name that a kind accepts. -/
structure IsAccepted (raw : Text) (kind : Kind) (maxLength : Int) : Prop where
  wellFormed : isWellFormed (tidy raw) = true
  short : (tidy raw).length ≤ maxLength
  notReserved : lower (tidy raw) ∉ reserved
  notSuffixed : kind.conventions.suffixWord ≠ [] →
    endsInSuffix (tidy raw) kind.conventions.suffixWord = false

theorem check_eq_ok {raw clean : Text} {maxLength : Int} (h : check raw maxLength = .ok clean) :
    clean = tidy raw ∧ isWellFormed clean = true ∧ clean.length ≤ maxLength ∧ lower clean ∉ reserved := by
  simp only [check] at h
  -- one split for each of the four refusals, in the order in which they are checked
  split at h
  · cases h
  · split at h
    · cases h
    · rename_i hformed
      split at h
      · cases h
      · rename_i hshort
        split at h
        · cases h
        · rename_i hreserved
          obtain rfl := Except.ok.inj h
          exact ⟨rfl, by simpa using hformed, Int.not_lt.mp hshort, by simpa using hreserved⟩

/-- A name has passed the checks before it is used in its hyphenated form. -/
theorem isAccepted_of_validate {raw normalized : Text} {kind : Kind} {maxLength : Int}
    (h : validate raw kind maxLength = .ok normalized) :
    IsAccepted raw kind maxLength ∧ normalized = Name.kebab raw := by
  obtain ⟨clean, hc, h⟩ := bind_eq_ok.mp h
  obtain ⟨rfl, hformed, hshort, hreserved⟩ := check_eq_ok hc
  dsimp only at h
  split at h
  · cases h
  · rename_i hsuffix
    have hkebab : Name.kebab (tidy raw) = normalized := pure_eq_ok.mp h
    -- the name that was checked is the tidied one, whose words are those of the given one
    refine ⟨⟨hformed, hshort, hreserved, fun hne => ?_⟩, by rw [← hkebab, Name.kebab, words_tidy, Name.kebab]⟩
    simpa [hne] using hsuffix

theorem exists_cons_of_isWellFormed {text : Text} (h : isWellFormed text = true) :
    ∃ c rest, text = c :: rest ∧ c.isAlpha = true ∧ isSeparator c = false := by
  cases text with
  | nil => cases h
  | cons c rest =>
    rw [isWellFormed, Bool.and_eq_true] at h
    exact ⟨c, rest, rfl, h.1, isSeparator_of_isAlphanum (by simp [Char.isAlphanum, h.1])⟩

theorem forall_of_isWellFormed {text : Text} (h : isWellFormed text = true) :
    ∀ c ∈ text, c.isAlphanum = true ∨ c = '-' ∨ c = '_' := by
  cases text with
  | nil => simp
  | cons d rest =>
    simp only [isWellFormed, Bool.and_eq_true, List.all_eq_true, Bool.or_eq_true, beq_iff_eq] at h
    intro c hc
    rcases List.mem_cons.mp hc with rfl | hc
    · exact .inl (by simp [Char.isAlphanum, h.1])
    · rcases h.2 c hc with (h | h) | h
      · exact .inl h
      · exact .inr (.inr h)
      · exact .inr (.inl h)

/-- An accepted name is plain, and is used in its hyphenated form. -/
theorem validate_eq_ok {raw normalized : Text} {kind : Kind} {maxLength : Int}
    (h : validate raw kind maxLength = .ok normalized) : IsPlain raw ∧ normalized = Name.kebab raw := by
  obtain ⟨haccepted, hnormalized⟩ := isAccepted_of_validate h
  refine ⟨fun w hw c hc => ?_, hnormalized⟩
  rw [← words_tidy] at hw
  obtain ⟨hmem, hsep⟩ := (mem_words hw).2 c hc
  rcases forall_of_isWellFormed haccepted.wellFormed c hmem with h | rfl | rfl
  · exact h
  · cases hsep
  · cases hsep

end ComponentKit.Name
