import ComponentKit.Proofs.Name.Ascii

/-!
# Signs in names

A change of case turns letters into letters and leaves the ASCII signs where they are: no character becomes one. So
the signs of a name that separate no words stand in `kebab` and in `pascal` of it in their order and as often as in
the name itself (`filter_kebab`, `filter_pascal`).
-/

namespace ComponentKit

/-! ## Case mappings -/

namespace Unicode

/-- Whether a character is an ASCII sign: neither a letter nor a figure, and not the character that stands
for code points that are none. -/
def isSign (c : Char) : Bool :=
  0 < c.toNat && c.toNat < 128 && !c.isAlphanum

/-- A code point that is none is read as zero. -/
theorem toNat_ofNat_cases (n : Nat) : (Char.ofNat n).toNat = n ∨ (Char.ofNat n).toNat = 0 := by
  by_cases hv : n.isValidChar
  · left
    rw [Char.ofNat, dif_pos hv]
    rfl
  · right
    rw [Char.ofNat, dif_neg hv]
    rfl

theorem isSign_ofNat {n : Nat} (h : 128 ≤ n) : isSign (Char.ofNat n) = false := by
  simp only [isSign, Bool.and_eq_false_iff, decide_eq_false_iff_not]
  rcases toNat_ofNat_cases n with hn | hn <;> omega

/-- Whether no image of a run is a sign: all are beyond ASCII, or there is one, which is a letter. -/
def CaseRun.sparesSigns (run : CaseRun) : Bool :=
  decide (128 ≤ (run.first : Int) + run.shift)
    || run.first == run.last && !isSign (Char.ofNat (run.first + run.shift).toNat)

theorem sparesSigns_lowerRuns : lowerRuns.all CaseRun.sparesSigns = true := by
  decide +kernel

theorem sparesSigns_upperRuns : upperRuns.all CaseRun.sparesSigns = true := by
  decide +kernel

/-- A character stays, or a run that has it moves it. What all runs have in common, this one has. -/
theorem CaseRun.shiftIn_cases {p : CaseRun → Bool} {runs : List CaseRun} (hruns : runs.all p = true)
    (c : Char) : shiftIn runs c = c ∨ ∃ run, p run = true ∧ run.first ≤ c.toNat ∧ c.toNat ≤ run.last ∧
      shiftIn runs c = Char.ofNat ((c.toNat : Int) + run.shift).toNat := by
  rw [shiftIn]
  split
  · rename_i run hrun
    have hcontains := List.find?_some hrun
    simp only [contains, Bool.and_eq_true, decide_eq_true_eq] at hcontains
    have hp := List.all_eq_true.mp hruns run (List.mem_of_find?_eq_some hrun)
    exact .inr ⟨run, hp, hcontains.1.1, hcontains.1.2, rfl⟩
  · exact .inl rfl

theorem isSign_shiftIn {runs : List CaseRun} (hruns : runs.all CaseRun.sparesSigns = true) {c : Char}
    (hc : 128 ≤ c.toNat) : isSign (CaseRun.shiftIn runs c) = false := by
  rcases CaseRun.shiftIn_cases hruns c with heq | ⟨run, hspares, hfirst, hlast, heq⟩
  · rw [heq]
    simp only [isSign, Bool.and_eq_false_iff, decide_eq_false_iff_not]
    exact .inl (by omega)
  · rw [heq]
    simp only [CaseRun.sparesSigns, Bool.or_eq_true, Bool.and_eq_true, decide_eq_true_eq, beq_iff_eq,
      Bool.not_eq_true'] at hspares
    rcases hspares with hbeyond | ⟨hone, hletter⟩
    · exact isSign_ofNat (by omega)
    · have hpoint : c.toNat = run.first := by omega
      rwa [hpoint]

/-- A property that no character of an expansion has, which can be checked for each of them. -/
theorem eq_false_of_expansion {p : Char → Bool} {expansions : List (Nat × List Nat)}
    (h : expansions.all (fun e => e.2.all fun n => !p (Char.ofNat n)) = true) {n : Nat}
    {expansion : List Nat} (hlookup : expansions.lookup n = some expansion) :
    ∀ c ∈ expansion.map Char.ofNat, p c = false := by
  intro c hc
  obtain ⟨m, hm, rfl⟩ := List.mem_map.mp hc
  have hmem : (n, expansion) ∈ expansions := by
    obtain ⟨front, back, rfl, -⟩ := List.lookup_eq_some_iff.mp hlookup
    exact List.mem_append_right front List.mem_cons_self
  simpa using List.all_eq_true.mp (List.all_eq_true.mp h _ hmem) m hm

/-- The lower case of a character beyond ASCII has no signs. -/
theorem isSign_lowerCharacter {c : Char} (hc : 128 ≤ c.toNat) :
    ∀ d ∈ lowerCharacter c, isSign d = false := by
  rw [lowerCharacter, if_neg (by omega)]
  split
  · rename_i expansion hlookup
    exact eq_false_of_expansion (by decide) hlookup
  · simpa using isSign_shiftIn sparesSigns_lowerRuns hc

/-- Nor has its upper case. -/
theorem isSign_upperCharacter {c : Char} (hc : 128 ≤ c.toNat) :
    ∀ d ∈ upperCharacter c, isSign d = false := by
  rw [upperCharacter, if_neg (by omega)]
  split
  · rename_i expansion hlookup
    exact eq_false_of_expansion (by decide +kernel) hlookup
  · simpa using isSign_shiftIn sparesSigns_upperRuns hc

end Unicode

namespace Text

open Unicode

variable {p : Char → Bool} {text : Text}

/-- Whether a property is one of some ASCII signs. -/
def IsOfSigns (p : Char → Bool) : Prop :=
  ∀ c, p c = true → isSign c = true

theorem IsOfSigns.eq_false (hp : IsOfSigns p) {c : Char} (hc : isSign c = false) : p c = false := by
  by_contra h
  rw [hp c (by simpa using h)] at hc
  cases hc

theorem IsOfSigns.filter_eq_nil (hp : IsOfSigns p) (h : ∀ c ∈ text, isSign c = false) :
    text.filter p = [] :=
  List.filter_eq_nil_iff.mpr fun c hc => by simp [hp.eq_false (h c hc)]

/-- A change of case of one ASCII character leaves a sign alone and makes none. -/
theorem filter_ascii (hp : IsOfSigns p) {f : Char → Char}
    (hf : ∀ n < 128, if isSign (Char.ofNat n) then f (Char.ofNat n) = Char.ofNat n
      else isSign (f (Char.ofNat n)) = false) {c : Char} (hc : c.toNat < 128) :
    [f c].filter p = [c].filter p := by
  have hcase := hf c.toNat hc
  rw [Char.ofNat_toNat] at hcase
  split at hcase
  · rw [hcase]
  · rename_i hletter
    rw [hp.filter_eq_nil (by simpa using hcase), hp.filter_eq_nil (by simpa using hletter)]

theorem filter_beyond (hp : IsOfSigns p) {c : Char} (hc : ¬ c.toNat < 128) : [c].filter p = [] := by
  refine hp.filter_eq_nil fun d hd => ?_
  rw [List.mem_singleton.mp hd]
  simp [isSign, hc]

theorem filter_lowerCharacter (hp : IsOfSigns p) (c : Char) :
    (lowerCharacter c).filter p = [c].filter p := by
  by_cases hc : c.toNat < 128
  · rw [lowerCharacter, if_pos hc]
    exact filter_ascii hp (by decide) hc
  · rw [filter_beyond hp hc, hp.filter_eq_nil (isSign_lowerCharacter (by omega))]

theorem filter_upperCharacter (hp : IsOfSigns p) (c : Char) :
    (upperCharacter c).filter p = [c].filter p := by
  by_cases hc : c.toNat < 128
  · rw [upperCharacter, if_pos hc]
    exact filter_ascii hp (by decide) hc
  · rw [filter_beyond hp hc, hp.filter_eq_nil (isSign_upperCharacter (by omega))]

theorem filter_lowerAfter (hp : IsOfSigns p) (before text : Text) :
    (lowerAfter before text).filter p = text.filter p := by
  induction text generalizing before with
  | nil => rfl
  | cons c text ih =>
    have himage : (if c = 'Σ' then [if nextIsCased before && !nextIsCased text then 'ς' else 'σ']
        else lowerCharacter c).filter p = [c].filter p := by
      split
      -- a sigma depends on its neighbours, but neither of its two forms is a sign
      · rename_i hsigma
        have hsmall : p 'σ' = false := hp.eq_false (isSign_ofNat (n := 0x3C3) (by decide))
        have hfinal : p 'ς' = false := hp.eq_false (isSign_ofNat (n := 0x3C2) (by decide))
        have hcapital : p 'Σ' = false := hp.eq_false (isSign_ofNat (n := 0x3A3) (by decide))
        rw [hsigma]
        split <;> simp only [List.filter_cons, List.filter_nil, hsmall, hfinal, hcapital,
          Bool.false_eq_true, if_false]
      · exact filter_lowerCharacter hp c
    rw [lowerAfter, List.filter_append, himage, ih, ← List.filter_append, List.singleton_append]

/-- The signs of a text are those of its lower case. -/
theorem filter_lower (hp : IsOfSigns p) (text : Text) : (lower text).filter p = text.filter p :=
  filter_lowerAfter hp [] text

theorem filter_capitalize (hp : IsOfSigns p) (text : Text) : (capitalize text).filter p = text.filter p := by
  cases text with
  | nil => rfl
  | cons c text =>
    rw [capitalize, List.filter_append, filter_upperCharacter hp, filter_lower hp, ← List.filter_append,
      List.singleton_append]

end Text

namespace Name

open Text

variable {p : Char → Bool} {name : Text}

/-- The words of a name have the characters of the name that separate none. -/
theorem flatten_words (name : Text) : (words name).flatten = name.filter (!isSeparator ·) := by
  -- pushing a character puts it in front of the first word, or drops it if it separates
  have hfold : ∀ name : Text, (name.foldr pushCharacter []).flatten = name.filter (!isSeparator ·) := by
    intro name
    induction name with
    | nil => rfl
    | cons c name ih =>
      rw [List.foldr_cons]
      cases hws : name.foldr pushCharacter [] with
      | nil =>
        rw [hws] at ih
        cases hc : isSeparator c <;> simp [pushCharacter, hc, ← ih]
      | cons w ws =>
        rw [hws] at ih
        cases hc : isSeparator c <;> simp [pushCharacter, hc, ← ih]
  rw [words, List.flatten_filter_not_isEmpty, hfold]

theorem filter_join (hyphen : p '-' = false) (ws : List Text) :
    (join "-" ws).filter p = ws.flatMap (·.filter p) := by
  induction ws with
  | nil => rfl
  | cons w ws ih =>
    cases ws with
    | nil => simp [join]
    | cons v ws =>
      rw [join_hyphen, List.filter_append, List.filter_cons_of_neg (by simp [hyphen]), ih,
        List.flatMap_cons (x := w)]

/-- The signs of a name that separate nothing are those of its words, whatever the case of these. -/
theorem filter_words (hseparator : ∀ c, p c = true → isSeparator c = false) {f : Text → Text}
    (hf : ∀ w, (f w).filter p = w.filter p) :
    (words name).flatMap (fun w => (f w).filter p) = name.filter p := by
  have hwords : (words name).flatMap (fun w => (f w).filter p) = (words name).flatten.filter p := by
    simp only [hf, List.filter_flatten, List.flatMap_def]
  rw [hwords, flatten_words, List.filter_filter]
  refine List.filter_congr fun c _ => ?_
  cases hc : p c with
  | false => rfl
  | true => simp [hseparator c hc]

/-- The hyphenated form has the signs of the name that separate nothing. -/
theorem filter_kebab (hp : IsOfSigns p) (hseparator : ∀ c, p c = true → isSeparator c = false)
    (name : Text) : (kebab name).filter p = name.filter p := by
  have hyphen : p '-' = false := by
    by_contra h
    exact absurd (hseparator '-' (by simpa using h)) (by decide)
  rw [kebab, filter_join hyphen, List.flatMap_map]
  exact filter_words hseparator (filter_lower hp)

/-- So has the capitalized form. -/
theorem filter_pascal (hp : IsOfSigns p) (hseparator : ∀ c, p c = true → isSeparator c = false)
    (name : Text) : (pascal name).filter p = name.filter p := by
  rw [pascal, List.filter_flatMap]
  exact filter_words hseparator (filter_capitalize hp)

section Members

variable {sign : Char} (hsign : Unicode.isSign sign = true)

include hsign

theorem isOfSigns_beq : IsOfSigns (· == sign) := by
  intro c hc
  rwa [beq_iff_eq.mp hc]

/-- A sign that separates nothing is in the hyphenated form of a name if it is in the name. -/
theorem mem_kebab_iff (hseparator : isSeparator sign = false) : sign ∈ kebab name ↔ sign ∈ name := by
  have hmem : ∀ text : Text, sign ∈ text ↔ sign ∈ text.filter (· == sign) := by simp
  rw [hmem (kebab name), hmem name, filter_kebab (isOfSigns_beq hsign)
    fun c hc => by rwa [beq_iff_eq.mp hc]]

/-- It is in the capitalized form as well. -/
theorem mem_pascal_iff (hseparator : isSeparator sign = false) : sign ∈ pascal name ↔ sign ∈ name := by
  have hmem : ∀ text : Text, sign ∈ text ↔ sign ∈ text.filter (· == sign) := by simp
  rw [hmem (pascal name), hmem name, filter_pascal (isOfSigns_beq hsign)
    fun c hc => by rwa [beq_iff_eq.mp hc]]

end Members

end Name

end ComponentKit
