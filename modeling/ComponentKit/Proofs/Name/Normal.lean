import ComponentKit.Proofs.Name.Joints

/-!
# The normal form of a name

An accepted name is used in its hyphenated form, which `IsKey`: words of small letters and digits with single
hyphens between them. The checks see the tidied name instead. Both are judged alike unless the tidied name ends in
a hyphen or an underscore: these hide its last word from the checks, and the key has lost them
(`validate_normalized`).
-/

namespace ComponentKit.Name

open Text

variable {name raw key : Text} {kind : Kind} {maxLength : Int}

/-! ## Keys -/

/-- Whether a character can stand in a word of a key. -/
def isSmall (c : Char) : Bool :=
  c.isLower || c.isDigit

/-- Whether a text is a small letter with small letters and digits behind it, and any number of words of these behind
a hyphen each. This is the form that `validate` returns. -/
def IsKey (text : Text) : Prop :=
  ∃ (c : Char) (first : Text) (others : List Text), text = c :: first ++ others.flatMap ('-' :: ·) ∧
    c.isLower = true ∧ (∀ d ∈ first, isSmall d = true) ∧
    ∀ w ∈ others, w ≠ [] ∧ ∀ d ∈ w, isSmall d = true

theorem isAlphanum_of_isSmall {c : Char} (h : isSmall c = true) : c.isAlphanum = true :=
  isAlphanum_of_isLower_or_isDigit h

theorem toLower_of_isSmall {c : Char} (h : isSmall c = true) : c.toLower = c :=
  forall_isAlphanum (p := fun c => isSmall c = true → c.toLower = c) (by decide) (isAlphanum_of_isSmall h) h

/-- The hyphenated form of a plain name that starts with a letter is a key. -/
theorem IsPlain.isKey_kebab (h : IsPlain name) (hfirst : StartsWithLetter name) : IsKey (Name.kebab name) := by
  obtain ⟨c, first, others, hc, hwords⟩ := hfirst
  have hlower : ∀ {w : Text}, isAscii w → ∀ d ∈ lower w, isSmall d = true := by
    intro w hw d hd
    rw [lower_eq_map hw] at hd
    obtain ⟨e, he, rfl⟩ := List.mem_map.mp hd
    exact isLower_or_isDigit_toLower (hw e he)
  have hforall := h.words_forall
  rw [hwords] at hforall
  obtain ⟨⟨hword, -⟩, hothers⟩ := List.forall_mem_cons.mp hforall
  obtain ⟨halphanum, hrest⟩ := List.forall_mem_cons.mp hword
  -- a small letter, the rest of the first word, and the others behind hyphens
  refine ⟨c.toLower, lower first, others.map lower, ?_, ?_, hlower hrest, ?_⟩
  · rw [Name.kebab, hwords, List.map_cons, join_cons, lower_cons hword]
  · exact forall_isAlphanum (p := fun c => c.isAlpha = true → c.toLower.isLower = true) (by decide) halphanum hc
  · intro w hw
    obtain ⟨v, hv, rfl⟩ := List.mem_map.mp hw
    refine ⟨?_, hlower (hothers v hv).1⟩
    rw [lower_eq_map (hothers v hv).1]
    simpa using (hothers v hv).2

namespace IsKey

theorem forall_mem (h : IsKey key) : ∀ c ∈ key, isSmall c = true ∨ c = '-' := by
  obtain ⟨c, first, others, rfl, hc, hfirst, hothers⟩ := h
  intro d hd
  rw [List.mem_append, List.mem_cons, List.mem_flatMap] at hd
  rcases hd with (rfl | hd) | ⟨w, hw, hd⟩
  · exact .inl (by simp [isSmall, hc])
  · exact .inl (hfirst d hd)
  · exact (List.mem_cons.mp hd).elim .inr fun hd => .inl ((hothers w hw).2 d hd)

theorem notMem (h : IsKey key) {c : Char} (hsmall : isSmall c = false) (hne : c ≠ '-') : c ∉ key := by
  intro hmem
  rcases h.forall_mem c hmem with hc | hc
  · rw [hsmall] at hc
    cases hc
  · exact hne hc

theorem isBlank_eq_false (h : IsKey key) : ∀ c ∈ key, isBlank c = false := by
  intro c hc
  rcases h.forall_mem c hc with hsmall | rfl
  · exact forall_isAlphanum (p := fun c => isBlank c = false) (by decide) (isAlphanum_of_isSmall hsmall)
  · decide

theorem lower_eq (h : IsKey key) : lower key = key := by
  have hcode : ∀ c ∈ key, c.toNat < 128 ∧ c.toLower = c := by
    intro c hc
    rcases h.forall_mem c hc with hsmall | rfl
    · exact ⟨toNat_lt_of_isAlphanum (isAlphanum_of_isSmall hsmall), toLower_of_isSmall hsmall⟩
    · decide
  rw [lower, lowerAfter_eq_map fun c hc => (hcode c hc).1]
  exact (List.map_congr_left fun c hc => (hcode c hc).2).trans (List.map_id key)

theorem isWellFormed (h : IsKey key) : isWellFormed key = true := by
  have hmem := h.forall_mem
  obtain ⟨c, first, others, rfl, hc, -⟩ := h
  rw [List.cons_append] at hmem ⊢
  rw [Name.isWellFormed, Bool.and_eq_true, List.all_eq_true]
  refine ⟨by simp [Char.isAlpha, hc], fun d hd => ?_⟩
  rcases hmem d (List.mem_cons_of_mem c hd) with hsmall | rfl
  · simp [isAlphanum_of_isSmall hsmall]
  · rfl

end IsKey

/-! ## Tidying and lengths -/

theorem hyphenateBlanks_eq_self (h : ∀ c ∈ name, isBlank c = false) : hyphenateBlanks name = name := by
  induction name with
  | nil => rfl
  | cons c name ih =>
    obtain ⟨hc, hname⟩ := List.forall_mem_cons.mp h
    rw [hyphenateBlanks.eq_def]
    simp only [hc, Bool.false_eq_true, if_false, ih hname]

/-- A text without blanks is tidy. -/
theorem tidy_eq_self (h : ∀ c ∈ name, isBlank c = false) : tidy name = name := by
  have hdrop : ∀ {text : Text}, (∀ c ∈ text, isBlank c = false) → text.dropWhile isBlank = text := by
    intro text htext
    cases text with
    | nil => rfl
    | cons c text => exact List.dropWhile_cons_of_neg (by simp [htext c List.mem_cons_self])
  have htrim : trim name = name := by
    rw [trim, trimStart, hdrop h, trimEnd, hdrop fun c hc => h c (List.mem_reverse.mp hc), List.reverse_reverse]
  rw [tidy, htrim, hyphenateBlanks_eq_self h]

/-- The words of a name with something between them are not longer than the name. -/
theorem sum_words_le (name : Text) : ((words name).map (·.length + 1)).sum ≤ name.length + 1 := by
  -- before the empty words are dropped: every character makes a word longer or begins a new one
  have hfold : ((name.foldr pushCharacter []).map (·.length + 1)).sum ≤ name.length + 1 := by
    induction name with
    | nil => simp
    | cons c name ih =>
      rw [List.foldr_cons]
      cases hparts : name.foldr pushCharacter [] with
      | nil => cases hc : isSeparator c <;> simp [pushCharacter, hc]
      | cons current others =>
        rw [hparts] at ih
        cases hc : isSeparator c <;> simp [pushCharacter, hc] at ih ⊢ <;> omega
  refine Nat.le_trans (List.Sublist.sum_le_sum (List.filter_sublist.map _) fun _ _ => Nat.zero_le _) hfold

theorem length_join_add_one (word : Text) (others : List Text) :
    (join "-" (word :: others)).length + 1 = ((word :: others).map (·.length + 1)).sum := by
  have hothers : (others.flatMap ('-' :: ·)).length = (others.map (·.length + 1)).sum := List.length_flatMap
  rw [join_cons, List.length_append, List.map_cons, List.sum_cons, hothers]
  omega

/-- The hyphenated form of a plain name is not longer than the name. -/
theorem IsPlain.length_kebab_le (h : IsPlain name) : (Name.kebab name).length ≤ name.length := by
  have hsum := sum_words_le name
  rw [Name.kebab]
  cases hwords : words name with
  | nil => simp [join]
  | cons word others =>
    have hlength : (List.map lower (word :: others)).map (·.length + 1)
        = (word :: others).map (·.length + 1) := by
      rw [List.map_map, ← hwords]
      exact List.map_congr_left fun w hw => by simp [lower_eq_map (h w hw)]
    rw [hwords, ← hlength, List.map_cons, ← length_join_add_one] at hsum
    rw [List.map_cons]
    omega

theorem IsAccepted.length_kebab_le (haccepted : IsAccepted raw kind maxLength) (h : IsPlain raw) :
    (Name.kebab raw).length ≤ maxLength := by
  have hwords : Name.kebab (tidy raw) = Name.kebab raw := by rw [Name.kebab, words_tidy, Name.kebab]
  have htidy : IsPlain (tidy raw) := fun w hw => h w (by rwa [words_tidy] at hw)
  have hshort := htidy.length_kebab_le
  rw [hwords] at hshort
  exact Int.le_trans (Int.ofNat_le.mpr hshort) haccepted.short

/-! ## The checks of a key -/

/-- Of a key that is short enough the checks see whether it is reserved. -/
theorem IsKey.check (h : IsKey key) (hshort : key.length ≤ maxLength) :
    check key maxLength = if reserved.contains key then .error (.reserved key) else .ok key := by
  have hblank : allBlank key = false := by
    obtain ⟨c, first, others, rfl, hc, -⟩ := id h
    have hfirst := h.isBlank_eq_false c (by simp)
    simp [allBlank, hfirst]
  simp only [Name.check, hblank, tidy_eq_self h.isBlank_eq_false, h.isWellFormed, h.lower_eq,
    Int.not_lt.mpr hshort, Bool.not_true, Bool.false_eq_true, if_false]

/-- A key ends in the word of its kind exactly if it has this word behind its last hyphen. -/
theorem IsKey.endsInSuffix (h : IsKey key) (hword : kind.conventions.suffixWord ≠ []) :
    endsInSuffix key kind.conventions.suffixWord = endsWith key ('-' :: kind.conventions.suffixWord) := by
  have hnot : ∀ {c : Char} {ending : Text}, isSmall c = false → c ≠ '-' → c ∈ ending →
      endsWith key ending = false := by
    intro c ending hsmall hne hmem
    rw [endsWith, Bool.eq_false_iff]
    exact fun hends => h.notMem hsmall hne ((List.isSuffixOf_iff_suffix.mp hends).subset hmem)
  have hcapital : ∃ c ∈ capitalize kind.conventions.suffixWord, isSmall c = false ∧ c ≠ '-' := by
    cases kind with
    | util => exact absurd rfl hword
    | _ => exact ⟨_, List.mem_cons_self, by decide, by decide⟩
  obtain ⟨c, hmem, hsmall, hne⟩ := hcapital
  rw [Name.endsInSuffix, h.lower_eq, hnot (c := '_') (by decide) (by decide) List.mem_cons_self,
    hnot hsmall hne hmem, Bool.or_false, Bool.or_false]

/-- A key that is short enough is accepted as it is, unless it is reserved or ends in the word of the kind. -/
theorem IsKey.validate (h : IsKey key) (hkebab : Name.kebab key = key) (hshort : key.length ≤ maxLength)
    (kind : Kind) :
    validate key kind maxLength =
      if reserved.contains key then .error (.reserved key)
      else if !kind.conventions.suffixWord.isEmpty && endsWith key ('-' :: kind.conventions.suffixWord) then
        .error (.suffixed kind.conventions.suffixWord)
      else .ok key := by
  rw [Name.validate, h.check hshort]
  by_cases hreserved : reserved.contains key = true
  · rw [if_pos hreserved, if_pos hreserved]
    rfl
  · rw [if_neg hreserved, if_neg hreserved]
    by_cases hword : kind.conventions.suffixWord = []
    · simp [hword, hkebab, bind, Except.bind, pure, Except.pure]
    · simp only [bind, Except.bind, h.endsInSuffix hword, hkebab]
      rfl

/-! ## The last word -/

theorem IsAccepted.lower_tidy (h : IsAccepted raw kind maxLength) :
    lower (tidy raw) = (tidy raw).map Char.toLower := by
  refine lowerAfter_eq_map fun c hc => ?_
  rcases forall_of_isWellFormed h.wellFormed c hc with halphanum | rfl | rfl
  · exact toNat_lt_of_isAlphanum halphanum
  · decide
  · decide

theorem exists_last_separator {text : Text} (h : ∃ c ∈ text, isSeparator c = true) :
    ∃ front s last, text = front ++ s :: last ∧ isSeparator s = true ∧ ∀ c ∈ last, isSeparator c = false := by
  induction text with
  | nil => simp at h
  | cons c text ih =>
    by_cases hmore : ∃ d ∈ text, isSeparator d = true
    · obtain ⟨front, s, last, rfl, hs, hlast⟩ := ih hmore
      exact ⟨c :: front, s, last, rfl, hs, hlast⟩
    · simp only [not_exists, not_and, Bool.not_eq_true] at hmore
      obtain ⟨d, hd, hsep⟩ := h
      rcases List.mem_cons.mp hd with rfl | hd
      · exact ⟨[], d, text, rfl, hsep, hmore⟩
      · rw [hmore d hd] at hsep
        cases hsep

theorem join_concat {ws : List Text} (hne : ws ≠ []) (word : Text) :
    join "-" (ws ++ [word]) = join "-" ws ++ '-' :: word := by
  obtain ⟨first, others, rfl⟩ := List.exists_cons_of_ne_nil hne
  rw [List.cons_append, join_cons, join_cons, List.flatMap_append, List.append_assoc]
  simp

/-- The part behind the last hyphen. -/
theorem eq_of_append_hyphen {x y u v : Text} (hu : '-' ∉ u) (hv : '-' ∉ v)
    (h : x ++ '-' :: u = y ++ '-' :: v) : u = v := by
  rcases List.append_eq_append_iff.mp h with ⟨m, -, hm⟩ | ⟨m, -, hm⟩
  · cases m with
    | nil => exact (List.cons.inj hm).2
    | cons d m => exact absurd (by rw [(List.cons.inj hm).2]; simp) hu
  · cases m with
    | nil => exact (List.cons.inj hm).2.symm
    | cons d m => exact absurd (by rw [(List.cons.inj hm).2]; simp) hv

/-- A well-formed text that does not end in a separator is one word, or its last word stands behind a
separator and others in front of it. -/
theorem words_of_isWellFormed {text : Text} (h : isWellFormed text = true)
    (hlast : ∀ c, text.getLast? = some c → isSeparator c = false) :
    words text = [text] ∨ ∃ front s last, text = front ++ s :: last ∧ isSeparator s = true ∧
      words text = words front ++ [last] ∧ words front ≠ [] := by
  obtain ⟨c, rest, hcons, -, hc⟩ := exists_cons_of_isWellFormed h
  -- the last separator is where the last word starts
  by_cases hsep : ∃ c ∈ text, isSeparator c = true
  · obtain ⟨front, s, last, rfl, hs, hword⟩ := exists_last_separator hsep
    refine .inr ⟨front, s, last, rfl, hs, ?_, ?_⟩
    · rw [words_append_separator hs, words_of_forall ?_ hword]
      rintro rfl
      rw [hlast s List.getLast?_concat] at hs
      cases hs
    -- the first character is a letter, so there is a word in front
    · cases front with
      | nil =>
        rw [(List.cons.inj hcons).1, hc] at hs
        cases hs
      | cons d front =>
        obtain rfl : d = c := (List.cons.inj hcons).1
        obtain ⟨tail, others, hwords⟩ := words_cons_of_not_separator hc front
        rw [hwords]
        exact List.cons_ne_nil _ _
  · simp only [not_exists, not_and, Bool.not_eq_true] at hsep
    exact .inl (words_of_forall (by rw [hcons]; exact List.cons_ne_nil c rest) hsep)

/-- Unless the tidied name ends in a separator, what the checks find of it holds of its key. -/
theorem IsAccepted.key_passes (haccepted : IsAccepted raw kind maxLength) (hplain : IsPlain raw)
    (hlast : ∀ c, (tidy raw).getLast? = some c → isSeparator c = false) :
    Name.kebab raw ∉ reserved ∧ (kind.conventions.suffixWord ≠ [] →
      endsWith (Name.kebab raw) ('-' :: kind.conventions.suffixWord) = false) := by
  have hsuffix : ∀ {key ending : Text}, endsWith key ending = true ↔ ending <:+ key :=
    List.isSuffixOf_iff_suffix
  rcases words_of_isWellFormed haccepted.wellFormed hlast with
    hword | ⟨front, s, last, hsplit, hs, hwords, hne⟩
  · -- the name is one word, and its key is that word in lower case
    rw [words_tidy] at hword
    have hkey : Name.kebab raw = lower (tidy raw) := by
      rw [Name.kebab, hword, List.map_singleton, join_cons, List.flatMap_nil, List.append_nil]
    rw [hkey]
    refine ⟨haccepted.notReserved, fun _ => Bool.eq_false_iff.mpr fun hends => ?_⟩
    exact hyphen_notMem_lower (hplain _ (by rw [hword]; simp)) ((hsuffix.mp hends).subset List.mem_cons_self)
  · rw [words_tidy] at hwords
    have hlastAscii : isAscii last := hplain last (by rw [hwords]; simp)
    have hkey : Name.kebab raw = join "-" ((words front).map lower) ++ '-' :: lower last := by
      rw [Name.kebab, hwords, List.map_append, List.map_singleton, join_concat (by simpa using hne)]
    rw [hkey]
    refine ⟨fun hmem => ?_, fun hword => Bool.eq_false_iff.mpr fun hends => ?_⟩
    · -- reserved words have no hyphen, and there is one in front of the last word
      have hnone : ∀ word ∈ reserved, '-' ∉ word := by decide
      exact hnone _ hmem (by simp)
    · -- then the tidied name ends in the word of the kind as well, and was refused
      obtain ⟨lead, hlead⟩ := hsuffix.mp hends
      have hhyphen : '-' ∉ kind.conventions.suffixWord := by cases kind <;> decide
      have hsame := eq_of_append_hyphen hhyphen (hyphen_notMem_lower hlastAscii) hlead
      have hsign : s = '-' ∨ s = '_' := by
        refine (forall_of_isWellFormed haccepted.wellFormed s (by rw [hsplit]; simp)).resolve_left fun h => ?_
        rw [isSeparator_of_isAlphanum h] at hs
        cases hs
      have hlowered : s :: kind.conventions.suffixWord <:+ lower (tidy raw) := by
        have hstays : s.toLower = s := by rcases hsign with rfl | rfl <;> rfl
        rw [haccepted.lower_tidy, hsplit, List.map_append, List.map_cons, hstays, hsame,
          lower_eq_map hlastAscii]
        exact List.suffix_append _ _
      have hrefused := haccepted.notSuffixed hword
      simp only [endsInSuffix, Bool.or_eq_false_iff] at hrefused
      rcases hsign with rfl | rfl
      · exact absurd (hsuffix.mpr hlowered) (by simp [hrefused.1.1])
      · exact absurd (hsuffix.mpr hlowered) (by simp [hrefused.1.2])

/-! ## Checking the key -/

/-- The key that `validate` returns is accepted as it is, unless it is `reserved` or ends in the word of the kind
behind a hyphen. It is refused only if the tidied name ends in a hyphen or an underscore. -/
theorem validate_normalized (h : validate raw kind maxLength = .ok key) :
    (validate key kind maxLength =
      if key ∈ reserved then .error (.reserved key)
      else if kind.conventions.suffixWord ≠ [] ∧ '-' :: kind.conventions.suffixWord <:+ key then
        .error (.suffixed kind.conventions.suffixWord)
      else .ok key) ∧
    (validate key kind maxLength ≠ .ok key →
      ∃ c, (tidy raw).getLast? = some c ∧ (c = '-' ∨ c = '_')) := by
  obtain ⟨hplain, -⟩ := validate_eq_ok h
  obtain ⟨haccepted, rfl⟩ := isAccepted_of_validate h
  have hagain := (hplain.isKey_kebab (startsWithLetter_of_validate h)).validate hplain.kebab_kebab
    (haccepted.length_kebab_le hplain) kind
  constructor
  · simpa [endsWith] using hagain
  · intro hrefused
    by_contra hnone
    -- without such a sign the tidied name ends in no separator, and its key passes the checks
    have hlast : ∀ c, (tidy raw).getLast? = some c → isSeparator c = false := by
      intro c hc
      rcases forall_of_isWellFormed haccepted.wellFormed c (List.mem_of_getLast? hc) with halphanum | hsign
      · exact isSeparator_of_isAlphanum halphanum
      · exact absurd ⟨c, hc, hsign⟩ hnone
    obtain ⟨hreserved, hsuffix⟩ := haccepted.key_passes hplain hlast
    refine hrefused (hagain.trans ?_)
    rw [if_neg (by simpa using hreserved)]
    by_cases hword : kind.conventions.suffixWord = []
    · simp [hword]
    · rw [hsuffix hword, Bool.and_false, if_neg Bool.false_ne_true]

/-- Capital letters and underscores do not matter. -/
theorem validate_normalized_weather : validate "Weather_API" .tool 50 = .ok "weather-api" ∧
    validate "weather-api" .tool 50 = .ok "weather-api" := by
  have hraw : validate "Weather_API" .tool 50 = .ok "weather-api" := by rfl
  refine ⟨hraw, (validate_normalized hraw).1.trans ?_⟩
  rw [if_neg (by decide), if_neg (by decide)]

/-- A hyphen at the end hides a reserved word and the word of the kind, and is lost afterwards. -/
theorem not_validate_normalized :
    (validate "index-" .resource 50 = .ok "index" ∧
      validate "index" .resource 50 = .error (.reserved "index")) ∧
    validate "weather-tool-" .tool 50 = .ok "weather-tool" ∧
      validate "weather-tool" .tool 50 = .error (.suffixed "tool") :=
  ⟨⟨rfl, rfl⟩, rfl, rfl⟩

end ComponentKit.Name
