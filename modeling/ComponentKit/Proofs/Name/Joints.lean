import ComponentKit.Proofs.Name.Ascii

/-!
# Joints between words

`kebab` keeps the joints between the words of a name, `pascal` and `camel` mark a joint by a capital letter only. A
digit has no capital form, so a joint in front of a digit leaves no mark. All other joints can be read off the
capitalized forms: two names agree in them exactly if their hyphenated forms agree apart from hyphens in front of
digits (`dropDigitJoints`).
-/

namespace ComponentKit.Name

open Text

variable {name other word x y : Text}

/-! ## The hyphenated form -/

/-- The text without the hyphens that stand directly in front of a digit. -/
def dropDigitJoints : Text → Text
  | [] => []
  | c :: rest =>
    if c = '-' ∧ rest.head?.any Char.isDigit then dropDigitJoints rest else c :: dropDigitJoints rest

/-- A word in lower case behind the joint in front of it, which a digit does not show. -/
def jointed (word : Text) : Text :=
  if word.head?.any Char.isDigit then lower word else '-' :: lower word

theorem dropDigitJoints_append_of_notMem (hx : '-' ∉ x) (y : Text) :
    dropDigitJoints (x ++ y) = x ++ dropDigitJoints y := by
  induction x with
  | nil => rfl
  | cons c x ih =>
    rw [List.mem_cons, not_or] at hx
    rw [List.cons_append, dropDigitJoints, if_neg fun h => hx.1 h.1.symm, ih hx.2, List.cons_append]

/-- The hyphens are left out part by part, unless the second part starts with a digit. -/
theorem dropDigitJoints_append (x : Text) (hy : y.head?.any Char.isDigit = false) :
    dropDigitJoints (x ++ y) = dropDigitJoints x ++ dropDigitJoints y := by
  induction x with
  | nil => rfl
  | cons c x ih =>
    have hhead : (x ++ y).head?.any Char.isDigit = x.head?.any Char.isDigit := by
      cases x with
      | nil => simpa using hy
      | cons d x => rfl
    rw [List.cons_append, dropDigitJoints, dropDigitJoints, hhead, ih]
    split <;> rfl

theorem hyphen_notMem_lower (h : isAscii word) : '-' ∉ lower word :=
  fun hmem => absurd (isAscii_lower h _ hmem) (by decide)

/-- A word has a digit in front exactly if the hyphenated words from it on do. -/
theorem isDigit_head?_join (h : isAscii word) (ws : List Text) :
    (join "-" ((word :: ws).map lower)).head?.any Char.isDigit = word.head?.any Char.isDigit := by
  have hlower : ∀ c : Char, c.isAlphanum = true → c.toLower.isDigit = c.isDigit := fun c hc =>
    forall_isAlphanum (p := fun c => c.toLower.isDigit = c.isDigit) (by decide) hc
  cases word with
  | nil => cases ws <;> rfl
  | cons c word =>
    have hc : c.isAlphanum = true := h c List.mem_cons_self
    have hjoin : ∃ rest, join "-" (((c :: word) :: ws).map lower) = c.toLower :: rest := by
      rw [List.map_cons, lower_eq_map h]
      cases ws <;> exact ⟨_, rfl⟩
    obtain ⟨rest, hrest⟩ := hjoin
    rw [hrest]
    exact hlower c hc

theorem dropDigitJoints_join (hw : isAscii word) {ws : List Text} (h : ∀ w ∈ ws, isAscii w) :
    dropDigitJoints (join "-" ((word :: ws).map lower)) = lower word ++ ws.flatMap jointed := by
  induction ws generalizing word with
  | nil =>
    have hone := dropDigitJoints_append_of_notMem (hyphen_notMem_lower hw) []
    simpa [join, dropDigitJoints] using hone
  | cons v ws ih =>
    obtain ⟨hv, hws⟩ := List.forall_mem_cons.mp h
    have hjoin : join "-" ((word :: v :: ws).map lower)
        = lower word ++ '-' :: join "-" ((v :: ws).map lower) := join_hyphen ..
    -- a word has no hyphen, so the scan stops at the one behind it; what it does there hangs on the
    -- digit
    rw [hjoin, dropDigitJoints_append_of_notMem (hyphen_notMem_lower hw), dropDigitJoints,
      isDigit_head?_join hv, ih hv hws, List.flatMap_cons, jointed]
    by_cases hd : v.head?.any Char.isDigit = true
    · simp [hd]
    · simp [hd]

/-! ## The capitalized forms -/

/-- What a character of a capitalized form stands for: a capital letter is a joint and a letter. -/
def splitCapital (c : Char) : Text :=
  if c.isUpper then ['-', c.toLower] else [c]

theorem splitCapital_lower (h : isAscii word) : (lower word).flatMap splitCapital = lower word := by
  rw [lower_eq_map h]
  induction word with
  | nil => rfl
  | cons c word ih =>
    obtain ⟨hc, hword⟩ := List.forall_mem_cons.mp h
    have hstays : splitCapital c.toLower = [c.toLower] :=
      forall_isAlphanum (p := fun c => splitCapital c.toLower = [c.toLower]) (by decide) hc
    rw [List.map_cons, List.flatMap_cons, hstays, ih hword]
    rfl

/-- A capitalized word shows the joint in front of it. -/
theorem splitCapital_capitalize (h : isAscii word) (hne : word ≠ []) :
    (capitalize word).flatMap splitCapital = jointed word := by
  cases word with
  | nil => exact absurd rfl hne
  | cons c word =>
    obtain ⟨hc, hword⟩ := List.forall_mem_cons.mp h
    have hfirst : splitCapital c.toUpper = if c.isDigit then [c.toLower] else ['-', c.toLower] :=
      forall_isAlphanum (p := fun c =>
        splitCapital c.toUpper = if c.isDigit then [c.toLower] else ['-', c.toLower]) (by decide) hc
    rw [capitalize_cons h, List.flatMap_cons, hfirst, splitCapital_lower hword, jointed, lower_eq_map h,
      lower_eq_map hword]
    simp only [List.head?_cons, Option.any_some, List.map_cons]
    split <;> rfl

theorem splitCapital_words {ws : List Text} (h : ∀ w ∈ ws, isAscii w ∧ w ≠ []) :
    (ws.flatMap capitalize).flatMap splitCapital = ws.flatMap jointed := by
  induction ws with
  | nil => rfl
  | cons w ws ih =>
    obtain ⟨⟨hw, hne⟩, hws⟩ := List.forall_mem_cons.mp h
    rw [List.flatMap_cons, List.flatMap_append, splitCapital_capitalize hw hne, ih hws, List.flatMap_cons]

/-- The text with a capital letter for each joint and the letter behind it. -/
def joinCapitals : Text → Text
  | '-' :: c :: rest => c.toUpper :: joinCapitals rest
  | c :: rest => c :: joinCapitals rest
  | [] => []

theorem joinCapitals_append (hx : '-' ∉ x) (y : Text) : joinCapitals (x ++ y) = x ++ joinCapitals y := by
  induction x with
  | nil => rfl
  | cons c x ih =>
    rw [List.mem_cons, not_or] at hx
    rw [List.cons_append, joinCapitals.eq_2 c (x ++ y) fun d rest hc _ => hx.1 hc.symm, ih hx.2,
      List.cons_append]

theorem joinCapitals_jointed (h : isAscii word) (hne : word ≠ []) (y : Text) :
    joinCapitals (jointed word ++ y) = capitalize word ++ joinCapitals y := by
  cases word with
  | nil => exact absurd rfl hne
  | cons c word =>
    obtain ⟨hc, hword⟩ := List.forall_mem_cons.mp h
    have hsmall := lower_cons h
    rw [jointed, capitalize_cons h, List.head?_cons, Option.any_some]
    split
    -- in front of a digit there is no joint, and a digit is the same in both cases
    · rename_i hdigit
      have hsame : c.toLower = c.toUpper := forall_isAlphanum
        (p := fun c => c.isDigit = true → c.toLower = c.toUpper) (by decide) hc hdigit
      rw [joinCapitals_append (hyphen_notMem_lower h), hsmall, hsame]
    -- the joint makes the letter behind it a capital one
    · rw [hsmall, List.cons_append, List.cons_append, joinCapitals,
        joinCapitals_append (hyphen_notMem_lower hword), toUpper_toLower hc, List.cons_append]

theorem joinCapitals_words {ws : List Text} (h : ∀ w ∈ ws, isAscii w ∧ w ≠ []) :
    joinCapitals (ws.flatMap jointed) = ws.flatMap capitalize := by
  induction ws with
  | nil => rfl
  | cons w ws ih =>
    obtain ⟨⟨hw, hne⟩, hws⟩ := List.forall_mem_cons.mp h
    rw [List.flatMap_cons, joinCapitals_jointed hw hne, ih hws, List.flatMap_cons]

/-! ## Reading off the joints -/

theorem IsPlain.words_forall (h : IsPlain name) : ∀ w ∈ words name, isAscii w ∧ w ≠ [] :=
  fun w hw => ⟨h w hw, (mem_words hw).1⟩

/-- The form with a small first letter and the joints that no digit hides determine each other. -/
theorem IsPlain.camel_reading (h : IsPlain name) :
    (camel name).flatMap splitCapital = dropDigitJoints (Name.kebab name) ∧
      joinCapitals (dropDigitJoints (Name.kebab name)) = camel name := by
  have hwords := h.words_forall
  rw [camel, Name.kebab]
  cases hws : words name with
  | nil => exact ⟨rfl, rfl⟩
  | cons w ws =>
    rw [hws] at hwords
    obtain ⟨⟨hw, -⟩, hrest⟩ := List.forall_mem_cons.mp hwords
    rw [dropDigitJoints_join hw fun v hv => (hrest v hv).1]
    constructor
    · rw [List.flatMap_append, splitCapital_lower hw, splitCapital_words hrest]
    · rw [joinCapitals_append (hyphen_notMem_lower hw), joinCapitals_words hrest]

/-- Whether the first word of a name starts with a letter. -/
def StartsWithLetter (name : Text) : Prop :=
  ∃ c rest others, c.isAlpha = true ∧ words name = (c :: rest) :: others

/-- The same for the form with a capital first letter, which shows a joint in front of the name, too. -/
theorem IsPlain.pascal_reading (h : IsPlain name) (hfirst : StartsWithLetter name) :
    (pascal name).flatMap splitCapital = '-' :: dropDigitJoints (Name.kebab name) ∧
      joinCapitals ('-' :: dropDigitJoints (Name.kebab name)) = pascal name := by
  obtain ⟨c, rest, others, hc, hws⟩ := hfirst
  have hwords := h.words_forall
  have hjoints : '-' :: dropDigitJoints (Name.kebab name) = (words name).flatMap jointed := by
    rw [Name.kebab, hws]
    -- the first word starts with a letter, so its joint stays and is the hyphen in front
    rw [hws] at hwords
    obtain ⟨⟨hw, -⟩, hothers⟩ := List.forall_mem_cons.mp hwords
    have hdigit : c.isDigit = false :=
      forall_isAlphanum (p := fun c => c.isAlpha = true → c.isDigit = false) (by decide)
        (hw c List.mem_cons_self) hc
    rw [dropDigitJoints_join hw fun v hv => (hothers v hv).1, List.flatMap_cons, jointed]
    simp [hdigit]
  rw [hjoints]
  exact ⟨splitCapital_words hwords, joinCapitals_words hwords⟩

theorem IsPlain.camel_eq_camel_iff (h : IsPlain name) (ho : IsPlain other) :
    camel name = camel other
      ↔ dropDigitJoints (Name.kebab name) = dropDigitJoints (Name.kebab other) := by
  constructor
  · intro heq
    rw [← h.camel_reading.1, ← ho.camel_reading.1, heq]
  · intro heq
    rw [← h.camel_reading.2, ← ho.camel_reading.2, heq]

theorem IsPlain.pascal_eq_pascal_iff (h : IsPlain name) (hl : StartsWithLetter name) (ho : IsPlain other)
    (hol : StartsWithLetter other) : pascal name = pascal other
      ↔ dropDigitJoints (Name.kebab name) = dropDigitJoints (Name.kebab other) := by
  constructor
  · intro heq
    have hsplit := (h.pascal_reading hl).1
    rw [heq, (ho.pascal_reading hol).1] at hsplit
    exact (List.cons.inj hsplit).2.symm
  · intro heq
    rw [← (h.pascal_reading hl).2, ← (ho.pascal_reading hol).2, heq]

/-! ## Accepted names -/

theorem words_cons_of_not_separator {c : Char} (hc : isSeparator c = false) (rest : Text) :
    ∃ tail others, words (c :: rest) = (c :: tail) :: others := by
  rw [words, List.foldr_cons]
  cases rest.foldr pushCharacter [] with
  | nil => exact ⟨[], [], by simp [pushCharacter, hc]⟩
  | cons current others =>
    exact ⟨current, others.filter (!·.isEmpty), by simp [pushCharacter, hc]⟩

/-- The first word of an accepted name starts with a letter. -/
theorem startsWithLetter_of_validate {normalized : Text} {kind : Kind} {maxLength : Int}
    (h : validate name kind maxLength = .ok normalized) : StartsWithLetter name := by
  obtain ⟨c, rest, hcons, hc, hseparator⟩ :=
    exists_cons_of_isWellFormed (isAccepted_of_validate h).1.wellFormed
  obtain ⟨tail, others, hwords⟩ := words_cons_of_not_separator hseparator rest
  exact ⟨c, tail, others, hc, by rw [← words_tidy, hcons, hwords]⟩

end ComponentKit.Name
