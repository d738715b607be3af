import ComponentKit.Proofs.Source.Grammar

/-!
# Signatures

Which part of a text decides whether a signature starts at a position. A signature has nothing but word characters,
blanks and a few signs up to its opening brace, so `Cursor.afterSignature?` never looks past the first character of
another kind: what follows it may change without changing what is found.
-/

namespace ComponentKit.Source

open Text

/-- Whether a character ends every signature: it is the opening brace or stands in none. -/
def stopsSignature (c : Char) : Bool :=
  !isTypeCharacter c && !(c == ':' || c == '(' || c == ')')

/-! ## Reading up to a stop -/

theorem ne_nil_of_any {text : Text} (ht : text.any stopsSignature = true) : text ≠ [] := by
  rintro rfl
  simp at ht

theorem dropLead?_append {lead text : Text} (rest : Text)
    (hl : ∀ c ∈ lead, stopsSignature c = false) (ht : text.any stopsSignature = true) :
    dropLead? lead (text ++ rest) = (dropLead? lead text).map (· ++ rest) := by
  induction lead generalizing text with
  | nil => simp [dropLead?]
  | cons a lead ih =>
    cases text with
    | nil => simp at ht
    | cons c text =>
      by_cases hac : a = c
      · subst hac
        have ha := hl a (by simp)
        simpa [dropLead?] using ih (fun d hd => hl d (by simp [hd])) (by simpa [ha] using ht)
      · simp [dropLead?, hac]

theorem any_of_dropLead? {lead text rest : Text} (hl : ∀ c ∈ lead, stopsSignature c = false)
    (ht : text.any stopsSignature = true) (h : dropLead? lead text = some rest) :
    rest.any stopsSignature = true := by
  rw [dropLead?_eq_some_iff] at h
  subst h
  rw [List.any_append, Bool.or_eq_true] at ht
  refine ht.resolve_left fun hc => ?_
  obtain ⟨c, hc, hs⟩ := List.any_eq_true.mp hc
  rw [hl c hc] at hs
  cases hs

section Skipping

variable {p : Char → Bool} {text : Text}

/-- Characters that a signature may have are skipped before a stop, which stays. -/
theorem any_dropWhile (hp : ∀ c, p c = true → stopsSignature c = false)
    (ht : text.any stopsSignature = true) : (text.dropWhile p).any stopsSignature = true := by
  rw [← List.takeWhile_append_dropWhile (p := p) (l := text), List.any_append,
    Bool.or_eq_true] at ht
  refine ht.resolve_left fun hc => ?_
  obtain ⟨c, hc, hs⟩ := List.any_eq_true.mp hc
  rw [hp c (List.mem_takeWhile_imp hc)] at hs
  cases hs

theorem dropWhile_ne_nil (hp : ∀ c, p c = true → stopsSignature c = false)
    (ht : text.any stopsSignature = true) : text.dropWhile p ≠ [] :=
  ne_nil_of_any (any_dropWhile hp ht)

end Skipping

theorem stopsSignature_of_isBlank (c : Char) (h : isBlank c = true) : stopsSignature c = false := by
  simp [stopsSignature, isTypeCharacter, h]

theorem stopsSignature_of_isTypeCharacter (c : Char) (h : isTypeCharacter c = true) :
    stopsSignature c = false := by
  simp [stopsSignature, h]

theorem stopsSignature_of_isWord (c : Char) (h : Unicode.isWord c = true) :
    stopsSignature c = false := by
  simp [stopsSignature, isTypeCharacter, h]

/-! ## The parts of a signature -/

theorem afterBodyOpening?_append {text : Text} (rest : Text)
    (ht : text.any stopsSignature = true) :
    afterBodyOpening? (text ++ rest) = (afterBodyOpening? text).map (· ++ rest) := by
  rw [afterBodyOpening?, afterBodyOpening?,
    dropWhile_append_of_ne_nil _ (dropWhile_ne_nil stopsSignature_of_isBlank ht)]
  have hd := any_dropWhile stopsSignature_of_isBlank ht
  cases hw : text.dropWhile isBlank with
  | nil => simp [hw] at hd
  | cons c more =>
    rw [hw] at hd
    -- the brace at once, a return type first, or something else: only the type is skipped over
    by_cases ho : c = '\x7b'
    · subst ho
      rfl
    · by_cases hc : c = ':'
      · subst hc
        have hm : more.any stopsSignature = true := by simpa [stopsSignature] using hd
        have hne := dropWhile_ne_nil stopsSignature_of_isTypeCharacter hm
        simp only [List.cons_append, takeWhile_append_of_ne_nil _ hne,
          drop_length_takeWhile_append, drop_length_takeWhile]
        obtain ⟨e, tail, he⟩ := List.exists_cons_of_ne_nil hne
        rw [he]
        cases more.takeWhile isTypeCharacter with
        | nil => rfl
        | cons d type =>
          by_cases hb : e = '\x7b'
          · subst hb; rfl
          · simp [hb]
      · simp [ho, hc]

theorem afterParentheses?_append {text : Text} (rest : Text) (ht : text.any stopsSignature = true) :
    afterParentheses? (text ++ rest) = (afterParentheses? text).map (· ++ rest) := by
  -- none of the pieces is a stop, so the stop is still ahead behind each of them
  have hb : ∀ {t : Text}, t.any stopsSignature = true →
      (t.dropWhile isBlank).any stopsSignature = true :=
    any_dropWhile stopsSignature_of_isBlank
  have ha : ∀ {t : Text}, t.any stopsSignature = true →
      (t ++ rest).dropWhile isBlank = t.dropWhile isBlank ++ rest :=
    fun h => dropWhile_append_of_ne_nil rest (dropWhile_ne_nil stopsSignature_of_isBlank h)
  have hopen : ∀ c ∈ "(".toList, stopsSignature c = false :=
    eq_false_of_any (by decide)
  have hclose : ∀ c ∈ ")".toList, stopsSignature c = false :=
    eq_false_of_any (by decide)
  simp only [afterParentheses?, Option.bind_eq_bind, ha ht, dropLead?_append rest hopen (hb ht)]
  cases h1 : dropLead? "(".toList (text.dropWhile isBlank) with
  | none => rfl
  | some t1 =>
    have ht1 := any_of_dropLead? hopen (hb ht) h1
    simp only [Option.map_some, Option.bind_some, ha ht1, dropLead?_append rest hclose (hb ht1)]
    cases h2 : dropLead? ")".toList (t1.dropWhile isBlank) with
    | none => rfl
    | some t2 => simpa using afterBodyOpening?_append rest (any_of_dropLead? hclose (hb ht1) h2)

/-- A reader that never looks past the first stop of a text. -/
def ReadsToStop (read : Cursor → Option Text) : Prop :=
  ∀ (before : Option Char) (text rest : Text), text.any stopsSignature = true →
    read ⟨before, text ++ rest⟩ = (read ⟨before, text⟩).map (· ++ rest)

theorem readsToStop_afterNamed? {name : Text} (hname : ∀ c ∈ name, Unicode.isWord c = true) :
    ReadsToStop (Cursor.afterNamed? name) := by
  intro before text rest ht
  have hn : ∀ c ∈ name, stopsSignature c = false :=
    fun c hc => stopsSignature_of_isWord c (hname c hc)
  simp only [afterNamed?_eq, isBoundary_append before rest (ne_nil_of_any ht), dropLead?_append rest hn ht]
  split
  · cases h : dropLead? name text with
    | none => rfl
    | some t => exact afterParentheses?_append rest (any_of_dropLead? hn ht h)
  · rfl

/-- Behind a modifier a reader is still in front of the stop. -/
theorem afterModifier?_append {modifiers : List Text}
    (hm : ∀ m ∈ modifiers, ∀ c ∈ m, stopsSignature c = false) (before : Option Char) {text : Text}
    (rest : Text) (ht : text.any stopsSignature = true) :
    Cursor.afterModifier? ⟨before, text ++ rest⟩ modifiers
        = (Cursor.afterModifier? ⟨before, text⟩ modifiers).map
          (fun cursor => ⟨cursor.before, cursor.rest ++ rest⟩) ∧
      ∀ cursor, Cursor.afterModifier? ⟨before, text⟩ modifiers = some cursor →
        cursor.rest.any stopsSignature = true := by
  simp only [Cursor.afterModifier?, isBoundary_append before rest (ne_nil_of_any ht)]
  split
  · -- the first modifier that fits is taken, in both texts the same one
    induction modifiers with
    | nil => simp
    | cons m modifiers ih =>
      have hmm := hm m (by simp)
      simp only [List.findSome?_cons, dropLead?_append rest hmm ht]
      cases h : dropLead? m text with
      | none => simpa using ih fun m hm' => hm m (by simp [hm'])
      | some tail =>
        have htail := any_of_dropLead? hmm ht h
        have hne := dropWhile_ne_nil stopsSignature_of_isBlank htail
        simp only [Option.map_some, Option.bind_eq_bind, Option.bind_some,
          takeWhile_append_of_ne_nil rest hne]
        cases hblank : (tail.takeWhile isBlank).isEmpty with
        | true => simpa using ih fun m hm' => hm m (by simp [hm'])
        | false =>
          simpa [drop_length_takeWhile, drop_length_takeWhile_append] using
            any_dropWhile stopsSignature_of_isBlank htail
  · simp

/-- Whether a modifier is there is settled by the text up to the first stop, and so is what is read if the
text behind the modifier settles that. -/
theorem optionally_append {next : Cursor → Option Text} {modifiers : List Text}
    (hm : ∀ m ∈ modifiers, ∀ c ∈ m, stopsSignature c = false) (before : Option Char) {text : Text}
    (rest : Text) (ht : text.any stopsSignature = true)
    (hnext : ∀ before z r, text = z ++ r → (∀ c ∈ z, stopsSignature c = false) →
      r.any stopsSignature = true → next ⟨before, r ++ rest⟩ = (next ⟨before, r⟩).map (· ++ rest)) :
    Cursor.optionally ⟨before, text ++ rest⟩ modifiers next
      = (Cursor.optionally ⟨before, text⟩ modifiers next).map (· ++ rest) := by
  obtain ⟨heq, hstop⟩ := afterModifier?_append hm before rest ht
  simp only [Cursor.optionally, heq, hnext before [] text rfl (by simp) ht]
  cases h : Cursor.afterModifier? ⟨before, text⟩ modifiers with
  | none => simp
  | some cursor =>
    obtain ⟨modifier, hmem, blanks, hsplit, -, hblanks, -⟩ := afterModifier?_spec h
    rw [← List.append_assoc] at hsplit
    -- without the modifier `next` reads the text itself, with it what is behind
    have hlead : ∀ c ∈ modifier ++ blanks, stopsSignature c = false := by
      intro c hc
      rcases List.mem_append.mp hc with hc | hc
      · exact hm modifier hmem c hc
      · exact stopsSignature_of_isBlank c (hblanks c hc)
    have := hnext cursor.before (modifier ++ blanks) cursor.rest hsplit hlead (hstop cursor h)
    simp only [Option.map_some, Option.bind_some, this]
    cases next cursor <;> simp

/-- Modifiers without a stop. -/
theorem noStop_of_all {modifiers : List Text}
    (h : modifiers.all (fun m => !m.any stopsSignature) = true) :
    ∀ m ∈ modifiers, ∀ c ∈ m, stopsSignature c = false :=
  fun m hm => eq_false_of_any (by simpa using List.all_eq_true.mp h m hm)

/-- Whether a signature starts at a position is settled by a text with a stop, if the text behind its
modifiers settles whether the name and the parentheses are there. -/
theorem afterSignature?_append {name text : Text} (before : Option Char) (rest : Text)
    (ht : text.any stopsSignature = true)
    (hnamed : ∀ before z r, text = z ++ r → (∀ c ∈ z, stopsSignature c = false) →
      r.any stopsSignature = true → Cursor.afterNamed? name ⟨before, r ++ rest⟩
        = (Cursor.afterNamed? name ⟨before, r⟩).map (· ++ rest)) :
    Cursor.afterSignature? name ⟨before, text ++ rest⟩
      = (Cursor.afterSignature? name ⟨before, text⟩).map (· ++ rest) := by
  refine optionally_append (noStop_of_all (by decide)) before rest ht fun _ z₁ r₁ h₁ hz₁ hr₁ => ?_
  refine optionally_append (noStop_of_all (by decide)) _ rest hr₁ fun _ z₂ r₂ h₂ hz₂ hr₂ => ?_
  refine optionally_append (noStop_of_all (by decide)) _ rest hr₂ fun _ z₃ r₃ h₃ hz₃ hr₃ => ?_
  refine hnamed _ (z₁ ++ (z₂ ++ z₃)) r₃ (by rw [h₁, h₂, h₃]; simp only [List.append_assoc]) ?_ hr₃
  intro c hc
  rcases List.mem_append.mp hc with hc | hc
  · exact hz₁ c hc
  · exact (List.mem_append.mp hc).elim (hz₂ c) (hz₃ c)

/-- Whether a signature starts at a position, and where its body opens, is settled by the text up to
the first stop. -/
theorem readsToStop_afterSignature? {name : Text} (hname : ∀ c ∈ name, Unicode.isWord c = true) :
    ReadsToStop (Cursor.afterSignature? name) :=
  fun before _ rest ht => afterSignature?_append before rest ht
    fun before _ r _ _ hr => readsToStop_afterNamed? hname before r rest hr

/-! ## What a signature looks like -/

/-- What the text of a signature that `afterSignature?` reads is known to look like, from its start up to the opening
brace. -/
structure IsSignature (name text : Text) : Prop where
  /-- Nothing in it ends a signature. -/
  noStop : ∀ c ∈ text, stopsSignature c = false
  /-- It starts with a word. -/
  wordFirst : text.head?.any Unicode.isWord = true
  /-- It has the name of the method, and an opening parenthesis somewhere behind it. -/
  named : ∃ front back, text = front ++ name ++ back ∧ '(' ∈ back

theorem IsSignature.append {name text : Text} (h : IsSignature name text) {modifier blanks : Text}
    (hm : ∀ c ∈ modifier, stopsSignature c = false) (hw : modifier.head?.any Unicode.isWord = true)
    (hb : ∀ c ∈ blanks, isBlank c = true) : IsSignature name (modifier ++ blanks ++ text) where
  noStop c hc := by
    rcases List.mem_append.mp hc with hc | hc
    · rcases List.mem_append.mp hc with hc | hc
      · exact hm c hc
      · exact stopsSignature_of_isBlank c (hb c hc)
    · exact h.noStop c hc
  wordFirst := by
    cases modifier with
    | nil => simp at hw
    | cons c modifier => simpa using hw
  named := by
    obtain ⟨front, back, rfl, hp⟩ := h.named
    exact ⟨modifier ++ blanks ++ front, back, by simp [List.append_assoc], hp⟩

theorem IsReturnType.noStop {result : Text} (h : IsReturnType result) :
    ∀ c ∈ result, stopsSignature c = false := by
  cases h with
  | absent => simp
  | present hspace hgap _ htype =>
    intro c hc
    -- blanks, the colon, blanks and the type
    simp only [List.mem_append, List.mem_cons] at hc
    rcases hc with hc | rfl | hc | hc
    · exact stopsSignature_of_isBlank c (hspace c hc)
    · decide
    · exact stopsSignature_of_isBlank c (hgap c hc)
    · exact stopsSignature_of_isTypeCharacter c (htype c hc)

/-- What stands between a name and its opening brace. -/
theorem OpensBody.exists_front {tail body : Text} (h : OpensBody tail body) :
    ∃ front, tail = front ++ '\x7b' :: body ∧ '(' ∈ front ∧ ∀ c ∈ front, stopsSignature c = false := by
  obtain ⟨gap, inside, result, space, rfl, hgap, hinside, hresult, hspace⟩ := h
  refine ⟨gap ++ '(' :: (inside ++ ')' :: (result ++ space)), by simp, by simp, fun c hc => ?_⟩
  simp only [List.mem_append, List.mem_cons] at hc
  rcases hc with hc | rfl | hc | rfl | hc | hc
  · exact stopsSignature_of_isBlank c (hgap c hc)
  · decide
  · exact stopsSignature_of_isBlank c (hinside c hc)
  · decide
  · exact hresult.noStop c hc
  · exact stopsSignature_of_isBlank c (hspace c hc)

/-- A signature that is read has its name and its parentheses somewhere in front of the brace. -/
theorem named_of_afterSignature? {name : Text} {cursor : Cursor} {body : Text}
    (h : cursor.afterSignature? name = some body) :
    ∃ lead front, cursor.rest = lead ++ (name ++ (front ++ '\x7b' :: body)) ∧ '(' ∈ front := by
  obtain ⟨lead, tail, hrest, -, htail⟩ := (afterSignature?_eq_some_iff.mp h).exists_lead isKeyword_of_mem
  obtain ⟨front, rfl, hparen, -⟩ := htail.exists_front
  exact ⟨lead, front, hrest, hparen⟩

theorem HasSignature.exists_isSignature {name text behind : Text} {before : Option Char}
    {levels : List (List Text)} (hname : ∀ c ∈ name, Unicode.isWord c = true) (hne : name ≠ [])
    (hlevels : ∀ words ∈ levels, ∀ word ∈ words,
      (∀ c ∈ word, stopsSignature c = false) ∧ word.head?.any Unicode.isWord = true)
    (h : HasSignature name behind levels before text) :
    ∃ sig, text = sig ++ '\x7b' :: behind ∧ IsSignature name sig := by
  -- on the levels of modifiers: each puts a keyword and blanks in front, or nothing
  induction levels generalizing before text with
  | nil =>
    obtain ⟨tail, rfl, -, htail⟩ := h
    obtain ⟨front, rfl, hparen, hfront⟩ := htail.exists_front
    refine ⟨name ++ front, by rw [List.append_assoc], ?_, ?_, [], front, rfl, hparen⟩
    · intro c hc
      rcases List.mem_append.mp hc with hc | hc
      · exact stopsSignature_of_isWord c (hname c hc)
      · exact hfront c hc
    · cases name with
      | nil => exact absurd rfl hne
      | cons c name => simpa using hname c (by simp)
  | cons words levels ih =>
    obtain ⟨hwords, hlevels⟩ := List.forall_mem_cons.mp hlevels
    obtain ⟨modifier, rest, rfl, hmodifier, hrest⟩ := h
    obtain ⟨sig, rfl, hsig⟩ := ih hlevels hrest
    cases hmodifier with
    | absent => exact ⟨sig, rfl, hsig⟩
    | @present word blanks hmem _ _ hblanks =>
      obtain ⟨hstop, hfirst⟩ := hwords word hmem
      exact ⟨word ++ blanks ++ sig, by rw [List.append_assoc _ sig], hsig.append hstop hfirst hblanks⟩

theorem afterSignature?_eq_some {name : Text} (hname : ∀ c ∈ name, Unicode.isWord c = true)
    (hne : name ≠ []) {cursor : Cursor} {body : Text}
    (h : cursor.afterSignature? name = some body) :
    ∃ text, cursor.rest = text ++ '\x7b' :: body ∧ IsSignature name text := by
  refine (afterSignature?_eq_some_iff.mp h).exists_isSignature hname hne fun words hwords word hword => ?_
  have hall : modifierLevels.all (fun words => words.all fun word =>
      !word.any stopsSignature && word.head?.any Unicode.isWord) = true := by decide
  have hcheck := List.all_eq_true.mp (List.all_eq_true.mp hall words hwords) word hword
  rw [Bool.and_eq_true, Bool.not_eq_true'] at hcheck
  exact ⟨eq_false_of_any hcheck.1, hcheck.2⟩

end ComponentKit.Source
