import ComponentKit.Proofs.Source.Brace
import ComponentKit.Proofs.Source.Word
import ComponentKit.Proofs.Text.Span

/-!
# The grammar of signatures

What a signature is, as a split of the text that it stands in (`HasSignature`), and that `Cursor.afterSignature?`
accepts exactly these. The reader takes a modifier for a modifier wherever it can, and goes back if that leads
nowhere. It never has to: whatever the name of the method is, a text is a signature in one way only.
-/

namespace ComponentKit.Source

open Text

variable {name text rest tail body behind word blanks modifier : Text} {before : Option Char}
  {words : List Text} {levels : List (List Text)}

/-! ## From the parentheses on -/

/-- What stands between the parentheses of a signature and the blanks in front of its brace: nothing, or a
colon and a type. -/
inductive IsReturnType : Text → Prop
  | absent : IsReturnType []
  | present {space gap type : Text} : (∀ c ∈ space, isBlank c = true) → (∀ c ∈ gap, isBlank c = true) →
      type ≠ [] → (∀ c ∈ type, isTypeCharacter c = true) → IsReturnType (space ++ ':' :: (gap ++ type))

theorem isTypeCharacter_of_isBlank {c : Char} (h : isBlank c = true) : isTypeCharacter c = true := by
  simp [isTypeCharacter, h]

theorem dropWhile_isBlank_cons {c : Char} (hblanks : ∀ d ∈ blanks, isBlank d = true)
    (hc : isBlank c = false) (rest : Text) : (blanks ++ c :: rest).dropWhile isBlank = c :: rest :=
  dropWhile_eq_of_forall hblanks hc

theorem afterBodyOpening?_eq_some_iff : afterBodyOpening? text = some body ↔
    ∃ result space, text = result ++ (space ++ '\x7b' :: body) ∧ IsReturnType result ∧
      ∀ c ∈ space, isBlank c = true := by
  constructor
  · intro h
    have hblank : ∀ c ∈ text.takeWhile isBlank, isBlank c = true := fun c hc => List.mem_takeWhile_imp hc
    have hsplit := List.takeWhile_append_dropWhile (p := isBlank) (l := text)
    rw [afterBodyOpening?] at h
    split at h
    -- a brace behind the blanks: there is no type
    · rename_i opened hopened
      obtain rfl := Option.some.inj h
      exact ⟨[], text.takeWhile isBlank, by rw [List.nil_append, ← hopened, hsplit], .absent, hblank⟩
    -- a colon: the type goes on as far as characters of types do
    · rename_i typed htyped
      dsimp only at h
      split at h
      · rename_i c type opened htype hopened
        obtain rfl := Option.some.inj h
        rw [drop_length_takeWhile] at hopened
        refine ⟨text.takeWhile isBlank ++ ':' :: ([] ++ typed.takeWhile isTypeCharacter), [], ?_,
          .present hblank (fun _ hc => absurd hc List.not_mem_nil)
            (by rw [htype]; exact List.cons_ne_nil c type) (fun d hd => List.mem_takeWhile_imp hd),
          fun _ hc => absurd hc List.not_mem_nil⟩
        rw [List.append_assoc, List.cons_append, List.nil_append, List.nil_append, ← hopened,
          List.takeWhile_append_dropWhile, ← htyped, hsplit]
      · cases h
    · cases h
  · rintro ⟨result, space, rfl, hresult, hspace⟩
    cases hresult with
    | absent =>
      rw [List.nil_append, afterBodyOpening?, dropWhile_isBlank_cons hspace (by decide)]
      rfl
    | @present lead gap type hlead hgap hne htype =>
      -- the blanks behind the type may stand in a type as well
      have hspan : ∀ c ∈ gap ++ type ++ space, isTypeCharacter c = true := by
        intro c hc
        rcases List.mem_append.mp hc with hc | hc
        · exact (List.mem_append.mp hc).elim (fun hc => isTypeCharacter_of_isBlank (hgap c hc)) (htype c)
        · exact isTypeCharacter_of_isBlank (hspace c hc)
      have htext : lead ++ ':' :: (gap ++ type) ++ (space ++ '\x7b' :: body)
          = lead ++ ':' :: (gap ++ type ++ space ++ '\x7b' :: body) := by simp
      have hbrace : ('\x7b' :: body).head?.any isTypeCharacter = false :=
        show isTypeCharacter '\x7b' = false by decide
      obtain ⟨c, type, rfl⟩ := List.exists_cons_of_ne_nil hne
      -- the span has a character, as the reader demands
      have hcons : ∃ d more, gap ++ c :: type ++ space = d :: more := by
        cases gap with
        | nil => exact ⟨_, _, rfl⟩
        | cons d gap => exact ⟨_, _, rfl⟩
      obtain ⟨d, more, hmore⟩ := hcons
      rw [htext, afterBodyOpening?, dropWhile_isBlank_cons hlead (by decide)]
      simp only [takeWhile_eq_of_forall hspan hbrace, List.drop_left]
      rw [hmore]
      rfl

/-- What follows the opening brace of a body, from behind the name of its method on: empty parentheses and
`afterBodyOpening?`. -/
def afterParentheses? (text : Text) : Option Text := do
  let rest ← dropLead? "(".toList (text.dropWhile isBlank)
  let rest ← dropLead? ")".toList (rest.dropWhile isBlank)
  afterBodyOpening? rest

theorem afterNamed?_eq (name : Text) (cursor : Cursor) : cursor.afterNamed? name
    = if isBoundary cursor.before cursor.rest then (dropLead? name cursor.rest).bind afterParentheses?
      else none := rfl

/-- Whether a text is empty parentheses, a return type or none and an opening brace, up to `behind`. -/
def OpensBody (text behind : Text) : Prop :=
  ∃ gap inside result space, text = gap ++ '(' :: (inside ++ ')' :: (result ++ (space ++ '\x7b' :: behind))) ∧
    (∀ c ∈ gap, isBlank c = true) ∧ (∀ c ∈ inside, isBlank c = true) ∧ IsReturnType result ∧
    ∀ c ∈ space, isBlank c = true

theorem afterParentheses?_eq_some_iff : afterParentheses? text = some body ↔ OpensBody text body := by
  simp only [afterParentheses?, Option.bind_eq_bind, Option.bind_eq_some_iff, dropLead?_eq_some_iff,
    afterBodyOpening?_eq_some_iff]
  constructor
  · rintro ⟨t₁, h₁, _, h₂, result, space, rfl, hresult, hspace⟩
    refine ⟨text.takeWhile isBlank, t₁.takeWhile isBlank, result, space, ?_,
      fun c hc => List.mem_takeWhile_imp hc, fun c hc => List.mem_takeWhile_imp hc, hresult, hspace⟩
    -- the blanks that were skipped are put back
    calc text = text.takeWhile isBlank ++ ("(".toList ++ t₁) := by
          rw [← h₁, List.takeWhile_append_dropWhile]
      _ = text.takeWhile isBlank ++ ("(".toList ++ (t₁.takeWhile isBlank
            ++ (")".toList ++ (result ++ (space ++ '\x7b' :: body))))) := by
          rw [← h₂, List.takeWhile_append_dropWhile]
      _ = _ := rfl
  · rintro ⟨gap, inside, result, space, rfl, hgap, hinside, hresult, hspace⟩
    exact ⟨_, dropWhile_isBlank_cons hgap (by decide) _, _, dropWhile_isBlank_cons hinside (by decide) _,
      result, space, rfl, hresult, hspace⟩

theorem afterNamed?_eq_some_iff : Cursor.afterNamed? name ⟨before, text⟩ = some body ↔
    ∃ tail, text = name ++ tail ∧ isBoundary before text = true ∧ OpensBody tail body := by
  rw [afterNamed?_eq]
  by_cases h : isBoundary before text = true
  · simp only [h, if_true, Option.bind_eq_some_iff, dropLead?_eq_some_iff, afterParentheses?_eq_some_iff,
      true_and]
  · simp [h]

/-! ## Modifiers -/

theorem isBoundary_append (before : Option Char) (rest : Text) (ht : text ≠ []) :
    isBoundary before (text ++ rest) = isBoundary before text := by
  obtain ⟨c, text, rfl⟩ := List.exists_cons_of_ne_nil ht
  rfl

/-- Whether a modifier starts at a word boundary does not depend on what is behind its blanks. -/
theorem isBoundary_modifier (hne : blanks ≠ []) (before : Option Char) (word rest : Text) :
    isBoundary before (word ++ (blanks ++ rest)) = isBoundary before (word ++ blanks) := by
  rw [← List.append_assoc, isBoundary_append before rest fun hnil => hne (List.append_eq_nil_iff.mp hnil).2]

/-- Whether a text behind the character `before` is nothing, or one of several words, which starts at a word
boundary, and the blanks behind it. -/
inductive IsModifier (words : List Text) (before : Option Char) : Text → Prop
  | absent : IsModifier words before []
  | present {word blanks : Text} : word ∈ words → isBoundary before (word ++ blanks) = true → blanks ≠ [] →
      (∀ c ∈ blanks, isBlank c = true) → IsModifier words before (word ++ blanks)

/-- Whether a word can be told from the blanks behind it and has no parenthesis. -/
def IsKeyword (word : Text) : Prop :=
  word ≠ [] ∧ ∀ c ∈ word, isBlank c = false ∧ c ≠ '('

theorem IsKeyword.notMem (h : IsKeyword word) : '(' ∉ word :=
  fun hmem => (h.2 _ hmem).2 rfl

theorem notMem_of_blank (h : ∀ c ∈ blanks, isBlank c = true) : '(' ∉ blanks :=
  fun hmem => absurd (h _ hmem) (by decide)

/-- The word at the start of a text ends at the first blank. -/
theorem IsKeyword.unique {word' blanks' rest' : Text} (h : IsKeyword word) (h' : IsKeyword word')
    (hblanks : ∀ c ∈ blanks, isBlank c = true) (hne : blanks ≠ [])
    (hblanks' : ∀ c ∈ blanks', isBlank c = true) (hne' : blanks' ≠ [])
    (heq : word ++ (blanks ++ rest) = word' ++ (blanks' ++ rest')) : word = word' := by
  have hspan : ∀ {word blanks rest : Text}, IsKeyword word → (∀ c ∈ blanks, isBlank c = true) →
      blanks ≠ [] → (word ++ (blanks ++ rest)).takeWhile (fun c => !isBlank c) = word := by
    intro word blanks rest hword hblanks hne
    refine takeWhile_eq_of_forall (fun c hc => by simp [(hword.2 c hc).1]) ?_
    obtain ⟨b, blanks, rfl⟩ := List.exists_cons_of_ne_nil hne
    simp [hblanks b List.mem_cons_self]
  rw [← hspan h hblanks hne, heq, hspan h' hblanks' hne']

/-- What the reader takes for a modifier is one, with all the blanks behind it. -/
theorem afterModifier?_spec {cursor after : Cursor} (h : cursor.afterModifier? words = some after) :
    ∃ word ∈ words, ∃ blanks, cursor.rest = word ++ (blanks ++ after.rest) ∧ blanks ≠ [] ∧
      (∀ c ∈ blanks, isBlank c = true) ∧ isBoundary cursor.before cursor.rest = true ∧
      after.before = blanks.getLast? ∧ after.rest.head?.any isBlank = false := by
  rw [Cursor.afterModifier?] at h
  split at h
  · rename_i hboundary
    obtain ⟨word, hmem, hw⟩ := List.exists_of_findSome?_eq_some h
    simp only [Option.bind_eq_bind, Option.bind_eq_some_iff, dropLead?_eq_some_iff] at hw
    obtain ⟨tail, htail, hw⟩ := hw
    split at hw
    · cases hw
    · rename_i hne
      obtain rfl := Option.some.inj hw
      rw [drop_length_takeWhile]
      refine ⟨word, hmem, tail.takeWhile isBlank, by rw [htail, List.takeWhile_append_dropWhile],
        by simpa using hne, fun c hc => List.mem_takeWhile_imp hc, hboundary, rfl, ?_⟩
      -- the blanks were taken to their end
      rcases dropWhile_cases isBlank tail with hd | ⟨c, rest, hd, hc⟩
      · rw [hd]; rfl
      · rw [hd]; simpa using hc
  · cases h

/-- The reader takes a modifier for what it is. -/
theorem afterModifier?_eq (hwords : ∀ word ∈ words, IsKeyword word) (hmem : word ∈ words)
    (hboundary : isBoundary before (word ++ blanks) = true) (hne : blanks ≠ [])
    (hblanks : ∀ c ∈ blanks, isBlank c = true) (hrest : rest.head?.any isBlank = false) :
    Cursor.afterModifier? ⟨before, word ++ (blanks ++ rest)⟩ words = some ⟨blanks.getLast?, rest⟩ := by
  -- the reader finds some modifier here
  have hfound : (Cursor.afterModifier? ⟨before, word ++ (blanks ++ rest)⟩ words).isSome = true := by
    rw [Cursor.afterModifier?, if_pos ((isBoundary_modifier hne before word rest).trans hboundary),
      List.findSome?_isSome_iff]
    refine ⟨word, hmem, ?_⟩
    have hdrop : dropLead? word (word ++ (blanks ++ rest)) = some (blanks ++ rest) :=
      dropLead?_eq_some_iff.mpr rfl
    simp only [hdrop, Option.bind_eq_bind, Option.bind_some, takeWhile_eq_of_forall hblanks hrest,
      List.isEmpty_iff, hne, if_false]
    rfl
  obtain ⟨after, hafter⟩ := Option.isSome_iff_exists.mp hfound
  obtain ⟨word', hmem', blanks', hsplit, hne', hblanks', -, hlast, hrest'⟩ := afterModifier?_spec hafter
  -- two keywords with blanks behind them at one place are the same
  obtain rfl := (hwords word hmem).unique (hwords word' hmem') hblanks hne hblanks' hne' hsplit
  have hsame := List.append_cancel_left hsplit
  have hspan := takeWhile_eq_of_forall hblanks hrest
  have hspan' := takeWhile_eq_of_forall hblanks' hrest'
  obtain rfl : blanks = blanks' := by rw [← hspan, ← hspan', hsame]
  rw [hafter, List.append_cancel_left hsame, ← hlast]

/-! ## Signatures -/

/-- Whether a text behind the character `before` is a signature up to `behind`, with at most one modifier of
each level in front of the name. -/
def HasSignature (name behind : Text) : List (List Text) → Option Char → Text → Prop
  | [], before, text => ∃ tail, text = name ++ tail ∧ isBoundary before text = true ∧ OpensBody tail behind
  | words :: levels, before, text => ∃ modifier rest, text = modifier ++ rest ∧
      IsModifier words before modifier ∧ HasSignature name behind levels (modifier.getLast?.or before) rest

/-- What follows the opening brace of the body of a method, with at most one modifier of each level, read by
`Cursor.optionally`. -/
def afterLevels? (name : Text) : List (List Text) → Cursor → Option Text
  | [], cursor => cursor.afterNamed? name
  | words :: levels, cursor => cursor.optionally words (afterLevels? name levels)

/-- A signature starts at a word boundary. -/
theorem HasSignature.isBoundary (h : HasSignature name behind levels before text) :
    isBoundary before text = true := by
  induction levels generalizing before text with
  | nil =>
    obtain ⟨-, -, hboundary, -⟩ := h
    exact hboundary
  | cons words levels ih =>
    obtain ⟨modifier, rest, rfl, hmodifier, hrest⟩ := h
    cases hmodifier with
    | absent => exact ih hrest
    | @present word blanks hmem hboundary hne hblanks =>
      rw [List.append_assoc, isBoundary_modifier hne]
      exact hboundary

/-- No signature starts with a blank behind one. -/
theorem HasSignature.head?_of_blank {c : Char} (h : HasSignature name behind levels (some c) text)
    (hc : isBlank c = true) : text.head?.any isBlank = false := by
  have hnotWord : ∀ {d : Char}, isBlank d = true → Unicode.isWord d = false := fun hd =>
    (Bool.or_eq_false_iff.mp (isIdentifierCharacter_of_isBlank hd)).1
  have hboundary := h.isBoundary
  cases text with
  | nil => rfl
  | cons d text =>
    cases hd : isBlank d with
    | false => simpa using hd
    | true => simp [Source.isBoundary, isWordNext, hnotWord hc, hnotWord hd] at hboundary

/-- What the reader accepts is a signature. -/
theorem hasSignature_of_afterLevels? {cursor : Cursor} (h : afterLevels? name levels cursor = some body) :
    HasSignature name body levels cursor.before cursor.rest := by
  induction levels generalizing cursor with
  | nil => exact afterNamed?_eq_some_iff.mp h
  | cons words levels ih =>
    rw [afterLevels?, Cursor.optionally, Option.orElse_eq_orElse, Option.orElse_eq_or,
      Option.or_eq_some_iff] at h
    -- the reader has taken a modifier of the first level, or none
    rcases h with h | ⟨-, h⟩
    · obtain ⟨after, hafter, hnext⟩ := Option.bind_eq_some_iff.mp h
      obtain ⟨word, hmem, blanks, hsplit, hne, hblanks, hboundary, hlast, -⟩ := afterModifier?_spec hafter
      rw [hsplit, isBoundary_modifier hne] at hboundary
      refine ⟨word ++ blanks, after.rest, by rw [hsplit, List.append_assoc],
        .present hmem hboundary hne hblanks, ?_⟩
      obtain ⟨b, hb⟩ := Option.ne_none_iff_exists'.mp (mt List.getLast?_eq_none_iff.mp hne)
      -- the last blank is what the rest of the signature has in front of it
      have hsame : (word ++ blanks).getLast?.or cursor.before = after.before := by
        rw [List.getLast?_append, hlast, hb]
        rfl
      rw [hsame]
      exact ih hnext
    · exact ⟨[], cursor.rest, rfl, .absent, ih h⟩

/-! ## One way to read a signature -/

/-- A name in front of a parenthesis is not the same text as itself behind a keyword: it would be made of
the keyword and what follows it over and over, and a piece of the keyword would be the parenthesis. -/
theorem name_append_ne {z gap : Text} {c : Char} (hhead : z.head? = some c) (hc : isBlank c = false)
    (hopen : c ≠ '(') (hz : '(' ∉ z) (hgap : ∀ d ∈ gap, isBlank d = true) (name t y : Text) :
    name ++ (gap ++ '(' :: t) ≠ z ++ (name ++ y) := by
  intro heq
  -- the equation compares the end of the name with that of `z`
  rcases List.append_eq_append_iff.mp heq with ⟨m, rfl, hm⟩ | ⟨m, rfl, hm⟩
  · -- the name is the start of `z`, and only blanks are behind it there
    have hblank : m <+: gap := by
      rcases prefix_append_cases (p := m) ⟨name ++ y, hm.symm⟩ with hp | ⟨q, hq, rfl⟩
      · exact hp
      · cases q with
        | nil => rw [List.append_nil]
        | cons d q =>
          obtain rfl := (List.cons_prefix_cons.mp hq).1
          exact absurd (by simp) hz
    obtain ⟨more, rfl⟩ := hblank
    rw [List.append_assoc] at hm
    have hnext := List.append_cancel_left hm
    cases name with
    | nil =>
      rw [List.nil_append] at hhead
      rw [hgap c (List.mem_append_left more (List.mem_of_head? hhead))] at hc
      cases hc
    | cons d name =>
      obtain rfl : d = c := Option.some.inj hhead
      cases more with
      | nil => exact hopen (List.cons.inj hnext).1.symm
      | cons e more =>
        obtain rfl := (List.cons.inj hnext).1
        rw [hgap e (by simp)] at hc
        cases hc
  · -- the name starts with `z`, and the rest of it has the same property
    rw [List.append_assoc] at hm
    have hlength : m.length < (z ++ m).length := by
      have := List.length_pos_of_mem (List.mem_of_head? hhead)
      rw [List.length_append]
      omega
    exact name_append_ne hhead hc hopen hz hgap m t y hm.symm
termination_by name.length

/-- A signature without the modifier that it starts with starts with the name of the method. -/
theorem HasSignature.exists_tail (hlevels : ∀ words ∈ levels, ∀ word ∈ words, IsKeyword word)
    (hword : IsKeyword word) (hother : ∀ words ∈ levels, word ∉ words) (hne : blanks ≠ [])
    (hblanks : ∀ c ∈ blanks, isBlank c = true)
    (h : HasSignature name behind levels before (word ++ (blanks ++ rest))) :
    ∃ tail, word ++ (blanks ++ rest) = name ++ tail ∧ OpensBody tail behind := by
  induction levels generalizing before with
  | nil =>
    obtain ⟨tail, htext, -, htail⟩ := h
    exact ⟨tail, htext, htail⟩
  | cons words levels ih =>
    obtain ⟨hwords, hlevels⟩ := List.forall_mem_cons.mp hlevels
    obtain ⟨hnot, hother⟩ := List.forall_mem_cons.mp hother
    obtain ⟨modifier, more, htext, hmodifier, hmore⟩ := h
    -- the keyword is of no level, so no level takes it
    cases hmodifier with
    | absent =>
      rw [List.nil_append] at htext
      rw [← htext] at hmore
      exact ih hlevels hother hmore
    | @present word' blanks' hmem _ hne' hblanks' =>
      rw [List.append_assoc] at htext
      obtain rfl := hword.unique (hwords word' hmem) hblanks hne hblanks' hne' htext
      exact absurd hmem hnot

/-- In front of the name a signature has no parenthesis. -/
theorem HasSignature.exists_lead (hlevels : ∀ words ∈ levels, ∀ word ∈ words, IsKeyword word)
    (h : HasSignature name behind levels before text) :
    ∃ lead tail, text = lead ++ (name ++ tail) ∧ '(' ∉ lead ∧ OpensBody tail behind := by
  induction levels generalizing before text with
  | nil =>
    obtain ⟨tail, rfl, -, htail⟩ := h
    exact ⟨[], tail, rfl, List.not_mem_nil, htail⟩
  | cons words levels ih =>
    obtain ⟨modifier, more, rfl, hmodifier, hmore⟩ := h
    obtain ⟨hwords, hlevels⟩ := List.forall_mem_cons.mp hlevels
    obtain ⟨lead, tail, rfl, hlead, htail⟩ := ih hlevels hmore
    refine ⟨modifier ++ lead, tail, by rw [List.append_assoc], ?_, htail⟩
    -- neither keywords nor blanks are parentheses
    rw [List.mem_append, not_or]
    refine ⟨?_, hlead⟩
    cases hmodifier with
    | absent => exact List.not_mem_nil
    | present hmem _ _ hblanks =>
      rw [List.mem_append, not_or]
      exact ⟨(hwords _ hmem).notMem, notMem_of_blank hblanks⟩

/-- A text that is a signature with a modifier is none without it. -/
theorem HasSignature.not_without {before' : Option Char} {behind' : Text}
    (hlevels : ∀ words ∈ levels, ∀ word ∈ words, IsKeyword word) (hword : IsKeyword word)
    (hother : ∀ words ∈ levels, word ∉ words) (hne : blanks ≠ []) (hblanks : ∀ c ∈ blanks, isBlank c = true)
    (h : HasSignature name behind levels before rest) :
    ¬ HasSignature name behind' levels before' (word ++ (blanks ++ rest)) := by
  intro h'
  -- without the modifier the text would start with the name, which also stands behind the modifier
  obtain ⟨tail', htext, gap, _, _, _, rfl, hgap, -⟩ := h'.exists_tail hlevels hword hother hne hblanks
  obtain ⟨lead, tail, rfl, hlead, -⟩ := h.exists_lead hlevels
  obtain ⟨c, word, rfl⟩ := List.exists_cons_of_ne_nil hword.1
  obtain ⟨hc, hopen⟩ := hword.2 c List.mem_cons_self
  have hz : '(' ∉ c :: word ++ (blanks ++ lead) := by
    rw [List.mem_append, List.mem_append, not_or, not_or]
    exact ⟨hword.notMem, notMem_of_blank hblanks, hlead⟩
  exact name_append_ne rfl hc hopen hz hgap name _ tail
    (htext.symm.trans (by simp only [List.append_assoc]))

/-- The reader accepts every signature, and leaves what is behind it. -/
theorem afterLevels?_of_hasSignature (hlevels : ∀ words ∈ levels, ∀ word ∈ words, IsKeyword word)
    (hdistinct : levels.Pairwise fun words others => ∀ word ∈ words, word ∉ others)
    (h : HasSignature name behind levels before text) :
    afterLevels? name levels ⟨before, text⟩ = some behind := by
  induction levels generalizing before text with
  | nil => exact afterNamed?_eq_some_iff.mpr h
  | cons words levels ih =>
    obtain ⟨hother, hdistinct⟩ := List.pairwise_cons.mp hdistinct
    obtain ⟨hwords, hlevels⟩ := List.forall_mem_cons.mp hlevels
    obtain ⟨modifier, rest, rfl, hmodifier, hrest⟩ := h
    rw [afterLevels?, Cursor.optionally, Option.orElse_eq_orElse, Option.orElse_eq_or]
    cases hmodifier with
    | absent =>
      -- a word of this level may be there all the same, but then nothing can be read behind it
      have hnext : afterLevels? name levels ⟨before, rest⟩ = some behind := ih hlevels hdistinct hrest
      have hnone : (Cursor.afterModifier? ⟨before, rest⟩ words).bind (afterLevels? name levels) = none := by
        refine Option.eq_none_iff_forall_ne_some.mpr fun body hbody => ?_
        obtain ⟨after, hafter, hnext'⟩ := Option.bind_eq_some_iff.mp hbody
        obtain ⟨word, hmem, blanks, hsplit, hne, hblanks, -⟩ := afterModifier?_spec hafter
        have hwithout := hasSignature_of_afterLevels? hnext
        rw [hsplit] at hwithout
        exact (hasSignature_of_afterLevels? hnext').not_without hlevels (hwords word hmem)
          (fun others hothers => hother others hothers word hmem) hne hblanks hwithout
      rw [List.nil_append, hnone, hnext]
      rfl
    | @present word blanks hmem hboundary hne hblanks =>
      obtain ⟨b, hb⟩ := Option.ne_none_iff_exists'.mp (mt List.getLast?_eq_none_iff.mp hne)
      have hlast : (word ++ blanks).getLast?.or before = some b := by
        rw [List.getLast?_append, hb]
        rfl
      rw [hlast] at hrest
      -- the reader takes all blanks behind the word, which is right as no signature starts with one
      have hblank : rest.head?.any isBlank = false :=
        hrest.head?_of_blank (hblanks b (List.mem_of_getLast? hb))
      rw [List.append_assoc, afterModifier?_eq hwords hmem hboundary hne hblanks hblank, hb, Option.bind_some,
        ih hlevels hdistinct hrest]
      rfl

/-! ## The signature of a method -/

/-- The words that may stand in front of the name of a method, in their order. -/
def modifierLevels : List (List Text) :=
  [["private", "protected", "public"], ["static"], ["async"]]

theorem isKeyword_of_mem : ∀ words ∈ modifierLevels, ∀ word ∈ words, IsKeyword word := by
  have hall : modifierLevels.all (fun words => words.all fun word =>
      !word.isEmpty && word.all fun c => !isBlank c && c != '(') = true := by decide
  intro words hwords word hword
  have hcheck := List.all_eq_true.mp (List.all_eq_true.mp hall words hwords) word hword
  rw [Bool.and_eq_true, List.all_eq_true] at hcheck
  exact ⟨by simpa using hcheck.1, fun c hc => by simpa using hcheck.2 c hc⟩

/-- The reader accepts exactly the signatures. -/
theorem afterSignature?_eq_some_iff : Cursor.afterSignature? name ⟨before, text⟩ = some behind ↔
    HasSignature name behind modifierLevels before text := by
  have hread : ∀ cursor : Cursor, cursor.afterSignature? name = afterLevels? name modifierLevels cursor :=
    fun _ => rfl
  rw [hread]
  exact ⟨hasSignature_of_afterLevels?, afterLevels?_of_hasSignature isKeyword_of_mem (by decide)⟩

end ComponentKit.Source
