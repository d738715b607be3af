import ComponentKit.Proofs.Text.Occurrence
import ComponentKit.Proofs.Text.Span
import ComponentKit.Source.Import

/-!
# Import statements

What an import statement looks like (`IsImport`), and where `afterImport?` recognizes one. A statement has a line
break at most in front of its module, so that it reaches over the end of a line only if the next characters that
are not blank are a quote. Up to such an end of a line the statements of a text do not depend on what follows.
-/

namespace ComponentKit.Source

open Text

variable {text after : Text} {before : Char}

/-! ## The shape of a statement -/

/-- How a statement ends: with a module in quotes and perhaps a semicolon. -/
def IsEnding (text : Text) : Prop :=
  ∃ opening name close gap semicolon,
    text = opening :: (name ++ close :: (gap ++ semicolon)) ∧
      isQuote opening = true ∧ isQuote close = true ∧
      (name ≠ [] ∧ ∀ c ∈ name, (!isQuote c && c != '\n') = true) ∧
      (∀ c ∈ gap, isIndent c = true) ∧ (semicolon = [] ∨ semicolon = [';'])

/-- How a statement starts, up to the blanks in front of its module. -/
inductive IsBeginning : Text → Text → Prop where
  /-- Words up to `from`. -/
  | named {lead blanks : Text} : '\n' ∉ lead → isWordNext (lead ++ "from".toList).head? = false →
      Unicode.isWord (lead.getLastD 't') = false →
      IsBeginning ("import".toList ++ lead ++ "from".toList) blanks
  /-- Nothing but the module. -/
  | bare {blanks : Text} : blanks ≠ [] → IsBeginning "import".toList blanks
  /-- The last line of a longer statement. -/
  | closing {lead blanks : Text} : '\n' ∉ lead → Unicode.isWord (lead.getLastD '\x7d') = false →
      IsBeginning ('\x7d' :: lead ++ "from".toList) blanks

/-- Whether a text is an import statement: an `IsBeginning`, blanks, and an `IsEnding`. -/
def IsImport (text : Text) : Prop :=
  ∃ head blanks ending, text = head ++ (blanks ++ ending) ∧ IsBeginning head blanks ∧
    (∀ c ∈ blanks, isBlank c = true) ∧ IsEnding ending

theorem isBlank_of_isQuote {c : Char} (h : isQuote c = true) : isBlank c = false := by
  simp only [isQuote, Bool.or_eq_true, beq_iff_eq] at h
  rcases h with rfl | rfl <;> decide

/-! ## The end of a statement -/

theorem afterModule?_eq_some_iff :
    afterModule? text = some after ↔ ∃ opening name close,
      text = opening :: (name ++ close :: after) ∧ isQuote opening = true ∧ isQuote close = true ∧
        name ≠ [] ∧ ∀ c ∈ name, (!isQuote c && c != '\n') = true := by
  constructor
  · intro h
    cases text with
    | nil => simp [afterModule?] at h
    | cons opening rest =>
      -- the name is the span up to a quote or a line break
      have hsplit := List.takeWhile_append_dropWhile (p := fun c => !isQuote c && c != '\n') (l := rest)
      have hname : ∀ c ∈ rest.takeWhile (fun c => !isQuote c && c != '\n'),
          (!isQuote c && c != '\n') = true := by
        intro c hc
        exact List.mem_takeWhile_imp (p := fun c => !isQuote c && c != '\n') hc
      rw [afterModule?] at h
      split at h
      · rename_i hopening
        simp only [drop_length_takeWhile] at h
        split at h
        · rename_i d name close tail hn hd
          split at h
          · rename_i hclose
            obtain rfl := Option.some.inj h
            refine ⟨opening, d :: name, close, ?_, hopening, hclose, by simp, ?_⟩
            · rw [← hn, ← hd, hsplit]
            · rw [← hn]
              exact hname
          · cases h
        · cases h
      · cases h
  · rintro ⟨opening, name, close, rfl, hopening, hclose, hne, hname⟩
    -- the closing quote ends the span
    have hstop : (close :: after).head?.any (fun c => !isQuote c && c != '\n') = false := by
      simp [hclose]
    rw [afterModule?, if_pos hopening]
    have htake := takeWhile_eq_of_forall hname hstop
    obtain ⟨d, name, rfl⟩ := List.exists_cons_of_ne_nil hne
    rw [List.cons_append] at htake
    simp [htake, hclose]

/-- A text without the semicolon that it starts with. -/
def afterSemicolon : Text → Text
  | ';' :: more => more
  | text => text

theorem afterSemicolon_of_ne (h : text.head? ≠ some ';') : afterSemicolon text = text := by
  unfold afterSemicolon
  split
  · exact absurd rfl h
  · rfl

theorem afterTerminator?_eq (text : Text) :
    afterTerminator? text =
      let after := afterSemicolon (text.dropWhile isIndent)
      if endsLine (after.dropWhile isIndent) then some after else none := by
  rw [afterTerminator?]
  generalize text.dropWhile isIndent = rest
  by_cases h : rest.head? = some ';'
  · obtain ⟨more, rfl⟩ := List.head?_eq_some_iff.mp h
    rfl
  · rw [afterSemicolon_of_ne h]
    split
    · exact absurd rfl h
    · rfl

theorem afterSemicolon_split (text : Text) :
    ∃ semicolon, text = semicolon ++ afterSemicolon text ∧ (semicolon = [] ∨ semicolon = [';']) := by
  unfold afterSemicolon
  split
  · exact ⟨[';'], rfl, .inr rfl⟩
  · exact ⟨[], rfl, .inl rfl⟩

theorem afterTerminator?_eq_some (h : afterTerminator? text = some after) :
    (∃ gap semicolon, text = gap ++ (semicolon ++ after) ∧ (∀ c ∈ gap, isIndent c = true) ∧
      (semicolon = [] ∨ semicolon = [';'])) ∧ endsLine (after.dropWhile isIndent) = true := by
  simp only [afterTerminator?_eq] at h
  split at h
  · rename_i hends
    obtain rfl := Option.some.inj h
    obtain ⟨semicolon, hsplit, hsemi⟩ := afterSemicolon_split (text.dropWhile isIndent)
    refine ⟨⟨text.takeWhile isIndent, semicolon, ?_, fun c hc => List.mem_takeWhile_imp hc, hsemi⟩, hends⟩
    rw [← hsplit, List.takeWhile_append_dropWhile]
  · cases h

theorem head?_ne_of_endsLine (h : endsLine text = true) {c : Char} (hn : c ≠ '\n') (hr : c ≠ '\r') :
    text.head? ≠ some c := by
  intro hc
  obtain ⟨rest, rfl⟩ := List.head?_eq_some_iff.mp hc
  -- a line ends with its text, a feed or a return
  rw [endsLine.eq_def] at h
  split at h
  · rename_i heq
    cases heq
  · rename_i heq
    exact hn (List.cons.inj heq).1
  · rename_i heq
    exact hr (List.cons.inj heq).1
  · rename_i heq
    exact hr (List.cons.inj heq).1
  · cases h

theorem head?_any_isIndent_of_endsLine (h : endsLine text = true) : text.head?.any isIndent = false := by
  cases hh : text.head? with
  | none => rfl
  | some c =>
    have hne : isIndent c = false := by
      refine Bool.eq_false_iff.mpr fun hi => ?_
      have hindent : c = ' ' ∨ c = '\t' := by simpa [isIndent] using hi
      rcases hindent with rfl | rfl
      · exact head?_ne_of_endsLine h (by decide) (by decide) hh
      · exact head?_ne_of_endsLine h (by decide) (by decide) hh
    simpa using hne

theorem isSome_afterTerminator? {gap semicolon : Text} (hg : ∀ c ∈ gap, isIndent c = true)
    (hs : semicolon = [] ∨ semicolon = [';']) (h : endsLine (after.dropWhile isIndent) = true) :
    (afterTerminator? (gap ++ (semicolon ++ after))).isSome = true := by
  rw [afterTerminator?_eq]
  rcases hs with rfl | rfl
  -- without a semicolon the gap is part of the blanks at the end of the line
  · have hdrop : (gap ++ ([] ++ after)).dropWhile isIndent = after.dropWhile isIndent := by
      rw [List.nil_append, List.dropWhile_append_of_pos hg]
    have hagain : ([] ++ after.dropWhile isIndent).dropWhile isIndent = after.dropWhile isIndent :=
      dropWhile_eq_of_forall (by simp) (head?_any_isIndent_of_endsLine h)
    rw [List.nil_append] at hagain
    simp only [hdrop, afterSemicolon_of_ne (head?_ne_of_endsLine h (by decide) (by decide)), hagain, h]
    rfl
  -- with one the gap ends at it
  · have hdrop : (gap ++ ([';'] ++ after)).dropWhile isIndent = ';' :: after :=
      dropWhile_eq_of_forall hg (by simp [isIndent])
    simp only [hdrop, afterSemicolon, h]
    rfl

/-- What follows a module and the end of its statement. -/
def afterEnding? (text : Text) : Option Text :=
  (afterModule? text).bind afterTerminator?

theorem isEnding_of_eq_some (h : afterEnding? text = some after) :
    ∃ ending, text = ending ++ after ∧ IsEnding ending ∧ endsLine (after.dropWhile isIndent) = true := by
  obtain ⟨rest, hmodule, hend⟩ := Option.bind_eq_some_iff.mp h
  obtain ⟨opening, name, close, rfl, hopening, hclose, hne, hname⟩ := afterModule?_eq_some_iff.mp hmodule
  obtain ⟨⟨gap, semicolon, rfl, hgap, hsemi⟩, hline⟩ := afterTerminator?_eq_some hend
  exact ⟨opening :: (name ++ close :: (gap ++ semicolon)), by simp,
    ⟨opening, name, close, gap, semicolon, rfl, hopening, hclose, ⟨hne, hname⟩, hgap, hsemi⟩, hline⟩

theorem IsEnding.isSome {ending : Text} (h : IsEnding ending)
    (hline : endsLine (after.dropWhile isIndent) = true) :
    (afterEnding? (ending ++ after)).isSome = true := by
  obtain ⟨opening, name, close, gap, semicolon, rfl, hopening, hclose, ⟨hne, hname⟩, hgap, hsemi⟩ := h
  have hmodule : afterModule? (opening :: (name ++ close :: (gap ++ semicolon)) ++ after)
      = some (gap ++ (semicolon ++ after)) :=
    afterModule?_eq_some_iff.mpr ⟨opening, name, close, by simp, hopening, hclose, hne, hname⟩
  rw [afterEnding?, hmodule]
  exact isSome_afterTerminator? hgap hsemi hline

theorem IsEnding.head_not_blank {ending : Text} (h : IsEnding ending) (rest : Text) :
    (ending ++ rest).head?.any isBlank = false := by
  obtain ⟨opening, name, close, gap, semicolon, rfl, hopening, -⟩ := h
  simpa using isBlank_of_isQuote hopening

/-! ## Clauses -/

theorem afterFrom?_eq (before : Char) (text : Text) :
    afterFrom? before text = if Unicode.isWord before then none else
      (dropLead? "from" text).bind fun rest => afterEnding? (rest.dropWhile isBlank) := by
  rw [afterFrom?]
  split <;> rfl

theorem afterFrom?_eq_some (h : afterFrom? before text = some after) :
    Unicode.isWord before = false ∧ ∃ blanks ending, text = "from".toList ++ (blanks ++ (ending ++ after)) ∧
      (∀ c ∈ blanks, isBlank c = true) ∧ IsEnding ending ∧
      endsLine (after.dropWhile isIndent) = true := by
  rw [afterFrom?_eq] at h
  split at h
  · cases h
  · rename_i hword
    obtain ⟨rest, hlead, hrest⟩ := Option.bind_eq_some_iff.mp h
    obtain ⟨ending, hending, hshape, hline⟩ := isEnding_of_eq_some hrest
    refine ⟨by simpa using hword, rest.takeWhile isBlank, ending, ?_,
      fun c hc => List.mem_takeWhile_imp hc, hshape, hline⟩
    rw [← hending, List.takeWhile_append_dropWhile]
    exact dropLead?_eq_some_iff.mp hlead

theorem isSome_afterFrom? (hb : Unicode.isWord before = false) {blanks ending : Text}
    (hblanks : ∀ c ∈ blanks, isBlank c = true) (h : IsEnding ending)
    (hline : endsLine (after.dropWhile isIndent) = true) :
    (afterFrom? before ("from".toList ++ (blanks ++ (ending ++ after)))).isSome = true := by
  have hlead : dropLead? "from" ("from".toList ++ (blanks ++ (ending ++ after)))
      = some (blanks ++ (ending ++ after)) := dropLead?_eq_some_iff.mpr rfl
  rw [afterFrom?_eq, if_neg (by simp [hb]), hlead, Option.bind_some,
    dropWhile_eq_of_forall hblanks (h.head_not_blank after)]
  exact h.isSome hline

theorem afterFromOnLine?_eq_some (h : afterFromOnLine? before text = some after) :
    ∃ lead blanks ending, text = lead ++ ("from".toList ++ (blanks ++ (ending ++ after))) ∧
      '\n' ∉ lead ∧ Unicode.isWord (lead.getLastD before) = false ∧
      (∀ c ∈ blanks, isBlank c = true) ∧ IsEnding ending ∧
      endsLine (after.dropWhile isIndent) = true := by
  induction text generalizing before with
  | nil => simp [afterFromOnLine?] at h
  | cons c rest ih =>
    rw [afterFromOnLine?] at h
    split at h
    -- the clause starts here
    · rename_i found hfound
      obtain rfl := Option.some.inj h
      obtain ⟨hword, blanks, ending, htext, hrest⟩ := afterFrom?_eq_some hfound
      exact ⟨[], blanks, ending, htext, List.not_mem_nil, hword, hrest⟩
    · split at h
      · cases h
      · rename_i hc
        -- the clause starts later on the line
        obtain ⟨lead, blanks, ending, rfl, hlead, hword, hrest⟩ := ih h
        refine ⟨c :: lead, blanks, ending, rfl, ?_, by rwa [List.getLastD_cons], hrest⟩
        rw [List.mem_cons, not_or]
        exact ⟨Ne.symm hc, hlead⟩

theorem isSome_afterFromOnLine? {lead rest : Text} (hlead : '\n' ∉ lead)
    (h : (afterFrom? (lead.getLastD before) rest).isSome = true) :
    (afterFromOnLine? before (lead ++ rest)).isSome = true := by
  induction lead generalizing before with
  | nil =>
    rw [List.nil_append]
    cases rest with
    | nil => simp [afterFrom?_eq, dropLead?] at h
    | cons c rest =>
      obtain ⟨found, hfound⟩ := Option.isSome_iff_exists.mp h
      rw [List.getLastD_nil] at hfound
      rw [afterFromOnLine?, hfound]
      rfl
  | cons c lead ih =>
    rw [List.mem_cons, not_or] at hlead
    rw [List.getLastD_cons] at h
    rw [List.cons_append, afterFromOnLine?]
    -- another clause may be found first, and then something is found all the same
    split
    · rfl
    · rw [if_neg (Ne.symm hlead.1)]
      exact ih hlead.2 h

/-! ## Whole statements -/

theorem dropWord?_eq_some_iff {word rest : Text} :
    dropWord? word text = some rest ↔ text = word ++ rest ∧ isWordNext rest.head? = false := by
  rw [dropWord?, Option.filter_eq_some_iff, dropLead?_eq_some_iff, Bool.not_eq_true']

/-- What `afterImport?` tries for a statement that lists what it imports. -/
def afterNamed? (text : Text) : Option Text :=
  (dropWord? "import" text).bind (afterFromOnLine? 't')

/-- What `afterImport?` tries for a statement that imports nothing but the module. -/
def afterBare? (text : Text) : Option Text :=
  (dropLead? "import" text).bind fun rest =>
    if (rest.takeWhile isBlank).isEmpty then none else afterEnding? (rest.dropWhile isBlank)

/-- What `afterImport?` tries for the last line of a longer statement. -/
def afterClosing? : Text → Option Text
  | '\x7d' :: rest => afterFromOnLine? '\x7d' rest
  | _ => none

theorem afterClosing?_eq (text : Text) :
    afterClosing? text = match text with
      | '\x7d' :: rest => afterFromOnLine? '\x7d' rest
      | _ => none := by
  unfold afterClosing?
  split <;> rfl

theorem afterImport?_eq (text : Text) :
    afterImport? text = ((afterNamed? text).or (afterBare? text)).or (afterClosing? text) := by
  have hnamed : (do afterFromOnLine? 't' (← dropWord? "import" text) : Option Text)
      = afterNamed? text := rfl
  -- the part for a bare module differs in how the blanks are dropped
  have hbare : (do
      let rest ← dropLead? "import" text
      let blanks := rest.takeWhile isBlank
      if blanks.isEmpty then none
      afterTerminator? (← afterModule? (rest.drop blanks.length)) : Option Text) = afterBare? text := by
    rw [afterBare?]
    refine congrArg _ (funext fun rest => ?_)
    simp only [drop_length_takeWhile]
    split <;> rfl
  rw [afterImport?.eq_def, hnamed]
  dsimp only
  rw [hbare, afterClosing?_eq]
  clear hnamed hbare
  cases afterNamed? text <;> cases afterBare? text <;> rfl

/-- What follows a statement that is recognized. -/
theorem afterImport?_eq_some (h : afterImport? text = some after) :
    ∃ statement, text = statement ++ after ∧ IsImport statement ∧
      endsLine (after.dropWhile isIndent) = true := by
  rw [afterImport?_eq, Option.or_eq_some_iff, Option.or_eq_some_iff] at h
  -- the statement names what it imports, or has a module only, or is the end of a longer one
  rcases h with (h | ⟨-, h⟩) | ⟨-, h⟩
  · obtain ⟨rest, hword, hrest⟩ := Option.bind_eq_some_iff.mp h
    obtain ⟨rfl, hnext⟩ := dropWord?_eq_some_iff.mp hword
    obtain ⟨lead, blanks, ending, rfl, hlead, hlast, hblanks, hending, hline⟩ :=
      afterFromOnLine?_eq_some hrest
    refine ⟨"import".toList ++ lead ++ "from".toList ++ (blanks ++ ending), by simp, ?_, hline⟩
    refine ⟨_, blanks, ending, rfl, .named hlead ?_ hlast, hblanks, hending⟩
    cases lead <;> exact hnext
  · obtain ⟨rest, hlead, hrest⟩ := Option.bind_eq_some_iff.mp h
    obtain rfl := dropLead?_eq_some_iff.mp hlead
    split at hrest
    · cases hrest
    · rename_i hblanks
      obtain ⟨ending, hending, hshape, hline⟩ := isEnding_of_eq_some hrest
      refine ⟨"import".toList ++ (rest.takeWhile isBlank ++ ending), ?_, ?_, hline⟩
      · rw [List.append_assoc, List.append_assoc, ← hending, List.takeWhile_append_dropWhile]
      · exact ⟨_, _, ending, rfl, .bare (by simpa using hblanks),
          fun c hc => List.mem_takeWhile_imp hc, hshape⟩
  · unfold afterClosing? at h
    split at h
    · rename_i rest
      obtain ⟨lead, blanks, ending, rfl, hlead, hlast, hblanks, hending, hline⟩ :=
        afterFromOnLine?_eq_some h
      exact ⟨'\x7d' :: lead ++ "from".toList ++ (blanks ++ ending), by simp,
        ⟨_, blanks, ending, rfl, .closing hlead hlast, hblanks, hending⟩, hline⟩
    · cases h

/-- A statement at the end of its line is recognized. -/
theorem IsImport.isSome {statement : Text} (h : IsImport statement)
    (hline : endsLine (after.dropWhile isIndent) = true) :
    (afterImport? (statement ++ after)).isSome = true := by
  obtain ⟨head, blanks, ending, rfl, hhead, hblanks, hending⟩ := h
  rw [afterImport?_eq, Option.isSome_or, Option.isSome_or, Bool.or_eq_true, Bool.or_eq_true]
  -- an earlier form may apply as well: it is enough that one of them does
  cases hhead with
  | @named lead _ hlead hnext hlast =>
    refine .inl (.inl ?_)
    have hword : dropWord? "import" ("import".toList ++ lead ++ "from".toList ++ (blanks ++ ending) ++ after)
        = some (lead ++ ("from".toList ++ (blanks ++ (ending ++ after)))) := by
      refine dropWord?_eq_some_iff.mpr ⟨by simp, ?_⟩
      cases lead <;> exact hnext
    rw [afterNamed?, hword]
    exact isSome_afterFromOnLine? hlead (isSome_afterFrom? hlast hblanks hending hline)
  | bare hne =>
    refine .inl (.inr ?_)
    have hlead : dropLead? "import" ("import".toList ++ (blanks ++ ending) ++ after)
        = some (blanks ++ (ending ++ after)) := dropLead?_eq_some_iff.mpr (by simp)
    have hstop := hending.head_not_blank after
    rw [afterBare?, hlead, Option.bind_some, takeWhile_eq_of_forall hblanks hstop,
      dropWhile_eq_of_forall hblanks hstop, if_neg (by simpa using hne)]
    exact hending.isSome hline
  | @closing lead _ hlead hlast =>
    refine .inr ?_
    have htext : '\x7d' :: lead ++ "from".toList ++ (blanks ++ ending) ++ after
        = '\x7d' :: (lead ++ ("from".toList ++ (blanks ++ (ending ++ after)))) := by simp
    rw [htext, afterClosing?]
    exact isSome_afterFromOnLine? hlead (isSome_afterFrom? hlast hblanks hending hline)

/-! ## What a statement is made of -/

/-- A statement starts with a letter or a brace. -/
theorem IsImport.head {statement : Text} (h : IsImport statement) :
    statement.head? = some 'i' ∨ statement.head? = some '\x7d' := by
  obtain ⟨head, blanks, ending, rfl, hhead, -, -⟩ := h
  cases hhead with
  | named _ _ _ => exact .inl rfl
  | bare _ => exact .inl rfl
  | closing _ _ => exact .inr rfl

/-- A statement ends with a quote, perhaps with a semicolon behind it. -/
theorem IsImport.last {statement : Text} (h : IsImport statement) :
    ∃ front quote gap semicolon, statement = front ++ quote :: (gap ++ semicolon) ∧
      isQuote quote = true ∧ (∀ c ∈ gap, isIndent c = true) ∧ (semicolon = [] ∨ semicolon = [';']) := by
  obtain ⟨head, blanks, ending, rfl, -, -, opening, name, close, gap, semicolon, rfl, -, hclose, -,
    hgap, hsemi⟩ := h
  exact ⟨head ++ blanks ++ opening :: name, close, gap, semicolon, by simp, hclose, hgap, hsemi⟩

theorem newline_notMem_ending {ending : Text} (h : IsEnding ending) : '\n' ∉ ending := by
  obtain ⟨opening, name, close, gap, semicolon, rfl, hopening, hclose, ⟨-, hname⟩, hgap, hsemi⟩ := h
  have hquote : ∀ {c}, isQuote c = true → '\n' ≠ c := by
    rintro c hc rfl
    exact absurd hc (by decide)
  simp only [List.mem_cons, List.mem_append, not_or]
  refine ⟨hquote hopening, fun hn => ?_, hquote hclose, fun hg => absurd (hgap _ hg) (by decide), ?_⟩
  · exact absurd (hname _ hn) (by decide)
  · rcases hsemi with rfl | rfl <;> decide

theorem newline_notMem_beginning {head blanks : Text} (h : IsBeginning head blanks) : '\n' ∉ head := by
  cases h with
  | named hlead _ _ =>
    simp only [List.mem_append, not_or]
    exact ⟨⟨by decide, hlead⟩, by decide⟩
  | bare _ => decide
  | closing hlead _ =>
    simp only [List.cons_append, List.mem_cons, List.mem_append, not_or]
    exact ⟨by decide, hlead, by decide⟩

/-- Behind a line break a statement goes on with the quote of its module. -/
theorem IsImport.quote_of_newline {statement front back : Text} (h : IsImport statement)
    (hs : statement = front ++ '\n' :: back) : (back.dropWhile isBlank).head?.any isQuote = true := by
  obtain ⟨head, blanks, ending, rfl, hhead, hblanks, hending⟩ := h
  have hstart := newline_notMem_beginning hhead
  have hend := newline_notMem_ending hending
  -- the beginning has no break either
  obtain ⟨more, hmore⟩ : ∃ more, blanks ++ ending = more ++ '\n' :: back := by
    rcases List.append_eq_append_iff.mp hs with ⟨more, -, hm⟩ | ⟨more, hh, hm⟩
    · exact ⟨more, hm⟩
    · cases more with
      | nil => exact ⟨[], by simpa using hm.symm⟩
      | cons c more =>
        obtain rfl := (List.cons.inj hm).1
        exact absurd (by simp [hh]) hstart
  -- the ending has no break, so the break is one of the blanks, behind which the module stands
  rcases List.append_eq_append_iff.mp hmore with ⟨rest, -, hr⟩ | ⟨rest, hb, hr⟩
  · exact absurd (by simp [hr]) hend
  · cases rest with
    | nil =>
      rw [List.nil_append] at hr
      exact absurd (by simp [← hr]) hend
    | cons c rest =>
      rw [List.cons_append] at hr
      obtain ⟨rfl, rfl⟩ := List.cons.inj hr
      have hrest : ∀ c ∈ rest, isBlank c = true := fun c hc => hblanks c (by simp [hb, hc])
      obtain ⟨opening, name, close, gap, semicolon, rfl, hopening, -⟩ := hending
      have hdrop : (rest ++ opening :: (name ++ close :: (gap ++ semicolon))).dropWhile isBlank
          = opening :: (name ++ close :: (gap ++ semicolon)) :=
        dropWhile_eq_of_forall hrest (by simpa using isBlank_of_isQuote hopening)
      rw [hdrop]
      simpa using hopening

end ComponentKit.Source
