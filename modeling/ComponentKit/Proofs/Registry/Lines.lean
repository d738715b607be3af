import ComponentKit.Proofs.Component.Statements
import ComponentKit.Proofs.Registry.Registration
import ComponentKit.Proofs.Source.ImportInsertion

/-!
# The lines that a patch puts in

What a patch puts into a text: an import line next to a line break, and the lines of a registration, each behind a
line break (`AreLines`). Neither has a brace or an import that the reader of the text would take for one of the
text, and they have only their own lines in them (`IsWiring`).
-/

namespace ComponentKit.Registry

open Text Source Component

variable {newline indent needle line : Text} {lines : List Text} {c : Char}

/-! ## Indented lines -/

theorem indented_cons (newline indent line : Text) (lines : List Text) :
    indented newline indent (line :: lines) = (newline ++ indent ++ line) ++ indented newline indent lines := by
  simp [indented]

/-- A line that a registration may have: it starts with a `t`, ends with a semicolon and is one line. -/
structure IsBodyLine (line : Text) : Prop where
  /-- It starts like `this`. -/
  head : line.head? = some 't'
  /-- It is a statement. -/
  last : line.getLast? = some ';'
  /-- It is one line. -/
  unbroken : '\n' ∉ line

theorem getLast?_indented (hne : lines ≠ []) (h : ∀ line ∈ lines, IsBodyLine line) :
    (indented newline indent lines).getLast? = some ';' := by
  induction lines with
  | nil => exact absurd rfl hne
  | cons line lines ih =>
    rw [indented_cons, List.getLast?_append]
    cases lines with
    | nil =>
      rw [List.getLast?_append, (h line (by simp)).last]
      rfl
    | cons second lines =>
      rw [ih (by simp) fun line hline => h line (List.mem_cons_of_mem _ hline)]
      rfl

/-- The lines of a registration import nothing. -/
theorem isQuiet_indented (hn : IsBreak newline) (hi : ∀ c ∈ indent, isBlank c = true) (hne : lines ≠ [])
    (h : ∀ line ∈ lines, IsBodyLine line) : IsQuiet (indented newline indent lines) where
  starts := by
    obtain ⟨line, lines, rfl⟩ := List.exists_cons_of_ne_nil hne
    rw [indented_cons, List.append_assoc, List.append_assoc]
    exact hn.startsWithBreak _
  lines x y hxy := by
    clear hne
    induction lines generalizing x with
    | nil => exact absurd hxy (by simp [indented])
    | cons line lines ih =>
      have hline := h line (by simp)
      rw [indented_cons] at hxy
      -- the break is in a later line, or in front of this one
      rcases List.append_eq_append_iff.mp hxy with ⟨z, hx, hz⟩ | ⟨z, hx, hz⟩
      · exact ih (fun line hl => h line (List.mem_cons_of_mem _ hl)) z hz
      · cases z with
        | nil =>
          rw [List.append_nil] at hx
          exact ih (fun line hl => h line (List.mem_cons_of_mem _ hl)) [] hz.symm
        | cons d z =>
          obtain ⟨rfl, rfl⟩ := List.cons.inj hz
          obtain ⟨b, hb, rfl⟩ := append_cons_eq_of_notMem hline.unbroken hx
          have hblank : ∀ c ∈ b, isBlank c = true := by
            intro c hc
            have hmem : c ∈ newline ++ indent := by rw [hb]; simp [hc]
            exact (List.mem_append.mp hmem).elim hn.isBlank (hi c)
          obtain ⟨tail, rfl⟩ := List.head?_eq_some_iff.mp hline.head
          show ((b ++ 't' :: tail ++ indented newline indent lines).dropWhile isBlank).head? = some 't'
          rw [List.append_assoc, dropWhile_eq_of_forall hblank]
          · rfl
          · rfl
  ends := getLast?_indented hne h

/-- Indented lines have the occurrences of each line. -/
theorem occurrences_indented (hneedle : IsOneStatement needle) (hn : IsBreak newline)
    (hi : ∀ c ∈ indent, isBlank c = true) (h : ∀ line ∈ lines, IsBodyLine line) :
    occurrences needle (indented newline indent lines) = (lines.map (occurrences needle)).sum := by
  have hblank : ∀ c ∈ newline ++ indent, isBlank c = true := by
    intro c hc
    exact (List.mem_append.mp hc).elim hn.isBlank (hi c)
  -- on the lines: each ends with a semicolon, so nothing occurs across two of them
  induction lines with
  | nil => rfl
  | cons line lines ih =>
    have hlast : (newline ++ indent ++ line).getLast? = some ';' := by
      rw [List.getLast?_append, (h line (by simp)).last]
      rfl
    rw [indented_cons, occurrences_append (hneedle.apart_of_getLast? (.inl hlast)),
      occurrences_append (hneedle.apart_of_blank hblank), hneedle.occurrences_blank hblank,
      ih fun line hline => h line (List.mem_cons_of_mem _ hline), List.map_cons, List.sum_cons,
      Nat.zero_add]

/-- A line next to a line break adds its own occurrences at most. -/
theorem occurrences_insert_line {p q : Text} (hneedle : IsOneStatement needle) (hn : IsBreak newline)
    (hline : line.getLast? = some ';') :
    occurrences needle (p ++ ((newline ++ line) ++ q))
      ≤ occurrences needle (p ++ q) + occurrences needle line := by
  have hblank : ∀ c ∈ newline, isBlank c = true := fun c => hn.isBlank
  have hlast : (newline ++ line).getLast? = some ';' := by
    rw [List.getLast?_append, hline]
    rfl
  have hself : occurrences needle (newline ++ line) = occurrences needle line := by
    rw [occurrences_append (hneedle.apart_of_blank hblank), hneedle.occurrences_blank hblank, Nat.zero_add]
  rw [← hself]
  refine occurrences_insert_le (hneedle.apart_of_startsWithBreak ?_)
    (hneedle.apart_of_getLast? (.inl hlast))
  rw [List.append_assoc]
  exact hn.startsWithBreak _

/-- A line in front of another one adds its own occurrences at most. -/
theorem occurrences_insert_before {p q : Text} (hneedle : IsOneStatement needle) (hn : IsBreak newline)
    (hp : p = [] ∨ p.getLast? = some '\n') :
    occurrences needle (p ++ ((line ++ newline) ++ q))
      ≤ occurrences needle (p ++ q) + occurrences needle line := by
  have hblank : ∀ c ∈ newline, isBlank c = true := fun c => hn.isBlank
  have hbreak : startsWithBreak newline := by
    have := hn.startsWithBreak []
    rwa [List.append_nil] at this
  have hlast : (line ++ newline).getLast? = some '\n' := by
    rw [List.getLast?_append, hn.getLast?]
    rfl
  have hself : occurrences needle (line ++ newline) = occurrences needle line := by
    rw [occurrences_append (hneedle.apart_of_startsWithBreak hbreak), hneedle.occurrences_blank hblank,
      Nat.add_zero]
  rw [← hself]
  refine occurrences_insert_le ?_ (hneedle.apart_of_getLast? (.inr hlast))
  -- in front of the line there is nothing, or a line break, which no needle goes across
  rcases hp with rfl | hp
  · exact hneedle.apart_of_blank (by simp)
  · exact hneedle.apart_of_getLast? (.inr hp)

/-- Indented lines add their own occurrences at most. -/
theorem occurrences_insert_indented {a b : Text} (hneedle : IsOneStatement needle) (hn : IsBreak newline)
    (hi : ∀ c ∈ indent, isBlank c = true) (hne : lines ≠ []) (h : ∀ line ∈ lines, IsBodyLine line) :
    occurrences needle (a ++ (indented newline indent lines ++ b))
      ≤ occurrences needle (a ++ b) + (lines.map (occurrences needle)).sum := by
  rw [← occurrences_indented hneedle hn hi h]
  refine occurrences_insert_le (hneedle.apart_of_startsWithBreak ?_)
    (hneedle.apart_of_getLast? (.inl (getLast?_indented hne h)))
  obtain ⟨line, lines, rfl⟩ := List.exists_cons_of_ne_nil hne
  rw [indented_cons, List.append_assoc, List.append_assoc, List.append_assoc]
  exact hn.startsWithBreak _

/-- A line in front of a text has nothing inside that neither of them has, and that cannot start in blanks or
go on behind a statement. -/
theorem not_infix_line_append {more : Text} (hc : needle.head? = some c) (hblank : isBlank c = false)
    (hsemi : ';' ∉ needle.dropLast) (hn : IsBreak newline) (hi : ∀ c ∈ indent, isBlank c = true)
    (hline : IsBodyLine line) (hnot : ¬ needle <:+: line) (hmore : ¬ needle <:+: more) :
    ¬ needle <:+: (newline ++ indent ++ line) ++ more := by
  have hfirst : c ∉ newline ++ indent := by
    intro hmem
    have : isBlank c = true := (List.mem_append.mp hmem).elim hn.isBlank (hi c)
    rw [hblank] at this
    cases this
  have hlast : (newline ++ indent ++ line).getLast? = some ';' := by
    rw [List.getLast?_append, hline.last]
    rfl
  rw [(apart_of_getLast hlast hsemi).infix_iff, infix_append_of_first hc hfirst, not_or]
  exact ⟨hnot, hmore⟩

/-- The same of indented lines. -/
theorem not_infix_indented_append {back : Text} (hc : needle.head? = some c) (hblank : isBlank c = false)
    (hsemi : ';' ∉ needle.dropLast) (hn : IsBreak newline) (hi : ∀ c ∈ indent, isBlank c = true)
    (h : ∀ line ∈ lines, IsBodyLine line ∧ ¬ needle <:+: line) (hback : ¬ needle <:+: back) :
    ¬ needle <:+: indented newline indent lines ++ back := by
  induction lines with
  | nil => exact hback
  | cons line lines ih =>
    obtain ⟨hline, hnot⟩ := h line (by simp)
    rw [indented_cons, List.append_assoc]
    exact not_infix_line_append hc hblank hsemi hn hi hline hnot
      (ih fun line hl => h line (List.mem_cons_of_mem _ hl))

/-! ## Lines one after another -/

/-- A text that is made of the given lines, each behind a line break and blanks of its own. -/
inductive AreLines : List Text → Text → Prop where
  /-- No lines. -/
  | nil : AreLines [] []
  /-- A line in front of others. -/
  | cons {newline indent line text : Text} {lines : List Text} : IsBreak newline →
      (∀ c ∈ indent, isBlank c = true) → '\n' ∉ indent → AreLines lines text →
      AreLines (line :: lines) ((newline ++ indent ++ line) ++ text)

theorem areLines_indented (hn : IsBreak newline) (hi : ∀ c ∈ indent, isBlank c = true)
    (hunbroken : '\n' ∉ indent) (lines : List Text) : AreLines lines (indented newline indent lines) := by
  induction lines with
  | nil => exact .nil
  | cons line lines ih =>
    rw [indented_cons]
    exact .cons hn hi hunbroken ih

theorem AreLines.append {x y : Text} {more : List Text} (hx : AreLines lines x) (hy : AreLines more y) :
    AreLines (lines ++ more) (x ++ y) := by
  induction hx with
  | nil => exact hy
  | cons hn hi hunbroken _ ih =>
    rw [List.append_assoc]
    exact .cons hn hi hunbroken ih

/-- The last one of some lines. -/
theorem AreLines.exists_last (h : AreLines (lines ++ [line]) text) :
    ∃ x newline indent, text = x ++ (newline ++ indent ++ line) := by
  generalize hlines : lines ++ [line] = all at h
  induction h generalizing lines with
  | nil => simp at hlines
  | @cons newline indent first text rest _ _ _ hrest ih =>
    cases lines with
    | nil =>
      obtain ⟨rfl, rfl⟩ := List.cons.inj hlines
      cases hrest
      exact ⟨[], newline, indent, by simp⟩
    | cons other lines =>
      obtain ⟨x, newline', indent', rfl⟩ := ih (List.cons.inj hlines).2
      exact ⟨newline ++ indent ++ first ++ x, newline', indent', (List.append_assoc ..).symm⟩

theorem AreLines.startsWithBreak (h : AreLines lines text) (hne : lines ≠ []) :
    Text.startsWithBreak text := by
  cases h with
  | nil => exact absurd rfl hne
  | cons hn =>
    rw [List.append_assoc, List.append_assoc]
    exact hn.startsWithBreak _

/-! ## Updates -/

/-- How often a text stands in the lines that an update adds, as `occurrences` counts. -/
def Update.lineOccurrences (style : RegistryStyle) (needle : Text) (update : Update) : Nat :=
  occurrences needle update.importLine + ((update.registration style).lines.map (occurrences needle)).sum

/-- What `patch` relies on in the lines of an update. -/
structure IsWiring (kind : IndexedKind) (update : Update) : Prop where
  /-- It is for the registry of the kind. -/
  kind_eq : update.kind = kind
  /-- The import line is read as an import. -/
  isImportLine : IsImportLine update.importLine
  /-- The import line closes the braces that it opens. -/
  balanced : Balanced update.importLine
  /-- The import line calls nothing. -/
  paren_not_mem : '(' ∉ update.importLine
  /-- The import line is one statement. -/
  import_isOneStatement : IsOneStatement update.importLine
  /-- The import line registers nothing. -/
  setter_not_infix_import : ¬ (layout kind).setter <:+: update.importLine
  /-- The registration line is one statement. -/
  registration_isOneStatement : IsOneStatement update.registrationLine
  /-- The registration line starts with the setter. -/
  setter_prefix : (layout kind).setter <+: update.registrationLine
  /-- The registration line has no other setter. -/
  setter_not_infix_tail : ¬ (layout kind).setter <:+: update.registrationLine.tail
  /-- The registration line is one call. -/
  callEnd?_eq : ∀ rest, callEnd? (update.registrationLine ++ rest) = some update.registrationLine.length
  /-- The line that starts the component registers nothing. -/
  setter_not_infix_initialization : ¬ (layout kind).setter <:+: update.initializationLine
  /-- There is a line that starts the component. -/
  initialization_ne_nil : update.initializationLine ≠ []
  /-- The lines of a registration may stand in a body. -/
  isBodyLine : ∀ style, ∀ line ∈ (update.registration style).lines, IsBodyLine line
  /-- The lines of a registration have no braces. -/
  isBrace_eq : ∀ style, ∀ line ∈ (update.registration style).lines, ∀ c ∈ line, isBrace c = false

theorem IsWiring.balanced_lines {kind : IndexedKind} {update : Update} (h : IsWiring kind update)
    (style : RegistryStyle) : ∀ line ∈ (update.registration style).lines, Balanced line :=
  fun line hline => Balanced.of_forall (h.isBrace_eq style line hline)

theorem IsWiring.endsLikeCall {kind : IndexedKind} {update : Update} (h : IsWiring kind update) :
    endsLikeCall update.registrationLine := by
  obtain ⟨call, back, hsplit, hlength, hends⟩ := callEnd?_eq_some (h.callEnd?_eq [])
  rw [List.append_nil] at hsplit
  obtain rfl : back = [] := by
    have := congrArg List.length hsplit
    rw [List.length_append, hlength] at this
    exact List.eq_nil_of_length_eq_zero (by omega)
  rw [List.append_nil] at hsplit
  rwa [hsplit]

theorem IsWiring.registration_not_infix_import {kind : IndexedKind} {update : Update}
    (h : IsWiring kind update) : ¬ update.registrationLine <:+: update.importLine :=
  fun hin => h.setter_not_infix_import (h.setter_prefix.isInfix.trans hin)

/-- A text that gains an import line does not gain the registration with it. -/
theorem IsWiring.registration_not_infix_imported {kind : IndexedKind} {update : Update} {before after : Text}
    (h : IsWiring kind update) (habsent : ¬ update.registrationLine <:+: before)
    (hle : occurrences update.registrationLine after
      ≤ occurrences update.registrationLine before + occurrences update.registrationLine update.importLine) :
    ¬ update.registrationLine <:+: after := by
  have hne := h.registration_isOneStatement.ne_nil
  rw [(occurrences_eq_zero_iff hne).mpr habsent,
    (occurrences_eq_zero_iff hne).mpr h.registration_not_infix_import] at hle
  exact (occurrences_eq_zero_iff hne).mp (by omega)

section Updates

variable {kind : IndexedKind} {key label : Text} {update other : Update}

/-- Generated lines are fit for patching. -/
theorem isWiring_of_makes (h : Makes kind key update) : IsWiring kind update := by
  obtain ⟨hk, type, ht, rfl⟩ := h.eq_updateOf
  have hm : ∀ c ∈ key ++ kind.toKind.conventions.fileSuffix, Name.isKeyCharacter c = true :=
    isKeyCharacter_of_mem_module _ hk
  have hc := isAscii_directory kind
  have hregistration := isOneStatement_registrationStatement hc hk ht
  -- field by field, from what is known of the characters of the generated lines
  refine ⟨rfl, isImportLine_importStatement ht hm,
    (balanced_updateOf _ (balanced_of_isKeyCharacter hk) (balanced_of_isAscii ht)).1,
    not_mem_importStatement ht hm (by rfl) (by rfl) (by rfl), isOneStatement_importStatement ht hm,
    setterOf_not_infix_importStatement ht hm, hregistration, ?_,
    setterOf_not_infix_tail hc hk ht, callEnd?_registrationStatement hc hk ht,
    setterOf_not_infix_initializationStatement kind hk, List.cons_ne_nil _ _, fun style line hline => ?_,
    fun style line hline c hcl => ?_⟩
  · exact ⟨_, (registrationStatement_eq _ _ _).symm⟩
  · rcases mem_lines_registration hline with rfl | rfl
    · exact ⟨rfl, hregistration.getLast?, fun hn => (hregistration.unbroken _ hn).1 rfl⟩
    · exact ⟨rfl, getLast?_initializationStatement _ _, not_mem_of_forall_bne
        (forall_mem_initializationStatement (bne_of_isAlphanum (by rfl)) (by rfl) hc hk (by rfl))⟩
  · rcases mem_lines_registration hline with rfl | rfl
    · simpa using forall_mem_registrationStatement isBrace_of_isAlphanum (by rfl) hc hk ht (by rfl) c hcl
    · simpa using forall_mem_initializationStatement isBrace_of_isAlphanum (by rfl) hc hk (by rfl) c hcl

/-- Different kinds of generated lines do not have each other in them. -/
theorem not_infix_of_makes (h : Makes kind key update) (ho : Makes kind label other) :
    ¬ update.registrationLine <:+: other.importLine ∧
      ¬ update.registrationLine <:+: other.initializationLine ∧
      ¬ update.importLine <:+: other.registrationLine ∧
      ¬ update.importLine <:+: other.initializationLine := by
  obtain ⟨hk, type, ht, rfl⟩ := h.eq_updateOf
  obtain ⟨hl, type', ht', rfl⟩ := ho.eq_updateOf
  have hc := isAscii_directory kind
  -- a registration has a comma, which the others lack, and an import has a brace
  have hcomma : ',' ∈ (updateOf kind key type).registrationLine := by
    simp [updateOf, registrationStatement, concat]
  have hbrace : '\x7b' ∈ (updateOf kind key type).importLine := by
    simp [updateOf, importStatement, concat]
  refine ⟨fun hin => ?_, fun hin => ?_, fun hin => ?_, fun hin => ?_⟩
  · exact not_mem_importStatement ht' (isKeyCharacter_of_mem_module _ hl) (by rfl) (by rfl) (by rfl)
      (hin.subset hcomma)
  · exact not_mem_of_forall_bne (forall_mem_initializationStatement (bne_of_isAlphanum (by rfl))
      (by rfl) hc hl (by rfl)) (hin.subset hcomma)
  · exact not_mem_of_forall_bne (forall_mem_registrationStatement (bne_of_isAlphanum (by rfl))
      (by rfl) hc hl ht' (by rfl)) (hin.subset hbrace)
  · exact not_mem_of_forall_bne (forall_mem_initializationStatement (bne_of_isAlphanum (by rfl))
      (by rfl) hc hl (by rfl)) (hin.subset hbrace)

/-- The lines for different keys do not have each other in them. -/
theorem not_infix_of_makes_of_ne (h : Makes kind key update) (ho : Makes kind label other)
    (hne : key ≠ label) : ¬ update.importLine <:+: other.importLine ∧
      ¬ update.registrationLine <:+: other.registrationLine := by
  obtain ⟨hk, type, ht, rfl⟩ := h.eq_updateOf
  obtain ⟨hl, type', ht', rfl⟩ := ho.eq_updateOf
  refine ⟨fun hin => hne ?_, fun hin => hne ?_⟩
  · exact List.append_cancel_right
      (eq_of_infix_importStatement ht' (isKeyCharacter_of_mem_module _ hl) hin)
  · exact eq_of_infix_registrationStatement (isAscii_directory kind) hl ht' hin

theorem lineOccurrences_eq {needle : Text} (hne : needle ≠ [])
    (hinit : ¬ needle <:+: update.initializationLine) (style : RegistryStyle) :
    update.lineOccurrences style needle
      = occurrences needle update.importLine + occurrences needle update.registrationLine := by
  have hzero := (occurrences_eq_zero_iff hne).mpr hinit
  simp only [Update.lineOccurrences, Update.registration, Registration.lines, List.map_cons, List.sum_cons]
  split <;> simp [hzero]

/-- An update has its import line and its registration line once. -/
theorem lineOccurrences_self (h : Makes kind key update) (style : RegistryStyle) {line : Text}
    (hline : line ∈ [update.importLine, update.registrationLine]) :
    update.lineOccurrences style line = 1 := by
  obtain ⟨hri, hrn, hir, hin⟩ := not_infix_of_makes h h
  have hw := isWiring_of_makes h
  have himport := hw.import_isOneStatement.ne_nil
  have hregistration := hw.registration_isOneStatement.ne_nil
  rcases (by simpa using hline : line = _ ∨ line = _) with rfl | rfl
  · rw [lineOccurrences_eq himport hin, occurrences_self himport, (occurrences_eq_zero_iff himport).mpr hir]
  · rw [lineOccurrences_eq hregistration hrn, occurrences_self hregistration,
      (occurrences_eq_zero_iff hregistration).mpr hri]

/-- An update for another key has neither. -/
theorem lineOccurrences_of_ne (h : Makes kind key update) (ho : Makes kind label other) (hne : key ≠ label)
    (style : RegistryStyle) {line : Text} (hline : line ∈ [update.importLine, update.registrationLine]) :
    other.lineOccurrences style line = 0 := by
  obtain ⟨hri, hrn, hir, hin⟩ := not_infix_of_makes h ho
  obtain ⟨hii, hrr⟩ := not_infix_of_makes_of_ne h ho hne
  have hw := isWiring_of_makes h
  have himport := hw.import_isOneStatement.ne_nil
  have hregistration := hw.registration_isOneStatement.ne_nil
  rcases (by simpa using hline : line = _ ∨ line = _) with rfl | rfl
  · rw [lineOccurrences_eq himport hin, (occurrences_eq_zero_iff himport).mpr hii,
      (occurrences_eq_zero_iff himport).mpr hir]
  · rw [lineOccurrences_eq hregistration hrn, (occurrences_eq_zero_iff hregistration).mpr hri,
      (occurrences_eq_zero_iff hregistration).mpr hrr]

end Updates

/-- A registry with a registration. -/
def listedRegistry : Text :=
  "class R \x7b\n  initializeTools() \x7b\n    this.tools.set('a', new ATool());\n  \x7d\n\x7d\n"

end ComponentKit.Registry
