import ComponentKit.Proofs.Registry.Lines
import ComponentKit.Proofs.Source.SignatureShift

/-!
# Patching a wired registry

A registry `IsWired` when its last import and the last registration in its method are such that the next patch goes
on behind both. A patch of a wired registry adds its lines there, and leaves a wired registry.
-/

namespace ComponentKit.Registry

open Text Source Component

variable {kind : IndexedKind} {style : RegistryStyle} {update : Update} {newline : Text}

/-! ## Sites -/

/-- The parts of a registry next to which `patch` works. -/
structure Site where
  /-- The text up to the end of the last import. -/
  imports : Text
  /-- The text behind it. -/
  behind : Text
  /-- The text up to the opening brace of the method. -/
  opening : Text
  /-- The body in front of what patches have added. -/
  head : Text
  /-- What patches have added in front of the last registration. -/
  between : Text
  /-- The last registration. -/
  call : Text
  /-- The body behind it. -/
  back : Text
  /-- The text behind the closing brace. -/
  rest : Text
  /-- The offset of the signature. -/
  start : Nat

namespace Site

/-- The body of the method. -/
def body (site : Site) : Text :=
  site.head ++ (site.between ++ site.call) ++ site.back

/-- The whole text. -/
def text (site : Site) : Text :=
  site.opening ++ (site.body ++ '\x7d' :: site.rest)

/-- Whether a registry is ready for the next `patch`. -/
structure IsWired (site : Site) (kind : IndexedKind) (style : RegistryStyle) : Prop where
  /-- The imports are those of the text. -/
  text_eq : site.imports ++ site.behind = site.text
  /-- The method is that of the text. -/
  isMethod : IsMethod (layout kind).methodName site.opening site.body site.rest site.start
  /-- The last import is the last one. -/
  endsImports : EndsImports site.imports site.behind
  /-- The last import is in front of the signature, and in front of it there is no other one; or it is the
  last thing in the body that no patch has added. -/
  place : site.imports.length ≤ site.start ∧ HasNoSignature (layout kind).methodName site.imports ∨
    site.imports = site.opening ++ site.head
  /-- The last registration is one. -/
  setter_prefix : (layout kind).setter <+: site.call
  /-- There is no other one behind it. -/
  setter_last : ¬ (layout kind).setter <:+: (site.call ++ site.back).tail
  /-- It is a whole call. -/
  callEnd?_eq : callEnd? (site.call ++ site.back) = some site.call.length
  /-- It ends like one. -/
  endsLikeCall : endsLikeCall site.call
  /-- In a legacy registry its line ends with it. -/
  break_back : style = .legacy → startsWithBreak site.back

end Site

/-! ## The import step -/

/-- What `insertImport` leaves of a registry. -/
structure Site.Imports (site next : Site) (inserted : Text) : Prop where
  /-- The line is behind the last import. -/
  imports_eq : next.imports = site.imports ++ inserted
  /-- What follows stays there. -/
  behind_eq : next.behind = site.behind
  /-- If the line is in the body, it is behind what no patch has added. -/
  head_prefix : site.head <+: next.head
  /-- What patches have added stays. -/
  between_eq : next.between = site.between
  /-- The last registration stays. -/
  call_eq : next.call = site.call
  /-- The body behind it stays. -/
  back_eq : next.back = site.back

namespace Site.IsWired

variable {site : Site}

/-- The last import ends in front of the last registration. -/
theorem exists_between (h : site.IsWired kind style) :
    ∃ w, site.imports ++ w = site.opening ++ (site.head ++ site.between) ∧
      site.behind = w ++ (site.call ++ (site.back ++ '\x7d' :: site.rest)) := by
  have htext : site.imports ++ site.behind = (site.opening ++ (site.head ++ site.between))
      ++ (site.call ++ (site.back ++ '\x7d' :: site.rest)) := by
    rw [h.text_eq]
    simp only [text, body, List.append_assoc]
  -- the import ends in front of the signature, or with the head of the body
  have hle : site.imports.length ≤ (site.opening ++ (site.head ++ site.between)).length := by
    rcases h.place with ⟨hstart, -⟩ | hinside
    · have := h.isMethod.start_lt
      rw [List.length_append]
      omega
    · rw [hinside]
      simp only [List.length_append]
      omega
  obtain ⟨w, hw, hbehind⟩ := Source.exists_between htext hle
  exact ⟨w, hw.symm, hbehind⟩

/-- An import line in front of the method moves it. -/
theorem insert_import_in_front (h : site.IsWired kind style) (hu : IsWiring kind update) (hn : IsBreak newline)
    (hstart : site.imports.length ≤ site.start)
    (hsignature : HasNoSignature (layout kind).methodName site.imports)
    (hends : EndsImports (site.imports ++ (newline ++ update.importLine)) site.behind) :
    ∃ next : Site, next.IsWired kind style ∧ site.Imports next (newline ++ update.importLine) := by
  obtain ⟨gap, hgap, hbehind⟩ := h.isMethod.exists_between h.text_eq hstart
  obtain ⟨init, hinit, -⟩ := hu.import_isOneStatement.last
  have hparen : '(' ∉ newline ++ init := by
    have himport := hu.paren_not_mem
    rw [hinit, List.mem_append, not_or] at himport
    rw [List.mem_append, not_or]
    exact ⟨fun hp => absurd (hn.isBlank hp) (by decide), himport.1⟩
  -- as a statement without parentheses it starts no signature
  have hinserted : newline ++ update.importLine = (newline ++ init) ++ ';' :: [] := by
    rw [hinit, List.append_assoc]
  have hmethod := h.isMethod
  rw [hgap] at hmethod
  -- the method moves back by the line that is put in front of it
  let next : Site := { site with
    imports := site.imports ++ (newline ++ update.importLine)
    opening := site.imports ++ (newline ++ update.importLine) ++ gap
    start := site.start + (newline ++ update.importLine).length }
  refine ⟨next, ⟨?_, ?_, hends, .inl ⟨?_, ?_⟩, h.setter_prefix, h.setter_last, h.callEnd?_eq,
    h.endsLikeCall, h.break_back⟩, ⟨rfl, rfl, List.prefix_refl _, rfl, rfl, rfl⟩⟩
  · show site.imports ++ (newline ++ update.importLine) ++ site.behind
      = site.imports ++ (newline ++ update.importLine) ++ gap ++ (site.body ++ '\x7d' :: site.rest)
    rw [hbehind, List.append_assoc _ gap]
  · exact hmethod.insert_in_front (isWord_of_mem_methodName kind) (methodName_ne_nil kind) hsignature
      hstart h.endsImports.isWordNext_getLast? hparen (.inl rfl) hinserted
  · show (site.imports ++ (newline ++ update.importLine)).length ≤ _
    rw [List.length_append]
    exact Nat.add_le_add_right hstart _
  · show HasNoSignature _ (site.imports ++ (newline ++ update.importLine))
    rw [hinserted]
    exact hsignature.append (isWord_of_mem_methodName kind) (methodName_ne_nil kind) hparen

/-- An import line in the body leaves the method where it is. -/
theorem insert_import_inside (h : site.IsWired kind style) (hu : IsWiring kind update) (hn : IsBreak newline)
    (hinside : site.imports = site.opening ++ site.head)
    (hends : EndsImports (site.imports ++ (newline ++ update.importLine)) site.behind) :
    ∃ next : Site, next.IsWired kind style ∧ site.Imports next (newline ++ update.importLine) := by
  have hbalanced : Balanced (newline ++ update.importLine) :=
    (Balanced.of_forall fun c hc => isBrace_of_isBlank (hn.isBlank hc)).append hu.balanced
  have hbehind : site.behind = (site.between ++ site.call) ++ site.back ++ '\x7d' :: site.rest := by
    have := h.text_eq
    rw [text, body, hinside] at this
    simp only [List.append_assoc] at this ⊢
    exact List.append_cancel_left (List.append_cancel_left this)
  have hmethod : IsMethod (layout kind).methodName site.opening
      (site.head ++ [] ++ (site.between ++ site.call ++ site.back)) site.rest site.start := by
    have := h.isMethod
    rw [body, List.append_assoc] at this
    rwa [List.append_nil]
  -- the last import ends in the body, so the line goes there
  let next : Site := { site with
    imports := site.imports ++ (newline ++ update.importLine)
    head := site.head ++ (newline ++ update.importLine) }
  refine ⟨next, ⟨?_, ?_, hends, .inr ?_, h.setter_prefix, h.setter_last, h.callEnd?_eq,
    h.endsLikeCall, h.break_back⟩, ⟨rfl, rfl, List.prefix_append _ _, rfl, rfl, rfl⟩⟩
  · show site.imports ++ (newline ++ update.importLine) ++ site.behind = next.text
    simp only [text, body, next, hinside, hbehind, List.append_assoc]
  · have := hmethod.exchange (v := newline ++ update.importLine) hbalanced.closed.symm hbalanced.nonneg
    simpa only [body, next, List.append_assoc] using this
  · simp only [next, hinside, List.append_assoc]

/-- An import line behind the last import leaves a registry wired. -/
theorem insert_import (h : site.IsWired kind style) (hu : IsWiring kind update) (hn : IsBreak newline) :
    ∃ next : Site, next.IsWired kind style ∧ site.Imports next (newline ++ update.importLine) := by
  have hends : EndsImports (site.imports ++ (newline ++ update.importLine)) site.behind := by
    rw [← List.append_assoc]
    exact h.endsImports.insert hu.isImportLine hn
  rcases h.place with ⟨hstart, hsignature⟩ | hinside
  · exact h.insert_import_in_front hu hn hstart hsignature hends
  · exact h.insert_import_inside hu hn hinside hends

end Site.IsWired

/-! ## The registration step -/

theorem setter_facts (kind : IndexedKind) : (layout kind).setter.head? = some 't' ∧
    ';' ∉ (layout kind).setter.dropLast ∧ 1 < (layout kind).setter.length := by
  cases kind <;> decide

/-- Behind a registration line there is no setter but those of what follows. -/
theorem setter_not_infix_tail_append (hu : IsWiring kind update) {more : Text}
    (hmore : ¬ (layout kind).setter <:+: more) :
    ¬ (layout kind).setter <:+: (update.registrationLine ++ more).tail := by
  obtain ⟨-, hsemi, hlength⟩ := setter_facts kind
  have hlong := hu.setter_prefix.length_le
  have hne : update.registrationLine.tail ≠ [] := by
    intro hnil
    have := congrArg List.length hnil
    rw [List.length_tail, List.length_nil] at this
    omega
  -- a setter does not go across the semicolon, which ends the line
  have hlast : update.registrationLine.tail.getLast? = some ';' := by
    rw [getLast?_of_suffix (List.tail_suffix _) hne]
    exact hu.registration_isOneStatement.getLast?
  rw [List.tail_append_of_ne_nil hu.registration_isOneStatement.ne_nil,
    (apart_of_getLast hlast hsemi).infix_iff, not_or]
  exact ⟨hu.setter_not_infix_tail, hmore⟩

/-- Behind a new registration there is no other one. -/
theorem setter_last_registration (hu : IsWiring kind update) (hn : IsBreak newline) {indent back : Text}
    (hi : ∀ c ∈ indent, isBlank c = true) (style : RegistryStyle) (hback : ¬ (layout kind).setter <:+: back) :
    ¬ (layout kind).setter <:+: (update.registrationLine
      ++ (indented newline indent (update.registration style).followers ++ back)).tail := by
  obtain ⟨hhead, hsemi, -⟩ := setter_facts kind
  refine setter_not_infix_tail_append hu (not_infix_indented_append hhead (by decide) hsemi hn hi ?_ hback)
  intro line hline
  have hmem : line ∈ (update.registration style).lines := List.mem_cons_of_mem _ hline
  refine ⟨hu.isBodyLine style line hmem, ?_⟩
  -- the only line behind the call is the one that starts the component
  have hinit : line = update.initializationLine := by
    simp only [Update.registration] at hline
    split at hline
    · simpa using hline
    · simp at hline
  rw [hinit]
  exact hu.setter_not_infix_initialization

/-- The site after a registration was put in between two parts of a body. -/
def registeredSite (style : RegistryStyle) (update : Update) (newline indent imports behind opening head
    between back rest : Text) (start : Nat) : Site where
  imports := imports
  behind := behind
  opening := opening
  head := head
  between := between ++ (newline ++ indent)
  call := update.registrationLine
  back := indented newline indent (update.registration style).followers ++ back
  rest := rest
  start := start

section Registered

variable {indent imports behind opening head between front back rest : Text} {start : Nat}

theorem text_registeredSite (style : RegistryStyle) (update : Update)
    (newline indent imports behind opening head between back rest : Text) (start : Nat) :
    (registeredSite style update newline indent imports behind opening head between back rest start).text
      = opening ++ (head ++ between ++ (indented newline indent (update.registration style).lines ++ back)
        ++ '\x7d' :: rest) := by
  simp only [Site.text, Site.body, registeredSite, Registration.lines, indented_cons, Update.registration,
    List.append_assoc]

/-- A registration leaves a wired registry, whose last registration it is. -/
theorem isWired_registeredSite (hu : IsWiring kind update) (hn : IsBreak newline)
    (hi : ∀ c ∈ indent, isBlank c = true)
    (hm : IsMethod (layout kind).methodName opening (head ++ between ++ back) rest start)
    (hback : ¬ (layout kind).setter <:+: back)
    (htext : imports ++ behind = opening
      ++ (head ++ between ++ (indented newline indent (update.registration style).lines ++ back)
        ++ '\x7d' :: rest)) (hends : EndsImports imports behind)
    (hplace : imports.length ≤ start ∧ HasNoSignature (layout kind).methodName imports ∨
      imports = opening ++ head) :
    (registeredSite style update newline indent imports behind opening head between back rest
      start).IsWired kind style where
  text_eq := by
    rw [text_registeredSite]
    exact htext
  isMethod := by
    have hbalanced : Balanced (indented newline indent (update.registration style).lines) :=
      balanced_indented (fun c => hn.isBlank) hi (hu.balanced_lines style)
    have hmethod : IsMethod (layout kind).methodName opening (head ++ between ++ [] ++ back) rest start := by
      rwa [List.append_nil]
    have := hmethod.exchange (v := indented newline indent (update.registration style).lines)
      hbalanced.closed.symm hbalanced.nonneg
    simpa only [Site.body, registeredSite, Registration.lines, indented_cons, Update.registration,
      List.append_assoc] using this
  endsImports := hends
  place := hplace
  setter_prefix := hu.setter_prefix
  setter_last := setter_last_registration hu hn hi style hback
  callEnd?_eq := hu.callEnd?_eq _
  endsLikeCall := hu.endsLikeCall
  break_back := by
    rintro rfl
    have hfollowers : (update.registration .legacy).followers = [update.initializationLine] := by
      simp [Update.registration, hu.initialization_ne_nil]
    show startsWithBreak (indented newline indent (update.registration .legacy).followers ++ back)
    rw [hfollowers, indented_cons, List.append_assoc, List.append_assoc, List.append_assoc]
    exact hn.startsWithBreak _

end Registered

/-- What follows a call is not part of the spaces and tabs in front of it. -/
theorem indentation_append_call {x : Text} (hcall : endsLikeCall x) (y z : Text) :
    indentation (x ++ y) = indentation (x ++ z) := by
  have hne : x.dropWhile isIndent ≠ [] := by
    intro hnil
    have hindents := List.dropWhile_eq_nil_iff.mp hnil
    rcases hcall.getLast? with hlast | hlast <;>
      exact absurd (hindents _ (List.mem_of_getLast? hlast)) (by decide)
  rw [indentation, indentation, takeWhile_append_of_ne_nil _ hne, takeWhile_append_of_ne_nil _ hne]

/-- What `insertRegistration` leaves of a registry. -/
structure Site.Registers (site next : Site) (kind : IndexedKind) (style : RegistryStyle) (update : Update) :
    Prop where
  /-- The step adds the registration. -/
  added : insertRegistration site.text (update.registration style) (layout kind) (.ofStyle style)
    = .added next.text
  /-- The last import stays where it is. -/
  imports_eq : next.imports = site.imports
  /-- What follows the imports on their line stays there. -/
  indentation_eq : indentation next.behind = indentation site.behind
  /-- The body is not changed in front of what patches have added. -/
  head_eq : next.head = site.head
  /-- The body is not changed behind the last registration. -/
  back_suffix : site.back <:+ next.back
  /-- The registration line is behind the last registration. -/
  registrations_eq : ∃ x,
    next.between ++ next.call = site.between ++ site.call ++ x ++ update.registrationLine
  /-- Nothing else is added. -/
  text_split : ∃ a b newline indent, site.text = a ++ b ∧
    next.text = a ++ (indented newline indent (update.registration style).lines ++ b) ∧
    IsBreak newline ∧ ∀ c ∈ indent, isBlank c = true

namespace Site.IsWired

variable {site : Site}

/-- The next registration goes right behind the last one. -/
theorem isCut (h : site.IsWired kind style) :
    IsCut (layout kind) (.ofStyle style) (site.head ++ (site.between ++ site.call)) site.back := by
  have hcall : (layout kind).setter <+: site.call ++ site.back :=
    h.setter_prefix.trans (List.prefix_append _ _)
  -- a legacy registration ends its line, so its end is the end of the line
  have hplace : placeBehind (.ofStyle style) ([] ++ site.back) = 0 := by
    cases style with
    | autoDiscovery => rfl
    | legacy =>
      obtain ⟨rest, hrest | hrest⟩ := h.break_back rfl <;>
      · rw [hrest]
        simp [placeBehind, Anchor.ofStyle, endOfLine, slice]
  have hlast := lastIndexOf?_append (x := site.head ++ site.between) hcall h.setter_last
  have hbody : site.head ++ (site.between ++ site.call) = (site.head ++ site.between) ++ (site.call ++ []) := by
    simp only [List.append_assoc, List.append_nil]
  refine .afterCall hbody ?_ h.callEnd?_eq h.endsLikeCall hplace (by simp) (.inl rfl)
  rw [← hlast]
  simp only [List.append_assoc]

/-- A registration step of a wired registry adds the registration behind the last one. -/
theorem insert_registration (h : site.IsWired kind style) (hu : IsWiring kind update)
    (habsent : ¬ update.registrationLine <:+: site.text) :
    ∃ next : Site, next.IsWired kind style ∧ site.Registers next kind style update := by
  have htext : site.text
      = site.opening ++ (site.head ++ (site.between ++ site.call) ++ site.back ++ '\x7d' :: site.rest) := rfl
  have hbody : ¬ (update.registration style).call <:+: site.head ++ (site.between ++ site.call) ++ site.back := by
    intro hin
    refine habsent (hin.trans ?_)
    rw [htext]
    exact ⟨site.opening, '\x7d' :: site.rest, by simp only [List.append_assoc]⟩
  obtain ⟨indent, ending, hindent, -, hending, -, hadded⟩ :=
    insertRegistration_of_isCut h.isMethod hbody h.isCut htext
  -- the blanks behind are dropped only where there is no call yet
  obtain rfl : ending = site.back := by
    rcases hending with h' | ⟨-, hsetter, -⟩
    · exact h'
    · exact absurd (h.setter_prefix.isInfix.trans
        ⟨site.head ++ site.between, site.back, by simp only [List.append_assoc]⟩) hsetter
  obtain ⟨w, hw, hbehind⟩ := h.exists_between
  rw [← List.append_assoc] at hbehind
  have hn : IsBreak (lineBreak site.text) := isBreak_lineBreak site.text
  -- the lines import nothing, so the last import stays where it is
  have hquiet : IsQuiet (indented (lineBreak site.text) indent (update.registration style).lines) :=
    isQuiet_indented hn hindent (List.cons_ne_nil _ _) (hu.isBodyLine style)
  have hends := h.endsImports
  rw [hbehind] at hends
  have hcall := h.endsLikeCall.append_left w
  let next := registeredSite style update (lineBreak site.text) indent site.imports
    ((w ++ site.call) ++ (indented (lineBreak site.text) indent (update.registration style).lines
      ++ (site.back ++ '\x7d' :: site.rest))) site.opening site.head (site.between ++ site.call) site.back
    site.rest site.start
  have hnext : next.text = site.opening ++ (site.head ++ (site.between ++ site.call)
      ++ (indented (lineBreak site.text) indent (update.registration style).lines ++ site.back)
      ++ '\x7d' :: site.rest) := text_registeredSite ..
  refine ⟨next, ?_, ⟨?_, rfl, ?_, rfl, List.suffix_append _ _, ⟨lineBreak site.text ++ indent, rfl⟩,
    site.opening ++ (site.head ++ (site.between ++ site.call)), site.back ++ '\x7d' :: site.rest,
    lineBreak site.text, indent, ?_, ?_, hn, hindent⟩⟩
  · refine isWired_registeredSite hu hn hindent h.isMethod h.isCut.setter_not_infix_back ?_
      (hends.insert_behind_call hquiet hcall) h.place
    rw [← List.append_assoc, ← List.append_assoc site.imports, hw]
    simp only [List.append_assoc]
  · rw [hnext]
    exact hadded
  · rw [hbehind]
    exact indentation_append_call hcall _ _
  · rw [htext]
    simp only [List.append_assoc]
  · rw [hnext]
    simp only [List.append_assoc]

end Site.IsWired

/-! ## Whole patches -/

/-- What `patch` adds to a registry that `IsWired`. -/
structure Site.Grows (site next : Site) (style : RegistryStyle) (update : Update) : Prop where
  /-- The import line is behind the last import. -/
  imports : ∃ newline, IsBreak newline ∧ next.imports = site.imports ++ (newline ++ update.importLine)
  /-- What follows the imports on their line stays there. -/
  indentation_eq : indentation next.behind = indentation site.behind
  /-- The body is not changed in front of what is added. -/
  head : site.head <+: next.head
  /-- The body is not changed behind what is added. -/
  back : site.back <:+ next.back
  /-- The registration line is behind the last registration. -/
  registrations : ∃ x,
    next.between ++ next.call = site.between ++ site.call ++ x ++ update.registrationLine
  /-- No statement occurs more often than in the text and the lines of the update together. -/
  occurrences_le : ∀ needle, IsOneStatement needle →
    occurrences needle next.text ≤ occurrences needle site.text + update.lineOccurrences style needle

theorem insertImport_of_endsImports {p q line : Text} (h : EndsImports p q) (habsent : ¬ line <:+: p ++ q) :
    insertImport (p ++ q) line = .added (p ++ (lineBreak (p ++ q) ++ line) ++ q) := by
  rw [EndsImports] at h
  rw [insertImport, occursIn_eq_false_iff.mpr habsent, h]
  simp only [Bool.false_eq_true, if_false, ImportPlace.insert, insertAt_append]

/-- A patch whose steps both add something. -/
theorem patch_eq_of_added {text middle result : Text} (hkind : update.kind = kind)
    (himport : insertImport text update.importLine = .added middle)
    (hregistration : insertRegistration middle (update.registration style) (layout kind) (.ofStyle style)
      = .added result) : patch style text update = ⟨result, true, true, []⟩ := by
  subst hkind
  simp [patch, himport, hregistration, Edit.text, Edit.isAdded, Edit.warnings]

/-- A patch of a wired registry adds both lines and leaves a wired registry. -/
theorem Site.IsWired.patch {site : Site} (h : site.IsWired kind style) (hu : IsWiring kind update)
    (himport : ¬ update.importLine <:+: site.text) (hregistration : ¬ update.registrationLine <:+: site.text) :
    ∃ next : Site, next.IsWired kind style ∧ site.Grows next style update ∧
      Registry.patch style site.text update = ⟨next.text, true, true, []⟩ := by
  have hn : IsBreak (lineBreak site.text) := isBreak_lineBreak site.text
  -- the import step leads to a wired registry too, to which the registration step applies
  obtain ⟨middle, hmiddle, himports⟩ := h.insert_import hu hn
  have hedit : insertImport site.text update.importLine = .added middle.text := by
    rw [← hmiddle.text_eq, himports.imports_eq, himports.behind_eq]
    have htext := h.text_eq
    rw [← htext] at himport ⊢
    exact insertImport_of_endsImports h.endsImports himport
  have himported : ∀ needle, IsOneStatement needle →
      occurrences needle middle.text ≤ occurrences needle site.text + occurrences needle update.importLine := by
    intro needle hneedle
    rw [← hmiddle.text_eq, himports.imports_eq, himports.behind_eq, ← h.text_eq, List.append_assoc]
    exact occurrences_insert_line hneedle (h.text_eq ▸ hn) hu.import_isOneStatement.getLast?
  have habsent : ¬ update.registrationLine <:+: middle.text :=
    hu.registration_not_infix_imported hregistration (himported _ hu.registration_isOneStatement)
  obtain ⟨next, hnext, hregisters⟩ := hmiddle.insert_registration hu habsent
  refine ⟨next, hnext, ?_, patch_eq_of_added hu.kind_eq hedit hregisters.added⟩
  refine ⟨⟨_, hn, hregisters.imports_eq.trans himports.imports_eq⟩, ?_, ?_, ?_, ?_, fun needle hneedle => ?_⟩
  · rw [hregisters.indentation_eq, himports.behind_eq]
  · rw [hregisters.head_eq]
    exact himports.head_prefix
  · rw [← himports.back_eq]
    exact hregisters.back_suffix
  · obtain ⟨x, hx⟩ := hregisters.registrations_eq
    exact ⟨x, by rw [hx, himports.between_eq, himports.call_eq]⟩
  obtain ⟨a, b, newline, indent, hab, hnextText, hnewline, hindented⟩ := hregisters.text_split
  have hle := himported needle hneedle
  have hne : (update.registration style).lines ≠ [] := List.cons_ne_nil _ _
  have hlines := occurrences_insert_indented (a := a) (b := b) hneedle hnewline hindented hne
    (hu.isBodyLine style)
  rw [hnextText, Update.lineOccurrences]
  rw [hab] at hle
  omega

end ComponentKit.Registry
