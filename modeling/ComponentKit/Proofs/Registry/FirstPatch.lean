import ComponentKit.Proofs.Registry.Wiring

/-!
# The first patch of a registry

A registry whose closing brace has a line of its own and whose place for imports is in front of the registering
method (`IsPatchable`) is wired by its first patch.
-/

namespace ComponentKit.Source

/-- Where the line of a place starts or the statement in front of it ends. -/
def ImportPlace.offset : ImportPlace → Nat
  | afterStatement offset => offset
  | beforeDeclaration offset => offset

/-- The spaces and tabs that a text has behind a place on its line. -/
def ImportPlace.gap (text : Text) : ImportPlace → Text
  | afterStatement offset => Text.indentation (text.drop offset)
  | beforeDeclaration _ => []

/-- What `insertImport` puts at a place. -/
def ImportPlace.inserted (text line : Text) : ImportPlace → Text
  | afterStatement _ => Text.lineBreak text ++ line
  | beforeDeclaration _ => line ++ Text.lineBreak text

end ComponentKit.Source

namespace ComponentKit.Registry

open Text Source Component

variable {kind : IndexedKind} {style : RegistryStyle} {update : Update} {newline text : Text}
  {region : Region} {place : ImportPlace}

/-- Whether a registry can be patched again and again: the closing brace of its method is the first thing
on its line, and its place for imports is in front of the method, whose name is not used in front of it. -/
structure IsPatchable (kind : IndexedKind) (text : Text) (region : Region) (place : ImportPlace) : Prop where
  /-- The method is there. -/
  located : locate? text (layout kind).methodName = some region
  /-- In front of its closing brace there are only spaces and tabs. -/
  closing : ∀ c ∈ lineSoFar (text.take region.bodyEnd), isIndent c = true
  /-- There is a place for imports. -/
  place_eq : importPlace? text = some place
  /-- It is in front of the method. -/
  offset_le : place.offset ≤ region.signatureStart
  /-- The name of the method is not used in front of it. -/
  unnamed : occursIn (layout kind).methodName (text.take place.offset) = false

/-- A text behind whose last import a method follows. -/
structure IsImported (kind : IndexedKind) (imports behind opening body rest : Text) (start : Nat) :
    Prop where
  /-- The parts are those of one text. -/
  text_eq : imports ++ behind = opening ++ (body ++ '\x7d' :: rest)
  /-- The method is one. -/
  isMethod : IsMethod (layout kind).methodName opening body rest start
  /-- The last import is the last one. -/
  endsImports : EndsImports imports behind
  /-- It is in front of the method. -/
  length_le : imports.length ≤ start
  /-- In front of it there is no such method. -/
  hasNoSignature : HasNoSignature (layout kind).methodName imports

/-! ## The closing brace -/

/-- In front of a closing brace on a line of its own there is a line break in the body. -/
theorem newline_split_of_closing {opening body : Text} (hopen : opening.getLast? = some '\x7b')
    (hclosing : ∀ c ∈ lineSoFar (opening ++ body), isIndent c = true) :
    ∃ b spaces, body = b ++ '\n' :: spaces ∧ ∀ c ∈ spaces, isIndent c = true := by
  have hsplit := List.takeWhile_append_dropWhile (p := (· != '\n')) (l := body.reverse)
  rcases dropWhile_cases (· != '\n') body.reverse with hnil | ⟨c, b, hb, hc⟩
  · -- without a line break the opening brace would be on the line
    exfalso
    obtain ⟨front, rfl⟩ := List.getLast?_eq_some_iff.mp hopen
    have hall : ∀ c ∈ body.reverse, (c != '\n') = true := List.dropWhile_eq_nil_iff.mp hnil
    have hmem : '\x7b' ∈ lineSoFar (front ++ ['\x7b'] ++ body) := by
      rw [lineSoFar, List.reverse_append, List.takeWhile_append_of_pos hall]
      simp
    exact absurd (hclosing _ hmem) (by decide)
  · obtain rfl : c = '\n' := by simpa using hc
    refine ⟨b.reverse, (body.reverse.takeWhile (· != '\n')).reverse, ?_, fun d hd => hclosing d ?_⟩
    · rw [hb] at hsplit
      have := congrArg List.reverse hsplit
      rw [List.reverse_reverse] at this
      exact this.symm.trans (by simp)
    · have hne : body.reverse.dropWhile (· != '\n') ≠ [] := by rw [hb]; simp
      rwa [lineSoFar, List.reverse_append, takeWhile_append_of_ne_nil _ hne]

/-! ## The import step -/

/-- What `insertImport` leaves in a first patch. -/
structure ImportsFirst (kind : IndexedKind) (update : Update) (text body imports behind gap : Text) :
    Prop where
  /-- The step adds the import line. -/
  added : insertImport text update.importLine = .added (imports ++ behind)
  /-- The import line is the last import, on a line that it starts. -/
  imports_eq : ∃ before, imports = before ++ update.importLine ∧ startsLine true before = true
  /-- What follows it on its line was there. -/
  indentation_eq : indentation behind = gap
  /-- The body is that of the text. -/
  imported : ∃ opening rest start, IsImported kind imports behind opening body rest start
  /-- No statement occurs more often than in the text and the import line together. -/
  occurrences_le : ∀ needle, IsOneStatement needle → occurrences needle (imports ++ behind)
    ≤ occurrences needle text + occurrences needle update.importLine

/-- A statement without parentheses in front of a method, behind which the last import ends. -/
theorem IsImported.of_insert {p gap y z body rest : Text} {start : Nat}
    (hm : IsMethod (layout kind).methodName (p ++ gap) body rest start) (hle : p.length ≤ start)
    (hp : HasNoSignature (layout kind).methodName p) (hlast : isWordNext p.getLast? = false)
    (hy : '(' ∉ y) (hz : z = [] ∨ IsBreak z)
    (hends : EndsImports (p ++ (y ++ [';'])) (z ++ (gap ++ (body ++ '\x7d' :: rest)))) :
    IsImported kind (p ++ (y ++ [';'])) (z ++ (gap ++ (body ++ '\x7d' :: rest)))
      (p ++ (y ++ ';' :: z) ++ gap) body rest (start + (y ++ ';' :: z).length) where
  text_eq := by simp
  isMethod := hm.insert_in_front (isWord_of_mem_methodName kind) (methodName_ne_nil kind) hp hle hlast hy hz
    rfl
  endsImports := hends
  length_le := by
    simp only [List.length_append, List.length_cons, List.length_nil]
    omega
  hasNoSignature := hp.append (isWord_of_mem_methodName kind) (methodName_ne_nil kind) hy

/-- The import line of an update has no parenthesis in front of its semicolon. -/
theorem IsWiring.exists_init (hu : IsWiring kind update) : ∃ init, update.importLine = init ++ [';'] ∧ '(' ∉ init := by
  obtain ⟨init, hinit, -⟩ := hu.import_isOneStatement.last
  have hparen := hu.paren_not_mem
  rw [hinit, List.mem_append, not_or] at hparen
  exact ⟨init, hinit, hparen.1⟩

/-- The place for imports splits a registry in front of its method. -/
theorem IsPatchable.split (ht : IsPatchable kind text region place) {p q : Text} (hpq : text = p ++ q)
    (hlength : p.length = place.offset) :
    ∃ gap rest start, q = gap ++ (region.body text ++ '\x7d' :: rest) ∧ p.length ≤ start ∧
      IsMethod (layout kind).methodName (p ++ gap) (region.body text) rest start ∧
      HasNoSignature (layout kind).methodName p := by
  have hname := isWord_of_mem_methodName kind
  have hne := methodName_ne_nil kind
  -- the method splits the text as well, and the place is in front of it
  obtain ⟨opening, body, rest, htext, hm, hregion⟩ := locate?_eq_some hname hne ht.located
  have hbody : region.body text = body := by
    rw [hregion, htext, body_regionOf]
  have hle : p.length ≤ region.signatureStart := hlength ▸ ht.offset_le
  obtain ⟨gap, rfl, hq⟩ := hm.exists_between (hpq.symm.trans htext) hle
  rw [hbody]
  refine ⟨gap, rest, region.signatureStart, hq, hle, hm, hasNoSignature_of_not_infix hname hne ?_⟩
  have hunnamed := occursIn_eq_false_iff.mp ht.unnamed
  rwa [hpq, ← hlength, List.take_left] at hunnamed

/-- An import step that has a place adds its line there. -/
theorem insertImport_of_place {line p q : Text} (habsent : ¬ line <:+: text)
    (hplace : importPlace? text = some place) (hpq : text = p ++ q) (hlength : p.length = place.offset) :
    insertImport text line = .added (p ++ place.inserted text line ++ q) := by
  rw [insertImport, occursIn_eq_false_iff.mpr habsent, hplace]
  cases place with
  | afterStatement offset | beforeDeclaration offset =>
    obtain rfl : p.length = offset := hlength
    simp only [Bool.false_eq_true, if_false, ImportPlace.insert, ImportPlace.inserted]
    rw [hpq, insertAt_append]

/-- Behind the last import the import step puts a line break and the line. -/
theorem importsFirst_behind {offset : Nat} (ht : IsPatchable kind text region (.afterStatement offset))
    (hu : IsWiring kind update) (habsent : ¬ update.importLine <:+: text) :
    ∃ imports behind, ImportsFirst kind update text (region.body text) imports behind
      ((ImportPlace.afterStatement offset).gap text) := by
  have hn : IsBreak (lineBreak text) := isBreak_lineBreak text
  obtain ⟨p, q, hpq, hlength, hends⟩ := afterStatement_split ht.place_eq
  obtain ⟨gap, rest, start, hq, hle, hm, hunnamed⟩ := ht.split hpq hlength
  obtain ⟨init, hinit, hparen⟩ := hu.exists_init
  have hparen' : '(' ∉ lineBreak text ++ init := by
    rw [List.mem_append, not_or]
    exact ⟨fun hp => absurd (hn.isBlank hp) (by decide), hparen⟩
  -- the line is a statement without parentheses, up to its semicolon
  have hinserted : lineBreak text ++ update.importLine = (lineBreak text ++ init) ++ [';'] := by
    rw [hinit, List.append_assoc]
  have hends' : EndsImports (p ++ (lineBreak text ++ update.importLine)) q := by
    rw [← List.append_assoc]
    exact hends.insert hu.isImportLine hn
  have himported := IsImported.of_insert (z := []) hm hle hunnamed hends.isWordNext_getLast? hparen' (.inl rfl)
    (by rwa [← hinserted, List.nil_append, ← hq])
  rw [← hinserted, List.nil_append, ← hq] at himported
  refine ⟨p ++ (lineBreak text ++ update.importLine), q, insertImport_of_place habsent ht.place_eq hpq hlength,
    ⟨p ++ lineBreak text, by simp, ?_⟩, ?_, ⟨_, _, _, himported⟩, fun needle hneedle => ?_⟩
  · rw [startsLine_append, startsLine_of_getLast? hn.getLast?]
    rfl
  · show indentation q = indentation (text.drop offset)
    rw [hpq, show offset = p.length from hlength.symm, List.drop_left]
  · rw [List.append_assoc, hpq]
    exact occurrences_insert_line hneedle (hpq ▸ hn) hu.import_isOneStatement.getLast?

/-- In front of the first declaration the import step puts the line and a line break. -/
theorem importsFirst_before {offset : Nat} (ht : IsPatchable kind text region (.beforeDeclaration offset))
    (hu : IsWiring kind update) (habsent : ¬ update.importLine <:+: text) :
    ∃ imports behind, ImportsFirst kind update text (region.body text) imports behind
      ((ImportPlace.beforeDeclaration offset).gap text) := by
  have hn : IsBreak (lineBreak text) := isBreak_lineBreak text
  obtain ⟨p, q, hpq, hlength, hp, hnone⟩ := beforeDeclaration_split ht.place_eq
  obtain ⟨gap, rest, start, hq, hle, hm, hunnamed⟩ := ht.split hpq hlength
  obtain ⟨init, hinit, hparen⟩ := hu.exists_init
  have hends : EndsImports (p ++ update.importLine) (lineBreak text ++ q) :=
    endsImports_of_first hp (hpq ▸ hnone) hu.isImportLine hn
  have hlast : isWordNext p.getLast? = false := by
    rcases hp with rfl | hp
    · rfl
    · rw [hp]
      rfl
  -- here the line break stands behind the statement
  have himported := IsImported.of_insert hm hle hunnamed hlast hparen (.inr hn) (by rwa [← hinit, ← hq])
  rw [← hinit, ← hq] at himported
  refine ⟨p ++ update.importLine, lineBreak text ++ q, ?_, ⟨p, rfl, ?_⟩, ?_, ⟨_, _, _, himported⟩,
    fun needle hneedle => ?_⟩
  · rw [insertImport_of_place habsent ht.place_eq hpq hlength]
    simp only [ImportPlace.inserted, List.append_assoc]
  · rcases hp with rfl | hp
    · rfl
    · rw [startsLine_of_getLast? hp]
      rfl
  · show indentation (lineBreak text ++ q) = []
    rcases hn with hn | hn <;> rw [hn] <;> rfl
  · have hle : occurrences needle (p ++ ((update.importLine ++ lineBreak text) ++ q))
        ≤ occurrences needle (p ++ q) + occurrences needle update.importLine :=
      occurrences_insert_before hneedle hn hp
    rw [← hpq] at hle
    simpa only [List.append_assoc] using hle

/-- The import step of a first patch moves the method. -/
theorem importsFirst (ht : IsPatchable kind text region place) (hu : IsWiring kind update)
    (habsent : ¬ update.importLine <:+: text) :
    ∃ imports behind, ImportsFirst kind update text (region.body text) imports behind (place.gap text) := by
  cases place with
  | afterStatement offset => exact importsFirst_behind ht hu habsent
  | beforeDeclaration offset => exact importsFirst_before ht hu habsent

/-! ## The registration step -/

/-- What `insertRegistration` leaves in a first patch. -/
structure RegistersFirst (kind : IndexedKind) (style : RegistryStyle) (update : Update)
    (imports behind front back : Text) (site : Site) : Prop where
  /-- The registry is wired. -/
  isWired : site.IsWired kind style
  /-- The step adds the registration. -/
  added : insertRegistration (imports ++ behind) (update.registration style) (layout kind) (.ofStyle style)
    = .added site.text
  /-- The last import is still the last one, or it is followed by a line break and more lines. -/
  imports_cases : site.imports = imports ∧ indentation site.behind = indentation behind ∨
    ∃ more, site.imports = imports ++ (indentation behind ++ more) ∧ startsWithBreak more ∧
      indentation site.behind = []
  /-- The body is not changed in front of the registration. -/
  head_eq : site.head = front
  /-- The body is not changed behind it. -/
  back_suffix : back <:+ site.back
  /-- The registration is the last one. -/
  registrations_eq : ∃ x, site.between ++ site.call = x ++ update.registrationLine
  /-- No statement occurs more often than in the text and the registration together. -/
  occurrences_le : ∀ needle, IsOneStatement needle → occurrences needle site.text
    ≤ occurrences needle (imports ++ behind)
      + ((update.registration style).lines.map (occurrences needle)).sum

section Registration

variable {imports behind opening front back rest indent : Text} {start : Nat}

/-- What stands between the last import and the place of the registration. -/
theorem IsImported.split (h : IsImported kind imports behind opening (front ++ back) rest start) :
    ∃ w, imports ++ w = opening ++ front ∧ behind = w ++ (back ++ '\x7d' :: rest) ∧ '\x7b' ∈ w ∧
      (front = [] → w.getLast? = some '\x7b') ∧ front <:+ w := by
  obtain ⟨gap, rfl, hbehind⟩ := h.isMethod.exists_between h.text_eq h.length_le
  have hlast := h.isMethod.getLast?_between h.length_le
  refine ⟨gap ++ front, by simp, ?_, by simp [List.mem_of_getLast? hlast], ?_, List.suffix_append _ _⟩
  · rw [hbehind]
    simp only [List.append_assoc]
  · rintro rfl
    rwa [List.append_nil]

/-- The lines that a first patch adds to the body leave the last import where it is, or complete an import
that ends right in front of them. -/
theorem IsImported.endsImports_insert (h : IsImported kind imports behind opening (front ++ back) rest start)
    (hcut : IsCut (layout kind) (.ofStyle style) front back) (hnewline : '\n' ∈ back) {inserted w : Text}
    (hquiet : IsQuiet inserted)
    (hreturn : back.head? = some '\r' → startsWithBreak back → inserted.head? = some '\r')
    (hbehind : behind = w ++ (back ++ '\x7d' :: rest)) (hbrace : '\x7b' ∈ w)
    (hnil : front = [] → w.getLast? = some '\x7b') (hsuffix : front <:+ w) :
    EndsImports imports (w ++ (inserted ++ (back ++ '\x7d' :: rest))) ∨
      EndsImports (imports ++ w) (inserted ++ (back ++ '\x7d' :: rest)) := by
  have hends := h.endsImports
  rw [hbehind] at hends
  -- what is in front of the lines: a character that is no blank, a call, or a line
  rcases hcut.cases_front with ⟨htrim, -⟩ | hcall | hback | hback
  · -- the last character in front of the lines is not blank
    have hlast : ∃ c, w.getLast? = some c ∧ isBlank c = false := by
      by_cases hfront : front = []
      · exact ⟨_, hnil hfront, by decide⟩
      · obtain ⟨c, hc⟩ := Option.ne_none_iff_exists'.mp (mt List.getLast?_eq_none_iff.mp hfront)
        refine ⟨c, ?_, getLast?_trimEnd (htrim ▸ hc)⟩
        rw [← getLast?_of_suffix hsuffix hfront, hc]
    obtain ⟨c, hc, hblank⟩ := hlast
    rcases hends.insert_behind hquiet hc hblank with hends | ⟨-, -, -, -, hends⟩
    · exact .inl hends
    · exact .inr hends
  · obtain ⟨x, rfl⟩ := hsuffix
    exact .inl (hends.insert_behind_call hquiet (hcall.append_left x))
  · subst hback
    cases hnewline
  · left
    obtain ⟨c, y, hy⟩ := List.exists_cons_of_ne_nil (List.ne_nil_of_mem hnewline)
    refine hends.insert_at_break hquiet ⟨_, hbrace, by decide⟩ (hback.append_right _) fun hhead =>
      hreturn ?_ hback
    rw [hy] at hhead ⊢
    exact hhead

/-- A line break in front of the closing brace has a carriage return if the others have. -/
theorem head?_lineBreak (hback : startsWithBreak back) (hreturn : back.head? = some '\r') (hin : back <:+: text) :
    (lineBreak text).head? = some '\r' := by
  obtain ⟨more, rfl | rfl⟩ := hback
  · cases hreturn
  · have hpair : occursIn "\r\n" text = true :=
      occursIn_iff.mpr (List.IsInfix.trans ⟨[], more, rfl⟩ hin)
    rw [lineBreak, hpair]
    rfl

/-- The lines of a registration start with the line break that is put in front of each of them. -/
theorem head?_indented_lines {registration : Registration} (h : newline.head? = some '\r') (indent : Text) :
    (indented newline indent registration.lines).head? = some '\r' := by
  rw [Registration.lines, indented_cons, List.append_assoc, List.append_assoc, List.head?_append, h]
  rfl

/-- A registration that is added leaves a wired registry, wherever the last import then is. -/
theorem IsImported.registersFirst_at (h : IsImported kind imports behind opening (front ++ back) rest start)
    (hu : IsWiring kind update) (hcut : IsCut (layout kind) (.ofStyle style) front back) (hn : IsBreak newline)
    (hindent : ∀ c ∈ indent, isBlank c = true)
    (hadded : insertRegistration (imports ++ behind) (update.registration style) (layout kind) (.ofStyle style)
      = .added (opening ++ (front
        ++ (indented newline indent (update.registration style).lines ++ back) ++ '\x7d' :: rest)))
    {p q : Text} (hpq : p ++ q = opening ++ front
      ++ (indented newline indent (update.registration style).lines ++ (back ++ '\x7d' :: rest)))
    (hends : EndsImports p q)
    (hplace : p.length ≤ start ∧ HasNoSignature (layout kind).methodName p ∨ p = opening ++ front)
    (himports : p = imports ∧ indentation q = indentation behind ∨ ∃ more,
      p = imports ++ (indentation behind ++ more) ∧ startsWithBreak more ∧ indentation q = []) :
    RegistersFirst kind style update imports behind front back
      (registeredSite style update newline indent p q opening front [] back rest start) := by
  have hmethod : IsMethod (layout kind).methodName opening (front ++ [] ++ back) rest start := by
    rw [List.append_nil]
    exact h.isMethod
  have hsite : (registeredSite style update newline indent p q opening front [] back rest start).text
      = opening ++ front
        ++ (indented newline indent (update.registration style).lines ++ (back ++ '\x7d' :: rest)) := by
    rw [text_registeredSite]
    simp only [List.append_assoc, List.nil_append]
  refine ⟨isWired_registeredSite hu hn hindent hmethod hcut.setter_not_infix_back ?_ hends hplace, ?_,
    himports, rfl, List.suffix_append _ _, ⟨newline ++ indent, rfl⟩, fun needle hneedle => ?_⟩
  · rw [hpq]
    simp only [List.append_assoc, List.nil_append]
  · rw [hadded, hsite]
    simp only [List.append_assoc]
  · have htext : imports ++ behind = opening ++ front ++ (back ++ '\x7d' :: rest) := by
      rw [h.text_eq]
      simp only [List.append_assoc]
    rw [htext, hsite]
    exact occurrences_insert_indented hneedle hn hindent (List.cons_ne_nil _ _) (hu.isBodyLine style)

/-- The registration step of a first patch adds the registration and leaves a wired registry. -/
theorem IsImported.registersFirst (h : IsImported kind imports behind opening (front ++ back) rest start)
    (hu : IsWiring kind update) (hcut : IsCut (layout kind) (.ofStyle style) front back)
    (hnewline : '\n' ∈ back) (habsent : ¬ update.registrationLine <:+: imports ++ behind) :
    ∃ site, RegistersFirst kind style update imports behind front back site := by
  obtain ⟨w, hw, hbehind, hbrace, hnil, hsuffix⟩ := h.split
  -- the body is a part of the text, so the call is not in it either
  have hbody : ¬ (update.registration style).call <:+: front ++ back := by
    intro hin
    refine habsent (hin.trans ?_)
    rw [h.text_eq]
    exact ⟨opening, '\x7d' :: rest, by simp only [List.append_assoc]⟩
  obtain ⟨indent, ending, hindent, -, hending, -, hadded⟩ :=
    insertRegistration_of_isCut h.isMethod hbody hcut h.text_eq
  obtain rfl : ending = back := hending.resolve_right fun hno => hno.1 hnewline
  have hn : IsBreak (lineBreak (imports ++ behind)) := isBreak_lineBreak _
  -- a text with a carriage return in front of a break is read as having such breaks
  have hreturn : ending.head? = some '\r' → startsWithBreak ending →
      (lineBreak (imports ++ behind)).head? = some '\r' := by
    intro hhead hbreak
    refine head?_lineBreak hbreak hhead ?_
    rw [hbehind]
    exact ⟨imports ++ w, '\x7d' :: rest, by simp only [List.append_assoc]⟩
  -- of the line break only its shape matters from here on
  generalize lineBreak (imports ++ behind) = newline at hn hadded hreturn
  have hquiet : IsQuiet (indented newline indent (update.registration style).lines) :=
    isQuiet_indented hn hindent (List.cons_ne_nil _ _) (hu.isBodyLine style)
  have hsite := fun p q => h.registersFirst_at (p := p) (q := q) hu hcut hn hindent hadded
  rw [← hw] at hsite
  rcases h.endsImports_insert hcut hnewline hquiet
    (fun hhead hbreak => head?_indented_lines (hreturn hhead hbreak) indent) hbehind hbrace hnil hsuffix with
    hends | hends
  · refine ⟨_, hsite _ _ (List.append_assoc ..).symm hends (.inl ⟨h.length_le, h.hasNoSignature⟩)
      (.inl ⟨rfl, ?_⟩)⟩
    have hne : w.dropWhile isIndent ≠ [] := fun hnil =>
      absurd (List.dropWhile_eq_nil_iff.mp hnil _ hbrace) (by decide)
    rw [hbehind, indentation, indentation, takeWhile_append_of_ne_nil _ hne,
      takeWhile_append_of_ne_nil _ hne]
  · refine ⟨_, hsite _ _ rfl hends (.inr rfl) (.inr ?_)⟩
    obtain ⟨gap, newline', v, rfl, hgap, hnewline'⟩ :=
      (hbehind ▸ h.endsImports).line_split ⟨_, hbrace, by decide⟩
    refine ⟨newline' ++ v, ?_, hnewline'.startsWithBreak v, ?_⟩
    · rw [hbehind]
      simp only [List.append_assoc]
      rw [indentation_append_break hgap hnewline']
    · rw [Registration.lines, indented_cons, List.append_assoc, List.append_assoc, List.append_assoc]
      have hnone : ∀ c ∈ ([] : Text), isIndent c = true := by simp
      exact indentation_append_break hnone hn _

end Registration

/-! ## The whole patch -/

/-- The first patch of a registry adds both lines and leaves a wired registry, unless it warns. -/
theorem IsPatchable.patch (ht : IsPatchable kind text region place) (hu : IsWiring kind update)
    (himport : ¬ update.importLine <:+: text) (hregistration : ¬ update.registrationLine <:+: text)
    (hwarnings : (Registry.patch style text update).warnings = []) :
    ∃ imports behind front back site,
      ImportsFirst kind update text (region.body text) imports behind (place.gap text) ∧
      region.body text = front ++ back ∧ IsCut (layout kind) (.ofStyle style) front back ∧
      RegistersFirst kind style update imports behind front back site ∧
      Registry.patch style text update = ⟨site.text, true, true, []⟩ := by
  have hname := isWord_of_mem_methodName kind
  have hne := methodName_ne_nil kind
  obtain ⟨imports, behind, hfirst⟩ := importsFirst ht hu himport
  obtain ⟨opening, rest, start, himported⟩ := hfirst.imported
  have habsent : ¬ update.registrationLine <:+: imports ++ behind :=
    hu.registration_not_infix_imported hregistration (hfirst.occurrences_le _ hu.registration_isOneStatement)
  -- the closing brace is on its own line, so the body ends with a line break and indentation
  have hclosing : ∃ b spaces, region.body text = b ++ '\n' :: spaces ∧ ∀ c ∈ spaces, isIndent c = true := by
    obtain ⟨opening, body, rest, htext, hm, hregion⟩ := locate?_eq_some hname hne ht.located
    have hbody : region.body text = body := by
      rw [hregion, htext, body_regionOf]
    have htake : text.take region.bodyEnd = opening ++ body := by
      rw [hregion, htext, take_bodyEnd_regionOf]
    rw [hbody]
    exact newline_split_of_closing hm.opens (htake ▸ ht.closing)
  rcases isCut_or_not_closed (layout kind) (.ofStyle style) (region.body text) with
    ⟨front, back, hbody, hcut⟩ | ⟨last, hlast, hcall⟩
  · obtain ⟨b, spaces, hsplit, hspaces⟩ := hclosing
    have hnewline : '\n' ∈ back := hcut.newline_mem_back (hbody ▸ hsplit) hspaces
    rw [hbody] at himported
    obtain ⟨site, hsite⟩ := himported.registersFirst hu hcut hnewline habsent
    exact ⟨imports, behind, front, back, site, hfirst, hbody, hcut, hsite,
      patch_eq_of_added hu.kind_eq hfirst.added hsite.added⟩
  -- a call that is not closed is refused with a warning
  · exfalso
    have hbody : ¬ (update.registration style).call <:+: region.body text := by
      intro hin
      refine habsent (hin.trans ?_)
      rw [himported.text_eq]
      exact ⟨opening, '\x7d' :: rest, by simp only [List.append_assoc]⟩
    have hrefused : insertRegistration (imports ++ behind) (update.registration style) (layout kind)
        (.ofStyle style) = .refused (.callNotClosed (layout kind)) :=
      insertRegistration_of_not_closed himported.isMethod hbody hlast hcall himported.text_eq
    obtain rfl := hu.kind_eq
    simp [Registry.patch, hfirst.added, hrefused, Edit.text, Edit.warnings] at hwarnings

end ComponentKit.Registry
