import ComponentKit.Proofs.Name.Spacing
import ComponentKit.Proofs.Registry.Export
import ComponentKit.Proofs.Registry.Idempotence
import ComponentKit.Proofs.Registry.Lines
import ComponentKit.Proofs.Workflow.Name

/-!
# Patches without warnings

A patch that gives no warning has put its two lines where they belong, or has found them there. A name that was
checked always leads to such lines. A name that was taken as it is may have braces, which count when `locate?`
looks for the method, and parentheses, which may close a call: then a registration can end the method early or go
through the import line (`CutsImport`). Under any name the same happens to an import line whose braces have been
taken for those of the method (`BracedByImport`).
-/

namespace ComponentKit.Workflow

open Text Source Component Registry

variable {request : Request} {kind : IndexedKind} {name text : Text} {update : Registry.Update}
  {style : RegistryStyle}

/-! ## Updates of accepted names -/

/-- The update by which the component of a request is made known, if `resolveName` accepts the name of the request.
The name is used as it was given or as it was accepted. -/
def Announces (request : Request) (kind : IndexedKind) (name : Text) (update : Registry.Update) : Prop :=
  ∃ settings accepted source details created component wiring,
    request.kind = kind.toKind ∧ resolveName settings request = .ok accepted ∧
      (name = request.name ∨ name = accepted) ∧
      generateFrom source kind.toKind name details created = .ok component ∧
      component.wiring = some wiring ∧ wiring.update = update

theorem Announces.eq_updateOf (h : Announces request kind name update) :
    update = updateOf kind (registryKey name) (typeName kind.toKind name) := by
  obtain ⟨settings, accepted, source, details, created, component, wiring, -, -, -, hgen, hwiring, rfl⟩ :=
    h
  exact generateFrom_update hgen hwiring

/-- Every accepted name has an update. -/
theorem announces_of_resolveName (settings : Settings) (hkind : request.kind = kind.toKind)
    (h : resolveName settings request = .ok name) :
    Announces request kind name (updateOf kind (registryKey name) (typeName kind.toKind name)) := by
  have hsource : Template.render (context kind.toKind name ⟨[], [], []⟩ []) [] = .ok [] := rfl
  have hgen := generateFrom_eq_ok_iff.mpr ⟨[], hsource, rfl⟩
  exact ⟨settings, name, [], _, _, _, _, hkind, h, .inr rfl, hgen, wiringOf_toKind kind name, rfl⟩

/-! ## Braces of names -/

theorem isOfSigns_isBrace : IsOfSigns isBrace := by
  intro c hc
  rw [isBrace, Bool.or_eq_true, beq_iff_eq, beq_iff_eq] at hc
  rcases hc with rfl | rfl <;> decide

theorem isSeparator_of_isBrace (c : Char) (hc : isBrace c = true) : Name.isSeparator c = false := by
  rw [isBrace, Bool.or_eq_true, beq_iff_eq, beq_iff_eq] at hc
  rcases hc with rfl | rfl <;> decide

/-- The key for a name has the braces of the name. -/
theorem filter_registryKey (name : Text) : (registryKey name).filter isBrace = name.filter isBrace :=
  Name.filter_kebab isOfSigns_isBrace isSeparator_of_isBrace name

/-- So has its class. -/
theorem filter_typeName (kind : Kind) (name : Text) :
    (typeName kind name).filter isBrace = name.filter isBrace := by
  have hsuffix : kind.conventions.typeSuffix.filter isBrace = [] := by cases kind <;> rfl
  rw [typeName, List.filter_append, hsuffix, List.append_nil,
    Name.filter_pascal isOfSigns_isBrace isSeparator_of_isBrace]

/-- The lines for a name whose braces are balanced have balanced braces. -/
theorem Announces.balanced (h : Announces request kind name update) (hname : Balanced name)
    (style : RegistryStyle) : Balanced update.importLine ∧
      ∀ line ∈ (update.registration style).lines, Balanced line := by
  obtain rfl := h.eq_updateOf
  have hkey := (balanced_congr (filter_registryKey name)).mpr hname
  have htype := (balanced_congr (filter_typeName kind.toKind name)).mpr hname
  exact ⟨(balanced_updateOf _ hkey htype).1, balanced_of_mem_lines hkey htype⟩

/-! ## Import lines -/

/-- What the import lines of a kind have in common. -/
def importFrame (kind : IndexedKind) : Text :=
  concat ["import \x7b ", kind.toKind.conventions.typeSuffix, " \x7d from './",
    kind.toKind.conventions.fileSuffix, ".js';"]

theorem Announces.mem_importLine (h : Announces request kind name update) {c : Char}
    (hc : c ∈ update.importLine) :
    c ∈ Name.pascal name ∨ c ∈ Name.kebab name ∨ c ∈ importFrame kind := by
  obtain rfl := h.eq_updateOf
  simp only [updateOf, importStatement, typeName, registryKey, concat, List.flatten_cons, List.flatten_nil,
    List.mem_append, List.not_mem_nil, or_false] at hc
  simp only [importFrame, concat, List.flatten_cons, List.flatten_nil, List.mem_append, List.not_mem_nil,
    or_false]
  tauto

/-- An import line has a parenthesis only from the name. -/
theorem Announces.paren_mem (h : Announces request kind name update) (hparen : ')' ∈ update.importLine) :
    ')' ∈ name := by
  rcases h.mem_importLine hparen with hmem | hmem | hmem
  · exact (Name.mem_pascal_iff (by decide) (by decide)).mp hmem
  · exact (Name.mem_kebab_iff (by decide) (by decide)).mp hmem
  · have hframe : ')' ∉ importFrame kind := by cases kind <;> decide
    exact absurd hmem hframe

theorem Announces.import_unbroken (h : Announces request kind name update) :
    ∀ c ∈ update.importLine, c ≠ '\n' ∧ c ≠ '\r' := by
  intro c hc
  rcases h.mem_importLine hc with hmem | hmem | hmem
  · exact Name.ne_break_of_mem_pascal hmem
  · exact Name.ne_break_of_mem_kebab hmem
  · have hframe : (importFrame kind).all (fun c => c != '\n' && c != '\r') = true := by cases kind <;> decide
    simpa using List.all_eq_true.mp hframe c hmem

theorem Announces.head?_importLine (h : Announces request kind name update) :
    update.importLine.head? = some 'i' := by
  obtain rfl := h.eq_updateOf
  rfl

theorem Announces.getLast?_importLine (h : Announces request kind name update) :
    update.importLine.getLast? = some ';' := by
  obtain rfl := h.eq_updateOf
  have hsplit : ∀ type module : Text, importStatement type module
      = concat ["import \x7b ", type, " \x7d from './", module, ".js'"] ++ [';'] := by
    simp [importStatement, concat]
  rw [updateOf, hsplit, List.getLast?_concat]

/-! ## Checked names -/

/-- A checked name has neither braces nor parentheses. -/
theorem Announces.plain (h : Announces request kind name update) (hchecked : request.skipValidation = false) :
    Balanced name ∧ ')' ∉ name := by
  obtain ⟨settings, accepted, -, -, -, -, -, -, haccepted, hname, -⟩ := h
  rw [resolveName, hchecked, if_neg Bool.false_ne_true] at haccepted
  cases hvalid : Name.validate request.name request.kind settings.maxNameLength with
  | error refusal => simp [hvalid, Except.mapError] at haccepted
  | ok clean =>
    rw [hvalid] at haccepted
    obtain rfl := Except.ok.inj haccepted
    obtain ⟨hplain, rfl⟩ := Name.validate_eq_ok hvalid
    -- a checked name is a hyphenated one, whose characters are those of a key
    have hkey : ∀ c ∈ Name.kebab name, Name.isKeyCharacter c = true := by
      rcases hname with rfl | rfl
      · exact fun c => hplain.isKeyCharacter_of_mem_kebab
      · exact fun c => hplain.kebab.isKeyCharacter_of_mem_kebab
    refine ⟨(balanced_congr (filter_registryKey name)).mp (balanced_of_isKeyCharacter hkey),
      fun hparen => ?_⟩
    exact not_mem_of_isKeyCharacter hkey (by rfl)
      ((Name.mem_kebab_iff (by decide) (by decide)).mpr hparen)

/-! ## Patches -/

/-- Whether `locate?` finds the method of a registry with a line in its body. -/
def HasRegistration (layout : Layout) (text line : Text) : Prop :=
  ∃ region, locate? text layout.methodName = some region ∧ line <:+: region.body text

instance {layout : Layout} {line : Text} : Decidable (HasRegistration layout text line) :=
  decidable_of_iff ((locate? text layout.methodName).any fun region => occursIn line (region.body text)) (by
    simp [HasRegistration, Option.any_eq_true, occursIn_iff])

/-- Whether `patch` puts its registration into the middle of the import line. -/
def CutsImport (style : RegistryStyle) (text : Text) (update : Registry.Update) : Prop :=
  ∃ edit : BodyEdit, imported text update = edit.before ∧ (patch style text update).text = edit.after ∧
    update.registrationLine <:+: edit.added ∧ edit.Cuts update.importLine

/-- Whether `locate?` finds the braces of the registering method in the import line. -/
def BracedByImport (text : Text) (update : Registry.Update) : Prop :=
  ∃ region, locate? (imported text update) (layout update.kind).methodName = some region ∧
    '\x7b' :: region.body (imported text update) ++ ['\x7d'] <:+: update.importLine

theorem importLine_infix_of_warnings (h : (patch style text update).warnings = []) :
    update.importLine <:+: imported text update := by
  refine (imported_cases text update).resolve_right ?_
  rintro ⟨-, habsent, hnone⟩
  have hrefused : insertImport text update.importLine = .refused .noImportPlace := by
    simp [insertImport, occursIn_eq_false_iff.mpr habsent, hnone]
  simp [patch, hrefused, Edit.warnings] at h

/-- A patch without warnings has found its registration or has added it. -/
theorem registered_of_warnings (h : (patch style text update).warnings = []) :
    registered style (imported text update) update = .present ∨
      ∃ result, registered style (imported text update) update = .added result := by
  have hnone : (registered style (imported text update) update).warnings = [] :=
    (List.append_eq_nil_iff.mp h).2
  cases hregistered : registered style (imported text update) update with
  | present => exact .inl rfl
  | added result => exact .inr ⟨result, rfl⟩
  | refused warning => simp [hregistered, Edit.warnings] at hnone

/-- A patch without warnings leaves the registration in the body of the registering method, if the braces of
the name are balanced or no registration was added. -/
theorem hasRegistration_of_warnings (h : Announces request kind name update)
    (hwarn : (patch style text update).warnings = [])
    (hsafe : Balanced name ∨ (patch style text update).registrationAdded = false) :
    HasRegistration (layout kind) (patch style text update).text update.registrationLine := by
  have hkind : update.kind = kind := by rw [h.eq_updateOf]; rfl
  rw [← hkind]
  -- without a warning the registration was present or is added
  rcases registered_of_warnings hwarn with hpresent | ⟨result, hadded⟩
  · have htext : (patch style text update).text = imported text update := by rw [patch_text, hpresent]; rfl
    rw [htext]
    exact exists_region_of_present hpresent
  · have htext : (patch style text update).text = result := by rw [patch_text, hadded]; rfl
    have hname : Balanced name := by
      refine hsafe.resolve_right fun hnot => ?_
      have hnone : (registered style (imported text update) update).isAdded = false := hnot
      rw [hadded] at hnone
      cases hnone
    obtain ⟨edit, hreg, -, rfl, -⟩ := insertRegistration_eq_added hadded
    obtain ⟨start, hmethod⟩ := hreg.located_after (h.balanced hname style).2
    rw [htext]
    refine ⟨_, hmethod.locate?, ?_⟩
    rw [BodyEdit.after, body_regionOf]
    exact hreg.call_infix.trans ((List.suffix_append _ _).isInfix.trans (List.prefix_append _ _).isInfix)

/-- A patch without warnings leaves the import line in the text, or its registration goes through it. -/
theorem importLine_infix_or_cut (h : Announces request kind name update)
    (hwarn : (patch style text update).warnings = []) :
    update.importLine <:+: (patch style text update).text ∨ CutsImport style text update ∧
      (¬ Balanced name ∨ ')' ∈ name ∨ BracedByImport text update) := by
  have himport := importLine_infix_of_warnings hwarn
  rcases registered_of_warnings hwarn with hpresent | ⟨result, hadded⟩
  · left
    rwa [patch_text, hpresent]
  · have htext : (patch style text update).text = result := by rw [patch_text, hadded]; rfl
    obtain ⟨edit, hreg, hbefore, rfl, hplace⟩ := insertRegistration_eq_added hadded
    rw [hbefore] at himport
    -- the registration leaves the line whole, or it goes through it for one of three reasons
    rcases hreg.infix_after h.head?_importLine (by decide) himport with hkept | hcuts
    · exact .inl (htext ▸ hkept)
    · refine .inr ⟨⟨edit, hbefore, htext, hreg.call_infix, hcuts⟩, ?_⟩
      by_cases hname : Balanced name
      · obtain hparen | hbraces := hreg.cuts_cases hplace hcuts (h.balanced hname style).1
          h.head?_importLine (by decide) (by decide) h.getLast?_importLine h.import_unbroken
        · exact .inr (.inl (h.paren_mem hparen))
        · obtain ⟨start, hmethod⟩ := hreg.located
          refine .inr (.inr ⟨_, by rw [hbefore]; exact hmethod.locate?, ?_⟩)
          rwa [hbefore, BodyEdit.before, body_regionOf]
      · exact .inl hname

/-- The opening of an empty method. -/
def bareOpening (kind : IndexedKind) : Text :=
  concat [(layout kind).methodName, "() \x7b"]

/-- A registry with an empty method, and a line behind it. -/
def bareRegistry (kind : IndexedKind) (line : Text) : Text :=
  bareOpening kind ++ '\x7d' :: line

theorem isMethod_bareOpening (kind : IndexedKind) (line : Text) :
    IsMethod (layout kind).methodName (bareOpening kind) [] line 0 where
  signature tail := by cases kind <;> rfl
  closing := rfl
  start_lt := by cases kind <;> decide
  opens := by cases kind <;> rfl

theorem isCut_nil (kind : IndexedKind) (anchor : Anchor) : IsCut (layout kind) anchor [] [] :=
  .atEnd (by cases kind <;> simp [layout, concat]) rfl

/-- A patch of an empty method in front of its import line adds its registration without a warning. -/
theorem patch_bareRegistry (h : Announces request kind name update) (style : RegistryStyle) :
    (patch style (bareRegistry kind update.importLine) update).warnings = [] ∧
      ∃ lead more, (∀ c ∈ lead, isBlank c = true) ∧ (OpensFirst update.initializationLine → OpensFirst more) ∧
        (patch style (bareRegistry kind update.importLine) update).text = bareOpening kind
          ++ (lead ++ (update.registrationLine ++ (more ++ '\x7d' :: update.importLine))) := by
  have hkind : update.kind = kind := by rw [h.eq_updateOf]; rfl
  have hmethod := isMethod_bareOpening kind update.importLine
  have habsent : ¬ (update.registration style).call <:+: [] ++ [] := by
    rw [h.eq_updateOf]
    simp [Update.registration, updateOf, registrationStatement, concat]
  obtain ⟨indent, ending, hindent, -, hending, -, hadded⟩ := insertRegistration_of_isCut hmethod habsent
    (isCut_nil kind (.ofStyle style)) rfl
  -- the import line stands behind the method already, so the import step does nothing
  have himport : insertImport (bareRegistry kind update.importLine) update.importLine = .present := by
    have hin : occursIn update.importLine (bareRegistry kind update.importLine) = true :=
      occursIn_iff.mpr ⟨bareOpening kind ++ ['\x7d'], [], by simp [bareRegistry]⟩
    rw [insertImport, if_pos hin]
  have hmiddle : imported (bareRegistry kind update.importLine) update
      = bareRegistry kind update.importLine := by
    rw [imported, himport]
    rfl
  have hregistered : registered style (bareRegistry kind update.importLine) update
      = .added (bareOpening kind ++ (indented (lineBreak (bareRegistry kind update.importLine)) indent
        (update.registration style).lines ++ ending ++ '\x7d' :: update.importLine)) := by
    rw [registered, hkind]
    exact hadded
  have hnewline : ∀ c ∈ lineBreak (bareRegistry kind update.importLine), isBlank c = true :=
    fun c => isBlank_of_mem_lineBreak
  -- of the line break only that it is blank matters from here on
  generalize lineBreak (bareRegistry kind update.importLine) = newline at hnewline hregistered
  have hlead : ∀ c ∈ newline ++ indent, isBlank c = true := by
    intro c hc
    exact (List.mem_append.mp hc).elim (hnewline c) (hindent c)
  have hblank : ∀ c ∈ ending, isBlank c = true := by
    rcases hending with rfl | ⟨-, -, -, hblank⟩
    · simp
    · exact hblank
  refine ⟨?_, newline ++ indent, indented newline indent (update.registration style).followers ++ ending,
    hlead, fun hinit => ?_, ?_⟩
  · show (insertImport _ _).warnings ++ (registered style (imported _ update) update).warnings = []
    rw [himport, hmiddle, hregistered]
    rfl
  · refine OpensFirst.append ?_ (balanced_of_blank hblank).nonneg
    simp only [Update.registration]
    split
    · have hline := (balanced_of_blank hlead).nonneg
      simpa [indented] using OpensFirst.append hline hinit
    · exact (balanced_of_blank (by simp [indented])).nonneg
  · rw [patch_text, hmiddle, hregistered]
    simp [Edit.text, Registration.lines, indented, Update.registration]

/-- A name that always leaves its registration in an empty method has balanced braces. -/
theorem Announces.balanced_of_hasRegistration (h : Announces request kind name update)
    (hfound : HasRegistration (layout kind) (patch style (bareRegistry kind update.importLine) update).text
      update.registrationLine) : Balanced name := by
  obtain ⟨-, lead, more, hlead, hmore, htext⟩ := patch_bareRegistry h style
  obtain ⟨region, hlocated, hin⟩ := hfound
  rw [htext] at hlocated hin
  obtain ⟨hopens, q, hq, hlevel⟩ := exists_closed_behind (c := 't') (isMethod_bareOpening kind []).signature
    hlead (by rw [h.eq_updateOf]; rfl) (by decide) hlocated hin
  obtain ⟨limport, lregistration, -⟩ := level_updateOf kind (registryKey name) (typeName kind.toKind name)
  rw [← h.eq_updateOf] at limport lregistration
  have hkey := level_congr (filter_registryKey name)
  have htype := level_congr (filter_typeName kind.toKind name)
  -- the key stands in the line behind a text without braces
  have hname : OpensFirst name := by
    rw [← opensFirst_congr (filter_registryKey name)]
    rw [h.eq_updateOf] at hopens
    exact opensFirst_key (balanced_of_isAscii (isAscii_directory kind)).closed hopens
  obtain ⟨oimport, -, oinitialization⟩ := opensFirst_updateOf kind
    ((opensFirst_congr (filter_registryKey name)).mpr hname)
    ((opensFirst_congr (filter_typeName kind.toKind name)).mpr hname)
  rw [← h.eq_updateOf] at oimport oinitialization
  -- behind the line at most the brace of the method is closed, by what the lines open first
  have hbehind : -1 ≤ level q := by
    rcases prefix_append_cases hq with hq | ⟨r, hr, rfl⟩
    · have := hmore oinitialization q hq
      omega
    · have hfirst := (hmore oinitialization).level_nonneg
      rw [level_append]
      rcases List.prefix_cons_iff.mp hr with rfl | ⟨s, rfl, hs⟩
      · rw [level_nil]
        omega
      · have hclose : braceStep '\x7d' = -1 := rfl
        have := oimport s hs
        rw [level_cons, hclose]
        omega
  have := hname.level_nonneg
  exact ⟨hname, by omega⟩

/-- What patches without warnings leave. All of them leave the registration in the body of the registering method
exactly if the braces of the name are balanced; under any other name that is sure only where no registration is added.
The import line is in the text unless the registration goes through it (`CutsImport`), which needs a name with a
parenthesis or with braces that are not balanced, or a method with the braces of the import line. A checked name is
not of that sort. -/
theorem patch_without_warnings (h : Announces request kind name update) :
    (Balanced name ↔ ∀ style text, (patch style text update).warnings = [] →
        HasRegistration (layout kind) (patch style text update).text update.registrationLine) ∧
      (∀ style text, (patch style text update).warnings = [] →
        ((patch style text update).registrationAdded = false →
          HasRegistration (layout kind) (patch style text update).text update.registrationLine) ∧
        (update.importLine <:+: (patch style text update).text ∨ CutsImport style text update ∧
          (¬ Balanced name ∨ ')' ∈ name ∨ BracedByImport text update))) ∧
      (request.skipValidation = false → Balanced name ∧ ')' ∉ name) := by
  refine ⟨⟨fun hname style text hwarn => hasRegistration_of_warnings h hwarn (.inl hname),
    fun hall => ?_⟩,
    fun style text hwarn => ⟨fun hnone => hasRegistration_of_warnings h hwarn (.inr hnone),
      importLine_infix_or_cut h hwarn⟩, h.plain⟩
  exact h.balanced_of_hasRegistration (hall .legacy _ (patch_bareRegistry h .legacy).1)

/-- The request of a tool, with a name that is checked or taken as it is. -/
def toolRequest (name : Text) (skipValidation : Bool) : Request :=
  ⟨.tool, name, [], [], skipValidation⟩

theorem announces_weather : Announces (toolRequest "weather" false) .tool "weather" weather :=
  announces_of_resolveName .default rfl (by rfl)

/-- A checked name is safe in every registry. -/
theorem patch_without_warnings_weather :
    Announces (toolRequest "weather" false) .tool "weather" weather ∧ ∀ style text,
      (patch style text weather).warnings = [] →
        HasRegistration (layout .tool) (patch style text weather).text weather.registrationLine := by
  obtain ⟨hbalanced, -, hchecked⟩ := patch_without_warnings announces_weather
  exact ⟨announces_weather, hbalanced.mp (hchecked rfl).1⟩

theorem announces_brace :
    Announces (toolRequest "a\x7db" true) .tool "a\x7db" (updateOf .tool "a\x7db" "A\x7dbTool") :=
  announces_of_resolveName .default rfl (by rfl)

theorem announces_paren : Announces (toolRequest "a)b" true) .tool "a)b" (updateOf .tool "a)b" "A)bTool") :=
  announces_of_resolveName .default rfl (by rfl)

/-- A registry with the import line of a tool in the middle of a call. -/
def parenRegistry : Text :=
  "initializeTools() \x7b this.tools.set(\nimport \x7b A)bTool \x7d from './a)b-tool.js'; \x7d"

set_option maxRecDepth 8192 in
/-- Patches that give no warning and lose a line all the same: the braces of a checked import line are taken
for those of the method, a brace in a name ends the method, a parenthesis in a name ends a call. -/
theorem lost_without_warnings :
    (Announces (toolRequest "weather" false) .tool "weather" weather ∧
      (patch .autoDiscovery "initializeTools():\nexport class R \x7b \x7d" weather).warnings = [] ∧
      ¬ weather.importLine
        <:+: (patch .autoDiscovery "initializeTools():\nexport class R \x7b \x7d" weather).text) ∧
    (Announces (toolRequest "a\x7db" true) .tool "a\x7db" (updateOf .tool "a\x7db" "A\x7dbTool") ∧
      (patch .autoDiscovery listedRegistry (updateOf .tool "a\x7db" "A\x7dbTool")).warnings = [] ∧
      ¬ HasRegistration (layout .tool)
        (patch .autoDiscovery listedRegistry (updateOf .tool "a\x7db" "A\x7dbTool")).text
        (updateOf .tool "a\x7db" "A\x7dbTool").registrationLine) ∧
    (Announces (toolRequest "a)b" true) .tool "a)b" (updateOf .tool "a)b" "A)bTool") ∧
      (patch .autoDiscovery parenRegistry (updateOf .tool "a)b" "A)bTool")).warnings = [] ∧
      ¬ (updateOf .tool "a)b" "A)bTool").importLine
        <:+: (patch .autoDiscovery parenRegistry (updateOf .tool "a)b" "A)bTool")).text) := by
  simp only [← occursIn_iff, Bool.not_eq_true]
  exact ⟨⟨announces_weather, by decide, by decide⟩, ⟨announces_brace, by decide, by decide⟩,
    announces_paren, by decide, by decide⟩

end ComponentKit.Workflow
