import ComponentKit.Proofs.Component.Lines
import ComponentKit.Proofs.Name.Spacing
import ComponentKit.Proofs.Project.Registries
import ComponentKit.Proofs.Registry.Export
import ComponentKit.Proofs.Registry.Insertion

/-!
# The lines of rewritten files

`apply` reads a registry with every line break turned into a line feed and writes it as it then is, so that a file
that is rewritten loses its carriage returns. Apart from that its lines stay, but for those into which an import, a
registration or an export goes (`rewritten_lines`).
-/

namespace ComponentKit.Workflow

open Text Source Component Registry Disk Project Step

variable {session : Session} {path : Path} {name text new : Text} {kind : IndexedKind}

/-! ## Lines of generated components -/

/-- Whether a text breaks no line. -/
def IsUnbroken (text : Text) : Prop :=
  '\n' ∉ text ∧ '\r' ∉ text

instance (text : Text) : Decidable (IsUnbroken text) :=
  inferInstanceAs (Decidable (_ ∧ _))

theorem IsUnbroken.append {x y : Text} (hx : IsUnbroken x) (hy : IsUnbroken y) : IsUnbroken (x ++ y) := by
  simp only [IsUnbroken, List.mem_append, not_or]
  exact ⟨⟨hx.1, hy.1⟩, hx.2, hy.2⟩

theorem isUnbroken_concat {parts : List Text} (h : ∀ part ∈ parts, IsUnbroken part) :
    IsUnbroken (concat parts) := by
  simp only [IsUnbroken, concat, List.mem_flatten, not_exists, not_and]
  exact ⟨fun part hpart => (h part hpart).1, fun part hpart => (h part hpart).2⟩

theorem isUnbroken_typeName (kind : Kind) (name : Text) : IsUnbroken (typeName kind name) := by
  have hpascal : IsUnbroken (Name.pascal name) :=
    ⟨fun h => (Name.ne_break_of_mem_pascal h).1 rfl, fun h => (Name.ne_break_of_mem_pascal h).2 rfl⟩
  exact hpascal.append (by cases kind <;> decide)

theorem isUnbroken_registryKey (name : Text) : IsUnbroken (registryKey name) :=
  ⟨fun h => (Name.ne_break_of_mem_kebab h).1 rfl, fun h => (Name.ne_break_of_mem_kebab h).2 rfl⟩

theorem isUnbroken_moduleName (kind : Kind) (name : Text) : IsUnbroken (moduleName kind name) :=
  (isUnbroken_registryKey name).append (by cases kind <;> decide)

/-- No line for a generated component breaks. -/
theorem isUnbroken_wiring {source : Template} {details : Details} {created : Text} {component : Generated}
    {wiring : Wiring} (hgen : generateFrom source kind.toKind name details created = .ok component)
    (hwiring : component.wiring = some wiring) :
    IsUnbroken wiring.exportLine ∧ IsUnbroken wiring.update.importLine ∧
      IsUnbroken wiring.update.registrationLine ∧ IsUnbroken wiring.update.initializationLine := by
  have hdirectory : IsUnbroken kind.toKind.conventions.directory := by cases kind <;> decide
  have htype := isUnbroken_typeName kind.toKind name
  have hkey := isUnbroken_registryKey name
  have hmodule := isUnbroken_moduleName kind.toKind name
  have hexport : Exports kind.toKind name wiring.exportLine :=
    ⟨source, details, created, component, wiring, hgen, hwiring, rfl⟩
  have hnone : ∀ part ∈ ([] : List Text), IsUnbroken part := fun _ h => by cases h
  rw [hexport.eq_exportStatement, generateFrom_update hgen hwiring]
  -- each line is put together from fixed parts and forms of the name
  refine ⟨isUnbroken_concat ?_, isUnbroken_concat ?_, isUnbroken_concat ?_, isUnbroken_concat ?_⟩ <;>
    simp only [List.forall_mem_cons]
  · exact ⟨by decide, htype, by decide, hmodule, by decide, hnone⟩
  · exact ⟨by decide, htype, by decide, hmodule, by decide, hnone⟩
  · exact ⟨by decide, hdirectory, by decide, hkey, by decide, htype, by decide, hnone⟩
  · exact ⟨by decide, hdirectory, by decide, hkey, by decide, hnone⟩

/-! ## Lines of rewritten files -/

/-- Whether a run rewrites a file with a text: `decode` gives it for the bytes of the file, which are other bytes
after the run. -/
structure Rewrites {α : Type} (step : Step Failure α) (session : Session) (path : Path) (text : Text) :
    Prop where
  /-- The file has the text. -/
  hasText : ∃ bytes, session.disk.readFile session.home path = .ok bytes ∧ Utf8.decode bytes = .ok text
  /-- The file is changed. -/
  changed : (step.run session).2.disk.readFile session.home path ≠ session.disk.readFile session.home path

/-- Whether a file has the bytes of a text after a run. -/
def LeavesText {α : Type} (step : Step Failure α) (session : Session) (path : Path) (new : Text) : Prop :=
  (step.run session).2.disk.readFile session.home path = .ok (Utf8.encode new)

/-- A call that may write a text over a file has put it there if the file is another one. -/
theorem Rewrites.leavesText {α : Type} {step : Step Failure α} {needed : Prop} {kept written : α}
    (h : Rewrites step session path text)
    (hcall : step.WritesOver session path new needed kept written) : LeavesText step session path new := by
  obtain ⟨bytes, hread, hdecode⟩ := h.hasText
  rcases hcall.disk_cases with hsame | hwrote
  · exact absurd (by rw [hsame]) h.changed
  · rw [LeavesText, ← hwrote.home]
    exact hwrote.readFile ⟨bytes, text, hread, hdecode, rfl⟩

/-- A patch with generated lines goes into at most two lines of a text without carriage returns. -/
theorem editsLine_patch_wiring (style : RegistryStyle) {source : Template} {details : Details}
    {created : Text} {component : Generated} {wiring : Wiring}
    (hgen : generateFrom source kind.toKind name details created = .ok component)
    (hwiring : component.wiring = some wiring) (htext : '\r' ∉ text) :
    '\r' ∉ (patch style text wiring.update).text ∧ ∃ middle, EditsLine (fileLines text) middle ∧
      EditsLine middle (fileLines (patch style text wiring.update).text) := by
  obtain ⟨-, himport, hregistration, hinitialization⟩ := isUnbroken_wiring hgen hwiring
  obtain ⟨hmiddle, hfirst⟩ := editsLine_imported htext himport.2
  have hlines : ∀ line ∈ (wiring.update.registration style).lines, '\r' ∉ line := by
    intro line hline
    rcases mem_lines_registration hline with rfl | rfl
    · exact hregistration.2
    · exact hinitialization.2
  obtain ⟨hlast, hsecond⟩ := editsLine_patch hmiddle hlines
  exact ⟨hlast, _, hfirst, hsecond⟩

/-- An export goes behind the last line of a text without carriage returns. -/
theorem appendsLine_appendExport {fragment : Text} (htext : '\r' ∉ text) (hfragment : IsUnbroken fragment) :
    '\r' ∉ appendExport text fragment ∧
      AppendsLine fragment (fileLines text) (fileLines (appendExport text fragment)) := by
  obtain ⟨trailing, hsplit, -, hblank⟩ := trimEnd_split text
  have hcontent : '\r' ∉ trimEnd text := mt mem_of_mem_trimEnd htext
  have hfragment' := hfragment.2
  have happends := appendsLine_fileLines hcontent hblank hfragment
  rw [← hsplit] at happends
  rw [appendExport, lineBreak_of_notMem htext]
  exact ⟨by simp [hcontent, hfragment'], happends⟩

/-- A run that rewrites a registry or an index with the lines of a generated component keeps the lines of the file
(`fileLines`), but ends each of them with a line feed: exactly the files without carriage returns keep their bytes.
Besides, an import and a registration go into one line each, and an export goes behind the last line that is not
blank, whose trailing blanks are taken away. -/
theorem rewritten_lines {source : Template} {details : Details} {created : Text} {component : Generated}
    {wiring : Wiring} (hgen : generateFrom source kind.toKind name details created = .ok component)
    (hwiring : component.wiring = some wiring) (settings : Settings) (project : Project)
    (session : Session) :
    (∀ text, Rewrites (project.apply settings wiring.update) session
        (registryPath project.sourceRoot kind) text →
      session.disk.readFile session.home (registryPath project.sourceRoot kind) = .ok (Utf8.encode text) ∧
      ∃ new middle, LeavesText (project.apply settings wiring.update) session
          (registryPath project.sourceRoot kind) new ∧ '\r' ∉ new ∧
        EditsLine ((fileLines text).map unifyLineBreaks) middle ∧ EditsLine middle (fileLines new)) ∧
    (∀ target text, Rewrites (project.updateIndex (IndexedKind.toKind target) wiring.exportLine) session
        (registryPath project.sourceRoot target) text →
      session.disk.readFile session.home (registryPath project.sourceRoot target) = .ok (Utf8.encode text) ∧
      ∃ new, LeavesText (project.updateIndex target.toKind wiring.exportLine) session
          (registryPath project.sourceRoot target) new ∧ '\r' ∉ new ∧
        AppendsLine wiring.exportLine ((fileLines text).map unifyLineBreaks) (fileLines new)) ∧
    ∀ text, (fileLines text).map unifyLineBreaks = fileLines text ↔ '\r' ∉ text := by
  have hkind : wiring.update.kind = kind := by rw [generateFrom_update hgen hwiring]; rfl
  have hne : wiring.exportLine ≠ [] := by
    have hexport : Exports kind.toKind name wiring.exportLine :=
      ⟨source, details, created, component, wiring, hgen, hwiring, rfl⟩
    rw [hexport.eq_exportStatement]
    exact List.cons_ne_nil _ _
  -- reading unifies the line breaks, and what is written keeps them unified
  refine ⟨fun text h => ?_, fun target text h => ?_, fun text => map_unifyLineBreaks_fileLines⟩
  · obtain ⟨bytes, hread, hdecode⟩ := h.hasText
    obtain rfl := Utf8.encode_of_decode hdecode
    obtain ⟨hreturn, middle, hfirst, hsecond⟩ := editsLine_patch_wiring settings.registryStyle hgen
      hwiring (return_notMem_unifyLineBreaks text)
    rw [fileLines_unifyLineBreaks] at hfirst
    have hreads : session.Reads (registryPath project.sourceRoot kind) (unifyLineBreaks text) :=
      ⟨_, text, hread, hdecode, rfl⟩
    exact ⟨hread, _, middle, h.leavesText (writesOver_apply hkind hreads), hreturn, hfirst, hsecond⟩
  · obtain ⟨bytes, hread, hdecode⟩ := h.hasText
    obtain rfl := Utf8.encode_of_decode hdecode
    obtain ⟨hreturn, happends⟩ := appendsLine_appendExport (return_notMem_unifyLineBreaks text)
      (isUnbroken_wiring hgen hwiring).1
    rw [fileLines_unifyLineBreaks] at happends
    have hreads : session.Reads (registryPath project.sourceRoot target) (unifyLineBreaks text) :=
      ⟨_, text, hread, hdecode, rfl⟩
    exact ⟨hread, _, h.leavesText (writesOver_updateIndex hreads hne), hreturn, happends⟩

/-- A registry with carriage returns. -/
def returnsRegistry : Text :=
  "class R \x7b\r\n  initializeTools() \x7b\r\n  \x7d\r\n\x7d\r\n"

/-- A session where `returnsRegistry` is the registry of the tools. -/
def returnsSession : Session :=
  .start ⟨[(["s", "tools", "index.ts"], .file (Utf8.encode returnsRegistry)), (["s"], .directory),
    (["s", "tools"], .directory)]⟩ [] ⟨2026, 1, 1, 0, 0, 0, 0⟩ false .none

/-- The project around it. -/
def returnsProject : Project :=
  ⟨true, .ofText ".", .ofText "s", [], none⟩

/-- The lines for a tool called `weather`. -/
def weatherWiring : Wiring :=
  ⟨exportStatement "WeatherTool" "weather-tool", weather⟩

theorem generateFrom_weather :
    generateFrom [] IndexedKind.tool.toKind "weather" ⟨[], [], []⟩ []
      = .ok ⟨.tool, [], some weatherWiring⟩ := by
  rfl

/-- `returnsRegistry` after a patch, with line feeds in place of all carriage returns. -/
def returnsPatched : Text :=
  concat ["import \x7b WeatherTool \x7d from './weather-tool.js';\nclass R \x7b\n  initializeTools() \x7b\n",
    "    this.tools.set('weather', new WeatherTool());\n  \x7d\n\x7d\n"]

theorem hasText_returnsSession : ∃ bytes, returnsSession.disk.readFile returnsSession.home
    (registryPath returnsProject.sourceRoot .tool) = .ok bytes ∧ Utf8.decode bytes = .ok returnsRegistry :=
  ⟨Utf8.encode returnsRegistry, by rfl, by decide +kernel⟩

theorem leavesText_returnsSession : LeavesText (returnsProject.apply Settings.default weather) returnsSession
    (registryPath returnsProject.sourceRoot .tool) returnsPatched := by
  rw [LeavesText]
  decide +kernel

theorem rewrites_returnsSession : Rewrites (returnsProject.apply Settings.default weather) returnsSession
    (registryPath returnsProject.sourceRoot .tool) returnsRegistry :=
  ⟨hasText_returnsSession, by decide +kernel⟩

theorem rewritten_lines_weather :
    Rewrites (returnsProject.apply Settings.default weather) returnsSession
      (registryPath returnsProject.sourceRoot .tool) returnsRegistry ∧
    Rewrites (returnsProject.updateIndex .tool weatherWiring.exportLine) returnsSession
      (registryPath returnsProject.sourceRoot .tool) returnsRegistry ∧
    (∃ new middle, LeavesText (returnsProject.apply Settings.default weather) returnsSession
        (registryPath returnsProject.sourceRoot .tool) new ∧ '\r' ∉ new ∧
      EditsLine ((fileLines returnsRegistry).map unifyLineBreaks) middle ∧ EditsLine middle (fileLines new)) ∧
    ∃ new, LeavesText (returnsProject.updateIndex .tool weatherWiring.exportLine) returnsSession
        (registryPath returnsProject.sourceRoot .tool) new ∧ '\r' ∉ new ∧
      AppendsLine weatherWiring.exportLine ((fileLines returnsRegistry).map unifyLineBreaks) (fileLines new) := by
  have hindex : Rewrites (returnsProject.updateIndex .tool weatherWiring.exportLine) returnsSession
      (registryPath returnsProject.sourceRoot .tool) returnsRegistry :=
    ⟨hasText_returnsSession, by decide +kernel⟩
  have hlines := rewritten_lines generateFrom_weather rfl Settings.default returnsProject returnsSession
  exact ⟨rewrites_returnsSession, hindex, (hlines.1 _ rewrites_returnsSession).2,
    (hlines.2.1 .tool _ hindex).2⟩

/-- The lines of a registry with carriage returns are not kept: all of them lose their carriage returns, while
two edits could have gone into two lines only. -/
theorem apply_drops_returns :
    Rewrites (returnsProject.apply Settings.default weather) returnsSession
      (registryPath returnsProject.sourceRoot .tool) returnsRegistry ∧
    LeavesText (returnsProject.apply Settings.default weather) returnsSession
      (registryPath returnsProject.sourceRoot .tool) returnsPatched ∧
    ¬ ∃ middle, EditsLine (fileLines returnsRegistry) middle ∧
      EditsLine middle (fileLines returnsPatched) := by
  refine ⟨rewrites_returnsSession, leavesText_returnsSession, ?_⟩
  rintro ⟨middle, hfirst, hsecond⟩
  have hbefore : (fileLines returnsRegistry).countP (·.contains '\r') = 4 := by decide +kernel
  have hafter : (fileLines returnsPatched).countP (·.contains '\r') = 0 := by decide +kernel
  have := hfirst.countP_le (·.contains '\r')
  have := hsecond.countP_le (·.contains '\r')
  omega

end ComponentKit.Workflow
