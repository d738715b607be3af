import ComponentKit.Proofs.Component.Content
import ComponentKit.Proofs.Registry.Export
import ComponentKit.Proofs.Workflow.Outcome

/-!
# What a name can reach

The file of a component, at `componentPath`, is one name in the directory of its kind, and no registry. Its lines
stand on one line each, and the strings in them start and end where their templates say (`IsLineOf`): neither a
character of the name nor a change of its case gives a slash, a quote or the end of a line.
-/

namespace ComponentKit

open Text Component Template

variable {kind : Kind} {name created : Text} {details : Details}

namespace Component

/-! ## Lines from templates -/

/-- Whether a character opens or closes a string. -/
def isQuoteMark (c : Char) : Bool :=
  c == '\x27' || c == '"' || c == '\x60'

/-- The fixed text of a template. -/
def fixedText (template : Template) : Text :=
  template.flatMap fun
    | .text text => text
    | .slot _ _ => []

/-- Whether a line made from a template is one line, with the quotes of the template (`isQuoteMark`) and no others. -/
structure IsLineOf (template : Template) (line : Text) : Prop where
  /-- No character ends the line. -/
  unbroken : ∀ c ∈ line, isLineEnd c = false
  /-- The quotes are those of the fixed text. -/
  quotes : line.filter isQuoteMark = (fixedText template).filter isQuoteMark

theorem IsLineOf.cons {template : Template} {piece : Piece} {x line : Text} (hline : IsLineOf template line)
    (hx : IsLineOf [piece] x) : IsLineOf (piece :: template) (x ++ line) where
  unbroken c hc := (List.mem_append.mp hc).elim (hx.unbroken c) (hline.unbroken c)
  quotes := by
    have hfixed : fixedText (piece :: template) = fixedText [piece] ++ fixedText template := by
      simp [fixedText]
    rw [List.filter_append, hfixed, List.filter_append, hx.quotes, hline.quotes]

/-- The slots of the lines that make a component known. -/
def lineSlots : List Piece := [typeSlot, moduleSlot, keySlot, collectionSlot]

/-- Whether a template has only `lineSlots`, and no end of a line in its fixed text. -/
def isLineTemplate (template : Template) : Bool :=
  template.all fun
    | .text text => text.all (!isLineEnd ·)
    | .slot value filters => lineSlots.contains (.slot value filters)

theorem isOfSigns_isQuoteMark : IsOfSigns isQuoteMark := by
  intro c hc
  simp only [isQuoteMark, Bool.or_eq_true, beq_iff_eq] at hc
  rcases hc with (rfl | rfl) | rfl <;> decide

theorem isSeparator_of_isQuoteMark (c : Char) (hc : isQuoteMark c = true) : Name.isSeparator c = false := by
  simp only [isQuoteMark, Bool.or_eq_true, beq_iff_eq] at hc
  rcases hc with (rfl | rfl) | rfl <;> decide

/-- Only kinds with an index have lines. -/
theorem exists_indexed {source : Template} {component : Generated} {wiring : Wiring}
    (hgen : generateFrom source kind name details created = .ok component)
    (hwiring : component.wiring = some wiring) : ∃ indexed : IndexedKind, kind = indexed.toKind := by
  rw [generateFrom_wiring hgen] at hwiring
  obtain ⟨indexed, hindexed, -⟩ := Option.map_eq_some_iff.mp hwiring
  exact ⟨indexed, (toKind_of_ofKind? hindexed).symm⟩

section Slots

variable (hquotes : name.filter isQuoteMark = [])

include hquotes

/-- What a slot takes for a name without quotes ends no line and has no quotes. -/
theorem isLineOf_slot {piece : Piece} (h : piece ∈ lineSlots) :
    ∃ x, piece.render (context kind name details created) = .ok x ∧ IsLineOf [piece] x := by
  have hends : ∀ {c}, isBlank c = false → isLineEnd c = false := fun hc =>
    Bool.eq_false_iff.mpr fun hend => by
      rw [isBlank_of_isLineEnd hend] at hc
      cases hc
  -- what a slot holds is a form of the name and a fixed ending
  have happend : ∀ {x y : Text}, (∀ c ∈ x, isBlank c = false) → x.filter isQuoteMark = [] →
      y.all (fun c => !isLineEnd c && !isQuoteMark c) = true →
      (∀ c ∈ x ++ y, isLineEnd c = false) ∧ (x ++ y).filter isQuoteMark = [] := by
    intro x y hx hquote hy
    simp only [List.all_eq_true, Bool.and_eq_true, Bool.not_eq_true'] at hy
    refine ⟨fun c hc => (List.mem_append.mp hc).elim (fun hc => hends (hx c hc)) fun hc => (hy c hc).1, ?_⟩
    rw [List.filter_append, hquote, List.nil_append, List.filter_eq_nil_iff]
    exact fun c hc => by simp [(hy c hc).2]
  have hpascal : (Name.pascal name).filter isQuoteMark = [] := by
    rw [Name.filter_pascal isOfSigns_isQuoteMark isSeparator_of_isQuoteMark, hquotes]
  have hkebab : (Name.kebab name).filter isQuoteMark = [] := by
    rw [Name.filter_kebab isOfSigns_isQuoteMark isSeparator_of_isQuoteMark, hquotes]
  simp only [lineSlots, List.mem_cons, List.not_mem_nil, or_false] at h
  rcases h with rfl | rfl | rfl | rfl
  · have := happend (y := kind.conventions.typeSuffix) (fun _ hc => Name.isBlank_of_mem_pascal hc) hpascal
      (by cases kind <;> decide)
    exact ⟨typeName kind name, rfl, this.1, this.2⟩
  · have := happend (y := kind.conventions.fileSuffix) (fun _ hc => Name.isBlank_of_mem_kebab hc) hkebab
      (by cases kind <;> decide)
    exact ⟨moduleName kind name, rfl, this.1, this.2⟩
  · exact ⟨registryKey name, rfl, fun _ hc => hends (Name.isBlank_of_mem_kebab hc), hkebab⟩
  · have := happend (x := []) (y := kind.conventions.directory) (by simp) rfl (by cases kind <;> decide)
    exact ⟨kind.conventions.directory, rfl, this.1, this.2⟩

/-- A line that a template with these slots gives is one line, with the quotes of the template. -/
theorem isLineOf_of_isLineTemplate {template : Template} (h : isLineTemplate template = true) {line : Text}
    (hline : template.render (context kind name details created) = .ok line) : IsLineOf template line := by
  have hrender : ∃ line, template.render (context kind name details created) = .ok line ∧
      IsLineOf template line := by
    -- piece by piece; the line of the whole template would stand in the way of the induction
    clear hline
    induction template with
    | nil => exact ⟨[], rfl, by simp, rfl⟩
    | cons piece template ih =>
      rw [isLineTemplate, List.all_cons, Bool.and_eq_true] at h
      obtain ⟨line, hrender, hline⟩ := ih h.2
      have hpiece : ∃ x, piece.render (context kind name details created) = .ok x ∧ IsLineOf [piece] x := by
        cases piece with
        | text text =>
          exact ⟨text, rfl, fun c hc => by simpa using List.all_eq_true.mp h.1 c hc, by simp [fixedText]⟩
        | slot value filters => exact isLineOf_slot hquotes (by simpa using h.1)
      obtain ⟨x, hx, hxline⟩ := hpiece
      exact ⟨x ++ line, render_cons hx hrender, hline.cons hxline⟩
  obtain ⟨other, hother, hlineOf⟩ := hrender
  obtain rfl := Except.ok.inj (hline.symm.trans hother)
  exact hlineOf

/-- All lines for a generated component are of this sort. -/
theorem isLineOf_wiring {source : Template} {component : Generated} {wiring : Wiring}
    (hgen : generateFrom source kind name details created = .ok component)
    (hwiring : component.wiring = some wiring) :
    IsLineOf exportTemplate wiring.exportLine ∧ IsLineOf importTemplate wiring.update.importLine ∧
      IsLineOf registrationTemplate wiring.update.registrationLine ∧
      IsLineOf initializationTemplate wiring.update.initializationLine := by
  obtain ⟨indexed, rfl⟩ := exists_indexed hgen hwiring
  have hexport : Exports indexed.toKind name wiring.exportLine :=
    ⟨source, details, created, component, wiring, hgen, hwiring, rfl⟩
  rw [hexport.eq_exportStatement, generateFrom_update hgen hwiring]
  -- each line is what its template renders to, so the templates decide
  have hline : ∀ {template : Template} {line : Text}, isLineTemplate template = true →
      template.render (context indexed.toKind name details created) = .ok line → IsLineOf template line :=
    fun htemplate hrender => isLineOf_of_isLineTemplate hquotes htemplate hrender
  refine ⟨hline (by decide) ?_, hline (by decide) ?_, hline (by decide) ?_, hline (by decide) ?_⟩
  · exact render_exportTemplate (find_type ..) (find_module ..)
  · exact render_importTemplate (find_type ..) (find_module ..)
  · exact render_registrationTemplate (find_collection ..) (find_key ..) (find_type ..)
  · exact render_initializationTemplate (find_collection ..) (find_key ..)

end Slots

end Component

/-! ## Paths -/

namespace Project

/-- The file of a component is no registry. -/
theorem componentPath_ne_registryPath (root : Path) (h : '/' ∉ fileName kind name) (indexed : IndexedKind) :
    componentPath root kind name ≠ registryPath root indexed := by
  rw [componentPath_eq root kind h, registryPath_eq]
  intro heq
  have hsegments := congrArg Path.segments heq
  -- the directories tell the kind, and the file of a kind is not its registry
  simp only [Path.child] at hsegments
  obtain ⟨hfront, hfile⟩ := List.append_inj' hsegments rfl
  obtain ⟨-, hdirectory⟩ := List.append_inj' hfront rfl
  have hkind : IndexedKind.ofKind? kind = some indexed := by
    rw [List.singleton_inj] at hdirectory
    revert hdirectory
    cases kind <;> cases indexed <;> decide
  exact Workflow.fileName_ne_indexFileName hkind name (List.singleton_inj.mp hfile)

end Project

/-! ## Names of requests -/

namespace Workflow

open Project

variable {settings : Settings} {request : Request}

/-- Whatever name `resolveName` accepts for a component, its file is one name in the directory of its kind and no
registry, and each of its lines is one line with the quotes of its template. -/
theorem confined_of_resolveName (h : resolveName settings request = .ok name) (kind : Kind) :
    (∀ root, componentPath root kind name = (root.child kind.conventions.directory).child (fileName kind name) ∧
      ∀ indexed, componentPath root kind name ≠ registryPath root indexed) ∧
    (sourceExtension <:+ fileName kind name ∧ '/' ∉ fileName kind name ∧ '\\' ∉ fileName kind name ∧
      fileName kind name ≠ ['.'] ∧ fileName kind name ≠ Path.parentStep) ∧
    ∀ source details created component wiring,
      generateFrom source kind name details created = .ok component → component.wiring = some wiring →
      IsLineOf exportTemplate wiring.exportLine ∧ IsLineOf importTemplate wiring.update.importLine ∧
        IsLineOf registrationTemplate wiring.update.registrationLine ∧
        IsLineOf initializationTemplate wiring.update.initializationLine := by
  have hslash := slash_notMem_fileName h kind
  -- quotes are among the unsafe characters, which no accepted name has
  have hquotes : name.filter isQuoteMark = [] := by
    refine List.filter_eq_nil_iff.mpr fun c hc hquote => ?_
    have hsafe := isUnsafe_of_resolveName h c hc
    simp only [isQuoteMark, Bool.or_eq_true, beq_iff_eq] at hquote
    rcases hquote with (rfl | rfl) | rfl <;> cases hsafe
  refine ⟨fun root => ⟨componentPath_eq root kind hslash, componentPath_ne_registryPath root hslash⟩,
    ⟨?_, hslash, ?_, fileName_ne kind name (by decide), fileName_ne kind name (by decide)⟩, ?_⟩
  · exact List.suffix_append _ _
  · exact notMem_fileName h kind (by decide) (by cases kind <;> decide)
  · exact fun _ _ _ _ _ hgen hwiring => isLineOf_wiring hquotes hgen hwiring

/-- A line separator between two words, and a letter whose capital form has two characters. -/
theorem confined_of_separated_words :
    resolveName .default ⟨.tool, "straße\u2028ŉ", [], [], true⟩ = .ok "straße\u2028ŉ" ∧
    '/' ∉ fileName .tool "straße\u2028ŉ" ∧
    IsLineOf exportTemplate "export \x7b StraßeʼNTool \x7d from './straße-ŉ-tool.js';" := by
  have hname : resolveName .default ⟨.tool, "straße\u2028ŉ", [], [], true⟩ = .ok "straße\u2028ŉ" := by rfl
  obtain ⟨-, ⟨-, hslash, -⟩, hlines⟩ := confined_of_resolveName hname .tool
  have hgen : generateFrom [] .tool "straße\u2028ŉ" ⟨[], [], []⟩ [] = .ok ⟨.tool, [],
      some ⟨"export \x7b StraßeʼNTool \x7d from './straße-ŉ-tool.js';",
        updateOf .tool "straße-ŉ" "StraßeʼNTool"⟩⟩ := by rfl
  exact ⟨hname, hslash, (hlines [] _ _ _ _ hgen rfl).1⟩

end Workflow

end ComponentKit
