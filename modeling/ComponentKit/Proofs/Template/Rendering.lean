import ComponentKit.Component.Source
import ComponentKit.Component.Generate
import ComponentKit.Proofs.Result

/-!
# Rendering

`render` gives the concatenation of what the pieces of a template render to, and it gives a text at all exactly if
the context has a value for every name that a slot of the template takes. The templates of components take no name
that the context of a component does not have (`contextNames`).
-/

namespace ComponentKit

namespace Template

variable {values : Context} {piece : Piece} {template other : Template} {x y z : Text}

/-! ## Rendering piece by piece -/

theorem render_cons_iff : Template.render values (piece :: template) = .ok z ↔
    ∃ x y, piece.render values = .ok x ∧ Template.render values template = .ok y ∧ z = x ++ y := by
  rw [Template.render, Template.render, List.mapM_cons]
  simp only [map_eq_ok, bind_eq_ok, pure_eq_ok]
  constructor
  · rintro ⟨-, ⟨x, hx, parts, hparts, rfl⟩, rfl⟩
    exact ⟨x, Text.concat parts, hx, ⟨parts, hparts, rfl⟩, rfl⟩
  · rintro ⟨x, -, hx, ⟨parts, hparts, rfl⟩, rfl⟩
    exact ⟨x :: parts, ⟨x, hx, parts, hparts, rfl⟩, rfl⟩

theorem render_cons (hp : piece.render values = .ok x) (ht : Template.render values template = .ok y) :
    Template.render values (piece :: template) = .ok (x ++ y) :=
  render_cons_iff.mpr ⟨x, y, hp, ht, rfl⟩

theorem render_append_iff : Template.render values (template ++ other) = .ok z ↔
    ∃ x y, Template.render values template = .ok x ∧ Template.render values other = .ok y ∧ z = x ++ y := by
  induction template generalizing z with
  | nil =>
    have hnil : ∀ x, Template.render values [] = .ok x ↔ x = [] := by
      intro x
      exact ⟨fun h => (Except.ok.inj h).symm, fun h => h ▸ rfl⟩
    simp [hnil]
  | cons piece template ih =>
    simp only [List.cons_append, render_cons_iff, ih]
    constructor
    · rintro ⟨x, -, hx, ⟨y, w, hy, hw, rfl⟩, rfl⟩
      exact ⟨x ++ y, w, ⟨x, y, hx, hy, rfl⟩, hw, by simp⟩
    · rintro ⟨-, w, ⟨x, y, hx, hy, rfl⟩, hw, rfl⟩
      exact ⟨x, y ++ w, hx, ⟨y, w, hy, hw, rfl⟩, by simp⟩

theorem render_append (hx : Template.render values template = .ok x)
    (hy : Template.render values other = .ok y) :
    Template.render values (template ++ other) = .ok (x ++ y) :=
  render_append_iff.mpr ⟨x, y, hx, hy, rfl⟩

/-- A part of a template renders to a part of the text. -/
theorem infix_of_render (hpart : other <:+: template) (hx : Template.render values template = .ok x)
    (hy : Template.render values other = .ok y) : y <:+: x := by
  obtain ⟨front, back, rfl⟩ := hpart
  obtain ⟨v, w, h, -, rfl⟩ := render_append_iff.mp hx
  obtain ⟨u, y', -, hy', rfl⟩ := render_append_iff.mp h
  obtain rfl := Except.ok.inj (hy'.symm.trans hy)
  exact ⟨u, w, rfl⟩

/-! ## Names that slots take -/

/-- The name whose value a piece takes. -/
def Piece.takes? : Piece → Option Text
  | .slot (.name key) _ => some key
  | _ => none

/-- Whether the slots of a template take no names but the given ones (`Piece.takes?`). -/
def Closed (names : List Text) (template : Template) : Prop :=
  ∀ key ∈ template.filterMap Piece.takes?, key ∈ names

/-- A name has a value if the context lists it. -/
theorem exists_lookup_iff {key : Text} : (∃ x, values.lookup key = some x) ↔ key ∈ values.map Prod.fst := by
  induction values with
  | nil => simp
  | cons entry values ih =>
    rw [List.lookup_cons, List.map_cons, List.mem_cons]
    by_cases h : key = entry.1
    · simp [h]
    · simp [beq_eq_false_iff_ne.mpr h, h, ih]

theorem exists_piece_render_iff :
    (∃ x, piece.render values = .ok x) ↔ ∀ key ∈ piece.takes?, key ∈ values.map Prod.fst := by
  cases piece with
  | text x => simp [Piece.render, Piece.takes?]
  | slot value filters =>
    cases value with
    | literal x => simp [Piece.render, Piece.takes?, Value.find, pure, Except.pure, bind, Except.bind]
    | name key =>
      have hone : (∀ k ∈ (Piece.slot (.name key) filters).takes?, k ∈ values.map Prod.fst)
          ↔ key ∈ values.map Prod.fst := by simp [Piece.takes?]
      rw [hone, ← exists_lookup_iff]
      cases h : values.lookup key <;> simp [Piece.render, Value.find, h, pure, Except.pure, bind, Except.bind]

/-- A template renders if the context has all that its slots take, and only then. -/
theorem exists_render_iff :
    (∃ x, Template.render values template = .ok x) ↔ Closed (values.map Prod.fst) template := by
  induction template with
  | nil => exact ⟨fun _ key hkey => by simp at hkey, fun _ => ⟨[], rfl⟩⟩
  | cons piece template ih =>
    -- what the first piece takes is asked for apart from what the others take
    have hsplit : Closed (values.map Prod.fst) (piece :: template) ↔
        (∀ key ∈ piece.takes?, key ∈ values.map Prod.fst) ∧ Closed (values.map Prod.fst) template := by
      cases h : piece.takes? <;> simp [Closed, h]
    rw [hsplit, ← exists_piece_render_iff, ← ih]
    constructor
    · rintro ⟨z, hz⟩
      obtain ⟨x, y, hx, hy, -⟩ := render_cons_iff.mp hz
      exact ⟨⟨x, hx⟩, y, hy⟩
    · rintro ⟨⟨x, hx⟩, y, hy⟩
      exact ⟨x ++ y, render_cons hx hy⟩

end Template

namespace Component

open Template

variable {kind : Kind} {name created : Text} {details : Details}

/-- The names that `Component.context` has values for, whatever the component. -/
def contextNames : List Text :=
  ["kind", "name", "type_name", "instance_name", "registry_key", "module", "collection", "description",
    "author", "project_name", "project_slug", "created"]

/-- A template renders for a component if its slots take what a component has. -/
theorem exists_render_context_iff {template : Template} :
    (∃ x, Template.render (context kind name details created) template = .ok x)
      ↔ Closed contextNames template :=
  exists_render_iff

/-- The templates of components take no more. -/
theorem closed_sourceTemplate (kind : Kind) : Closed contextNames (sourceTemplate kind) := by
  have hall : (sourceTemplate kind).filterMap Piece.takes? |>.all (contextNames.contains ·) := by
    cases kind <;> rfl
  exact fun key hkey => List.contains_iff_mem.mp (List.all_eq_true.mp hall key hkey)

end Component

end ComponentKit
