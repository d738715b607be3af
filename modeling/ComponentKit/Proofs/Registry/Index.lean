import ComponentKit.Proofs.Registry.Export
import ComponentKit.Proofs.Registry.Insertion

/-!
# Exports in an index

What the exports of components do to the text of an index, one after another. `hasExport` finds an export exactly
if its class stands in the index as a whole identifier (`StandsIn`). Otherwise it goes behind everything but the
blanks at the end, on a line of its own, so that many of them are appended in their order.
-/

namespace ComponentKit.Registry

open Text Source Component

variable {kind : IndexedKind} {index line : Text}

/-- The export of a component with an accepted name, as it is made for the index of its kind. -/
structure NewExport (kind : IndexedKind) where
  /-- The name of the component. -/
  name : Text
  /-- The name is accepted. -/
  accepted : ∃ maxLength normalized, Name.validate name kind.toKind maxLength = .ok normalized
  /-- The line that exports the component. -/
  line : Text
  /-- The line is made for the name. -/
  exports : Exports kind.toKind name line

namespace NewExport

variable (fresh : NewExport kind)

/-- The class that is exported. -/
def type : Text :=
  typeName kind.toKind fresh.name

theorem isClassName_type : IsClassName fresh.type := by
  obtain ⟨maxLength, normalized, h⟩ := fresh.accepted
  exact isClassName_typeName h

theorem line_eq : fresh.line = exportStatement fresh.type (moduleName kind.toKind fresh.name) :=
  fresh.exports.eq_exportStatement

/-- An export is there if its class stands in the index. -/
theorem hasExport_line (index : Text) : hasExport index fresh.line = true ↔ StandsIn fresh.type index := by
  rw [fresh.line_eq, hasExport_exportStatement fresh.isClassName_type,
    mentions_iff fresh.isClassName_type.isIdentifier.1]

/-- An index to which an export was appended has the classes that it had, and the exported one. -/
theorem standsIn_appendExport (other : NewExport kind) (index : Text) :
    StandsIn other.type (appendExport index fresh.line)
      ↔ StandsIn other.type index ∨ other.type = fresh.type := by
  obtain ⟨hne, -⟩ := other.isClassName_type.isIdentifier
  obtain ⟨maxLength, normalized, h⟩ := fresh.accepted
  rw [← mentions_iff hne, ← mentions_iff hne, fresh.line_eq]
  exact mentions_appendExport other.isClassName_type fresh.isClassName_type
    (fun c => isKeyCharacter_of_mem_moduleName h) index

theorem return_notMem_line : '\r' ∉ fresh.line := by
  obtain ⟨maxLength, normalized, h⟩ := fresh.accepted
  have hclass : '\r' ∉ fresh.type := not_mem_of_isAscii fresh.isClassName_type.1 (by rfl)
  have hmodule : '\r' ∉ moduleName kind.toKind fresh.name := fun hc => by
    have := isKeyCharacter_of_mem_moduleName h hc
    revert this
    decide
  rw [fresh.line_eq, exportStatement]
  simp [concat, hclass, hmodule]

theorem getLast?_line : fresh.line.getLast? = some ';' := by
  have hsplit : exportStatement fresh.type (moduleName kind.toKind fresh.name)
      = concat ["export \x7b ", fresh.type, " \x7d from './", moduleName kind.toKind fresh.name]
        ++ ".js';".toList := by
    simp [exportStatement, concat]
  rw [fresh.line_eq, hsplit, List.getLast?_append]
  rfl

/-- The export follows what the index holds, on a line of its own. -/
theorem appendExport_line (hindex : '\r' ∉ index) :
    appendExport index fresh.line = trimEnd index ++ '\n' :: fresh.line ++ ['\n'] := by
  simp [appendExport, lineBreak_of_notMem hindex]

theorem return_notMem_appendExport (hindex : '\r' ∉ index) : '\r' ∉ appendExport index fresh.line := by
  have hcontent : '\r' ∉ trimEnd index := mt mem_of_mem_trimEnd hindex
  rw [fresh.appendExport_line hindex]
  simp [hcontent, fresh.return_notMem_line]

theorem trimEnd_appendExport (hindex : '\r' ∉ index) :
    trimEnd (appendExport index fresh.line) = trimEnd index ++ '\n' :: fresh.line := by
  have hlast : (trimEnd index ++ '\n' :: fresh.line).getLast? = some ';' := by
    rw [List.getLast?_append, List.getLast?_cons, fresh.getLast?_line]
    rfl
  rw [fresh.appendExport_line hindex]
  exact trimEnd_append_of_blank (by rw [hlast]; decide) (by simp [isBlank])

end NewExport

/-! ## Many exports -/

/-- An index with lines of their own at its end, in front of which its blanks are gone, as `appendExport` leaves it.
-/
def withLines (index : Text) : List Text → Text
  | [] => index
  | lines => trimEnd index ++ lines.flatMap ('\n' :: ·) ++ ['\n']

theorem withLines_appendExport (first : NewExport kind) (hindex : '\r' ∉ index) (lines : List Text) :
    withLines (appendExport index first.line) lines = withLines index (first.line :: lines) := by
  cases lines with
  | nil => simp [withLines, first.appendExport_line hindex]
  | cons line lines => simp [withLines, first.trimEnd_appendExport hindex]

end ComponentKit.Registry
