import ComponentKit.Source.Word
import ComponentKit.Text.Line

/-!
# Exports of an index

An index file re-exports the components of its kind. `hasExport` says whether the exported name stands in the file
already, as a whole identifier; where it does not, `appendExport` adds the export.
-/

namespace ComponentKit.Registry

open Text Source

/-- The names between the braces of an export that starts here, without the blanks around them. -/
def exportedHere? (text : Text) : Option Text := do
  let rest ← dropLead? "export" text
  let rest ← dropLead? "\x7b" (rest.dropWhile isBlank)
  let content := rest.takeWhile (· != '\x7d')
  if content.isEmpty || content.length = rest.length then none else some (trim content)

/-- The names in the braces of the first export of a text, empty if there is none. -/
def exportedName : Text → Text
  | [] => []
  | c :: rest =>
    match exportedHere? (c :: rest) with
    | some name => name
    | none => exportedName rest

/-- Whether the `exportedName` of a fragment is mentioned in the text of an index. -/
def hasExport (text fragment : Text) : Bool :=
  let name := exportedName fragment
  !name.isEmpty && mentions name text

/-- The text of an index with `fragment` on a line of its own at the end. -/
def appendExport (text fragment : Text) : Text :=
  let newline := lineBreak text
  trimEnd text ++ newline ++ fragment ++ newline

end ComponentKit.Registry
