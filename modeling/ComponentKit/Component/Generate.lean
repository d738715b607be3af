import ComponentKit.Component.Identity
import ComponentKit.Component.Source
import ComponentKit.Instant
import ComponentKit.Registry.Update

/-!
# Generating a component

`generateFrom` makes the source text of a new component, and its `Wiring`: the lines that make it known in the
index and the registry of its kind. What the templates take is the `context` of its `Details`.
-/

namespace ComponentKit.Component

/-! ## Details -/

/-- What a user may say about a component. -/
structure Details where
  /-- What the component does. -/
  description : Text
  /-- Who made the component. -/
  author : Text
  /-- The project that the component is made for. -/
  projectName : Text
  deriving DecidableEq, Repr

open Record in
/-- The details that a record gives. -/
def Details.ofMembers (members : List (Text × Json)) : Except (List Fault) Details :=
  Checked.toExcept <|
    Details.mk
    <$> field members "description" text (some [])
    <*> field members "author" text (some [])
    <*> field members "project_name" text (some [])

/-- The project in the form of a key, as `kebab` gives it: the slash of a scoped name separates words, its sign is
left out. -/
def projectSlug (projectName : Text) : Text :=
  let slug := Name.kebab (Text.replaceChar '@' [] (Text.replaceChar '/' " " projectName))
  if slug.isEmpty then "mcp" else slug

/-- The description of a component, for which there is always one. -/
def describe (kind : Kind) (name : Text) (description : Text) : Text :=
  if description.isEmpty then
    Text.concat ["Custom ", kind.name, " for ", registryKey name, " functionality"]
  else description

/-- The values of the placeholders of a component, from its `Details` and the name of its project. -/
def context (kind : Kind) (name : Text) (details : Details) (created : Text) : Template.Context := [
  ("kind", kind.name),
  ("name", registryKey name),
  ("type_name", typeName kind name),
  ("instance_name", instanceName kind name),
  ("registry_key", registryKey name),
  ("module", moduleName kind name),
  ("collection", kind.conventions.directory),
  ("description", describe kind name details.description),
  ("author", details.author),
  ("project_name", details.projectName),
  ("project_slug", projectSlug details.projectName),
  ("created", created)]

/-! ## Lines -/

/-- The statement that imports a component in its registry. -/
def importTemplate : Template :=
  ["import \x7b ", typeSlot, " \x7d from './", moduleSlot, ".js';"]

/-- The statement that exports a component from its index. -/
def exportTemplate : Template :=
  ["export \x7b ", typeSlot, " \x7d from './", moduleSlot, ".js';"]

/-- The statement that registers a component. -/
def registrationTemplate : Template :=
  ["this.", collectionSlot, ".set('", keySlot, "', new ", typeSlot, "());"]

/-- The statement that starts a component. -/
def initializationTemplate : Template :=
  ["this.", collectionSlot, ".get('", keySlot, "')?.initialize?.();"]

/-! ## Components -/

/-- How a component is made known to the rest of a project. -/
structure Wiring where
  /-- The line for the index. -/
  exportLine : Text
  /-- The lines for the registry. -/
  update : Registry.Update
  deriving DecidableEq, Repr

/-- A component that is ready to be written. -/
structure Generated where
  /-- The kind of the component. -/
  kind : Kind
  /-- The source text. -/
  content : Text
  /-- The lines for index and registry, for a kind that has them. -/
  wiring : Option Wiring
  deriving DecidableEq, Repr

/-- The component with a source text, and with the `Wiring` that the values of its placeholders give. -/
def wire (kind : Kind) (context : Template.Context) (content : Text) : Except Template.Fault Generated := do
  match IndexedKind.ofKind? kind with
  | none => return ⟨kind, content, none⟩
  | some indexed =>
    let exportLine ← exportTemplate.render context
    let importLine ← importTemplate.render context
    let registrationLine ← registrationTemplate.render context
    let initializationLine ← initializationTemplate.render context
    return ⟨kind, content, some ⟨exportLine,
      ⟨indexed, importLine, registrationLine, initializationLine⟩⟩⟩

/-- Generates a component from `source`, the template of its source text. -/
def generateFrom (source : Template) (kind : Kind) (name : Text) (details : Details)
    (created : Text) : Except Template.Fault Generated := do
  let context := context kind name details created
  wire kind context (← source.render context)

end ComponentKit.Component
