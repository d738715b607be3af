import ComponentKit.Project.Layout
import ComponentKit.Session.Basic
import ComponentKit.Settings.Basic

/-!
# Recognizing a project

A directory is a project when its manifest `declares` the framework, and its source root holds the `requiredFiles`.
Whatever else `detect` finds is reported and makes the directory no project, but for a manifest that is nested too
deeply for its reader.
-/

namespace ComponentKit

/-- What was found in a directory. -/
structure Project where
  /-- Whether the directory is a project. -/
  isValid : Bool
  /-- The directory. -/
  path : Path
  /-- The source root. -/
  sourceRoot : Path
  /-- The name of the project. -/
  name : Text
  /-- The manifest, if it could be read. -/
  manifest : Option Json

namespace Project

open Step

/-- A directory of which nothing is known. -/
def unknown (settings : Settings) (path : Path) : Project :=
  ⟨false, path, settings.sourceRoot path, [], none⟩

/-- A directory that is taken to be a project. -/
def assumed (settings : Settings) (path : Path) : Project :=
  { unknown settings path with isValid := true }

/-! ## The manifest -/

/-- Manifests are read leniently: half of a surrogate pair that an escape leaves is replaced, as no `Text` can hold
it. Lists and objects are followed as deeply as the reader can. -/
def manifestDialect (nesting : Nat) : Json.Dialect := ⟨some '\uFFFD', some nesting⟩

/-- How many digits an integer in a manifest may have. -/
def maxDigits : Nat := 4300

/-- The document in a text, read by the `manifestDialect` with integers of at most `maxDigits` digits. -/
def documentOf (nesting : Nat) (text : Text) : Except Json.Fault Json :=
  Json.readLimited (manifestDialect nesting) maxDigits text

/-- The document in a file. One that is not an object becomes the only member of one. -/
def readDocument (path : Path) : Step Failure Json := do
  let text ← readText path
  let document ← ofResult ((documentOf (← get).nesting text).mapError (.malformedJson text))
  return Json.asRecord document

/-- The name that a manifest gives, if it is a text that is not empty. -/
def declaredName? (manifest : Json) : Option Text :=
  match manifest.member? "name" with
  | some (.text name) => if name.isEmpty then none else some name
  | _ => none

/-- Whether a manifest declares a dependency, be it one for development. -/
def declares (manifest : Json) (dependency : Text) : Bool :=
  ["dependencies".toList, "devDependencies"].any fun group =>
    ((manifest.member? group).bind (·.member? dependency)).isSome

/-- The manifest of a directory, if there is one. -/
def readManifest (settings : Settings) (path : Path) : Step Failure (Option Json) := do
  let manifestPath := settings.manifestPath path
  if ← isFile manifestPath then return some (← readDocument manifestPath)
  report .debug (Text.concat ["No ", settings.manifestName, " in ", path.toText])
  return none

/-! ## The sources -/

/-- Whether all files stand under a source root; the first one that does not is reported. -/
def hasFiles (sourceRoot : Path) : List Text → Step Failure Bool
  | [] => return true
  | file :: files => do
    let path := sourceRoot.join file
    if ← pathExists path then hasFiles sourceRoot files
    else
      report .debug (Text.concat ["Required file missing: ", path.toText])
      return false

/-- Whether a directory with a manifest is a project: it `declares` the framework, and it `hasFiles` under a source
root. -/
def hasSources (settings : Settings) (sourceRoot : Path) (manifest : Json) :
    Step Failure Bool := do
  if !declares manifest settings.frameworkDependency then
    report .debug (Text.concat [settings.manifestName, " does not depend on ",
      settings.frameworkDependency])
    return false
  if !(← isDirectory sourceRoot) then
    report .debug (Text.concat ["Source root missing: ", sourceRoot.toText])
    return false
  hasFiles sourceRoot requiredFiles

/-! ## Detection -/

/-- The outcome of a look at a directory, where a failure of files or their content only means that the project is
`unknown`. -/
def settle {α : Type} (fallback : α) : Except Failure α → Step Failure α
  | .ok value => return value
  | .error failure => do
    if failure.isFileFault || failure.isContentFault then
      report .warning (Text.concat ["Error detecting MCP project: ", failure.message])
      return fallback
    else throw failure

/-- The name by which a directory goes: its own, after steps to a parent are taken. -/
def directoryName (path : Path) : Step Failure Text := do
  return ((← locationOf path).getLast?).getD []

/-- The name of a project: its `declaredName?`, or else its `directoryName`. -/
def nameOf (path : Path) (manifest : Json) : Step Failure Text :=
  match declaredName? manifest with
  | some name => return name
  | none => directoryName path

/-- Looks for a project in a directory: `readManifest`, `hasSources` and `nameOf` in turn. -/
def detect (settings : Settings) (path : Path) : Step Failure Project := do
  let blank := unknown settings path
  match ← settle none (← outcome (readManifest settings path)) with
  | none => return blank
  | some manifest =>
    let seen := { blank with manifest := some manifest }
    match ← settle none (← outcome (some <$> nameOf path manifest)) with
    | none => return seen
    | some name =>
      let known := { seen with name }
      let isValid ← settle false (← outcome (hasSources settings known.sourceRoot manifest))
      return { known with isValid }

/-! ## Components -/

/-- The file of a component at its `componentPath`, if anything stands there. -/
def existing? (project : Project) (kind : Kind) (name : Text) : Step Failure (Option Path) := do
  let path := componentPath project.sourceRoot kind name
  return if ← pathExists path then some path else none

end Project

end ComponentKit
