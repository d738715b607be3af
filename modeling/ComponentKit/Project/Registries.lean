import ComponentKit.Project.Detection
import ComponentKit.Registry.Export
import ComponentKit.Registry.Patch

/-!
# Registries of a project

`apply` and `applyAll` patch the registry files of a project, and `updateIndex` adds exports to its index files.
What a patch has done is told by a `PatchReport`.
-/

namespace ComponentKit

/-- What a patch did to a registry file. -/
structure PatchReport where
  /-- The kind of the registry. -/
  kind : IndexedKind
  /-- The registry. -/
  path : Path
  /-- Whether the import was added. -/
  importAdded : Bool
  /-- Whether the registration was added. -/
  registrationAdded : Bool
  /-- What was left out. -/
  warnings : List Registry.Warning
  deriving DecidableEq, Repr

/-- Whether anything was added. -/
def PatchReport.changed (patchReport : PatchReport) : Bool :=
  patchReport.importAdded || patchReport.registrationAdded

namespace Project

open Step Text

/-! ## Registries -/

/-- Reads a text file; a failure of the file or its encoding becomes the cause of another one. -/
def readExplained (wrap : Failure → Failure) (path : Path) : Step Failure Text :=
  (readText path).mapFailure fun failure =>
    match failure with
    | .undecodable _ => wrap failure
    | _ => if failure.isFileFault then wrap failure else failure

/-- Writes a text file; a failure of the file becomes the cause of another one. -/
def writeExplained (wrap : Failure → Failure) (path : Path) (text : Text) : Step Failure Unit :=
  (writeText path text).mapFailure fun failure =>
    if failure.isFileFault then wrap failure else failure

/-- Reports what a patch did to the text of a registry. -/
def reportPatch (path : Path) (update : Registry.Update) (patch : Registry.Patch) :
    Step Failure Unit := do
  if patch.importAdded then
    report .debug (concat ["Added import to ", path.name, ": ", update.importLine])
  else
    report .debug (concat ["Import already present in ", path.name])
  if patch.registrationAdded then
    report .debug (concat ["Added registration: ", update.registrationLine])
  patch.warnings.forM fun warning =>
    report .warning (concat [update.kind.name, " registry: ", warning.message])

/-- Applies an update to the registry of its kind by `Registry.patch`. The file is written only if its text changes.
-/
def apply (settings : Settings) (project : Project) (update : Registry.Update) :
    Step Failure PatchReport := do
  let kind := update.kind
  let path := registryPath project.sourceRoot kind
  if !(← isFile path) then throw (.registryMissing kind path)
  let current ← readExplained (.registryUnreadable kind path) path
  let patch := Registry.patch settings.registryStyle current update
  reportPatch path update patch
  if patch.text ≠ current then
    writeExplained (.registryUnwritable kind path) path patch.text
    report .success (concat ["Updated ", kind.name, " registry: ", path.toText])
  else
    report .info (concat [capitalize kind.name, " registry already up to date: ", path.toText])
  return ⟨kind, path, patch.importAdded, patch.registrationAdded, patch.warnings⟩

/-- Applies updates one after another by `apply`, up to the first that fails. -/
def applyAll (settings : Settings) (project : Project) :
    List Registry.Update → Step Failure (List PatchReport)
  | [] => return []
  | update :: updates => do
    match ← outcome (apply settings project update) with
    | .ok done => return done :: (← applyAll settings project updates)
    | .error failure =>
      if failure.isRegistryFault then
        report .error
          (concat ["Failed to update ", update.kind.name, " registry: ", failure.message])
      throw failure

/-! ## Indexes -/

/-- Appends a fragment to the index of a kind by `appendExport`, unless the kind has none or the index exports the
same name already. Returns whether the index was changed. -/
def updateIndex (project : Project) (kind : Kind) (fragment : Text) : Step Failure Bool := do
  if !kind.conventions.hasIndex || fragment.isEmpty then
    report .debug (concat ["Skipping index update for ", kind.name, " (no index file needed)"])
    return false
  let path := indexPath project.sourceRoot kind
  if !(← isFile path) then throw (.indexMissing path)
  let current ← readExplained (.indexUnreadable path) path
  if Registry.hasExport current fragment then
    report .warning (concat ["Export for ", Registry.exportedName fragment,
      " already exists in ", path.toText])
    return false
  writeExplained (.indexUnwritable path) path (Registry.appendExport current fragment)
  report .success (concat ["Updated index file: ", path.toText])
  return true

end Project

end ComponentKit
