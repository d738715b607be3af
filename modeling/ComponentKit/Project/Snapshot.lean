import ComponentKit.Project.Detection

/-!
# Snapshots

A `Snapshot` has copies of the registries of a project in a fresh directory of their own: `take` makes them, and
`restore` copies them back. Snapshots are never removed.
-/

namespace ComponentKit

/-- One file of a snapshot. -/
structure SavedFile where
  /-- The file. -/
  path : Path
  /-- Its copy. -/
  copy : Path
  deriving DecidableEq, Repr

/-- Copies of registries as they were at one time. -/
structure Snapshot where
  /-- The name of the snapshot, which starts with the time. -/
  name : Text
  /-- The project whose registries were saved. -/
  project : Path
  /-- The directory of the snapshot. -/
  directory : Path
  /-- What was saved. -/
  files : List SavedFile
  deriving DecidableEq, Repr

namespace Snapshot

open Step

/-- The files that a snapshot covers, which are the registries at their `registryPath`. -/
def tracked (sourceRoot : Path) : List Path :=
  IndexedKind.all.map (Project.registryPath sourceRoot)

/-- The path of a file below its source root. -/
def below (sourceRoot path : Path) : Path :=
  (path.relativeTo? sourceRoot).getD path

/-- A step whose failure, if a file is to blame, becomes the cause of another one. -/
def explain {α : Type} (wrap : Failure → Failure) (step : Step Failure α) : Step Failure α :=
  step.mapFailure fun failure => if failure.isFileFault then wrap failure else failure

/-- Copies the `tracked` files that exist into the directory of a snapshot. -/
def saveAll (sourceRoot directory : Path) : List Path → Step Failure (List SavedFile)
  | [] => return []
  | path :: rest => do
    if ← isFile path then
      let relative := below sourceRoot path
      let copy := directory.append relative
      explain (.snapshotIncomplete path) (copyFile path copy)
      report .debug (Text.concat ["Backed up ", relative.toText, " -> ", copy.toText])
      return ⟨path, copy⟩ :: (← saveAll sourceRoot directory rest)
    else
      report .debug (Text.concat ["Not backed up (missing): ", path.toText])
      saveAll sourceRoot directory rest

/-- Takes a snapshot of a project: `saveAll` copies its registries into a fresh directory. Registries that do not
exist are left out. -/
def take (settings : Settings) (project : Project) : Step Failure Snapshot := do
  let root := settings.backupRoot project.path
  let directory ←
    explain (.snapshotRefused root) (makeFreshDirectory root (← get).now.stamp)
  let files ← saveAll project.sourceRoot directory (tracked project.sourceRoot)
  report .debug (Text.concat ["Created backup at: ", directory.toText])
  return ⟨directory.name, project.path, directory, files⟩

/-- Copies saved files back to where they were, and returns the paths. -/
def restoreAll : List SavedFile → Step Failure (List Path)
  | [] => return []
  | file :: rest => do
    if !(← isFile file.copy) then throw (.copyMissing file.copy)
    explain (.restoreRefused file.path) (copyFile file.copy file.path)
    report .info (Text.concat ["Restored: ", file.path.toText])
    return file.path :: (← restoreAll rest)

/-- Restores every file of a snapshot by `restoreAll`. -/
def restore (snapshot : Snapshot) : Step Failure (List Path) :=
  restoreAll snapshot.files

end Snapshot

end ComponentKit
