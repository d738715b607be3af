import ComponentKit.Project.Detection

/-!
# Listing components

`list` gives the components of a project by kind, read off the names of their files (`modulesOf`).
-/

namespace ComponentKit.Workflow

open Step

/-- The components of a project. -/
structure Listing where
  /-- The name of the project. -/
  projectName : Text
  /-- The names of the modules of each kind that has a directory. -/
  components : List (Kind × List Text)
  deriving DecidableEq, Repr

/-- The module in a file, if it is a source file other than the index. -/
def moduleOfFile? (file : Text) : Option Text :=
  if Text.endsWith file sourceExtension && file != indexFileName then
    some (file.take (file.length - sourceExtension.length))
  else none

/-- Whether a name stands in front of another one, or is the same. Names are compared by code points,
and a name stands in front of every longer name that it begins. -/
def notAfter : Text → Text → Bool
  | [], _ => true
  | _ :: _, [] => false
  | a :: first, b :: second => a.toNat < b.toNat || (a == b && notAfter first second)

/-- The modules in files, each by `moduleOfFile?`, in the order of `notAfter`. -/
def modulesOf (files : List Text) : List Text :=
  (files.filterMap moduleOfFile?).mergeSort notAfter

/-- The components of the kinds whose directories exist, by `modulesOf` what is in them. -/
def componentsOf (sourceRoot : Path) : List Kind → Step Failure (List (Kind × List Text))
  | [] => return []
  | kind :: kinds => do
    let directory := Project.directory sourceRoot kind
    if ← isDirectory directory then
      let files ← inspect fun disk home => disk.readDirectory home directory
      return (kind, modulesOf files) :: (← componentsOf sourceRoot kinds)
    else componentsOf sourceRoot kinds

/-- The components of the project that `detect` finds in a directory, if there is one. -/
def list (settings : Settings) (path : Path) : Step Failure (Option Listing) := do
  let project ← Project.detect settings path
  if !project.isValid then return none
  return some ⟨project.name, ← componentsOf project.sourceRoot Kind.all⟩

end ComponentKit.Workflow
