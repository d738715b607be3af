import ComponentKit.Project.Layout
import ComponentKit.Settings.Basic

/-!
# What a run looks at

The files and directories of a project that a run may look at (`reach`), and the places that are passed on the way
to them (`waypoints`).
-/

namespace ComponentKit.Project

/-- The locations on the way along a path, the last one being where the path leads. -/
def waypoints (home : Location) (path : Path) : List Location :=
  let start := if path.start = .relative then home else []
  (List.range (start.length + 1)).map start.take
    ++ (List.range (path.segments.length + 1)).map fun count =>
      Path.resolve home ⟨path.start, path.segments.take count⟩

/-- The files and directories of a project that a run may look at, the ones of `requiredFiles` among them. -/
def reach (settings : Settings) (project : Path) : List Path :=
  let sourceRoot := settings.sourceRoot project
  settings.manifestPath project :: settings.backupRoot project
    :: (Kind.all.map (directory sourceRoot) ++ requiredFiles.map sourceRoot.join)

end ComponentKit.Project
