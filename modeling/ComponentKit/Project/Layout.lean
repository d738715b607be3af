import ComponentKit.Component.Identity
import ComponentKit.Path

/-!
# The layout of a project

Where the files of a project stand under its source root: a component (`componentPath`), an index (`indexPath`), a
registry (`registryPath`), and the `requiredFiles`.
-/

namespace ComponentKit.Project

/-- The directory of a kind. -/
def directory (sourceRoot : Path) (kind : Kind) : Path :=
  sourceRoot.join kind.conventions.directory

/-- The file of a component. -/
def componentPath (sourceRoot : Path) (kind : Kind) (name : Text) : Path :=
  (directory sourceRoot kind).join (Component.fileName kind name)

/-- The index file of a kind, if it has one. -/
def indexPath (sourceRoot : Path) (kind : Kind) : Path :=
  (directory sourceRoot kind).join indexFileName

/-- The registry of an indexed kind, which is its index file. -/
def registryPath (sourceRoot : Path) (kind : IndexedKind) : Path :=
  indexPath sourceRoot kind.toKind

/-- The files that every project has under its source root. -/
def requiredFiles : List Text :=
  "server.ts".toList :: "core/mcp-server.ts".toList
    :: (Kind.all.filter (·.conventions.hasIndex)).map fun kind =>
      Text.concat [kind.conventions.directory, "/", indexFileName]

end ComponentKit.Project
