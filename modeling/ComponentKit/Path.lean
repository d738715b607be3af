import ComponentKit.Text.Basic

/-!
# Paths

A `Path` as a program writes it: where it starts and the names on the way. Dots that stay in place and repeated
slashes vanish when a path is read; a `parentStep` stays, as it means something only on a disk. A `Location` is
where a path leads: the names from the root of the disk down.
-/

namespace ComponentKit

/-- The names from the root of the disk down to a file or directory. -/
abbrev Location := List Text

/-- Where a path starts. -/
inductive Path.Start where
  /-- At the working directory. -/
  | relative
  /-- At the root, written as one slash. -/
  | root
  /-- At the root, written as two slashes, which is kept apart from one. -/
  | doubleRoot
  deriving DecidableEq, Repr

/-- A path in the form in which it is shown. -/
structure Path where
  /-- Where the path starts. -/
  start : Path.Start
  /-- The names on the way, none of them empty or a single dot. -/
  segments : List Text
  deriving DecidableEq, Repr

namespace Path

/-- The step to the parent directory. -/
def parentStep : Text := ".."

/-- The names between slashes, without empty ones and single dots. -/
def segmentsOf (text : Text) : List Text :=
  (Text.splitOn '/' text).filter fun segment => !segment.isEmpty && segment != ['.']

/-- Reads a path. -/
def ofText (text : Text) : Path :=
  let start := match text with
    | '/' :: '/' :: '/' :: _ => Start.root
    | '/' :: '/' :: _ => .doubleRoot
    | '/' :: _ => .root
    | _ => .relative
  ⟨start, segmentsOf text⟩

namespace Start

/-- What a path that starts here begins with. -/
def toText : Start → Text
  | relative => []
  | root => "/"
  | doubleRoot => "//"

end Start

/-- The path as it is shown; the empty path is a dot. -/
def toText (path : Path) : Text :=
  if path.start = .relative && path.segments.isEmpty then "."
  else path.start.toText ++ Text.join "/" path.segments

/-- The path that leads on from `base` along `tail`; a tail that starts at the root stands alone. -/
def append (base tail : Path) : Path :=
  if tail.start = .relative then ⟨base.start, base.segments ++ tail.segments⟩ else tail

/-- The path that leads on from `base` along the path read from a text. -/
def join (base : Path) (tail : Text) : Path :=
  base.append (ofText tail)

/-- The path to a name directly under a directory. -/
def child (base : Path) (name : Text) : Path :=
  ⟨base.start, base.segments ++ [name]⟩

/-- The path without its last name; one without names is its own parent. -/
def parent (path : Path) : Path :=
  ⟨path.start, path.segments.dropLast⟩

/-- The last name of a path, empty when it has none. -/
def name (path : Path) : Text :=
  path.segments.getLastD []

/-- The part of a path below `base`, when the path starts with it. -/
def relativeTo? (path base : Path) : Option Path :=
  if path.start = base.start && base.segments.isPrefixOf path.segments then
    some ⟨.relative, path.segments.drop base.segments.length⟩
  else none

/-- Whether the path holds a null character, which no file name can. -/
def hasNul (path : Path) : Bool :=
  path.segments.any (·.contains '\x00')

/-- Where the path leads from `home` when steps to a parent are taken on the names alone. -/
def resolve (home : Location) (path : Path) : Location :=
  path.segments.foldl
    (fun place segment => if segment = parentStep then place.dropLast else place ++ [segment])
    (if path.start = .relative then home else [])

/-- The path from the root to a location. -/
def ofLocation (place : Location) : Path :=
  ⟨.root, place⟩

end Path

end ComponentKit
