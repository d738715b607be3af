import ComponentKit.Disk.Basic

/-!
# Access by path

Reading, writing and making directories by path, relative to a working directory. `walk` follows a path name by
name: every name but the last has to lead to a directory, and a step to the parent is taken from the directory that
was reached. A failed access is a `Fault`, which names the path and what stood in its way.
-/

namespace ComponentKit.Disk

/-! ## Faults -/

/-- What stands in the way of an access. -/
inductive Obstacle where
  | notFound
  | alreadyExists
  | notADirectory
  | isADirectory
  | nameTooLong
  deriving DecidableEq, Repr

/-- Why an access failed. -/
inductive Fault where
  /-- Something stands in the way at a path. -/
  | blocked (obstacle : Obstacle) (path : Path)
  /-- The path holds a null character. -/
  | nullCharacter
  deriving DecidableEq, Repr

namespace Obstacle

/-- The number by which operating systems know the obstacle. -/
def code : Obstacle → Nat
  | notFound => 2
  | alreadyExists => 17
  | notADirectory => 20
  | isADirectory => 21
  | nameTooLong => 36

/-- The wording of an obstacle. -/
def message : Obstacle → Text
  | notFound => "No such file or directory"
  | alreadyExists => "File exists"
  | notADirectory => "Not a directory"
  | isADirectory => "Is a directory"
  | nameTooLong => "File name too long"

end Obstacle

/-- The message for a failed access. -/
def Fault.message : Fault → Text
  | .blocked obstacle path =>
    Text.concat ["[Errno ", Text.ofNat obstacle.code, "] ", obstacle.message, ": ",
      Text.quoted path.toText]
  | .nullCharacter => "embedded null byte"

/-! ## Following a path -/

/-- The greatest number of bytes in a name. -/
def maxNameBytes : Nat := 255

/-- The greatest number of bytes in a path as it is given, whatever it leads to. -/
def maxPathBytes : Nat := 4095

/-- Whether a path has more than `maxPathBytes`, so that it cannot be followed. -/
def isOverlong (path : Path) : Bool :=
  maxPathBytes < (Utf8.encode path.toText).length

/-- The location that the names lead to from `place`. It need not exist, but lies in a directory. -/
def walk (disk : Disk) (place : Location) : List Text → Except Obstacle Location
  | [] => .ok place
  | segment :: rest =>
    match disk.entryAt? place with
    | none => .error .notFound
    | some (.file _) => .error .notADirectory
    | some .directory =>
      if segment = Path.parentStep then walk disk place.dropLast rest
      else if maxNameBytes < (Utf8.encode segment).length then .error .nameTooLong
      else walk disk (place ++ [segment]) rest

/-- The location that a path leads to from the working directory `home`. -/
def locate (disk : Disk) (home : Location) (path : Path) : Except Fault Location :=
  if path.hasNul then .error .nullCharacter
  else if isOverlong path then .error (.blocked .nameTooLong path)
  else match walk disk (if path.start = .relative then home else []) path.segments with
    | .ok place => .ok place
    | .error obstacle => .error (.blocked obstacle path)

/-- What stands at a path, if anything. A path through something that is not a directory, or with a null character,
leads to nothing; only a path that `isOverlong` and an overlong name are a failure. -/
def look (disk : Disk) (home : Location) (path : Path) : Except Fault (Option Entry) :=
  match locate disk home path with
  | .ok place => .ok (disk.entryAt? place)
  | .error (.blocked .nameTooLong p) => .error (.blocked .nameTooLong p)
  | .error _ => .ok none

/-- Whether anything stands at a path. -/
def pathExists (disk : Disk) (home : Location) (path : Path) : Except Fault Bool :=
  (·.isSome) <$> look disk home path

/-- Whether a regular file stands at a path. -/
def isFile (disk : Disk) (home : Location) (path : Path) : Except Fault Bool := do
  match ← look disk home path with
  | some (.file _) => return true
  | _ => return false

/-- Whether a directory stands at a path. -/
def isDirectory (disk : Disk) (home : Location) (path : Path) : Except Fault Bool := do
  match ← look disk home path with
  | some .directory => return true
  | _ => return false

/-! ## Reading -/

/-- The content of the file at a path. -/
def readFile (disk : Disk) (home : Location) (path : Path) : Except Fault Bytes := do
  match disk.entryAt? (← locate disk home path) with
  | some (.file content) => return content
  | some .directory => throw (.blocked .isADirectory path)
  | none => throw (.blocked .notFound path)

/-- The names in the directory at a path. -/
def readDirectory (disk : Disk) (home : Location) (path : Path) : Except Fault (List Text) := do
  let place ← locate disk home path
  match disk.entryAt? place with
  | some .directory => return disk.names place
  | some (.file _) => throw (.blocked .notADirectory path)
  | none => throw (.blocked .notFound path)

/-! ## Changing -/

/-- The disk after a file was written; the directory of the file has to exist. -/
def writeFile (disk : Disk) (home : Location) (path : Path) (content : Bytes) :
    Except Fault Disk := do
  let place ← locate disk home path
  match disk.entryAt? place with
  | some .directory => throw (.blocked .isADirectory path)
  | _ => return disk.put place (.file content)

/-- The disk after a directory was made; its own directory has to exist, and nothing stand there. -/
def makeDirectory (disk : Disk) (home : Location) (path : Path) : Except Fault Disk := do
  let place ← locate disk home path
  match disk.entryAt? place with
  | some _ => throw (.blocked .alreadyExists path)
  | none => return disk.put place .directory

/-- The outcome of `makeDirectory` where a directory that is there already will do. -/
def settle (disk : Disk) (home : Location) (path : Path) :
    Except Fault Disk → Except Fault Unit × Disk
  | .ok changed => (.ok (), changed)
  | .error fault =>
    match fault, isDirectory disk home path with
    | .blocked _ _, .ok true => (.ok (), disk)
    | _, _ => (.error fault, disk)

/-- Makes the directory with the given names, last name first, and the directories it lies in. The
directory itself is tried before the ones around it, which decides the path that a failure names.
What was made before a failure stays. -/
def makeDirectoriesUp (home : Location) (start : Path.Start) :
    List Text → Disk → Except Fault Unit × Disk
  | [], disk =>
    settle disk home ⟨start, []⟩ (makeDirectory disk home ⟨start, []⟩)
  | name :: outer, disk =>
    let path : Path := ⟨start, (name :: outer).reverse⟩
    match makeDirectory disk home path with
    | .error (.blocked .notFound _) =>
      match makeDirectoriesUp home start outer disk with
      | (.error fault, changed) => (.error fault, changed)
      | (.ok (), changed) => settle changed home path (makeDirectory changed home path)
    | outcome => settle disk home path outcome

/-- Makes a directory and the directories it lies in, as far as they are missing, by `makeDirectoriesUp`. -/
def makeDirectories (disk : Disk) (home : Location) (path : Path) : Except Fault Unit × Disk :=
  makeDirectoriesUp home path.start path.segments.reverse disk

/-- The disk after a file was copied byte for byte. A copy onto a directory goes into it under the
name of the file. -/
def copyFile (disk : Disk) (home : Location) (source target : Path) : Except Fault Disk := do
  let target := match isDirectory disk home target with
    | .ok true => target.child source.name
    | _ => target
  writeFile disk home target (← readFile disk home source)

/-! ## Fresh names -/

/-- The candidates for a fresh name: `name` itself, then the name with a running number. -/
def numberedName (name : Text) (k : Nat) : Text :=
  if k = 0 then name else name ++ '-' :: Text.ofNat k

/-- Where in `root` the candidate with a number stands. -/
def candidate (root : Path) (name : Text) (k : Nat) : Path :=
  root.join (numberedName name k)

/-- Whether `makeDirectory` fails as something stands there. -/
def isTaken (disk : Disk) (home : Location) (path : Path) : Bool :=
  match makeDirectory disk home path with
  | .error (.blocked .alreadyExists _) => true
  | _ => false

/-- Makes a directory, and returns its path. -/
def tryDirectory (disk : Disk) (home : Location) (path : Path) : Except Fault Path × Disk :=
  match makeDirectory disk home path with
  | .ok changed => (.ok path, changed)
  | .error fault => (.error fault, disk)

/-- Makes a directory in `root` under the first candidate for `name` that is not taken. Numbered
candidates that are taken are entries of the disk, so one of as many as there are entries, and one more,
is not. -/
def makeFreshDirectory (disk : Disk) (home : Location) (root : Path) (name : Text) :
    Except Fault Path × Disk :=
  match makeDirectories disk home root with
  | (.error fault, disk) => (.error fault, disk)
  | (.ok (), disk) =>
    let free (k : Nat) : Bool := !isTaken disk home (candidate root name k)
    tryDirectory disk home
      (candidate root name (((List.range (disk.entries.length + 2)).find? free).getD 0))

end ComponentKit.Disk
