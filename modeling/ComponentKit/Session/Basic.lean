import ComponentKit.Instant
import ComponentKit.Session.Failure
import ComponentKit.Session.Report
import ComponentKit.Text.Line

/-!
# Sessions

What a run works on, a `Session`: the disk and the place on it where the run was started, the time, the messages so
far and the screen. The operations on files stand here, each a `Step` with the failures it may end in; a device may
also refuse a write or a copy by its number (`Outage`).
-/

namespace ComponentKit

/-- Which writes and copies of a run the device refuses, counted from one. -/
structure Outage where
  /-- Whether a write is refused. -/
  write : Nat → Bool
  /-- Whether a copy is refused. -/
  copy : Nat → Bool

/-- A device that refuses nothing. -/
def Outage.none : Outage := ⟨fun _ => false, fun _ => false⟩

/-- The state of a run. -/
structure Session where
  /-- Files and directories. -/
  disk : Disk
  /-- The working directory. -/
  home : Location
  /-- The time. -/
  now : Instant
  /-- Whether details are shown. -/
  verbose : Bool
  /-- What the device refuses. -/
  outage : Outage
  /-- How many lists and objects within each other the reader of manifests follows. -/
  nesting : Nat
  /-- How many writes there were. -/
  writes : Nat
  /-- How many copies there were. -/
  copies : Nat
  /-- The messages so far. -/
  messages : List Message
  /-- What was printed so far. -/
  screen : Text

/-- The session at the start of a run. Of a thousand nested calls, the reader of manifests is left with all but those
through which it was called, which is its `nesting`. -/
def Session.start (disk : Disk) (home : Location) (now : Instant) (verbose : Bool)
    (outage : Outage) : Session :=
  { disk, home, now, verbose, outage, nesting := 989, writes := 0, copies := 0, messages := [], screen := [] }

/-- A step of a run, which may fail. What a step did before it failed stays. -/
abbrev Step (ε α : Type) := ExceptT ε (StateM Session) α

namespace Step

/-! ## Running and recovering -/

/-- The outcome of a step and the session after it. -/
def run {ε α : Type} (step : Step ε α) (session : Session) : Except ε α × Session :=
  StateT.run (ExceptT.run step) session

/-- The outcome of a step, be it a failure. The step itself cannot fail then. -/
def outcome {ε ε' α : Type} (step : Step ε α) : Step ε' (Except ε α) :=
  ExceptT.mk do return .ok (← ExceptT.run step)

/-- A step with its failures changed. -/
def mapFailure {ε ε' α : Type} (f : ε → ε') (step : Step ε α) : Step ε' α :=
  ExceptT.adapt f step

/-- A value that may be a failure, as a step. -/
def ofResult {ε α : Type} (value : Except ε α) : Step ε α :=
  ExceptT.mk (pure value)

/-! ## Printing -/

/-- Prints text. -/
def print {ε : Type} (text : Text) : Step ε Unit :=
  modify fun session => { session with screen := session.screen ++ text }

/-- Prints marked-up text as lines, as `draw` shows it. -/
def printMarkup {ε : Type} (draw : Text → Except ε Text) (markup : Text) : Step ε Unit := do
  print (← ofResult (Console.printed draw markup))

/-- Reports a message, which `Message.printed` puts on the screen. It counts as reported even if it cannot be shown.
-/
def report (level : Level) (text : Text) : Step Failure Unit := do
  let message : Message := ⟨level, text⟩
  modify fun session => { session with messages := session.messages ++ [message] }
  print (← ofResult ((message.printed (← get).verbose).mapError .markup))

/-! ## Files -/

/-- What an inspection of the disk finds. -/
def inspect {α : Type} (look : Disk → Location → Except Disk.Fault α) : Step Failure α := do
  let session ← get
  ofResult ((look session.disk session.home).mapError .access)

/-- A change of the disk. -/
def change (act : Disk → Location → Except Disk.Fault Disk) : Step Failure Unit := do
  let disk ← inspect act
  modify fun session => { session with disk }

/-- Where a path leads from the root on, whatever stands there. -/
def locationOf (path : Path) : Step Failure Location := do
  if path.hasNul then throw (.access .nullCharacter)
  return path.resolve (← get).home

/-- Whether a regular file stands at a path. -/
def isFile (path : Path) : Step Failure Bool :=
  inspect fun disk home => disk.isFile home path

/-- Whether a directory stands at a path. -/
def isDirectory (path : Path) : Step Failure Bool :=
  inspect fun disk home => disk.isDirectory home path

/-- Whether anything stands at a path. -/
def pathExists (path : Path) : Step Failure Bool :=
  inspect fun disk home => disk.pathExists home path

/-- The text of a file, decoded and with every line break as a line feed (`unifyLineBreaks`). -/
def readText (path : Path) : Step Failure Text := do
  let bytes ← inspect fun disk home => disk.readFile home path
  let text ← ofResult ((Utf8.decode bytes).mapError .undecodable)
  return Text.unifyLineBreaks text

/-- Makes a directory and the directories it lies in. -/
def makeDirectories (path : Path) : Step Failure Unit := do
  let session ← get
  let (result, disk) := session.disk.makeDirectories session.home path
  set { session with disk }
  ofResult (result.mapError .access)

/-- Makes a directory in `root` with a fresh name like `name`, and returns its path. -/
def makeFreshDirectory (root : Path) (name : Text) : Step Failure Path := do
  let session ← get
  let (result, disk) := session.disk.makeFreshDirectory session.home root name
  set { session with disk }
  ofResult (result.mapError .access)

/-- Writes the text of a file, after `makeDirectories` for the directory it lies in. -/
def writeText (path : Path) (text : Text) : Step Failure Unit := do
  modify fun session => { session with writes := session.writes + 1 }
  let session ← get
  if session.outage.write session.writes then throw (.outage .write session.writes)
  makeDirectories path.parent
  change fun disk home => disk.writeFile home path (Utf8.encode text)

/-- Copies a file, after `makeDirectories` for the directory that the copy lies in. -/
def copyFile (source target : Path) : Step Failure Unit := do
  makeDirectories target.parent
  modify fun session => { session with copies := session.copies + 1 }
  let session ← get
  if session.outage.copy session.copies then throw (.outage .copy session.copies)
  change fun disk home => disk.copyFile home source target

end Step

end ComponentKit
