import ComponentKit.CommandLine.Run
import ComponentKit.Project.Reach
import Std.Time.DateTime

/-!
# The program

Loads what a run may look at into a disk (`loadFor`), runs the command there, and carries the changes over to the
files of the machine (`storeChanges`).
-/

namespace ComponentKit.CommandLine

/-! ## Loading -/

/-- The text of a location for the machine. -/
def machinePath (place : Location) : String :=
  String.ofList (Path.ofLocation place).toText

/-- What stands at a location of the machine. -/
def loadEntry (place : Location) : IO (Option Entry) := do
  let path := (← IO.currentDir) / machinePath place
  if !(← path.pathExists) then return none
  if ← path.isDir then return some .directory
  return some (.file (← IO.FS.readBinFile (machinePath place)).toList)

/-- The disk with what stands at a location of the machine. -/
def loadPlace (disk : Disk) (place : Location) : IO Disk := do
  match ← loadEntry place with
  | some entry => return if place.isEmpty then disk else disk.put place entry
  | none => return disk

/-- The disk with the names in a directory of the machine. The files among them are not read. -/
def loadNames (disk : Disk) (place : Location) : IO Disk := do
  let path := (← IO.currentDir) / machinePath place
  if !(← path.isDir) then return disk
  (← path.readDir).foldlM (fun disk item => do
    let entry := if ← item.path.isDir then Entry.directory else .file []
    return disk.put (place ++ [item.fileName.toList]) entry) disk

/-- The disk with what stands along a path of the machine and in the directory that it leads to. -/
def loadPath (home : Location) (disk : Disk) (path : Path) : IO Disk := do
  let disk ← loadNames disk (path.resolve home)
  (Project.waypoints home path).foldlM loadPlace disk

/-! ## Storing -/

/-- Makes a changed entry on the machine. -/
def storeEntry (place : Location) : Entry → IO Unit
  | .directory => IO.FS.createDirAll (machinePath place)
  | .file content => IO.FS.writeBinFile (machinePath place) ⟨content.toArray⟩

/-- Carries the changes of a run over to the machine, the outer directories first. -/
def storeChanges (before after : Disk) : IO Unit := do
  let changed := after.entries.filter fun (place, entry) => before.entryAt? place != some entry
  let ordered := changed.mergeSort fun a b => a.1.length ≤ b.1.length
  ordered.forM fun (place, entry) => storeEntry place entry

/-! ## The surroundings -/

/-- The time on the clock of the machine. -/
def currentInstant : IO Instant := do
  let time := Std.Time.DateTime.ofTimestampWithZone (← Std.Time.Timestamp.now) .UTC
  return ⟨time.year.toInt.toNat, time.month.val.toNat, time.day.val.toNat, time.hour.val.toNat,
    time.minute.val.toNat, time.second.val.toNat, time.nanosecond.val.toNat / 1000⟩

/-- The variables of the environment that the settings depend on. -/
def currentEnvironment : IO Environment := do
  let bindings ← Settings.variableNames.mapM fun name => do
    return (← IO.getEnv (String.ofList name)).map fun value => (name, value.toList)
  return bindings.filterMap id

/-- The disk that a command needs. -/
def loadFor (environment : Environment) (home : Location) (now : Instant) (command : Command) :
    IO Disk := do
  let shared := command.shared
  let disk ← if shared.settingsFile.isEmpty then pure Disk.empty
    else loadPath home .empty (Path.ofText shared.settingsFile)
  let session := Session.start disk home now false .none
  match ((settingsFor environment shared none).run session).1 with
  | .error _ => return disk
  | .ok settings =>
    (Project.reach settings (Path.ofText shared.path)).foldlM (loadPath home) disk

/-- Shows how a run ended, and returns its exit status. -/
def showEnding : Ending → IO UInt32
  | .finished status => return status.toUInt32
  | .refused refusal => do
    IO.eprintln (String.ofList refusal.message)
    return refusal.status.toUInt32
  | .crashed crash => do
    IO.eprintln (String.ofList crash.message)
    return 1

end ComponentKit.CommandLine

open ComponentKit ComponentKit.CommandLine

/-- Runs the program. -/
def main (arguments : List String) : IO UInt32 := do
  let line := arguments.map String.toList
  let environment ← currentEnvironment
  let now ← currentInstant
  let home := (Path.ofText (← IO.currentDir).toString).segments
  let disk ← match Command.ofLine line with
    | .ok command => loadFor environment home now command
    | .error _ => pure Disk.empty
  let (ending, session) := run line environment (Session.start disk home now false .none)
  storeChanges disk session.disk
  IO.print (String.ofList session.screen)
  showEnding ending
