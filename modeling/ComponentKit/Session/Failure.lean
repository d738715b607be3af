import ComponentKit.Console.Markup
import ComponentKit.Disk.Access
import ComponentKit.Json.Reader
import ComponentKit.Kind
import ComponentKit.Template.Basic

/-!
# Failures

A `Failure` is anything that can go wrong in a run, by its cause.
-/

namespace ComponentKit

/-- An operation on files that a device may refuse. -/
inductive Operation where
  | write
  | copy
  deriving DecidableEq, Repr

/-- The word for an operation. -/
def Operation.name : Operation → Text
  | write => "write"
  | copy => "copy"

/-- Why a step of a run failed. -/
inductive Failure where
  /-- An access that the disk refuses. -/
  | access (fault : Disk.Fault)
  /-- An operation that the device refused, by its number in the run. -/
  | outage (operation : Operation) (number : Nat)
  /-- A file that is not text. -/
  | undecodable (fault : Utf8.Fault)
  /-- A document that is not JSON. -/
  | malformedJson (document : Text) (fault : Json.Fault)
  /-- A message that is not well marked up. -/
  | markup (fault : Console.MarkupFault)
  /-- A template that cannot be used. -/
  | template (fault : Template.Fault)
  /-- A kind that does not exist. -/
  | unknownKind (fault : UnknownWord)
  /-- A registry that is not there. -/
  | registryMissing (kind : IndexedKind) (path : Path)
  /-- A registry that cannot be read. -/
  | registryUnreadable (kind : IndexedKind) (path : Path) (cause : Failure)
  /-- A registry that cannot be written. -/
  | registryUnwritable (kind : IndexedKind) (path : Path) (cause : Failure)
  /-- An index that is not there. -/
  | indexMissing (path : Path)
  /-- An index that cannot be read. -/
  | indexUnreadable (path : Path) (cause : Failure)
  /-- An index that cannot be written. -/
  | indexUnwritable (path : Path) (cause : Failure)
  /-- No directory for a snapshot can be made. -/
  | snapshotRefused (root : Path) (cause : Failure)
  /-- A file cannot be copied into a snapshot. -/
  | snapshotIncomplete (path : Path) (cause : Failure)
  /-- A copy in a snapshot is not there. -/
  | copyMissing (path : Path)
  /-- A file cannot be restored from its copy. -/
  | restoreRefused (path : Path) (cause : Failure)
  deriving DecidableEq, Repr

namespace Failure

open Text

/-- The message for a failure. -/
def message : Failure → Text
  | access fault => fault.message
  | outage operation number =>
    concat ["injected ", operation.name, " failure ", ofNat number]
  | undecodable fault => fault.message
  | malformedJson document fault => fault.message document
  | markup fault => fault.message
  | template fault => fault.message
  | unknownKind fault => fault.message
  | registryMissing kind path =>
    concat [capitalize kind.name, " registry not found: ", path.toText]
  | registryUnreadable kind path cause =>
    concat ["Cannot read ", kind.name, " registry ", path.toText, ": ", cause.message]
  | registryUnwritable kind path cause =>
    concat ["Failed to write ", kind.name, " registry ", path.toText, ": ", cause.message]
  | indexMissing path => concat ["Index file not found: ", path.toText]
  | indexUnreadable path cause =>
    concat ["Cannot read index file ", path.toText, ": ", cause.message]
  | indexUnwritable path cause =>
    concat ["Failed to write index file ", path.toText, ": ", cause.message]
  | snapshotRefused root cause =>
    concat ["Cannot create backup directory under ", root.toText, ": ", cause.message]
  | snapshotIncomplete path cause =>
    concat ["Failed to back up ", path.toText, ": ", cause.message]
  | copyMissing path => concat ["Backup copy missing: ", path.toText]
  | restoreRefused path cause =>
    concat ["Failed to restore ", path.toText, ": ", cause.message]

/-- Whether a file or the device that holds it is to blame. -/
def isFileFault : Failure → Bool
  | access (.blocked _ _) => true
  | outage _ _ => true
  | _ => false

/-- Whether what a file or a path holds is to blame. A document that is nested too deeply is not: it exhausts its
reader instead. -/
def isContentFault : Failure → Bool
  | access .nullCharacter => true
  | undecodable _ => true
  | malformedJson _ fault => fault.defect != .tooDeep
  | unknownKind _ => true
  | _ => false

/-- Whether a registry or an index is to blame. -/
def isRegistryFault : Failure → Bool
  | registryMissing _ _ => true
  | registryUnreadable _ _ _ => true
  | registryUnwritable _ _ _ => true
  | indexMissing _ => true
  | indexUnreadable _ _ => true
  | indexUnwritable _ _ => true
  | _ => false

/-- The fault of a template, if one is to blame. -/
def templateFault? : Failure → Option Template.Fault
  | template fault => some fault
  | _ => none

/-- Whether a snapshot is to blame. -/
def isSnapshotFault : Failure → Bool
  | snapshotRefused _ _ => true
  | snapshotIncomplete _ _ => true
  | copyMissing _ => true
  | restoreRefused _ _ => true
  | _ => false

end Failure

end ComponentKit
