import ComponentKit.Json.Printer
import ComponentKit.Json.Reader
import ComponentKit.Settings.Basic
import ComponentKit.Text.Line
import ComponentKit.Text.Utf8

/-!
# Settings files

Settings are kept as an indented JSON record, one field a line, in the order of the fields: `toBytes` writes it,
and `ofBytes` reads it or gives a `Fault`.
-/

namespace ComponentKit.Settings

/-- Why a settings file cannot be used. -/
inductive Fault where
  /-- The file is not text. -/
  | undecodable (fault : Utf8.Fault)
  /-- The text is not a JSON document. -/
  | malformed
  /-- The document is not an object. -/
  | notARecord
  /-- Fields of the record are faulty. -/
  | invalid (faults : List Record.Fault)
  deriving DecidableEq, Repr

/-- The headline over a number of faults. -/
def headline (count : Nat) : Text :=
  Text.concat [Text.ofNat count, if count = 1 then " validation error" else " validation errors",
    " for Config"]

/-- The message for a settings file that cannot be used: one line, or a headline and two lines for each
fault below it. -/
def Fault.message : Fault → Text
  | undecodable fault => fault.message
  | malformed => Text.concat [headline 1, "\n  Invalid JSON"]
  | notARecord => Text.concat [headline 1, "\n  Input should be an object"]
  | invalid faults =>
    Text.concat (headline faults.length :: faults.map fun fault =>
      Text.concat ["\n", fault.field, "\n  ", fault.problem.message])

/-- Settings files are strict: an escape for half a character is refused, and nesting is limited. -/
def dialect : Json.Dialect := ⟨none, some 200⟩

/-- The text of a settings file. -/
def toText (settings : Settings) : Text :=
  settings.toJson.toText

/-- The content of a settings file. -/
def toBytes (settings : Settings) : Bytes :=
  Utf8.encode settings.toText

/-- The settings in the text of a settings file. -/
def ofText (text : Text) : Except Fault Settings :=
  match Json.read dialect text with
  | .error _ => .error .malformed
  | .ok (.object members) =>
    match ofMembers members with
    | .ok settings => .ok settings
    | .error faults => .error (.invalid faults)
  | .ok _ => .error .notARecord

/-- The settings in the content of a settings file. -/
def ofBytes (bytes : Bytes) : Except Fault Settings :=
  match Utf8.decode bytes with
  | .error fault => .error (.undecodable fault)
  | .ok text => ofText (Text.unifyLineBreaks text)

end ComponentKit.Settings
