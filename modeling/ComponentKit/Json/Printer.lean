import ComponentKit.Json.Basic

/-!
# Printing JSON

`toText` prints a document with one item or member a line, two more spaces of indentation at each level. Characters
beyond ASCII stand as they are; `printCharacter` escapes the quote, the backslash and the control characters.
-/

namespace ComponentKit.Json

/-- One character inside a text. -/
def printCharacter (c : Char) : Text :=
  match c with
  | '"' => "\\\""
  | '\\' => "\\\\"
  | '\x08' => "\\b"
  | '\x0c' => "\\f"
  | '\n' => "\\n"
  | '\r' => "\\r"
  | '\t' => "\\t"
  | c => if c.toNat < 0x20 then "\\u".toList ++ Text.hexDigits 4 c.toNat else [c]

/-- A text between its quotes. -/
def printText (text : Text) : Text :=
  '"' :: text.flatMap printCharacter ++ ['"']

/-- The start of a line with the given number of spaces. -/
def newLine (indent : Nat) : Text :=
  '\n' :: List.replicate indent ' '

mutual

/-- The value as a document, whose first line is indented by `indent` spaces. -/
def print (indent : Nat) : Json → Text
  | null => "null"
  | bool value => if value then "true" else "false"
  | int value => Text.ofInt value
  | float value => (Decimal.Parts.of value).toText
  | text value => printText value
  | array [] => "[]"
  | array (item :: items) =>
    Text.concat ["[", newLine (indent + 2), print (indent + 2) item,
      printItems (indent + 2) items, newLine indent, "]"]
  | object [] => "\x7b\x7d"
  | object ((name, value) :: members) =>
    Text.concat ["\x7b", newLine (indent + 2), printText name, ": ", print (indent + 2) value,
      printMembers (indent + 2) members, newLine indent, "\x7d"]

/-- The items of a list after the first one. -/
def printItems (indent : Nat) : List Json → Text
  | [] => []
  | item :: items =>
    Text.concat [",", newLine indent, print indent item, printItems indent items]

/-- The members of an object after the first one. -/
def printMembers (indent : Nat) : List (Text × Json) → Text
  | [] => []
  | (name, value) :: members =>
    Text.concat [",", newLine indent, printText name, ": ", print indent value,
      printMembers indent members]

end

/-- The value as a document. -/
def toText (value : Json) : Text :=
  print 0 value

end ComponentKit.Json
