import ComponentKit.Decimal.Notation
import ComponentKit.Text.Quoted

/-!
# JSON values

Values of a JSON document. Integers are exact; numbers with a fraction or an exponent are floating-point numbers.
The members of an object keep the order in which their names first appeared (`insertMember`).
-/

namespace ComponentKit

/-- A JSON value. -/
inductive Json where
  | null
  | bool (value : Bool)
  | int (value : Int)
  | float (value : Float)
  | text (value : Text)
  | array (items : List Json)
  | object (members : List (Text × Json))
  deriving Inhabited

namespace Json

/-- The members of an object with one more; a member of that name gives its place to it. -/
def insertMember (members : List (Text × Json)) (name : Text) (value : Json) :
    List (Text × Json) :=
  if members.any (·.1 == name) then
    members.map fun member => if member.1 == name then (name, value) else member
  else members ++ [(name, value)]

/-- The value of the member with the given name, of an object that has one. -/
def member? (name : Text) : Json → Option Json
  | object members => members.lookup name
  | _ => none

/-- The value as an object: any other value becomes the only member of one. -/
def asRecord : Json → Json
  | object members => object members
  | value => object [("_root", value)]

mutual

/-- How a value that is not a text reads in the middle of a text; texts inside a list or an object are
quoted. -/
def display : Json → Text
  | null => "None"
  | bool value => if value then "True" else "False"
  | int value => Text.ofInt value
  | float value => (Decimal.Parts.of value).toText
  | text value => Text.quoted value
  | array items => Text.concat ["[", Text.join ", " (displayItems items), "]"]
  | object members => Text.concat ["\x7b", Text.join ", " (displayMembers members), "\x7d"]

/-- How the items of a list read. -/
def displayItems : List Json → List Text
  | [] => []
  | item :: items => display item :: displayItems items

/-- How the members of an object read. -/
def displayMembers : List (Text × Json) → List Text
  | [] => []
  | (name, value) :: members =>
    Text.concat [Text.quoted name, ": ", display value] :: displayMembers members

end

/-- A value in the middle of a text: a text stands as it is. -/
def plain : Json → Text
  | text value => value
  | value => display value

end Json

end ComponentKit
