import ComponentKit.Name.Validation
import ComponentKit.Record
import ComponentKit.Settings.Basic

/-!
# Requests

A `Request` is what a user asks to be added, and `resolveName` chooses the name under which it is added.
-/

namespace ComponentKit.Workflow

/-- What a user asks to be added. -/
structure Request where
  /-- The kind of the component. -/
  kind : Kind
  /-- The name of the component, without the suffix of its kind. -/
  name : Text
  /-- What the component does. -/
  description : Text
  /-- Who makes the component. -/
  author : Text
  /-- Whether the name is taken as it is. -/
  skipValidation : Bool
  deriving DecidableEq, Repr

open Record in
/-- The request that a record gives. -/
def Request.ofMembers (members : List (Text × Json)) : Except (List Fault) Request :=
  Checked.toExcept <|
    Request.mk
    <$> field members "kind" (choice Kind.ofName?) none
    <*> field members "name" text none
    <*> field members "description" text (some [])
    <*> field members "author" text (some [])
    <*> field members "skip_validation" truthValue (some false)

/-! ## Names -/

/-- Why the name of a request is refused. -/
inductive NameRefusal where
  /-- A check of names fails. -/
  | invalid (refusal : Name.Refusal)
  /-- The name has no words. -/
  | noWords
  /-- The name has a character that could lead to another directory or end a string. -/
  | unsafeCharacter
  deriving DecidableEq, Repr

/-- The message for a refused name. -/
def NameRefusal.message : NameRefusal → Text
  | invalid refusal => refusal.message
  | noWords => "Component name cannot be empty"
  | unsafeCharacter => "Component name must not contain path separators, dots or quotes"

/-- Whether a character could lead to another directory or end a string. Names are not taken with such
a character even without validation. -/
def isUnsafe (c : Char) : Bool :=
  ['/', '\\', '.', '\x27', '"', '\x60'].contains c

/-- The name under which a component is added: what `validate` returns, or with checks left out the name as it is,
unless a character of it `isUnsafe`. -/
def resolveName (settings : Settings) (request : Request) : Except NameRefusal Text :=
  if request.skipValidation then
    if (Name.words request.name).isEmpty then .error .noWords
    else if request.name.any isUnsafe then .error .unsafeCharacter
    else .ok (Text.trim request.name)
  else
    (Name.validate request.name request.kind settings.maxNameLength).mapError .invalid

end ComponentKit.Workflow
