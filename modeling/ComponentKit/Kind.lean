import ComponentKit.Text.Blank
import ComponentKit.Text.Case
import ComponentKit.Vocabulary

/-!
# Kinds of components

A `Kind` is one of the six kinds of components that a server project is made of, and its `Conventions` fix where a
component of the kind lives and what it is called. An `IndexedKind` owns an index file, which is also the registry
of its components.
-/

namespace ComponentKit

/-- A kind of component. -/
inductive Kind where
  | tool
  | resource
  | prompt
  | service
  | transport
  | util
  deriving DecidableEq, Repr

/-- A kind of component that owns an index file. -/
inductive IndexedKind where
  | tool
  | resource
  | prompt
  deriving DecidableEq, Repr

/-- Where components of a kind live and how they are named. -/
structure Conventions where
  /-- The directory under the source root. -/
  directory : Text
  /-- What a file name has between the component's name and the extension. -/
  fileSuffix : Text
  /-- What a type name has after the component's name. -/
  typeSuffix : Text
  /-- The word that a component's name must not end in, as it is added anyway. -/
  suffixWord : Text
  /-- Whether the directory has an index file. -/
  hasIndex : Bool
  deriving DecidableEq, Repr

namespace Kind

/-- All kinds, in the order in which they are listed. -/
def all : List Kind := [tool, resource, prompt, service, transport, util]

/-- The word for the kind. -/
def name : Kind → Text
  | tool => "tool"
  | resource => "resource"
  | prompt => "prompt"
  | service => "service"
  | transport => "transport"
  | util => "util"

/-- The kind that a word names exactly. -/
def ofName? (word : Text) : Option Kind :=
  all.find? (·.name == word)

/-- Each kind is found by its word. -/
theorem ofName?_name (kind : Kind) : ofName? kind.name = some kind := by
  cases kind <;> decide

/-- The kind that a word names exactly, which it should. -/
def ofName (word : Text) : Except UnknownWord Kind :=
  lookUpWord "ComponentKind" ofName? word

/-- The kind that a user means by a word, whatever its case and the blanks around it. -/
def ofInput? (word : Text) : Option Kind :=
  ofName? (Text.lower (Text.trim word))

/-- The message for a word by which a user means no kind. -/
def unknownInputMessage (word : Text) : Text :=
  Text.concat ["Unknown component type '", word, "'. Valid types: ",
    Text.join ", " (all.map name)]

/-- The conventions of a kind. -/
def conventions : Kind → Conventions
  | tool => ⟨"tools", "-tool", "Tool", "tool", true⟩
  | resource => ⟨"resources", "-resource", "Resource", "resource", true⟩
  | prompt => ⟨"prompts", "-prompt", "Prompt", "prompt", true⟩
  | service => ⟨"services", [], "Service", "service", false⟩
  | transport => ⟨"transports", "-transport", "Transport", "transport", false⟩
  | util => ⟨"utils", [], [], [], false⟩

end Kind

namespace IndexedKind

/-- The kinds that own an index file, in the order in which their files are saved. -/
def all : List IndexedKind := [tool, resource, prompt]

/-- The kind without the knowledge that it owns an index file. -/
def toKind : IndexedKind → Kind
  | tool => .tool
  | resource => .resource
  | prompt => .prompt

/-- The kind with the knowledge that it owns an index file. -/
def ofKind? : Kind → Option IndexedKind
  | .tool => some tool
  | .resource => some resource
  | .prompt => some prompt
  | _ => none

/-- Exactly the kinds whose conventions give them an index file are indexed. -/
theorem isSome_ofKind? (kind : Kind) : (ofKind? kind).isSome = kind.conventions.hasIndex := by
  cases kind <;> rfl

/-- The word for the kind. -/
def name (kind : IndexedKind) : Text :=
  kind.toKind.name

/-- The indexed kind that a word names exactly. -/
def ofName? (word : Text) : Option IndexedKind :=
  all.find? (·.name == word)

/-- The indexed kind that a word names exactly, which it should. -/
def ofName (word : Text) : Except UnknownWord IndexedKind :=
  lookUpWord "RegistryKind" ofName? word

end IndexedKind

/-- The name of every index file. -/
def indexFileName : Text := "index.ts"

/-- The ending of every source file. -/
def sourceExtension : Text := ".ts"

end ComponentKit
