import ComponentKit.Kind
import ComponentKit.Record
import ComponentKit.Settings.Basic

/-!
# Registry updates

An `Update` has the lines that make a new component known in the registry of its kind. An `Anchor` names an
editable part of a registry, and its `Layout` has the literals by which the part is found.
-/

namespace ComponentKit.Registry

/-- Where a new registration goes when there are registrations already. -/
inductive Anchor where
  /-- After the line on which the last one ends. -/
  | line
  /-- After the statement of the last one. -/
  | statement
  deriving DecidableEq, Repr

namespace Anchor

/-- The word for the anchor. -/
def name : Anchor → Text
  | line => "line"
  | statement => "statement"

/-- The anchor that a word names exactly. -/
def ofName? (word : Text) : Option Anchor :=
  [line, statement].find? (·.name == word)

/-- The anchor that a word names exactly, which it should. -/
def ofName (word : Text) : Except UnknownWord Anchor :=
  lookUpWord "StatementTerminator" ofName? word

/-- The `Anchor` that a registry style uses. -/
def ofStyle : RegistryStyle → Anchor
  | .legacy => line
  | .autoDiscovery => statement

end Anchor

/-- The literals by which the editable parts of a registry are found. -/
structure Layout where
  /-- The kind of the components. -/
  kind : IndexedKind
  /-- The method that registers them. -/
  methodName : Text
  /-- How each registration starts. -/
  setter : Text
  deriving DecidableEq, Repr

/-- The `Layout` of the registry of a kind. -/
def layout (kind : IndexedKind) : Layout :=
  let plural := kind.toKind.conventions.directory
  ⟨kind, "initialize".toList ++ Text.capitalize plural, Text.concat ["this.", plural, ".set("]⟩

/-- The lines that make a component known in its registry. -/
structure Update where
  /-- The kind of the component. -/
  kind : IndexedKind
  /-- The statement that imports the component. -/
  importLine : Text
  /-- The statement that registers the component. -/
  registrationLine : Text
  /-- The statement that starts the component, which may be missing. -/
  initializationLine : Text
  deriving DecidableEq, Repr

open Record in
/-- The update that a record gives. -/
def Update.ofMembers (members : List (Text × Json)) : Except (List Fault) Update :=
  Checked.toExcept <|
    Update.mk
    <$> field members "registry_kind" (choice IndexedKind.ofName?) none
    <*> field members "import_line" text none
    <*> field members "registration_line" text none
    <*> field members "initialization_line" text (some [])

end ComponentKit.Registry
