import ComponentKit.Path
import ComponentKit.Record
import ComponentKit.Vocabulary

/-!
# Settings

`Settings` are what a run of the program is set up with. This module has their defaults, and `ofMembers`, which
reads settings from fields.
-/

namespace ComponentKit

/-- How the registries of a project register their components. -/
inductive RegistryStyle where
  /-- The registration call is all there is. -/
  | autoDiscovery
  /-- The registration call is followed by a call that starts the component. -/
  | legacy
  deriving DecidableEq, Repr

namespace RegistryStyle

/-- Both styles. -/
def all : List RegistryStyle := [autoDiscovery, legacy]

/-- The word for the style. -/
def name : RegistryStyle → Text
  | autoDiscovery => "auto_discovery"
  | legacy => "legacy"

/-- The style that a word names exactly. -/
def ofName? (word : Text) : Option RegistryStyle :=
  all.find? (·.name == word)

/-- The style that a word names exactly, which it should. -/
def ofName (word : Text) : Except UnknownWord RegistryStyle :=
  lookUpWord "RegistryStyle" ofName? word

/-- Each style is found by its word. -/
theorem ofName?_name (style : RegistryStyle) : ofName? style.name = some style := by
  cases style <;> decide

end RegistryStyle

/-- The settings of a run. -/
structure Settings where
  /-- The source root inside a project. -/
  sourceDir : Text := "src"
  /-- The manifest of a project. -/
  manifestName : Text := "package.json"
  /-- The dependency by which a project is recognized. -/
  frameworkDependency : Text := "@modelcontextprotocol/sdk"
  /-- The directory inside a project that keeps the snapshots. -/
  backupDir : Text := ".mcp-backups"
  /-- How the registries of the project register components. -/
  registryStyle : RegistryStyle := .autoDiscovery
  /-- Whether details are shown. -/
  verbose : Bool := false
  /-- The author of a component when none is given. -/
  defaultAuthor : Text := "MCP Developer"
  /-- The greatest length of a component's name. -/
  maxNameLength : Nat := 50
  /-- A name has at least one character. -/
  one_le_maxNameLength : 1 ≤ maxNameLength := by decide
  deriving DecidableEq, Repr

namespace Settings

/-- The settings when nothing else is said. -/
def default : Settings := {}

/-! ## Paths -/

/-- The source root of a project. -/
def sourceRoot (settings : Settings) (project : Path) : Path :=
  project.join settings.sourceDir

/-- The manifest of a project. -/
def manifestPath (settings : Settings) (project : Path) : Path :=
  project.join settings.manifestName

/-- The directory that keeps the snapshots of a project. -/
def backupRoot (settings : Settings) (project : Path) : Path :=
  project.join settings.backupDir

/-! ## Fields -/

/-- The fields of settings, in their order. -/
def members (settings : Settings) : List (Text × Json) := [
  ("source_dir", .text settings.sourceDir),
  ("manifest_name", .text settings.manifestName),
  ("framework_dependency", .text settings.frameworkDependency),
  ("backup_dir", .text settings.backupDir),
  ("registry_style", .text settings.registryStyle.name),
  ("verbose", .bool settings.verbose),
  ("default_author", .text settings.defaultAuthor),
  ("max_name_length", .int settings.maxNameLength)]

/-- The settings as a record. -/
def toJson (settings : Settings) : Json :=
  .object settings.members

open Record in
/-- The settings that a record gives; a field that is missing has its default. -/
def ofMembers (members : List (Text × Json)) : Except (List Fault) Settings :=
  Checked.toExcept <|
    (fun sourceDir manifestName frameworkDependency backupDir registryStyle verbose defaultAuthor
        maxNameLength =>
      { sourceDir, manifestName, frameworkDependency, backupDir, registryStyle, verbose,
        defaultAuthor, maxNameLength := maxNameLength.val,
        one_le_maxNameLength := maxNameLength.property })
    <$> field members "source_dir" text (some default.sourceDir)
    <*> field members "manifest_name" text (some default.manifestName)
    <*> field members "framework_dependency" text (some default.frameworkDependency)
    <*> field members "backup_dir" text (some default.backupDir)
    <*> field members "registry_style" (choice RegistryStyle.ofName?) (some default.registryStyle)
    <*> field members "verbose" truthValue (some default.verbose)
    <*> field members "default_author" text (some default.defaultAuthor)
    <*> field members "max_name_length" positive
      (some ⟨default.maxNameLength, default.one_le_maxNameLength⟩)

end Settings

end ComponentKit
