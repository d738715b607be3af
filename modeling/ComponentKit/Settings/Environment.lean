import ComponentKit.Settings.Basic
import ComponentKit.Text.Blank
import ComponentKit.Text.Case

/-!
# Settings from the environment

Variables of the environment that change a setting (`ofEnvironment`). A variable that is empty counts as unset.
-/

namespace ComponentKit

/-- The variables of an environment with their values. -/
abbrev Environment := List (Text × Text)

namespace Environment

/-- The value of a variable that is set and not empty. -/
def value? (environment : Environment) (name : Text) : Option Text :=
  (environment.lookup name).filter (!·.isEmpty)

end Environment

namespace Settings

/-- The variables that settings depend on. -/
def variableNames : List Text :=
  ["MCP_SCAFFOLD_SOURCE_DIR", "MCP_SCAFFOLD_BACKUP_DIR", "MCP_SCAFFOLD_REGISTRY_STYLE",
    "MCP_SCAFFOLD_VERBOSE", "MCP_SCAFFOLD_AUTHOR", "USER", "USERNAME"]

/-- Whether a word in the environment switches details on. -/
def isSwitchedOn (word : Text) : Bool :=
  ["1".toList, "true", "yes", "on"].contains (Text.lower (Text.trim word))

/-- The settings in an environment. -/
def ofEnvironment (environment : Environment) : Except UnknownWord Settings := do
  let style ← match environment.value? "MCP_SCAFFOLD_REGISTRY_STYLE" with
    | none => pure default.registryStyle
    | some word => RegistryStyle.ofName word
  let author := ((environment.value? "MCP_SCAFFOLD_AUTHOR").or (environment.value? "USER")).or
    (environment.value? "USERNAME")
  return { default with
    sourceDir := (environment.value? "MCP_SCAFFOLD_SOURCE_DIR").getD default.sourceDir
    backupDir := (environment.value? "MCP_SCAFFOLD_BACKUP_DIR").getD default.backupDir
    registryStyle := style
    verbose := (environment.value? "MCP_SCAFFOLD_VERBOSE").any isSwitchedOn
    defaultAuthor := author.getD default.defaultAuthor }

end Settings

end ComponentKit
