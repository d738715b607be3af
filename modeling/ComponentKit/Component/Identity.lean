import ComponentKit.Kind
import ComponentKit.Name.Words

/-!
# What a component is called

The names that a component's name and kind lead to: its file (`fileName`), its type (`typeName`), the variable that
holds it (`instanceName`) and the key under which it is registered (`registryKey`).
-/

namespace ComponentKit.Component

/-- The file of a component. -/
def fileName (kind : Kind) (name : Text) : Text :=
  Name.kebab name ++ kind.conventions.fileSuffix ++ sourceExtension

/-- The module of a component, which is its `fileName` without the extension. -/
def moduleName (kind : Kind) (name : Text) : Text :=
  Name.kebab name ++ kind.conventions.fileSuffix

/-- The class of a component. -/
def typeName (kind : Kind) (name : Text) : Text :=
  Name.pascal name ++ kind.conventions.typeSuffix

/-- The variable that holds a component. -/
def instanceName (kind : Kind) (name : Text) : Text :=
  Name.camel name ++ kind.conventions.typeSuffix

/-- The key under which a component is registered. -/
def registryKey (name : Text) : Text :=
  Name.kebab name

end ComponentKit.Component
