import ComponentKit.Component.Generate
import ComponentKit.Project.Registries
import ComponentKit.Project.Snapshot
import ComponentKit.Template.Reader
import ComponentKit.Workflow.Request

/-!
# Adding a component

`add` goes through the stages in which a component is added to a project. Nothing is changed before the name is
accepted, the component is known to be new and its text is ready; then the registries are saved, and whatever fails
after that restores them (`guarded`). The file of the component stays for inspection.
-/

namespace ComponentKit.Workflow

open Step Text

/-! ## Stages -/

/-- A stage of adding a component. -/
inductive Stage where
  | detect
  | validateName
  | checkNotExists
  | generate
  | backup
  | writeComponent
  | updateIndex
  | patchRegistries
  deriving DecidableEq, Repr

/-- The word for a stage. -/
def Stage.name : Stage → Text
  | detect => "detect"
  | validateName => "validate-name"
  | checkNotExists => "check-not-exists"
  | generate => "generate"
  | backup => "backup"
  | writeComponent => "write-component"
  | updateIndex => "update-index"
  | patchRegistries => "patch-registries"

/-- Why adding a component stops. Failures that are passed on are of type `ε`. -/
inductive StopReason (ε : Type := Failure) where
  /-- The directory is no project. -/
  | noProject (place : Location)
  /-- The name is refused. -/
  | refusedName (refusal : NameRefusal)
  /-- There is such a component already. -/
  | alreadyExists (kind : Kind) (name : Text) (path : Path)
  /-- The template of the component cannot be used. -/
  | template (fault : Template.Fault)
  /-- A file cannot be used. -/
  | failure (cause : ε)
  deriving DecidableEq, Repr

/-- The message for a reason. -/
def StopReason.message : StopReason → Text
  | noProject place =>
    concat ["Not a valid MCP server project: ", (Path.ofLocation place).toText]
  | refusedName refusal => refusal.message
  | alreadyExists kind name path =>
    concat ["A ", kind.name, " named '", name, "' already exists at ", path.toText]
  | template fault => concat ["Template rendering failed: ", fault.message]
  | failure cause => cause.message

/-- An orderly end without a new component. -/
structure Stop (ε : Type := Failure) where
  /-- The stage that failed. -/
  stage : Stage
  /-- Why it failed. -/
  reason : StopReason ε
  /-- Whether the registries were restored. -/
  rolledBack : Bool
  deriving DecidableEq, Repr

/-- The message for a stop. -/
def Stop.message (stop : Stop) : Text :=
  concat [stop.stage.name, ": ", stop.reason.message]

/-- How adding a component can fail. -/
inductive AddFailure (ε : Type := Failure) where
  /-- An orderly end at some stage. -/
  | stopped (stop : Stop ε)
  /-- A failure that no stage expects. -/
  | escaped (failure : ε)
  deriving DecidableEq, Repr

/-- What was added. -/
structure Added where
  /-- The kind of the component. -/
  kind : Kind
  /-- The name of the component. -/
  name : Text
  /-- The project that it was added to. -/
  projectName : Text
  /-- The file of the component. -/
  path : Path
  /-- The registries as they were before. -/
  snapshot : Snapshot
  /-- Whether the index was changed. -/
  indexUpdated : Bool
  /-- What was done to the registries. -/
  patches : List PatchReport
  deriving DecidableEq, Repr

/-- Ends a run in order. -/
def stop {ε α : Type} (stage : Stage) (reason : StopReason ε) : Step (AddFailure ε) α :=
  throw (.stopped ⟨stage, reason, false⟩)

/-- A step whose failure no stage expects. -/
def unguarded {ε α : Type} (step : Step ε α) : Step (AddFailure ε) α :=
  step.mapFailure .escaped

/-! ## Templates -/

/-- What turns the text of a template file into the text of a component, for the values of its placeholders. It may
read further files from the disk, and fail in any way. -/
abbrev Engine := Disk → Location → Text → Template.Context → Except Failure Text

/-- The engine for texts with slots, which takes everything else in a template for text or for a fault of it. -/
def slotEngine : Engine := fun _ _ text context =>
  (Template.read text >>= (·.render context)).mapError .template

/-- Where the templates of components come from. -/
inductive TemplateSource where
  /-- The templates of this library. -/
  | bundled
  /-- Files in a directory, and what renders them. -/
  | files (path : Path) (engine : Engine)

/-- Files with slots in a directory. -/
def TemplateSource.directory (path : Path) : TemplateSource :=
  .files path slotEngine

/-- The file of the template of a kind. -/
def templateFile (kind : Kind) : Text :=
  concat [kind.name, ".ts.j2"]

/-- The text that the template of a kind gives: `sourceTemplate`, or what the engine makes of the file `templateFile`.
A file in the directory that cannot be looked at counts as missing. -/
def TemplateSource.render (kind : Kind) (context : Template.Context) : TemplateSource → Step Failure Text
  | bundled => ofResult (((Component.sourceTemplate kind).render context).mapError .template)
  | files path engine => do
    let file := templateFile kind
    match ← outcome (isFile (path.join file)) with
    | .ok true =>
      let text ← readText (path.join file)
      let session ← get
      ofResult (engine session.disk session.home text context)
    | _ => throw (.template (.notFound file path.toText))

/-- The component that a request asks for: what `TemplateSource.render` gives, with its wiring (`Component.wire`). -/
def generate (settings : Settings) (templates : TemplateSource) (project : Project)
    (request : Request) (name : Text) : Step Failure Component.Generated := do
  let author := if request.author.isEmpty then settings.defaultAuthor else request.author
  let details : Component.Details := ⟨request.description, author, project.name⟩
  let context := Component.context request.kind name details (← get).now.date
  let content ← templates.render request.kind context
  ofResult ((Component.wire request.kind context content).mapError .template)

/-! ## Changes -/

/-- Restores the registries by `Snapshot.restore`, and tells whether that was done. A failure to restore is reported.
-/
def rollBack (snapshot : Snapshot) : Step Failure Bool := do
  if snapshot.files.isEmpty then return false
  report .warning "Restoring registry files from backup..."
  match ← outcome snapshot.restore with
  | .ok _ =>
    report .success "Registry files restored"
    return true
  | .error failure =>
    if failure.isSnapshotFault then
      report .error (concat ["Failed to restore backup: ", failure.message])
      return false
    else throw failure

/-- Writes the file of a component. -/
def writeComponent (target : Path) (component : Component.Generated) : Step Failure Unit := do
  report .step (concat ["Creating ", component.kind.name, " file..."])
  writeText target component.content
  report .success (concat ["Created ", target.name])

/-- Adds a component to the index of its kind. -/
def updateIndex (project : Project) (component : Component.Generated) : Step Failure Bool := do
  match component.wiring with
  | none => return false
  | some wiring =>
    report .step "Updating component index..."
    project.updateIndex component.kind wiring.exportLine

/-- Adds a component to the registry of its kind. -/
def patchRegistries (settings : Settings) (project : Project) (component : Component.Generated) :
    Step Failure (List PatchReport) := do
  match component.wiring with
  | none => return []
  | some wiring =>
    report .step "Updating component registries..."
    project.applyAll settings [wiring.update]

/-- A stage after the registries were saved: if it fails, `rollBack` restores them. -/
def guarded {α : Type} (snapshot : Snapshot) (stage : Stage) (step : Step Failure α) :
    Step AddFailure α := do
  match ← outcome step with
  | .ok value => return value
  | .error failure =>
    let rolledBack ← unguarded (rollBack snapshot)
    throw (.stopped ⟨stage, .failure failure, rolledBack⟩)

/-- Takes the snapshot to which `rollBack` goes back. -/
def backUp (settings : Settings) (project : Project) : Step AddFailure Snapshot := do
  unguarded (report .step "Creating backup of registry files...")
  match ← outcome (Snapshot.take settings project) with
  | .ok snapshot =>
    unguarded (report .success (concat ["Created backup (", ofNat snapshot.files.length,
      " files) at ", snapshot.directory.toText]))
    return snapshot
  | .error failure =>
    if failure.isSnapshotFault then stop .backup (.failure failure) else throw (.escaped failure)

/-! ## The run -/

/-- The project that `detect` finds in a directory, which has to be one. -/
def findProject (settings : Settings) (path : Path) : Step AddFailure Project := do
  unguarded (report .step "Detecting MCP server project...")
  let project ← unguarded (Project.detect settings path)
  if !project.isValid then stop .detect (.noProject (← unguarded (locationOf path)))
  unguarded (report .success (concat ["Found MCP project: ", project.name]))
  return project

/-- Checks that a component does not exist (`existing?`). -/
def checkNew (project : Project) (kind : Kind) (name : Text) : Step AddFailure Unit := do
  unguarded (report .step (concat ["Checking if ", kind.name, " '", name, "' already exists..."]))
  if let some path ← unguarded (project.existing? kind name) then
    stop .checkNotExists (.alreadyExists kind name path)
  unguarded (report .success (concat ["Component name '", name, "' is available"]))

/-- Generates the component by `generate`; a fault of its template is expected. -/
def prepare (settings : Settings) (templates : TemplateSource) (project : Project)
    (request : Request) (name : Text) : Step AddFailure Component.Generated := do
  unguarded (report .step (concat ["Generating ", request.kind.name, " template..."]))
  match ← outcome (generate settings templates project request name) with
  | .ok component =>
    unguarded (report .success (concat ["Generated ", request.kind.name, " template"]))
    return component
  | .error failure =>
    match failure.templateFault? with
    | some fault => stop .generate (.template fault)
    | none => throw (.escaped failure)

/-- Adds the component that a request asks for to the project in a directory: `findProject`, `resolveName`,
`checkNew`, `prepare` and `backUp`, and then the stages that are `guarded`. -/
def add (settings : Settings) (templates : TemplateSource) (path : Path) (request : Request) :
    Step AddFailure Added := do
  let project ← findProject settings path
  let name ← match resolveName settings request with
    | .ok name => pure name
    | .error refusal => stop .validateName (.refusedName refusal)
  unguarded (report .debug (concat ["Component name resolved to '", name, "'"]))
  checkNew project request.kind name
  let component ← prepare settings templates project request name
  let snapshot ← backUp settings project
  let target := Project.componentPath project.sourceRoot request.kind name
  guarded snapshot .writeComponent (writeComponent target component)
  let indexUpdated ← guarded snapshot .updateIndex (updateIndex project component)
  let patches ← guarded snapshot .patchRegistries (patchRegistries settings project component)
  return ⟨request.kind, name, project.name, target, snapshot, indexUpdated, patches⟩

end ComponentKit.Workflow
