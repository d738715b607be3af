import ComponentKit.Proofs.Session.Ending
import ComponentKit.Workflow.Add

/-!
# A run and the calls it makes

`Workflow.add` sequences calls: the console, the look for the project, the renderer of the templates, the
snapshots, the files. A `Crew` is any set of such calls, with failures of any type, and `Crew.run` the same
sequence over it; `add` is the run of the library's own crew. Around some of the calls no handler stands, and some
handlers pass on what they do not know. These calls are the ones that `Crew.Exposed` lists, and nothing but their
failures escapes from the run of a crew, whatever else fails in whatever way.
-/

namespace ComponentKit.Workflow

open Step Text

/-! ## Crews -/

/-- The calls of a run, with failures of type `ε`. -/
structure Crew (ε : Type) where
  /-- Tells how the run goes on. -/
  report : Level → Text → Step ε Unit
  /-- Looks for a project in a directory. -/
  detect : Path → Step ε Project
  /-- Says where a path leads from the root on. -/
  locationOf : Path → Step ε Location
  /-- Chooses the name of the component. -/
  resolveName : Request → Except NameRefusal Text
  /-- Looks for the file of a component. -/
  existing? : Project → Kind → Text → Step ε (Option Path)
  /-- Generates the component that a request asks for, under its name. -/
  generate : Project → Request → Text → Step ε Component.Generated
  /-- Takes a snapshot of the registries. -/
  take : Project → Step ε Snapshot
  /-- Restores the registries from a snapshot. -/
  restore : Snapshot → Step ε (List Path)
  /-- Writes a file. -/
  writeText : Path → Text → Step ε Unit
  /-- Adds an export to the index of a kind. -/
  updateIndex : Project → Kind → Text → Step ε Bool
  /-- Applies updates to the registries. -/
  applyAll : Project → List Registry.Update → Step ε (List PatchReport)
  /-- The fault of a template, if one is to blame for a failure. -/
  templateFault? : ε → Option Template.Fault
  /-- Whether a snapshot is to blame for a failure. -/
  isSnapshotFault : ε → Bool
  /-- The message for a failure. -/
  message : ε → Text

/-- The calls that a run of this library makes. -/
def Crew.library (settings : Settings) (templates : TemplateSource) : Crew Failure where
  report := Step.report
  detect := Project.detect settings
  locationOf := Step.locationOf
  resolveName := Workflow.resolveName settings
  existing? := Project.existing?
  generate := Workflow.generate settings templates
  take := Snapshot.take settings
  restore := Snapshot.restore
  writeText := Step.writeText
  updateIndex := Project.updateIndex
  applyAll := fun project => project.applyAll settings
  templateFault? := Failure.templateFault?
  isSnapshotFault := Failure.isSnapshotFault
  message := Failure.message

namespace Crew

variable {ε α β : Type} (crew : Crew ε)

/-! ### The stages of a run -/

/-- Restores the registries, and tells whether that was done. -/
def rollBack (snapshot : Snapshot) : Step ε Bool := do
  if snapshot.files.isEmpty then return false
  crew.report .warning "Restoring registry files from backup..."
  match ← outcome (crew.restore snapshot) with
  | .ok _ =>
    crew.report .success "Registry files restored"
    return true
  | .error failure =>
    if crew.isSnapshotFault failure then
      crew.report .error (concat ["Failed to restore backup: ", crew.message failure])
      return false
    else throw failure

/-- A stage after the registries were saved: if it fails they are restored. -/
def guarded (snapshot : Snapshot) (stage : Stage) (step : Step ε α) : Step (AddFailure ε) α := do
  match ← outcome step with
  | .ok value => return value
  | .error failure =>
    let rolledBack ← unguarded (crew.rollBack snapshot)
    throw (.stopped ⟨stage, .failure failure, rolledBack⟩)

/-- Writes the file of a component. -/
def writeComponent (target : Path) (component : Component.Generated) : Step ε Unit := do
  crew.report .step (concat ["Creating ", component.kind.name, " file..."])
  crew.writeText target component.content
  crew.report .success (concat ["Created ", target.name])

/-- Adds a component to the index of its kind. -/
def updateComponentIndex (project : Project) (component : Component.Generated) : Step ε Bool := do
  match component.wiring with
  | none => return false
  | some wiring =>
    crew.report .step "Updating component index..."
    crew.updateIndex project component.kind wiring.exportLine

/-- Adds a component to the registry of its kind. -/
def patchRegistries (project : Project) (component : Component.Generated) : Step ε (List PatchReport) := do
  match component.wiring with
  | none => return []
  | some wiring =>
    crew.report .step "Updating component registries..."
    crew.applyAll project [wiring.update]

/-- Takes the snapshot to which a later failure goes back. -/
def backUp (project : Project) : Step (AddFailure ε) Snapshot := do
  unguarded (crew.report .step "Creating backup of registry files...")
  match ← outcome (crew.take project) with
  | .ok snapshot =>
    unguarded (crew.report .success (concat ["Created backup (", ofNat snapshot.files.length,
      " files) at ", snapshot.directory.toText]))
    return snapshot
  | .error failure =>
    if crew.isSnapshotFault failure then stop .backup (.failure failure) else throw (.escaped failure)

/-- The project in a directory, which has to be one. -/
def findProject (path : Path) : Step (AddFailure ε) Project := do
  unguarded (crew.report .step "Detecting MCP server project...")
  let project ← unguarded (crew.detect path)
  if !project.isValid then stop .detect (.noProject (← unguarded (crew.locationOf path)))
  unguarded (crew.report .success (concat ["Found MCP project: ", project.name]))
  return project

/-- Checks that a component does not exist. -/
def checkNew (project : Project) (kind : Kind) (name : Text) : Step (AddFailure ε) Unit := do
  unguarded (crew.report .step (concat ["Checking if ", kind.name, " '", name, "' already exists..."]))
  if let some path ← unguarded (crew.existing? project kind name) then
    stop .checkNotExists (.alreadyExists kind name path)
  unguarded (crew.report .success (concat ["Component name '", name, "' is available"]))

/-- Generates the component; a fault of its template is expected. -/
def prepare (project : Project) (request : Request) (name : Text) :
    Step (AddFailure ε) Component.Generated := do
  unguarded (crew.report .step (concat ["Generating ", request.kind.name, " template..."]))
  match ← outcome (crew.generate project request name) with
  | .ok component =>
    unguarded (crew.report .success (concat ["Generated ", request.kind.name, " template"]))
    return component
  | .error failure =>
    match crew.templateFault? failure with
    | some fault => stop .generate (.template fault)
    | none => throw (.escaped failure)

/-- Adds the component that a request asks for to the project in a directory. -/
def run (path : Path) (request : Request) : Step (AddFailure ε) Added := do
  let project ← crew.findProject path
  let name ← match crew.resolveName request with
    | .ok name => pure name
    | .error refusal => stop .validateName (.refusedName refusal)
  unguarded (crew.report .debug (concat ["Component name resolved to '", name, "'"]))
  crew.checkNew project request.kind name
  let component ← crew.prepare project request name
  let snapshot ← crew.backUp project
  let target := Project.componentPath project.sourceRoot request.kind name
  crew.guarded snapshot .writeComponent (crew.writeComponent target component)
  let indexUpdated ← crew.guarded snapshot .updateIndex (crew.updateComponentIndex project component)
  let patches ← crew.guarded snapshot .patchRegistries (crew.patchRegistries project component)
  return ⟨request.kind, name, project.name, target, snapshot, indexUpdated, patches⟩

end Crew

/-! ### The crew of the library -/

section Library

variable {α : Type} {settings : Settings} {templates : TemplateSource}

theorem findProject_library : (Crew.library settings templates).findProject = findProject settings :=
  rfl

theorem checkNew_library : (Crew.library settings templates).checkNew = checkNew :=
  rfl

theorem prepare_library : (Crew.library settings templates).prepare = prepare settings templates := by
  funext project request name
  refine bind_congr fun _ => bind_congr fun result => ?_
  rcases result with failure | component
  · cases failure <;> rfl
  · rfl

theorem backUp_library : (Crew.library settings templates).backUp = backUp settings := by
  funext project
  refine bind_congr fun _ => bind_congr fun result => ?_
  cases result <;> rfl

theorem rollBack_library : (Crew.library settings templates).rollBack = rollBack := by
  funext snapshot
  rw [Crew.rollBack, rollBack]
  split
  · rfl
  · refine bind_congr fun _ => bind_congr fun result => ?_
    cases result <;> rfl

theorem guarded_library : (Crew.library settings templates).guarded (α := α) = guarded := by
  funext snapshot stage step
  refine bind_congr fun result => ?_
  cases result with
  | ok value => rfl
  | error failure =>
    show (do let rolledBack ← unguarded ((Crew.library settings templates).rollBack snapshot); _) = _
    rw [rollBack_library]

theorem writeComponent_library : (Crew.library settings templates).writeComponent = writeComponent :=
  rfl

theorem updateComponentIndex_library : (Crew.library settings templates).updateComponentIndex = updateIndex :=
  rfl

theorem patchRegistries_library :
    (Crew.library settings templates).patchRegistries = patchRegistries settings :=
  rfl

/-- A run of this library is that of its own crew. -/
theorem run_library (path : Path) (request : Request) :
    (Crew.library settings templates).run path request = add settings templates path request := by
  rw [Crew.run, add]
  simp only [findProject_library, checkNew_library, prepare_library, backUp_library, guarded_library,
    writeComponent_library, updateComponentIndex_library, patchRegistries_library]
  refine bind_congr fun project => ?_
  cases hname : resolveName settings request with
  | ok name => simp only [Crew.library, hname]
  | error refusal => simp only [Crew.library, hname]

end Library

/-! ## What escapes -/

/-- The failures of calls that no handler stands around, and those that the handler around a call passes on. -/
inductive Crew.Exposed {ε : Type} (crew : Crew ε) (failure : ε) : Prop where
  /-- No handler stands around the messages in front of the stages that are rolled back. -/
  | report (level : Level) (text : Text) (session : Session)
      (h : ((crew.report level text).run session).1 = .error failure)
  /-- Nor around the look for the project. -/
  | detect (path : Path) (session : Session) (h : ((crew.detect path).run session).1 = .error failure)
  /-- Nor around the path in the message that there is none. -/
  | location (path : Path) (session : Session) (h : ((crew.locationOf path).run session).1 = .error failure)
  /-- Nor around the look for the component. -/
  | existing (project : Project) (kind : Kind) (name : Text) (session : Session)
      (h : ((crew.existing? project kind name).run session).1 = .error failure)
  /-- The handler around generating knows the faults of templates. -/
  | generate (project : Project) (request : Request) (name : Text) (session : Session)
      (h : ((crew.generate project request name).run session).1 = .error failure)
      (hfault : crew.templateFault? failure = none)
  /-- The handler around the snapshot knows those of snapshots. -/
  | take (project : Project) (session : Session) (h : ((crew.take project).run session).1 = .error failure)
      (hfault : crew.isSnapshotFault failure = false)
  /-- So does the one around going back to it. -/
  | restore (snapshot : Snapshot) (session : Session)
      (h : ((crew.restore snapshot).run session).1 = .error failure)
      (hfault : crew.isSnapshotFault failure = false)

/-- Whether what escapes from a step has a property. -/
def LetsOut {ε α : Type} (E : ε → Prop) (step : Step (AddFailure ε) α) : Prop :=
  ∀ session failure, (step.run session).1 = .error (.escaped failure) → E failure

namespace LetsOut

variable {ε α β : Type} {E : ε → Prop} {step : Step (AddFailure ε) α} {next : α → Step (AddFailure ε) β}

theorem pure (value : α) : LetsOut E (Pure.pure value : Step (AddFailure ε) α) :=
  fun _ _ h => by cases h

theorem bind (hstep : LetsOut E step) (hnext : ∀ value, LetsOut E (next value)) : LetsOut E (step >>= next) := by
  intro session failure h
  rcases run_bind_eq_error.mp h with h | ⟨value, after, -, h⟩
  · exact hstep session failure h
  · exact hnext value after failure h

theorem stopped (stop : Stop ε) : LetsOut E (throw (.stopped stop) : Step (AddFailure ε) α) :=
  fun _ _ h => by cases h

/-- Nothing that would follow an orderly end lets anything out. -/
theorem stop_bind (stage : Stage) (reason : StopReason ε) : LetsOut E (stop stage reason >>= next) := by
  intro session failure h
  rcases run_bind_eq_error.mp h with h | ⟨value, after, h, -⟩
  · cases h
  · cases congrArg Prod.fst h

theorem escaped {failure : ε} (h : E failure) : LetsOut E (throw (.escaped failure) : Step (AddFailure ε) α) := by
  intro session other hother
  obtain rfl := AddFailure.escaped.inj (Except.error.inj hother)
  exact h

/-- What an unguarded step fails with escapes. -/
theorem unguarded {step : Step ε α}
    (h : ∀ session failure, (step.run session).1 = .error failure → E failure) :
    LetsOut E (Workflow.unguarded step) := by
  intro session failure hrun
  rw [Workflow.unguarded, run_mapFailure] at hrun
  obtain ⟨cause, hcause, hescaped⟩ := mapError_eq_error.mp hrun
  obtain rfl := AddFailure.escaped.inj hescaped
  exact h session _ hcause

/-- The outcome of a step is known to be one that a run of it yields. -/
theorem outcome_bind {step : Step ε α} {next : Except ε α → Step (AddFailure ε) β}
    (hnext : ∀ result, (∃ session, (step.run session).1 = result) → LetsOut E (next result)) :
    LetsOut E (outcome step >>= next) := by
  intro session failure h
  exact hnext _ ⟨session, rfl⟩ (step.run session).2 failure h

end LetsOut

namespace Crew

variable {ε α : Type} (crew : Crew ε)

theorem letsOut_report (level : Level) (text : Text) : LetsOut crew.Exposed (unguarded (crew.report level text)) :=
  .unguarded fun session _ h => .report level text session h

/-- A rollback fails with what its handler does not know, or with a message. -/
theorem exposed_of_rollBack (snapshot : Snapshot) (session : Session) (failure : ε)
    (h : ((crew.rollBack snapshot).run session).1 = .error failure) : crew.Exposed failure := by
  rw [rollBack] at h
  split at h
  · cases h
  rcases run_bind_eq_error.mp h with h | ⟨-, middle, -, h⟩
  · exact .report _ _ session h
  rcases run_bind_eq_error.mp h with h | ⟨result, after, hrestore, h⟩
  · cases h
  cases result with
  | ok paths =>
    rcases run_bind_eq_error.mp h with h | ⟨-, last, -, h⟩
    · exact .report _ _ after h
    · cases h
  | error cause =>
    dsimp only at h
    split at h
    · rcases run_bind_eq_error.mp h with h | ⟨-, last, -, h⟩
      · exact .report _ _ after h
      · cases h
    · rename_i hfault
      obtain rfl := Except.error.inj h
      have hrun : ((crew.restore snapshot).run middle).1 = .error _ := Except.ok.inj (congrArg Prod.fst hrestore)
      exact .restore snapshot middle hrun (Bool.eq_false_iff.mpr hfault)

/-- From a stage that is rolled back only a failure of the rollback escapes. -/
theorem letsOut_guarded (snapshot : Snapshot) (stage : Stage) (step : Step ε α) :
    LetsOut crew.Exposed (crew.guarded snapshot stage step) := by
  refine .outcome_bind fun result _ => ?_
  cases result with
  | ok value => exact .pure value
  | error failure => exact .bind (.unguarded (crew.exposed_of_rollBack snapshot)) fun _ => .stopped _

theorem letsOut_findProject (path : Path) : LetsOut crew.Exposed (crew.findProject path) := by
  refine .bind (crew.letsOut_report _ _) fun _ => .bind (.unguarded fun session _ h => .detect path session h)
    fun project => ?_
  split
  · exact .bind (.unguarded fun session _ h => Exposed.location path session h) fun _ => .stop_bind _ _
  · exact .bind (crew.letsOut_report _ _) fun _ => .pure _

theorem letsOut_checkNew (project : Project) (kind : Kind) (name : Text) :
    LetsOut crew.Exposed (crew.checkNew project kind name) := by
  refine .bind (crew.letsOut_report _ _) fun _ =>
    .bind (.unguarded fun session _ h => .existing project kind name session h) fun found => ?_
  cases found with
  | none => exact crew.letsOut_report _ _
  | some path => exact .stop_bind _ _

theorem letsOut_prepare (project : Project) (request : Request) (name : Text) :
    LetsOut crew.Exposed (crew.prepare project request name) := by
  refine .bind (crew.letsOut_report _ _) fun _ => .outcome_bind fun result hresult => ?_
  obtain ⟨session, hrun⟩ := hresult
  cases result with
  | ok component => exact .bind (crew.letsOut_report _ _) fun _ => .pure component
  | error failure =>
    dsimp only
    split
    · exact .stopped _
    · rename_i hfault
      exact .escaped (.generate project request name session hrun hfault)

theorem letsOut_backUp (project : Project) : LetsOut crew.Exposed (crew.backUp project) := by
  refine .bind (crew.letsOut_report _ _) fun _ => .outcome_bind fun result hresult => ?_
  obtain ⟨session, hrun⟩ := hresult
  cases result with
  | ok snapshot => exact .bind (crew.letsOut_report _ _) fun _ => .pure snapshot
  | error failure =>
    dsimp only
    split
    · exact .stopped _
    · rename_i hfault
      exact .escaped (.take project session hrun (Bool.eq_false_iff.mpr hfault))

/-- What escapes from a run of a crew is a failure of a call that is exposed. -/
theorem letsOut_run (path : Path) (request : Request) : LetsOut crew.Exposed (crew.run path request) := by
  refine .bind (crew.letsOut_findProject path) fun project => ?_
  dsimp only
  split
  · rw [pure_bind]
    refine .bind (crew.letsOut_report _ _) fun _ => .bind (crew.letsOut_checkNew _ _ _) fun _ =>
      .bind (crew.letsOut_prepare _ _ _) fun component => .bind (crew.letsOut_backUp _) fun snapshot => ?_
    -- from here on whatever fails is answered by going back to the snapshot
    exact .bind (crew.letsOut_guarded _ _ _) fun _ => .bind (crew.letsOut_guarded _ _ _) fun _ =>
      .bind (crew.letsOut_guarded _ _ _) fun _ => .pure _
  · exact .stop_bind _ _

end Crew

end ComponentKit.Workflow
