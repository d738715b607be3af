import ComponentKit.Proofs.Workflow.Name
import ComponentKit.Proofs.Workflow.Planning
import ComponentKit.Proofs.Workflow.Stages

/-!
# A run in two parts

`add` is `plan` and then `carryOut`. Planning keeps the store. Carrying out starts with the snapshot, and goes on
in the state of a run with a snapshot.
-/

namespace ComponentKit.Workflow

open Disk Project Snapshot Step Text

variable {start : Store} {settings : Settings} {templates : TemplateSource} {path : Path}
  {request : Request} {project : Project} {name : Text}

/-! ## Two parts -/

/-- What is known before anything is changed. -/
structure Plan where
  /-- The project. -/
  project : Project
  /-- The name of the component. -/
  name : Text
  /-- The component. -/
  component : Component.Generated

/-- The stages of `add` in front of the snapshot. -/
def plan (settings : Settings) (templates : TemplateSource) (path : Path) (request : Request) :
    Step AddFailure Plan := do
  let project ← findProject settings path
  let name ← match resolveName settings request with
    | .ok name => pure name
    | .error refusal => stop .validateName (.refusedName refusal)
  unguarded (report .debug (concat ["Component name resolved to '", name, "'"]))
  checkNew project request.kind name
  let component ← prepare settings templates project request name
  return ⟨project, name, component⟩

/-- The stages of `add` from the snapshot on. -/
def carryOut (settings : Settings) (request : Request) (plan : Plan) : Step AddFailure Added := do
  let snapshot ← backUp settings plan.project
  let target := Project.componentPath plan.project.sourceRoot request.kind plan.name
  guarded snapshot .writeComponent (writeComponent target plan.component)
  let indexUpdated ← guarded snapshot .updateIndex (updateIndex plan.project plan.component)
  let patches ←
    guarded snapshot .patchRegistries (patchRegistries settings plan.project plan.component)
  return ⟨request.kind, plan.name, plan.project.name, target, snapshot, indexUpdated, patches⟩

/-- The stages of `add` behind the snapshot. -/
def finish (settings : Settings) (request : Request) (plan : Plan) (snapshot : Snapshot) :
    Step AddFailure Added := do
  let target := Project.componentPath plan.project.sourceRoot request.kind plan.name
  guarded snapshot .writeComponent (writeComponent target plan.component)
  let indexUpdated ← guarded snapshot .updateIndex (updateIndex plan.project plan.component)
  let patches ←
    guarded snapshot .patchRegistries (patchRegistries settings plan.project plan.component)
  return ⟨request.kind, plan.name, plan.project.name, target, snapshot, indexUpdated, patches⟩

theorem carryOut_eq_bind (settings : Settings) (request : Request) (plan : Plan) :
    carryOut settings request plan = backUp settings plan.project >>= finish settings request plan :=
  rfl

/-- A run plans and then carries out. -/
theorem add_eq_bind (settings : Settings) (templates : TemplateSource) (path : Path)
    (request : Request) :
    add settings templates path request
      = plan settings templates path request >>= carryOut settings request := by
  simp only [add, plan, bind_assoc]
  refine congrArg _ (funext fun project => ?_)
  cases resolveName settings request <;> simp only [carryOut, bind_assoc, pure_bind]

/-! ## Planning -/

/-- Whether a failure, if it is an orderly end, is one at these stages without a rollback. -/
def EndsAt (stages : List Stage) (failure : AddFailure) : Prop :=
  ∀ stop, failure = .stopped stop → stop.stage ∈ stages ∧ stop.rolledBack = false

theorem endsAt_escaped (stages : List Stage) (failure : Failure) : EndsAt stages (.escaped failure) :=
  fun _ h => by cases h

theorem endsAt_stopped {stages : List Stage} {stage : Stage} (h : stage ∈ stages)
    (reason : StopReason) : EndsAt stages (.stopped ⟨stage, reason, false⟩) := by
  intro stop hstop
  obtain rfl := AddFailure.stopped.inj hstop
  exact ⟨h, rfl⟩

/-- The stages in front of the snapshot. -/
def Stage.planning : List Stage := [.detect, .validateName, .checkNotExists, .generate]

/-- A report between the stages. -/
theorem spec_unguardedReport {P : Store → Prop} {E : AddFailure → Store → Prop} {level : Level}
    {text : Text} : Spec P (unguarded (report level text)) (fun _ => P) E :=
  Spec.mapFailure Spec.report

theorem spec_stop {α : Type} {P : Store → Prop} {Q : α → Store → Prop} (stage : Stage)
    (h : stage ∈ Stage.planning) (hP : ∀ store, P store → store = start) (reason : StopReason) :
    Spec P (stop stage reason : Step AddFailure α) Q
      fun failure store => store = start ∧ EndsAt Stage.planning failure :=
  Spec.throw _ fun store hs => ⟨hP store hs, endsAt_stopped h reason⟩

theorem spec_findProject :
    Spec (· = start) (findProject settings path)
      (fun project store => store = start ∧ Detected start settings path project ∧
        ∃ manifest, IsProject start.disk start.home start.nesting settings path manifest ∧ IsNamed path manifest)
      fun failure store => store = start ∧ EndsAt Stage.planning failure := by
  rw [findProject]
  refine Spec.bind spec_unguardedReport fun _ => ?_
  refine Spec.bind (Spec.mapFailure (spec_detect.weaken_error fun _ _ h => ⟨h.1, endsAt_escaped _ _⟩)) fun project => ?_
  -- without a project the path is shown, which may itself fail
  split
  · refine Spec.bind (Spec.mapFailure (((spec_locationOf path).weaken_pre fun _ hs => hs.1).weaken_error
      fun _ _ h => ⟨h.1, endsAt_escaped _ _⟩)) fun place => ?_
    exact Spec.bind (Q := fun _ _ => False) (spec_stop .detect (by decide) (fun _ hs => hs.1) _)
      fun _ _ hf => hf.elim
  · rename_i hinvalid
    have hvalid : project.isValid = true := by simpa using hinvalid
    refine Spec.bind spec_unguardedReport fun _ => ?_
    exact Spec.pure _ fun _ hs => ⟨hs.1, hs.2 hvalid⟩

theorem endsAt_of_checked {kind : Kind} {failure : AddFailure}
    (h : checked start kind name path = .error failure) : EndsAt Stage.planning failure := by
  rw [checked] at h
  split at h
  · cases h
  · obtain rfl := Except.error.inj h
    exact endsAt_stopped (by decide) _
  · obtain rfl := Except.error.inj h
    exact endsAt_escaped _ _

theorem spec_checkNew (kind : Kind) :
    Spec (· = start) (checkNew project kind name)
      (fun _ store => store = start ∧
        start.disk.pathExists start.home (componentPath project.sourceRoot kind name) = .ok false)
      fun failure store => store = start ∧ EndsAt Stage.planning failure :=
  endsIn_checkNew.spec.weaken_ends (fun _ _ h => ⟨h.1, checked_eq_ok.mp h.2⟩)
    fun _ _ h => ⟨h.1, endsAt_of_checked h.2⟩

theorem endsAt_of_prepared {result : Except Failure Component.Generated} {failure : AddFailure}
    (h : prepared result = .error failure) : EndsAt Stage.planning failure := by
  rw [prepared.eq_def] at h
  split at h
  · cases h
  · obtain rfl := Except.error.inj h
    exact endsAt_stopped (by decide) _
  · obtain rfl := Except.error.inj h
    exact endsAt_escaped _ _

theorem isFor_of_generated {component : Component.Generated}
    (h : generated start settings templates project request name = .ok component) :
    IsFor request.kind component := by
  obtain ⟨content, -, hmade⟩ := bind_eq_ok.mp h
  rw [← Except.ok.inj hmade]
  exact isFor_wiringOf request.kind name content

theorem spec_prepare :
    Spec (· = start) (prepare settings templates project request name)
      (fun component store => store = start ∧ IsFor request.kind component)
      fun failure store => store = start ∧ EndsAt Stage.planning failure :=
  endsIn_prepare.spec.weaken_ends
    (fun _ _ h => ⟨h.1, isFor_of_generated (prepared_eq_ok.mp h.2)⟩)
    fun _ _ h => ⟨h.1, endsAt_of_prepared h.2⟩

/-- What `plan` makes sure of. -/
structure IsReady (start : Store) (settings : Settings) (path : Path) (request : Request)
    (plan : Plan) : Prop where
  /-- The project was detected. -/
  detected : Detected start settings path plan.project
  /-- The name is the one of the request. -/
  name_eq : resolveName settings request = .ok plan.name
  /-- There is no such component. -/
  isNew : start.disk.pathExists start.home
    (componentPath plan.project.sourceRoot request.kind plan.name) = .ok false
  /-- The component is of the kind of the request. -/
  isFor : IsFor request.kind plan.component

/-- Planning keeps the store, whether it ends with a plan or not. -/
theorem spec_plan :
    Spec (· = start) (plan settings templates path request)
      (fun plan store => store = start ∧ IsReady start settings path request plan)
      fun failure store => store = start ∧ EndsAt Stage.planning failure := by
  -- step by step: the project, the name, that the component is new, and its text
  rw [plan]
  refine Spec.bind spec_findProject fun project => Spec.of_forall fun store hs => ?_
  obtain ⟨rfl, hdetected, -⟩ := hs
  dsimp only
  split
  · rename_i name hname
    rw [pure_bind]
    refine Spec.bind spec_unguardedReport fun _ => ?_
    refine Spec.bind (spec_checkNew request.kind) fun _ => Spec.of_forall fun after hs => ?_
    obtain ⟨rfl, hnew⟩ := hs
    refine Spec.bind spec_prepare fun component => Spec.pure _ fun _ hs => ⟨hs.1, ?_⟩
    exact ⟨hdetected, hname, hnew, hs.2⟩
  · exact Spec.bind (Q := fun _ _ => False) (spec_stop .validateName (by decide)
      (fun _ hs => hs) _) fun _ _ hf => hf.elim

/-! ## Carrying out -/

/-- A `Run` with a snapshot that carries a plan out. -/
structure IsRunOf (start : Store) (settings : Settings) (path : Path) (request : Request)
    (plan : Plan) (run : Run) : Prop where
  /-- The run starts where the plan was made. -/
  start_eq : run.start = start
  /-- It works under the source root of the settings. -/
  root_eq : run.root = settings.sourceRoot path
  /-- It keeps snapshots where the settings say. -/
  backupRoot_eq : run.backupRoot = settings.backupRoot path
  /-- The component goes to the directory of its kind. -/
  directory_eq : run.directory = request.kind.conventions.directory
  /-- Its file is named after the component. -/
  file_eq : run.file = Component.fileName request.kind plan.name
  /-- Only the registry of this kind may be edited. -/
  edited_eq : run.edited = IndexedKind.ofKind? request.kind
  /-- The run has what it relies on. -/
  isGrounded : run.IsGrounded
  /-- All registries that are files were saved. -/
  length_eq : run.snapshot.files.length
    = (IndexedKind.all.filter (isRegular start (settings.sourceRoot path))).length

variable {made : Plan} {run : Run}

theorem IsRunOf.target_eq (h : IsRunOf start settings path request made run)
    (hready : IsReady start settings path request made) :
    run.target = componentPath (settings.sourceRoot path) request.kind made.name := by
  rw [componentPath_eq _ _ (slash_notMem_fileName hready.name_eq request.kind), Run.target, h.root_eq,
    h.directory_eq, h.file_eq]

/-- The `Run` that carries a plan out with a snapshot. -/
def runOf (start : Store) (settings : Settings) (path : Path) (request : Request) (made : Plan)
    (place : Location) (snapshot : Snapshot) : Run where
  start := start
  root := settings.sourceRoot path
  place := place
  backupRoot := settings.backupRoot path
  snapshot := snapshot
  fresh := snapshot.directory.resolve start.home
  directory := request.kind.conventions.directory
  file := Component.fileName request.kind made.name
  edited := IndexedKind.ofKind? request.kind

section RunOf

variable {snapshot : Snapshot} {store : Store} {place : Location}

theorem isGrounded_runOf (hg : Ground start (settings.sourceRoot path) place)
    (hready : IsReady start settings path request made) (snapshot : Snapshot) :
    (runOf start settings path request made place snapshot).IsGrounded := by
  refine ⟨hg, isPlainName_directory _, fileName_ne _ _ (by decide), ?_⟩
  have hnew := hready.isNew
  rw [hready.detected.sourceRoot_eq,
    componentPath_eq _ _ (slash_notMem_fileName hready.name_eq request.kind)] at hnew
  exact entryAt?_of_not_pathExists hg.isTree (isPlainName_directory _) (fileName_ne _ _ (by decide))
    hg.located hg.directory hnew

theorem isRunOf_runOf (hg : Ground start (settings.sourceRoot path) place)
    (hready : IsReady start settings path request made)
    (htaken : Taken start (settings.sourceRoot path) (settings.backupRoot path) snapshot store) :
    IsRunOf start settings path request made (runOf start settings path request made place snapshot) := by
  refine ⟨rfl, rfl, rfl, rfl, rfl, rfl, isGrounded_runOf hg hready snapshot, ?_⟩
  obtain ⟨disk, hmade, hsaving⟩ := htaken
  have hlength := hsaving.length_eq
  rw [List.filter_nil, List.length_nil, Nat.add_zero,
    funext (isRegular_grown hg hmade.grows hmade.isTree)] at hlength
  exact hlength

/-- Right after the snapshot its copies are those of the registries at the start. -/
theorem working_runOf (hg : Ground start (settings.sourceRoot path) place)
    (htaken : Taken start (settings.sourceRoot path) (settings.backupRoot path) snapshot store) :
    (runOf start settings path request made place snapshot).Working none store := by
  obtain ⟨disk, hmade, hsaving⟩ := htaken
  have hgrows := grows_of_madeFresh hmade hsaving.grownIn
  constructor
  · exact hsaving.grownIn.home_eq
  · exact hsaving.outage_eq
  · exact hsaving.nesting_eq
  · rw [hsaving.grownIn.home_eq]
    exact hsaving.grownIn.isTree
  · exact (hgrows.mono fun _ hq => .inr hq).edits
  · obtain ⟨name, -, hname⟩ := hmade.child
    exact ⟨hmade.fresh, ⟨name, hname⟩, List.prefix_rfl⟩
  · rw [hsaving.grownIn.home_eq]
    exact hsaving.located
  · exact hsaving.isDirectory
  · intro file hmem
    obtain ⟨kind, content, rfl, hfits, hread, hthere⟩ := hsaving.copies file hmem
    have hearlier := (hg.readFile_registry_iff hmade.grows hmade.isTree).mp hread
    exact ⟨kind, rfl, rfl, hfits, content, hearlier, hthere⟩
  · intro kind content hthere
    have hread := (hg.readFile_registry_iff hmade.grows hmade.isTree).mpr hthere
    exact ⟨_, hsaving.complete kind List.not_mem_nil content hread, rfl⟩
  · exact Nat.le_of_eq hsaving.count.symm
  · exact fun bytes hb => by cases hb

end RunOf

/-- After the snapshot a run has the state of one with a snapshot. Without one it stops, unless the root of the
snapshots has a null character. -/
theorem spec_backUp (ht : IsTree start.disk start.home)
    (hready : IsReady start settings path request made) :
    Spec (· = start) (backUp settings made.project)
      (fun snapshot store =>
        Taken start (settings.sourceRoot path) (settings.backupRoot path) snapshot store ∧
        ∃ run, IsRunOf start settings path request made run ∧ run.snapshot = snapshot ∧
          run.Working none store)
      fun failure store => (BackupOnly start (settings.backupRoot path) store ∧
        IsTree store.disk start.home) ∧ EndsAt [.backup] failure ∧ ∀ cause, failure = .escaped cause →
          (settings.backupRoot path).hasNul = true ∧ cause = .access .nullCharacter := by
  obtain ⟨place, hg⟩ := hready.detected.ground ht
  have htake : Spec (· = start) (take settings made.project) _ _ :=
    spec_take ht fun directory disk hmade => by
      rw [hready.detected.sourceRoot_eq]
      exact isSettled_of_ground (hg.grow hmade.grows hmade.isTree) _
  rw [hready.detected.path_eq, hready.detected.sourceRoot_eq] at htake
  rw [backUp]
  refine Spec.bind spec_unguardedReport fun _ => ?_
  refine Spec.bind (Spec.outcome htake) fun result => ?_
  -- a failed snapshot is an orderly stop, unless what failed was no fault of the disk
  rcases result with failure | snapshot
  · dsimp only
    split
    · exact Spec.throw _ fun _ hs => ⟨⟨hs.1.1, hs.1.2.2⟩, endsAt_stopped (by decide) _, fun _ h => by cases h⟩
    · rename_i hfault
      refine Spec.throw _ fun store hs => ?_
      obtain ⟨⟨⟨fresh, hgrows⟩, -, htree⟩, hcause, -⟩ := hs
      refine ⟨⟨⟨fresh, hgrows⟩, htree⟩, endsAt_escaped _ _, fun cause h => ?_⟩
      obtain rfl := AddFailure.escaped.inj h
      exact (hcause.resolve_left hfault).resolve_left (not_isHidden hg hgrows htree)
  · exact Spec.bind spec_unguardedReport fun _ => Spec.pure _ fun store hs => ⟨hs,
      runOf start settings path request made place snapshot,
      isRunOf_runOf hg hready hs, rfl, working_runOf hg hs⟩

/-- The stages after the snapshot. -/
def Stage.changing : List Stage := [.writeComponent, .updateIndex, .patchRegistries]

/-- How a run ends that has a snapshot: from the second stage on the component is there as planned. -/
def EndsWith (start : Store) (settings : Settings) (path : Path) (request : Request) (plan : Plan)
    (failure : AddFailure) (store : Store) : Prop :=
  ∃ run written, IsRunOf start settings path request plan run ∧ run.Working written store ∧
    ∀ stop, failure = .stopped stop → ∃ stage ∈ Stage.changing, run.Stopped stage stop store ∧
      (stage ≠ .writeComponent → written = some (Utf8.encode plan.component.content))

/-- With a snapshot a run ends with a component, or stops in the state of a run with this snapshot. -/
theorem spec_finish (hready : IsReady start settings path request made)
    (hrun : IsRunOf start settings path request made run) :
    Spec (run.Working none) (finish settings request made run.snapshot)
      (fun added store => added.snapshot = run.snapshot ∧
        run.Working (some (Utf8.encode made.component.content)) store)
      fun failure store => ∃ written, run.Working written store ∧
        ∃ stop, failure = .stopped stop ∧ ∃ stage ∈ Stage.changing, run.Stopped stage stop store ∧
          (stage ≠ .writeComponent → written = some (Utf8.encode made.component.content)) := by
  have hg := hrun.isGrounded
  have hroot : made.project.sourceRoot = run.root := by
    rw [hready.detected.sourceRoot_eq, hrun.root_eq]
  rw [finish, hready.detected.sourceRoot_eq, ← hrun.target_eq hready]
  -- the component is written, the index and the registries come after it
  refine Spec.bind ((spec_guarded hg (spec_writeComponent hg)).weaken_error
    fun failure _ ⟨hworking, stop, hstop, hstopped⟩ => ⟨none, hworking, stop, hstop, .writeComponent,
      by decide, hstopped, fun hne => absurd rfl hne⟩) fun _ => ?_
  refine Spec.bind ((spec_guarded hg (spec_updateComponentIndex hg hroot hrun.edited_eq
    hready.isFor)).weaken_error fun failure _ ⟨hworking, stop, hstop, hstopped⟩ =>
      ⟨_, hworking, stop, hstop, .updateIndex, by decide, hstopped, fun _ => rfl⟩) fun indexUpdated => ?_
  refine Spec.bind ((spec_guarded hg (spec_patchRegistries hg hroot hrun.edited_eq
    hready.isFor)).weaken_error fun failure _ ⟨hworking, stop, hstop, hstopped⟩ =>
      ⟨_, hworking, stop, hstop, .patchRegistries, by decide, hstopped, fun _ => rfl⟩) fun patches => ?_
  exact Spec.pure _ fun store hs => ⟨rfl, hs⟩

/-- Carrying a plan out ends with a component, with nothing but a snapshot, or in the state of a run with
a snapshot. -/
theorem spec_carryOut (ht : IsTree start.disk start.home)
    (hready : IsReady start settings path request made) :
    Spec (· = start) (carryOut settings request made)
      (fun _ store => ∃ run, IsRunOf start settings path request made run ∧
        run.Working (some (Utf8.encode made.component.content)) store)
      fun failure store =>
        (BackupOnly start (settings.backupRoot path) store ∧ EndsAt [.backup] failure) ∨
        EndsWith start settings path request made failure store := by
  rw [carryOut_eq_bind]
  refine Spec.bind ((spec_backUp ht hready).weaken_ends (fun _ _ h => h.2)
    fun _ _ h => .inl ⟨h.1.1, h.2.1⟩) fun snapshot => Spec.of_forall fun store hs => ?_
  obtain ⟨run, hrun, rfl, hworking⟩ := hs
  -- every stop behind the snapshot ends with the run it belongs to
  refine (spec_finish hready hrun).weaken (fun _ h => h ▸ hworking) (fun _ _ h => ⟨run, hrun, h.2⟩)
    fun failure after h => .inr ?_
  obtain ⟨written, hafter, stop, rfl, hstopped⟩ := h
  refine ⟨run, written, hrun, hafter, fun other hother => ?_⟩
  rwa [← AddFailure.stopped.inj hother]

end ComponentKit.Workflow
