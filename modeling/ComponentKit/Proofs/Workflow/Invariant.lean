import ComponentKit.Proofs.Disk.Names
import ComponentKit.Proofs.Workflow.Plan

/-!
# Properties of the disk that a run keeps

What survives that an entry is put on a disk (`SurvivesPut`) holds after every run for which it holds in front. A
step `Keeps` such a property if its parts do; only the operations that change the disk are looked into.
-/

namespace ComponentKit.Workflow

open Disk Project Snapshot Step

variable {I : Disk → Prop} {ε ε' α β : Type} {settings : Settings} {templates : TemplateSource}
  {path : Path} {request : Request} {project : Project} {snapshot : Snapshot} {component : Component.Generated}

/-- Whether a step keeps a property of the disk, however it ends. -/
def Keeps (I : Disk → Prop) (step : Step ε α) : Prop :=
  Spec (fun store => I store.disk) step (fun _ store => I store.disk) fun _ store => I store.disk

/-! ## Steps that read -/

namespace Keeps

variable {step : Step ε α} {next : α → Step ε β}

theorem pure (value : α) : Keeps I (Pure.pure value : Step ε α) :=
  Spec.pure _ fun _ h => h

theorem throw (failure : ε) : Keeps I (MonadExcept.throw failure : Step ε α) :=
  Spec.throw _ fun _ h => h

theorem bind (hstep : Keeps I step) (hnext : ∀ value, Keeps I (next value)) : Keeps I (step >>= next) :=
  Spec.bind hstep hnext

theorem outcome (hstep : Keeps I step) : Keeps I (Step.outcome step : Step ε' (Except ε α)) :=
  (Spec.outcome hstep).weaken_ok fun result _ h => by cases result <;> exact h

theorem mapFailure {f : ε → ε'} (hstep : Keeps I step) : Keeps I (step.mapFailure f) :=
  Spec.mapFailure hstep

theorem report (level : Level) (text : Text) : Keeps I (Step.report level text) :=
  Spec.report

theorem inspect (look : Disk → Location → Except Fault α) : Keeps I (Step.inspect look) :=
  (spec_inspect _ look).weaken_ends (fun _ _ h => h.1) fun _ _ h => h.1

theorem readText (path : Path) : Keeps I (Step.readText path) :=
  spec_readText _ path

/-- A step that keeps every store keeps every property. -/
theorem of_spec {Q : Store → α → Prop} {E : Store → ε → Prop}
    (h : ∀ start, Spec (· = start) step (fun value store => store = start ∧ Q start value)
      fun failure store => store = start ∧ E start failure) : Keeps I step := by
  refine Spec.of_forall fun start hs => (h start).weaken_ends ?_ ?_
  · rintro value store ⟨rfl, -⟩
    exact hs
  · rintro failure store ⟨rfl, -⟩
    exact hs

end Keeps

/-! ## Steps that write -/

section Writing

variable (hI : SurvivesPut I)

include hI

theorem keeps_writeText (path : Path) (text : Text) : Keeps I (writeText path text) := by
  refine Spec.of_forall fun start hs => (spec_writeText path text).weaken_ends ?_ ?_
  · rintro value store ⟨disk, hwrite, rfl⟩
    exact hI.writeFile (hI.makeDirectories hs _ _) hwrite
  · rintro failure store (rfl | rfl)
    · exact hs
    · exact hI.makeDirectories hs _ _

theorem keeps_copyFile (source target : Path) : Keeps I (copyFile source target) := by
  refine Spec.of_forall fun start hs => (spec_copyFile source target).weaken_ends ?_ ?_
  · rintro value store ⟨disk, -, hcopy, rfl⟩
    exact hI.copyFile (hI.makeDirectories hs _ _) hcopy
  · rintro failure store (⟨rfl, -⟩ | ⟨rfl, -⟩)
    · exact hI.makeDirectories hs _ _
    · exact hI.makeDirectories hs _ _

theorem keeps_makeFreshDirectory (root : Path) (name : Text) : Keeps I (makeFreshDirectory root name) := by
  refine Spec.of_forall fun start hs => (spec_makeFreshDirectory root name).weaken_ends ?_ ?_
  · rintro value store ⟨rfl, -⟩
    exact hI.makeFreshDirectory hs _ _ _
  · rintro failure store ⟨rfl, -⟩
    exact hI.makeFreshDirectory hs _ _ _

/-! ## Snapshots -/

theorem keeps_saveAll (root directory : Path) (paths : List Path) :
    Keeps I (saveAll root directory paths) := by
  induction paths with
  | nil => exact .pure _
  | cons path rest ih =>
    rw [saveAll]
    refine .bind (.inspect _) fun found => ?_
    split
    · refine .bind (.mapFailure (keeps_copyFile hI _ _)) fun _ => ?_
      exact .bind (.report _ _) fun _ => .bind ih fun _ => .pure _
    · exact .bind (.report _ _) fun _ => ih

theorem keeps_backUp : Keeps I (backUp settings project) := by
  have htake : Keeps I (Snapshot.take settings project) := by
    rw [Snapshot.take]
    refine .bind (Spec.get fun _ h => h) fun session => ?_
    refine .bind (.mapFailure (keeps_makeFreshDirectory hI _ _)) fun directory => ?_
    exact .bind (keeps_saveAll hI _ _ _) fun files => .bind (.report _ _) fun _ => .pure _
  rw [backUp]
  refine .bind (.mapFailure (.report _ _)) fun _ => .bind htake.outcome fun result => ?_
  cases result with
  | ok snapshot => exact .bind (.mapFailure (.report _ _)) fun _ => .pure _
  | error failure =>
    dsimp only
    split
    · exact .throw _
    · exact .throw _

theorem keeps_rollBack : Keeps I (rollBack snapshot) := by
  -- file by file, as restoring is a recursion on the list of saved files
  have hall : ∀ files, Keeps I (restoreAll files) := by
    intro files
    induction files with
    | nil => exact .pure _
    | cons file rest ih =>
      rw [restoreAll]
      refine .bind (.inspect _) fun found => ?_
      split
      · exact .bind (.throw _) fun _ => .bind (.mapFailure (keeps_copyFile hI _ _)) fun _ =>
          .bind (.report _ _) fun _ => .bind ih fun _ => .pure _
      · exact .bind (.mapFailure (keeps_copyFile hI _ _)) fun _ =>
          .bind (.report _ _) fun _ => .bind ih fun _ => .pure _
  rw [rollBack]
  split
  · exact .pure _
  · refine .bind (.report _ _) fun _ => .bind (hall snapshot.files).outcome fun result => ?_
    cases result with
    | ok paths => exact .bind (.report _ _) fun _ => .pure _
    | error failure =>
      dsimp only
      split
      · exact .bind (.report _ _) fun _ => .pure _
      · exact .throw _

theorem keeps_guarded {stage : Stage} {step : Step Failure α} (hstep : Keeps I step) :
    Keeps I (guarded snapshot stage step) := by
  rw [guarded]
  refine .bind hstep.outcome fun result => ?_
  cases result with
  | ok value => exact .pure _
  | error failure => exact .bind (.mapFailure (keeps_rollBack hI)) fun _ => .throw _

/-! ## Indexes and registries -/

theorem keeps_updateIndex : Keeps I (updateIndex project component) := by
  have hindex : ∀ kind fragment, Keeps I (project.updateIndex kind fragment) := by
    intro kind fragment
    rw [Project.updateIndex]
    split
    · exact .bind (.report _ _) fun _ => .pure _
    · refine .bind (.inspect _) fun found => ?_
      split
      · exact Spec.throw_bind _ fun _ h => h
      · refine .bind (.mapFailure (.readText _)) fun current => ?_
        split
        · exact .bind (.report _ _) fun _ => .pure _
        · exact .bind (.mapFailure (keeps_writeText hI _ _)) fun _ =>
            .bind (.report _ _) fun _ => .pure _
  rw [updateIndex]
  split
  · exact .pure _
  · exact .bind (.report _ _) fun _ => hindex _ _

theorem keeps_apply (update : Registry.Update) : Keeps I (project.apply settings update) := by
  rw [Project.apply]
  refine .bind (.inspect _) fun found => ?_
  split
  · exact Spec.throw_bind _ fun _ h => h
  · refine .bind (.mapFailure (.readText _)) fun current => ?_
    refine .bind (spec_reportPatch _ _ _ _) fun _ => ?_
    split
    · exact .bind (.mapFailure (keeps_writeText hI _ _)) fun _ => .bind (.report _ _) fun _ => .pure _
    · exact .bind (.report _ _) fun _ => .pure _

theorem keeps_patchRegistries : Keeps I (patchRegistries settings project component) := by
  have hall : ∀ updates, Keeps I (project.applyAll settings updates) := by
    intro updates
    induction updates with
    | nil => exact .pure _
    | cons update updates ih =>
      rw [Project.applyAll]
      refine .bind (keeps_apply hI update).outcome fun result => ?_
      cases result with
      | ok done => exact .bind ih fun _ => .pure _
      | error failure =>
        dsimp only
        split
        · exact .bind (.report _ _) fun _ => .throw _
        · exact .throw _
  rw [patchRegistries]
  split
  · exact .pure _
  · exact .bind (.report _ _) fun _ => hall _

/-! ## Whole runs -/

/-- A run keeps what survives that an entry is put on the disk. -/
theorem keeps_add : Keeps I (add settings templates path request) := by
  rw [add_eq_bind]
  refine .bind (.of_spec (E := fun _ => EndsAt Stage.planning) fun start => spec_plan) fun made => ?_
  rw [carryOut_eq_bind]
  refine .bind (keeps_backUp hI) fun snapshot => ?_
  rw [finish]
  refine .bind (keeps_guarded hI ?_) fun _ => .bind (keeps_guarded hI (keeps_updateIndex hI)) fun _ =>
    .bind (keeps_guarded hI (keeps_patchRegistries hI)) fun _ => .pure _
  rw [writeComponent]
  exact .bind (.report _ _) fun _ => .bind (keeps_writeText hI _ _) fun _ => .report _ _

end Writing

end ComponentKit.Workflow
