import ComponentKit.Proofs.Component.Lines
import ComponentKit.Proofs.Workflow.Working

/-!
# The stages of a run

What each stage of `add` does to the files. The stages in front of the snapshot change nothing, the snapshot only
adds, and the stages after it keep the state that a `rollBack` starts from.
-/

namespace ComponentKit.Workflow

open Disk Project Snapshot Step

variable {run : Run} {written : Option Bytes} {start store : Store} {settings : Settings}
  {path : Path} {request : Request} {templates : TemplateSource} {project : Project}
  {name : Text} {component : Component.Generated}

/-! ## Writing -/

/-- Writing the registry of the kind that is added keeps the state of a run. -/
theorem spec_writeRegistry (hg : run.IsGrounded) {kind : IndexedKind} (hkind : run.edited = some kind)
    (text : Text) :
    Spec (fun store => run.Working written store ∧
        store.disk.isFile store.home (registryPath run.root kind) = .ok true)
      (writeText (registryPath run.root kind) text)
      (fun _ => run.Working written) fun _ => run.Working written := by
  refine Spec.of_forall fun store hs => ?_
  obtain ⟨hworking, hlook⟩ := hs
  have htree := hworking.isTree
  rw [hworking.home_eq] at hlook htree
  obtain ⟨now, hnow⟩ := (hg.ground.isFile_registry (fun q => hworking.edits.directory) htree kind).mp hlook
  have hwas := hworking.registry_was_file hg hnow
  have hmade := Run.makeDirectories_registry hg hworking hnow
  refine (spec_writeText _ text).weaken_ends (fun _ after hafter => ?_) fun _ after hafter => ?_
  · obtain ⟨disk, hwrite, rfl⟩ := hafter
    -- the directory is there already, so that only the file itself changes
    rw [hmade] at hwrite
    obtain ⟨place, hplace, -, rfl⟩ := writeFile_eq_ok.mp hwrite
    rw [hworking.locate_registry hg hnow] at hplace
    rw [← Except.ok.inj hplace]
    exact hworking.put_registry hg hwas (.inl hkind) (Nat.le_refl _)
  · rw [hmade] at hafter
    rcases hafter with rfl | rfl
    · exact hworking
    · exact hworking

/-- A component goes to its place in the source root, whatever way leads there. -/
theorem Run.Working.locate_target (h : run.Working written store) (hg : run.IsGrounded) {place : Location}
    (hplace : store.disk.locate store.home run.target = .ok place) : place = run.targetPlace := by
  obtain ⟨middle, hmiddle, -, rfl⟩ := locate_child_eq_ok hplace
  obtain ⟨base, hbase, -, rfl⟩ := locate_child_eq_ok hmiddle
  have hroot := locate_mono (fun q => h.edits.directory) hg.ground.located
  rw [← h.home_eq] at hroot
  rw [← Except.ok.inj (hroot.symm.trans hbase), Path.step_of_ne hg.file_ne, hg.directory_plain.step, Run.targetPlace]

/-- No copy of the snapshot stands where the component goes. -/
theorem Run.Working.copy_ne_target (h : run.Working written store) (hg : run.IsGrounded) (kind : IndexedKind) :
    registryPlace run.fresh kind ≠ run.targetPlace := by
  intro heq
  -- the snapshot would be the source root, which was there before
  have hplaces := congrArg (fun q => List.dropLast (List.dropLast q)) heq
  simp only [registryPlace, Run.targetPlace, List.dropLast_concat] at hplaces
  have hfresh := h.inFresh.1
  rw [hplaces, hg.ground.directory] at hfresh
  cases hfresh

/-- The state behind writing the component. -/
theorem Run.Working.put_target (h : run.Working none store) (hg : run.IsGrounded)
    (hplace : store.disk.locate store.home run.target = .ok run.targetPlace)
    (hne : store.disk.entryAt? run.targetPlace ≠ some .directory) (bytes : Bytes) :
    run.Working (some bytes) { store with disk := store.disk.put run.targetPlace (.file bytes) } := by
  -- the plan has looked for the component, and found nothing there
  have hnone : run.start.disk.entryAt? run.targetPlace = none :=
    hg.absent.resolve_left fun hnul => by
      rw [(locate_eq_ok.mp hplace).1.noNul] at hnul
      cases hnul
  have hmay : run.MayAdd run.targetPlace := by
    rw [locate_eq_resolve hplace, h.home_eq]
    exact .inl (resolve_mem_waypoints _ _)
  have hdir : ∀ q, store.disk.entryAt? q = some .directory →
      (store.disk.put run.targetPlace (.file bytes)).entryAt? q = some .directory := by
    intro q hq
    rw [entryAt?_put_of_ne _ _ fun heq => ?_, hq]
    exact hne (heq ▸ hq)
  constructor
  · exact h.home_eq
  · exact h.outage_eq
  · exact h.nesting_eq
  · exact h.isTree.put (h.isTree.locate_parent hplace) (.inr hne)
  · exact h.edits.put_new hnone hmay _
  · exact h.inFresh
  · exact locate_mono hdir h.located
  · exact hdir _ h.isDirectory
  · intro file hmem
    obtain ⟨other, hcopy⟩ := h.copies file hmem
    obtain ⟨kept, hstart, hdisk⟩ := hcopy.content
    refine ⟨other, hcopy.path_eq, hcopy.copy_eq, hcopy.fits, kept, hstart, ?_⟩
    rw [entryAt?_put_of_ne _ _ (h.copy_ne_target hg other), hdisk]
  · exact h.complete
  · exact h.count
  · intro new hnew
    obtain rfl := Option.some.inj hnew
    exact ⟨hnone, entryAt?_put_self _ _ _ (by simp [Run.targetPlace])⟩

/-- Writing the component puts its bytes where nothing was before. -/
theorem spec_writeTarget (hg : run.IsGrounded) (text : Text) :
    Spec (run.Working none) (writeText run.target text)
      (fun _ => run.Working (some (Utf8.encode text))) fun _ => run.Working none := by
  refine Spec.of_forall fun store hworking => ?_
  have hmade := madeDirectories run.target.parent hworking.isTree
  have hway : ∀ q, q ∈ waypoints store.home run.target.parent → run.MayAdd q := by
    intro q hq
    rw [hworking.home_eq, Run.target, Path.parent_child] at hq
    exact .inl (waypoints_append [run.file] hq)
  have hmiddle := hworking.grow (hmade.grows.mono hway) hmade.isTree
  refine (spec_writeText _ text).weaken_ends (fun _ after hafter => ?_) fun _ after hafter => ?_
  · obtain ⟨disk, hwrite, rfl⟩ := hafter
    obtain ⟨place, hplace, hne, rfl⟩ := writeFile_eq_ok.mp hwrite
    obtain rfl := hmiddle.locate_target hg hplace
    exact hmiddle.put_target hg hplace hne _
  · rcases hafter with rfl | rfl
    · exact hworking
    · exact hmiddle

/-- The component is written in the end; if not, nothing stands where it goes. -/
theorem spec_writeComponent (hg : run.IsGrounded) :
    Spec (run.Working none) (writeComponent run.target component)
      (fun _ => run.Working (some (Utf8.encode component.content))) fun _ => run.Working none := by
  rw [writeComponent]
  refine Spec.bind Spec.report fun _ => ?_
  refine Spec.bind (spec_writeTarget hg _) fun _ => ?_
  exact Spec.report

/-! ## Indexes and registries -/

/-- Only the index of the kind that is added is written. -/
theorem spec_updateIndex (hg : run.IsGrounded) (hroot : project.sourceRoot = run.root) {kind : Kind}
    (hkind : run.edited = IndexedKind.ofKind? kind) (fragment : Text) :
    Spec (run.Working written) (project.updateIndex kind fragment)
      (fun _ => run.Working written) fun _ => run.Working written := by
  rw [Project.updateIndex]
  split
  · exact Spec.bind Spec.report fun _ => Spec.pure _ fun _ hs => hs
  · rename_i hindex
    -- the index of a kind that has one is the registry of that kind
    have hsome : (IndexedKind.ofKind? kind).isSome = true := by
      rw [IndexedKind.isSome_ofKind?]
      cases h : kind.conventions.hasIndex with
      | true => rfl
      | false => simp [h] at hindex
    obtain ⟨indexed, hindexed⟩ := Option.isSome_iff_exists.mp hsome
    have hpath : indexPath project.sourceRoot kind = registryPath run.root indexed := by
      rw [hroot, ← Component.toKind_of_ofKind? hindexed]
      rfl
    dsimp only
    rw [hpath]
    refine Spec.bind ((spec_inspect _ _).weaken_error fun _ _ h => h.1) fun found => ?_
    split
    · exact Spec.throw_bind _ fun _ hs => hs.1
    · rename_i hfound
      have hthere : found = true := by simpa using hfound
      subst hthere
      refine Spec.bind (Spec.mapFailure ((spec_readText _ _).weaken_error
        fun _ _ h => h.1)) fun current => ?_
      split
      · exact Spec.bind Spec.report fun _ => Spec.pure _ fun _ hs => hs.1
      · refine Spec.bind (Spec.mapFailure (spec_writeRegistry hg (hkind.trans hindexed) _)) fun _ => ?_
        exact Spec.bind Spec.report fun _ => Spec.pure _ fun _ hs => hs

theorem spec_reportPatch (P : Store → Prop) (registry : Path) (update : Registry.Update)
    (patch : Registry.Patch) :
    Spec P (reportPatch registry update patch) (fun _ => P) fun _ => P := by
  have hreport : ∀ level text, Spec P (report level text) (fun _ => P) fun _ => P :=
    fun level text => Spec.report
  have hwarnings : ∀ (warnings : List Registry.Warning) (message : Registry.Warning → Text),
      Spec P (warnings.forM fun warning => report .warning (message warning)) (fun _ => P)
        fun _ => P := by
    intro warnings message
    induction warnings with
    | nil => exact Spec.pure _ fun _ hs => hs
    | cons warning warnings ih => exact Spec.bind (hreport _ _) fun _ => ih
  rw [reportPatch]
  have hlast := hwarnings patch.warnings
    fun warning => Text.concat [update.kind.name, " registry: ", warning.message]
  -- three kinds of messages, the last of them one for each warning
  split
  all_goals
    refine Spec.bind (hreport _ _) fun _ => ?_
    split
    · exact Spec.bind (hreport _ _) fun _ => hlast
    · exact hlast

/-- Only the registry of the kind that is added is written. -/
theorem spec_apply (hg : run.IsGrounded) (hroot : project.sourceRoot = run.root)
    {update : Registry.Update} (hkind : run.edited = some update.kind) :
    Spec (run.Working written) (project.apply settings update)
      (fun _ => run.Working written) fun _ => run.Working written := by
  rw [Project.apply]
  dsimp only
  rw [hroot]
  -- a missing registry is a failure of its own; one that is there is read, patched and written
  refine Spec.bind ((spec_inspect _ _).weaken_error fun _ _ h => h.1) fun found => ?_
  split
  · exact Spec.throw_bind _ fun _ hs => hs.1
  · rename_i hfound
    have hthere : found = true := by simpa using hfound
    subst hthere
    refine Spec.bind (Spec.mapFailure ((spec_readText _ _).weaken_error
      fun _ _ h => h.1)) fun current => ?_
    refine Spec.bind ((spec_reportPatch _ _ _ _).weaken_error fun _ _ h => h.1) fun _ => ?_
    split
    · refine Spec.bind (Spec.mapFailure (spec_writeRegistry hg hkind _)) fun _ => ?_
      exact Spec.bind Spec.report fun _ => Spec.pure _ fun _ hs => hs
    · exact Spec.bind Spec.report fun _ => Spec.pure _ fun _ hs => hs.1

theorem spec_applyAll (hg : run.IsGrounded) (hroot : project.sourceRoot = run.root)
    {updates : List Registry.Update} (hkind : ∀ update ∈ updates, run.edited = some update.kind) :
    Spec (run.Working written) (project.applyAll settings updates)
      (fun _ => run.Working written) fun _ => run.Working written := by
  -- on the updates, the first failure of which ends the run
  induction updates with
  | nil => exact Spec.pure _ fun _ hs => hs
  | cons update updates ih =>
    obtain ⟨hhead, htail⟩ := List.forall_mem_cons.mp hkind
    rw [Project.applyAll]
    refine Spec.bind (Spec.outcome (spec_apply hg hroot hhead)) fun result => ?_
    cases result with
    | ok done => exact Spec.bind (ih htail) fun more => Spec.pure _ fun _ hs => hs
    | error failure =>
      dsimp only
      split
      · exact Spec.bind Spec.report fun _ => Spec.throw _ fun _ hs => hs
      · exact Spec.throw _ fun _ hs => hs

/-! ## The generated component -/

/-- A component for a kind: its lines are for the index and registry of this kind, if there are such. -/
structure IsFor (kind : Kind) (component : Component.Generated) : Prop where
  /-- The kind of the component. -/
  kind_eq : component.kind = kind
  /-- The kind of its registry. -/
  indexed : ∀ wiring, component.wiring = some wiring → IndexedKind.ofKind? kind = some wiring.update.kind

theorem isFor_wiringOf (kind : Kind) (name content : Text) :
    IsFor kind ⟨kind, content, Component.wiringOf kind name⟩ := by
  refine ⟨rfl, fun wiring hwiring => ?_⟩
  obtain ⟨indexed, hindexed, rfl⟩ := Option.map_eq_some_iff.mp hwiring
  exact hindexed

/-- The index is changed for the kind of the component only. -/
theorem spec_updateComponentIndex (hg : run.IsGrounded) (hroot : project.sourceRoot = run.root)
    {kind : Kind} (hkind : run.edited = IndexedKind.ofKind? kind) (hfor : IsFor kind component) :
    Spec (run.Working written) (updateIndex project component)
      (fun _ => run.Working written) fun _ => run.Working written := by
  rw [updateIndex]
  split
  · exact Spec.pure _ fun _ hs => hs
  · refine Spec.bind Spec.report fun _ => ?_
    rw [hfor.kind_eq]
    exact spec_updateIndex hg hroot hkind _

/-- The registry is changed for the kind of the component only. -/
theorem spec_patchRegistries (hg : run.IsGrounded) (hroot : project.sourceRoot = run.root)
    {kind : Kind} (hkind : run.edited = IndexedKind.ofKind? kind) (hfor : IsFor kind component) :
    Spec (run.Working written) (patchRegistries settings project component)
      (fun _ => run.Working written) fun _ => run.Working written := by
  rw [patchRegistries]
  split
  · exact Spec.pure _ fun _ hs => hs
  · rename_i wiring hwiring
    refine Spec.bind Spec.report fun _ => spec_applyAll hg hroot fun update hmem => ?_
    rw [List.mem_singleton.mp hmem, hkind]
    exact hfor.indexed wiring hwiring

/-! ## Guarded stages -/

/-- How a stage that is `guarded` ends without a new component. -/
structure Run.Stopped (run : Run) (stage : Stage) (stop : Stop) (store : Store) : Prop where
  /-- The stage is the one that failed. -/
  stage_eq : stop.stage = stage
  /-- If the registries are restored, or there was none to restore, only new places have changed. -/
  grows : stop.rolledBack = true ∨ run.snapshot.files = [] → Grows run.MayAdd run.start.disk store.disk
  /-- If they are not restored, there was none or the device has refused a copy. -/
  refused : stop.rolledBack = false → run.snapshot.files = [] ∨ run.Refused store

/-- A stage that keeps the state of a run ends in it. It fails in no other way than by a stop that has rolled
back. -/
theorem spec_guarded (hg : run.IsGrounded) {α : Type} {step : Step Failure α} {stage : Stage}
    {Q : α → Store → Prop} (h : Spec (run.Working written) step Q fun _ => run.Working written) :
    Spec (run.Working written) (guarded run.snapshot stage step) Q
      fun failure store => run.Working written store ∧
        ∃ stop, failure = .stopped stop ∧ run.Stopped stage stop store := by
  rw [guarded]
  refine Spec.bind (Spec.outcome h) fun result => ?_
  cases result with
  | ok value => exact Spec.pure _ fun _ hs => hs
  | error failure =>
    refine Spec.bind (Spec.mapFailure ((Run.spec_rollBack hg).weaken_error
      fun _ _ hs => hs.elim)) fun restored => ?_
    exact Spec.throw _ fun store hs => ⟨hs.1, _, rfl, rfl, hs.2.1, hs.2.2⟩

end ComponentKit.Workflow
