import ComponentKit.Proofs.Project.Snapshot
import ComponentKit.Workflow.Add

/-!
# A run with a snapshot

What holds from the snapshot of a run to its end, whatever fails (`Working`): only the registry of the kind that is
added has other content, what is new are the component and the snapshot, and the copies are intact. So `rollBack`
takes every registry back to its earlier content, or the device has refused one of its copies.
-/

namespace ComponentKit

/-! ## Edits of some files -/

namespace Disk

variable {disk before middle after : Disk} {home place : Location} {allowed edited : Location → Prop}

/-- What changes are places where nothing stood, all of them allowed ones, and the content of some
files. -/
def Edits (allowed edited : Location → Prop) (before after : Disk) : Prop :=
  ∀ place, after.entryAt? place = before.entryAt? place ∨
    (before.entryAt? place = none ∧ allowed place) ∨
    (edited place ∧ (∃ content, before.entryAt? place = some (.file content)) ∧
      ∃ content, after.entryAt? place = some (.file content))

theorem Grows.edits (h : Grows allowed before after) : Edits allowed edited before after :=
  fun place => (h place).imp_right .inl

namespace Edits

/-- Every directory is still there. -/
theorem directory (h : Edits allowed edited before after)
    (hd : before.entryAt? place = some .directory) : after.entryAt? place = some .directory := by
  rcases h place with heq | ⟨hnone, -⟩ | ⟨-, ⟨content, hfile⟩, -⟩
  · rw [heq, hd]
  · rw [hd] at hnone
    cases hnone
  · rw [hd] at hfile
    cases hfile

theorem trans_grows (h : Edits allowed edited before middle) (hg : Grows allowed middle after) :
    Edits allowed edited before after := by
  intro place
  rcases hg place with heq | ⟨hnone, hallowed⟩
  · rw [heq]
    exact h place
  · rcases h place with heq | hnew | ⟨-, -, content, hfile⟩
    · exact .inr (.inl ⟨by rw [← heq, hnone], hallowed⟩)
    · exact .inr (.inl hnew)
    · rw [hnone] at hfile
      cases hfile

/-- A file that may be edited is given other content. -/
theorem put_edited (h : Edits allowed edited before middle) (he : edited place)
    (hfile : ∃ content, before.entryAt? place = some (.file content)) (content : Bytes) :
    Edits allowed edited before (middle.put place (.file content)) := by
  intro other
  rw [entryAt?_put]
  split
  · rename_i hother
    rw [hother.1]
    exact .inr (.inr ⟨he, hfile, content, rfl⟩)
  · exact h other

/-- A file is given its earlier content. -/
theorem put_earlier (h : Edits allowed edited before middle) {content : Bytes}
    (hfile : before.entryAt? place = some (.file content)) :
    Edits allowed edited before (middle.put place (.file content)) := by
  intro other
  rw [entryAt?_put]
  split
  · rename_i hother
    rw [hother.1]
    exact .inl hfile.symm
  · exact h other

/-- Where nothing stood a file is put, in the place of a file at most. -/
theorem put_new (h : Edits allowed edited before middle) (hnone : before.entryAt? place = none)
    (ha : allowed place) (entry : Entry) : Edits allowed edited before (middle.put place entry) := by
  intro other
  rw [entryAt?_put]
  split
  · rename_i hother
    rw [hother.1]
    exact .inr (.inl ⟨hnone, ha⟩)
  · exact h other

/-- A disk on which all edited files have their earlier content has only grown. -/
theorem grows (h : Edits allowed edited before after)
    (hback : ∀ place, edited place → after.entryAt? place = before.entryAt? place) :
    Grows allowed before after := by
  intro place
  rcases h place with heq | hnew | ⟨he, -, -⟩
  · exact .inl heq
  · exact .inr hnew
  · exact .inl (hback place he)

end Edits

end Disk

namespace Workflow

open Disk Project Snapshot Step

/-! ## The state of a run -/

/-- What stays fixed in a run after its snapshot was taken. -/
structure Run where
  /-- The store before the run. -/
  start : Store
  /-- The source root of the project. -/
  root : Path
  /-- Where the source root leads. -/
  place : Location
  /-- Where snapshots are kept. -/
  backupRoot : Path
  /-- The snapshot. -/
  snapshot : Snapshot
  /-- Where its directory stands. -/
  fresh : Location
  /-- The directory of the component. -/
  directory : Text
  /-- The name of its file. -/
  file : Text
  /-- The kind whose registry the run may edit. -/
  edited : Option IndexedKind

namespace Run

/-- The path of the component. -/
def target (run : Run) : Path :=
  (run.root.child run.directory).child run.file

/-- Where the component stands. -/
def targetPlace (run : Run) : Location :=
  run.place ++ [run.directory] ++ [run.file]

/-- Where a `Run` may add something. -/
def MayAdd (run : Run) (q : Location) : Prop :=
  q ∈ waypoints run.start.home run.target ∨ BackupPlace run.start run.backupRoot run.fresh q

/-- Which registry a `Run` may edit. -/
def MayEdit (run : Run) (q : Location) : Prop :=
  ∃ kind, run.edited = some kind ∧ q = registryPlace run.place kind

/-- What is known of a run from its ground and its beginning. -/
structure IsGrounded (run : Run) : Prop where
  /-- The ground of the run. -/
  ground : Ground run.start run.root run.place
  /-- The directory of the component has a plain name. -/
  directory_plain : IsPlainName run.directory
  /-- The name of its file is no step to the parent. -/
  file_ne : run.file ≠ Path.parentStep
  /-- There was no component, unless under a name that no disk takes. -/
  absent : run.target.hasNul = true ∨ run.start.disk.entryAt? run.targetPlace = none

/-- The state of a `Run` between its snapshot and its end. If the component was written, it has the given bytes. -/
structure Working (run : Run) (written : Option Bytes) (store : Store) : Prop where
  /-- The working directory stays the same. -/
  home_eq : store.home = run.start.home
  /-- The device stays the same. -/
  outage_eq : store.outage = run.start.outage
  /-- So does the reader of manifests. -/
  nesting_eq : store.nesting = run.start.nesting
  /-- The disk is a tree. -/
  isTree : IsTree store.disk store.home
  /-- What has changed since the start. -/
  edits : Edits run.MayAdd run.MayEdit run.start.disk store.disk
  /-- The directory of the snapshot is a fresh one. -/
  inFresh : InFresh run.start.disk (run.backupRoot.resolve run.start.home) run.fresh run.fresh
  /-- It can be located. -/
  located : store.disk.locate store.home run.snapshot.directory = .ok run.fresh
  /-- It is a directory. -/
  isDirectory : store.disk.entryAt? run.fresh = some .directory
  /-- The copies are intact. -/
  copies : ∀ file ∈ run.snapshot.files, ∃ kind,
    IsCopy run.start run.root run.place run.snapshot.directory run.fresh store.disk kind file
  /-- All registries that were files have copies. -/
  complete : ∀ kind content,
    run.start.disk.entryAt? (registryPlace run.place kind) = some (.file content) →
      ∃ file ∈ run.snapshot.files, file.path = registryPath run.root kind
  /-- The snapshot took its copies. -/
  count : run.start.copies + run.snapshot.files.length ≤ store.copies
  /-- The component has the bytes that were written. -/
  written : ∀ bytes, written = some bytes → run.start.disk.entryAt? run.targetPlace = none ∧
    store.disk.entryAt? run.targetPlace = some (.file bytes)

variable {run : Run} {written : Option Bytes} {store : Store} {bytes : Bytes}

/-- The place of a copy is under the directory of the snapshot, where nothing was before. -/
theorem Working.entryAt?_copy (h : run.Working written store) (hg : run.IsGrounded) (kind : IndexedKind) :
    run.start.disk.entryAt? (registryPlace run.fresh kind) = none :=
  hg.ground.isTree.entryAt?_below h.inFresh.1
    ((List.prefix_append _ _).trans (List.prefix_append _ _))

/-- A registry that was a file is one. -/
theorem Working.registry_file (h : run.Working written store) {kind : IndexedKind} {content : Bytes}
    (hfile : run.start.disk.entryAt? (registryPlace run.place kind) = some (.file content)) :
    ∃ content, store.disk.entryAt? (registryPlace run.place kind) = some (.file content) := by
  rcases h.edits (registryPlace run.place kind) with heq | ⟨hnone, -⟩ | ⟨-, -, hnow⟩
  · exact ⟨content, by rw [heq, hfile]⟩
  · rw [hfile] at hnone
    cases hnone
  · exact hnow

/-- A registry that is a file was one. -/
theorem Working.registry_was_file (h : run.Working written store) (hg : run.IsGrounded)
    {kind : IndexedKind} {content : Bytes}
    (hfile : store.disk.entryAt? (registryPlace run.place kind) = some (.file content)) :
    ∃ content, run.start.disk.entryAt? (registryPlace run.place kind) = some (.file content) := by
  rcases h.edits (registryPlace run.place kind) with heq | ⟨hnone, -⟩ | ⟨-, hwas, -⟩
  · exact ⟨content, by rw [← heq, hfile]⟩
  · obtain ⟨entry, hentry⟩ := hg.ground.registries kind
    rw [hentry] at hnone
    cases hnone
  · exact hwas

/-- A registry file is given new content, its earlier one or any one if it may be edited. -/
theorem Working.put_registry (h : run.Working written store) (hg : run.IsGrounded) {kind : IndexedKind}
    {content : Bytes} (hfile : ∃ content, run.start.disk.entryAt? (registryPlace run.place kind)
      = some (.file content))
    (hwhich : run.edited = some kind ∨
      run.start.disk.entryAt? (registryPlace run.place kind) = some (.file content))
    {copies : Nat} (hcopies : store.copies ≤ copies) :
    run.Working written { store with
      disk := store.disk.put (registryPlace run.place kind) (.file content), copies } := by
  obtain ⟨earlier, hearlier⟩ := hfile
  obtain ⟨now, hnow⟩ := h.registry_file hearlier
  -- what a run adds stands where nothing was, and is none of the registries
  have hother : ∀ {q}, run.start.disk.entryAt? q = none →
      (store.disk.put (registryPlace run.place kind) (.file content)).entryAt? q
        = store.disk.entryAt? q := by
    intro q hq
    refine entryAt?_put_of_ne _ _ fun heq => ?_
    rw [heq, hearlier] at hq
    cases hq
  have hdir : ∀ q, store.disk.entryAt? q = some .directory →
      (store.disk.put (registryPlace run.place kind) (.file content)).entryAt? q = some .directory := by
    intro q hq
    rw [entryAt?_put_of_ne _ _ fun heq => ?_, hq]
    rw [heq, hnow] at hq
    cases hq
  constructor
  · exact h.home_eq
  · exact h.outage_eq
  · exact h.nesting_eq
  · exact h.isTree.put (h.isTree.parent hnow) (.inr (by rw [hnow]; simp))
  · rcases hwhich with hedited | hsame
    · exact h.edits.put_edited ⟨kind, hedited, rfl⟩ ⟨earlier, hearlier⟩ content
    · exact h.edits.put_earlier hsame
  · exact h.inFresh
  · exact locate_mono hdir h.located
  · exact hdir _ h.isDirectory
  · intro file hmem
    obtain ⟨other, hcopy⟩ := h.copies file hmem
    obtain ⟨kept, hstart, hdisk⟩ := hcopy.content
    exact ⟨other, hcopy.path_eq, hcopy.copy_eq, hcopy.fits, kept, hstart, by
      rw [hother (h.entryAt?_copy hg other), hdisk]⟩
  · exact h.complete
  · exact Nat.le_trans h.count hcopies
  · intro bytes hb
    obtain ⟨hnone, hthere⟩ := h.written bytes hb
    exact ⟨hnone, by rw [hother hnone, hthere]⟩

/-- Only places for the component or the snapshot are added. -/
theorem Working.grow (h : run.Working written store) {disk : Disk}
    (hg : Grows run.MayAdd store.disk disk) (ht : IsTree disk store.home) :
    run.Working written { store with disk } := by
  -- nothing that is there is touched, so each part of the state is carried over
  constructor
  · exact h.home_eq
  · exact h.outage_eq
  · exact h.nesting_eq
  · exact ht
  · exact h.edits.trans_grows hg
  · exact h.inFresh
  · exact locate_mono (fun q => hg.entryAt?) h.located
  · exact hg.entryAt? h.isDirectory
  · intro file hmem
    obtain ⟨other, hcopy⟩ := h.copies file hmem
    obtain ⟨kept, hstart, hdisk⟩ := hcopy.content
    exact ⟨other, hcopy.path_eq, hcopy.copy_eq, hcopy.fits, kept, hstart, hg.entryAt? hdisk⟩
  · exact h.complete
  · exact h.count
  · intro bytes hb
    obtain ⟨hnone, hthere⟩ := h.written bytes hb
    exact ⟨hnone, hg.entryAt? hthere⟩

/-! ## Restoring -/

/-- Whether the device has refused a copy that was made after the snapshot. -/
def Refused (run : Run) (store : Store) : Prop :=
  ∃ n, run.start.copies + run.snapshot.files.length < n ∧ n ≤ store.copies ∧
    run.start.outage.copy n = true

/-- Whether a saved registry has its earlier content, as `rollBack` leaves it. -/
def IsBack (run : Run) (store : Store) (file : SavedFile) : Prop :=
  ∀ kind, file.path = registryPath run.root kind →
    store.disk.entryAt? (registryPlace run.place kind)
      = run.start.disk.entryAt? (registryPlace run.place kind)

theorem registryPath_injective {root : Path} {kind other : IndexedKind}
    (h : registryPath root kind = registryPath root other) : kind = other := by
  simp only [registryPath_eq, Path.child, Path.mk.injEq, List.append_assoc, List.append_cancel_left_eq]
    at h
  exact directory_injective (List.cons.inj h.2).1

/-- The directory of a registry is there, so that making it changes nothing. -/
theorem makeDirectories_registry (hg : run.IsGrounded) (h : run.Working written store)
    {kind : IndexedKind} {content : Bytes}
    (hfile : store.disk.entryAt? (registryPlace run.place kind) = some (.file content)) :
    store.disk.makeDirectories store.home (registryPath run.root kind).parent = (.ok (), store.disk) := by
  have hparent := h.isTree.parent hfile
  rw [registryPlace, List.dropLast_concat] at hparent
  have hfits := hg.ground.fits kind
  rw [registryPath_eq] at hfits
  have hplace : store.disk.locate store.home (run.root.child kind.toKind.conventions.directory)
      = .ok (run.place ++ [kind.toKind.conventions.directory]) := by
    rw [h.home_eq]
    exact locate_child (isPlainName_directory kind.toKind) (isOverlong_of_append hfits)
      (locate_mono (fun q => h.edits.directory) hg.ground.located) (h.edits.directory hg.ground.directory)
  rw [registryPath_eq, Path.parent_child]
  -- of the three ways to make a directory the one is left in which it is there
  rcases makeDirectories_of_locate hplace with ⟨hnone, -⟩ | ⟨-, hmade⟩ | ⟨⟨content, hf⟩, -⟩
  · rw [hparent] at hnone
    cases hnone
  · exact hmade
  · rw [hparent] at hf
    cases hf

theorem Working.locate_registry (hg : run.IsGrounded) (h : run.Working written store)
    {kind : IndexedKind} {content : Bytes}
    (hfile : store.disk.entryAt? (registryPlace run.place kind) = some (.file content)) :
    store.disk.locate store.home (registryPath run.root kind) = .ok (registryPlace run.place kind) := by
  have ht := h.isTree
  rw [h.home_eq] at ht ⊢
  exact hg.ground.locate_registry (fun q => h.edits.directory) ht hfile

/-- A copy in the snapshot can be located. -/
theorem Working.locate_copy (h : run.Working written store) {kind : IndexedKind} {content : Bytes}
    (hfits : isOverlong (copyPath run.snapshot.directory kind) = false)
    (hfile : store.disk.entryAt? (registryPlace run.fresh kind) = some (.file content)) :
    store.disk.locate store.home (copyPath run.snapshot.directory kind)
      = .ok (registryPlace run.fresh kind) := by
  have hparent := h.isTree.parent hfile
  rw [registryPlace, List.dropLast_concat] at hparent
  exact locate_names (isPlainName_directory kind.toKind) isPlainName_indexFileName hfits h.located
    h.isDirectory hparent

/-- No copy is missing while the state of a run lasts. -/
theorem Working.isFile_copy (h : run.Working written store) {file : SavedFile}
    (hfile : file ∈ run.snapshot.files) : store.disk.isFile store.home file.copy = .ok true := by
  obtain ⟨kind, hcopy⟩ := h.copies file hfile
  obtain ⟨content, -, hdisk⟩ := hcopy.content
  rw [hcopy.copy_eq]
  exact isFile_eq_ok_true.mpr ⟨_, content, h.locate_copy hcopy.fits hdisk, hdisk⟩

/-- Restoring one file takes its registry back, unless the device refuses the copy. -/
theorem spec_restoreFile (hg : run.IsGrounded) {file : SavedFile} (hfile : file ∈ run.snapshot.files)
    (hs : run.Working written store) :
    Spec (· = store) (Step.copyFile file.copy file.path)
      (fun _ after => run.Working written after ∧ run.IsBack after file ∧
        ∀ other, run.IsBack store other → run.IsBack after other)
      fun failure after => run.Working written after ∧ failure.isFileFault = true ∧ run.Refused after := by
  obtain ⟨kind, hcopy⟩ := hs.copies file hfile
  obtain ⟨content, hstart, hdisk⟩ := hcopy.content
  obtain ⟨now, hnow⟩ := hs.registry_file hstart
  have hmade := makeDirectories_registry hg hs hnow
  have hcopied : store.disk.copyFile store.home file.copy file.path
      = .ok (store.disk.put (registryPlace run.place kind) (.file content)) := by
    rw [hcopy.path_eq, hcopy.copy_eq]
    refine copyFile_of_locate (readFile_eq_ok.mpr ⟨_, hs.locate_copy hcopy.fits hdisk, hdisk⟩)
      (hs.locate_registry hg hnow) ?_
    rw [hnow]
    simp
  -- the registries stand at different places, so only the one that is copied changes
  have hback : ∀ other, (store.disk.put (registryPlace run.place kind) (.file content)).entryAt?
      (registryPlace run.place other) = if other = kind
        then run.start.disk.entryAt? (registryPlace run.place other)
        else store.disk.entryAt? (registryPlace run.place other) := by
    intro other
    split
    · rename_i heq
      rw [heq, entryAt?_put_self _ _ _ (by simp [registryPlace]), hstart]
    · rename_i hne
      exact entryAt?_put_of_ne _ _ fun heq => hne (registryPlace_injective heq)
  rw [← hcopy.path_eq] at hmade
  refine (spec_copyFile file.copy file.path).weaken_ends (fun _ after hafter => ?_)
    fun failure after hafter => ?_
  · obtain ⟨disk, -, hdone, rfl⟩ := hafter
    rw [hmade, hcopied] at hdone
    obtain rfl := Except.ok.inj hdone
    refine ⟨hs.put_registry hg ⟨content, hstart⟩ (.inr hstart) (Nat.le_succ _), fun other hother => ?_,
      fun saved hsaved other hother => ?_⟩
    · have := registryPath_injective (hother.symm.trans hcopy.path_eq)
      rw [hback, if_pos this]
    · rw [hback]
      split
      · rfl
      · exact hsaved other hother
  · -- the copy stands and the place is there, so only the device can refuse
    rw [hmade] at hafter
    rcases hafter with ⟨-, fault, hfault, -⟩ | ⟨rfl, ⟨hrefused, rfl⟩ | ⟨fault, hfault, -⟩⟩
    · cases hfault
    · refine ⟨?_, rfl, store.copies + 1, Nat.lt_succ_of_le hs.count, Nat.le_refl _, ?_⟩
      · exact { hs with count := Nat.le_succ_of_le hs.count }
      · rw [← hs.outage_eq]
        exact hrefused
    · rw [hcopied] at hfault
      cases hfault

/-- Restoring takes the registries back one by one; it fails only for a refused copy. -/
theorem spec_restoreAll (hg : run.IsGrounded) (done : List SavedFile) {files : List SavedFile}
    (hfiles : ∀ file ∈ files, file ∈ run.snapshot.files) :
    Spec (fun store => run.Working written store ∧ ∀ file ∈ done, run.IsBack store file)
      (restoreAll files)
      (fun _ store => run.Working written store ∧ ∀ file ∈ done ++ files, run.IsBack store file)
      fun failure store => run.Working written store ∧ failure.isSnapshotFault = true ∧
        run.Refused store := by
  refine (spec_restoreAll_of_next (I := fun done store => run.Working written store ∧
      ∀ file ∈ done, run.IsBack store file) done (fun done file store fault hmem hs hlook => ?_)
    (fun done file store hmem hs hlook => ?_) fun done file start hmem hs _ => ?_).weaken_ends
    (fun _ _ h => h.1) fun _ _ h => h
  -- every copy is there and can be looked at
  · cases (hs.1.isFile_copy (hfiles file hmem)).symm.trans hlook
  · cases (hs.1.isFile_copy (hfiles file hmem)).symm.trans hlook
  · obtain ⟨hworking, hdone⟩ := hs
    refine Spec.explain ((spec_restoreFile hg (hfiles file hmem) hworking).weaken_ends
      (fun _ after h => ⟨h.1, fun saved hsaved => ?_⟩) fun failure after h => ⟨h.1, ?_, h.2.2⟩)
    · rcases List.mem_append.mp hsaved with hsaved | hsaved
      · exact h.2.2 saved (hdone saved hsaved)
      · rw [List.mem_singleton.mp hsaved]
        exact h.2.1
    · rw [if_pos h.2.1]
      rfl

/-- When all saved registries are back, nothing has changed but new places. -/
theorem Working.grows (h : run.Working written store) (hg : run.IsGrounded)
    (hback : ∀ file ∈ run.snapshot.files, run.IsBack store file) :
    Grows run.MayAdd run.start.disk store.disk := by
  refine h.edits.grows fun q hq => ?_
  obtain ⟨kind, -, rfl⟩ := hq
  rcases h.edits (registryPlace run.place kind) with heq | ⟨hnone, -⟩ | ⟨-, ⟨content, hfile⟩, -⟩
  · exact heq
  · obtain ⟨entry, hentry⟩ := hg.ground.registries kind
    rw [hentry] at hnone
    cases hnone
  · obtain ⟨file, hmem, hpath⟩ := h.complete kind content hfile
    exact hback file hmem kind hpath

/-- A rollback never fails. One that is done takes all registries back; one that is not done had nothing to
restore, or the device has refused a copy. -/
theorem spec_rollBack (hg : run.IsGrounded) :
    Spec (run.Working written) (rollBack run.snapshot)
      (fun restored store => run.Working written store ∧
        (restored = true ∨ run.snapshot.files = [] → Grows run.MayAdd run.start.disk store.disk) ∧
        (restored = false → run.snapshot.files = [] ∨ run.Refused store))
      fun _ _ => False := by
  rw [rollBack]
  split
  · rename_i hempty
    have hnil : run.snapshot.files = [] := List.isEmpty_iff.mp hempty
    refine Spec.pure _ fun store hs => ⟨hs, fun _ => hs.grows hg ?_, fun _ => .inl hnil⟩
    rw [hnil]
    exact fun file hmem => (List.not_mem_nil hmem).elim
  · rename_i hfull
    have hne : run.snapshot.files ≠ [] := fun hnil => hfull (by rw [hnil]; rfl)
    refine Spec.bind Spec.report fun _ => ?_
    refine Spec.bind (Spec.outcome ((spec_restoreAll hg [] fun _ h => h).weaken_pre
      fun _ h => ⟨h, fun _ hmem => (List.not_mem_nil hmem).elim⟩)) fun result => ?_
    -- the only failure that a rollback could pass on is none of a snapshot
    cases result with
    | ok paths =>
      refine Spec.bind Spec.report fun _ => Spec.pure _ fun store hs => ?_
      exact ⟨hs.1, fun _ => hs.1.grows hg hs.2, fun h => by cases h⟩
    | error failure =>
      dsimp only
      split
      · refine Spec.bind Spec.report fun _ => Spec.pure _ fun store hs => ?_
        refine ⟨hs.1, fun h => ?_, fun _ => .inr hs.2.2⟩
        rcases h with h | h
        · cases h
        · exact absurd h hne
      · rename_i hfault
        exact Spec.throw _ fun store hs => hfault hs.2.1

end Run

end Workflow

end ComponentKit
