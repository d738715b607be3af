import ComponentKit.Proofs.Project.Detection

/-!
# Snapshots keep what they saved

`take` saves into a fresh directory: it changes nothing but that directory and what had to be made for its root.
Each of its files is a copy of a registry as it was (`IsCopy`), and no registry that is a file is left out.
-/

namespace ComponentKit

open Disk Project

/-! ## The ground of a run -/

/-- Where the registry of a kind stands, under the location of the source root, as `registryPath` leads to it. -/
def registryPlace (place : Location) (kind : IndexedKind) : Location :=
  place ++ [kind.toKind.conventions.directory] ++ [indexFileName]

theorem directory_injective {kind other : IndexedKind}
    (h : kind.toKind.conventions.directory = other.toKind.conventions.directory) : kind = other := by
  cases kind <;> cases other <;> first | rfl | exact absurd h (by decide)

/-- Where the path of an index under a directory leads. -/
theorem resolve_index (base : Path) (home : Location) (kind : IndexedKind) :
    ((base.child kind.toKind.conventions.directory).child indexFileName).resolve home
      = registryPlace (base.resolve home) kind := by
  rw [Path.resolve_child, Path.resolve_child, isPlainName_indexFileName.step,
    (isPlainName_directory kind.toKind).step, registryPlace]

/-- What a run can rely on: a tree with the source root of a project at a place, and something at the
place of each registry. -/
structure Ground (start : Store) (root : Path) (place : Location) : Prop where
  /-- The disk is a tree. -/
  isTree : IsTree start.disk start.home
  /-- The source root can be located. -/
  located : start.disk.locate start.home root = .ok place
  /-- It is a directory. -/
  directory : start.disk.entryAt? place = some .directory
  /-- The registries are there, be they files or not. -/
  registries : ∀ kind, ∃ entry, start.disk.entryAt? (registryPlace place kind) = some entry
  /-- The paths to them are not overlong. -/
  fits : ∀ kind, isOverlong (registryPath root kind) = false

variable {start store : Store} {settings : Settings} {path root : Path} {project : Project}
  {place : Location}

/-- A project that was detected on a tree gives the ground of a run. -/
theorem Project.Detected.ground (h : Detected start settings path project)
    (ht : IsTree start.disk start.home) : ∃ place, Ground start (settings.sourceRoot path) place := by
  obtain ⟨place, hloc, hdir⟩ := isDirectory_eq_ok_true.mp h.isDirectory
  refine ⟨place, ht, hloc, hdir, fun kind => ?_, fun kind => ?_⟩
  · obtain ⟨found, entry, hfound, hentry⟩ := pathExists_eq_ok_true.mp (h.registries kind)
    rw [registryPath_eq] at hfound
    obtain ⟨middle, hmiddle, -, rfl⟩ := locate_child_eq_ok hfound
    obtain ⟨base, hbase, -, rfl⟩ := locate_child_eq_ok hmiddle
    obtain rfl := Except.ok.inj (hbase.symm.trans hloc)
    rw [isPlainName_indexFileName.step, (isPlainName_directory kind.toKind).step] at hentry
    exact ⟨entry, hentry⟩
  · obtain ⟨found, entry, hfound, -⟩ := pathExists_eq_ok_true.mp (h.registries kind)
    exact (locate_eq_ok.mp hfound).1.fits

section Ground

variable {disk : Disk} {allowed : Location → Prop}

/-- The registries are the same as long as a disk only grows. -/
theorem Ground.entryAt?_registry (hg : Ground start root place) (h : Grows allowed start.disk disk)
    (kind : IndexedKind) :
    disk.entryAt? (registryPlace place kind) = start.disk.entryAt? (registryPlace place kind) := by
  obtain ⟨entry, hentry⟩ := hg.registries kind
  rw [h.entryAt? hentry, hentry]

/-- The ground stays when a disk grows. -/
theorem Ground.grow (hg : Ground start root place) (h : Grows allowed start.disk disk)
    (ht : IsTree disk start.home) : Ground { start with disk } root place := by
  refine ⟨ht, locate_mono (fun q => h.entryAt?) hg.located, h.entryAt? hg.directory, fun kind => ?_, hg.fits⟩
  obtain ⟨entry, hentry⟩ := hg.registries kind
  exact ⟨entry, h.entryAt? hentry⟩

/-- A registry that is there can be located. -/
theorem Ground.locate_registry (hg : Ground start root place)
    (hdir : ∀ q, start.disk.entryAt? q = some .directory → disk.entryAt? q = some .directory)
    (ht : IsTree disk start.home) {kind : IndexedKind} {entry : Entry}
    (hentry : disk.entryAt? (registryPlace place kind) = some entry) :
    disk.locate start.home (registryPath root kind) = .ok (registryPlace place kind) := by
  have hparent := ht.parent hentry
  have hfits := hg.fits kind
  rw [registryPlace, List.dropLast_concat] at hparent
  rw [registryPath_eq] at hfits ⊢
  exact locate_names (isPlainName_directory kind.toKind) isPlainName_indexFileName hfits
    (locate_mono hdir hg.located) (hdir _ hg.directory) hparent

/-- Whether a registry is a file is seen by its path. -/
theorem Ground.isFile_registry (hg : Ground start root place)
    (hdir : ∀ q, start.disk.entryAt? q = some .directory → disk.entryAt? q = some .directory)
    (ht : IsTree disk start.home) (kind : IndexedKind) :
    disk.isFile start.home (registryPath root kind) = .ok true ↔
      ∃ content, disk.entryAt? (registryPlace place kind) = some (.file content) := by
  have hfits := hg.fits kind
  rw [registryPath_eq] at hfits ⊢
  exact isFile_names ht (isPlainName_directory kind.toKind) isPlainName_indexFileName hfits
    (locate_mono hdir hg.located) (hdir _ hg.directory)

/-- The registry of a kind is read at its place, with the bytes that it had before the disk grew. -/
theorem Ground.readFile_registry_iff (hg : Ground start root place) (h : Grows allowed start.disk disk)
    (ht : IsTree disk start.home) {kind : IndexedKind} {content : Bytes} :
    disk.readFile start.home (registryPath root kind) = .ok content ↔
      start.disk.entryAt? (registryPlace place kind) = some (.file content) := by
  have hdir : ∀ q, start.disk.entryAt? q = some .directory → disk.entryAt? q = some .directory :=
    fun q => h.entryAt?
  rw [← hg.entryAt?_registry h kind]
  -- both ways the path leads to the one place at which the registry can stand
  constructor
  · intro hread
    obtain ⟨found, hfound, hthere⟩ := readFile_eq_ok.mp hread
    obtain ⟨now, hnow⟩ := (hg.isFile_registry hdir ht kind).mp
      (isFile_eq_ok_true.mpr ⟨found, content, hfound, hthere⟩)
    have hloc := hg.locate_registry hdir ht hnow
    rwa [Except.ok.inj (hfound.symm.trans hloc)] at hthere
  · intro hthere
    exact readFile_eq_ok.mpr ⟨_, hg.locate_registry hdir ht hthere, hthere⟩

end Ground

/-- Whether the registry of a kind is a regular file. -/
def isRegular (start : Store) (root : Path) (kind : IndexedKind) : Bool :=
  match start.disk.isFile start.home (registryPath root kind) with
  | .ok true => true
  | _ => false

theorem isRegular_iff (hg : Ground start root place) (kind : IndexedKind) :
    isRegular start root kind = true ↔
      ∃ content, start.disk.entryAt? (registryPlace place kind) = some (.file content) := by
  rw [← hg.isFile_registry (fun _ h => h) hg.isTree kind, isRegular]
  split
  · rename_i h
    simp [h]
  · rename_i h
    simpa using h

/-- The same registries are files when a disk has grown. -/
theorem isRegular_grown {disk : Disk} {allowed : Location → Prop} (hg : Ground start root place)
    (h : Grows allowed start.disk disk) (ht : IsTree disk start.home) (kind : IndexedKind) :
    isRegular { start with disk } root kind = isRegular start root kind := by
  rw [Bool.eq_iff_iff, isRegular_iff (hg.grow h ht), isRegular_iff hg]
  show (∃ content, disk.entryAt? _ = _) ↔ _
  rw [hg.entryAt?_registry h kind]

/-! ## Where a snapshot may write -/

/-- A place in a directory right under `root` that is not on the disk. -/
def InFresh (disk : Disk) (root directory place : Location) : Prop :=
  disk.entryAt? directory = none ∧ (∃ name, directory = root ++ [name]) ∧ directory <+: place

/-- A place that a snapshot may make: the root of the snapshots with the directories it lies in, and
everything in one fresh directory. -/
def BackupPlace (start : Store) (root : Path) (directory place : Location) : Prop :=
  place ∈ waypoints start.home root ∨ InFresh start.disk (root.resolve start.home) directory place

/-! ## Saving -/

namespace Snapshot

open Step

variable {home : Location} {directory : Path} {fresh : Location} {backupRoot : Path}

/-- The copy of the registry of a kind in the directory of a snapshot. -/
def copyPath (directory : Path) (kind : IndexedKind) : Path :=
  (directory.child kind.toKind.conventions.directory).child indexFileName

theorem append_below (root directory : Path) (kind : IndexedKind) :
    directory.append (below root (registryPath root kind)) = copyPath directory kind := by
  have hprefix : root.segments.isPrefixOf (registryPath root kind).segments = true := by
    rw [registryPath_eq, List.isPrefixOf_iff_prefix]
    exact ⟨[kind.toKind.conventions.directory, indexFileName], by simp [Path.child]⟩
  have hstart : (registryPath root kind).start = root.start := by rw [registryPath_eq]; rfl
  have hdrop : (registryPath root kind).segments.drop root.segments.length
      = [kind.toKind.conventions.directory, indexFileName] := by
    rw [registryPath_eq]
    simp [Path.child]
  simp [below, Path.relativeTo?, hstart, hprefix, hdrop, Path.append, copyPath, Path.child]

/-- A file of a snapshot: the registry of a kind as it was, with its copy. -/
structure IsCopy (start : Store) (root : Path) (place : Location) (directory : Path) (fresh : Location)
    (disk : Disk) (kind : IndexedKind) (file : SavedFile) : Prop where
  /-- The file is the registry. -/
  path_eq : file.path = registryPath root kind
  /-- The copy is in the directory of the snapshot. -/
  copy_eq : file.copy = copyPath directory kind
  /-- Its path is not overlong. -/
  fits : isOverlong (copyPath directory kind) = false
  /-- The copy has the content that the registry had. -/
  content : ∃ content, start.disk.entryAt? (registryPlace place kind) = some (.file content) ∧
    disk.entryAt? (registryPlace fresh kind) = some (.file content)

theorem isFile_of_readFile {disk : Disk} {path : Path} {content : Bytes}
    (h : disk.readFile home path = .ok content) : disk.isFile home path = .ok true := by
  obtain ⟨found, hloc, hfile⟩ := readFile_eq_ok.mp h
  exact isFile_eq_ok_true.mpr ⟨found, content, hloc, hfile⟩

theorem isRegular_of_readFile {base : Store} {kind : IndexedKind} {content : Bytes}
    (h : base.disk.readFile base.home (registryPath root kind) = .ok content) :
    isRegular base root kind = true := by
  rw [isRegular, isFile_of_readFile h]

theorem exists_readFile {disk : Disk} {path : Path} (h : disk.isFile home path = .ok true) :
    ∃ content, disk.readFile home path = .ok content := by
  obtain ⟨found, content, hloc, hfile⟩ := isFile_eq_ok_true.mp h
  exact ⟨content, readFile_eq_ok.mpr ⟨found, hloc, hfile⟩⟩

/-- What is left of a store in which only places of a directory were added. -/
structure GrownIn (fresh : Location) (base store : Store) : Prop where
  /-- The working directory stays the same. -/
  home_eq : store.home = base.home
  /-- The disk is a tree. -/
  isTree : IsTree store.disk base.home
  /-- Only places of the directory were added. -/
  grows : Grows (fresh <+: ·) base.disk store.disk

/-- Whether, once a registry is a file, no more of them are when places of a directory are added, so that `saveAll`
meets what was there before. -/
def IsSettled (base : Store) (root : Path) (fresh : Location) : Prop :=
  (∃ kind, base.disk.isFile base.home (registryPath root kind) = .ok true) →
    ∀ store kind, GrownIn fresh base store →
      store.disk.isFile base.home (registryPath root kind) = .ok true →
        base.disk.isFile base.home (registryPath root kind) = .ok true

/-- Where all registries are there, no more of them become files. -/
theorem isSettled_of_ground (hg : Ground start root place) (fresh : Location) :
    IsSettled start root fresh := by
  intro _ store kind hgrown hfile
  rw [hg.isFile_registry (fun q => hgrown.grows.entryAt?) hgrown.isTree kind,
    hg.entryAt?_registry hgrown.grows kind] at hfile
  exact (hg.isFile_registry (fun _ h => h) hg.isTree kind).mpr hfile

/-- The state of a run that has saved some registries in the directory of a snapshot, which was new in
`base`, while the registries of the kinds in `pending` are still to come. -/
structure Saving (base : Store) (root directory : Path) (fresh : Location) (pending : List IndexedKind)
    (files : List SavedFile) (store : Store) : Prop where
  /-- Only places of the snapshot were added. -/
  grownIn : GrownIn fresh base store
  /-- Nothing changes before a registry is saved. -/
  untouched : files = [] → store.disk = base.disk
  /-- The device stays the same. -/
  outage_eq : store.outage = base.outage
  /-- So does the reader of manifests. -/
  nesting_eq : store.nesting = base.nesting
  /-- The directory of the snapshot can be located. -/
  located : store.disk.locate base.home directory = .ok fresh
  /-- It is a directory. -/
  isDirectory : store.disk.entryAt? fresh = some .directory
  /-- There is nothing in it for the kinds to come. -/
  pending_none : ∀ kind ∈ pending,
    store.disk.entryAt? (fresh ++ [kind.toKind.conventions.directory]) = none
  /-- What was saved are copies of registries, found by their paths. -/
  copies : ∀ file ∈ files, ∃ kind content, file = ⟨registryPath root kind, copyPath directory kind⟩ ∧
    isOverlong (copyPath directory kind) = false ∧
    base.disk.readFile base.home (registryPath root kind) = .ok content ∧
    store.disk.entryAt? (registryPlace fresh kind) = some (.file content)
  /-- All registries that are files were saved, except for the kinds to come. -/
  complete : ∀ kind ∉ pending, ∀ content,
    base.disk.readFile base.home (registryPath root kind) = .ok content →
      ⟨registryPath root kind, copyPath directory kind⟩ ∈ files
  /-- Every saved file took one copy. -/
  count : store.copies = base.copies + files.length
  /-- As many files were saved as there are registries to save, except for the kinds to come. -/
  length_eq : files.length + (pending.filter (isRegular base root)).length
    = (IndexedKind.all.filter (isRegular base root)).length

theorem registryPlace_injective {kind other : IndexedKind}
    (h : registryPlace place kind = registryPlace place other) : kind = other := by
  simp only [registryPlace, List.append_assoc, List.append_cancel_left_eq] at h
  exact directory_injective (List.cons.inj h).1

section Saving

variable {base : Store} {pending : List IndexedKind} {files : List SavedFile} {kind : IndexedKind}
  {content : Bytes}

/-- Saving one registry: the copy is made in a new directory of the snapshot. -/
theorem Saving.copied (h : Saving base root directory fresh (kind :: pending) files store)
    (hk : kind ∉ pending) (hfits : isOverlong (copyPath directory kind) = false)
    (hread : base.disk.readFile base.home (registryPath root kind) = .ok content) :
    ∃ made disk, CopiedInto store.disk base.home (registryPath root kind) directory
        kind.toKind.conventions.directory indexFileName fresh content made disk ∧
      Saving base root directory fresh pending
        (files ++ [⟨registryPath root kind, copyPath directory kind⟩])
        { store with disk, copies := store.copies + 1 } := by
  obtain ⟨made, disk, hcopied⟩ := copiedInto h.grownIn.isTree (isPlainName_directory kind.toKind)
    isPlainName_indexFileName hfits h.located h.isDirectory (h.pending_none kind List.mem_cons_self)
    (h.grownIn.grows.readFile hread)
  have hgrows := hcopied.grows
  -- each part of the state of the saving, with one more file and one more copy
  refine ⟨made, disk, hcopied, ⟨h.grownIn.home_eq, hcopied.isTree, ?_⟩,
    fun hnil => absurd hnil (List.append_ne_nil_of_right_ne_nil _ (List.cons_ne_nil _ _)), h.outage_eq,
    h.nesting_eq, ?_, ?_, ?_, ?_, ?_, ?_, ?_⟩
  · exact h.grownIn.grows.trans (hgrows.mono fun q hq => (List.prefix_append _ _).trans hq)
  · exact locate_mono (fun q => hgrows.entryAt?) h.located
  · exact hgrows.entryAt? h.isDirectory
  · intro other hother
    refine ((hgrows _).resolve_right fun hnew => hk ?_).trans
      (h.pending_none other (List.mem_cons_of_mem kind hother))
    -- the new directory is the one of another kind
    have hlast := List.IsPrefix.eq_of_length hnew.2 (by simp)
    have heq : kind = other := directory_injective (by simpa using hlast)
    rwa [heq]
  · intro file hmem
    rcases List.mem_append.mp hmem with hmem | hmem
    · obtain ⟨other, kept, hfile, hshort, hother, hthere⟩ := h.copies file hmem
      exact ⟨other, kept, hfile, hshort, hother, hgrows.entryAt? hthere⟩
    · exact ⟨kind, content, List.mem_singleton.mp hmem, hfits, hread, hcopied.entryAt?_copy⟩
  · intro other hother kept hkept
    by_cases hok : other = kind
    · rw [hok]
      exact List.mem_append_right _ List.mem_cons_self
    · exact List.mem_append_left _ (h.complete other
        (fun hin => (List.mem_cons.mp hin).elim hok hother) kept hkept)
  · show store.copies + 1 = _
    rw [h.count, List.length_append, List.length_singleton]
    omega
  · have hlength := h.length_eq
    rw [List.filter_cons_of_pos (isRegular_of_readFile hread), List.length_cons] at hlength
    rw [List.length_append, List.length_singleton]
    omega

/-- A registry that is no file is passed over. -/
theorem Saving.skipped (h : Saving base root directory fresh (kind :: pending) files store)
    (hfile : base.disk.isFile base.home (registryPath root kind) ≠ .ok true) :
    Saving base root directory fresh pending files store :=
  have hregular : ¬ isRegular base root kind = true := by
    rw [isRegular]
    split
    · rename_i hfound
      exact absurd hfound hfile
    · exact Bool.false_ne_true
  { h with
    length_eq := by
      rw [← h.length_eq, List.filter_cons_of_neg hregular]
    pending_none := fun other hother => h.pending_none other (List.mem_cons_of_mem kind hother)
    complete := fun other hother kept hkept => by
      by_cases hok : other = kind
      · subst hok
        exact absurd (isRegular_of_readFile hkept) hregular
      · exact h.complete other (fun hin => (List.mem_cons.mp hin).elim hok hother) kept hkept }

end Saving

/-- A registry that is a file while others are saved was one before. -/
theorem Saving.isFile {base : Store} {pending : List IndexedKind} {files : List SavedFile}
    (h : Saving base root directory fresh pending files store) (hsettled : IsSettled base root fresh)
    (kind : IndexedKind) (hfile : store.disk.isFile base.home (registryPath root kind) = .ok true) :
    base.disk.isFile base.home (registryPath root kind) = .ok true := by
  cases files with
  | nil =>
    rw [← h.untouched rfl]
    exact hfile
  | cons file files =>
    obtain ⟨saved, content, -, -, hread, -⟩ := h.copies file List.mem_cons_self
    exact hsettled ⟨saved, isFile_of_readFile hread⟩ store kind h.grownIn hfile

/-! ## Taking a snapshot -/

/-- What a `take` that did not come to its end leaves behind. -/
def BackupOnly (start : Store) (backupRoot : Path) (store : Store) : Prop :=
  ∃ fresh, Grows (BackupPlace start backupRoot fresh) start.disk store.disk

/-- An explained failure is one of the step, or has one as its cause. -/
theorem Spec.explain {α : Type} {P : Store → Prop} {Q : α → Store → Prop} {E : Failure → Store → Prop}
    {wrap : Failure → Failure} {step : Step Failure α}
    (h : Spec P step Q fun failure => E (if failure.isFileFault then wrap failure else failure)) :
    Spec P (explain wrap step) Q E :=
  Spec.mapFailure h

/-- Everything that is new after places of a fresh directory were added is a place of the snapshot. -/
theorem grows_of_madeFresh {backupRoot directory : Path} {disk : Disk}
    (h : MadeFresh start.disk start.home backupRoot directory disk)
    (hg : GrownIn (directory.resolve start.home) { start with disk } store) :
    Grows (BackupPlace start backupRoot (directory.resolve start.home)) start.disk store.disk := by
  obtain ⟨name, -, hname⟩ := h.child
  have hin : ∀ q, directory.resolve start.home <+: q →
      BackupPlace start backupRoot (directory.resolve start.home) q :=
    fun q hq => .inr ⟨h.fresh, ⟨name, hname⟩, hq⟩
  exact (h.grows.mono fun q hq => hq.imp_right fun hq => ⟨h.fresh, ⟨name, hname⟩, hq⟩).trans
    (hg.grows.mono hin)

theorem backupOnly_of_madeFresh {backupRoot directory : Path} {disk : Disk}
    (h : MadeFresh start.disk start.home backupRoot directory disk)
    (hg : GrownIn (directory.resolve start.home) { start with disk } store) :
    BackupOnly start backupRoot store :=
  ⟨_, grows_of_madeFresh h hg⟩

/-- Whether the path of a copy in the directory of a snapshot is overlong. -/
def IsCramped (directory : Path) : Prop :=
  ∃ kind, isOverlong (copyPath directory kind) = true

/-- A copy whose path is overlong is refused, and adds at most the directory that it would lie in. -/
theorem Saving.refused {base earlier : Store} {pending : List IndexedKind} {files : List SavedFile}
    {kind : IndexedKind} (h : Saving base root directory fresh (kind :: pending) files earlier)
    (hfile : earlier.disk.isFile base.home (registryPath root kind) = .ok true)
    (hlong : isOverlong (copyPath directory kind) = true) :
    Spec (· = earlier) (copyFile (registryPath root kind) (copyPath directory kind))
      (fun _ _ => False)
      fun failure store => GrownIn fresh base store ∧ failure.isFileFault = true := by
  have hplain := isPlainName_directory kind.toKind
  have hnul := hasNul_child_eq_false (locate_eq_ok.mp h.located).1.noNul hplain.noNul
  have hcopyNul : (copyPath directory kind).hasNul = false :=
    hasNul_child_eq_false hnul isPlainName_indexFileName.noNul
  rw [← h.grownIn.home_eq] at hfile
  obtain ⟨content, hread⟩ := exists_readFile hfile
  -- the directory of the copy is made, unless its own path is overlong
  have hmade : Grows (fresh <+: ·) earlier.disk
        (earlier.disk.makeDirectories earlier.home (directory.child kind.toKind.conventions.directory)).2 ∧
      IsTree (earlier.disk.makeDirectories earlier.home
        (directory.child kind.toKind.conventions.directory)).2 earlier.home := by
    have ht := h.grownIn.isTree
    rw [← h.grownIn.home_eq] at ht
    refine ⟨?_, (madeDirectories _ ht).isTree⟩
    cases hfits : isOverlong (directory.child kind.toKind.conventions.directory) with
    | true =>
      rw [makeDirectories_of_isOverlong hnul hfits]
      exact .refl _ _
    | false =>
      have hlocated := h.located
      rw [← h.grownIn.home_eq] at hlocated
      have hplace := locate_child hplain hfits hlocated h.isDirectory
      have hnone := h.pending_none kind List.mem_cons_self
      rcases makeDirectories_of_locate hplace with ⟨-, hput⟩ | ⟨hthere, -⟩ | ⟨⟨content, hthere⟩, -⟩
      · rw [hput]
        exact .put _ hnone (List.prefix_append _ _)
      · cases hnone.symm.trans hthere
      · cases hnone.symm.trans hthere
  have hcopy := copyFile_of_isOverlong (hmade.1.readFile hread) hcopyNul hlong
  have hgrown : GrownIn fresh base { earlier with disk :=
      (earlier.disk.makeDirectories earlier.home (directory.child kind.toKind.conventions.directory)).2 } :=
    ⟨h.grownIn.home_eq, h.grownIn.home_eq ▸ hmade.2, h.grownIn.grows.trans hmade.1⟩
  have hparent : (copyPath directory kind).parent = directory.child kind.toKind.conventions.directory :=
    Path.parent_child _ _
  refine (spec_copyFile _ _).weaken_ends (fun _ after hafter => ?_) fun failure after hafter => ?_
  · obtain ⟨disk, -, hdone, -⟩ := hafter
    rw [hparent] at hdone
    cases hcopy.symm.trans hdone
  · rw [hparent] at hafter
    rcases hafter with ⟨rfl, fault, hfault, rfl⟩ | ⟨rfl, ⟨-, rfl⟩ | ⟨fault, hfault, rfl⟩⟩
    · refine ⟨hgrown, ?_⟩
      -- with no null character in the path, what is in the way is something on the disk
      cases fault with
      | blocked obstacle blocked => rfl
      | nullCharacter =>
        exact absurd hfault (makeDirectories_ne_nullCharacter hnul)
    · exact ⟨⟨hgrown.home_eq, hgrown.isTree, hgrown.grows⟩, rfl⟩
    · obtain rfl := Except.error.inj (hcopy.symm.trans hfault)
      exact ⟨⟨hgrown.home_eq, hgrown.isTree, hgrown.grows⟩, rfl⟩

/-- Copying one registry into the snapshot, which the device can refuse, and the disk if the path of the copy is
overlong. -/
theorem spec_copyRegistry {base earlier : Store} {pending : List IndexedKind} {files : List SavedFile}
    {kind : IndexedKind} (hsettled : IsSettled base root fresh) (hk : kind ∉ pending)
    (hsaving : Saving base root directory fresh (kind :: pending) files earlier)
    (hfile : earlier.disk.isFile base.home (registryPath root kind) = .ok true) :
    Spec (· = earlier) (copyFile (registryPath root kind) (copyPath directory kind))
      (fun _ => Saving base root directory fresh pending
        (files ++ [⟨registryPath root kind, copyPath directory kind⟩]))
      fun failure store => GrownIn fresh base store ∧ failure.isFileFault = true ∧
        ((∃ n, base.outage.copy n = true) ∨ IsCramped directory) := by
  cases hfits : isOverlong (copyPath directory kind) with
  | true =>
    exact (hsaving.refused hfile hfits).weaken_ends (fun _ _ h => h.elim) fun _ _ h => ⟨h.1, h.2, .inr ⟨kind, hfits⟩⟩
  | false =>
    obtain ⟨content, hread⟩ := exists_readFile (hsaving.isFile hsettled kind hfile)
    obtain ⟨made, disk, hcopied, hnext⟩ := hsaving.copied hk hfits hread
    have hmade := hcopied.made_eq
    have hcopy := hcopied.copied_eq
    rw [← hsaving.grownIn.home_eq] at hmade hcopy
    have hgrown : GrownIn fresh base { earlier with disk := made } :=
      ⟨hsaving.grownIn.home_eq, hcopied.made_isTree, hsaving.grownIn.grows.trans
        (hcopied.made_grows.mono fun q hq => (List.prefix_append _ _).trans hq)⟩
    refine (spec_copyFile _ _).weaken_ends (fun _ after hafter => ?_) fun failure after hafter => ?_
    · obtain ⟨found, -, hdone, rfl⟩ := hafter
      rw [copyPath, Path.parent_child, hmade] at hdone
      obtain rfl := Except.ok.inj (hcopy.symm.trans hdone)
      exact hnext
    · -- the directory is made and the copy could be, so only the device can refuse
      rw [copyPath, Path.parent_child, hmade] at hafter
      rcases hafter with ⟨-, fault, hfault, -⟩ | ⟨rfl, ⟨hrefused, rfl⟩ | ⟨fault, hfault, -⟩⟩
      · cases hfault
      · exact ⟨⟨hgrown.home_eq, hgrown.isTree, hgrown.grows⟩, rfl, .inl ⟨_, hsaving.outage_eq ▸ hrefused⟩⟩
      · cases hcopy.symm.trans hfault

/-- A registry that was a file in front of the snapshot is still one. -/
theorem GrownIn.isFile {base : Store} (h : GrownIn fresh base store) {path : Path}
    (hfile : base.disk.isFile base.home path = .ok true) : store.disk.isFile base.home path = .ok true := by
  obtain ⟨place, content, hloc, hthere⟩ := isFile_eq_ok_true.mp hfile
  exact isFile_eq_ok_true.mpr
    ⟨place, content, locate_mono (fun q => h.grows.entryAt?) hloc, h.grows.entryAt? hthere⟩

/-- Whether a look at a registry fails. -/
def IsHidden (start : Store) (root : Path) (store : Store) : Prop :=
  ∃ kind fault, store.disk.isFile start.home (registryPath root kind) = .error fault

/-- Saving goes through the registries one by one, and adds only to the snapshot. It fails for a copy that the
device refuses or that has an overlong path, or for a registry that cannot be looked at. -/
theorem spec_saveAll {base : Store} (hsettled : IsSettled base root fresh) {kinds : List IndexedKind}
    (hk : kinds.Nodup) (files : List SavedFile) :
    Spec (Saving base root directory fresh kinds files)
      (saveAll root directory (kinds.map (registryPath root)))
      (fun more => Saving base root directory fresh [] (files ++ more))
      fun failure store => GrownIn fresh base store ∧
        (failure.isSnapshotFault = true ∧ ((∃ n, base.outage.copy n = true) ∨ IsCramped directory) ∨
          IsHidden base root store) := by
  -- the copies that were made are carried along, since those that follow go next to them
  induction kinds generalizing files with
  | nil => exact Spec.pure _ fun store hs => by rwa [List.append_nil]
  | cons kind kinds ih =>
    obtain ⟨hkind, hkinds⟩ := List.nodup_cons.mp hk
    rw [List.map_cons, saveAll]
    refine Spec.bind ((spec_inspect _ _).weaken_error
      fun failure store h => ⟨h.1.grownIn, .inr ?_⟩) fun found => ?_
    · obtain ⟨hsaving, fault, hlook, -⟩ := h
      rw [hsaving.grownIn.home_eq] at hlook
      exact ⟨kind, fault, hlook⟩
    split
    -- a registry that is a file is copied, another one is passed over with a message
    · rename_i hfound
      dsimp only
      rw [append_below]
      refine Spec.bind (Q := fun _ => Saving base root directory fresh kinds
        (files ++ [⟨registryPath root kind, copyPath directory kind⟩])) ?_ fun _ => ?_
      · refine Spec.of_forall fun earlier hs => Spec.explain ?_
        obtain ⟨hsaving, hlook⟩ := hs
        rw [hfound, hsaving.grownIn.home_eq] at hlook
        refine (spec_copyRegistry hsettled hkind hsaving hlook).weaken_error
          fun failure _ h => ⟨h.1, .inl ⟨?_, h.2.2⟩⟩
        rw [if_pos h.2.1]
        rfl
      · refine Spec.bind Spec.report fun _ => ?_
        refine Spec.bind (ih hkinds _) fun more => Spec.pure _ fun store hs => ?_
        rwa [List.append_assoc] at hs
    · rename_i hfound
      refine Spec.bind ((Spec.report (P := Saving base root directory fresh kinds files)).weaken_pre
        fun store hs => ?_) fun _ => ih hkinds files
      obtain ⟨hsaving, hlook⟩ := hs
      refine hsaving.skipped fun hfile => hfound ?_
      rw [hsaving.grownIn.home_eq, hsaving.grownIn.isFile hfile] at hlook
      exact (Except.ok.inj hlook).symm

/-- In a fresh directory nothing is saved, and all registries are still to come. -/
theorem saving_start {disk : Disk} (hmade : MadeFresh start.disk start.home backupRoot directory disk)
    (root : Path) :
    Saving { start with disk } root directory (directory.resolve start.home) IndexedKind.all []
      { start with disk } where
  grownIn := ⟨rfl, hmade.isTree, .refl _ _⟩
  untouched _ := rfl
  outage_eq := rfl
  nesting_eq := rfl
  located := hmade.located
  isDirectory := hmade.directory
  pending_none kind _ := hmade.isEmpty _ (List.prefix_append _ _) (by simp)
  copies file hmem := (List.not_mem_nil hmem).elim
  complete kind hkind := (hkind (by cases kind <;> decide)).elim
  count := rfl
  length_eq := Nat.zero_add _

/-- What is known after `take`. -/
def Taken (start : Store) (root backupRoot : Path) (snapshot : Snapshot) (store : Store) : Prop :=
  ∃ disk, MadeFresh start.disk start.home backupRoot snapshot.directory disk ∧
    Saving { start with disk } root snapshot.directory (snapshot.directory.resolve start.home) []
      snapshot.files store

/-- Where all registries are there, each of them can be looked at. -/
theorem not_isHidden (hg : Ground start root place) {allowed : Location → Prop}
    (h : Grows allowed start.disk store.disk) (ht : IsTree store.disk start.home) :
    ¬ IsHidden start root store := by
  rintro ⟨kind, fault, hlook⟩
  obtain ⟨entry, hentry⟩ := hg.registries kind
  have hthere := h.entryAt? hentry
  have hloc := hg.locate_registry (fun q => h.entryAt?) ht hthere
  cases entry <;> simp [Disk.isFile, look, hloc, hthere, bind, Except.bind, pure, Except.pure] at hlook

/-- A time is one name of a path. -/
theorem isSegment_stamp (instant : Instant) : Path.IsSegment instant.stamp := by
  have hletter : 'T' ∈ instant.stamp := by simp [Instant.stamp, Text.concat]
  refine ⟨instant.notMem_stamp (by decide) (by decide), fun hnil => ?_, fun hdot => ?_⟩
  · rw [hnil] at hletter
    cases hletter
  · rw [hdot] at hletter
    exact absurd hletter (by decide)

/-- Whether nothing but the device keeps `take` from its end: the directory of the snapshot can be made, and the paths
of the copies in it are not overlong. -/
def HasRoom (start : Store) (backupRoot : Path) : Prop :=
  ∃ directory, (start.disk.makeFreshDirectory start.home backupRoot start.now.stamp).1 = .ok directory ∧
    ¬ IsCramped directory

/-- The directory of a snapshot is made, or there is no room for it: the failure is one of the snapshot unless
the root of the snapshots has a null character. -/
theorem spec_makeSnapshotDirectory (ht : IsTree start.disk start.home) (backupRoot : Path) :
    Spec (· = start) (explain (.snapshotRefused backupRoot) (makeFreshDirectory backupRoot start.now.stamp))
      (fun directory store => store = { start with disk := store.disk } ∧
        MadeFresh start.disk start.home backupRoot directory store.disk ∧
        (HasRoom start backupRoot → ¬ IsCramped directory))
      fun failure store => (BackupOnly start backupRoot store ∧ store.home = start.home ∧
          IsTree store.disk start.home) ∧
        (failure.isSnapshotFault = true ∨ backupRoot.hasNul = true ∧ failure = .access .nullCharacter) ∧
        ¬ HasRoom start backupRoot := by
  have hfresh := makeFreshDirectory_spec backupRoot (isSegment_stamp start.now) ht
  refine Spec.explain ((spec_makeFreshDirectory _ _).weaken_ends (fun directory store hs => ?_)
    fun _ store hs => ?_)
  · obtain ⟨rfl, hok⟩ := hs
    refine ⟨rfl, hfresh.1 directory hok, fun ⟨other, hroom, hshort⟩ => ?_⟩
    obtain rfl := Except.ok.inj (hok.symm.trans hroom)
    exact hshort
  · obtain ⟨rfl, fault, hfault, rfl⟩ := hs
    obtain ⟨hgrows, htree⟩ := hfresh.2 fault hfault
    refine ⟨⟨⟨[], hgrows.mono fun q hq => .inl hq⟩, rfl, htree⟩, ?_, ?_⟩
    · -- with a null character in the root the failure is none of the snapshot, without one it is
      cases hnul : backupRoot.hasNul with
      | true =>
        rw [makeFreshDirectory_of_hasNul hnul] at hfault
        rw [← Except.error.inj hfault]
        exact .inr ⟨rfl, rfl⟩
      | false =>
        cases fault with
        | nullCharacter =>
          exact absurd hfault (makeFreshDirectory_ne_nullCharacter hnul (isSegment_stamp start.now)
            (start.now.notMem_stamp (by decide) (by decide)))
        | blocked obstacle path => exact .inl rfl
    · rintro ⟨directory, hroom, -⟩
      cases hroom.symm.trans hfault

/-- A snapshot is taken into a fresh directory; one that cannot be taken leaves nothing but new places of
its own, and the failure is one of the snapshot wherever the registries can be looked at and the root of the
snapshots has no null character. With room for it, only the device or such a registry is in the way. -/
theorem spec_take (ht : IsTree start.disk start.home)
    (hsettled : ∀ directory disk,
      MadeFresh start.disk start.home (settings.backupRoot project.path) directory disk →
        IsSettled { start with disk } project.sourceRoot (directory.resolve start.home)) :
    Spec (· = start) (take settings project)
      (Taken start project.sourceRoot (settings.backupRoot project.path))
      fun failure store => (BackupOnly start (settings.backupRoot project.path) store ∧
          store.home = start.home ∧ IsTree store.disk start.home) ∧
        (failure.isSnapshotFault = true ∨ IsHidden start project.sourceRoot store ∨
          (settings.backupRoot project.path).hasNul = true ∧ failure = .access .nullCharacter) ∧
        (HasRoom start (settings.backupRoot project.path) →
          (∃ n, start.outage.copy n = true) ∨ IsHidden start project.sourceRoot store) := by
  rw [take]
  refine Spec.bind (Spec.get (G := fun session store => store = start ∧ session.store = start)
    fun _ hs => ⟨hs, hs⟩) fun session => ?_
  refine Spec.of_forall fun earlier hs => ?_
  obtain ⟨rfl, hsession⟩ := hs
  have hnow : session.now = earlier.now := by
    rw [← hsession]
    rfl
  rw [hnow]
  refine Spec.bind ((spec_makeSnapshotDirectory ht _).weaken_error fun _ _ h =>
    ⟨h.1, h.2.1.imp_right .inr, fun hroom => absurd hroom h.2.2⟩) fun directory => ?_
  refine Spec.of_forall fun base hs => ?_
  obtain ⟨hbase, hmade, hroom⟩ := hs
  rw [hbase]
  generalize base.disk = disk at hmade
  refine Spec.bind ((spec_saveAll (hsettled directory disk hmade) (by decide) []).weaken
    (fun _ h => h ▸ saving_start hmade _) (fun _ _ h => h) fun _ store h =>
      ⟨⟨backupOnly_of_madeFresh hmade h.1, h.1.home_eq, h.1.isTree⟩,
        h.2.imp And.left .inl, fun hasRoom => h.2.imp_left fun hfault => hfault.2.resolve_right (hroom hasRoom)⟩)
          fun files => ?_
  exact Spec.bind Spec.report fun _ => Spec.pure _ fun after hs => ⟨disk, hmade, hs⟩

/-! ## Restoring file by file -/

/-- What holds of the files that are back, and with each copy of one more of them, holds of all in the end. A copy
that cannot be looked at, is missing or is refused is how restoring fails. -/
theorem spec_restoreAll_of_next {I : List SavedFile → Store → Prop} {E : Failure → Store → Prop}
    {files : List SavedFile} (done : List SavedFile)
    (hlook : ∀ done file store fault, file ∈ files → I done store →
      store.disk.isFile store.home file.copy = .error fault → E (.access fault) store)
    (hmissing : ∀ done file store, file ∈ files → I done store →
      store.disk.isFile store.home file.copy = .ok false → E (.copyMissing file.copy) store)
    (hnext : ∀ done file start, file ∈ files → I done start →
      start.disk.isFile start.home file.copy = .ok true →
      Spec (· = start) (explain (.restoreRefused file.path) (copyFile file.copy file.path))
        (fun _ => I (done ++ [file])) E) :
    Spec (I done) (restoreAll files)
      (fun paths store => I (done ++ files) store ∧ paths = files.map SavedFile.path) E := by
  -- on the files that are left, with those that are back
  induction files generalizing done with
  | nil =>
    refine Spec.pure _ fun store hs => ⟨?_, rfl⟩
    rwa [List.append_nil]
  | cons file files ih =>
    rw [restoreAll]
    refine Spec.bind ((spec_inspect _ _).weaken_error fun failure store h => ?_) fun found => ?_
    · obtain ⟨hI, fault, hfault, rfl⟩ := h
      exact hlook done file store fault List.mem_cons_self hI hfault
    split
    · rename_i hfound
      refine Spec.throw_bind _ fun store hs => hmissing done file store List.mem_cons_self hs.1 ?_
      rw [hs.2]
      simpa using hfound
    · rename_i hfound
      refine Spec.bind (Q := fun _ => I (done ++ [file])) (Spec.of_forall fun store hs => ?_) fun _ => ?_
      · refine hnext done file store List.mem_cons_self hs.1 ?_
        rw [hs.2]
        simpa using hfound
      · refine Spec.bind Spec.report fun _ => ?_
        refine Spec.bind (ih (done ++ [file])
          (fun done other store fault hmem => hlook done other store fault (List.mem_cons_of_mem file hmem))
          (fun done other store hmem => hmissing done other store (List.mem_cons_of_mem file hmem))
          fun done other start hmem => hnext done other start (List.mem_cons_of_mem file hmem))
          fun paths => Spec.pure _ fun store h => ?_
        obtain ⟨hI, rfl⟩ := h
        rw [List.append_assoc] at hI
        exact ⟨hI, rfl⟩

end Snapshot

end ComponentKit
