import ComponentKit.Proofs.Disk.Way
import ComponentKit.Proofs.Project.Snapshot

/-!
# Kept snapshots

A snapshot stays intact (`IsIntact`) as long as nothing changes what stands in the directory of the snapshots, and
its registries can be written as long as no file stands on the way to them and no directory in their place.
-/

namespace ComponentKit

open Disk Project

/-! ## Sites -/

/-- Where a project stands, and where its snapshots are kept. -/
structure Site where
  /-- The working directory. -/
  home : Location
  /-- The source root of the project. -/
  sourceRoot : Path
  /-- The directory of the snapshots. -/
  backupRoot : Path

namespace Site

variable {site : Site} {kind other : IndexedKind} {disk before middle after moment : Disk}
  {content : Bytes} {q : Location} {allowed : Location → Prop}

/-- The path of a registry of the site, which is its `registryPath`. -/
def registry (site : Site) (kind : IndexedKind) : Path :=
  registryPath site.sourceRoot kind

/-- Where a registry stands. -/
def place (site : Site) (kind : IndexedKind) : Location :=
  (site.registry kind).resolve site.home

/-- Where the snapshots stand. -/
def backups (site : Site) : Location :=
  site.backupRoot.resolve site.home

/-- Neither the source root nor the directory of the snapshots lies in the other. -/
structure IsDisjoint (site : Site) : Prop where
  /-- The source root does not lie among the snapshots. -/
  source : ¬ site.backups <+: site.sourceRoot.resolve site.home
  /-- The snapshots do not lie under the source root. -/
  backup : ¬ site.sourceRoot.resolve site.home <+: site.backups

/-- Whether a registry is a file with the given bytes. -/
def Had (site : Site) (disk : Disk) (kind : IndexedKind) (content : Bytes) : Prop :=
  disk.readFile site.home (site.registry kind) = .ok content

instance (site : Site) (disk : Disk) (kind : IndexedKind) (content : Bytes) :
    Decidable (site.Had disk kind content) :=
  inferInstanceAs (Decidable (disk.readFile site.home (site.registry kind) = .ok content))

/-- Whether a registry can be written, be it there or not: no directory stands at it and no file on the way. -/
structure IsOpen (site : Site) (disk : Disk) (kind : IndexedKind) : Prop where
  /-- No file stands on the way to its directory. -/
  parents : IsPassable disk site.home (site.registry kind).parent
  /-- There is no directory in its place. -/
  notDirectory : disk.entryAt? (site.place kind) ≠ some .directory

/-! ## Places -/

theorem registry_eq (site : Site) (kind : IndexedKind) :
    site.registry kind
      = (site.sourceRoot.child kind.toKind.conventions.directory).child indexFileName :=
  registryPath_eq site.sourceRoot kind

theorem place_eq (site : Site) (kind : IndexedKind) :
    site.place kind = registryPlace (site.sourceRoot.resolve site.home) kind := by
  rw [place, registry_eq, resolve_index]

theorem place_injective (h : site.place kind = site.place other) : kind = other := by
  rw [place_eq, place_eq] at h
  exact Snapshot.registryPlace_injective h

theorem registry_injective (h : site.registry kind = site.registry other) : kind = other :=
  place_injective (congrArg (Path.resolve site.home) h)

/-- A name among the snapshots leads to a place under theirs. -/
theorem backups_child (site : Site) {name : Text} (h : IsPlainName name) :
    site.backups <+: (site.backupRoot.child name).resolve site.home := by
  rw [Path.resolve_child, h.step]
  exact List.prefix_append _ _

/-- Nothing under the source root is one of the snapshots. -/
theorem IsDisjoint.not_backups (hd : site.IsDisjoint) (hq : site.sourceRoot.resolve site.home <+: q) :
    ¬ site.backups <+: q := by
  intro hbackups
  rcases List.prefix_or_prefix_of_prefix hbackups hq with h | h
  · exact hd.source h
  · exact hd.backup h

theorem IsDisjoint.not_backups_place (hd : site.IsDisjoint) (kind : IndexedKind) :
    ¬ site.backups <+: site.place kind := by
  rw [place_eq, registryPlace, List.append_assoc]
  exact hd.not_backups (List.prefix_append _ _)

/-! ## Registries that are files -/

section Had

variable (h : site.Had moment kind content)

include h

theorem Had.entryAt? : moment.entryAt? (site.place kind) = some (.file content) := by
  obtain ⟨place, hloc, hfile⟩ := readFile_eq_ok.mp h
  rwa [locate_eq_resolve hloc] at hfile

theorem Had.eq {more : Bytes} (hmore : site.Had moment kind more) : more = content :=
  Except.ok.inj (hmore.symm.trans h)

theorem Had.isFollowable : IsFollowable (site.registry kind) := by
  obtain ⟨place, hloc, -⟩ := readFile_eq_ok.mp h
  exact (locate_eq_ok.mp hloc).1

theorem Had.isTakeable : IsTakeable (site.registry kind).parent := by
  obtain ⟨place, hloc, -⟩ := readFile_eq_ok.mp h
  rw [registry_eq] at hloc ⊢
  obtain ⟨around, haround, -⟩ := locate_child_eq_ok hloc
  rw [Path.parent_child]
  exact isTakeable_of_locate haround

theorem Had.parents (ht : IsTree moment site.home)
    (hq : q ∈ waypoints site.home (site.registry kind).parent) :
    moment.entryAt? q = some .directory := by
  obtain ⟨place, hloc, -⟩ := readFile_eq_ok.mp h
  rw [registry_eq] at hloc hq
  rw [Path.parent_child] at hq
  exact ht.entryAt?_waypoint hloc hq

/-- A registry that is a file can be written. -/
theorem Had.isOpen (ht : IsTree moment site.home) : site.IsOpen moment kind := by
  refine ⟨fun q hq bytes hfile => ?_, fun hdir => ?_⟩
  · rw [h.parents ht hq] at hfile
    cases hfile
  · rw [h.entryAt?] at hdir
    cases hdir

/-- No registry that is a file stands on the way to one that is. -/
theorem Had.not_waypoint {bytes : Bytes} (hother : site.Had moment other bytes)
    (ht : IsTree moment site.home) :
    site.place kind ∉ waypoints site.home (site.registry other).parent := by
  intro hmem
  have hdir := hother.parents ht hmem
  rw [h.entryAt?] at hdir
  cases hdir

/-- A registry keeps its bytes while directories stay and its place is not written. -/
theorem Had.mono (hdir : ∀ q, moment.entryAt? q = some .directory → after.entryAt? q = some .directory)
    (hfile : after.entryAt? (site.place kind) = moment.entryAt? (site.place kind)) :
    site.Had after kind content := by
  obtain ⟨place, hloc, -⟩ := readFile_eq_ok.mp h
  refine readFile_eq_ok.mpr ⟨place, locate_mono hdir hloc, ?_⟩
  rw [locate_eq_resolve hloc]
  exact hfile.trans h.entryAt?

end Had

/-! ## Changes that keep snapshots -/

/-- A change that keeps what stands in the directory of the snapshots. -/
structure Keeps (site : Site) (before after : Disk) : Prop where
  /-- The directory of the snapshots, if it was there, can still be reached. -/
  reached : before.isDirectory site.home site.backupRoot = .ok true →
    after.isDirectory site.home site.backupRoot = .ok true
  /-- What stood there is still there. -/
  entries : ∀ q entry, site.backups <+: q → before.entryAt? q = some entry →
    after.entryAt? q = some entry

theorem Keeps.refl (site : Site) (disk : Disk) : site.Keeps disk disk :=
  ⟨fun h => h, fun _ _ _ h => h⟩

theorem Keeps.trans (h₁ : site.Keeps before middle) (h₂ : site.Keeps middle after) :
    site.Keeps before after :=
  ⟨fun h => h₂.reached (h₁.reached h), fun q entry hq h => h₂.entries q entry hq (h₁.entries q entry hq h)⟩

/-- While all directories stay, it is enough that the files of the snapshots do. -/
theorem keeps_of_directories
    (hdir : ∀ q, before.entryAt? q = some .directory → after.entryAt? q = some .directory)
    (hfile : ∀ q bytes, site.backups <+: q → before.entryAt? q = some (.file bytes) →
      after.entryAt? q = some (.file bytes)) : site.Keeps before after := by
  refine ⟨fun h => ?_, fun q entry hq h => ?_⟩
  · obtain ⟨place, hloc, hthere⟩ := isDirectory_eq_ok_true.mp h
    exact isDirectory_eq_ok_true.mpr ⟨place, locate_mono hdir hloc, hdir _ hthere⟩
  · cases entry with
    | file bytes => exact hfile q bytes hq h
    | directory => exact hdir q h

theorem keeps_of_grows (h : Grows allowed before after) : site.Keeps before after :=
  keeps_of_directories (fun _ => h.entryAt?) fun _ _ _ => h.entryAt?

/-- A change that puts no directory in the place of a registry, and no file on the way to one. -/
structure KeepsOpen (site : Site) (before after : Disk) : Prop where
  /-- A directory in the place of a registry was there before. -/
  registries : ∀ kind, after.entryAt? (site.place kind) = some .directory →
    before.entryAt? (site.place kind) = some .directory
  /-- Where a file stands on the way to a registry, one stood before. -/
  parents : ∀ kind, ∀ q ∈ waypoints site.home (site.registry kind).parent, ∀ content,
    after.entryAt? q = some (.file content) → ∃ earlier, before.entryAt? q = some (.file earlier)

theorem KeepsOpen.isOpen (h : site.KeepsOpen before after) (hopen : site.IsOpen before kind) :
    site.IsOpen after kind := by
  refine ⟨fun q hq content hfile => ?_, fun hdir => hopen.notDirectory (h.registries kind hdir)⟩
  obtain ⟨earlier, hearlier⟩ := h.parents kind q hq content hfile
  exact hopen.parents q hq earlier hearlier

end Site

/-! ## Intact snapshots -/

/-- A `Snapshot` with the disk of the moment at which it was complete. -/
structure Kept where
  /-- The snapshot. -/
  snapshot : Snapshot
  /-- The disk of that moment. -/
  moment : Disk

namespace Kept

variable {site : Site} {kept : Kept} {disk before after : Disk} {kind : IndexedKind} {content : Bytes}

/-- Where the directory of the snapshot stands. -/
def place (site : Site) (kept : Kept) : Location :=
  kept.snapshot.directory.resolve site.home

/-- The saved file of a registry. -/
def savedFile (site : Site) (kept : Kept) (kind : IndexedKind) : SavedFile :=
  ⟨site.registry kind, Snapshot.copyPath kept.snapshot.directory kind⟩

/-- Whether everything is there that `restore` needs for a snapshot. -/
structure IsIntact (site : Site) (kept : Kept) (disk : Disk) : Prop where
  /-- The moment was one of a tree. -/
  moment_isTree : IsTree kept.moment site.home
  /-- The snapshot has a directory of its own among the snapshots. -/
  child : ∃ name, IsPlainName name ∧ kept.snapshot.directory = site.backupRoot.child name
  /-- The directory is there. -/
  isDirectory : disk.isDirectory site.home kept.snapshot.directory = .ok true
  /-- The registries that were files were saved, and nothing else. -/
  files : ∃ kinds : List IndexedKind, kept.snapshot.files = kinds.map (savedFile site kept) ∧
    ∀ kind, kind ∈ kinds ↔ ∃ content, site.Had kept.moment kind content
  /-- The copies are intact. -/
  copies : ∀ kind content, site.Had kept.moment kind content →
    disk.entryAt? (registryPlace (kept.place site) kind) = some (.file content)
  /-- Their paths are not overlong. -/
  fits : ∀ kind content, site.Had kept.moment kind content →
    isOverlong (Snapshot.copyPath kept.snapshot.directory kind) = false
  /-- The registries can be written. -/
  isOpen : ∀ kind content, site.Had kept.moment kind content → site.IsOpen disk kind

/-- The directory of a snapshot stands among the snapshots. -/
theorem IsIntact.backups_place (h : kept.IsIntact site disk) : site.backups <+: kept.place site := by
  obtain ⟨name, hname, hdirectory⟩ := h.child
  rw [place, hdirectory]
  exact site.backups_child hname

theorem IsIntact.entryAt?_place (h : kept.IsIntact site disk) :
    disk.entryAt? (kept.place site) = some .directory := by
  obtain ⟨found, hloc, hdir⟩ := isDirectory_eq_ok_true.mp h.isDirectory
  rwa [locate_eq_resolve hloc] at hdir

/-- A copy in a snapshot can be read. -/
theorem IsIntact.readFile_copy (h : kept.IsIntact site disk) (ht : IsTree disk site.home)
    (hhad : site.Had kept.moment kind content) :
    disk.readFile site.home (Snapshot.copyPath kept.snapshot.directory kind) = .ok content := by
  obtain ⟨found, hloc, hdir⟩ := isDirectory_eq_ok_true.mp h.isDirectory
  have hcopy := h.copies kind content hhad
  rw [place, ← locate_eq_resolve hloc] at hcopy
  have hparent := ht.parent hcopy
  rw [registryPlace, List.dropLast_concat] at hparent
  exact readFile_eq_ok.mpr ⟨_, locate_names (isPlainName_directory kind.toKind)
    isPlainName_indexFileName (h.fits kind content hhad) hloc hdir hparent, hcopy⟩

/-- A snapshot stays intact when the snapshots are kept and its registries can be written. -/
theorem IsIntact.keep (h : kept.IsIntact site before) (hkeeps : site.Keeps before after)
    (hopen : ∀ kind content, site.Had kept.moment kind content → site.IsOpen after kind) :
    kept.IsIntact site after := by
  refine ⟨h.moment_isTree, h.child, ?_, h.files, fun kind content hhad => ?_, h.fits, hopen⟩
  -- the directory of the snapshots is still reached, and that of the snapshot is in it
  · obtain ⟨name, hname, hdirectory⟩ := h.child
    obtain ⟨found, hloc, -⟩ := isDirectory_eq_ok_true.mp h.isDirectory
    rw [hdirectory] at hloc
    have hfits := (locate_eq_ok.mp hloc).1.fits
    obtain ⟨around, haround, hdir, -⟩ := locate_child_eq_ok hloc
    obtain ⟨root, hroot, hthere⟩ :=
      isDirectory_eq_ok_true.mp (hkeeps.reached (isDirectory_eq_ok_true.mpr ⟨around, haround, hdir⟩))
    have hchild := locate_child hname hfits hroot hthere
    rw [← hdirectory] at hchild
    refine isDirectory_eq_ok_true.mpr ⟨_, hchild, ?_⟩
    rw [locate_eq_resolve hchild]
    exact hkeeps.entries _ _ h.backups_place h.entryAt?_place
  · exact hkeeps.entries _ _ (h.backups_place.trans ((List.prefix_append _ _).trans
      (List.prefix_append _ _))) (h.copies kind content hhad)

end Kept

/-! ## Taking -/

namespace Snapshot

variable {site : Site} {start store : Store} {snapshot : Snapshot} {directory : Path} {disk : Disk}

/-- When the source root is there, what is new among the snapshots makes no registry a file. -/
theorem had_of_grows (hd : site.IsDisjoint) {before after : Disk} {fresh : Location}
    (hfresh : site.backups <+: fresh) (hgrows : Grows (fresh <+: ·) before after)
    (hroot : before.isDirectory site.home site.sourceRoot = .ok true) {kind : IndexedKind} {content : Bytes}
    (h : site.Had after kind content) : site.Had before kind content := by
  have hsame : ∀ q, site.sourceRoot.resolve site.home <+: q → after.entryAt? q = before.entryAt? q :=
    fun q hq => (hgrows q).resolve_right fun hnew => hd.not_backups hq (hfresh.trans hnew.2)
  -- the way to the registry leads through the source root and a directory, both as before
  obtain ⟨place, hloc, hfile⟩ := readFile_eq_ok.mp h
  rw [Site.registry_eq] at hloc
  have hfits := (locate_eq_ok.mp hloc).1.fits
  obtain ⟨around, haround, hdir, rfl⟩ := locate_child_eq_ok hloc
  obtain ⟨root, hfound, -, rfl⟩ := locate_child_eq_ok haround
  obtain ⟨base, hbase, hthere⟩ := isDirectory_eq_ok_true.mp hroot
  obtain rfl := Except.ok.inj (hfound.symm.trans (locate_mono (fun q => hgrows.entryAt?) hbase))
  have hdirectory := isPlainName_directory kind.toKind
  rw [isPlainName_indexFileName.step, hdirectory.step] at hfile
  rw [hdirectory.step] at hdir
  rw [hsame _ (by
    rw [← locate_eq_resolve hbase]
    exact List.prefix_append _ _)] at hdir
  rw [hsame _ (by
    rw [← locate_eq_resolve hbase, List.append_assoc]
    exact List.prefix_append _ _)] at hfile
  refine readFile_eq_ok.mpr ⟨_, ?_, hfile⟩
  rw [Site.registry_eq]
  exact locate_names hdirectory isPlainName_indexFileName hfits hbase hthere hdir

/-- A registry that is a file has a source root. -/
theorem isDirectory_of_had {moment : Disk} {kind : IndexedKind} {content : Bytes}
    (h : site.Had moment kind content) : moment.isDirectory site.home site.sourceRoot = .ok true := by
  obtain ⟨place, hloc, -⟩ := readFile_eq_ok.mp h
  rw [Site.registry_eq] at hloc
  obtain ⟨around, haround, -⟩ := locate_child_eq_ok hloc
  obtain ⟨root, hroot, hdir, -⟩ := locate_child_eq_ok haround
  exact isDirectory_eq_ok_true.mpr ⟨root, hroot, hdir⟩

/-- Snapshots apart from the source root do not change which registries are files. -/
theorem isSettled_of_isDisjoint (hd : site.IsDisjoint) (hhome : start.home = site.home)
    {fresh : Location} (hfresh : site.backups <+: fresh) : IsSettled start site.sourceRoot fresh := by
  rintro ⟨regular, hregular⟩ store kind hgrown hfile
  rw [hhome] at hregular hfile ⊢
  obtain ⟨content, hread⟩ := exists_readFile hregular
  obtain ⟨bytes, hnow⟩ := exists_readFile hfile
  have hthere : site.Had start.disk regular content := hread
  have hhad : site.Had store.disk kind bytes := hnow
  exact isFile_of_readFile (had_of_grows hd hfresh hgrown.grows (isDirectory_of_had hthere) hhad)

/-- Saving changes no registry. -/
theorem Saving.had_iff {base : Store} {fresh : Location} {pending : List IndexedKind} {files : List SavedFile}
    (h : Saving base site.sourceRoot directory fresh pending files store) (hd : site.IsDisjoint)
    (hhome : base.home = site.home) (hfresh : site.backups <+: fresh) {kind : IndexedKind} {content : Bytes} :
    site.Had store.disk kind content ↔ site.Had base.disk kind content := by
  have hgrows : Grows (fresh <+: ·) base.disk store.disk := h.grownIn.grows
  refine ⟨fun hhad => ?_, fun hhad => hgrows.readFile hhad⟩
  rcases List.eq_nil_or_concat files with hnil | ⟨front, file, hfiles⟩
  · rwa [h.untouched hnil] at hhad
  · -- a registry that was saved was a file, so the source root was there
    obtain ⟨saved, bytes, -, -, hread, -⟩ := h.copies file (by rw [hfiles]; simp)
    rw [hhome] at hread
    exact had_of_grows hd hfresh hgrows (isDirectory_of_had hread) hhad

/-- The name of a fresh directory is a plain one. -/
theorem exists_plainName {home : Location} {before : Disk} {root : Path}
    (h : MadeFresh before home root directory disk) :
    ∃ name, IsPlainName name ∧ directory = root.child name := by
  obtain ⟨name, rfl, hresolve⟩ := h.child
  have hnames := isTakeable_of_locate h.located
  have hparent : name ≠ Path.parentStep := by
    rintro rfl
    rw [Path.resolve_child, Path.step_parentStep] at hresolve
    have := congrArg List.length hresolve
    simp at this
  refine ⟨name, ⟨hparent, (hnames.short name (by simp [Path.child])).resolve_left hparent, ?_⟩, rfl⟩
  have hnul := hnames.noNul
  rw [hasNul_child, Bool.or_eq_false_iff] at hnul
  simpa using hnul.2

/-- A snapshot that was taken is intact. -/
theorem Taken.isIntact (hd : site.IsDisjoint) (hhome : start.home = site.home)
    (h : Taken start site.sourceRoot site.backupRoot snapshot store) :
    Kept.IsIntact site ⟨snapshot, store.disk⟩ store.disk := by
  obtain ⟨base, hmade, hsaving⟩ := h
  rw [hhome] at hmade hsaving
  obtain ⟨name, hname, hdirectory⟩ := exists_plainName hmade
  have hfresh : site.backups <+: snapshot.directory.resolve site.home := by
    rw [hdirectory]
    exact site.backups_child hname
  have htree : IsTree store.disk site.home := hhome ▸ hsaving.grownIn.isTree
  have hsame : ∀ kind content, site.Had store.disk kind content ↔ site.Had base kind content :=
    fun kind content => hsaving.had_iff hd rfl hfresh
  -- what was saved are the registries that are files, with their bytes
  have hsaved : ∀ kind content, site.Had store.disk kind content →
      Kept.savedFile site ⟨snapshot, store.disk⟩ kind ∈ snapshot.files := fun kind content hhad =>
    hsaving.complete kind List.not_mem_nil content ((hsame kind content).mp hhad)
  have hfile : ∀ kind, Kept.savedFile site ⟨snapshot, store.disk⟩ kind ∈ snapshot.files →
      ∃ content, site.Had store.disk kind content ∧
        isOverlong (copyPath snapshot.directory kind) = false ∧
        store.disk.entryAt? (registryPlace (snapshot.directory.resolve site.home) kind)
          = some (.file content) := by
    intro kind hmem
    obtain ⟨other, content, hother, hfits, hread, hcopy⟩ := hsaving.copies _ hmem
    obtain rfl : kind = other := Site.registry_injective (congrArg SavedFile.path hother)
    exact ⟨content, (hsame kind content).mpr hread, hfits, hcopy⟩
  -- each part of an intact snapshot, for the time at which it was taken
  refine ⟨htree, ⟨name, hname, hdirectory⟩, ?_, ?_, fun kind content hhad => ?_, fun kind content hhad => ?_,
    fun kind content hhad => hhad.isOpen htree⟩
  · refine isDirectory_eq_ok_true.mpr ⟨_, ?_, hsaving.isDirectory⟩
    exact hhome ▸ hsaving.located
  · have hrange : snapshot.files ∈ Set.range (List.map (Kept.savedFile site ⟨snapshot, store.disk⟩)) := by
      rw [Set.range_list_map]
      intro file hmem
      obtain ⟨kind, content, rfl, -⟩ := hsaving.copies file hmem
      exact ⟨kind, rfl⟩
    obtain ⟨kinds, hkinds⟩ := hrange
    refine ⟨kinds, hkinds.symm, fun kind => ⟨fun hmem => ?_, fun hfound => ?_⟩⟩
    · obtain ⟨content, hhad, -⟩ := hfile kind (hkinds ▸ List.mem_map_of_mem hmem)
      exact ⟨content, hhad⟩
    · obtain ⟨content, hhad⟩ := hfound
      obtain ⟨other, hmem, hother⟩ := List.mem_map.mp (hkinds ▸ hsaved kind content hhad)
      obtain rfl : other = kind := Site.registry_injective (congrArg SavedFile.path hother)
      exact hmem
  · obtain ⟨bytes, hbytes, -, hcopy⟩ := hfile kind (hsaved kind content hhad)
    obtain rfl := hhad.eq hbytes
    exact hcopy
  · obtain ⟨-, -, hfits, -⟩ := hfile kind (hsaved kind content hhad)
    exact hfits

end Snapshot

end ComponentKit
