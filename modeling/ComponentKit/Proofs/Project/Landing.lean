import ComponentKit.Proofs.Disk.Way
import ComponentKit.Proofs.Project.Snapshot
import ComponentKit.Proofs.Session.Ending

/-!
# Where restored copies land

`restore` copies each file of a snapshot onto its path, whatever has become of that. A copy lands at the path
itself, unless a directory stands there: then it lands in that directory, under the name of the copy (`landing`),
and the restore goes on as if the file was restored. Nothing else changes, apart from directories that are missing
on the way.
-/

namespace ComponentKit

open Disk Project Step

variable {disk before middle after changed : Disk} {home place q : Location} {source target path : Path}
  {file other : SavedFile} {files more : List SavedFile} {content : Bytes} {snapshot : Snapshot}

/-! ## Landing -/

/-- Where a copy onto a path lands, by `copyFile`. -/
def Disk.landing (disk : Disk) (home : Location) (source target : Path) : Path :=
  match disk.isDirectory home target with
  | .ok true => target.child source.name
  | _ => target

theorem Disk.landing_of_isDirectory (h : disk.isDirectory home target = .ok true) :
    disk.landing home source target = target.child source.name := by
  rw [landing, h]

theorem Disk.landing_of_not (h : disk.isDirectory home target ≠ .ok true) :
    disk.landing home source target = target := by
  rw [landing]
  split
  · rename_i hdir
    exact absurd hdir h
  · rfl

theorem Disk.copyFile_eq_ok : disk.copyFile home source target = .ok changed ↔
    ∃ content place, disk.readFile home source = .ok content ∧
      disk.locate home (disk.landing home source target) = .ok place ∧
      disk.entryAt? place ≠ some .directory ∧ changed = disk.put place (.file content) := by
  have hcopy : disk.copyFile home source target = (do
      let content ← disk.readFile home source
      disk.writeFile home (disk.landing home source target) content) := rfl
  rw [hcopy, bind_eq_ok]
  simp only [writeFile_eq_ok, exists_and_left]

/-- What stood somewhere still does, as a file or as a directory; files may have another content. -/
structure Disk.SameKinds (before after : Disk) : Prop where
  /-- Directories stay. -/
  directories : ∀ q, before.entryAt? q = some .directory → after.entryAt? q = some .directory
  /-- Files stay files. -/
  files : ∀ q content, before.entryAt? q = some (.file content) →
    ∃ content, after.entryAt? q = some (.file content)

theorem Disk.SameKinds.trans (h₁ : SameKinds before middle) (h₂ : SameKinds middle after) :
    SameKinds before after := by
  refine ⟨fun q h => h₂.directories q (h₁.directories q h), fun q content h => ?_⟩
  obtain ⟨content', h'⟩ := h₁.files q content h
  exact h₂.files q content' h'

theorem Disk.SameKinds.isDirectory (h : SameKinds before after)
    (hdir : before.isDirectory home path = .ok true) : after.isDirectory home path = .ok true := by
  obtain ⟨place, hlocated, hplace⟩ := isDirectory_eq_ok_true.mp hdir
  exact isDirectory_eq_ok_true.mpr
    ⟨place, locate_mono h.directories hlocated, h.directories place hplace⟩

/-- A path to a file is no path to a directory. -/
theorem Disk.isDirectory_ne (hlocated : disk.locate home path = .ok place)
    (hplace : disk.entryAt? place = some (.file content)) : disk.isDirectory home path ≠ .ok true := by
  intro h
  obtain ⟨found, hfound, hdir⟩ := isDirectory_eq_ok_true.mp h
  obtain rfl := Except.ok.inj (hfound.symm.trans hlocated)
  rw [hplace] at hdir
  cases hdir

namespace SavedFile

/-- Where the copy of a saved file lands when `restore` copies it back. -/
def landing (file : SavedFile) (disk : Disk) (home : Location) : Path :=
  disk.landing home file.copy file.path

/-- The place of the `landing` of a saved file. -/
def landingPlace (file : SavedFile) (disk : Disk) (home : Location) : Location :=
  (file.landing disk home).resolve home

/-- A copy that has landed is found where it landed as long as nothing changes its kind. -/
theorem landing_eq (h : SameKinds before after)
    (hread : before.readFile home (file.landing before home) = .ok content) :
    file.landing after home = file.landing before home := by
  by_cases hdir : before.isDirectory home file.path = .ok true
  · rw [landing, landing, landing_of_isDirectory hdir, landing_of_isDirectory (h.isDirectory hdir)]
  · rw [landing, landing_of_not hdir] at hread
    obtain ⟨place, hlocated, hplace⟩ := readFile_eq_ok.mp hread
    obtain ⟨content', hplace'⟩ := h.files place content hplace
    rw [landing, landing, landing_of_not hdir,
      landing_of_not (isDirectory_ne (locate_mono h.directories hlocated) hplace')]

end SavedFile

/-! ## One file -/

/-- What is known after one file was restored. -/
structure Landed (home : Location) (file : SavedFile) (before : Disk) (content : Bytes) (after : Disk) :
    Prop where
  /-- The copy was read. -/
  copy : before.readFile home file.copy = .ok content
  /-- It is found where it landed. -/
  landing : after.readFile home (file.landing after home) = .ok content
  /-- It has not taken the place of a directory, nor a directory the place of a file. -/
  sameKinds : SameKinds before after
  /-- Nothing else has changed but missing directories on the way. -/
  others : ∀ q, q ≠ file.landingPlace after home → after.entryAt? q = before.entryAt? q ∨
    (before.entryAt? q = none ∧ after.entryAt? q = some .directory ∧ q ∈ waypoints home file.path.parent)

/-- Copying a file onto the path of its original, after the directories of that were made. -/
theorem landed_of_copyFile (hfile : before.isFile home file.copy = .ok true)
    (hcopy : (before.makeDirectories home file.path.parent).2.copyFile home file.copy file.path = .ok after) :
    ∃ content, Landed home file before content after := by
  have hadds := addsDirectories before home file.path.parent
  generalize (before.makeDirectories home file.path.parent).2 = made at hcopy hadds
  obtain ⟨content, hread⟩ := isFile_eq_ok_true_iff.mp hfile
  obtain ⟨found, place, hfound, hlocated, hfree, rfl⟩ := copyFile_eq_ok.mp hcopy
  obtain rfl := Except.ok.inj (hfound.symm.trans (hadds.grows.readFile hread))
  have hne : place ≠ [] := by
    rintro rfl
    exact hfree (entryAt?_nil made)
  have hself := entryAt?_put_self made place (.file found) hne
  -- the copy stands where no directory was
  have hdirs : ∀ q, made.entryAt? q = some .directory →
      (made.put place (.file found)).entryAt? q = some .directory := by
    intro q hq
    rw [entryAt?_put_of_ne, hq]
    rintro rfl
    exact hfree hq
  -- the copy itself does not change where it lands
  have hlanding : file.landing (made.put place (.file found)) home = file.landing made home := by
    by_cases hdir : made.isDirectory home file.path = .ok true
    · obtain ⟨around, haround, hthere⟩ := isDirectory_eq_ok_true.mp hdir
      rw [SavedFile.landing, SavedFile.landing, landing_of_isDirectory hdir, landing_of_isDirectory
        (isDirectory_eq_ok_true.mpr ⟨around, locate_mono hdirs haround, hdirs around hthere⟩)]
    · rw [landing_of_not hdir] at hlocated
      rw [SavedFile.landing, SavedFile.landing, landing_of_not hdir,
        landing_of_not (isDirectory_ne (locate_mono hdirs hlocated) hself)]
  have hplace : file.landingPlace (made.put place (.file found)) home = place := by
    rw [SavedFile.landingPlace, hlanding]
    exact (locate_eq_resolve hlocated).symm
  refine ⟨found, hread, ?_, ⟨fun q hq => hdirs q (hadds.grows.entryAt? hq), fun q bytes hq => ?_⟩,
    fun q hq => ?_⟩
  · rw [hlanding]
    exact readFile_eq_ok.mpr ⟨place, locate_mono hdirs hlocated, hself⟩
  · by_cases heq : q = place
    · exact ⟨found, heq ▸ hself⟩
    · exact ⟨bytes, by rw [entryAt?_put_of_ne made _ heq, hadds.grows.entryAt? hq]⟩
  · rw [entryAt?_put_of_ne made _ (hplace ▸ hq)]
    exact hadds q

theorem Disk.entryAt?_of_readFile (h : disk.readFile home path = .ok content) :
    disk.entryAt? (path.resolve home) = some (.file content) := by
  obtain ⟨place, hlocated, hplace⟩ := readFile_eq_ok.mp h
  rwa [← locate_eq_resolve hlocated]

/-- A file is read as before unless a copy has landed there. -/
theorem Landed.readFile_of_ne {bytes : Bytes} (h : Landed home file before content after)
    (hread : before.readFile home path = .ok bytes) (hne : path.resolve home ≠ file.landingPlace after home) :
    after.readFile home path = .ok bytes := by
  obtain ⟨place, hlocated, hplace⟩ := readFile_eq_ok.mp hread
  rw [← locate_eq_resolve hlocated] at hne
  refine readFile_eq_ok.mpr ⟨place, locate_mono h.sameKinds.directories hlocated, ?_⟩
  rcases h.others place hne with heq | ⟨hnone, -⟩
  · rw [heq, hplace]
  · cases hnone.symm.trans hplace

/-! ## Several files -/

namespace Snapshot

/-- Whether no other copy lands where the one of a file does, and none lands on that copy. -/
def StandsApart (disk : Disk) (home : Location) (files : List SavedFile) (file : SavedFile) : Prop :=
  ∀ other ∈ files, (other.landingPlace disk home = file.landingPlace disk home → other = file) ∧
    other.landingPlace disk home ≠ file.copy.resolve home

/-- What is known after `restoreAll` has copied some files back. -/
structure CopiedBack (home : Location) (before : Disk) (files : List SavedFile) (disk : Disk) : Prop where
  /-- Directories and files are still there. -/
  sameKinds : SameKinds before disk
  /-- What has changed are the places where copies landed, and missing directories on the way. -/
  others : ∀ q, disk.entryAt? q = before.entryAt? q ∨
    (before.entryAt? q = none ∧ disk.entryAt? q = some .directory ∧
      ∃ file ∈ files, q ∈ waypoints home file.path.parent) ∨
    ∃ file ∈ files, q = file.landingPlace disk home
  /-- All copies are found where they landed, if only as files. -/
  landed : ∀ file ∈ files, ∃ content, disk.readFile home (file.landing disk home) = .ok content
  /-- They have the content of the copy, which is still there, if they stand apart. -/
  content : ∀ file ∈ files, StandsApart disk home files file → ∃ content,
    before.entryAt? (file.copy.resolve home) = some (.file content) ∧
    disk.readFile home file.copy = .ok content ∧
    disk.readFile home (file.landing disk home) = .ok content

theorem copiedBack_nil (home : Location) (disk : Disk) : CopiedBack home disk [] disk where
  sameKinds := ⟨fun _ h => h, fun _ content h => ⟨content, h⟩⟩
  others _ := .inl rfl
  landed _ hmem := (List.not_mem_nil hmem).elim
  content _ hmem := (List.not_mem_nil hmem).elim

section Next

variable (h : CopiedBack home before files disk) (hone : Landed home file disk content after)

include h hone

/-- The copies that were restored earlier stay where they landed. -/
theorem CopiedBack.landing_eq (hmem : other ∈ files) : other.landing after home = other.landing disk home := by
  obtain ⟨bytes, hread⟩ := h.landed other hmem
  exact SavedFile.landing_eq hone.sameKinds hread

theorem CopiedBack.landingPlace_eq (hmem : other ∈ files) :
    other.landingPlace after home = other.landingPlace disk home := by
  rw [SavedFile.landingPlace, SavedFile.landingPlace, h.landing_eq hone hmem]

theorem CopiedBack.standsApart (hapart : StandsApart after home (files ++ [file]) other) (hmem : other ∈ files) :
    StandsApart disk home files other := by
  intro third hthird
  have h' := hapart third (List.mem_append_left _ hthird)
  rwa [h.landingPlace_eq hone hthird, h.landingPlace_eq hone hmem] at h'

/-- A copy that was restored earlier and stands apart is still there, and so is its content where it landed. -/
theorem CopiedBack.content_earlier (hmem : other ∈ files)
    (hapart : StandsApart after home (files ++ [file]) other) : ∃ bytes,
      before.entryAt? (other.copy.resolve home) = some (.file bytes) ∧
      after.readFile home other.copy = .ok bytes ∧
      after.readFile home (other.landing after home) = .ok bytes := by
  obtain ⟨bytes, hthere, hread, hlanded⟩ := h.content other hmem (h.standsApart hone hapart hmem)
  obtain ⟨honly, hne⟩ := hapart file (List.mem_append_right _ List.mem_cons_self)
  refine ⟨bytes, hthere, hone.readFile_of_ne hread (Ne.symm hne), ?_⟩
  by_cases hsame : file.landingPlace after home = other.landingPlace after home
  · -- the same file once more
    obtain rfl := honly hsame
    obtain rfl := Except.ok.inj (hone.copy.symm.trans hread)
    exact hone.landing
  · rw [h.landing_eq hone hmem]
    refine hone.readFile_of_ne hlanded fun hplace => hsame ?_
    rw [← hplace, SavedFile.landingPlace, h.landing_eq hone hmem]

/-- The last copy has been there from the start, if it stands apart. -/
theorem CopiedBack.entryAt?_copy (hapart : StandsApart after home (files ++ [file]) file) :
    before.entryAt? (file.copy.resolve home) = some (.file content) := by
  have hthere := entryAt?_of_readFile hone.copy
  rcases h.others (file.copy.resolve home) with hsame | ⟨-, hdir, -⟩ | ⟨earlier, hmem, hplace⟩
  · rw [← hsame, hthere]
  · cases hdir.symm.trans hthere
  · refine absurd ?_ (hapart earlier (List.mem_append_left _ hmem)).2
    rw [hplace, h.landingPlace_eq hone hmem]

/-- One more file is restored. -/
theorem CopiedBack.next : CopiedBack home before (files ++ [file]) after where
  sameKinds := h.sameKinds.trans hone.sameKinds
  others := by
    intro q
    by_cases hq : q = file.landingPlace after home
    · exact .inr (.inr ⟨file, List.mem_append_right _ List.mem_cons_self, hq⟩)
    rcases hone.others q hq with heq | ⟨hnone, hdir, hway⟩
    · rw [heq]
      -- what the last copy has left alone is as the earlier ones have left it
      rcases h.others q with hsame | ⟨hnone, hdir, earlier, hmem, hway⟩ | ⟨earlier, hmem, hplace⟩
      · exact .inl hsame
      · exact .inr (.inl ⟨hnone, hdir, earlier, List.mem_append_left _ hmem, hway⟩)
      · refine .inr (.inr ⟨earlier, List.mem_append_left _ hmem, ?_⟩)
        rw [hplace, h.landingPlace_eq hone hmem]
    · -- a new directory is where nothing stood in front of the restore either
      rcases h.others q with hsame | ⟨-, hthere, -⟩ | ⟨earlier, hmem, hplace⟩
      · exact .inr (.inl ⟨hsame ▸ hnone, hdir, file, List.mem_append_right _ List.mem_cons_self, hway⟩)
      · cases hnone.symm.trans hthere
      · obtain ⟨bytes, hread⟩ := h.landed earlier hmem
        rw [hplace] at hnone
        cases hnone.symm.trans (entryAt?_of_readFile hread)
  landed := by
    intro other hmem
    rcases List.mem_append.mp hmem with hmem | hmem
    · obtain ⟨bytes, hread⟩ := h.landed other hmem
      obtain ⟨place, hlocated, hplace⟩ := readFile_eq_ok.mp hread
      obtain ⟨bytes', hplace'⟩ := hone.sameKinds.files place bytes hplace
      rw [h.landing_eq hone hmem]
      exact ⟨bytes', readFile_eq_ok.mpr
        ⟨place, locate_mono hone.sameKinds.directories hlocated, hplace'⟩⟩
    · rw [List.mem_singleton.mp hmem]
      exact ⟨content, hone.landing⟩
  content := by
    intro other hmem hapart
    rcases List.mem_append.mp hmem with hearlier | hlast
    · exact h.content_earlier hone hearlier hapart
    · obtain rfl := List.mem_singleton.mp hlast
      -- the copy itself is not written over, as it does not land on itself
      have hself := (hapart other (List.mem_append_right _ List.mem_cons_self)).2
      exact ⟨content, h.entryAt?_copy hone hapart, hone.readFile_of_ne hone.copy (Ne.symm hself), hone.landing⟩

end Next

/-- Restoring goes through the files one by one; one that returns has restored them all in this way. -/
theorem spec_restoreAll (home : Location) (before : Disk) (done : List SavedFile) :
    Spec (fun store => store.home = home ∧ CopiedBack home before done store.disk) (restoreAll files)
      (fun paths store => CopiedBack home before (done ++ files) store.disk ∧
        paths = files.map SavedFile.path)
      fun _ _ => True := by
  refine (spec_restoreAll_of_next (E := fun _ _ => True)
    (I := fun done store => store.home = home ∧ CopiedBack home before done store.disk)
    done (fun _ _ _ _ _ _ _ => trivial) (fun _ _ _ _ _ _ => trivial) fun done file start _ hs hfile => ?_).weaken_ends
    (fun _ _ h => ⟨h.1.2, h.2⟩) fun _ _ _ => trivial
  obtain ⟨rfl, hback⟩ := hs
  refine Snapshot.Spec.explain ((spec_copyFile _ _).weaken_ends (fun _ store h => ?_) fun _ _ _ => trivial)
  obtain ⟨disk, -, hcopied, rfl⟩ := h
  obtain ⟨content, hone⟩ := landed_of_copyFile hfile hcopied
  exact ⟨rfl, hback.next hone⟩

/-! ## Restoring -/

variable {session last : Session} {paths : List Path}

theorem copiedBack_of_restore (hrun : snapshot.restore.run session = (.ok paths, last)) :
    CopiedBack session.home session.disk snapshot.files last.disk ∧
      paths = snapshot.files.map SavedFile.path :=
  (spec_restoreAll session.home session.disk []).ok ⟨rfl, copiedBack_nil _ _⟩ hrun

/-- An original is restored exactly if no directory stands in its place. -/
theorem CopiedBack.restored_iff (h : CopiedBack home before files disk) (hmem : file ∈ files)
    (hapart : StandsApart disk home files file) :
    (∃ content, before.entryAt? (file.copy.resolve home) = some (.file content) ∧
      disk.readFile home file.copy = .ok content ∧
      disk.readFile home (file.landing disk home) = .ok content ∧
      (disk.readFile home file.path = .ok content ↔ disk.isDirectory home file.path ≠ .ok true)) := by
  obtain ⟨content, hbefore, hcopy, hlanded⟩ := h.content file hmem hapart
  refine ⟨content, hbefore, hcopy, hlanded, fun hread => ?_, fun hnot => ?_⟩
  · obtain ⟨place, hlocated, hplace⟩ := readFile_eq_ok.mp hread
    exact isDirectory_ne hlocated hplace
  · rwa [SavedFile.landing, landing_of_not hnot] at hlanded

/-- A `restore` that returns has copied every file of the snapshot to where it landed: at its path, or, if a directory
stands there, in that directory. Nothing else has changed but missing directories on the way. -/
theorem restore_lands (hrun : snapshot.restore.run session = (.ok paths, last)) :
    paths = snapshot.files.map SavedFile.path ∧
    (∀ q, last.disk.entryAt? q = session.disk.entryAt? q ∨
      (session.disk.entryAt? q = none ∧ last.disk.entryAt? q = some .directory ∧
        ∃ file ∈ snapshot.files, q ∈ waypoints session.home file.path.parent) ∨
      ∃ file ∈ snapshot.files, q = file.landingPlace last.disk session.home) ∧
    ∀ file ∈ snapshot.files,
      last.disk.isFile session.home (file.landing last.disk session.home) = .ok true ∧
      (StandsApart last.disk session.home snapshot.files file → ∃ content,
        session.disk.entryAt? (file.copy.resolve session.home) = some (.file content) ∧
        last.disk.readFile session.home file.copy = .ok content ∧
        last.disk.readFile session.home (file.landing last.disk session.home) = .ok content ∧
        (last.disk.readFile session.home file.path = .ok content ↔
          last.disk.isDirectory session.home file.path ≠ .ok true)) := by
  obtain ⟨hback, hpaths⟩ := copiedBack_of_restore hrun
  refine ⟨hpaths, hback.others, fun file hmem => ⟨?_, hback.restored_iff hmem⟩⟩
  exact isFile_eq_ok_true_iff.mpr (hback.landed file hmem)

/-! ### A directory in the place of an original -/

/-- A snapshot of two registries, in one place of which there is a directory by now, and nothing in the other. -/
def strayedSnapshot : Snapshot :=
  ⟨"b", .ofText ".", .ofText "b",
    [⟨.ofText "src/tools/index.ts", .ofText "b/tools/index.ts"⟩,
      ⟨.ofText "src/prompts/index.ts", .ofText "b/prompts/index.ts"⟩]⟩

/-- A session in which `strayedSnapshot` is restored. -/
def strayedSession : Session :=
  .start ⟨[
    (["p", "b", "tools", "index.ts"], .file [65]),
    (["p", "b", "prompts", "index.ts"], .file [66]),
    (["p", "src", "tools", "index.ts"], .directory),
    (["p", "src", "tools"], .directory),
    (["p", "src"], .directory),
    (["p", "b", "tools"], .directory),
    (["p", "b", "prompts"], .directory),
    (["p", "b"], .directory),
    (["p"], .directory)]⟩ ["p"] ⟨2026, 1, 1, 0, 0, 0, 0⟩ false .none

theorem restore_lands_strayed : ∃ last,
    strayedSnapshot.restore.run strayedSession = (.ok (strayedSnapshot.files.map SavedFile.path), last) ∧
      ∀ file ∈ strayedSnapshot.files,
        last.disk.isFile strayedSession.home (file.landing last.disk strayedSession.home) = .ok true := by
  have hok : (strayedSnapshot.restore.run strayedSession).1
      = .ok (strayedSnapshot.files.map SavedFile.path) := by decide +kernel
  exact ⟨_, Prod.ext hok rfl, fun file hmem => ((restore_lands (Prod.ext hok rfl)).2.2 file hmem).1⟩

/-- A restore returns though an original is no file after it. -/
theorem not_restored_strayed : ¬ ∀ (session last : Session) (snapshot : Snapshot) (paths : List Path),
    snapshot.restore.run session = (.ok paths, last) → ∀ file ∈ snapshot.files,
      last.disk.isFile session.home file.path = .ok true := by
  intro hall
  have hok : (strayedSnapshot.restore.run strayedSession).1
      = .ok (strayedSnapshot.files.map SavedFile.path) := by decide +kernel
  have hfile := hall strayedSession _ strayedSnapshot _ (Prod.ext hok rfl) _ List.mem_cons_self
  -- the directory is still there
  have hback := (copiedBack_of_restore (Prod.ext hok rfl)).1
  obtain ⟨place, content, hlocated, hthere⟩ := isFile_eq_ok_true.mp hfile
  exact isDirectory_ne hlocated hthere (hback.sameKinds.isDirectory (by decide +kernel))

/-! ## Snapshots that were taken -/

/-- The copy of a registry lands in the place of that, or right below it. -/
theorem landingPlace_registry (root directory : Path) (kind : IndexedKind) (disk : Disk) (home : Location) :
    ∃ below, (below = [] ∨ below = [indexFileName]) ∧
      SavedFile.landingPlace ⟨registryPath root kind, copyPath directory kind⟩ disk home
        = registryPlace (root.resolve home) kind ++ below := by
  have hplace : (registryPath root kind).resolve home = registryPlace (root.resolve home) kind := by
    rw [registryPath_eq, resolve_index]
  rw [SavedFile.landingPlace, SavedFile.landing]
  -- a directory in the place of the registry takes the copy in
  by_cases hdir : disk.isDirectory home (registryPath root kind) = .ok true
  · have hname : (copyPath directory kind).name = indexFileName := by
      simp [copyPath, Path.child, Path.name]
    refine ⟨[indexFileName], .inr rfl, ?_⟩
    rw [landing_of_isDirectory hdir, hname, Path.resolve_child, hplace, isPlainName_indexFileName.step]
  · refine ⟨[], .inl rfl, ?_⟩
    rw [landing_of_not hdir, hplace, List.append_nil]

/-- The files of a snapshot that was taken stand apart from each other, whatever becomes of the disk. -/
theorem Taken.standsApart {start store : Store} {root backupRoot : Path}
    (h : Taken start root backupRoot snapshot store) (disk : Disk) (hmem : file ∈ snapshot.files) :
    StandsApart disk start.home snapshot.files file := by
  obtain ⟨made, hmade, hsaving⟩ := h
  intro other hother
  obtain ⟨kind, content, rfl, -, hread, -⟩ := hsaving.copies file hmem
  obtain ⟨second, -, rfl, -⟩ := hsaving.copies other hother
  obtain ⟨below, -, hfirst⟩ := landingPlace_registry root snapshot.directory kind disk start.home
  obtain ⟨below', hbelow, hsecond⟩ := landingPlace_registry root snapshot.directory second disk start.home
  rw [hfirst, hsecond]
  -- two copies land in one place only for one registry, and no copy lands on another one
  refine ⟨fun hsame => ?_, fun hsame => ?_⟩
  · simp only [registryPlace, List.append_assoc, List.append_cancel_left_eq] at hsame
    rw [directory_injective (List.cons.inj hsame).1]
  · rw [show (copyPath snapshot.directory kind).resolve start.home
      = registryPlace (snapshot.directory.resolve start.home) kind from resolve_index _ _ _] at hsame
    rcases hbelow with rfl | rfl
    · -- the source root would be the directory of the snapshot, which was empty
      have hroot : root.resolve start.home = snapshot.directory.resolve start.home := by
        simp only [List.append_nil, registryPlace, List.append_assoc] at hsame
        exact (List.append_inj' hsame rfl).1
      have hthere := entryAt?_of_readFile hread
      rw [registryPath_eq, resolve_index, hroot] at hthere
      have hempty := hmade.isEmpty (registryPlace (snapshot.directory.resolve start.home) kind)
        (by rw [registryPlace, List.append_assoc]; exact List.prefix_append _ _) (by simp [registryPlace])
      cases hempty.symm.trans hthere
    · -- an index would be a directory of components
      have htail : [indexFileName, indexFileName] = [kind.toKind.conventions.directory, indexFileName] := by
        simp only [registryPlace, List.append_assoc] at hsame
        rw [← List.append_assoc] at hsame
        exact (List.append_inj' hsame rfl).2
      have hname : kind.toKind.conventions.directory ≠ indexFileName := by cases kind <;> decide
      exact hname (List.cons.inj htail).1.symm

/-- So a restore of a snapshot that was taken restores exactly the registries in whose place no directory
stands. -/
theorem Taken.restored_iff {start store : Store} {root backupRoot : Path}
    (h : Taken start root backupRoot snapshot store) (hhome : session.home = start.home)
    (hrun : snapshot.restore.run session = (.ok paths, last)) (hmem : file ∈ snapshot.files) :
    ∃ content, last.disk.readFile start.home file.copy = .ok content ∧
      (last.disk.readFile start.home file.path = .ok content ↔
        last.disk.isDirectory start.home file.path ≠ .ok true) := by
  have hback := (copiedBack_of_restore hrun).1
  rw [hhome] at hback
  obtain ⟨content, -, hcopy, -, hiff⟩ := hback.restored_iff hmem (h.standsApart last.disk hmem)
  exact ⟨content, hcopy, hiff⟩

end Snapshot

end ComponentKit
