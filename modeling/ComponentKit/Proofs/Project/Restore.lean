import ComponentKit.Proofs.Project.Kept

/-!
# Restoring an intact snapshot

`restore` puts back the bytes of all registries that were saved and changes nothing else, apart from directories
that are missing on the way to them (`Restored`). It keeps the snapshots, so that a second restore has nothing left
to change. Only the device can keep it from ending.
-/

namespace ComponentKit

open Disk Project Step

variable {site : Site} {kept : Kept} {before middle after disk made : Disk} {kind : IndexedKind}
  {content : Bytes} {kinds : List IndexedKind} {q : Location}

/-! ## One registry -/

namespace Kept

/-- What is known after one registry was restored. -/
structure RestoredOne (site : Site) (kept : Kept) (kind : IndexedKind) (content : Bytes)
    (disk made after : Disk) : Prop where
  /-- The directory of the registry was made. -/
  made_eq : disk.makeDirectories site.home (site.registry kind).parent = (.ok (), made)
  /-- The disk was still a tree. -/
  made_isTree : IsTree made site.home
  /-- Only directories on the way were added for it. -/
  adds : AddsDirectories (· ∈ waypoints site.home (site.registry kind).parent) disk made
  /-- The copy was copied back. -/
  copied_eq : made.copyFile site.home (Snapshot.copyPath kept.snapshot.directory kind)
    (site.registry kind) = .ok after
  /-- This put the bytes in the place of the registry. -/
  after_eq : after = made.put (site.place kind) (.file content)
  /-- The disk is a tree. -/
  isTree : IsTree after site.home
  /-- The registry has its earlier bytes. -/
  had : site.Had after kind content

/-- A registry of an intact snapshot can be restored. -/
theorem IsIntact.restoredOne (h : kept.IsIntact site disk) (ht : IsTree disk site.home)
    (hhad : site.Had kept.moment kind content) :
    ∃ made after, RestoredOne site kept kind content disk made after := by
  have hopen := h.isOpen kind content hhad
  have hmade := madeDirectories (site.registry kind).parent ht
  have hadds := addsDirectories disk site.home (site.registry kind).parent
  have hok := makeDirectories_eq_ok ht hhad.isTakeable hopen.parents
  generalize hr : disk.makeDirectories site.home (site.registry kind).parent = result at *
  obtain ⟨_, made⟩ := result
  obtain rfl := hok
  -- nothing but a file can stand where the copy goes
  have hfree : made.entryAt? (site.place kind) ≠ some .directory := by
    intro hdir
    rcases hadds (site.place kind) with heq | ⟨-, -, hway⟩
    · rw [heq] at hdir
      exact hopen.notDirectory hdir
    · exact hhad.not_waypoint hhad h.moment_isTree hway
  have hloc : made.locate site.home (site.registry kind) = .ok (site.place kind) := by
    obtain ⟨around, haround, hdir⟩ := isDirectory_eq_ok_true.mp (hmade.done rfl)
    have hfits := hhad.isFollowable.fits
    rw [Site.place]
    rw [Site.registry_eq] at haround hfits ⊢
    rw [Path.parent_child] at haround
    rw [Path.resolve_child, isPlainName_indexFileName.step,
      ← locate_eq_resolve haround]
    exact locate_child isPlainName_indexFileName hfits haround hdir
  have hcopy := copyFile_of_locate (hadds.grows.readFile (h.readFile_copy ht hhad)) hloc hfree
  have hne : site.place kind ≠ [] := by
    rw [Site.place_eq]
    simp [registryPlace]
  have hdirs : ∀ q, made.entryAt? q = some .directory →
      (made.put (site.place kind) (.file content)).entryAt? q = some .directory := by
    intro q hq
    rw [entryAt?_put_of_ne _ _ fun heq => ?_, hq]
    exact hfree (heq ▸ hq)
  -- the directories are made and the copy is put in, and nothing else happens
  refine ⟨made, _, hr, hmade.isTree, hadds, hcopy, rfl, ?_, ?_⟩
  · exact hmade.isTree.put (hmade.isTree.locate_parent hloc) (.inr hfree)
  · exact readFile_eq_ok.mpr ⟨_, locate_mono hdirs hloc, entryAt?_put_self _ _ _ hne⟩

/-- What stands somewhere after one registry was restored. -/
theorem RestoredOne.entryAt? (h : RestoredOne site kept kind content disk made after)
    (hq : q ≠ site.place kind) : after.entryAt? q = disk.entryAt? q ∨
      (disk.entryAt? q = none ∧ after.entryAt? q = some .directory ∧
        q ∈ waypoints site.home (site.registry kind).parent) := by
  rw [h.after_eq, entryAt?_put_of_ne _ _ hq]
  exact h.adds q

theorem RestoredOne.directory (h : RestoredOne site kept kind content disk made after)
    (hfree : disk.entryAt? (site.place kind) ≠ some .directory) (hdir : disk.entryAt? q = some .directory) :
    after.entryAt? q = some .directory := by
  rcases h.entryAt? (q := q) (fun heq => hfree (heq ▸ hdir)) with heq | ⟨hnone, -⟩
  · rw [heq, hdir]
  · rw [hdir] at hnone
    cases hnone

/-- Restoring one registry keeps the snapshots. -/
theorem RestoredOne.keeps (h : RestoredOne site kept kind content disk made after)
    (hd : site.IsDisjoint) (hfree : disk.entryAt? (site.place kind) ≠ some .directory) :
    site.Keeps disk after := by
  refine Site.keeps_of_directories (fun q => h.directory hfree) fun q bytes hq hfile => ?_
  have hne : q ≠ site.place kind := by
    rintro rfl
    exact hd.not_backups_place kind hq
  rcases h.entryAt? hne with heq | ⟨hnone, -⟩
  · rw [heq, hfile]
  · rw [hfile] at hnone
    cases hnone

/-- Restoring one registry leaves all registries of the snapshot open. -/
theorem RestoredOne.isOpen (h : RestoredOne site kept kind content disk made after)
    (ht : IsTree kept.moment site.home) (hhad : site.Had kept.moment kind content) {other : IndexedKind}
    {bytes : Bytes} (hother : site.Had kept.moment other bytes) (hopen : site.IsOpen disk other) :
    site.IsOpen after other := by
  refine ⟨fun q hq more hfile => ?_, fun hdir => ?_⟩
  · have hne : q ≠ site.place kind := by
      rintro rfl
      exact hhad.not_waypoint hother ht hq
    rcases h.entryAt? hne with heq | ⟨-, hdir, -⟩
    · exact hopen.parents q hq more (heq ▸ hfile)
    · rw [hdir] at hfile
      cases hfile
  -- the registry that is back is a file; another one is as before, or on no way to this one
  · by_cases heq : other = kind
    · subst heq
      rw [h.had.entryAt?] at hdir
      cases hdir
    · rcases h.entryAt? (fun hplace => heq (Site.place_injective hplace)) with hsame | ⟨-, -, hway⟩
      · exact hopen.notDirectory (hsame ▸ hdir)
      · exact hother.not_waypoint hhad ht hway

end Kept

/-! ## What a restore does -/

/-- Some registries have the bytes that they had at a moment. Everything else is as it was, apart from
directories that were missing on the way to them. -/
structure Site.Restored (site : Site) (moment : Disk) (kinds : List IndexedKind) (before after : Disk) :
    Prop where
  /-- The registries have their earlier bytes. -/
  registries : ∀ kind ∈ kinds, ∀ content, site.Had moment kind content → site.Had after kind content
  /-- Nothing else has changed but missing directories. -/
  others : ∀ q, (∀ kind ∈ kinds, q ≠ site.place kind) → after.entryAt? q = before.entryAt? q ∨
    (before.entryAt? q = none ∧ after.entryAt? q = some .directory ∧
      ∃ kind ∈ kinds, q ∈ waypoints site.home (site.registry kind).parent)

namespace Kept

/-- The state of a restore that has put back some registries. -/
structure Restoring (site : Site) (kept : Kept) (before : Disk) (outage : Outage)
    (kinds : List IndexedKind) (store : Store) : Prop where
  /-- The working directory stays the same. -/
  home_eq : store.home = site.home
  /-- The device stays the same. -/
  outage_eq : store.outage = outage
  /-- The disk is a tree. -/
  isTree : IsTree store.disk site.home
  /-- The snapshot is intact. -/
  isIntact : kept.IsIntact site store.disk
  /-- All snapshots are kept. -/
  keeps : site.Keeps before store.disk
  /-- The registries have been put back. -/
  restored : site.Restored kept.moment kinds before store.disk

/-- What is left of a restore that the device has stopped. -/
def Refused (site : Site) (before : Disk) (outage : Outage) (store : Store) : Prop :=
  IsTree store.disk site.home ∧ site.Keeps before store.disk ∧ ∃ n, outage.copy n = true

variable {outage : Outage} {store : Store}

/-- One more registry is put back. -/
theorem Restoring.next (h : Restoring site kept before outage kinds store) (hd : site.IsDisjoint)
    (hhad : site.Had kept.moment kind content)
    (hone : RestoredOne site kept kind content store.disk made after) (copies : Nat) :
    Restoring site kept before outage (kinds ++ [kind]) { store with disk := after, copies } := by
  have hopen := h.isIntact.isOpen kind content hhad
  have hkeeps := hone.keeps hd hopen.notDirectory
  refine ⟨h.home_eq, h.outage_eq, hone.isTree, ?_, h.keeps.trans hkeeps, ?_, ?_⟩
  · exact h.isIntact.keep hkeeps fun other bytes hother =>
      hone.isOpen h.isIntact.moment_isTree hhad hother (h.isIntact.isOpen other bytes hother)
  · intro other hmem bytes hother
    -- the last registry has just been put back, and the earlier ones are not touched by that
    by_cases heq : other = kind
    · subst heq
      rw [hhad.eq hother]
      exact hone.had
    · have hearlier := h.restored.registries other
        ((List.mem_append.mp hmem).resolve_right fun hlast => heq (List.mem_singleton.mp hlast)) bytes hother
      refine hearlier.mono (fun q => hone.directory hopen.notDirectory) ?_
      refine (hone.entryAt? fun hplace => heq (Site.place_injective hplace)).resolve_right fun hnew => ?_
      rw [hearlier.entryAt?] at hnew
      cases hnew.1
  · intro q hq
    have hkinds : ∀ other ∈ kinds, q ≠ site.place other :=
      fun other hmem => hq other (List.mem_append_left _ hmem)
    rcases hone.entryAt? (hq kind (by simp)) with heq | ⟨hnone, hdir, hway⟩
    · refine (h.restored.others q hkinds).imp (fun hsame => heq.trans hsame) ?_
      rintro ⟨hnone, hdir, other, hmem, hway⟩
      exact ⟨hnone, heq.trans hdir, other, List.mem_append_left _ hmem, hway⟩
    · refine .inr ⟨?_, hdir, kind, by simp, hway⟩
      rcases h.restored.others q hkinds with hsame | ⟨-, hthere, -⟩
      · rw [← hsame, hnone]
      · rw [hnone] at hthere
        cases hthere

/-- The copy of a registry that was saved is there. -/
theorem Restoring.isFile_copy (h : Restoring site kept before outage kinds store)
    (hhad : site.Had kept.moment kind content) :
    store.disk.isFile store.home (savedFile site kept kind).copy = .ok true := by
  obtain ⟨place, hloc, hfile⟩ := readFile_eq_ok.mp (h.isIntact.readFile_copy h.isTree hhad)
  rw [h.home_eq]
  exact isFile_eq_ok_true.mpr ⟨place, content, hloc, hfile⟩

/-- Copying one more registry back puts it back; only the device can stop it. -/
theorem spec_copyBack (hd : site.IsDisjoint) {start : Store} (hs : Restoring site kept before outage done start)
    (hhad : site.Had kept.moment kind content) :
    Spec (· = start) (copyFile (savedFile site kept kind).copy (savedFile site kept kind).path)
      (fun _ => Restoring site kept before outage (done ++ [kind])) fun _ => Refused site before outage := by
  obtain ⟨made, after, hone⟩ := hs.isIntact.restoredOne hs.isTree hhad
  have hmade : start.disk.makeDirectories start.home (savedFile site kept kind).path.parent = (.ok (), made) := by
    rw [hs.home_eq]
    exact hone.made_eq
  have hcopied := hone.copied_eq
  rw [← hs.home_eq] at hcopied
  refine (spec_copyFile _ _).weaken_ends (fun _ store h => ?_) fun failure store h => ?_
  · obtain ⟨disk, -, hcopy, rfl⟩ := h
    rw [hmade] at hcopy
    obtain rfl := Except.ok.inj (hcopied.symm.trans hcopy)
    exact hs.next hd hhad hone _
  · -- the directory could be made and the copy is there, so the device has refused
    rw [hmade] at h
    rcases h with ⟨-, fault, hfault, -⟩ | ⟨rfl, ⟨hrefused, -⟩ | ⟨fault, hfault, -⟩⟩
    · cases hfault
    · exact ⟨hone.made_isTree, hs.keeps.trans (Site.keeps_of_grows hone.adds.grows), _, hs.outage_eq ▸ hrefused⟩
    · cases hcopied.symm.trans hfault

/-- Restoring goes through the registries one by one; only the device can stop it. -/
theorem spec_restoreAll (hd : site.IsDisjoint) (done : List IndexedKind)
    (hkinds : ∀ kind ∈ kinds, ∃ content, site.Had kept.moment kind content) :
    Spec (Restoring site kept before outage done)
      (Snapshot.restoreAll (kinds.map (savedFile site kept)))
      (fun paths store => Restoring site kept before outage (done ++ kinds) store ∧
        paths = kinds.map site.registry)
      fun _ => Refused site before outage := by
  have hinj : Function.Injective (savedFile site kept) :=
    fun _ _ h => Site.registry_injective (congrArg SavedFile.path h)
  have hsaved : ∀ file ∈ kinds.map (savedFile site kept), ∃ kind content,
      file = savedFile site kept kind ∧ site.Had kept.moment kind content := by
    intro file hmem
    obtain ⟨kind, hkind, rfl⟩ := List.mem_map.mp hmem
    obtain ⟨content, hhad⟩ := hkinds kind hkind
    exact ⟨kind, content, rfl, hhad⟩
  refine (Snapshot.spec_restoreAll_of_next (I := fun files store => ∃ back, files = back.map (savedFile site kept) ∧
      Restoring site kept before outage back store) (done.map (savedFile site kept))
    (fun _ file store fault hmem hs hlook => ?_) (fun _ file store hmem hs hlook => ?_)
    fun _ file start hmem hs _ => ?_).weaken (fun _ hs => ⟨done, rfl, hs⟩) (fun paths store h => ?_) fun _ _ h => h
  · obtain ⟨kind, content, rfl, hhad⟩ := hsaved file hmem
    obtain ⟨back, -, hrestoring⟩ := hs
    cases (hrestoring.isFile_copy hhad).symm.trans hlook
  · obtain ⟨kind, content, rfl, hhad⟩ := hsaved file hmem
    obtain ⟨back, -, hrestoring⟩ := hs
    cases (hrestoring.isFile_copy hhad).symm.trans hlook
  · obtain ⟨kind, content, rfl, hhad⟩ := hsaved file hmem
    obtain ⟨back, rfl, hrestoring⟩ := hs
    refine Snapshot.Spec.explain ((spec_copyBack hd hrestoring hhad).weaken_ends (fun _ store h => ?_) fun _ _ h => h)
    exact ⟨back ++ [kind], by rw [List.map_append, List.map_singleton], h⟩
  · obtain ⟨⟨back, hback, hrestoring⟩, rfl⟩ := h
    rw [← List.map_append] at hback
    rw [List.map_injective_iff.mpr hinj hback, List.map_map]
    exact ⟨hrestoring, rfl⟩

/-- Restoring an intact snapshot puts back all registries that were saved; only the device can stop it. -/
theorem spec_restore (hd : site.IsDisjoint) {start : Store} (hhome : start.home = site.home)
    (ht : IsTree start.disk site.home) (h : kept.IsIntact site start.disk) :
    ∃ kinds : List IndexedKind, (∀ kind, kind ∈ kinds ↔ ∃ content, site.Had kept.moment kind content) ∧
      Spec (· = start) kept.snapshot.restore
        (fun paths store => Restoring site kept start.disk start.outage kinds store ∧
          paths = kept.snapshot.files.map SavedFile.path)
        fun _ => Refused site start.disk start.outage := by
  obtain ⟨kinds, hfiles, hkinds⟩ := h.files
  refine ⟨kinds, hkinds, ?_⟩
  -- the saved files are the copies of these registries, one for each
  rw [Snapshot.restore, hfiles]
  have hstart : Restoring site kept start.disk start.outage [] start :=
    ⟨hhome, rfl, ht, h, .refl _ _, fun _ hmem => (List.not_mem_nil hmem).elim, fun _ _ => .inl rfl⟩
  refine (spec_restoreAll hd [] fun kind hmem => (hkinds kind).mp hmem).weaken
    (fun _ hs => hs ▸ hstart) (fun paths _ hs => ⟨hs.1, ?_⟩) fun _ _ hs => hs
  rw [hs.2, List.map_map]
  rfl

end Kept

end ComponentKit
