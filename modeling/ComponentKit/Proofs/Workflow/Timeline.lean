import ComponentKit.Proofs.Project.Restore
import ComponentKit.Proofs.Workflow.Outcome

/-!
# The life of snapshots

Snapshots are taken at any time, by a user or by a run that adds a component, while registries are rewritten,
removed and restored: a `Timeline` is any sequence of these. Whatever happens outside the directory of the
snapshots, no two snapshots share a directory, and each of them can be restored.
-/

namespace ComponentKit.Workflow

open Disk Project Snapshot Step

variable {site : Site} {settings : Settings} {templates : TemplateSource} {path : Path}
  {request : Request} {project : Project} {session : Session} {before after disk : Disk}
  {kept new : List Kept} {entry : Kept} {run : Run} {made : Plan} {store : Store}
  {written : Option Bytes}

/-! ## Steps -/

/-- Where the project in a directory and its snapshots stand, as a `Site`. -/
def siteOf (settings : Settings) (path : Path) (home : Location) : Site :=
  ⟨home, settings.sourceRoot path, settings.backupRoot path⟩

/-- The snapshot that a step takes, if it takes one, with the disk of that moment. -/
def keptBy {ε : Type} (step : Step ε Snapshot) (session : Session) : List Kept :=
  match step.run session with
  | (.ok snapshot, after) => [⟨snapshot, after.disk⟩]
  | (.error _, _) => []

/-- The stages of `add` up to its snapshot. -/
def upToSnapshot (settings : Settings) (templates : TemplateSource) (path : Path) (request : Request) :
    Step AddFailure Snapshot := do
  let made ← plan settings templates path request
  backUp settings made.project

/-- A change of the disk by others, which leaves alone what stands in the directory of the snapshots. -/
structure EditsOutside (site : Site) (before after : Disk) : Prop where
  /-- The disk is a tree. -/
  isTree : IsTree after site.home
  /-- What stands in the directory of the snapshots is the same. -/
  same : ∀ q, site.backups <+: q → after.entryAt? q = before.entryAt? q
  /-- If the way to this directory takes steps to a parent, which may pass through other directories, it can
  still be taken. -/
  reached : Path.parentStep ∈ site.backupRoot.segments →
    before.isDirectory site.home site.backupRoot = .ok true →
      after.isDirectory site.home site.backupRoot = .ok true

/-- What can happen to a project that has snapshots: it takes the disk from `before` to `after`, and may
take a new snapshot. -/
inductive Happens (site : Site) (kept : List Kept) : Disk → Disk → List Kept → Prop
  /-- Somebody takes a snapshot. -/
  | backup (settings : Settings) (project : Project) (session : Session)
    (hsite : ⟨session.home, project.sourceRoot, settings.backupRoot project.path⟩ = site) :
    Happens site kept session.disk ((take settings project).run session).2.disk
      (keptBy (take settings project) session)
  /-- A run adds a component, or fails to. -/
  | add (settings : Settings) (templates : TemplateSource) (path : Path) (request : Request)
    (session : Session) (hsite : siteOf settings path session.home = site) :
    Happens site kept session.disk ((add settings templates path request).run session).2.disk
      (keptBy (upToSnapshot settings templates path request) session)
  /-- Somebody restores a snapshot. -/
  | restore (entry : Kept) (hentry : entry ∈ kept) (session : Session) (hhome : session.home = site.home) :
    Happens site kept session.disk (entry.snapshot.restore.run session).2.disk []
  /-- Somebody changes files outside the directory of the snapshots. -/
  | edit (before after : Disk) (hedit : EditsOutside site before after) : Happens site kept before after []

/-- The snapshots that were taken, the latest first, and the disk after a number of steps. No step puts a
directory in the place of a registry or a file on the way to one. -/
inductive Timeline (site : Site) : List Kept → Disk → Prop
  /-- At first there is no snapshot. -/
  | start (disk : Disk) (ht : IsTree disk site.home) : Timeline site [] disk
  /-- One more step. -/
  | next {kept new : List Kept} {before after : Disk} (h : Timeline site kept before)
    (hstep : Happens site kept before after new) (hopen : site.KeepsOpen before after) :
    Timeline site (new ++ kept) after

/-! ## What one step preserves -/

/-- The effect of a step on snapshots: those that are there are kept, and one that is new stands where
nothing stood. -/
structure Effect (site : Site) (before after : Disk) (new : List Kept) : Prop where
  /-- The disk is a tree. -/
  isTree : IsTree after site.home
  /-- The snapshots are kept. -/
  keeps : site.Keeps before after
  /-- There is at most one new snapshot. -/
  single : new.length ≤ 1
  /-- It is intact. -/
  isIntact : ∀ entry ∈ new, entry.IsIntact site after
  /-- Nothing stood where its directory is. -/
  fresh : ∀ entry ∈ new, before.entryAt? (entry.place site) = none
  /-- It is about all registries that were files when the step began. -/
  covers : ∀ entry ∈ new, ∀ kind content, site.Had before kind content →
    site.Had entry.moment kind content

/-- A step that takes no snapshot. -/
theorem effect_nil (ht : IsTree after site.home) (hkeeps : site.Keeps before after) :
    Effect site before after [] :=
  have hnone : ∀ {P : Kept → Prop}, ∀ entry ∈ ([] : List Kept), P entry :=
    fun _ hmem => (List.not_mem_nil hmem).elim
  ⟨ht, hkeeps, Nat.zero_le 1, hnone, hnone, hnone⟩

/-- A step that takes one. -/
theorem effect_singleton (ht : IsTree after site.home) (hkeeps : site.Keeps before after)
    (hintact : entry.IsIntact site after) (hfresh : before.entryAt? (entry.place site) = none)
    {allowed : Location → Prop} (hgrows : Grows allowed before entry.moment) :
    Effect site before after [entry] := by
  refine ⟨ht, hkeeps, Nat.le_refl 1, fun other hmem => ?_, fun other hmem => ?_, fun other hmem => ?_⟩
  · rwa [List.mem_singleton.mp hmem]
  · rwa [List.mem_singleton.mp hmem]
  · rw [List.mem_singleton.mp hmem]
    exact fun kind content hhad => hgrows.readFile hhad

theorem keeps_of_backupOnly {start : Store} {backupRoot : Path} (h : BackupOnly start backupRoot store) :
    site.Keeps start.disk store.disk := by
  obtain ⟨fresh, hgrows⟩ := h
  exact Site.keeps_of_grows hgrows

/-- A snapshot that was taken only added places. -/
theorem grows_of_taken {start : Store} {root backupRoot : Path} {snapshot : Snapshot}
    (h : Taken start root backupRoot snapshot store) :
    Grows (fun _ => True) start.disk store.disk := by
  obtain ⟨base, hmade, hsaving⟩ := h
  exact (grows_of_madeFresh hmade hsaving.grownIn).mono fun _ _ => trivial

/-- Taking a snapshot. -/
theorem effect_take (hd : site.IsDisjoint) (ht : IsTree session.disk session.home)
    (hsite : ⟨session.home, project.sourceRoot, settings.backupRoot project.path⟩ = site) :
    Effect site session.disk ((take settings project).run session).2.disk
      (keptBy (take settings project) session) := by
  subst hsite
  have hspec : Spec (· = session.store) (take settings project) _ _ :=
    spec_take ht fun directory disk hmade => isSettled_of_isDisjoint hd rfl (by
      obtain ⟨name, -, hname⟩ := hmade.child
      exact ⟨[name], hname.symm⟩)
  rw [keptBy]
  -- without a snapshot there is nothing to keep, and whatever was copied is only new
  cases hr : (take settings project).run session with
  | mk result after =>
    cases result with
    | error failure =>
      obtain ⟨⟨honly, -, htree⟩, -⟩ := hspec.error rfl hr
      exact effect_nil htree (keeps_of_backupOnly honly)
    | ok snapshot =>
      have htaken := hspec.ok rfl hr
      have hintact := Taken.isIntact hd rfl htaken
      have hfresh : session.disk.entryAt? (snapshot.directory.resolve session.home) = none := by
        obtain ⟨base, hmade, -⟩ := htaken
        exact hmade.fresh
      have hgrows := grows_of_taken htaken
      exact effect_singleton hintact.moment_isTree (Site.keeps_of_grows hgrows) hintact hfresh hgrows

/-! ### Runs that add a component -/

/-- A run keeps the snapshots that are there. -/
theorem Run.Working.keeps (h : run.Working written store) (hg : run.IsGrounded) (hd : site.IsDisjoint)
    (hhome : run.start.home = site.home) (hroot : run.root = site.sourceRoot) :
    site.Keeps run.start.disk store.disk := by
  have hlocated := locate_eq_resolve hg.ground.located
  rw [hroot, hhome] at hlocated
  refine Site.keeps_of_directories (fun q => h.edits.directory) fun q bytes hq hfile => ?_
  rcases h.edits q with heq | ⟨hnone, -⟩ | ⟨⟨kind, -, rfl⟩, -⟩
  · rw [heq, hfile]
  · rw [hfile] at hnone
    cases hnone
  · refine absurd hq ?_
    rw [hlocated, ← Site.place_eq]
    exact hd.not_backups_place kind

/-- The snapshot of a run stays intact to its end. -/
theorem Run.Working.isIntact {early : Store} (h : run.Working written store) (hg : run.IsGrounded)
    (hhome : run.start.home = site.home) (hroot : run.root = site.sourceRoot)
    (hgrows : Grows (fun _ => True) run.start.disk early.disk)
    (hintact : Kept.IsIntact site ⟨run.snapshot, early.disk⟩ early.disk) :
    Kept.IsIntact site ⟨run.snapshot, early.disk⟩ store.disk := by
  have hlocated := locate_eq_resolve hg.ground.located
  rw [hroot, hhome] at hlocated
  have hplace : ∀ kind, site.place kind = registryPlace run.place kind := by
    intro kind
    rw [Site.place_eq, hlocated]
  have hregistry : ∀ kind, registryPath run.root kind = site.registry kind := by
    intro kind
    rw [hroot]
    rfl
  have htree := h.isTree
  rw [h.home_eq, hhome] at htree
  -- at the start the registry was the same file
  have hstart : ∀ {kind content}, site.Had early.disk kind content →
      run.start.disk.entryAt? (registryPlace run.place kind) = some (.file content) := by
    intro kind content hhad
    have hearly := hhad.entryAt?
    rw [hplace, hg.ground.entryAt?_registry hgrows kind] at hearly
    exact hearly
  refine ⟨hintact.moment_isTree, hintact.child, ?_, hintact.files, fun kind content hhad => ?_,
    hintact.fits, fun kind content hhad => ?_⟩
  · refine isDirectory_eq_ok_true.mpr ⟨run.fresh, ?_, h.isDirectory⟩
    rw [← hhome, ← h.home_eq]
    exact h.located
  -- each saved file is the copy of a registry that was a file, as it was then
  · obtain ⟨kinds, hfiles, hkinds⟩ := hintact.files
    have hmem : Kept.savedFile site ⟨run.snapshot, early.disk⟩ kind ∈ run.snapshot.files := by
      rw [hfiles]
      exact List.mem_map_of_mem ((hkinds kind).mpr ⟨content, hhad⟩)
    obtain ⟨other, hcopy⟩ := h.copies _ hmem
    obtain rfl : kind = other := Site.registry_injective (hcopy.path_eq.trans (hregistry other))
    obtain ⟨bytes, hbytes, hthere⟩ := hcopy.content
    have hfresh := locate_eq_resolve h.located
    rw [h.home_eq, hhome] at hfresh
    rw [hstart hhad] at hbytes
    obtain rfl := Entry.file.inj (Option.some.inj hbytes)
    rw [hfresh] at hthere
    exact hthere
  · obtain ⟨now, hnow⟩ := h.registry_file (hstart hhad)
    have hloc := h.locate_registry hg hnow
    rw [h.home_eq, hhome, hregistry] at hloc
    have hhas : site.Had store.disk kind now := readFile_eq_ok.mpr ⟨_, hloc, hnow⟩
    exact hhas.isOpen htree

/-- However the stages behind the snapshot end, they end in the state of the run. -/
theorem exists_working_finish {start : Store} (hready : IsReady start settings path request made)
    (hrun : IsRunOf start settings path request made run) {taken : Session}
    (h : run.Working none taken.store) : ∃ written,
      run.Working written ((finish settings request made run.snapshot).run taken).2.store := by
  have hfinish := spec_finish hready hrun taken h
  cases hr : (finish settings request made run.snapshot).run taken with
  | mk result after =>
    rw [hr] at hfinish
    cases result with
    | ok added => exact ⟨_, hfinish.2⟩
    | error failure =>
      obtain ⟨written, hworking, -⟩ := hfinish
      exact ⟨written, hworking⟩

/-- The stages behind the snapshot have no other effect than the snapshot. -/
theorem effect_finish {start : Store} (hd : (siteOf settings path start.home).IsDisjoint)
    (hready : IsReady start settings path request made)
    (hrun : IsRunOf start settings path request made run) {taken : Session}
    (htaken : Taken start (settings.sourceRoot path) (settings.backupRoot path) run.snapshot taken.store)
    (hworking : run.Working none taken.store) :
    Effect (siteOf settings path start.home) start.disk
      ((finish settings request made run.snapshot).run taken).2.disk [⟨run.snapshot, taken.disk⟩] := by
  have hg := hrun.isGrounded
  have hstart := hrun.start_eq
  have hhome : run.start.home = start.home := congrArg Store.home hstart
  obtain ⟨written, hend⟩ := exists_working_finish hready hrun hworking
  have htree := hend.isTree
  rw [hend.home_eq, hhome] at htree
  -- however the stages end, the state of the run is one in which the snapshot stands
  have hkeeps := hend.keeps hg hd hhome hrun.root_eq
  have hintact := Taken.isIntact hd rfl htaken
  have hgrows := grows_of_taken htaken
  have hgrowsRun : Grows (fun _ => True) run.start.disk taken.store.disk := by
    rw [hstart]
    exact hgrows
  obtain ⟨base, hmade, -⟩ := htaken
  rw [hstart] at hkeeps
  exact effect_singleton htree hkeeps (hend.isIntact hg hhome hrun.root_eq hgrowsRun hintact) hmade.fresh
    hgrows

/-- Adding a component, or failing to. -/
theorem effect_add (hd : site.IsDisjoint) (ht : IsTree session.disk session.home)
    (hsite : siteOf settings path session.home = site) :
    Effect site session.disk ((add settings templates path request).run session).2.disk
      (keptBy (upToSnapshot settings templates path request) session) := by
  subst hsite
  rw [keptBy, upToSnapshot, add_eq_bind, run_bind, run_bind]
  -- a run that ends before its snapshot keeps none
  cases hplan : (plan settings templates path request).run session with
  | mk result planned =>
    cases result with
    | error failure =>
      obtain ⟨hstore, -⟩ := spec_plan.error rfl hplan
      have hsame : planned.disk = session.disk := congrArg Store.disk hstore
      dsimp only
      rw [hsame]
      exact effect_nil ht (.refl _ _)
    | ok made =>
      obtain ⟨hstore, hready⟩ := spec_plan.ok rfl hplan
      have hbackUp : Spec (· = session.store) (backUp settings made.project) _ _ :=
        spec_backUp ht hready
      dsimp only
      rw [carryOut_eq_bind, run_bind]
      cases htake : (backUp settings made.project).run planned with
      | mk result taken =>
        cases result with
        | error failure =>
          obtain ⟨⟨honly, htree⟩, -⟩ := hbackUp.error hstore htake
          exact effect_nil htree (keeps_of_backupOnly honly)
        | ok snapshot =>
          obtain ⟨htaken, run, hrun, rfl, hworking⟩ := hbackUp.ok hstore htake
          exact effect_finish hd hready hrun htaken hworking

/-! ### Restores and edits -/

/-- Restoring a snapshot. -/
theorem effect_restore (hd : site.IsDisjoint) (ht : IsTree session.disk site.home)
    (hhome : session.home = site.home) (hintact : entry.IsIntact site session.disk) :
    Effect site session.disk (entry.snapshot.restore.run session).2.disk [] := by
  have hstart : session.store.home = site.home := hhome
  obtain ⟨kinds, -, hspec⟩ := Kept.spec_restore hd hstart ht hintact
  cases hr : entry.snapshot.restore.run session with
  | mk result after =>
    cases result with
    | ok paths =>
      obtain ⟨hrestoring, -⟩ := hspec.ok rfl hr
      exact effect_nil hrestoring.isTree hrestoring.keeps
    | error failure =>
      obtain ⟨htree, hkeeps, -⟩ := hspec.error rfl hr
      exact effect_nil htree hkeeps

/-- Changes outside the directory of the snapshots. -/
theorem effect_edit (h : EditsOutside site before after) : Effect site before after [] := by
  refine effect_nil h.isTree ⟨fun hthere => ?_, fun q entry hq he => (h.same q hq).trans he⟩
  by_cases hparent : Path.parentStep ∈ site.backupRoot.segments
  · exact h.reached hparent hthere
  · obtain ⟨place, hloc, hdir⟩ := isDirectory_eq_ok_true.mp hthere
    rw [locate_eq_resolve hloc] at hdir
    exact isDirectory_of_entryAt? h.isTree (isTakeable_of_locate hloc) hparent
      ((h.same _ List.prefix_rfl).trans hdir)

/-! ## What a whole life preserves -/

/-- What is known of snapshots at any time: each `IsIntact`, and no two share a directory. -/
structure AreIntact (site : Site) (kept : List Kept) (disk : Disk) : Prop where
  /-- The disk is a tree. -/
  isTree : IsTree disk site.home
  /-- All snapshots are intact. -/
  isIntact : ∀ entry ∈ kept, entry.IsIntact site disk
  /-- No two of them share a directory. -/
  distinct : kept.Pairwise fun first second => first.snapshot.directory ≠ second.snapshot.directory

/-- A step has its effect. -/
theorem Happens.effect (h : Happens site kept before after new) (hd : site.IsDisjoint)
    (hkept : AreIntact site kept before) : Effect site before after new := by
  have ht := hkept.isTree
  cases h with
  | backup settings project session hsite =>
    refine effect_take hd ?_ hsite
    rw [← hsite] at ht
    exact ht
  | add settings templates path request session hsite =>
    refine effect_add hd ?_ hsite
    rw [← hsite] at ht
    exact ht
  | restore entry hentry session hhome => exact effect_restore hd ht hhome (hkept.isIntact entry hentry)
  | edit before after hedit => exact effect_edit hedit

/-- One step keeps all snapshots intact. -/
theorem AreIntact.step (h : AreIntact site kept before) (heffect : Effect site before after new)
    (hopen : site.KeepsOpen before after) : AreIntact site (new ++ kept) after := by
  refine ⟨heffect.isTree, fun entry hmem => ?_, List.pairwise_append.mpr ⟨?_, h.distinct, ?_⟩⟩
  · rcases List.mem_append.mp hmem with hnew | hold
    · exact heffect.isIntact entry hnew
    · have hentry := h.isIntact entry hold
      exact hentry.keep heffect.keeps fun kind content hhad =>
        hopen.isOpen (hentry.isOpen kind content hhad)
  -- at most one snapshot is new
  · cases new with
    | nil => exact List.Pairwise.nil
    | cons entry rest =>
      have hnone : rest = [] := List.eq_nil_of_length_eq_zero (by
        have hsingle := heffect.single
        rw [List.length_cons] at hsingle
        omega)
      rw [hnone]
      exact List.pairwise_singleton _ _
  · -- a new directory stands where nothing stood, an earlier one was there
    intro first hfirst second hsecond heq
    have hnone := heffect.fresh first hfirst
    have hthere := (h.isIntact second hsecond).entryAt?_place
    rw [Kept.place, ← heq] at hthere
    rw [Kept.place, hthere] at hnone
    cases hnone

/-- At any time all snapshots are intact. -/
theorem Timeline.areIntact (h : Timeline site kept disk) (hd : site.IsDisjoint) :
    AreIntact site kept disk := by
  induction h with
  | start disk ht =>
    exact ⟨ht, fun _ hmem => (List.not_mem_nil hmem).elim, List.Pairwise.nil⟩
  | next h hstep hopen ih => exact ih.step (hstep.effect hd ih) hopen

/-! ## Restoring at any time -/

/-- Whether a session works on a disk of a site, on a device that refuses no copy. -/
structure WorksOn (site : Site) (disk : Disk) (session : Session) : Prop where
  /-- The session has the disk. -/
  disk_eq : session.disk = disk
  /-- It works at the site. -/
  home_eq : session.home = site.home
  /-- Its device refuses no copy. -/
  copies : ∀ n, session.outage.copy n = false

/-- Restoring an intact snapshot ends in order. -/
theorem restore_of_isIntact (hd : site.IsDisjoint) (ht : IsTree disk site.home)
    (hintact : entry.IsIntact site disk) (hworks : WorksOn site disk session) :
    ∃ after, entry.snapshot.restore.run session
        = (.ok (entry.snapshot.files.map SavedFile.path), after) ∧
      IsTree after.disk site.home ∧ entry.IsIntact site after.disk ∧
      (∀ kind content, site.Had entry.moment kind content → site.Had after.disk kind content) ∧
      ∀ q, (∀ kind content, site.Had entry.moment kind content → q ≠ site.place kind) →
        after.disk.entryAt? q = disk.entryAt? q ∨
          (disk.entryAt? q = none ∧ after.disk.entryAt? q = some .directory ∧
            ∃ kind content, site.Had entry.moment kind content ∧
              q ∈ waypoints site.home (site.registry kind).parent) := by
  obtain rfl := hworks.disk_eq
  have hstart : session.store.home = site.home := hworks.home_eq
  obtain ⟨kinds, hkinds, hspec⟩ := Kept.spec_restore hd hstart ht hintact
  cases hr : entry.snapshot.restore.run session with
  | mk result after =>
    cases result with
    | error failure =>
      -- only the device could have refused, and it accepts all copies
      obtain ⟨-, -, n, hrefused⟩ := hspec.error rfl hr
      rw [show session.store.outage.copy n = false from hworks.copies n] at hrefused
      cases hrefused
    | ok paths =>
      obtain ⟨hrestoring, rfl⟩ := hspec.ok rfl hr
      refine ⟨after, rfl, hrestoring.isTree, hrestoring.isIntact, fun kind content hhad => ?_,
        fun q hq => ?_⟩
      · exact hrestoring.restored.registries kind ((hkinds kind).mpr ⟨content, hhad⟩) content hhad
      · refine (hrestoring.restored.others q fun kind hmem => ?_).imp_right ?_
        · obtain ⟨content, hhad⟩ := (hkinds kind).mp hmem
          exact hq kind content hhad
        · rintro ⟨hnone, hdir, kind, hmem, hway⟩
          obtain ⟨content, hhad⟩ := (hkinds kind).mp hmem
          exact ⟨hnone, hdir, kind, content, hhad, hway⟩

/-- At any time of a `Timeline` no two snapshots share a directory, and each can be restored: this ends in order,
gives every registry that was a file at the time of the snapshot its bytes of then, and changes nothing else, apart
from directories that are missing on the way to these registries. A second restore changes nothing. -/
theorem Timeline.restorable (hd : site.IsDisjoint) (h : Timeline site kept disk) :
    (kept.Pairwise fun first second => first.snapshot.directory ≠ second.snapshot.directory) ∧
    ∀ entry ∈ kept, ∀ session, WorksOn site disk session → ∃ paths after,
      entry.snapshot.restore.run session = (.ok paths, after) ∧
      (∀ kind content, site.Had entry.moment kind content → site.Had after.disk kind content) ∧
      (∀ q, (∀ kind content, site.Had entry.moment kind content → q ≠ site.place kind) →
        after.disk.entryAt? q = disk.entryAt? q ∨
          (disk.entryAt? q = none ∧ after.disk.entryAt? q = some .directory ∧
            ∃ kind content, site.Had entry.moment kind content ∧
              q ∈ waypoints site.home (site.registry kind).parent)) ∧
      ∀ again, WorksOn site after.disk again → ∃ last,
        entry.snapshot.restore.run again = (.ok paths, last) ∧
        ∀ q, last.disk.entryAt? q = after.disk.entryAt? q := by
  have hkept := h.areIntact hd
  refine ⟨hkept.distinct, fun entry hentry session hworks => ?_⟩
  obtain ⟨after, hrun, htree, hintact, hregistries, hothers⟩ :=
    restore_of_isIntact hd hkept.isTree (hkept.isIntact entry hentry) hworks
  refine ⟨_, after, hrun, hregistries, hothers, fun again hagain => ?_⟩
  -- the second restore starts where the first one has ended, with the same snapshot intact
  obtain ⟨last, hrun, -, -, hlast, hrest⟩ := restore_of_isIntact hd htree hintact hagain
  refine ⟨last, hrun, fun q => ?_⟩
  by_cases hq : ∃ kind content, site.Had entry.moment kind content ∧ q = site.place kind
  · obtain ⟨kind, content, hhad, rfl⟩ := hq
    rw [(hlast kind content hhad).entryAt?, (hregistries kind content hhad).entryAt?]
  · refine (hrest q fun kind content hhad heq => hq ⟨kind, content, hhad, heq⟩).resolve_right ?_
    -- the first restore has made all directories on the way
    rintro ⟨hnone, -, kind, content, hhad, hway⟩
    rw [(hregistries kind content hhad).parents htree hway] at hnone
    cases hnone

/-! ### In the small project -/

/-- Something outside the directory of the snapshots may be removed. -/
theorem editsOutside_remove {place : Location} (ht : IsTree disk site.home)
    (hhome : ¬ place <+: site.home) (hout : ¬ place <+: site.backups) (hin : ¬ site.backups <+: place)
    (hparent : Path.parentStep ∉ site.backupRoot.segments) :
    EditsOutside site disk (disk.remove place) := by
  have hne : place ≠ [] := by
    rintro rfl
    exact hhome List.nil_prefix
  refine ⟨ht.remove hhome, fun q hq => ?_, fun h => absurd h hparent⟩
  rw [entryAt?_remove disk hne, if_neg fun hplace => ?_]
  rcases List.prefix_or_prefix_of_prefix hplace hq with h | h
  · exact hout h
  · exact hin h

/-- Removing something puts nothing in the way of a registry. -/
theorem keepsOpen_remove {place : Location} (hne : place ≠ []) : site.KeepsOpen disk (disk.remove place) := by
  have hthere : ∀ {q entry}, (disk.remove place).entryAt? q = some entry → disk.entryAt? q = some entry := by
    intro q entry h
    rw [entryAt?_remove disk hne] at h
    split at h
    · cases h
    · exact h
  exact ⟨fun kind h => hthere h, fun kind q _ content h => ⟨content, hthere h⟩⟩

/-- Nothing is in the way of a registry where directories stand on the way and none in its place. -/
theorem keepsOpen_of_forall
    (h : ∀ kind ∈ IndexedKind.all, after.entryAt? (site.place kind) ≠ some .directory ∧
      ∀ q ∈ waypoints site.home (site.registry kind).parent, after.entryAt? q = some .directory) :
    site.KeepsOpen before after := by
  have hall : ∀ kind, kind ∈ IndexedKind.all := by
    intro kind
    cases kind <;> decide
  refine ⟨fun kind hdir => absurd hdir (h kind (hall kind)).1, fun kind q hq content hfile => ?_⟩
  rw [(h kind (hall kind)).2 q hq] at hfile
  cases hfile

/-- Where the small project and its snapshots stand. -/
def smallSite : Site :=
  siteOf smallSettings (.ofText ".") ["p"]

/-- Taking a snapshot of the `smallProject`. -/
def takeSmall : Step Failure Snapshot :=
  take smallSettings (Project.assumed smallSettings (.ofText "."))

/-- A session in it after other things have happened. -/
def laterSession (disk : Disk) : Session :=
  { smallSession with disk }

/-- Adding a tool to it, on a device that refuses the second write. -/
def addSmall : Step AddFailure Added :=
  add smallSettings .bundled (.ofText ".") weatherTool

/-- Its disk after a snapshot was taken. -/
def withSnapshot : Disk := (takeSmall.run (laterSession smallProject)).2.disk

/-- Its disk after another snapshot was taken at the same time. -/
def withTwoSnapshots : Disk := (takeSmall.run (laterSession withSnapshot)).2.disk

/-- Its disk after a run that took a third one, and failed. -/
def afterFailure : Disk := (addSmall.run (laterSession withTwoSnapshots)).2.disk

/-- Its disk after the directory with the registry of the tools was removed. -/
def withoutTools : Disk := afterFailure.remove ["p", "s", "tools"]

/-- The snapshots that were taken, the latest first. -/
def threeSnapshots : List Kept :=
  keptBy (upToSnapshot smallSettings .bundled (.ofText ".") weatherTool) (laterSession withTwoSnapshots)
    ++ (keptBy takeSmall (laterSession withSnapshot) ++ (keptBy takeSmall (laterSession smallProject) ++ []))

theorem happens_takeSmall (kept : List Kept) (disk : Disk) :
    Happens smallSite kept disk (takeSmall.run (laterSession disk)).2.disk
      (keptBy takeSmall (laterSession disk)) :=
  .backup smallSettings (Project.assumed smallSettings (.ofText ".")) (laterSession disk) rfl

theorem happens_addSmall (kept : List Kept) (disk : Disk) :
    Happens smallSite kept disk (addSmall.run (laterSession disk)).2.disk
      (keptBy (upToSnapshot smallSettings .bundled (.ofText ".") weatherTool) (laterSession disk)) :=
  .add smallSettings .bundled (.ofText ".") weatherTool (laterSession disk) rfl

theorem isDisjoint_smallSite : smallSite.IsDisjoint :=
  ⟨by decide +kernel, by decide +kernel⟩

theorem timeline_afterFailure : Timeline smallSite threeSnapshots afterFailure := by
  have h₀ : Timeline smallSite [] smallProject := .start _ isTree_smallProject
  have h₁ : Timeline smallSite _ withSnapshot :=
    h₀.next (happens_takeSmall [] smallProject) (keepsOpen_of_forall (by decide +kernel))
  have h₂ : Timeline smallSite _ withTwoSnapshots :=
    h₁.next (happens_takeSmall _ withSnapshot) (keepsOpen_of_forall (by decide +kernel))
  have hopen : smallSite.KeepsOpen withTwoSnapshots afterFailure :=
    keepsOpen_of_forall (by decide +kernel)
  exact h₂.next (happens_addSmall _ withTwoSnapshots) hopen

/-- Two snapshots are taken at the same time, and a run that fails takes a third one. The directory with the
registry of the tools is removed. Then restoring the first snapshot brings this registry back. -/
theorem restorable_smallProject :
    smallSite.IsDisjoint ∧ Timeline smallSite threeSnapshots withoutTools ∧ threeSnapshots.length = 3 ∧
      (threeSnapshots.Pairwise fun one other => one.snapshot.directory ≠ other.snapshot.directory) ∧
      ∃ first ∈ threeSnapshots, ∃ paths after,
        first.snapshot.restore.run (laterSession withoutTools) = (.ok paths, after) ∧
          smallSite.Had after.disk .tool [] := by
  have hd := isDisjoint_smallSite
  have ht : IsTree afterFailure ["p"] := (timeline_afterFailure.areIntact hd).isTree
  have hedit : EditsOutside smallSite afterFailure withoutTools :=
    editsOutside_remove ht (by decide +kernel) (by decide +kernel) (by decide +kernel) (by decide +kernel)
  have hlife : Timeline smallSite threeSnapshots withoutTools := by
    rw [← List.nil_append threeSnapshots]
    exact timeline_afterFailure.next (.edit afterFailure withoutTools hedit)
      (keepsOpen_remove (List.cons_ne_nil _ _))
  obtain ⟨hdistinct, hrestore⟩ := Timeline.restorable hd hlife
  have hone : (keptBy takeSmall (laterSession smallProject)).length = 1 := by decide +kernel
  obtain ⟨first, hfirst⟩ := List.length_eq_one_iff.mp hone
  have hmem : first ∈ threeSnapshots := by
    rw [threeSnapshots, hfirst]
    simp
  have hhad : smallSite.Had first.moment .tool [] := by
    have heffect := (happens_takeSmall [] smallProject).effect hd
      ⟨isTree_smallProject, fun _ h => (List.not_mem_nil h).elim, List.Pairwise.nil⟩
    exact heffect.covers first (by rw [hfirst]; exact List.mem_cons_self) .tool [] (by decide +kernel)
  obtain ⟨paths, after, hrun, hregistries, -⟩ :=
    hrestore first hmem (laterSession withoutTools) ⟨rfl, rfl, fun _ => rfl⟩
  exact ⟨hd, hlife, by decide +kernel, hdistinct, first, hmem, paths, after, hrun,
    hregistries .tool [] hhad⟩

end ComponentKit.Workflow
