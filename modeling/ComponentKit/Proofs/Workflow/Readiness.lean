import ComponentKit.Proofs.Project.Registries
import ComponentKit.Proofs.Workflow.Addition

/-!
# What a project that was found is ready for

`Project.detect` takes whatever stands where a registry belongs for the registry, while the stages that change a
project, `Snapshot.take`, `Project.apply` and `Project.updateIndex`, look for a regular file there: a file is saved
and found, and anything else is left out of the snapshot and counts as a file that is missing.
-/

namespace ComponentKit.Project

open Disk Snapshot Step

variable {disk : Disk} {home : Location} {session later after : Session} {settings : Settings}
  {project : Project} {path : Path} {kind : IndexedKind} {snapshot : Snapshot}

/-! ## Registries as the stages find them -/

/-- What stands at a path is a file or it is not. -/
theorem isFile_of_pathExists (h : disk.pathExists home path = .ok true) :
    disk.isFile home path = .ok true ∨ disk.isFile home path = .ok false := by
  obtain ⟨place, entry, hlocated, hentry⟩ := pathExists_eq_ok_true.mp h
  have hlook : disk.look home path = .ok (some entry) := look_eq_ok_some.mpr ⟨place, hlocated, hentry⟩
  rw [Disk.isFile, hlook]
  cases entry with
  | file content => exact .inl rfl
  | directory => exact .inr rfl

/-- How the stages of `add` find the registries of a project. -/
structure Offers (session : Session) (settings : Settings) (project : Project) : Prop where
  /-- In the place of each registry stands something, be it a file or not. -/
  registries : ∀ kind : IndexedKind,
    session.disk.pathExists session.home (registryPath project.sourceRoot kind) = .ok true ∧
      (session.disk.isFile session.home (registryPath project.sourceRoot kind) = .ok true ∨
        session.disk.isFile session.home (registryPath project.sourceRoot kind) = .ok false)
  /-- An update finds no registry exactly if what stands in the place of the one of its kind is no file. -/
  missing_registry : ∀ (update : Registry.Update) (kind : IndexedKind) (path : Path),
    ((project.apply settings update).run session).1 = .error (.registryMissing kind path) ↔
      session.disk.isFile session.home (registryPath project.sourceRoot update.kind) = .ok false ∧
        kind = update.kind ∧ path = registryPath project.sourceRoot update.kind
  /-- An export finds no index exactly if what stands in its place is no file. -/
  missing_index : ∀ (kind : IndexedKind) (fragment : Text) (path : Path),
    ((project.updateIndex kind.toKind fragment).run session).1 = .error (.indexMissing path) ↔ fragment ≠ [] ∧
      session.disk.isFile session.home (registryPath project.sourceRoot kind) = .ok false ∧
        path = registryPath project.sourceRoot kind
  /-- A snapshot covers exactly the registries that are files. -/
  saved : ∀ (snapshot : Snapshot) (after : Session),
    (take settings project).run session = (.ok snapshot, after) → ∀ kind : IndexedKind,
      (∃ file ∈ snapshot.files, file.path = registryPath project.sourceRoot kind) ↔
        session.disk.isFile session.home (registryPath project.sourceRoot kind) = .ok true
  /-- A snapshot is taken if there is room for it and no copy is refused. -/
  savable : HasRoom session.store (settings.backupRoot project.path) → (∀ n, session.outage.copy n = false) →
    ∃ snapshot after, (take settings project).run session = (.ok snapshot, after)

/-! ## Snapshots of a project -/

/-- A snapshot of a project that was found covers exactly the registries that are files. -/
theorem mem_files_iff {start store : Store} {place : Location} {root backupRoot : Path}
    (hg : Ground start root place) (h : Taken start root backupRoot snapshot store) (kind : IndexedKind) :
    (∃ file ∈ snapshot.files, file.path = registryPath root kind) ↔
      start.disk.isFile start.home (registryPath root kind) = .ok true := by
  obtain ⟨disk, hmade, hsaving⟩ := h
  constructor
  · rintro ⟨file, hmem, hpath⟩
    obtain ⟨other, content, rfl, -, hread, -⟩ := hsaving.copies file hmem
    dsimp only at hpath hread
    rw [hpath] at hread
    -- the registry was read when the directory of the snapshot was there already
    have hfile := (hg.readFile_registry_iff hmade.grows hmade.isTree).mp hread
    exact (hg.isFile_registry (fun _ h => h) hg.isTree kind).mpr ⟨content, hfile⟩
  · intro hfile
    obtain ⟨content, hread⟩ := exists_readFile hfile
    exact ⟨_, hsaving.complete kind List.not_mem_nil content (hmade.grows.readFile hread), rfl⟩

variable (ht : IsTree session.disk session.home) (hdetected : Detected session.store settings path project)

include ht hdetected

theorem spec_take_detected :
    Spec (· = session.store) (take settings project)
      (Taken session.store project.sourceRoot (settings.backupRoot project.path))
      fun _ _ => HasRoom session.store (settings.backupRoot project.path) →
        ∃ n, session.outage.copy n = true := by
  obtain ⟨place, hg⟩ := hdetected.ground ht
  rw [← hdetected.sourceRoot_eq] at hg
  refine (spec_take ht fun directory disk hmade =>
    isSettled_of_ground (hg.grow hmade.grows hmade.isTree) _).weaken_error fun failure store h hroom => ?_
  obtain ⟨⟨⟨fresh, hgrows⟩, -, htree⟩, -, hcause⟩ := h
  exact (hcause hroom).resolve_right (not_isHidden hg hgrows htree)

/-- The stages find of a project what a look for it has found. -/
theorem Detected.offers : Offers session settings project := by
  have hregistries := hdetected.registries
  rw [← hdetected.sourceRoot_eq] at hregistries
  constructor
  case registries => exact fun kind => ⟨hregistries kind, isFile_of_pathExists (hregistries kind)⟩
  case missing_registry =>
    intro update kind path
    rw [run_apply_eq_missing]
  case missing_index =>
    intro kind fragment path
    have hindex : kind.toKind.conventions.hasIndex = true := by cases kind <;> rfl
    rw [run_updateIndex_eq_missing, and_iff_right hindex]
    rfl
  case saved =>
    intro snapshot after hrun kind
    obtain ⟨place, hg⟩ := hdetected.ground ht
    rw [← hdetected.sourceRoot_eq] at hg
    exact mem_files_iff hg ((spec_take_detected ht hdetected).ok rfl hrun) kind
  case savable =>
    intro hroom haccepts
    cases hrun : (take settings project).run session with
    | mk result after =>
      cases result with
      | ok snapshot => exact ⟨snapshot, after, rfl⟩
      | error failure =>
        obtain ⟨n, hrefused⟩ := (spec_take_detected ht hdetected).error rfl hrun hroom
        rw [haccepts n] at hrefused
        cases hrefused

omit hdetected

/-- Whatever `detect` takes for a project offers the stages its registries, as long as the disk stays the same. -/
theorem offers_of_detect (hrun : (detect settings path).run session = (.ok project, after))
    (hvalid : project.isValid = true) (hdisk : later.disk = session.disk) (hhome : later.home = session.home) :
    Offers later settings project := by
  obtain ⟨hdetected, -⟩ := (spec_detect.ok rfl hrun).2 hvalid
  have htree : IsTree later.disk later.home := hdisk ▸ hhome ▸ ht
  have hlater : Detected later.store settings path project := by
    refine ⟨hdetected.path_eq, hdetected.sourceRoot_eq, ?_, fun kind => ?_⟩
    · show later.disk.isDirectory later.home _ = _
      rw [hdisk, hhome]
      exact hdetected.isDirectory
    · show later.disk.pathExists later.home _ = _
      rw [hdisk, hhome]
      exact hdetected.registries kind
  exact hlater.offers htree

omit ht

theorem exists_run_detect (settings : Settings) (path : Path) (start : Session)
    (h : ((detect settings path).run start).1.map (·.isValid) = .ok true) : ∃ project after,
      (detect settings path).run start = (.ok project, after) ∧ project.isValid = true ∧
        after.store = start.store := by
  cases hrun : (detect settings path).run start with
  | mk result after =>
    rw [hrun] at h
    cases result with
    | error failure => cases h
    | ok project => exact ⟨project, after, rfl, Except.ok.inj h, (spec_detect.ok rfl hrun).1⟩

theorem offers_plainProject : IsTree Workflow.plainSession.disk Workflow.plainSession.home ∧
    ∃ project after, (detect Settings.default (.ofText ".")).run Workflow.plainSession = (.ok project, after) ∧
      project.isValid = true ∧ Offers after Settings.default project := by
  obtain ⟨project, after, hrun, hvalid, hstore⟩ := exists_run_detect Settings.default (.ofText ".")
    Workflow.plainSession (by decide +kernel)
  exact ⟨Workflow.isTree_plainProject, project, after, hrun, hvalid,
    offers_of_detect Workflow.isTree_plainProject hrun hvalid (congrArg Store.disk hstore)
      (congrArg Store.home hstore)⟩

/-! ## A directory in the place of a registry -/

/-- A session in the same project with a directory in the place of the registry of tools. -/
def folderSession : Session :=
  { Workflow.plainSession with disk := Workflow.plainProject.put ["p", "src", "tools", "index.ts"] .directory }

/-- It is taken for a project, but no snapshot covers that registry, and no update or export finds it. -/
theorem folder_not_ready : ∃ project after,
    (detect Settings.default (.ofText ".")).run folderSession = (.ok project, after) ∧
      project.isValid = true ∧ (∀ n, after.outage.copy n = false) ∧
      (∃ snapshot last, (take Settings.default project).run after = (.ok snapshot, last) ∧
        ¬ ∃ file ∈ snapshot.files, file.path = registryPath project.sourceRoot .tool) ∧
      (∀ update : Registry.Update, update.kind = .tool →
        ((project.apply Settings.default update).run after).1
          = .error (.registryMissing .tool (registryPath project.sourceRoot .tool))) ∧
      ∀ fragment, fragment ≠ [] → ((project.updateIndex .tool fragment).run after).1
        = .error (.indexMissing (registryPath project.sourceRoot .tool)) := by
  have htree : IsTree folderSession.disk folderSession.home :=
    isTree_of_entries (by decide +kernel) (by decide +kernel)
  obtain ⟨project, after, hrun, hvalid, hstore⟩ := exists_run_detect Settings.default (.ofText ".")
    folderSession (by decide +kernel)
  obtain ⟨hdetected, -⟩ := (spec_detect.ok rfl hrun).2 hvalid
  rw [← hstore] at hdetected
  have htree' : IsTree after.disk after.home :=
    show IsTree after.store.disk after.store.home from hstore ▸ htree
  have hoffers := hdetected.offers htree'
  have hnoFile : after.disk.isFile after.home (registryPath project.sourceRoot .tool) = .ok false := by
    show after.store.disk.isFile after.store.home _ = _
    rw [hstore, hdetected.sourceRoot_eq]
    decide +kernel
  have hroom : HasRoom after.store (Settings.default.backupRoot project.path) := by
    rw [hstore, hdetected.path_eq]
    refine ⟨⟨.relative, [".mcp-backups", "2026-01-01T00-00-00-000Z"]⟩, by decide +kernel, ?_⟩
    rintro ⟨kind, hlong⟩
    cases kind <;> exact absurd hlong (by decide)
  have haccepts (n : Nat) : after.outage.copy n = false := by
    show after.store.outage.copy n = false
    rw [hstore]
    rfl
  obtain ⟨snapshot, last, htake⟩ := hoffers.savable hroom haccepts
  refine ⟨project, after, hrun, hvalid, haccepts, ⟨snapshot, last, htake, fun hsaved => ?_⟩,
    fun update hkind => ?_, fun fragment hfragment => ?_⟩
  · cases hnoFile.symm.trans ((hoffers.saved snapshot last htake .tool).mp hsaved)
  · exact (hoffers.missing_registry update .tool _).mpr ⟨hkind ▸ hnoFile, hkind.symm, by rw [hkind]⟩
  · exact (hoffers.missing_index .tool fragment _).mpr ⟨hfragment, hnoFile, rfl⟩

end ComponentKit.Project
