import ComponentKit.Proofs.Workflow.Plan

/-!
# What a run leaves behind

However `add` ends, it keeps every file but the registry of the kind that is added, and every directory; what is
new is the component or belongs to one snapshot (`add_frame`). A run that stops in order has restored the
registries, unless there was none to restore or the device has refused one of their copies (`add_stopped`).
-/

namespace ComponentKit.Workflow

open Disk Project Snapshot Step

variable {start store : Store} {settings : Settings} {templates : TemplateSource} {path : Path}
  {request : Request} {made : Plan} {run : Run} {written : Option Bytes} {session after : Session}
  {place : Location}

/-! ## Places -/

/-- Where `add` may add something: the component with the directories it lies in, the root of the snapshots with the
directories it lies in, and everything in one fresh directory under this root. -/
def NewPlace (start : Store) (settings : Settings) (path : Path) (request : Request)
    (directory place : Location) : Prop :=
  (∃ name, resolveName settings request = .ok name ∧
    place ∈ waypoints start.home (componentPath (settings.sourceRoot path) request.kind name)) ∨
  BackupPlace start (settings.backupRoot path) directory place

/-- Where the registry stands that a request is about, if its kind has one. -/
def IsRequestedRegistry (start : Store) (settings : Settings) (path : Path) (request : Request)
    (place : Location) : Prop :=
  ∃ kind, IndexedKind.ofKind? request.kind = some kind ∧
    place = (registryPath (settings.sourceRoot path) kind).resolve start.home

/-- Where two names lead below a place that is located. -/
theorem resolve_names {disk : Disk} {home : Location} {root : Path} {directory file : Text}
    (h : disk.locate home root = .ok place) (hd : directory ≠ Path.parentStep)
    (hf : file ≠ Path.parentStep) :
    ((root.child directory).child file).resolve home = place ++ [directory] ++ [file] := by
  rw [Path.resolve_child, Path.resolve_child, ← locate_eq_resolve h, Path.step_of_ne hf, Path.step_of_ne hd]

theorem resolve_registryPath {root : Path} (hg : Ground start root place) (kind : IndexedKind) :
    (registryPath root kind).resolve start.home = registryPlace place kind := by
  rw [registryPath_eq]
  exact resolve_names hg.located (isPlainName_directory kind.toKind).ne_parentStep
    isPlainName_indexFileName.ne_parentStep

section IsRunOf

variable (hrun : IsRunOf start settings path request made run)

include hrun

theorem IsRunOf.ground : Ground start (settings.sourceRoot path) run.place := by
  have hg := hrun.isGrounded.ground
  rwa [hrun.start_eq, hrun.root_eq] at hg

/-- The component stands where its path leads. -/
theorem IsRunOf.resolve_target (hready : IsReady start settings path request made) :
    (componentPath (settings.sourceRoot path) request.kind made.name).resolve start.home
      = run.targetPlace := by
  have hg := hrun.isGrounded
  rw [← hrun.target_eq hready, ← hrun.start_eq]
  exact resolve_names hg.ground.located hg.directory_plain.ne_parentStep hg.file_ne

theorem IsRunOf.newPlace (hready : IsReady start settings path request made)
    (h : run.MayAdd place) : NewPlace start settings path request run.fresh place := by
  rcases h with hway | hbackup
  · rw [hrun.start_eq, hrun.target_eq hready] at hway
    exact .inl ⟨made.name, hready.name_eq, hway⟩
  · rw [hrun.start_eq, hrun.backupRoot_eq] at hbackup
    exact .inr hbackup

theorem IsRunOf.isRequestedRegistry (h : run.MayEdit place) :
    IsRequestedRegistry start settings path request place := by
  obtain ⟨kind, hkind, rfl⟩ := h
  exact ⟨kind, hrun.edited_eq ▸ hkind, (resolve_registryPath hrun.ground kind).symm⟩

/-- In the state of a run only what the request is about has changed. -/
theorem IsRunOf.edits (hready : IsReady start settings path request made)
    (h : run.Working written store) :
    Edits (NewPlace start settings path request run.fresh)
      (IsRequestedRegistry start settings path request) start.disk store.disk := by
  have hedits := h.edits
  rw [hrun.start_eq] at hedits
  exact fun q => (hedits q).imp_right fun hq => hq.imp
    (fun hnew => ⟨hnew.1, hrun.newPlace hready hnew.2⟩)
    fun hold => ⟨hrun.isRequestedRegistry hold.1, hold.2⟩

end IsRunOf

/-! ## The frame of a run -/

/-- Every end of a run edits no file but the registry that the request is about. -/
theorem spec_add (ht : IsTree start.disk start.home) :
    Spec (· = start) (add settings templates path request)
      (fun _ store => ∃ directory, Edits (NewPlace start settings path request directory)
        (IsRequestedRegistry start settings path request) start.disk store.disk)
      fun _ store => ∃ directory, Edits (NewPlace start settings path request directory)
        (IsRequestedRegistry start settings path request) start.disk store.disk := by
  -- a plan changes nothing, so that all edits are made where it is carried out
  rw [add_eq_bind]
  refine Spec.bind (spec_plan.weaken_error fun failure store h => ?_)
    fun made => Spec.of_forall fun store hs => ?_
  · rw [h.1]
    exact ⟨[], fun q => .inl rfl⟩
  · obtain ⟨rfl, hready⟩ := hs
    refine (spec_carryOut ht hready).weaken_ends (fun _ after h => ?_) fun failure after h => ?_
    · obtain ⟨run, hrun, hworking⟩ := h
      exact ⟨run.fresh, hrun.edits hready hworking⟩
    · rcases h with ⟨⟨fresh, hgrows⟩, -⟩ | ⟨run, written, hrun, hworking, -⟩
      · exact ⟨fresh, (hgrows.mono fun q hq => .inr hq).edits⟩
      · exact ⟨run.fresh, hrun.edits hready hworking⟩

/-- The file of a component is no index. -/
theorem fileName_ne_indexFileName {kind : Kind} {indexed : IndexedKind}
    (h : IndexedKind.ofKind? kind = some indexed) (name : Text) :
    Component.fileName kind name ≠ indexFileName := by
  intro heq
  have hsuffix : kind.conventions.fileSuffix ++ sourceExtension <:+ indexFileName := by
    rw [← heq, Component.fileName, List.append_assoc]
    exact List.suffix_append _ _
  cases kind <;> cases h <;> exact absurd hsuffix (by decide)

/-- `add` keeps every file but the registry that the request is about, which stays a file, and every directory. What
is new is the component or belongs to one snapshot, and a component that exists is never overwritten. This holds
however the run ends. -/
theorem add_frame (settings : Settings) (templates : TemplateSource) (path : Path) (request : Request)
    (session : Session) (ht : IsTree session.disk session.home) :
    let after := ((add settings templates path request).run session).2
    (∀ place content, session.disk.entryAt? place = some (.file content) →
      after.disk.entryAt? place = some (.file content) ∨
        (IsRequestedRegistry session.store settings path request place ∧
          ∃ content, after.disk.entryAt? place = some (.file content))) ∧
    (∀ place, session.disk.entryAt? place = some .directory →
      after.disk.entryAt? place = some .directory) ∧
    (∃ directory, ∀ place, session.disk.entryAt? place = none →
      after.disk.entryAt? place ≠ none →
        NewPlace session.store settings path request directory place) ∧
    (∀ name content, resolveName settings request = .ok name →
      session.disk.entryAt? ((componentPath (settings.sourceRoot path) request.kind name).resolve
        session.home) = some (.file content) →
      after.disk.entryAt? ((componentPath (settings.sourceRoot path) request.kind name).resolve
        session.home) = some (.file content)) := by
  intro after
  have hedits : ∃ directory, Edits (NewPlace session.store settings path request directory)
      (IsRequestedRegistry session.store settings path request) session.disk after.disk :=
    Spec.store (spec_add ht) rfl
  obtain ⟨directory, hedits⟩ := hedits
  have hfiles : ∀ place content, session.disk.entryAt? place = some (.file content) →
      after.disk.entryAt? place = some (.file content) ∨
        (IsRequestedRegistry session.store settings path request place ∧
          ∃ content, after.disk.entryAt? place = some (.file content)) := by
    intro place content hfile
    rcases hedits place with heq | ⟨hnone, -⟩ | ⟨hregistry, -, hnow⟩
    · exact .inl (by rw [heq, hfile])
    · rw [hfile] at hnone
      cases hnone
    · exact .inr ⟨hregistry, hnow⟩
  -- the rest is read off the edits: what was there stays, and what is new was allowed
  refine ⟨hfiles, fun place => hedits.directory, ⟨directory, fun place hnone hsome => ?_⟩,
    fun name content hname hfile => ?_⟩
  · rcases hedits place with heq | ⟨-, hnew⟩ | ⟨-, ⟨content, hfile⟩, -⟩
    · exact absurd (heq.trans hnone) hsome
    · exact hnew
    · rw [hnone] at hfile
      cases hfile
  · refine (hfiles _ content hfile).resolve_right ?_
    -- a component is no registry: the last names of their places differ
    rintro ⟨⟨kind, hkind, heq⟩, -⟩
    rw [componentPath_eq _ _ (slash_notMem_fileName hname request.kind), registryPath_eq,
      Path.resolve_child, Path.resolve_child, Path.step_of_ne (fileName_ne _ _ (by decide)),
      (isPlainName_directory _).step] at heq
    have hlast := congrArg List.getLast? heq
    rw [List.getLast?_concat, Path.resolve_child, isPlainName_indexFileName.step, List.getLast?_concat] at hlast
    exact fileName_ne_indexFileName hkind name (Option.some.inj hlast)

/-! ## A small project -/

/-- A project with three empty registries. -/
def smallProject : Disk := ⟨[
  (["p", "m"], .file (Utf8.encode "\x7b\"dependencies\":\x7b\"f\":0\x7d\x7d")),
  (["p", "s", "server.ts"], .file []),
  (["p", "s", "core", "mcp-server.ts"], .file []),
  (["p", "s", "tools", "index.ts"], .file []),
  (["p", "s", "resources", "index.ts"], .file []),
  (["p", "s", "prompts", "index.ts"], .file []),
  (["p"], .directory),
  (["p", "s"], .directory),
  (["p", "s", "core"], .directory),
  (["p", "s", "tools"], .directory),
  (["p", "s", "resources"], .directory),
  (["p", "s", "prompts"], .directory)]⟩

theorem isTree_smallProject : IsTree smallProject ["p"] :=
  isTree_of_entries (by decide +kernel) (by decide +kernel)

/-- The settings under which `smallProject` is one. -/
def smallSettings : Settings where
  sourceDir := "s"
  manifestName := "m"
  frameworkDependency := "f"
  backupDir := "b"
  one_le_maxNameLength := Settings.default.one_le_maxNameLength

/-- A session in the `smallProject`, on a device that refuses the second write. -/
def smallSession : Session :=
  .start smallProject ["p"] ⟨2026, 1, 1, 0, 0, 0, 0⟩ false ⟨fun n => n == 2, fun _ => false⟩

/-- A request for a tool. -/
def weatherTool : Request := ⟨.tool, "weather", [], [], false⟩

theorem add_frame_smallProject :
    let after := ((add smallSettings .bundled (.ofText ".") weatherTool).run smallSession).2
    IsTree smallSession.disk smallSession.home ∧
      after.disk.entryAt? ["p", "s", "server.ts"] = some (.file []) ∧
      ∃ content, after.disk.entryAt? ["p", "s", "tools", "index.ts"] = some (.file content) := by
  have hframe := add_frame smallSettings .bundled (.ofText ".") weatherTool smallSession
    isTree_smallProject
  refine ⟨isTree_smallProject, ?_, ?_⟩
  · refine (hframe.1 ["p", "s", "server.ts"] [] (by decide +kernel)).resolve_right ?_
    rintro ⟨⟨kind, hkind, hplace⟩, -⟩
    obtain rfl := Option.some.inj hkind
    exact absurd hplace (by decide +kernel)
  · exact (hframe.1 ["p", "s", "tools", "index.ts"] [] (by decide +kernel)).elim
      (fun h => ⟨[], h⟩) And.right

/-! ## Stops -/

/-- How many registries a snapshot saves: those that are regular files (`isRegular`). -/
def savedCount (session : Session) (root : Path) : Nat :=
  (IndexedKind.all.filter (isRegular session.store root)).length

/-- Whether the device has refused a copy besides those that a snapshot takes, which is one of a
restore. -/
def RestoreRefused (session after : Session) (root : Path) : Prop :=
  ∃ n, session.copies + savedCount session root < n ∧ n ≤ after.copies ∧ session.outage.copy n = true

/-- Whether all registries are as they were, and nothing is new but the component and the snapshot. -/
structure Undone (session after : Session) (settings : Settings) (path : Path) (request : Request) :
    Prop where
  /-- The registries are as they were. -/
  registries : ∀ kind,
    after.disk.entryAt? ((registryPath (settings.sourceRoot path) kind).resolve session.home)
      = session.disk.entryAt? ((registryPath (settings.sourceRoot path) kind).resolve session.home)
  /-- Everything that was there is as it was. -/
  grows : ∃ directory,
    Grows (NewPlace session.store settings path request directory) session.disk after.disk

/-- What a `Stop` leaves behind, by its stage. -/
structure StopEffect (session after : Session) (settings : Settings) (templates : TemplateSource)
    (path : Path) (request : Request) (stop : Stop) : Prop where
  /-- In front of the snapshot nothing changes. -/
  planning : stop.stage ∈ Stage.planning → after.disk = session.disk ∧ stop.rolledBack = false
  /-- A snapshot that fails leaves at most places of its own. -/
  backup : stop.stage = .backup → stop.rolledBack = false ∧ ∃ directory,
    Grows (BackupPlace session.store (settings.backupRoot path) directory) session.disk after.disk
  /-- After the snapshot everything is undone, unless a copy of the restore is refused. -/
  undone : stop.stage ∈ Stage.changing →
    stop.rolledBack = true ∨ ¬ RestoreRefused session after (settings.sourceRoot path) →
      Undone session after settings path request
  /-- The restore is only left out if there is nothing to restore, or a copy of it is refused. -/
  refused : stop.stage ∈ Stage.changing → stop.rolledBack = false →
    savedCount session (settings.sourceRoot path) = 0 ∨
      RestoreRefused session after (settings.sourceRoot path)
  /-- Once it was written, the component has the content that was planned. -/
  component : stop.stage = .updateIndex ∨ stop.stage = .patchRegistries → ∃ made planned,
    (plan settings templates path request).run session = (.ok made, planned) ∧
      after.disk.entryAt? ((componentPath (settings.sourceRoot path) request.kind made.name).resolve
        session.home) = some (.file (Utf8.encode made.component.content))

theorem IsRunOf.undone (hrun : IsRunOf session.store settings path request made run)
    (hready : IsReady session.store settings path request made)
    (h : Grows run.MayAdd session.disk after.disk) : Undone session after settings path request := by
  refine ⟨fun kind => ?_, run.fresh, h.mono fun q => hrun.newPlace hready⟩
  have hplace : (registryPath (settings.sourceRoot path) kind).resolve session.home
      = registryPlace run.place kind := resolve_registryPath hrun.ground kind
  rw [hplace]
  exact hrun.ground.entryAt?_registry h kind

/-- A run that stops after its snapshot leaves a component and the snapshot, but restored registries. -/
theorem IsRunOf.stopEffect {stop : Stop} {stage : Stage} {planned : Session}
    (hrun : IsRunOf session.store settings path request made run)
    (hready : IsReady session.store settings path request made)
    (hworking : run.Working written after.store) (hstage : stage ∈ Stage.changing)
    (hstopped : run.Stopped stage stop after.store)
    (hplan : (plan settings templates path request).run session = (.ok made, planned))
    (hwritten : stage ≠ .writeComponent → written = some (Utf8.encode made.component.content)) :
    StopEffect session after settings templates path request stop := by
  have hlate : stop.stage ∉ Stage.planning ∧ stop.stage ≠ .backup := by
    rw [hstopped.stage_eq]
    revert hstage
    cases stage <;> decide
  have hrefused : run.Refused after.store → RestoreRefused session after (settings.sourceRoot path) := by
    rintro ⟨n, hlow, hhigh, hcopy⟩
    rw [hrun.start_eq, hrun.length_eq] at hlow
    rw [hrun.start_eq] at hcopy
    exact ⟨n, hlow, hhigh, hcopy⟩
  constructor
  case planning => exact fun h => absurd h hlate.1
  case backup => exact fun h => absurd h hlate.2
  case undone =>
    intro _ hdone
    -- the registries are back, or there was none to bring back
    have hback : stop.rolledBack = true ∨ run.snapshot.files = [] := by
      cases hb : stop.rolledBack with
      | true => exact .inl rfl
      | false =>
        have hnot := hdone.resolve_left (by rw [hb]; decide)
        exact .inr ((hstopped.refused hb).resolve_right fun h => hnot (hrefused h))
    have hgrows := hstopped.grows hback
    rw [hrun.start_eq] at hgrows
    exact hrun.undone hready hgrows
  case refused =>
    intro _ hb
    refine (hstopped.refused hb).imp (fun hnil => ?_) hrefused
    rw [savedCount, ← hrun.length_eq, hnil, List.length_nil]
  case component =>
    intro hstages
    -- the stages in question come after the one that writes the component
    have hne : stage ≠ .writeComponent := by
      rintro rfl
      rw [hstopped.stage_eq] at hstages
      exact absurd hstages (by decide)
    refine ⟨made, planned, hplan, ?_⟩
    have htarget := hrun.resolve_target hready
    have hbytes := (hworking.written _ (hwritten hne)).2
    rw [← htarget] at hbytes
    exact hbytes

/-- An `add` that stops in order has changed nothing, or left a part of a snapshot, or restored the registries beside
the component and the snapshot. Only the device can keep it from restoring them. -/
theorem add_stopped {stop : Stop} (ht : IsTree session.disk session.home)
    (h : (add settings templates path request).run session = (.error (.stopped stop), after)) :
    StopEffect session after settings templates path request stop := by
  rw [add_eq_bind, run_bind] at h
  cases hplan : (plan settings templates path request).run session with
  | mk result planned =>
    rw [hplan] at h
    cases result with
    | error failure =>
      obtain ⟨hfailure, rfl⟩ := Prod.mk.inj h
      obtain rfl := Except.error.inj hfailure
      obtain ⟨hstore, hends⟩ := spec_plan.error rfl hplan
      obtain ⟨hstage, hrolled⟩ := hends stop rfl
      -- a plan fails in a stage of its own, so only the first part says something
      have hearly : stop.stage ≠ .backup ∧ stop.stage ∉ Stage.changing ∧
          ¬ (stop.stage = .updateIndex ∨ stop.stage = .patchRegistries) := by
        revert hstage
        cases stop.stage <;> decide
      constructor
      · exact fun _ => ⟨congrArg Store.disk hstore, hrolled⟩
      · exact fun hb => absurd hb hearly.1
      · exact fun hc => absurd hc hearly.2.1
      · exact fun hc => absurd hc hearly.2.1
      · exact fun hc => absurd hc hearly.2.2
    | ok made =>
      obtain ⟨hstore, hready⟩ := spec_plan.ok rfl hplan
      -- with a plan the run has stopped at the snapshot, or behind it
      have hend := (spec_carryOut ht hready).error hstore h
      rcases hend with ⟨hbackup, hends⟩ | ⟨run, written, hrun, hworking, hstops⟩
      · obtain ⟨hstage, hrolled⟩ := hends stop rfl
        rw [List.mem_singleton] at hstage
        constructor
        · exact fun hp => absurd hp (by rw [hstage]; decide)
        · exact fun _ => ⟨hrolled, hbackup⟩
        · exact fun hc => absurd hc (by rw [hstage]; decide)
        · exact fun hc => absurd hc (by rw [hstage]; decide)
        · exact fun hc => absurd hc (by rw [hstage]; decide)
      · obtain ⟨stage, hstage, hstopped, hwritten⟩ := hstops stop rfl
        exact hrun.stopEffect hready hworking hstage hstopped hplan hwritten

/-- The second write is the one of the index. -/
theorem add_stopped_smallProject :
    let result := (add smallSettings .bundled (.ofText ".") weatherTool).run smallSession
    let stop : Stop := ⟨.updateIndex, .failure (.indexUnwritable
      ⟨.relative, ["s", "tools", "index.ts"]⟩ (.outage .write 2)), true⟩
    IsTree smallSession.disk smallSession.home ∧ result = (.error (.stopped stop), result.2) ∧
      StopEffect smallSession result.2 smallSettings .bundled (.ofText ".") weatherTool stop := by
  intro result stop
  have hstop : result.1 = .error (.stopped stop) := by decide +kernel
  have hresult : result = (.error (.stopped stop), result.2) := Prod.ext hstop rfl
  exact ⟨isTree_smallProject, hresult, add_stopped isTree_smallProject hresult⟩

end ComponentKit.Workflow
