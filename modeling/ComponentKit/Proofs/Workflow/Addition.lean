import ComponentKit.Proofs.Disk.Way
import ComponentKit.Proofs.Workflow.Invariant
import ComponentKit.Proofs.Workflow.Listing
import ComponentKit.Proofs.Workflow.Outcome

/-!
# Listing after adding

A run that adds a component puts one file into the directory of its kind and none into that of any other kind, and
the project stays one. So the next `list` has one module more. There is one exception: a component whose file is
called like the index is not listed.
-/

namespace ComponentKit.Workflow

open Disk Project Snapshot Step

variable {session after : Session} {settings : Settings} {templates : TemplateSource} {path : Path}
  {request : Request} {manifest : Json} {kind : Kind} {name : Text} {start store : Store} {made : Plan}
  {run : Run} {added : Added} {q : Location}

/-! ## A project for a run -/

/-- Whether the files of a project are where `Settings.default` has them. -/
structure HasDefaultPaths (settings : Settings) : Prop where
  /-- The source root. -/
  sourceDir : settings.sourceDir = Settings.default.sourceDir
  /-- The manifest. -/
  manifestName : settings.manifestName = Settings.default.manifestName
  /-- The directory of the snapshots. -/
  backupDir : settings.backupDir = Settings.default.backupDir

/-- A run goes on only in a project. -/
theorem spec_plan_isProject :
    Spec (· = start) (plan settings templates path request)
      (fun _ _ => ∃ manifest,
        IsProject start.disk start.home start.nesting settings path manifest ∧ IsNamed path manifest)
      fun _ _ => True := by
  rw [plan]
  refine Spec.bind (spec_findProject.weaken_ends (fun _ _ h => h.2.2) fun _ _ _ => trivial)
    fun project => ?_
  exact Spec.const.weaken_error fun _ _ _ => trivial

/-- What was added has the name of the plan, and stands at its path. -/
theorem spec_carryOut_path :
    Spec (fun _ => True) (carryOut settings request made)
      (fun added _ => added.name = made.name ∧
        added.path = componentPath made.project.sourceRoot request.kind made.name)
      fun _ _ => True := by
  rw [carryOut]
  refine Spec.bind Spec.const fun snapshot => Spec.bind Spec.const fun _ => ?_
  exact Spec.bind Spec.const fun _ => Spec.bind Spec.const fun _ => Spec.pure _ fun _ _ => ⟨rfl, rfl⟩

/-- A component is added under the name that the request resolves to. -/
theorem spec_add_name :
    Spec (· = start) (add settings templates path request)
      (fun added _ => resolveName settings request = .ok added.name) fun _ _ => True := by
  rw [add_eq_bind]
  refine Spec.bind (spec_plan.weaken_ends (fun _ _ h => h.2.name_eq) fun _ _ _ => trivial) fun made => ?_
  refine Spec.of_forall fun store hname => ?_
  exact spec_carryOut_path.weaken (fun _ _ => trivial) (fun added _ h => by rw [h.1, hname]) fun _ _ h => h

/-! ## What a run adds under the source root -/

section Places

variable (hrun : IsRunOf start settings path request made run) (hpaths : HasDefaultPaths settings)

include hrun hpaths

theorem IsRunOf.root_eq_child : run.root = path.child Settings.default.sourceDir := by
  rw [hrun.root_eq, Settings.sourceRoot, hpaths.sourceDir]
  exact Path.join_eq_child _ ⟨by decide, by decide, by decide⟩

theorem IsRunOf.place_eq : run.place = path.resolve start.home ++ [Settings.default.sourceDir] := by
  have hloc := hrun.isGrounded.ground.located
  rw [hrun.start_eq, hrun.root_eq_child hpaths] at hloc
  rw [locate_eq_resolve hloc, Path.resolve_child]
  rfl

/-- Around the source root there are directories already. -/
theorem IsRunOf.not_mem_waypoints (hnone : start.disk.entryAt? q = none) : q ∉ waypoints start.home path := by
  intro hway
  have ht := hrun.isGrounded.ground.isTree
  have hloc := hrun.isGrounded.ground.located
  rw [hrun.start_eq] at ht hloc
  rw [hrun.root_eq_child hpaths] at hloc
  rw [ht.entryAt?_waypoint hloc hway] at hnone
  cases hnone

/-- What may be missing on the way to the component is the directory of its kind, and the component. -/
theorem IsRunOf.eq_of_mem_waypoints (hway : q ∈ waypoints start.home run.target)
    (hnone : start.disk.entryAt? q = none) :
    q = kindPlace run.place request.kind ∨ q = run.targetPlace := by
  have hg := hrun.isGrounded
  have hloc := hg.ground.located
  have hplace := hg.ground.directory
  rw [hrun.start_eq] at hloc hplace
  -- the way ends with the component, its directory, the source root, and what leads to the project
  rcases mem_waypoints_child.mp hway with hway | rfl
  · rcases mem_waypoints_child.mp hway with hway | rfl
    · rw [hrun.root_eq_child hpaths] at hway
      rcases mem_waypoints_child.mp hway with hway | rfl
      · exact absurd hway (hrun.not_mem_waypoints hpaths hnone)
      · rw [← hrun.root_eq_child hpaths, ← locate_eq_resolve hloc, hplace] at hnone
        cases hnone
    · refine .inl ?_
      rw [Path.resolve_child, ← locate_eq_resolve hloc, hrun.directory_eq, (isPlainName_directory _).step, kindPlace]
  · refine .inr ?_
    rw [Path.resolve_child, Path.resolve_child, ← locate_eq_resolve hloc, Path.step_of_ne hg.file_ne,
      hg.directory_plain.step, Run.targetPlace]

/-- No snapshot is kept under the source root. -/
theorem IsRunOf.not_backupPlace (hnone : start.disk.entryAt? q = none) (hunder : run.place <+: q) :
    ¬ BackupPlace start run.backupRoot run.fresh q := by
  intro hbackup
  have hroot : run.backupRoot = path.child Settings.default.backupDir := by
    rw [hrun.backupRoot_eq, Settings.backupRoot, hpaths.backupDir]
    exact Path.join_eq_child _ ⟨by decide, by decide, by decide⟩
  have hresolve : run.backupRoot.resolve start.home
      = path.resolve start.home ++ [Settings.default.backupDir] := by
    rw [hroot, Path.resolve_child]
    rfl
  have hbelow : run.backupRoot.resolve start.home <+: q := by
    rcases hbackup with hway | ⟨-, ⟨name, hname⟩, hfresh⟩
    · rw [hroot] at hway ⊢
      rcases mem_waypoints_child.mp hway with hway | rfl
      · exact absurd hway (hrun.not_mem_waypoints hpaths hnone)
      · exact List.prefix_rfl
    · rw [hname] at hfresh
      exact (List.prefix_append _ _).trans hfresh
  -- the two roots are different names in the directory of the project
  rw [hrun.place_eq hpaths] at hunder
  rw [hresolve] at hbelow
  have hsame := List.prefix_of_prefix_length_le hunder hbelow (by simp)
  rw [List.prefix_append_right_inj] at hsame
  exact absurd hsame (by decide)

/-- Under the source root a run adds the component, and the directory of its kind if that is missing. -/
theorem IsRunOf.eq_of_mayAdd (hadd : run.MayAdd q) (hnone : start.disk.entryAt? q = none)
    (hunder : run.place <+: q) : q = kindPlace run.place request.kind ∨ q = run.targetPlace := by
  rw [Run.MayAdd, hrun.start_eq] at hadd
  exact hrun.eq_of_mem_waypoints hpaths (hadd.resolve_right (hrun.not_backupPlace hpaths hnone hunder)) hnone

end Places

section Working

variable {bytes : Bytes} (hrun : IsRunOf start settings path request made run)
  (hpaths : HasDefaultPaths settings) (hworking : run.Working (some bytes) store)

include hrun hworking

/-- The directory of the kind is there after a run. -/
theorem isDirectory_requested :
    store.disk.entryAt? (kindPlace run.place request.kind) = some .directory := by
  have hparent := hworking.isTree.parent (hworking.written bytes rfl).2
  rwa [Run.targetPlace, List.dropLast_concat, hrun.directory_eq] at hparent

include hpaths

/-- The directories of the other kinds stay as they are. -/
theorem entryAt?_kindPlace (hne : kind ≠ request.kind) :
    store.disk.entryAt? (kindPlace run.place kind) = start.disk.entryAt? (kindPlace run.place kind) := by
  have hedits := hworking.edits (kindPlace run.place kind)
  rw [hrun.start_eq] at hedits
  rcases hedits with heq | ⟨hnone, hadd⟩ | ⟨⟨indexed, -, hregistry⟩, -⟩
  · exact heq
  · rcases hrun.eq_of_mayAdd hpaths hadd hnone (List.prefix_append _ _) with heq | heq
    · exact absurd (kindPlace_injective heq) hne
    · simp [kindPlace, Run.targetPlace] at heq
  · simp [kindPlace, registryPlace] at hregistry

/-- In the directory of its kind there is the new file, and no other one is new in any such directory. -/
theorem mem_names_after : name ∈ store.disk.names (kindPlace run.place kind) ↔
    name ∈ start.disk.names (kindPlace run.place kind) ∨ kind = request.kind ∧ name = run.file := by
  have hedits := hworking.edits (kindPlace run.place kind ++ [name])
  have htarget := hworking.written bytes rfl
  rw [hrun.start_eq] at hedits htarget
  have htargetPlace : run.targetPlace = kindPlace run.place request.kind ++ [run.file] := by
    rw [Run.targetPlace, hrun.directory_eq, kindPlace]
  rw [mem_names, mem_names]
  rcases hedits with heq | ⟨hnone, hadd⟩ | ⟨-, ⟨content, hbefore⟩, ⟨content', hafter⟩⟩
  · -- the new file is not among what stayed as it was
    rw [heq]
    refine ⟨.inl, fun h => h.resolve_right ?_⟩
    rintro ⟨rfl, rfl⟩
    rw [← htargetPlace, htarget.1, htarget.2] at heq
    cases heq
  -- what is new under the source root is the directory of the kind or the component itself
  · have hunder : run.place <+: kindPlace run.place kind ++ [name] :=
      (List.prefix_append _ _).trans (List.prefix_append _ _)
    rcases hrun.eq_of_mayAdd hpaths hadd hnone hunder with heq | heq
    · simp [kindPlace] at heq
    · have hsame := heq.trans htargetPlace
      obtain ⟨hkind, hname⟩ := List.append_inj' hsame rfl
      rw [heq, htarget.2]
      exact ⟨fun _ => .inr ⟨kindPlace_injective hkind, (List.cons.inj hname).1⟩, fun _ => by simp⟩
  · -- a registry was a file and is one
    rw [hbefore, hafter]
    exact ⟨fun _ => .inl (by simp), fun _ => by simp⟩

/-- The names of the other kinds stay the same. -/
theorem perm_names (hbefore : start.disk.IsDistinct) (hafter : store.disk.IsDistinct)
    (hne : kind ≠ request.kind) :
    (store.disk.names (kindPlace run.place kind)).Perm (start.disk.names (kindPlace run.place kind)) := by
  refine (List.perm_ext_iff_of_nodup (hafter.nodup_names _) (hbefore.nodup_names _)).mpr fun name => ?_
  rw [mem_names_after hrun hpaths hworking]
  exact ⟨fun h => h.resolve_right fun h => hne h.1, .inl⟩

/-- The kind that is added has one name more. -/
theorem perm_names_requested (hbefore : start.disk.IsDistinct) (hafter : store.disk.IsDistinct) :
    (store.disk.names (kindPlace run.place request.kind)).Perm
      (run.file :: start.disk.names (kindPlace run.place request.kind)) := by
  have hnew : run.file ∉ start.disk.names (kindPlace run.place request.kind) := by
    intro h
    have hnone := (hworking.written bytes rfl).1
    rw [hrun.start_eq, Run.targetPlace, hrun.directory_eq] at hnone
    exact mem_names.mp h hnone
  refine (List.perm_ext_iff_of_nodup (hafter.nodup_names _)
    (List.nodup_cons.mpr ⟨hnew, hbefore.nodup_names _⟩)).mpr fun name => ?_
  rw [mem_names_after hrun hpaths hworking, List.mem_cons]
  exact ⟨fun h => h.symm.imp_left And.right, fun h => h.symm.imp_right fun h => ⟨rfl, h⟩⟩

/-- The other kinds are listed as before. -/
theorem lookup_componentsAt_after (hbefore : start.disk.IsDistinct) (hafter : store.disk.IsDistinct)
    (hne : kind ≠ request.kind) :
    (componentsAt store.disk run.place Kind.all).lookup kind
      = (componentsAt start.disk run.place Kind.all).lookup kind := by
  rw [lookup_componentsAt_all, lookup_componentsAt_all,
    entryAt?_kindPlace hrun hpaths hworking hne,
    modulesOf_congr (perm_names hrun hpaths hworking hbefore hafter hne)]

/-- The kind that is added is listed with one module more, unless its file is an index. -/
theorem perm_modulesOf_requested (hbefore : start.disk.IsDistinct) (hafter : store.disk.IsDistinct)
    (hindex : run.file ≠ indexFileName) :
    (modulesOf (store.disk.names (kindPlace run.place request.kind))).Perm
      (Component.moduleName request.kind made.name
        :: modulesOf (start.disk.names (kindPlace run.place request.kind))) := by
  have hfile : moduleOfFile? run.file = some (Component.moduleName request.kind made.name) := by
    have hname : run.file = Component.moduleName request.kind made.name ++ sourceExtension := hrun.file_eq
    rw [hname] at hindex ⊢
    exact moduleOfFile?_append hindex
  refine (perm_modulesOf _).trans ?_
  refine ((perm_names_requested hrun hpaths hworking hbefore hafter).filterMap _).trans ?_
  rw [List.filterMap_cons_some hfile]
  exact (perm_modulesOf _).symm.cons _

/-- A project stays one. -/
theorem isProject_after (hproject : IsProject start.disk start.home start.nesting settings path manifest) :
    IsProject store.disk store.home store.nesting settings path manifest := by
  have hhome : store.home = start.home := by rw [hworking.home_eq, hrun.start_eq]
  have hnesting : store.nesting = start.nesting := by rw [hworking.nesting_eq, hrun.start_eq]
  have hedits := hworking.edits
  rw [hrun.start_eq] at hedits
  rw [hhome, hnesting]
  refine hproject.mono (fun q => hedits.directory) (fun q entry hentry => ?_)
    fun q content hlocated hcontent => ?_
  -- what a project needs is there and stays, but a registry may be edited
  · rcases hedits q with heq | ⟨hnone, -⟩ | ⟨-, -, ⟨content, hfile⟩⟩
    · exact ⟨entry, heq.trans hentry⟩
    · rw [hentry] at hnone
      cases hnone
    · exact ⟨_, hfile⟩
  · rcases hedits q with heq | ⟨hnone, -⟩ | ⟨⟨indexed, -, hregistry⟩, -⟩
    · exact heq.trans hcontent
    · rw [hcontent] at hnone
      cases hnone
    · -- the manifest has another name than a registry
      rw [Settings.manifestPath, hpaths.manifestName,
        Path.join_eq_child _ ⟨by decide, by decide, by decide⟩] at hlocated
      rw [locate_eq_resolve hlocated, Path.resolve_child, registryPlace] at hregistry
      have hlast := congrArg List.getLast? hregistry
      rw [List.getLast?_concat, Path.step, if_neg (by decide), List.getLast?_concat] at hlast
      exact absurd (Option.some.inj hlast) (by decide)

end Working

/-! ## Adding and listing -/

/-- A run that adds a component carries a plan out in a project. -/
theorem exists_isRunOf_of_add (ht : IsTree session.disk session.home)
    (hadd : (add settings templates path request).run session = (.ok added, after)) :
    ∃ manifest made run, IsProject session.disk session.home session.nesting settings path manifest ∧
      IsNamed path manifest ∧ IsRunOf session.store settings path request made run ∧
      run.Working (some (Utf8.encode made.component.content)) after.store ∧ added.path.name = run.file := by
  rw [add_eq_bind, run_bind] at hadd
  -- a run that adds something has planned it
  cases hplan : (plan settings templates path request).run session with
  | mk result planned =>
    rw [hplan] at hadd
    cases result with
    | error failure => cases (Prod.mk.inj hadd).1
    | ok made =>
      obtain ⟨hstore, hready⟩ := spec_plan.ok rfl hplan
      obtain ⟨manifest, hproject, hnamed⟩ := spec_plan_isProject.ok rfl hplan
      obtain ⟨run, hrun, hworking⟩ := (spec_carryOut ht hready).ok hstore hadd
      refine ⟨manifest, made, run, hproject, hnamed, hrun, hworking, ?_⟩
      rw [(spec_carryOut_path.ok trivial hadd).2, hready.detected.sourceRoot_eq,
        componentPath_eq _ _ (slash_notMem_fileName hready.name_eq request.kind), hrun.file_eq]
      simp [Path.name, Path.child]

/-- A run of `add` that adds a component adds its module to the listing of its kind, in strict order, unless the
component has the file of an index, which is not listed. The other kinds are listed as before. -/
theorem list_after_add (hpaths : HasDefaultPaths settings) (ht : IsTree session.disk session.home)
    (hdistinct : session.disk.IsDistinct)
    (hadd : (add settings templates path request).run session = (.ok added, after)) :
    ∃ before listing stem modules,
      (list settings path).run session = (.ok (some before), session) ∧
      (list settings path).run after = (.ok (some listing), after) ∧
      listing.projectName = before.projectName ∧
      added.path.name = stem ++ sourceExtension ∧
      listing.components.lookup request.kind = some modules ∧
      modules.Pairwise (· < ·) ∧
      (added.path.name ≠ indexFileName → modules.Perm (stem :: before.modules request.kind)) ∧
      ∀ kind ≠ request.kind, listing.components.lookup kind = before.components.lookup kind := by
  have hafter : after.disk.IsDistinct :=
    Spec.ok (keeps_add survivesPut_isDistinct) hdistinct hadd
  obtain ⟨manifest, made, run, hproject, hnamed, hrun, hworking, hpath⟩ := exists_isRunOf_of_add ht hadd
  have hg := hrun.ground
  have hhome : after.home = session.home := hworking.home_eq.trans (by rw [hrun.start_eq]; rfl)
  have hedits := hworking.edits
  rw [hrun.start_eq] at hedits
  -- the source root leads to the same place as before
  have hlocated : after.disk.locate after.home (settings.sourceRoot path) = .ok run.place := by
    rw [hhome]
    exact locate_mono (fun q => hedits.directory) hg.located
  -- so both listings read the same directories, once before and once after the run
  have hlist := yields_list (isProject_after hrun hpaths hworking hproject) hnamed hlocated
    (hedits.directory hg.directory)
  refine ⟨_, _, Component.moduleName request.kind made.name,
    modulesOf (after.disk.names (kindPlace run.place request.kind)),
    yields_list hproject hnamed hg.located hg.directory, hlist, ?_, ?_, ?_, ?_, fun hindex => ?_,
    fun kind hne => ?_⟩
  · simp only [recognized, hhome]
  · exact hpath.trans hrun.file_eq
  · rw [lookup_componentsAt_all]
    exact if_pos (isDirectory_requested hrun hworking)
  · exact strict_modulesOf (hafter.nodup_names _)
  · rw [modules_componentsAt ht]
    exact perm_modulesOf_requested hrun hpaths hworking hdistinct hafter (hpath ▸ hindex)
  · exact lookup_componentsAt_after hrun hpaths hworking hdistinct hafter hne

/-! ## A project with a tool -/

/-- A project in which everything has its default place. -/
def plainProject : Disk := ⟨[
  (["p", "package.json"],
    .file (Utf8.encode "\x7b\"dependencies\":\x7b\"@modelcontextprotocol/sdk\":0\x7d\x7d")),
  (["p", "src", "server.ts"], .file []),
  (["p", "src", "core", "mcp-server.ts"], .file []),
  (["p", "src", "tools", "index.ts"], .file []),
  (["p", "src", "tools", "wind-tool.ts"], .file []),
  (["p", "src", "resources", "index.ts"], .file []),
  (["p", "src", "prompts", "index.ts"], .file []),
  (["p"], .directory),
  (["p", "src"], .directory),
  (["p", "src", "core"], .directory),
  (["p", "src", "tools"], .directory),
  (["p", "src", "resources"], .directory),
  (["p", "src", "prompts"], .directory)]⟩

theorem isTree_plainProject : IsTree plainProject ["p"] :=
  isTree_of_entries (by decide +kernel) (by decide +kernel)

/-- A session in the `plainProject`. -/
def plainSession : Session :=
  .start plainProject ["p"] ⟨2026, 1, 1, 0, 0, 0, 0⟩ false .none

theorem hasDefaultPaths_default : HasDefaultPaths Settings.default :=
  ⟨rfl, rfl, rfl⟩

theorem list_after_add_weather :
    let result := (add Settings.default .bundled (.ofText ".") weatherTool).run plainSession
    HasDefaultPaths Settings.default ∧ IsTree plainSession.disk plainSession.home ∧
      plainSession.disk.IsDistinct ∧ ∃ added, result = (.ok added, result.2) ∧
        ∃ listing, (list Settings.default (.ofText ".")).run result.2 = (.ok (some listing), result.2) ∧
          ("weather-tool" : Text) ∈ listing.modules weatherTool.kind := by
  intro result
  have hdistinct : plainSession.disk.IsDistinct := by decide +kernel
  have hname : result.1.map (·.path.name) = .ok (Text.concat ["weather-tool", sourceExtension]) := by
    decide +kernel
  cases hresult : result with
  | mk outcome after =>
    rw [hresult] at hname
    cases outcome with
    | error failure => cases hname
    | ok added =>
      obtain ⟨before, listing, stem, modules, -, hlist, -, hstem, hlookup, -, hperm, -⟩ :=
        list_after_add hasDefaultPaths_default isTree_plainProject hdistinct hresult
      have hfile : added.path.name = Text.concat ["weather-tool", sourceExtension] := Except.ok.inj hname
      refine ⟨hasDefaultPaths_default, isTree_plainProject, hdistinct, added, rfl, listing, hlist, ?_⟩
      rw [hfile] at hstem hperm
      have hmodules := hperm (by decide)
      rw [← List.append_cancel_right hstem] at hmodules
      rw [Listing.modules, hlookup]
      exact hmodules.mem_iff.mpr List.mem_cons_self

/-- A request for a component that has the file of an index. -/
def indexUtil : Request := ⟨.util, "index", [], [], true⟩

/-- A component with the file of an index is added, and not listed. -/
theorem index_not_listed :
    let result := (add Settings.default .bundled (.ofText ".") indexUtil).run plainSession
    IsTree plainSession.disk plainSession.home ∧ plainSession.disk.IsDistinct ∧
      result.1.map (·.path.name) = .ok (Text.concat ["index", sourceExtension]) ∧
      ∃ listing, ((list Settings.default (.ofText ".")).run result.2).1 = .ok (some listing) ∧
        ("index" : Text) ∉ listing.modules .util := by
  refine ⟨isTree_plainProject, by decide +kernel, by decide +kernel,
    ⟨"p", [(.tool, ["wind-tool"]), (.resource, []), (.prompt, []), (.util, [])]⟩, ?_, by decide⟩
  decide +kernel

end ComponentKit.Workflow
