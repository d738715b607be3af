import ComponentKit.Proofs.Text.Utf8
import ComponentKit.Proofs.Workflow.Addition
import ComponentKit.Proofs.Workflow.Crew

/-!
# Failures that no stage expects

Each stage of `Workflow.add` expects failures of its own, and turns them into an orderly end. What it does not
expect escapes from the run. `Unforeseen` lists what can escape on a disk that is a tree, each failure with its
cause on the disk, in the request, or in the engine that renders a template: nothing else escapes, and whenever one
of the causes is there its failure does. A console that cannot print, or calls that fail in other ways, are for
`Crew.Exposed` to tell.
-/

namespace ComponentKit.Workflow

open Disk Project Step

variable {start : Store} {session : Session} {settings : Settings} {templates : TemplateSource}
  {path : Path} {request : Request} {project : Project} {name : Text} {failure : Failure} {manifest : Json}

/-! ## Finding the project -/

/-- Whether `detect` finds a project in a directory, said by what is on the disk. -/
def Finds (start : Store) (settings : Settings) (path : Path) (project : Project) : Prop :=
  ∃ manifest, IsProject start.disk start.home start.nesting settings path manifest ∧ IsNamed path manifest ∧
    project = recognized settings path start.home manifest

theorem Finds.sourceRoot_eq (h : Finds start settings path project) :
    project.sourceRoot = settings.sourceRoot path := by
  obtain ⟨manifest, -, -, rfl⟩ := h
  rfl

theorem Finds.isDirectory (h : Finds start settings path project) :
    start.disk.isDirectory start.home (settings.sourceRoot path) = .ok true := by
  obtain ⟨manifest, hproject, -⟩ := h
  exact hproject.isDirectory

theorem Finds.fits (h : Finds start settings path project) (kind : Kind) :
    isOverlong (Project.directory (settings.sourceRoot path) kind) = false := by
  obtain ⟨manifest, hproject, -⟩ := h
  exact hproject.fits kind

theorem endsIn_findProject (h : Finds start settings path project) :
    EndsIn start (findProject settings path) (.ok project) := by
  obtain ⟨manifest, hproject, hnamed, rfl⟩ := h
  have hdetect : EndsIn start (detect settings path) (.ok (recognized settings path start.home manifest)) := by
    refine EndsIn.of_yields fun session hs => ?_
    subst hs
    exact yields_detect hproject hnamed
  rw [findProject]
  refine EndsIn.ok_bind (endsIn_report _ _) (EndsIn.ok_bind (hdetect.mapFailure _) ?_)
  exact EndsIn.ok_bind (endsIn_report _ _) (.pure _)

/-- A manifest that exhausts its reader ends the run. -/
theorem endsIn_findProject_of_isExhausting
    (h : IsExhausting start.disk start.home start.nesting settings path failure) :
    EndsIn start (findProject settings path) (.error (.escaped failure)) := by
  rw [findProject]
  exact EndsIn.ok_bind (endsIn_report _ _) ((endsIn_detect_of_isExhausting h).mapFailure _).error_bind

/-- Where no project is found the path is shown from the root on, which fails for a null character. -/
theorem endsIn_findProject_of_not
    (hread : ∀ failure, ¬ IsExhausting start.disk start.home start.nesting settings path failure)
    (h : ∀ project, ¬ Finds start settings path project) :
    EndsIn start (findProject settings path) (.error (if path.hasNul = true then
      .escaped (.access .nullCharacter)
    else .stopped ⟨.detect, .noProject (path.resolve start.home), false⟩)) := by
  have hdetect : Spec (· = start) (detect settings path)
      (fun project store => store = start ∧ project.isValid = false) fun _ _ => False := by
    refine spec_detect.weaken_ends (fun project _ hs => ⟨hs.1, Bool.eq_false_iff.mpr fun hvalid => ?_⟩)
      fun _ _ hf => hread _ hf.2
    obtain ⟨manifest, hproject, hnamed⟩ := (hs.2 hvalid).2
    exact h _ ⟨manifest, hproject, hnamed, rfl⟩
  rw [findProject]
  refine EndsIn.ok_bind (endsIn_report _ _)
    (EndsIn.bind_of_spec (Spec.mapFailure hdetect) fun project hinvalid => ?_)
  simp only [hinvalid, Bool.not_false, if_true]
  -- showing the path resolves it, and that is what a null character forbids
  have hlocation : EndsIn start (unguarded (Step.locationOf path)) _ := (EndsIn.locationOf path).mapFailure _
  by_cases hnul : path.hasNul = true
  · rw [if_pos hnul] at hlocation ⊢
    exact EndsIn.error_bind hlocation
  · rw [if_neg hnul] at hlocation ⊢
    exact EndsIn.ok_bind hlocation (.error_bind (.throw _))

/-! ## Planning in a project -/

/-- What `plan` comes to once the project is found. -/
def planned (start : Store) (settings : Settings) (templates : TemplateSource) (request : Request)
    (project : Project) : Except AddFailure Plan := do
  let name ← (resolveName settings request).mapError fun refusal =>
    .stopped ⟨.validateName, .refusedName refusal, false⟩
  checked start request.kind name (componentPath project.sourceRoot request.kind name)
  let component ← prepared (generated start settings templates project request name)
  return ⟨project, name, component⟩

theorem endsIn_plan (h : Finds start settings path project) (templates : TemplateSource) (request : Request) :
    EndsIn start (plan settings templates path request)
      (planned start settings templates request project) := by
  rw [plan, planned]
  refine EndsIn.ok_bind (endsIn_findProject h) ?_
  cases resolveName settings request with
  | error refusal => exact .error_bind (.throw _)
  | ok name =>
    refine EndsIn.ok_bind (.pure name) (EndsIn.ok_bind (endsIn_report _ _) ?_)
    exact EndsIn.bind endsIn_checkNew fun _ _ => EndsIn.bind endsIn_prepare fun _ _ => .pure _

/-- A failure to find a project ends planning. -/
theorem endsIn_plan_of_failure {cause : AddFailure} (h : EndsIn start (findProject settings path) (.error cause)) :
    EndsIn start (plan settings templates path request) (.error cause) :=
  h.error_bind

theorem planned_of_name (hname : resolveName settings request = .ok name) :
    planned start settings templates request project = (do
      checked start request.kind name (componentPath project.sourceRoot request.kind name)
      let component ← prepared (generated start settings templates project request name)
      return ⟨project, name, component⟩) := by
  rw [planned, hname]
  rfl

/-- There is a plan if the name is accepted and new, and the template gives a text. -/
theorem exists_planned_iff : (∃ made, planned start settings templates request project = .ok made) ↔
    ∃ name content, resolveName settings request = .ok name ∧
      start.disk.pathExists start.home (componentPath project.sourceRoot request.kind name) = .ok false ∧
      templates.offer start.disk start.home request.kind (contextOf start settings request project name)
        = .ok content := by
  constructor
  · rintro ⟨made, h⟩
    obtain ⟨name, hname, h⟩ := bind_eq_ok.mp h
    obtain ⟨⟨⟩, hchecked, h⟩ := bind_eq_ok.mp h
    obtain ⟨component, hprepared, -⟩ := bind_eq_ok.mp h
    obtain ⟨content, hoffer, -⟩ := bind_eq_ok.mp (prepared_eq_ok.mp hprepared)
    exact ⟨name, content, mapError_eq_ok.mp hname, checked_eq_ok.mp hchecked, hoffer⟩
  · rintro ⟨name, content, hname, hnew, hoffer⟩
    have hgenerated : generated start settings templates project request name
        = .ok ⟨request.kind, content, Component.wiringOf request.kind name⟩ := by
      rw [generated, hoffer]
      rfl
    rw [planned_of_name hname, checked_eq_ok.mpr hnew, prepared_eq_ok.mpr hgenerated]
    exact ⟨_, rfl⟩

/-! ## What escapes -/

/-- The failures that no stage of `add` expects, each with its cause. -/
inductive Unforeseen (start : Store) (settings : Settings) (templates : TemplateSource) (path : Path)
    (request : Request) : Failure → Prop where
  /-- The manifest is nested more deeply than its reader follows. -/
  | manifest {failure : Failure}
      (hread : IsExhausting start.disk start.home start.nesting settings path failure) :
      Unforeseen start settings templates path request failure
  /-- A directory is no project, and where it is cannot be said for a null character in its path. -/
  | directory (hread : ∀ failure, ¬ IsExhausting start.disk start.home start.nesting settings path failure)
      (hnone : ∀ project, ¬ Finds start settings path project) (hnul : path.hasNul = true) :
      Unforeseen start settings templates path request (.access .nullCharacter)
  /-- The path to the file of a component takes too many bytes, or its name does and the directory that it belongs to
  is there. -/
  | component {project : Project} {name : Text} (hfound : Finds start settings path project)
      (hname : resolveName settings request = .ok name)
      (hnul : '\x00' ∉ Component.fileName request.kind name)
      (hlong : isOverlong (componentPath (settings.sourceRoot path) request.kind name) = true ∨
        start.disk.isDirectory start.home (Project.directory (settings.sourceRoot path) request.kind) = .ok true ∧
          maxNameBytes < (Utf8.encode (Component.fileName request.kind name)).length) :
      Unforeseen start settings templates path request
        (.access (.blocked .nameTooLong (componentPath (settings.sourceRoot path) request.kind name)))
  /-- The file of a template is no text. -/
  | template {project : Project} {name : Text} {folder : Path} {engine : Engine} {bytes : Bytes}
      {fault : Utf8.Fault} (hfound : Finds start settings path project)
      (hname : resolveName settings request = .ok name)
      (hnew : start.disk.pathExists start.home
        (componentPath (settings.sourceRoot path) request.kind name) = .ok false)
      (htemplates : templates = .files folder engine)
      (hread : start.disk.readFile start.home (folder.join (templateFile request.kind)) = .ok bytes)
      (hdecode : Utf8.decode bytes = .error fault) :
      Unforeseen start settings templates path request (.undecodable fault)
  /-- The engine fails to render a template, and not for a fault of it. -/
  | engine {project : Project} {name : Text} {folder : Path} {engine : Engine} {bytes : Bytes} {text : Text}
      {failure : Failure} (hfound : Finds start settings path project)
      (hname : resolveName settings request = .ok name)
      (hnew : start.disk.pathExists start.home
        (componentPath (settings.sourceRoot path) request.kind name) = .ok false)
      (htemplates : templates = .files folder engine)
      (hread : start.disk.readFile start.home (folder.join (templateFile request.kind)) = .ok bytes)
      (hdecode : Utf8.decode bytes = .ok text)
      (hfails : engine start.disk start.home (Text.unifyLineBreaks text)
        (contextOf start settings request project name) = .error failure)
      (hfault : failure.templateFault? = none) :
      Unforeseen start settings templates path request failure
  /-- The component could be added, but the path to the snapshots has a null character. -/
  | backup {project : Project} {name content : Text} (hfound : Finds start settings path project)
      (hname : resolveName settings request = .ok name)
      (hnew : start.disk.pathExists start.home
        (componentPath (settings.sourceRoot path) request.kind name) = .ok false)
      (hoffer : templates.offer start.disk start.home request.kind
        (contextOf start settings request project name) = .ok content)
      (hnul : (settings.backupRoot path).hasNul = true) :
      Unforeseen start settings templates path request (.access .nullCharacter)

/-- What escapes from planning in a project is a name or a path that is too long, a template that is no text, or a
failure of its engine. -/
theorem unforeseen_of_planned (hfound : Finds start settings path project)
    (h : planned start settings templates request project = .error (.escaped failure)) :
    Unforeseen start settings templates path request failure := by
  rcases bind_eq_error.mp h with hname | ⟨name, hname, h⟩
  · -- a name that is refused is an orderly end
    obtain ⟨refusal, -, hstopped⟩ := mapError_eq_error.mp hname
    cases hstopped
  have hresolved := mapError_eq_ok.mp hname
  rw [hfound.sourceRoot_eq] at h
  -- next is the look for the component, which fails for what is too long only
  rcases bind_eq_error.mp h with hchecked | ⟨⟨⟩, hchecked, h⟩
  · obtain ⟨fault, hlook, rfl⟩ := checked_eq_escaped.mp hchecked
    obtain ⟨hnul, hlong, rfl⟩ := (pathExists_componentPath_eq_error_iff
      (slash_notMem_fileName hresolved request.kind) hfound.isDirectory (hfound.fits _)).mp hlook
    exact .component hfound hresolved hnul hlong
  rcases bind_eq_error.mp h with hprepared | ⟨component, -, hmade⟩
  · obtain ⟨hgenerated, hfault⟩ := prepared_eq_escaped.mp hprepared
    rcases bind_eq_error.mp hgenerated with hoffer | ⟨content, -, hmade⟩
    · rcases (offer_eq_error_iff hfault).mp hoffer with
        ⟨folder, engine, bytes, hfolder, hread, ⟨fault, hdecode, rfl⟩ | ⟨text, hdecode, hfails⟩⟩
      · exact .template hfound hresolved (checked_eq_ok.mp hchecked) hfolder hread hdecode
      · exact .engine hfound hresolved (checked_eq_ok.mp hchecked) hfolder hread hdecode hfails hfault
    · cases hmade
  · cases hmade

theorem endsIn_makeFreshDirectory {root : Path} (h : root.hasNul = true) (name : Text) :
    EndsIn start (makeFreshDirectory root name) (.error (.access .nullCharacter)) := by
  intro session hs
  have hrun : (makeFreshDirectory root name).run session
      = ((session.disk.makeFreshDirectory session.home root name).1.mapError .access,
        { session with disk := (session.disk.makeFreshDirectory session.home root name).2 }) := rfl
  rw [makeFreshDirectory_of_hasNul h] at hrun
  exact ⟨session, hrun, hs⟩

/-- No stage expects a null character in the path to the snapshots. -/
theorem endsIn_backUp (h : (settings.backupRoot project.path).hasNul = true) :
    EndsIn start (backUp settings project) (.error (.escaped (.access .nullCharacter))) := by
  have htake : EndsIn start (Snapshot.take settings project) (.error (.access .nullCharacter)) := by
    rw [Snapshot.take]
    refine EndsIn.get_bind fun session _ => .error_bind ?_
    exact (endsIn_makeFreshDirectory h _).mapFailure _
  rw [backUp]
  exact .ok_bind (endsIn_report _ _) (.ok_bind htake.outcome (.throw _))

/-- What escapes from carrying out a plan is a null character in the path to the snapshots. -/
theorem carryOut_eq_escaped_iff {made : Plan} (ht : IsTree start.disk start.home)
    (hready : IsReady start settings path request made) (hs : session.store = start) :
    ((carryOut settings request made).run session).1 = .error (.escaped failure) ↔
      (settings.backupRoot path).hasNul = true ∧ failure = .access .nullCharacter := by
  rw [carryOut_eq_bind]
  constructor
  · intro h
    rcases run_bind_eq_error.mp h with hbackUp | ⟨snapshot, after, hrun, hfinish⟩
    · exact ((spec_backUp ht hready).run_error hs hbackUp).2.2 failure rfl
    · -- with a snapshot at hand every failure is answered by going back to it, and is an orderly end
      obtain ⟨-, run, hgrounded, rfl, hworking⟩ := (spec_backUp ht hready).ok hs hrun
      obtain ⟨written, -, stop, hstop, -⟩ := (spec_finish hready hgrounded).run_error hworking hfinish
      cases hstop
  · rintro ⟨hnul, rfl⟩
    rw [← hready.detected.path_eq] at hnul
    exact (endsIn_backUp hnul).error_bind.run_fst hs

theorem unforeseen_of_plan
    (h : ((plan settings templates path request).run session).1 = .error (.escaped failure)) :
    Unforeseen session.store settings templates path request failure := by
  by_cases hread : ∃ cause,
      IsExhausting session.store.disk session.store.home session.store.nesting settings path cause
  · obtain ⟨cause, hread⟩ := hread
    rw [(endsIn_plan_of_failure (endsIn_findProject_of_isExhausting hread)).run_fst rfl] at h
    obtain rfl := AddFailure.escaped.inj (Except.error.inj h)
    exact .manifest hread
  have hread := not_exists.mp hread
  by_cases hfound : ∃ project, Finds session.store settings path project
  · obtain ⟨project, hfound⟩ := hfound
    rw [(endsIn_plan hfound templates request).run_fst rfl] at h
    exact unforeseen_of_planned hfound h
  · have hfound := not_exists.mp hfound
    rw [(endsIn_plan_of_failure (endsIn_findProject_of_not hread hfound)).run_fst rfl] at h
    split at h
    · rename_i hnul
      obtain rfl := AddFailure.escaped.inj (Except.error.inj h)
      exact .directory hread hfound hnul
    · cases h

theorem unforeseen_of_carryOut {made : Plan} {after : Session} (ht : IsTree session.disk session.home)
    (hplan : (plan settings templates path request).run session = (.ok made, after))
    (h : ((carryOut settings request made).run after).1 = .error (.escaped failure)) :
    Unforeseen session.store settings templates path request failure := by
  obtain ⟨manifest, hproject, hnamed⟩ := spec_plan_isProject.ok rfl hplan
  have hfound : Finds session.store settings path _ := ⟨manifest, hproject, hnamed, rfl⟩
  obtain ⟨hstore, hready⟩ := spec_plan.ok rfl hplan
  -- a plan was made, so that nothing but the snapshot can be in the way
  have hplanned := (endsIn_plan hfound templates request).run_fst rfl
  rw [hplan] at hplanned
  obtain ⟨name, content, hname, hnew, hoffer⟩ := exists_planned_iff.mp ⟨made, hplanned.symm⟩
  obtain ⟨hnul, rfl⟩ := (carryOut_eq_escaped_iff ht hready hstore).mp h
  exact .backup hfound hname hnew hoffer hnul

/-- What the source of templates fails with escapes, unless it is a fault of a template. -/
theorem escapes_of_offer (hfound : Finds session.store settings path project)
    (hname : resolveName settings request = .ok name)
    (hnew : session.store.disk.pathExists session.store.home
      (componentPath (settings.sourceRoot path) request.kind name) = .ok false)
    (hoffer : templates.offer session.store.disk session.store.home request.kind
      (contextOf session.store settings request project name) = .error failure)
    (hfault : failure.templateFault? = none) :
    ((plan settings templates path request).run session).1 = .error (.escaped failure) := by
  have hgenerated : generated session.store settings templates project request name = .error failure :=
    bind_eq_error.mpr (.inl hoffer)
  rw [(endsIn_plan hfound templates request).run_fst rfl, planned_of_name hname, hfound.sourceRoot_eq,
    checked_eq_ok.mpr hnew, hgenerated, prepared_eq_escaped.mpr ⟨rfl, hfault⟩]
  rfl

/-- What is unforeseen escapes. -/
theorem Unforeseen.escapes (h : Unforeseen session.store settings templates path request failure)
    (ht : IsTree session.disk session.home) :
    ((add settings templates path request).run session).1 = .error (.escaped failure) := by
  rw [add_eq_bind, run_bind_eq_error]
  -- all but the last escape from planning, the last one from a plan that is carried out
  cases h with
  | manifest hread => exact .inl ((endsIn_plan_of_failure (endsIn_findProject_of_isExhausting hread)).run_fst rfl)
  | directory hread hnone hnul =>
    refine .inl ?_
    rw [(endsIn_plan_of_failure (endsIn_findProject_of_not hread hnone)).run_fst rfl, if_pos hnul]
  | component hfound hname hnul hlong =>
    have hlook := (pathExists_componentPath_eq_error_iff (slash_notMem_fileName hname request.kind)
      hfound.isDirectory (hfound.fits _)).mpr ⟨hnul, hlong, rfl⟩
    refine .inl ?_
    rw [(endsIn_plan hfound templates request).run_fst rfl, planned_of_name hname, hfound.sourceRoot_eq,
      checked_eq_escaped.mpr ⟨_, hlook, rfl⟩]
    rfl
  | template hfound hname hnew htemplates hread hdecode =>
    exact .inl (escapes_of_offer hfound hname hnew
      ((offer_eq_error_iff rfl).mpr ⟨_, _, _, htemplates, hread, .inl ⟨_, hdecode, rfl⟩⟩) rfl)
  | engine hfound hname hnew htemplates hread hdecode hfails hfault =>
    exact .inl (escapes_of_offer hfound hname hnew
      ((offer_eq_error_iff hfault).mpr ⟨_, _, _, htemplates, hread, .inr ⟨_, hdecode, hfails⟩⟩) hfault)
  | backup hfound hname hnew hoffer hnul =>
    rw [← hfound.sourceRoot_eq] at hnew
    obtain ⟨made, hmade⟩ := exists_planned_iff.mpr ⟨_, _, hname, hnew, hoffer⟩
    obtain ⟨after, hplan, hstore⟩ := hmade ▸ endsIn_plan hfound templates request session rfl
    obtain ⟨-, hready⟩ := spec_plan.ok rfl hplan
    exact .inr ⟨made, after, hplan, (carryOut_eq_escaped_iff ht hready hstore).mpr ⟨hnul, rfl⟩⟩

/-- What has to hold for the failures on a disk to be known: it is a tree of files and directories, and the texts of
the manifest are Unicode. Half a surrogate pair in one of them can be read and not be printed; that is a failure of
`Crew.report`. -/
structure IsPlain (start : Store) (settings : Settings) (path : Path) : Prop where
  /-- The disk is a tree. -/
  isTree : IsTree start.disk start.home
  /-- No half of a surrogate pair is in the manifest. -/
  whole : IsWhole start.disk start.home start.nesting settings path

/-- A request for a tool whose name is taken as it is, and is too long for a file. -/
def longTool : Request := ⟨.tool, List.replicate 300 'x', [], [], true⟩

theorem finds_plainProject : ∃ project, Finds plainSession.store Settings.default (.ofText ".") project := by
  have hvalid : ((detect Settings.default (.ofText ".")).run plainSession).1.map (·.isValid) = .ok true := by
    decide +kernel
  cases hrun : (detect Settings.default (.ofText ".")).run plainSession with
  | mk result after =>
    rw [hrun] at hvalid
    cases result with
    | error failure => cases hvalid
    | ok project =>
      obtain ⟨manifest, hproject, hnamed⟩ := ((spec_detect.ok rfl hrun).2 (Except.ok.inj hvalid)).2
      exact ⟨_, manifest, hproject, hnamed, rfl⟩

theorem isPlain_plainSession : IsPlain plainSession.store Settings.default (.ofText ".") :=
  ⟨isTree_plainProject, isWhole_of_readFile
    "\x7b\"dependencies\":\x7b\"@modelcontextprotocol/sdk\":0\x7d\x7d" (by decide +kernel) (by decide +kernel)⟩

end ComponentKit.Workflow
