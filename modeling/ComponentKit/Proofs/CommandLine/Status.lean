import ComponentKit.Proofs.CommandLine.Display

/-!
# How a run ends

The `course` of a command says what it comes to before anything is printed. A run that reads its command line ends
with an exit status, unless its course breaks off - the end of the options stands for the name of a component, or
adding or listing fails as no command expects - or the console refuses one of the marked-up texts that the course
has printed. This holds of any `Tools`. With the workflows of this library, over a console with any `Theme`, it
takes a closing tag in a text that the command was given for a refusal.
-/

namespace ComponentKit.CommandLine

open Console Step Text Workflow

variable {ε : Type} {tools : Tools} {session after : Session} {environment : Environment} {settings : Settings}
  {request : Request} {added : Added} {cause : Prop} {P : Nat → Prop} {command : Command}

/-! ## Ends -/

/-- Whether a step ends with a status for which `P` holds, or else fails for a `cause`. -/
structure EndsUnless (step : Step ε Nat) (session : Session) (P : Nat → Prop) (cause : Prop) : Prop where
  /-- The statuses with which the step may end. -/
  status : ∀ {status}, (step.run session).1 = .ok status → P status
  /-- The step fails for the cause, and for nothing else. -/
  fails_iff : Fails step session ↔ cause

namespace EndsUnless

variable {ε' α : Type} {before : Step ε Unit} {first : Step ε' α} {step : Step ε Nat} {n : Nat}

/-- A status behind a step that does not fail but for the cause. -/
theorem behind (h : Fails before session ↔ cause) (hn : P n) :
    EndsUnless (before >>= fun _ => pure n) session P cause := by
  refine ⟨fun {status} hrun => ?_, ?_⟩
  · obtain ⟨value, middle, -, hpure⟩ := run_bind_eq_ok.mp (Prod.ext hrun rfl)
    obtain ⟨rfl, -⟩ := run_pure_eq_ok.mp hpure
    exact hn
  · rw [← h]
    refine exists_congr fun failure => run_bind_eq_error.trans (or_iff_left ?_)
    rintro ⟨value, middle, -, hpure⟩
    cases hpure

theorem throw (failure : ε) (h : cause) : EndsUnless (throw failure : Step ε Nat) session P cause :=
  ⟨fun hrun => (by cases hrun), iff_of_true ⟨failure, rfl⟩ h⟩

theorem fails {α : Type} {before : Step ε α} {next : α → Step ε Nat} {failure : ε}
    (hrun : before.run session = (.error failure, after)) (h : cause) :
    EndsUnless (before >>= next) session P cause := by
  have herror : ((before >>= next).run session).1 = .error failure :=
    run_bind_eq_error.mpr (.inl (congrArg Prod.fst hrun))
  exact ⟨fun hstatus => (by rw [herror] at hstatus; cases hstatus), iff_of_true ⟨failure, herror⟩ h⟩

theorem mapFailure {f : ε → ε'} (h : EndsUnless step session P cause) :
    EndsUnless (step.mapFailure f) session P cause := by
  refine ⟨fun hrun => ?_, fails_mapFailure.trans h.fails_iff⟩
  rw [run_mapFailure] at hrun
  exact h.status (mapError_eq_ok.mp hrun)

/-- What follows a step goes on from where it ended. -/
theorem bind {before : Step ε α} {next : α → Step ε Nat} {value : α}
    (hrun : before.run session = (.ok value, after)) (h : EndsUnless (next value) after P cause) :
    EndsUnless (before >>= next) session P cause := by
  refine ⟨fun hstatus => ?_, ?_⟩
  · rw [run_bind_of_ok hrun] at hstatus
    exact h.status hstatus
  · rw [← h.fails_iff, Fails, Fails, run_bind_of_ok hrun]

theorem bind_outcome {next : Except ε' α → Step ε Nat} {result : Except ε' α}
    (hrun : first.run session = (result, after)) (h : EndsUnless (next result) after P cause) :
    EndsUnless (outcome first >>= next) session P cause := by
  have houtcome : (outcome first : Step ε _).run session = (.ok result, after) := by
    show (Except.ok (first.run session).1, (first.run session).2) = _
    rw [hrun]
  exact bind houtcome h

end EndsUnless

/-! ## Courses -/

/-- A session whose run is as talkative as its settings want, as `adopt` leaves it. -/
def adopted (settings : Settings) (session : Session) : Session :=
  { session with verbose := settings.verbose }

/-- The style of the registries that a command asks for. -/
def Command.style? : Command → Option RegistryStyle
  | add arguments => arguments.registryStyle
  | list _ => none

/-- The settings of a command, or why there are none, as `settingsFor` gives them. -/
def loaded (environment : Environment) (session : Session) (command : Command) : Except SettingsProblem Settings :=
  ((settingsFor environment command.shared command.style?).run session).1

/-- Whether the manifest that a command looks for is whole (`Project.IsWhole`), so that a console can show its texts.
-/
def HasWholeManifest (environment : Environment) (session : Session) (command : Command) : Prop :=
  ∀ settings, loaded environment session command = .ok settings →
    Project.IsWhole session.disk session.home session.nesting settings (Path.ofText command.shared.path)

/-- What a command comes to before anything is printed. -/
inductive Course where
  /-- There are no settings. -/
  | unset (problem : SettingsProblem)
  /-- The kind does not exist. -/
  | unknownKind (word : Text)
  /-- The end of the options stands for the name of the component. -/
  | unnamed
  /-- A component was added. -/
  | added (added : Added) (project : Path)
  /-- Nothing was added. -/
  | stopped (stop : Stop) (verbose : Bool)
  /-- Adding a component failed as no stage expects. -/
  | escaped (failure : Failure)
  /-- There is no project. -/
  | noProject
  /-- Components were listed. -/
  | listed (listing : Listing)
  /-- Listing components failed. -/
  | unlisted (failure : Failure)

/-- The course of adding a component for a request, by how `tools.add` ends. -/
def courseOfAdd (tools : Tools) (settings : Settings) (session : Session) (arguments : AddArguments)
    (request : Request) : Course :=
  let project := Path.ofText arguments.shared.path
  match ((tools.add settings project request).run (adopted settings session)).1 with
  | .ok added => .added added project
  | .error (.stopped stop) => .stopped stop settings.verbose
  | .error (.escaped failure) => .escaped failure

/-- The course of listing components, by how `tools.list` ends. -/
def courseOfList (tools : Tools) (settings : Settings) (session : Session) (arguments : SharedArguments) : Course :=
  match ((tools.list settings (Path.ofText arguments.path)).run (adopted settings session)).1 with
  | .ok (some listing) => .listed listing
  | .ok none => .noProject
  | .error failure => .unlisted failure

/-- The course of a command. -/
def course (tools : Tools) (environment : Environment) (session : Session) (command : Command) : Course :=
  match loaded environment session command with
  | .error problem => .unset problem
  | .ok settings =>
    match command with
    | .list arguments => courseOfList tools settings session arguments
    | .add arguments =>
      match Kind.ofInput? arguments.kind with
      | none => .unknownKind arguments.kind
      | some kind =>
        match requestOf kind arguments with
        | .error _ => .unnamed
        | .ok request => courseOfAdd tools settings session arguments request

namespace Course

/-- Whether a course breaks off, so that its command cannot go on and prints nothing. -/
def breaksOff : Course → Bool
  | .unnamed => true
  | .escaped _ => true
  | .unlisted _ => true
  | _ => false

/-- The marked-up texts that are printed at the end of a course. -/
def markups (tools : Tools) : Course → List Text
  | .unset problem => [styled "bold red" (concat ["Error: cannot load configuration: ", tools.wording problem])]
  | .unknownKind word => [styled "bold red" (concat ["Error: ", Kind.unknownInputMessage word])]
  | .added result project => addedMarkups result project
  | .stopped stop verbose => stopMarkups stop (tools.details stop) verbose
  | .noProject => [styled "bold red" "Not a valid MCP server project"]
  | .listed listing => listingMarkups listing
  | _ => []

/-- The texts that a course was given for what it prints. -/
def given (tools : Tools) : Course → List Text
  | .unset problem => [tools.wording problem]
  | .unknownKind word => [Kind.unknownInputMessage word]
  | .added result project =>
    [result.projectName, (createdPath result project).toText, result.snapshot.directory.toText]
  | .stopped stop verbose => stop.message :: if verbose then [tools.details stop] else []
  | .listed listing => listing.projectName :: listing.components.flatMap (·.2)
  | _ => []

/-- Whether a course is cut off: it `breaksOff`, or the console refuses one of its `markups`. -/
def IsCutOff (tools : Tools) (course : Course) : Prop :=
  course.breaksOff = true ∨ ∃ markup ∈ course.markups tools, Refuses tools.draw markup

theorem isCutOff_iff {course : Course} (h : course.breaksOff = false) :
    course.IsCutOff tools ↔ ∃ markup ∈ course.markups tools, Refuses tools.draw markup := by
  rw [IsCutOff, h]
  exact or_iff_right Bool.false_ne_true

end Course

/-! ## Commands -/

/-- Settings are looked for without any change. -/
theorem run_settingsFor (command : Command) :
    (settingsFor environment command.shared command.style?).run session
      = (loaded environment session command, session) := by
  refine Prod.ext rfl ?_
  rw [settingsFor, run_bind]
  -- the file is read at most, whatever comes of it
  have hbase : ((baseSettings environment command.shared.settingsFile).run session).2 = session := by
    rw [baseSettings]
    split
    · rfl
    · rw [run_mapFailure, Settings.load, run_bind, run_mapFailure]
      generalize Path.ofText command.shared.settingsFile = file
      cases ((inspect fun disk home => disk.readFile home file).run session).1 <;> rfl
  cases hrun : (baseSettings environment command.shared.settingsFile).run session with
  | mk result after =>
    rw [hrun] at hbase
    cases result with
    | ok base => exact hbase
    | error problem => exact hbase

theorem fails_orCrash {before : Step Failure Unit} : Fails (orCrash before) session ↔ Fails before session :=
  fails_mapFailure

/-- What is printed behind a course decides whether it is cut off, if it does not break off. -/
theorem EndsUnless.of_markups {before : Step Failure Unit} {course : Course} {n : Nat}
    (hbefore : FailsOver tools.draw before (course.markups tools)) (hcourse : course.breaksOff = false) (hn : P n) :
    EndsUnless (before >>= fun _ => pure n) session P (course.IsCutOff tools) :=
  .behind ((hbefore session).trans (Course.isCutOff_iff hcourse).symm) hn

/-- The same of printing that fails with a crash. -/
theorem EndsUnless.orCrash_of_markups {before : Step Failure Unit} {course : Course} {n : Nat}
    (hbefore : FailsOver tools.draw before (course.markups tools)) (hcourse : course.breaksOff = false) (hn : P n) :
    EndsUnless (orCrash before >>= fun _ => pure n) session P (course.IsCutOff tools) :=
  .behind (fails_orCrash.trans ((hbefore session).trans (Course.isCutOff_iff hcourse).symm)) hn

/-- Adding a component for a request ends with the status 0 or 1. -/
theorem endsUnless_runAdd (environment : Environment) (arguments : AddArguments) (session : Session) :
    EndsUnless (runAdd tools environment arguments) session (· ≤ 1)
      ((course tools environment session (.add arguments)).IsCutOff tools) := by
  rw [runAdd, course]
  -- settings, kind and name in the order in which the command asks for them
  refine .bind_outcome (run_settingsFor (.add arguments)) ?_
  cases loaded environment session (.add arguments) with
  | error problem => exact .orCrash_of_markups (failsOver_printStyled _ _) rfl le_rfl
  | ok settings =>
    dsimp only
    cases Kind.ofInput? arguments.kind with
    | none => exact .orCrash_of_markups (failsOver_printStyled _ _) rfl le_rfl
    | some kind =>
      dsimp only
      cases requestOf kind arguments with
      | error crash => exact .throw crash (.inl rfl)
      | ok request =>
        have hadopt : (orCrash (adopt settings)).run session = (.ok (), adopted settings session) := rfl
        refine .bind rfl (.bind hadopt ?_)
        -- what is printed depends on how adding the component ends
        dsimp only [courseOfAdd]
        cases hend : (tools.add settings (Path.ofText arguments.shared.path) request).run
          (adopted settings session) with
        | mk result after =>
          refine .bind_outcome hend ?_
          cases result with
          | ok added => exact .orCrash_of_markups (failsOver_printAdded _ _) rfl zero_le_one
          | error failure =>
            cases failure with
            | stopped stop => exact .orCrash_of_markups (failsOver_printStop _ _ _) rfl le_rfl
            | escaped failure => exact .throw _ (.inl rfl)

/-- Listing components ends with the status 0. -/
theorem endsUnless_runList (environment : Environment) (arguments : SharedArguments) (session : Session) :
    EndsUnless (runList tools environment arguments) session (· = 0)
      ((course tools environment session (.list arguments)).IsCutOff tools) := by
  rw [runList, course]
  refine .bind_outcome (run_settingsFor (.list arguments)) ?_
  cases loaded environment session (.list arguments) with
  | error problem => exact .of_markups (failsOver_printStyled _ _) rfl rfl
  | ok settings =>
    have hadopt : (adopt settings).run session = (.ok (), adopted settings session) := rfl
    refine .bind hadopt ?_
    dsimp only [courseOfList]
    cases hlist : (tools.list settings (Path.ofText arguments.path)).run (adopted settings session) with
    | mk result after =>
      cases result with
      | error failure => exact .fails hlist (.inl rfl)
      | ok found =>
        refine .bind hlist ?_
        cases found with
        | none => exact .of_markups (failsOver_printStyled _ _) rfl rfl
        | some listing => exact .of_markups (failsOver_printListing _) rfl rfl

/-! ## Consoles with a theme -/

/-- A component is added under a name without a slash. -/
theorem slash_notMem_of_add {templates : TemplateSource} {path : Path}
    (h : ((Workflow.add settings templates path request).run session).1 = .ok added) : '/' ∉ added.name := by
  intro hmem
  have hname : resolveName settings request = .ok added.name := spec_add_name.ok rfl (Prod.ext h rfl)
  exact absurd (isUnsafe_of_resolveName hname '/' hmem) (by decide)

/-- A name that is added in some course has no slash. -/
theorem slash_notMem_of_course {theme : Theme} {wording : SettingsProblem → Text} {details : Stop → Text}
    {project : Path} (h : course (.over theme wording details) environment session command = .added added project) :
    '/' ∉ added.name := by
  rw [course] at h
  split at h
  · cases h
  cases command with
  | list arguments =>
    -- listing adds nothing
    dsimp only [courseOfList] at h
    split at h <;> cases h
  | add arguments =>
    dsimp only [courseOfAdd] at h
    split at h
    · cases h
    split at h
    · cases h
    split at h
    · rename_i hend
      obtain ⟨rfl, -⟩ := Course.added.inj h
      exact slash_notMem_of_add hend
    · cases h
    · cases h

/-- A course of the workflows of this library is cut off only if it breaks off, or for a closing tag in a text that it
was given. -/
theorem hasClosing_of_isCutOff {theme : Theme} {wording : SettingsProblem → Text} {details : Stop → Text}
    (h : (course (.over theme wording details) environment session command).IsCutOff (.over theme wording details)) :
    (course (.over theme wording details) environment session command).breaksOff = true ∨
      ∃ text ∈ (course (.over theme wording details) environment session command).given (.over theme wording details),
        HasClosing text := by
  refine h.imp_right fun hrefused => ?_
  have hname (added : Added) (project : Path)
      (hadded : course (.over theme wording details) environment session command = .added added project) :=
    slash_notMem_of_course hadded
  generalize course (.over theme wording details) environment session command = course at hrefused hname ⊢
  cases course with
  | unset | unknownKind =>
    obtain ⟨markup, hmem, hrefused⟩ := hrefused
    obtain rfl := List.mem_singleton.mp hmem
    exact ⟨_, List.mem_singleton_self _, hasClosing_of_refuses_message (by decide) hrefused⟩
  | added added project =>
    rcases hasClosing_of_added (hname added project rfl) hrefused with h | h | h
    · exact ⟨_, .head _, h⟩
    · exact ⟨_, .tail _ (.head _), h⟩
    · exact ⟨_, .tail _ (.tail _ (.head _)), h⟩
  | stopped stop verbose =>
    rcases hasClosing_of_stop hrefused with h | ⟨rfl, h⟩
    · exact ⟨_, .head _, h⟩
    · exact ⟨_, .tail _ (.head _), h⟩
  | noProject =>
    obtain ⟨markup, hmem, hrefused⟩ := hrefused
    obtain rfl := List.mem_singleton.mp hmem
    exact absurd (hasClosing_of_refuses_styled (by rfl) hrefused) (not_hasClosing_of_notMem (by decide))
  | listed listing =>
    rcases hasClosing_of_listing hrefused with h | ⟨entry, hentry, name, hname, h⟩
    · exact ⟨_, .head _, h⟩
    · exact ⟨name, .tail _ (List.mem_flatMap.mpr ⟨entry, hentry, hname⟩), h⟩
  | unnamed | escaped | unlisted =>
    obtain ⟨markup, hmem, -⟩ := hrefused
    cases hmem

/-! ## Runs -/

theorem EndsUnless.status?_runWith {line : List Text} (hline : Command.ofLine line = .ok command)
    (h : EndsUnless (runCommand tools environment command) session P cause) :
    (∀ status, (runWith tools line environment session).1.status? = some status → P status) ∧
      ((runWith tools line environment session).1.status? = none ↔ cause) := by
  rw [← h.fails_iff, Fails]
  cases hrun : (runCommand tools environment command).run session with
  | mk result after =>
    -- a command that returns gives the status of the run, one that fails leaves it without any
    cases result with
    | ok status =>
      have hstatus : (runWith tools line environment session).1.status? = some status := by
        simp only [runWith, hline, hrun, Ending.status?]
      rw [hstatus]
      refine ⟨fun other hother => ?_, iff_of_false (by rintro ⟨⟩) (by rintro ⟨failure, ⟨⟩⟩)⟩
      obtain rfl := Option.some.inj hother
      exact h.status (congrArg Prod.fst hrun)
    | error crash =>
      have hstatus : (runWith tools line environment session).1.status? = none := by
        simp only [runWith, hline, hrun, Ending.status?]
      rw [hstatus]
      exact ⟨fun status h => (by cases h), iff_of_true rfl ⟨crash, rfl⟩⟩

/-- With any tools a run ends with the status 0, 1 or 2, and with 0 if components are to be listed, unless the course of
its command is cut off: then, and only then, it ends without a status. -/
theorem status_runWith (tools : Tools) (line : List Text) (environment : Environment) (session : Session) :
    (∀ status, (runWith tools line environment session).1.status? = some status → status ≤ 2) ∧
      (∀ arguments status, Command.ofLine line = .ok (.list arguments) →
        (runWith tools line environment session).1.status? = some status → status = 0) ∧
      ((runWith tools line environment session).1.status? = none ↔
        ∃ command, Command.ofLine line = .ok command ∧ (course tools environment session command).IsCutOff tools) := by
  cases hline : Command.ofLine line with
  | error refusal =>
    -- a line that is refused runs no command
    have hrun : (runWith tools line environment session).1.status? = some refusal.status := by
      rw [runWith, hline]
      rfl
    rw [hrun]
    refine ⟨fun status h => ?_, fun arguments status h => (by cases h), iff_of_false (by rintro ⟨⟩) ?_⟩
    · obtain rfl := Option.some.inj h
      cases refusal with
      | help program => exact Nat.zero_le 2
      | misuse program fault => exact le_rfl
    · rintro ⟨command, ⟨⟩, -⟩
  | ok command =>
    have hsome : (∃ other, (Except.ok command : Except Refusal Command) = .ok other ∧
        (course tools environment session other).IsCutOff tools) ↔
          (course tools environment session command).IsCutOff tools := by
      simp
    rw [hsome]
    cases command with
    | add arguments =>
      obtain ⟨hstatus, hnone⟩ := (endsUnless_runAdd environment arguments session).status?_runWith hline
      exact ⟨fun status h => (hstatus status h).trans one_le_two, fun shared status h => (by cases h), hnone⟩
    | list arguments =>
      have hends : EndsUnless (runCommand tools environment (.list arguments)) session _ _ :=
        (endsUnless_runList environment arguments session).mapFailure
      obtain ⟨hstatus, hnone⟩ := EndsUnless.status?_runWith hline hends
      exact ⟨fun status h => (hstatus status h).le.trans zero_le_two, fun _ status _ h => hstatus status h, hnone⟩

/-- With any `Tools` a run ends with the status 0, 1 or 2, and with 0 if components are to be listed, unless the
`course` of its command is cut off: then, and only then, it ends without a status. With the workflows of this library
(`Tools.over`), over a console with any theme and where the manifest is whole, it is cut off only if it breaks off, or
for a closing tag in a text that it was given; and `list` fails exactly if the manifest exhausts its reader. -/
theorem status_run_iff (line : List Text) (environment : Environment) (session : Session) :
    (∀ tools : Tools,
      (∀ status, (runWith tools line environment session).1.status? = some status → status ≤ 2) ∧
        (∀ arguments status, Command.ofLine line = .ok (.list arguments) →
          (runWith tools line environment session).1.status? = some status → status = 0) ∧
        ((runWith tools line environment session).1.status? = none ↔ ∃ command,
          Command.ofLine line = .ok command ∧ (course tools environment session command).IsCutOff tools)) ∧
    (∀ (theme : Theme) (wording : SettingsProblem → Text) (details : Stop → Text) (command : Command),
      HasWholeManifest environment session command →
        let tools := Tools.over theme wording details
        (course tools environment session command).IsCutOff tools →
          (course tools environment session command).breaksOff = true ∨
            ∃ text ∈ (course tools environment session command).given tools, HasClosing text) ∧
    ∀ (settings : Settings) (path : Path) (failure : Failure),
      ((list settings path).run session).1 = .error failure ↔
        Project.IsExhausting session.disk session.home session.nesting settings path failure :=
  ⟨fun tools => status_runWith tools line environment session, fun _ _ _ _ _ h => hasClosing_of_isCutOff h,
    fun _ _ _ => list_eq_error_iff⟩

/-! ### A closing tag in a name -/

/-- A manifest with a name that looks like a tag that closes a style. -/
def closingManifest : Text :=
  "\x7b\"name\":\"[/x]\",\"dependencies\":\x7b\"@modelcontextprotocol/sdk\":0\x7d\x7d"

/-- A session in the project with the `closingManifest`. -/
def closingSession : Session :=
  { plainSession with disk := plainProject.put ["p", "package.json"] (.file (Utf8.encode closingManifest)) }

/-- The name of the project in `closingSession` keeps a run that lists components from a status. -/
theorem status_list_closing : Command.ofLine ["list"] = .ok (.list {}) ∧
    (run ["list"] [] closingSession).1.status? = none ∧ HasWholeManifest [] closingSession (.list {}) ∧
      ∃ text ∈ (course .standard [] closingSession (.list {})).given .standard, HasClosing text := by
  have hline : Command.ofLine ["list"] = .ok (.list {}) := by decide +kernel
  have hstatus : (runWith .standard ["list"] [] closingSession).1.status? = none := by decide +kernel
  have hloaded : loaded [] closingSession (.list {}) = .ok Settings.default := by decide +kernel
  have hwhole : HasWholeManifest [] closingSession (.list {}) := by
    intro settings hsettings
    obtain rfl := Except.ok.inj (hloaded.symm.trans hsettings)
    exact Project.isWhole_of_readFile closingManifest (by decide +kernel) (by decide +kernel)
  have hgoes : (course .standard [] closingSession (.list {})).breaksOff = false := by decide +kernel
  obtain ⟨hstatuses, hclosing, -⟩ := status_run_iff ["list"] [] closingSession
  -- the run has no status, so that its course is cut off, and it does not break off
  obtain ⟨command, hcommand, hcut⟩ := (hstatuses .standard).2.2.mp hstatus
  obtain rfl := Except.ok.inj (hline.symm.trans hcommand)
  refine ⟨hline, hstatus, hwhole, ?_⟩
  exact (hclosing .basic SettingsProblem.message details (.list {}) hwhole hcut).resolve_left
    (Bool.eq_false_iff.mp hgoes)

/-- A kind that does not exist keeps a run from a status, and so does the name of a project that is listed. -/
theorem no_status_closing :
    (run ["add", "[/x]", "weather"] [] plainSession).1.status? = none ∧
      (run ["list"] [] closingSession).1.status? = none := by
  decide +kernel

end ComponentKit.CommandLine
