import ComponentKit.CommandLine.Display
import ComponentKit.Settings.Environment
import ComponentKit.Settings.Storage

/-!
# Running a command

From a command line to an exit status. A command that fails in a way that it expects says so on the
screen and ends with a status; what it does not expect ends the run without one.

What a command works with is its `Tools`. `Tools.over` has the workflows of this library, over a console with any theme
and with any wording; `run` is `runWith` the `Tools.standard`.
-/

namespace ComponentKit.CommandLine

open Step Text Workflow

/-! ## Endings -/

/-- What ends a run without an exit status. -/
inductive Crash where
  /-- A failure that no command expects. -/
  | failure (cause : Failure)
  /-- A request with faulty fields. -/
  | request (faults : List Record.Fault)
  deriving DecidableEq, Repr

/-- The message for a crash. -/
def Crash.message : Crash → Text
  | failure cause => cause.message
  | request faults =>
    join "\n" (faults.map fun fault => concat [fault.field, ": ", fault.problem.message])

/-- How a run ends. -/
inductive Ending where
  /-- The command ran to its end. -/
  | finished (status : Nat)
  /-- The command line was refused. -/
  | refused (refusal : Refusal)
  /-- The command did not run to its end. -/
  | crashed (crash : Crash)
  deriving DecidableEq, Repr

/-! ## Settings -/

/-- Why there are no settings. -/
inductive SettingsProblem where
  /-- The settings file cannot be read. -/
  | file (failure : Failure)
  /-- The settings file cannot be used. -/
  | content (fault : Settings.Fault)
  /-- A variable of the environment cannot be used. -/
  | word (fault : UnknownWord)
  deriving DecidableEq, Repr

/-- The message for a problem with the settings. -/
def SettingsProblem.message : SettingsProblem → Text
  | file failure => failure.message
  | content fault => fault.message
  | word fault => fault.message

/-- The settings of a run, before the options of the command line. -/
def baseSettings (environment : Environment) (settingsFile : Text) :
    Step SettingsProblem Settings := do
  if settingsFile.isEmpty then
    ofResult ((Settings.ofEnvironment environment).mapError .word)
  else
    (Settings.load (Path.ofText settingsFile)).mapFailure (Sum.elim .file .content)

/-- The settings of a run: the `baseSettings` with the options of the command line. -/
def settingsFor (environment : Environment) (shared : SharedArguments)
    (style : Option RegistryStyle) : Step SettingsProblem Settings := do
  let base ← baseSettings environment shared.settingsFile
  return { base with
    verbose := base.verbose || shared.verbose
    registryStyle := style.getD base.registryStyle }

/-- Makes a run as talkative as its settings want. -/
def adopt (settings : Settings) : Step Failure Unit :=
  modify fun session => { session with verbose := settings.verbose }

/-! ## Tools -/

/-- What a command works with. -/
structure Tools where
  /-- How the console shows marked-up text. -/
  draw : Text → Except Failure Text
  /-- The message for a problem with the settings. -/
  wording : SettingsProblem → Text
  /-- The details of a stop. -/
  details : Stop → Text
  /-- Adds a component to the project in a directory. -/
  add : Settings → Path → Request → Step AddFailure Added
  /-- Lists the components of the project in a directory. -/
  list : Settings → Path → Step Failure (Option Listing)

/-- The workflows of this library, over a console with a theme. -/
def Tools.over (theme : Console.Theme) (wording : SettingsProblem → Text) (details : Stop → Text) : Tools where
  draw := drawIn theme
  wording := wording
  details := details
  add settings := Workflow.add settings .bundled
  list := Workflow.list

/-- The tools of this library. -/
def Tools.standard : Tools :=
  .over .basic SettingsProblem.message CommandLine.details

variable (tools : Tools)

/-- Prints why there are no settings. -/
def printSettingsProblem (problem : SettingsProblem) : Step Failure Unit :=
  printError tools.draw (concat ["Error: cannot load configuration: ", tools.wording problem])

/-! ## Commands -/

/-- A step in which every failure is a crash. -/
def orCrash {α : Type} (step : Step Failure α) : Step Crash α :=
  step.mapFailure .failure

/-- The `Request` that the arguments of a command make. -/
def requestOf (kind : Kind) (arguments : AddArguments) : Except Crash Request :=
  match arguments.name with
  | some name =>
    .ok ⟨kind, name, arguments.description, arguments.author, arguments.skipValidation⟩
  | none => .error (.request [⟨"name", .textExpected⟩])

/-- Adds a component, and returns the exit status. -/
def runAdd (environment : Environment) (arguments : AddArguments) : Step Crash Nat := do
  match ← outcome (settingsFor environment arguments.shared arguments.registryStyle) with
  | .error problem =>
    orCrash (printSettingsProblem tools problem)
    return 1
  | .ok settings =>
    match Kind.ofInput? arguments.kind with
    | none =>
      orCrash (printError tools.draw (concat ["Error: ", Kind.unknownInputMessage arguments.kind]))
      return 1
    | some kind =>
      let request ← ofResult (requestOf kind arguments)
      let project := Path.ofText arguments.shared.path
      orCrash (adopt settings)
      match ← outcome (tools.add settings project request) with
      | .ok added =>
        orCrash (printAdded tools.draw added project)
        return 0
      | .error (.stopped stop) =>
        orCrash (printStop tools.draw stop (tools.details stop) settings.verbose)
        return 1
      | .error (.escaped failure) => throw (.failure failure)

/-- Lists components, and returns the exit status. -/
def runList (environment : Environment) (arguments : SharedArguments) : Step Failure Nat := do
  match ← outcome (settingsFor environment arguments none) with
  | .error problem =>
    printSettingsProblem tools problem
    return 0
  | .ok settings =>
    adopt settings
    match ← tools.list settings (Path.ofText arguments.path) with
    | none => printError tools.draw "Not a valid MCP server project"
    | some listing => printListing tools.draw listing
    return 0

/-- Runs a command by `runAdd` or `runList`, and returns the exit status. -/
def runCommand (environment : Environment) : Command → Step Crash Nat
  | .add arguments => runAdd tools environment arguments
  | .list arguments => orCrash (runList tools environment arguments)

/-- Runs the command that `Command.ofLine` reads from a command line. -/
def runWith (line : List Text) (environment : Environment) (session : Session) : Ending × Session :=
  match Command.ofLine line with
  | .error refusal => (.refused refusal, session)
  | .ok command =>
    match (runCommand tools environment command).run session with
    | (.ok status, session) => (.finished status, session)
    | (.error crash, session) => (.crashed crash, session)

/-- Runs a command line with `Tools.standard`. -/
def run : List Text → Environment → Session → Ending × Session :=
  runWith .standard

/-- The exit status of a run, if it has one. -/
def Ending.status? : Ending → Option Nat
  | finished status => some status
  | refused refusal => some refusal.status
  | crashed _ => none

end ComponentKit.CommandLine
