import ComponentKit.CommandLine.Reading
import ComponentKit.Settings.Basic

/-!
# Commands

The two commands of the program and what they take: `Command.ofLine` reads a command line by `programGrammar` and
then by `addGrammar` or `listGrammar`. A line that gives no command is a `Refusal`.
-/

namespace ComponentKit.CommandLine

open Text

/-- The name of the program. -/
def programName : Text := "mcp-scaffold"

/-! ## Arguments -/

/-- What every command takes. -/
structure SharedArguments where
  /-- Whether details are shown. -/
  verbose : Bool := false
  /-- The directory of the project. -/
  path : Text := "."
  /-- The settings file; without one the environment is asked. -/
  settingsFile : Text := []
  deriving DecidableEq, Repr

/-- What the command that adds a component takes. -/
structure AddArguments where
  /-- What every command takes. -/
  shared : SharedArguments := {}
  /-- The kind of the component. -/
  kind : Text := []
  /-- The name of the component, none if only the end of the options stands for it. -/
  name : Option Text := none
  /-- What the component does. -/
  description : Text := []
  /-- Who makes the component. -/
  author : Text := []
  /-- Whether the name is taken as it is. -/
  skipValidation : Bool := false
  /-- The style of the registries, which goes before that of the settings. -/
  registryStyle : Option RegistryStyle := none
  deriving DecidableEq, Repr

/-- A command with its arguments. -/
inductive Command where
  | add (arguments : AddArguments)
  | list (arguments : SharedArguments)
  deriving DecidableEq, Repr

/-- What a command shares with every other one, as `SharedArguments`. -/
def Command.shared : Command → SharedArguments
  | add arguments => arguments.shared
  | list arguments => arguments

/-- The words for the commands. -/
def commandNames : List Text := ["add", "list"]

/-! ## Grammars -/

/-- The option that asks for help. -/
def helpSwitch {α : Type} : Switch α := ⟨["-h", "--help"], .help⟩

/-- The options of every command, for arguments in which `update` changes the shared ones. -/
def sharedSwitches {α : Type} (update : (SharedArguments → SharedArguments) → α → α) :
    List (Switch α) :=
  [helpSwitch,
    ⟨["--verbose", "-v"], .switch (update fun shared => { shared with verbose := true })⟩,
    ⟨["--path", "-p"], .value [] fun path => update fun shared => { shared with path }⟩,
    ⟨["--config"],
      .value [] fun settingsFile => update fun shared => { shared with settingsFile }⟩]

/-- The grammar of the program: a command with all that belongs to it. -/
def programGrammar : Grammar (List Text) :=
  ⟨[helpSwitch], [⟨"command", .rest commandNames fun words _ => words⟩]⟩

/-- The grammar of the command that adds a component. -/
def addGrammar : Grammar AddArguments where
  switches :=
    sharedSwitches (fun update arguments => { arguments with shared := update arguments.shared })
    ++ [⟨["--description", "-d"],
        .value [] fun description arguments => { arguments with description }⟩,
      ⟨["--author", "-a"], .value [] fun author arguments => { arguments with author }⟩,
      ⟨["--skip-validation"],
        .switch fun arguments => { arguments with skipValidation := true }⟩,
      ⟨["--registry-style"],
        .value (RegistryStyle.all.map (·.name)) fun word arguments =>
          { arguments with registryStyle := RegistryStyle.ofName? word }⟩]
  operands :=
    [⟨"kind", .one fun kind arguments => { arguments with kind := kind.getD [] }⟩,
      ⟨"name", .one fun name arguments => { arguments with name }⟩]

/-- The grammar of the command that lists components. -/
def listGrammar : Grammar SharedArguments :=
  ⟨sharedSwitches id, []⟩

/-! ## Reading -/

/-- Why a command line is no command. -/
inductive Refusal where
  /-- Help is asked for, on the program or one of its commands. -/
  | help (program : Text)
  /-- Something is wrong with the arguments of the program or of one of its commands. -/
  | misuse (program : Text) (fault : Fault)
  deriving DecidableEq, Repr

namespace Refusal

/-- The line that a refused user is shown. -/
def message : Refusal → Text
  | help program => concat ["usage: ", program, " [options]"]
  | misuse program fault => concat [program, ": error: ", fault.message]

/-- The exit status for a refused command line. -/
def status : Refusal → Nat
  | help _ => 0
  | misuse _ _ => 2

/-- The refusal when the arguments of `program` cannot be read. -/
def ofHalt (program : Text) : Halt → Refusal
  | .help => help program
  | .fault fault => misuse program fault

end Refusal

namespace Command

/-- Reads the arguments of a command by `grammar`, with the name that the command goes by. -/
def readArguments {α : Type} (name : Text) (grammar : Grammar α) (initial : α)
    (line leftover : List Text) : Except Refusal α := do
  let (arguments, more) ←
    (grammar.read initial line).mapError (Refusal.ofHalt (concat [programName, " ", name]))
  match leftover ++ more with
  | [] => return arguments
  | unrecognized => throw (.misuse programName (.unrecognized unrecognized))

/-- The command that a command line gives, read by `programGrammar` and then by the grammar of the command. Whatever
nothing takes is reported in the end. -/
def ofLine (line : List Text) : Except Refusal Command := do
  let (words, leftover) ← (programGrammar.read [] line).mapError (Refusal.ofHalt programName)
  let name := words.headD []
  if name = "add".toList then
    return .add (← readArguments name addGrammar {} words.tail leftover)
  else
    return .list (← readArguments name listGrammar {} words.tail leftover)

end Command

end ComponentKit.CommandLine
