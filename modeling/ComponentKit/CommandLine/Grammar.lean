import ComponentKit.Text.Quoted

/-!
# Grammars of command lines

What may stand on a command line: a `Switch`, which begins with a hyphen and may stand anywhere, and an `Operand`,
which stands in a fixed order. Each says how it changes the arguments that are read, a value of any type.
-/

namespace ComponentKit.CommandLine

open Text

/-! ## Options and operands -/

/-- What an option does. -/
inductive Effect (α : Type) where
  /-- It asks for help. -/
  | help
  /-- It stands alone. -/
  | switch (set : α → α)
  /-- It takes a value, which may have to be one of a few words. -/
  | value (choices : List Text) (set : Text → α → α)

/-- Whether an option takes a value. -/
def Effect.takesValue {α : Type} : Effect α → Bool
  | value _ _ => true
  | _ => false

/-- An option. -/
structure Switch (α : Type) where
  /-- The names of the option: words after two hyphens and letters after one. -/
  names : List Text
  /-- What the option does. -/
  effect : Effect α

/-- How an option is named in messages. -/
def Switch.title {α : Type} (switch : Switch α) : Text :=
  join "/" switch.names

/-- What an operand takes. -/
inductive Extent (α : Type) where
  /-- One argument. What is set is none if the argument is only the end of the options. -/
  | one (set : Option Text → α → α)
  /-- All that is left, options and all; the first argument is one of a few words. -/
  | rest (choices : List Text) (set : List Text → α → α)

/-- An operand. Every operand is required. -/
structure Operand (α : Type) where
  /-- The name of the operand, for messages. -/
  name : Text
  /-- What the operand takes. -/
  extent : Extent α

/-- The options and operands of a command. -/
structure Grammar (α : Type) where
  /-- The options. -/
  switches : List (Switch α)
  /-- The operands in order. -/
  operands : List (Operand α)

namespace Grammar

variable {α : Type}

/-- The option with a name. -/
def switch? (grammar : Grammar α) (name : Text) : Option (Switch α) :=
  grammar.switches.find? (·.names.contains name)

/-- The options that a name abbreviates, each with the name that is abbreviated. -/
def abbreviated (grammar : Grammar α) (lead : Text) : List (Text × Switch α) :=
  grammar.switches.flatMap fun switch =>
    (switch.names.filter lead.isPrefixOf).map fun name => (name, switch)

end Grammar

/-! ## Faults -/

/-- What is wrong with a command line. -/
inductive Fault where
  /-- An abbreviation of several options. -/
  | ambiguous (written : Text) (names : List Text)
  /-- An option without its value. -/
  | valueMissing (title : Text)
  /-- A value for an option that takes none. -/
  | valueUnexpected (title value : Text)
  /-- A word that is none of those that an option or operand takes. -/
  | invalidChoice (title value : Text) (choices : List Text)
  /-- Operands that are not there. -/
  | operandsMissing (names : List Text)
  /-- Arguments that nothing takes. -/
  | unrecognized (arguments : List Text)
  deriving DecidableEq, Repr

/-- The message for a fault. -/
def Fault.message : Fault → Text
  | ambiguous written names =>
    concat ["ambiguous option: ", written, " could match ", join ", " names]
  | valueMissing title => concat ["argument ", title, ": expected one argument"]
  | valueUnexpected title value =>
    concat ["argument ", title, ": ignored explicit argument ", quoted value]
  | invalidChoice title value choices =>
    concat ["argument ", title, ": invalid choice: ", quoted value, " (choose from ",
      join ", " (choices.map quoted), ")"]
  | operandsMissing names =>
    concat ["the following arguments are required: ", join ", " names]
  | unrecognized arguments => concat ["unrecognized arguments: ", join " " arguments]

/-- Why the reading of a command line ends before all of it is read. -/
inductive Halt where
  /-- Help is asked for. -/
  | help
  /-- Something is wrong. -/
  | fault (fault : Fault)
  deriving DecidableEq, Repr

end ComponentKit.CommandLine
