import ComponentKit.CommandLine.Token

/-!
# Reading a command line

`read` goes through the arguments from left to right. An option that takes a value and has none attached takes the
next argument, which must not look like an option. Everything else goes to the operands, each of which takes what
it can (`consume`); what nothing takes is left over.
-/

namespace ComponentKit.CommandLine

open Text

variable {α : Type}

/-! ## Options -/

/-- Applies an option. -/
def Switch.apply (switch : Switch α) (value : Option Text) (arguments : α) : Except Halt α :=
  match switch.effect, value with
  | .help, _ => .error .help
  | .switch set, _ => .ok (set arguments)
  | .value _ _, none => .error (.fault (.valueMissing switch.title))
  | .value choices set, some value =>
    if choices.isEmpty || choices.contains value then .ok (set value arguments)
    else .error (.fault (.invalidChoice switch.title value choices))

/-- The options that one argument stands for. -/
structure Bundle (α : Type) where
  /-- The options with their values, in order. -/
  uses : List (Switch α × Option Text)
  /-- What stands for no option. -/
  leftover : Option Text
  /-- Whether the last option takes the next argument as its value. -/
  takesNext : Bool

/-- The value of an option that has to come with the next argument. -/
def nextValue (switch : Switch α) (next : Option Text) : Except Fault (Bundle α) :=
  if switch.effect.takesValue then
    match next with
    | some value => .ok ⟨[(switch, some value)], none, true⟩
    | none => .error (.valueMissing switch.title)
  else .ok ⟨[(switch, none)], none, false⟩

/-- An option with a value after an equals sign. -/
def assigned (switch : Switch α) (value : Text) : Except Fault (Bundle α) :=
  if switch.effect.takesValue then .ok ⟨[(switch, some value)], none, false⟩
  else .error (.valueUnexpected switch.title value)

namespace Grammar

/-- A short option with what follows its letter: its value or, if it takes none, further letters. -/
def bundle (grammar : Grammar α) (next : Option Text) (switch : Switch α) :
    Text → Except Fault (Bundle α)
  | [] => nextValue switch next
  | c :: tail =>
    if c = '=' then assigned switch tail
    else if switch.effect.takesValue then assigned switch (c :: tail)
    else if c = '-' then .error (.valueUnexpected switch.title (c :: tail))
    else match grammar.switch? ['-', c] with
      | none => .ok ⟨[(switch, none)], some ('-' :: c :: tail), false⟩
      | some following => do
        let rest ← grammar.bundle next following tail
        return { rest with uses := (switch, none) :: rest.uses }

/-- The `Bundle` that a token stands for, if it is an option at all. -/
def bundleOf (grammar : Grammar α) (next : Option Text) :
    Token α → Except Fault (Bundle α)
  | .long switch (some value) _ => assigned switch value
  | .long switch none _ => nextValue switch next
  | .short switch tail _ => grammar.bundle next switch tail
  | .unknown written => .ok ⟨[], some written, false⟩
  | .plain _ => .ok ⟨[], none, false⟩
  | .endOfOptions => .ok ⟨[], none, false⟩

end Grammar

/-! ## Operands -/

/-- How many tokens an operand that takes one argument takes: the argument and an end of the options on
one side of it. -/
def extentOfOne : List (Token α) → Nat
  | .endOfOptions :: .plain _ :: _ => 2
  | .plain _ :: .endOfOptions :: _ => 2
  | .plain _ :: _ => 1
  | _ => 0

/-- The value of an operand. The first end of the options in it is dropped, so that one that is all
there is leaves no value. -/
def operandValue (taken : List (Token α)) : Option Text :=
  ((taken.map Token.written).erase endMark).head?

/-- Applies an operand to what it takes. -/
def Operand.apply (operand : Operand α) (taken : List (Token α)) (arguments : α) :
    Except Halt α :=
  match operand.extent with
  | .one set => .ok (set (operandValue taken) arguments)
  | .rest choices set =>
    let written := taken.map Token.written
    let first := written.headD []
    if choices.contains first then .ok (set written arguments)
    else .error (.fault (.invalidChoice operand.name first choices))

/-- How many of the `tokens` an operand takes; none if it has to wait. -/
def Operand.extentIn (operand : Operand α) (tokens : List (Token α)) : Nat :=
  match operand.extent with
  | .one _ => extentOfOne tokens
  | .rest _ _ => if extentOfOne tokens = 0 then 0 else tokens.length

/-! ## The whole line -/

/-- Whether a token is an option. -/
def Token.isOption : Token α → Bool
  | plain _ => false
  | endOfOptions => false
  | _ => true

/-- The argument in front, if it can be the value of an option. -/
def valueInFront : List (Token α) → Option Text
  | .plain written :: _ => some written
  | _ => none

/-- What a command line gave. -/
structure Outcome (α : Type) where
  /-- The arguments. -/
  arguments : α
  /-- The operands that were not there. -/
  missing : List (Operand α)
  /-- What nothing took. -/
  leftover : List Text

namespace Grammar

/-- Applies the options of a `Bundle` in order. -/
def applyUses : List (Switch α × Option Text) → α → Except Halt α
  | [], arguments => .ok arguments
  | (switch, value) :: uses, arguments => do applyUses uses (← switch.apply value arguments)

/-- Reads `tokens`, with the operands that are still to come and what is left over so far. -/
def consume (grammar : Grammar α) (operands : List (Operand α)) (leftover : List Text)
    (arguments : α) (tokens : List (Token α)) : Except Halt (Outcome α) :=
  match tokens with
  | [] => .ok ⟨arguments, operands, leftover⟩
  | token :: rest =>
    if token.isOption then
      match grammar.bundleOf (valueInFront rest) token with
      | .error fault => .error (.fault fault)
      | .ok bundle =>
        match applyUses bundle.uses arguments with
        | .error halt => .error halt
        | .ok arguments =>
          grammar.consume operands (leftover ++ bundle.leftover.toList) arguments
            (rest.drop (if bundle.takesNext then 1 else 0))
    else
      match operands with
      | [] => grammar.consume [] (leftover ++ [token.written]) arguments rest
      | operand :: following =>
        match operand.extentIn (token :: rest) with
        | 0 => grammar.consume operands (leftover ++ [token.written]) arguments rest
        | more + 1 =>
          match operand.apply (token :: rest.take more) arguments with
          | .error halt => .error halt
          | .ok arguments => grammar.consume following leftover arguments (rest.drop more)
termination_by tokens.length
decreasing_by all_goals simp; try omega

/-- Reads a command line into arguments that start out as `initial`. -/
def read (grammar : Grammar α) (initial : α) (line : List Text) : Except Halt (α × List Text) :=
  match grammar.tokens line with
  | .error fault => .error (.fault fault)
  | .ok tokens =>
    match grammar.consume grammar.operands [] initial tokens with
    | .error halt => .error halt
    | .ok outcome =>
      if outcome.missing.isEmpty then .ok (outcome.arguments, outcome.leftover)
      else .error (.fault (.operandsMissing (outcome.missing.map (·.name))))

end Grammar

end ComponentKit.CommandLine
