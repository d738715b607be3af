import ComponentKit.CommandLine.Grammar
import ComponentKit.Unicode.DecimalDigits

/-!
# Tokens of a command line

Which arguments are options, before it is known which of the others are their values: `tokens` makes a `Token` of
each. A long option may be abbreviated and may have its value after an equals sign; a short one may have anything
after it. Negative numbers and arguments with a space are no options, and after the `endMark` nothing is.
-/

namespace ComponentKit.CommandLine

open Text

/-- An argument by its role. -/
inductive Token (α : Type) where
  /-- An argument that is no option. -/
  | plain (written : Text)
  /-- The mark after which there are no options. -/
  | endOfOptions
  /-- A long option, with the value after its equals sign. -/
  | long (switch : Switch α) (value : Option Text) (written : Text)
  /-- A short option, with what follows its letter. -/
  | short (switch : Switch α) (tail : Text) (written : Text)
  /-- An option that does not exist. -/
  | unknown (written : Text)

/-- The mark after which there are no options. -/
def endMark : Text := "--"

/-- The argument that a token stands for. -/
def Token.written {α : Type} : Token α → Text
  | plain written => written
  | endOfOptions => endMark
  | long _ _ written => written
  | short _ _ written => written
  | unknown written => written

/-- Whether an argument is a negative number: digits after a hyphen, with at most one point in front of
some of them. A line feed at the end does not count. -/
def isNegativeNumber (written : Text) : Bool :=
  let number := if written.getLast? = some '\n' then written.dropLast else written
  match number with
  | '-' :: figures =>
    let whole := figures.takeWhile Unicode.isDecimalDigit
    match figures.drop whole.length with
    | [] => !whole.isEmpty
    | '.' :: fraction => !fraction.isEmpty && fraction.all Unicode.isDecimalDigit
    | _ => false
  | _ => false

namespace Grammar

variable {α : Type}

/-- An argument that starts like an option but names none. -/
def unnamed (written : Text) : Token α :=
  if isNegativeNumber written || written.contains ' ' then .plain written else .unknown written

/-- The token of an argument that starts with two hyphens. -/
def longToken (grammar : Grammar α) (written : Text) : Except Fault (Token α) :=
  let name := written.takeWhile (· != '=')
  let value := match written.drop name.length with
    | [] => none
    | _ :: value => some value
  match grammar.switch? name, grammar.abbreviated name with
  | some switch, _ => .ok (.long switch value written)
  | none, [(_, switch)] => .ok (.long switch value written)
  | none, [] => .ok (unnamed written)
  | none, candidates => .error (.ambiguous written (candidates.map (·.1)))

/-- The token of an argument ahead of the end of the options. -/
def token (grammar : Grammar α) (written : Text) : Except Fault (Token α) :=
  match written with
  | '-' :: '-' :: _ => grammar.longToken written
  | '-' :: c :: tail =>
    match grammar.switch? ['-', c] with
    | some switch => .ok (.short switch tail written)
    | none => .ok (unnamed written)
  | _ => .ok (.plain written)

/-- The tokens of a command line. -/
def tokens (grammar : Grammar α) : List Text → Except Fault (List (Token α))
  | [] => .ok []
  | written :: rest =>
    if written = endMark then .ok (.endOfOptions :: rest.map .plain)
    else do return (← grammar.token written) :: (← grammar.tokens rest)

end Grammar

end ComponentKit.CommandLine
