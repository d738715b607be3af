import ComponentKit.Source.Lexical
import ComponentKit.Text.Blank

/-!
# The end of a call

`endOfCall?` says where a call that starts at some offset is over: its parentheses are balanced in code
(`callLength?`), so that parentheses in strings and comments do not count, and a semicolon that follows belongs to
it (`semicolonLength`).
-/

namespace ComponentKit.Source

open Text

/-- The number of characters up to and including the parenthesis that closes the last of `depth` open ones, for a
reader that is in `mode` and goes on by `Mode.step`. -/
def callLength? (mode : Mode) (depth : Nat) : Text → Option Nat
  | [] => none
  | c :: rest =>
    if mode = .code ∧ c = '(' then (callLength? .code (depth + 1) rest).map (· + 1)
    else if mode = .code ∧ c = ')' then
      if depth ≤ 1 then some 1 else (callLength? .code (depth - 1) rest).map (· + 1)
    else (callLength? (mode.step c rest.head?) depth rest).map (· + 1)

/-- The number of characters of `text` up to and including a semicolon after blanks, none if there is no semicolon. -/
def semicolonLength (text : Text) : Nat :=
  let blanks := indentation text
  match text.drop blanks.length with
  | ';' :: _ => blanks.length + 1
  | _ => 0

/-- The offset after the first call of `text` from `start` on, if `callLength?` finds it closed before `limit`, and
after the semicolon that `semicolonLength` finds behind it. -/
def endOfCall? (text : Text) (start limit : Nat) : Option Nat :=
  let segment := slice start limit text
  let lead := segment.takeWhile (· != '(')
  let call := segment.drop lead.length
  (callLength? .code 0 call).map fun length =>
    start + lead.length + length + semicolonLength (call.drop length)

end ComponentKit.Source
