import ComponentKit.Kind
import ComponentKit.Name.Words

/-!
# Acceptable names

`check` has the checks that a name given by a user has to pass, in the order in which they are made. An accepted
name is used in its hyphenated form, which is what `validate` returns.
-/

namespace ComponentKit.Name

/-- Words that no component may be called. -/
def reserved : List Text :=
  ["index", "server", "config", "main", "default", "export", "import"]

/-- The greatest length of a name when the settings do not say otherwise. -/
def defaultMaxLength : Nat := 50

/-- Why a name is refused. -/
inductive Refusal where
  /-- Nothing but blanks. -/
  | empty
  /-- Not a letter followed by letters, digits, hyphens and underscores. -/
  | malformed
  /-- Longer than allowed. -/
  | tooLong (limit : Int)
  /-- A reserved word. -/
  | reserved (name : Text)
  /-- Ends in the word that the kind adds by itself. -/
  | suffixed (word : Text)
  deriving DecidableEq, Repr

/-- Whether the text is a letter followed by letters, digits, hyphens and underscores, all ASCII. -/
def isWellFormed : Text → Bool
  | [] => false
  | c :: rest => c.isAlpha && rest.all fun d => d.isAlphanum || d == '_' || d == '-'

/-- Whether a name ends in the suffix word: as a word of its own, or joined by a capital letter. -/
def endsInSuffix (name word : Text) : Bool :=
  let lowered := Text.lower name
  Text.endsWith lowered ('-' :: word) || Text.endsWith lowered ('_' :: word)
    || Text.endsWith name (Text.capitalize word)

/-- The `tidy` form of a name that `isWellFormed`, short enough and not `reserved`. -/
def check (name : Text) (maxLength : Int) : Except Refusal Text :=
  if Text.allBlank name then .error .empty
  else
    let clean := tidy name
    if !isWellFormed clean then .error .malformed
    else if maxLength < clean.length then .error (.tooLong maxLength)
    else if reserved.contains (Text.lower clean) then .error (.reserved clean)
    else .ok clean

/-- The hyphenated form, by `kebab`, of a name that a kind accepts, or the first check that it fails. -/
def validate (name : Text) (kind : Kind) (maxLength : Int) : Except Refusal Text := do
  let clean ← check name maxLength
  let word := kind.conventions.suffixWord
  if !word.isEmpty && endsInSuffix clean word then throw (.suffixed word)
  return kebab clean

/-- `validate` for a kind that is given as a word, which is looked up only for a name that passes the checks before it
matters. -/
def validateFor (name kindWord : Text) (maxLength : Int) :
    Except UnknownWord (Except Refusal Text) :=
  match check name maxLength with
  | .error refusal => .ok (.error refusal)
  | .ok _ => (validate name · maxLength) <$> Kind.ofName kindWord

namespace Refusal

/-- The message for a refused name. -/
def message : Refusal → Text
  | empty => "Component name cannot be empty"
  | malformed =>
    Text.concat ["Component name must start with a letter and contain only letters, ",
      "numbers, hyphens, and underscores"]
  | tooLong limit => Text.concat ["Component name must be ", Text.ofInt limit, " characters or less"]
  | reserved name =>
    Text.concat ["\"", name, "\" is a reserved word and cannot be used as a component name"]
  | suffixed word =>
    let joined := Text.capitalize word
    Text.concat [joined, " names should not end with \"", word, "\" or \"", joined,
      "\" - it will be added automatically"]

end Refusal

end ComponentKit.Name
