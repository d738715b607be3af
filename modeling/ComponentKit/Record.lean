import ComponentKit.Json.Basic
import ComponentKit.Text.Blank

/-!
# Records

Reading typed fields from the members of a JSON object: `text`, `choice`, `truthValue`, `integer`. Fields are read
leniently: a truth value may be written as a word or as zero or one, an integer as a text. All faults of a record
are reported together, in the order of its fields (`Checked`).
-/

namespace ComponentKit.Record

/-! ## Faults -/

/-- What is wrong with a value. -/
inductive Problem where
  | missing
  | textExpected
  | choiceExpected
  | truthValueExpected
  | truthValueUnreadable
  | integerExpected
  | integerUnreadable
  | integerFractional
  | integerInfinite
  | tooSmall
  deriving DecidableEq, Repr

/-- The message for a problem. -/
def Problem.message : Problem → Text
  | missing => "Field required"
  | textExpected => "Input should be a valid string"
  | choiceExpected => "Input should be one of the words for this field"
  | truthValueExpected => "Input should be a valid boolean"
  | truthValueUnreadable => "Input should be a valid boolean, unable to interpret input"
  | integerExpected => "Input should be a valid integer"
  | integerUnreadable => "Input should be a valid integer, unable to parse string as an integer"
  | integerFractional => "Input should be a valid integer, got a number with a fractional part"
  | integerInfinite => "Input should be a finite number"
  | tooSmall => "Input should be greater than or equal to 1"

/-- A field with something wrong. -/
structure Fault where
  /-- The name of the field. -/
  field : Text
  /-- What is wrong with it. -/
  problem : Problem
  deriving DecidableEq, Repr

/-! ## Values -/

/-- Reads a text. -/
def text : Json → Except Problem Text
  | .text value => .ok value
  | _ => .error .textExpected

/-- Reads one of several words. -/
def choice {α : Type} (ofName? : Text → Option α) : Json → Except Problem α
  | .text word =>
    match ofName? word with
    | some value => .ok value
    | none => .error .choiceExpected
  | _ => .error .choiceExpected

/-- The words for a truth value. -/
def truthValueOfWord? (word : Text) : Option Bool :=
  let lowered := word.map Char.toLower
  if ["0".toList, "off", "f", "false", "n", "no"].contains lowered then some false
  else if ["1".toList, "on", "t", "true", "y", "yes"].contains lowered then some true
  else none

/-- Reads a truth value, which may be written as a word or as zero or one. -/
def truthValue : Json → Except Problem Bool
  | .bool value => .ok value
  | .int n =>
    if n = 0 then .ok false else if n = 1 then .ok true else .error .truthValueUnreadable
  | .float x =>
    match (Decimal.Parts.of x).toInt? with
    | some 0 => .ok false
    | some 1 => .ok true
    | _ => .error .truthValueExpected
  | .text word =>
    match truthValueOfWord? word with
    | some value => .ok value
    | none => .error .truthValueUnreadable
  | _ => .error .truthValueExpected

/-- Whether a character is dropped around a number. Control characters that separate records are
not. -/
def isPadding (c : Char) : Bool :=
  Text.isBlank c && !(0x1C ≤ c.toNat && c.toNat ≤ 0x1F)

/-- The digits of a number without zeros in front, which may have single underscores between them. -/
def dropLeadingZeros? (number : Text) : Option Text :=
  match number with
  | [] => none
  | c :: _ =>
    if c = '-' || ('1' ≤ c && c ≤ '9') then some number
    else if c = '0' then
      let zeros := number.takeWhile fun d => d == '0' || d == '_'
      match number.drop zeros.length with
      | [] => some "0"
      | d :: rest =>
        if d = '.' then some (zeros.getLastD '0' :: d :: rest)
        else if '1' ≤ d && d ≤ '9' then some (d :: rest)
        else none
    else none

/-- The number without a point and the zeros after it. -/
def dropZeroFraction (number : Text) : Text :=
  let whole := number.takeWhile (· != '.')
  let fraction := number.drop (whole.length + 1)
  if fraction.all (· == '0') then whole else number

/-- The digits without the underscores between them; underscores elsewhere stay. -/
def dropUnderscores (number : Text) : Text :=
  if number.head? = some '_' || number.getLast? = some '_' || Text.occursIn "__" number then number
  else number.filter (· != '_')

/-- The integer that plain digits write, after a minus sign if it is negative. -/
def integerOfDigits? (number : Text) : Option Int :=
  let (negative, digits) := match number with
    | '-' :: rest => (true, rest)
    | _ => (false, number)
  if digits.isEmpty || !digits.all Char.isDigit then none
  else
    let n : Int := digits.foldl (fun n c => n * 10 + (c.toNat - 0x30)) (0 : Nat)
    some (if negative then -n else n)

/-- The integer that a text writes in decimal: with a sign, zeros in front, single underscores between
digits and a fraction of zeros. -/
def integerOfText? (text : Text) : Option Int := do
  let trimmed := ((text.dropWhile isPadding).reverse.dropWhile isPadding).reverse
  let unsigned ← match trimmed with
    | '+' :: '-' :: _ => none
    | '+' :: rest => some rest
    | _ => some trimmed
  integerOfDigits? (dropUnderscores (dropZeroFraction (← dropLeadingZeros? unsigned)))

/-- Reads an integer, which may be written as a text, a truth value or a number without fraction. -/
def integer : Json → Except Problem Int
  | .int n => .ok n
  | .bool value => .ok (if value then 1 else 0)
  | .float x =>
    let parts := Decimal.Parts.of x
    match parts.toInt? with
    | some n => .ok n
    | none => .error (if parts.isFinite then .integerFractional else .integerInfinite)
  | .text number =>
    match integerOfText? number with
    | some n => .ok n
    | none => .error .integerUnreadable
  | _ => .error .integerExpected

/-- Reads an integer that is at least one. -/
def positive (value : Json) : Except Problem { n : Nat // 1 ≤ n } := do
  let n ← integer value
  if h : 1 ≤ n.toNat then return ⟨n.toNat, h⟩ else throw .tooSmall

/-! ## Fields -/

/-- A value read from a record, or the faults of all fields that went into it. -/
def Checked (α : Type) : Type := Except (List Fault) α

namespace Checked

/-- A value that needs no field. -/
protected def pure {α : Type} (value : α) : Checked α := Except.ok value

/-- Applies what was read to what is read next; the faults of both count. -/
protected def seq {α β : Type} : Checked (α → β) → Checked α → Checked β
  | .ok f, .ok value => Except.ok (f value)
  | .ok _, .error faults => Except.error faults
  | .error faults, .ok _ => Except.error faults
  | .error first, .error second => Except.error (first ++ second)

instance : Applicative Checked where
  pure := Checked.pure
  seq f value := Checked.seq f (value ())

/-- The value or the faults. -/
def toExcept {α : Type} (checked : Checked α) : Except (List Fault) α := checked

end Checked

/-- Reads a field; without the field its default stands, if it has one. -/
def field {α : Type} (members : List (Text × Json)) (name : Text)
    (read : Json → Except Problem α) (default : Option α) : Checked α :=
  match members.lookup name, default with
  | some value, _ =>
    match read value with
    | .ok result => Except.ok result
    | .error problem => Except.error [⟨name, problem⟩]
  | none, some value => Except.ok value
  | none, none => Except.error [⟨name, .missing⟩]

end ComponentKit.Record
