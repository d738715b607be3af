import ComponentKit.Json.Token

/-!
# Reading JSON

A document is read token by token, with the lists and objects that are still open on a stack of `Frame`s. The first
token that does not fit is the fault, and its offset is known by line and column. `readLimited` refuses numbers of
too many digits as well.
-/

namespace ComponentKit.Json

/-! ## The state of a reader -/

/-- A list or an object that is still open. -/
inductive Frame where
  /-- A list with the items so far, last one first. -/
  | array (items : List Json)
  /-- An object with the members so far and the name of the member that is being read. -/
  | object (members : List (Text × Json)) (name : Text)

/-- What has to come next. -/
inductive State where
  /-- A value. -/
  | value (stack : List Frame)
  /-- The first item of a list, or its end. -/
  | firstItem (stack : List Frame)
  /-- The first name of an object, or its end. -/
  | firstName (stack : List Frame)
  /-- The next name of an object. -/
  | nextName (members : List (Text × Json)) (stack : List Frame)
  /-- The colon after a name. -/
  | colon (members : List (Text × Json)) (name : Text) (stack : List Frame)
  /-- A value is complete; a comma, the end of what it stands in, or the end of the document follows. -/
  | complete (value : Json) (stack : List Frame)

/-- The state after the opening of a list or object. -/
def openFrame (dialect : Dialect) (offset : Nat) (stack : List Frame) (next : State) :
    Except Fault State :=
  match dialect.maxDepth with
  | some depth => if depth ≤ stack.length then .error ⟨.tooDeep, offset⟩ else .ok next
  | none => .ok next

/-- The state after a token where a value has to come. -/
def stepValue (dialect : Dialect) (stack : List Frame) (offset : Nat) :
    Token → Except Fault State
  | .openObject => openFrame dialect offset stack (.firstName stack)
  | .openArray => openFrame dialect offset stack (.firstItem stack)
  | .scalar value => .ok (.complete value stack)
  | .text value => .ok (.complete (.text value) stack)
  | .brokenText fault => .error fault
  | _ => .error ⟨.valueExpected, offset⟩

/-- The state after a token where the name of a member has to come. -/
def stepName (members : List (Text × Json)) (stack : List Frame) (offset : Nat) :
    Token → Except Fault State
  | .text name => .ok (.colon members name stack)
  | .brokenText fault => .error fault
  | _ => .error ⟨.nameExpected, offset⟩

/-- The state after one token. -/
def step (dialect : Dialect) (state : State) (located : Nat × Token) : Except Fault State :=
  let (offset, token) := located
  match state with
  | .value stack => stepValue dialect stack offset token
  | .firstItem stack =>
    match token with
    | .closeArray => .ok (.complete (.array []) stack)
    | token => stepValue dialect (.array [] :: stack) offset token
  | .firstName stack =>
    match token with
    | .closeObject => .ok (.complete (.object []) stack)
    | token => stepName [] stack offset token
  | .nextName members stack => stepName members stack offset token
  | .colon members name stack =>
    match token with
    | .colon => .ok (.value (.object members name :: stack))
    | _ => .error ⟨.colonExpected, offset⟩
  | .complete value stack =>
    match stack, token with
    | .array items :: stack, .comma => .ok (.value (.array (value :: items) :: stack))
    | .array items :: stack, .closeArray =>
      .ok (.complete (.array (value :: items).reverse) stack)
    | .object members name :: stack, .comma =>
      .ok (.nextName (insertMember members name value) stack)
    | .object members name :: stack, .closeObject =>
      .ok (.complete (.object (insertMember members name value)) stack)
    | _ :: _, _ => .error ⟨.commaExpected, offset⟩
    | [], _ => .error ⟨.extraData, offset⟩

/-- The value of a document that ends at `offset`. -/
def finish (offset : Nat) : State → Except Fault Json
  | .value _ => .error ⟨.valueExpected, offset⟩
  | .firstItem _ => .error ⟨.valueExpected, offset⟩
  | .firstName _ => .error ⟨.nameExpected, offset⟩
  | .nextName _ _ => .error ⟨.nameExpected, offset⟩
  | .colon _ _ _ => .error ⟨.colonExpected, offset⟩
  | .complete value [] => .ok value
  | .complete _ (_ :: _) => .error ⟨.commaExpected, offset⟩

/-- The value of a document that a reader takes token by token, from `tokensFrom`. It must not start with a byte order
mark. -/
def readBy (step : State → Nat × Token → Except Fault State) (dialect : Dialect) (text : Text) :
    Except Fault Json := do
  if text.head? = some '\uFEFF' then throw ⟨.byteOrderMark, 0⟩
  finish text.length (← (tokensFrom dialect 0 text).foldlM step (.value []))

/-- The value of a document. -/
def read (dialect : Dialect) : Text → Except Fault Json :=
  readBy (step dialect) dialect

/-! ## Long integers -/

/-- What is wrong with a token for a reader that takes integers of at most `maxDigits` digits. -/
def longInteger? (maxDigits : Nat) : Token → Option Defect
  | .scalar (.int n) =>
    let digits := (Text.ofNat n.natAbs).length
    if maxDigits < digits then some (.longInteger maxDigits digits) else none
  | _ => none

/-- The state after `step` with a token, unless it is a `longInteger?`. -/
def stepLimited (dialect : Dialect) (maxDigits : Nat) (state : State) (located : Nat × Token) :
    Except Fault State := do
  let next ← step dialect state located
  match longInteger? maxDigits located.2 with
  | some defect => throw ⟨defect, located.1⟩
  | none => return next

/-- The value of a document, read by `stepLimited`, in which no integer has more than `maxDigits` digits. -/
def readLimited (dialect : Dialect) (maxDigits : Nat) : Text → Except Fault Json :=
  readBy (stepLimited dialect maxDigits) dialect

/-! ## Messages -/

namespace Defect

/-- The wording of a defect. -/
def message : Defect → Text
  | valueExpected => "Expecting value"
  | nameExpected => "Expecting property name enclosed in double quotes"
  | colonExpected => "Expecting ':' delimiter"
  | commaExpected => "Expecting ',' delimiter"
  | extraData => "Extra data"
  | unterminatedText => "Unterminated string starting at"
  | controlCharacter => "Invalid control character at"
  | unknownEscape => "Invalid \\escape"
  | brokenCodePoint => "Invalid \\uXXXX escape"
  | byteOrderMark => "Unexpected UTF-8 BOM (decode using utf-8-sig)"
  | loneSurrogate => "Unpaired surrogate"
  | tooDeep => "Nested too deeply"
  | longInteger limit digits =>
    Text.concat ["Exceeds the limit (", Text.ofNat limit, " digits) for integer string conversion: value has ",
      Text.ofNat digits, " digits; use sys.set_int_max_str_digits() to increase the limit"]

/-- Whether the message for a defect says where it is. -/
def isLocated : Defect → Bool
  | longInteger _ _ => false
  | _ => true

end Defect

/-- The message for a fault in a document: lines and columns count from one, offsets from zero. -/
def Fault.message (document : Text) (fault : Fault) : Text :=
  let before := document.take fault.offset
  let line := (before.filter (· == '\n')).length + 1
  let column := (before.reverse.takeWhile (· != '\n')).length + 1
  if fault.defect.isLocated then
    Text.concat [fault.defect.message, ": line ", Text.ofNat line, " column ", Text.ofNat column,
      " (char ", Text.ofNat fault.offset, ")"]
  else fault.defect.message

end ComponentKit.Json
