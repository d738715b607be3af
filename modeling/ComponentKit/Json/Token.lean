import ComponentKit.Json.Basic

/-!
# JSON tokens

`tokensFrom` gives the lexemes of a JSON document with their offsets, as far as a `Dialect` knows them. A lexeme
that is broken ends the list: whoever reads the tokens in order meets it only after everything in front of it.
-/

namespace ComponentKit.Json

/-! ## Faults -/

/-- What is wrong with a document. -/
inductive Defect where
  | valueExpected
  | nameExpected
  | colonExpected
  | commaExpected
  | extraData
  | unterminatedText
  | controlCharacter
  | unknownEscape
  | brokenCodePoint
  | byteOrderMark
  | loneSurrogate
  | tooDeep
  /-- An integer has more digits than a reader takes. -/
  | longInteger (limit digits : Nat)
  deriving DecidableEq, Repr

/-- A defect and the offset at which it was found. -/
structure Fault where
  /-- What is wrong. -/
  defect : Defect
  /-- Where it was found. -/
  offset : Nat
  deriving DecidableEq, Repr

/-! ## Dialects -/

/-- What a reader lets pass beyond the grammar. -/
structure Dialect where
  /-- What stands for half of a surrogate pair that is written as an escape; without it such an escape
  is a fault. -/
  loneSurrogate : Option Char
  /-- How deeply lists and objects may be nested. -/
  maxDepth : Option Nat
  deriving Repr

/-- A token of a document. -/
inductive Token where
  | openObject
  | closeObject
  | openArray
  | closeArray
  | colon
  | comma
  /-- A word or a number. -/
  | scalar (value : Json)
  /-- A text. -/
  | text (value : Text)
  /-- A text that is not well formed. -/
  | brokenText (fault : Fault)
  /-- A character that starts no token. -/
  | stray

/-! ## Texts -/

/-- Whether a number is the first half of a surrogate pair. -/
def isHighSurrogate (n : Nat) : Bool := 0xD800 ≤ n && n < 0xDC00

/-- Whether a number is the second half of a surrogate pair. -/
def isLowSurrogate (n : Nat) : Bool := 0xDC00 ≤ n && n < 0xE000

/-- The character that a short escape stands for. -/
def shortEscape? : Char → Option Char
  | '"' => some '"'
  | '\\' => some '\\'
  | '/' => some '/'
  | 'b' => some '\x08'
  | 'f' => some '\x0c'
  | 'n' => some '\n'
  | 'r' => some '\r'
  | 't' => some '\t'
  | _ => none

/-- A code unit on its own. -/
def unitCharacter (dialect : Dialect) (offset unit : Nat) : Except Fault Char :=
  if isHighSurrogate unit || isLowSurrogate unit then
    match dialect.loneSurrogate with
    | some c => .ok c
    | none => .error ⟨.loneSurrogate, offset⟩
  else .ok (Char.ofNat unit)

/-- Reads the escape after a backslash at offset `offset`; `start` is where the text starts. The number
counts the characters that the escape takes, without the backslash. An escape by code unit has to be
followed by something, and a pair of them by something too. -/
def readEscape (dialect : Dialect) (start offset : Nat) : Text → Except Fault (Char × Nat)
  | [] => .error ⟨.unterminatedText, start⟩
  | 'u' :: rest =>
    if rest.length ≤ 4 then .error ⟨.brokenCodePoint, offset + 1⟩
    else match Text.hexUnit? rest with
      | none => .error ⟨.brokenCodePoint, offset + 1⟩
      | some unit =>
        match rest.drop 4 with
        | '\\' :: 'u' :: more =>
          if isHighSurrogate unit && 4 < more.length then
            match Text.hexUnit? more with
            | none => .error ⟨.brokenCodePoint, offset + 7⟩
            | some second =>
              if isLowSurrogate second then
                .ok (Char.ofNat (0x10000 + (unit - 0xD800) * 0x400 + (second - 0xDC00)), 11)
              else (·, 5) <$> unitCharacter dialect offset unit
          else (·, 5) <$> unitCharacter dialect offset unit
        | _ => (·, 5) <$> unitCharacter dialect offset unit
  | c :: _ =>
    match shortEscape? c with
    | some d => .ok (d, 1)
    | none => .error ⟨.unknownEscape, offset⟩

/-- Reads a text from after its opening quote. The number counts the characters up to and including the
closing quote. -/
def readText (dialect : Dialect) (start offset : Nat) : Text → Except Fault (Text × Nat)
  | [] => .error ⟨.unterminatedText, start⟩
  | c :: rest =>
    if c = '"' then .ok ([], 1)
    else if c = '\\' then do
      let (d, taken) ← readEscape dialect start offset rest
      let (tail, count) ← readText dialect start (offset + 1 + taken) (rest.drop taken)
      return (d :: tail, 1 + taken + count)
    else if c.toNat < 0x20 then .error ⟨.controlCharacter, offset⟩
    else do
      let (tail, count) ← readText dialect start (offset + 1) rest
      return (c :: tail, 1 + count)
termination_by text => text.length
decreasing_by all_goals simp; try omega

/-! ## Words and numbers -/

/-- The words that stand for values. -/
def words : List (Text × Json) :=
  [("null", .null), ("true", .bool true), ("false", .bool false), ("NaN", .float (0.0 / 0.0)),
    ("Infinity", .float (1.0 / 0.0)), ("-Infinity", .float (-1.0 / 0.0))]

/-- The number that decimal digits write. -/
def digitsValue (digits : Text) : Nat :=
  digits.foldl (fun n c => n * 10 + (c.toNat - 0x30)) 0

/-- The digits of an integer part: a zero alone, or digits that start with another one. -/
def integerDigits : Text → Text
  | [] => []
  | c :: rest => if c = '0' then [c] else if c.isDigit then c :: rest.takeWhile Char.isDigit else []

/-- The digits after a point; a point without digits is not part of a number. -/
def fractionDigits : Text → Text
  | '.' :: rest => rest.takeWhile Char.isDigit
  | _ => []

/-- The length of an exponent and its value; without digits it is not part of a number. -/
def readExponent : Text → Option (Nat × Int)
  | c :: rest =>
    if c = 'e' || c = 'E' then
      let (signLength, negative) := match rest with
        | '+' :: _ => (1, false)
        | '-' :: _ => (1, true)
        | _ => (0, false)
      let digits := (rest.drop signLength).takeWhile Char.isDigit
      if digits.isEmpty then none
      else
        let value : Int := digitsValue digits
        some (1 + signLength + digits.length, if negative then -value else value)
    else none
  | [] => none

/-- Reads a number and counts its characters. -/
def readNumber (text : Text) : Option (Json × Nat) :=
  let (signLength, negative) := match text with
    | '-' :: _ => (1, true)
    | _ => (0, false)
  let unsigned := text.drop signLength
  let whole := integerDigits unsigned
  if whole.isEmpty then none
  else
    let fraction := fractionDigits (unsigned.drop whole.length)
    let fractionLength := if fraction.isEmpty then 0 else 1 + fraction.length
    let length := signLength + whole.length + fractionLength
    match readExponent (text.drop length) with
    | some (exponentLength, exponent) =>
      some (.float (Decimal.roundToFloat negative (digitsValue (whole ++ fraction))
        (exponent - fraction.length)), length + exponentLength)
    | none =>
      if fraction.isEmpty then
        let n : Int := digitsValue whole
        some (.int (if negative then -n else n), length)
      else
        some (.float (Decimal.roundToFloat negative (digitsValue (whole ++ fraction))
          (-(fraction.length : Int))), length)

/-- Reads a word or a number and counts its characters. -/
def readScalar (text : Text) : Option (Json × Nat) :=
  match words.find? fun word => word.1.isPrefixOf text with
  | some (word, value) => some (value, word.length)
  | none => readNumber text

/-! ## Documents -/

/-- Whether a character may stand between tokens. -/
def isSpace (c : Char) : Bool :=
  c == ' ' || c == '\t' || c == '\n' || c == '\r'

/-- The token of a punctuation mark. -/
def punctuation? : Char → Option Token
  | '\x7b' => some .openObject
  | '\x7d' => some .closeObject
  | '[' => some .openArray
  | ']' => some .closeArray
  | ':' => some .colon
  | ',' => some .comma
  | _ => none

/-- The tokens of a document with their offsets, from offset `offset` on. -/
def tokensFrom (dialect : Dialect) (offset : Nat) : Text → List (Nat × Token)
  | [] => []
  | c :: rest =>
    if isSpace c then tokensFrom dialect (offset + 1) rest
    else match punctuation? c with
      | some token => (offset, token) :: tokensFrom dialect (offset + 1) rest
      | none =>
        if c = '"' then
          match readText dialect offset (offset + 1) rest with
          | .ok (value, count) =>
            (offset, .text value) :: tokensFrom dialect (offset + 1 + count) (rest.drop count)
          | .error fault => [(offset, .brokenText fault)]
        else match readScalar (c :: rest) with
          | some (value, count) =>
            (offset, .scalar value)
              :: tokensFrom dialect (offset + count) (rest.drop (count - 1))
          | none => [(offset, .stray)]
termination_by text => text.length
decreasing_by all_goals simp; try omega

end ComponentKit.Json
