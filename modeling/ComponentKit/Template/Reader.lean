import ComponentKit.Template.Basic
import ComponentKit.Text.Line
import ComponentKit.Unicode.WordCharacters

/-!
# Reading templates

`read` takes the written form of a template: a slot stands between double braces, as a name or a literal in quotes,
followed by the names of its filters after vertical bars. Line breaks of the template itself become line feeds.
-/

namespace ComponentKit.Template

open Text

/-! ## Literals -/

/-- The character that a backslash and a letter stand for in a literal. -/
def escapedCharacter? : Char → Option Char
  | '\\' => some '\\'
  | '\x27' => some '\x27'
  | '"' => some '"'
  | 'a' => some '\x07'
  | 'b' => some '\x08'
  | 'f' => some '\x0c'
  | 'n' => some '\n'
  | 'r' => some '\r'
  | 't' => some '\t'
  | 'v' => some '\x0b'
  | _ => none

/-- Reads what follows a backslash and counts its characters; an unknown escape stands for itself. -/
def readEscape (text : Text) : Text × Nat :=
  match text with
  | 'x' :: a :: b :: _ =>
    match hexUnit? ['0', '0', a, b] with
    | some n => ([Char.ofNat n], 3)
    | none => (['\\', 'x'], 1)
  | 'u' :: rest =>
    match hexUnit? rest with
    | some n => ([Char.ofNat n], 5)
    | none => (['\\', 'u'], 1)
  | c :: _ =>
    match escapedCharacter? c with
    | some d => ([d], 1)
    | none => (['\\', c], 1)
  | [] => (['\\'], 0)

/-- Reads a literal after its opening quote, with `readEscape` for what follows a backslash, and counts its characters
up to and including the closing quote. -/
def readLiteral (quote : Char) : Text → Option (Text × Nat)
  | [] => none
  | c :: rest =>
    if c = quote then some ([], 1)
    else if c = '\\' then do
      let (value, taken) := readEscape rest
      let (tail, count) ← readLiteral quote (rest.drop taken)
      return (value ++ tail, 1 + taken + count)
    else do
      let (tail, count) ← readLiteral quote rest
      return (c :: tail, 1 + count)
termination_by text => text.length
decreasing_by all_goals simp; try omega

/-! ## Slots -/

/-- Reads the value of a slot and what follows it. -/
def readValue (text : Text) : Option (Value × Text) :=
  match text with
  | [] => none
  | c :: rest =>
    if c = '\x27' || c = '"' then do
      let (value, count) ← readLiteral c rest
      return (.literal value, rest.drop count)
    else
      let name := text.takeWhile Unicode.isWord
      if name.isEmpty || c.isDigit then none else some (.name name, text.drop name.length)

/-- Reads the names of filters up to the closing braces, and what follows these. -/
def readFilters (text : Text) : Option (List Text × Text) :=
  match _h : text.dropWhile isBlank with
  | '|' :: rest => do
    let rest' := rest.dropWhile isBlank
    let name := rest'.takeWhile Unicode.isWord
    if name.isEmpty then none
    let (names, after) ← readFilters (rest'.drop name.length)
    return (name :: names, after)
  | '\x7d' :: '\x7d' :: after => some ([], after)
  | _ => none
termination_by text.length
decreasing_by
  have hText := (List.dropWhile_suffix (l := text) isBlank).length_le
  have hRest := (List.dropWhile_suffix (l := rest) isBlank).length_le
  rw [_h] at hText
  simp only [List.length_drop, List.length_cons] at *
  omega

/-- A part of a template as it is written, with its filters by name. -/
inductive Written where
  /-- Text that stands as it is. -/
  | text (text : Text)
  /-- A slot. -/
  | slot (value : Value) (filters : List Text)
  deriving DecidableEq, Repr

/-- The parts with a character of text in front. -/
def Written.push (c : Char) : List Written → List Written
  | .text content :: parts => .text (c :: content) :: parts
  | parts => .text [c] :: parts

/-- The parts of a template. -/
def readParts (text : Text) : Option (List Written) :=
  match text with
  | [] => some []
  | '\x7b' :: '\x7b' :: rest => do
    let (value, afterValue) ← readValue (rest.dropWhile isBlank)
    let (filters, after) ← readFilters afterValue
    let parts ← readParts (rest.drop (rest.length - after.length))
    return .slot value filters :: parts
  | c :: rest => (Written.push c) <$> readParts rest
termination_by text.length
decreasing_by all_goals simp; try omega

/-- The filter of a name. -/
def Filter.ofName (name : Text) : Except Fault Filter :=
  if name = "ts_string".toList then .ok .stringContent
  else if name = "ts_comment".toList then .ok .commentContent
  else .error (.unknownFilter name)

/-- The piece that a part stands for. -/
def Written.toPiece : Written → Except Fault Piece
  | .text content => .ok (.text content)
  | .slot value filters => (.slot value) <$> filters.mapM Filter.ofName

/-- Reads a template, whose parts `readParts` gives. -/
def read (text : Text) : Except Fault Template :=
  match readParts (unifyLineBreaks text) with
  | some parts => parts.mapM Written.toPiece
  | none => .error .malformed

end ComponentKit.Template
