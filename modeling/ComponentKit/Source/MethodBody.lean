import ComponentKit.Source.Word
import ComponentKit.Text.Blank

/-!
# Method bodies

`locate?` finds the body of a method without parameters by its signature (`signatureFrom?`) and its braces
(`matchingBrace?`). Braces are counted wherever they stand, also in strings and comments.
-/

namespace ComponentKit.Source

open Text

/-! ## Braces -/

/-- The distance to the closing brace at which `depth` open braces are balanced. The depth may be
negative, when the text starts with closing braces. -/
def closingBraceFrom? (depth : Int) : Text → Option Nat
  | [] => none
  | c :: rest =>
    if c = '\x7b' then (closingBraceFrom? (depth + 1) rest).map (· + 1)
    else if c = '\x7d' then
      if depth = 1 then some 0 else (closingBraceFrom? (depth - 1) rest).map (· + 1)
    else (closingBraceFrom? depth rest).map (· + 1)

/-- The offset of the brace that closes the one at `offset`. -/
def matchingBrace? (text : Text) (offset : Nat) : Option Nat :=
  (closingBraceFrom? 0 (text.drop offset)).map (· + offset)

/-! ## Signatures -/

/-- A position in a text: the character in front of it and the text from it on. -/
structure Cursor where
  /-- The character in front. -/
  before : Option Char
  /-- The text from here on. -/
  rest : Text
  deriving DecidableEq, Repr

/-- The position after one of several words and the blanks after it, of which there is at least one. -/
def Cursor.afterModifier? (cursor : Cursor) (modifiers : List Text) : Option Cursor :=
  if isBoundary cursor.before cursor.rest then
    modifiers.findSome? fun modifier => do
      let rest ← dropLead? modifier cursor.rest
      let blanks := rest.takeWhile isBlank
      if blanks.isEmpty then none
      return ⟨blanks.getLast?, rest.drop blanks.length⟩
  else none

/-- Tries to go on after one of several words, and without any of them if that fails (`afterModifier?`). -/
def Cursor.optionally {α : Type} (cursor : Cursor) (modifiers : List Text)
    (next : Cursor → Option α) : Option α :=
  (cursor.afterModifier? modifiers).bind next <|> next cursor

/-- Whether a character can stand in the type that a method returns. -/
def isTypeCharacter (c : Char) : Bool :=
  Unicode.isWord c || isBlank c || ['.', '<', '>', '[', ']', '|', ','].contains c

/-- What follows the opening brace of a body, with or without a return type in front of it. -/
def afterBodyOpening? (text : Text) : Option Text :=
  match text.dropWhile isBlank with
  | '\x7b' :: rest => some rest
  | ':' :: rest =>
    let type := rest.takeWhile isTypeCharacter
    match type, rest.drop type.length with
    | _ :: _, '\x7b' :: body => some body
    | _, _ => none
  | _ => none

/-- What follows the opening brace of the body of a method, from its name on: empty parentheses and
`afterBodyOpening?`. -/
def Cursor.afterNamed? (name : Text) (cursor : Cursor) : Option Text :=
  if isBoundary cursor.before cursor.rest then do
    let rest ← dropLead? name cursor.rest
    let rest ← dropLead? "(" (rest.dropWhile isBlank)
    let rest ← dropLead? ")" (rest.dropWhile isBlank)
    afterBodyOpening? rest
  else none

/-- What follows the opening brace of the body of a method whose signature starts here. The access
modifier, `static` and `async` may each be missing, but come in this order. -/
def Cursor.afterSignature? (name : Text) (cursor : Cursor) : Option Text :=
  cursor.optionally ["private", "protected", "public"] fun cursor =>
    cursor.optionally ["static"] fun cursor =>
      cursor.optionally ["async"] fun cursor => cursor.afterNamed? name

/-- The offset of the leftmost signature of a method, in a text at `offset` after the character
`before`, and what follows the opening brace of its body. -/
def signatureFrom? (name : Text) (offset : Nat) (before : Option Char) :
    Text → Option (Nat × Text)
  | [] => none
  | c :: rest =>
    match Cursor.afterSignature? name ⟨before, c :: rest⟩ with
    | some body => some (offset, body)
    | none => signatureFrom? name (offset + 1) (some c) rest

/-! ## Regions -/

/-- The body of a method in a text. -/
structure Region where
  /-- Where the signature starts. -/
  signatureStart : Nat
  /-- The offset after the opening brace. -/
  bodyStart : Nat
  /-- The offset of the closing brace. -/
  bodyEnd : Nat
  deriving DecidableEq, Repr

/-- The text between the braces. -/
def Region.body (region : Region) (text : Text) : Text :=
  slice region.bodyStart region.bodyEnd text

/-- The body of the method of the given name: of the first signature that `signatureFrom?` finds, if its brace is
closed (`matchingBrace?`). -/
def locate? (text name : Text) : Option Region := do
  let (start, body) ← signatureFrom? name 0 none text
  let bodyStart := text.length - body.length
  let length ← closingBraceFrom? 1 body
  return ⟨start, bodyStart, bodyStart + length⟩

end ComponentKit.Source
