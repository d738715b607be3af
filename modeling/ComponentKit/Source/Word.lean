import ComponentKit.Text.Basic
import ComponentKit.Unicode.WordCharacters

/-!
# Words in source text

Where a word of source text starts and ends (`isBoundary`). A position is given by the character in front of it, if
any, and the text that follows it. `mentions` looks for an identifier as a whole word.
-/

namespace ComponentKit.Source

open Unicode

/-- Whether there is a character and it belongs to a word. -/
def isWordNext (next : Option Char) : Bool :=
  next.any isWord

/-- Whether a position is a word boundary: a word character on one side of it only. -/
def isBoundary (before : Option Char) (rest : Text) : Bool :=
  isWordNext before != isWordNext rest.head?

/-- What follows a word at the start of the text, when the word ends there. -/
def dropWord? (word text : Text) : Option Text :=
  (Text.dropLead? word text).filter fun rest => !isWordNext rest.head?

/-- Whether a character can stand in an identifier: word characters and the dollar sign. -/
def isIdentifierCharacter (c : Char) : Bool :=
  isWord c || c == '$'

/-- Whether `name` occurs as a whole identifier in the text after the character `before`. -/
def mentionsAfter (name : Text) (before : Option Char) : Text → Bool
  | [] => false
  | c :: rest =>
    (!before.any isIdentifierCharacter
      && (Text.dropLead? name (c :: rest)).any fun after =>
        !after.head?.any isIdentifierCharacter)
      || mentionsAfter name (some c) rest

/-- Whether `name` occurs as a whole identifier. -/
def mentions (name text : Text) : Bool :=
  mentionsAfter name none text

end ComponentKit.Source
