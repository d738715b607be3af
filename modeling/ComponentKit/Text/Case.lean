import ComponentKit.Text.Basic
import ComponentKit.Unicode.LowerCase
import ComponentKit.Unicode.SigmaContext
import ComponentKit.Unicode.UpperCase

/-!
# Case

The `lower` case of a text, and `capitalize`, which gives it a capital at its start. Both map some characters to
several, and the lower case of a capital sigma depends on the word it stands in.
-/

namespace ComponentKit.Text

open Unicode

/-- Whether the nearest character of the text that is not passed over has a case. -/
def nextIsCased (text : Text) : Bool :=
  match text.dropWhile isCaseIgnorable with
  | c :: _ => isCased c
  | [] => false

/-- The lower case of `text`, which stands after the reversed text `before`. A capital sigma becomes a
final sigma at the end of a word. -/
def lowerAfter (before : Text) : Text → Text
  | [] => []
  | c :: rest =>
    let image :=
      if c = 'Σ' then [if nextIsCased before && !nextIsCased rest then 'ς' else 'σ']
      else lowerCharacter c
    image ++ lowerAfter (c :: before) rest

/-- The text in lower case, character by character with `lowerAfter` for the surroundings of a sigma. -/
def lower (text : Text) : Text :=
  lowerAfter [] text

/-- The text with its first character in upper case and the others in lower case. -/
def capitalize : Text → Text
  | [] => []
  | c :: rest => upperCharacter c ++ lower rest

end ComponentKit.Text
