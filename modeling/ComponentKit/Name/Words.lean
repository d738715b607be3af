import ComponentKit.Text.Blank
import ComponentKit.Text.Case

/-!
# Words of a name

A component's name is a sequence of `words`, set apart by hyphens, underscores or blanks. The same words give the
name its hyphenated form for files and keys (`kebab`), and its capitalized forms for types and variables (`pascal`,
`camel`).
-/

namespace ComponentKit.Name

/-- Whether a character stands between two words. -/
def isSeparator (c : Char) : Bool :=
  c == '-' || c == '_' || Text.isBlank c

/-- Puts a character in front of a list of words: a letter joins the first word, a separator ends it.
The first entry is the word that is being read, which may be empty. -/
def pushCharacter (c : Char) : List Text → List Text
  | [] => if isSeparator c then [[], []] else [[c]]
  | current :: others =>
    if isSeparator c then [] :: current :: others else (c :: current) :: others

/-- The words of a name, read by `pushCharacter` from its end. -/
def words (name : Text) : List Text :=
  (name.foldr pushCharacter []).filter (!·.isEmpty)

/-- The `words` in lower case with hyphens between them. -/
def kebab (name : Text) : Text :=
  Text.join "-" ((words name).map Text.lower)

/-- The capitalized `words` without anything between them. -/
def pascal (name : Text) : Text :=
  (words name).flatMap Text.capitalize

/-- The `words` without anything between them, the first in lower case, the others capitalized. -/
def camel (name : Text) : Text :=
  match words name with
  | [] => []
  | first :: others => Text.lower first ++ others.flatMap Text.capitalize

/-- The text with each run of blanks turned into one hyphen. -/
def hyphenateBlanks : Text → Text
  | [] => []
  | c :: rest =>
    if Text.isBlank c then
      match rest with
      | d :: _ => if Text.isBlank d then hyphenateBlanks rest else '-' :: hyphenateBlanks rest
      | [] => ['-']
    else c :: hyphenateBlanks rest

/-- The name without the blanks around it and with a hyphen for each run of blanks inside, by `hyphenateBlanks`. -/
def tidy (name : Text) : Text :=
  hyphenateBlanks (Text.trim name)

end ComponentKit.Name
