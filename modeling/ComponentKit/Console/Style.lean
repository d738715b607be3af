import ComponentKit.Text.Blank
import ComponentKit.Text.Case
import ComponentKit.Text.Hexadecimal

/-!
# Style names

A tag of marked-up text names a style. Names that mean the same `Style` are the same to a closing tag, so they are
compared in a normal form (`normalizeStyle`): emphasis in a fixed order, then the colours and the link. A name that
means no style is compared in lower case. This is the normal form of a console that knows the basic colours by
name; one that knows more has a `Theme` of its own.
-/

namespace ComponentKit.Console

open Text

/-- A way in which text can be set off, in the order of the normal form. -/
inductive Emphasis where
  | bold
  | dim
  | italic
  | underline
  | blink
  | blink2
  | reverse
  | conceal
  | strike
  | underline2
  | frame
  | encircle
  | overline
  deriving DecidableEq, Repr

namespace Emphasis

/-- All ways, in the order of the normal form. -/
def all : List Emphasis :=
  [bold, dim, italic, underline, blink, blink2, reverse, conceal, strike, underline2, frame,
    encircle, overline]

/-- The word for an emphasis. -/
def name : Emphasis → Text
  | bold => "bold"
  | dim => "dim"
  | italic => "italic"
  | underline => "underline"
  | blink => "blink"
  | blink2 => "blink2"
  | reverse => "reverse"
  | conceal => "conceal"
  | strike => "strike"
  | underline2 => "underline2"
  | frame => "frame"
  | encircle => "encircle"
  | overline => "overline"

/-- The short word for an emphasis, for those that have one. -/
def shortName? : Emphasis → Option Text
  | bold => some "b"
  | dim => some "d"
  | italic => some "i"
  | underline => some "u"
  | reverse => some "r"
  | conceal => some "c"
  | strike => some "s"
  | underline2 => some "uu"
  | overline => some "o"
  | _ => none

/-- The emphasis that a word names. -/
def ofName? (word : Text) : Option Emphasis :=
  all.find? fun emphasis => emphasis.name == word || emphasis.shortName? == some word

end Emphasis

/-! ## Colours -/

/-- The names of the sixteen basic colours, and of the one that a terminal starts with. -/
def colourNames : List Text :=
  let basic : List Text := ["black", "red", "green", "yellow", "blue", "magenta", "cyan", "white"]
  "default".toList :: basic ++ basic.map ("bright_".toList ++ ·)

/-- The numbers of at most 255 that a text between brackets lists. -/
def components? (word lead : Text) : Option (List Nat) := do
  let rest ← dropLead? lead word
  if rest.getLast? ≠ some ')' then none
  (splitOn ',' rest.dropLast).mapM fun part => do
    let digits := trim part
    if digits.isEmpty || !digits.all Char.isDigit then none
    let n := digits.foldl (fun n c => n * 10 + (c.toNat - 0x30)) 0
    if 255 < n then none else some n

/-- Whether a word in lower case names a colour. -/
def isColour (word : Text) : Bool :=
  colourNames.contains word
    || (match word with
        | '#' :: digits => digits.length == 6 && digits.all fun c => (hexValue? c).isSome
        | _ => false)
    || (components? word "color(").any (·.length == 1)
    || (components? word "rgb(").any (·.length == 3)

/-! ## Styles -/

/-- What a tag asks for. -/
structure Style where
  /-- Emphases that are switched on or off; of two entries for one emphasis the first counts. -/
  emphases : List (Emphasis × Bool) := []
  /-- The colour of the text. -/
  colour : Option Text := none
  /-- The colour behind the text. -/
  background : Option Text := none
  /-- Where the text leads. -/
  link : Option Text := none
  deriving DecidableEq, Repr

/-- The words of a definition. -/
def styleWords (definition : Text) : List Text :=
  ((definition.foldr (fun c (words : List Text) =>
    match words with
    | [] => if isBlank c then [[], []] else [[c]]
    | word :: others => if isBlank c then [] :: word :: others else (c :: word) :: others) [])).filter
    (!·.isEmpty)

/-- The style that `styleWords` define. -/
def Style.ofWords? (style : Style) : List Text → Option Style
  | [] => some style
  | word :: rest =>
    let lowered := lower word
    if lowered = "on".toList then
      match rest with
      | [] => none
      | colour :: rest =>
        if isColour (lower colour) then
          Style.ofWords? { style with background := some (lower colour) } rest
        else none
    else if lowered = "not".toList then
      match rest with
      | [] => none
      | name :: rest => do
        let emphasis ← Emphasis.ofName? name
        Style.ofWords? { style with emphases := (emphasis, false) :: style.emphases } rest
    else if lowered = "link".toList then
      match rest with
      | [] => none
      | target :: rest => Style.ofWords? { style with link := some target } rest
    else match Emphasis.ofName? lowered with
      | some emphasis =>
        Style.ofWords? { style with emphases := (emphasis, true) :: style.emphases } rest
      | none =>
        if isColour lowered then Style.ofWords? { style with colour := some lowered } rest else none

/-- The style in its normal form. -/
def Style.toText (style : Style) : Text :=
  let emphases := Emphasis.all.filterMap fun emphasis =>
    (style.emphases.lookup emphasis).map fun on =>
      if on then emphasis.name else "not ".toList ++ emphasis.name
  let colour := style.colour.toList
  let background := style.background.toList.map ("on ".toList ++ ·)
  let link := style.link.toList.map ("link ".toList ++ ·)
  let words := emphases ++ colour ++ background ++ link
  if words.isEmpty then "none" else join " " words

/-- The normal form of the name of a style: `Style.toText` of the style it means, or else the name in lower case. -/
def normalizeStyle (definition : Text) : Text :=
  if allBlank definition || trim definition = "none".toList then "none"
  else match Style.ofWords? {} (styleWords definition) with
    | some style => style.toText
    | none => lower (trim definition)

end ComponentKit.Console
