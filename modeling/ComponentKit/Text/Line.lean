import ComponentKit.Text.Blank

/-!
# Lines

Line breaks and positions in lines. Files are read with every line break turned into a line feed
(`unifyLineBreaks`); edits keep to the `lineBreak` that a text already uses.
-/

namespace ComponentKit.Text

/-! ## Line breaks -/

/-- The text with each carriage return, alone or before a line feed, turned into one line feed. -/
def unifyLineBreaks : Text → Text
  | [] => []
  | '\r' :: '\n' :: rest => '\n' :: unifyLineBreaks rest
  | c :: rest => (if c = '\r' then '\n' else c) :: unifyLineBreaks rest

/-- The line break that an edit of the text uses: the two-character one where the text has it. -/
def lineBreak (text : Text) : Text :=
  if occursIn "\r\n" text then "\r\n" else "\n"

/-- Whether a character ends a line of a free-form text. -/
def isLineEnd (c : Char) : Bool :=
  let n := c.toNat
  (0x0A ≤ n && n ≤ 0x0D) || (0x1C ≤ n && n ≤ 0x1E) || n == 0x85 || n == 0x2028 || n == 0x2029

/-- The lines of a free-form text, without their ends. A text that ends in a line break has no empty
last line. -/
def lines : Text → List Text
  | [] => []
  | '\r' :: '\n' :: rest => [] :: lines rest
  | c :: rest =>
    if isLineEnd c then [] :: lines rest
    else match lines rest with
      | line :: more => (c :: line) :: more
      | [] => [[c]]

/-! ## Positions in a line

Here only a line feed ends a line. `before` is the text in front of a position. -/

/-- The part of the last line of `before`, which is the start of the line that a position is on. -/
def lineSoFar (before : Text) : Text :=
  (before.reverse.takeWhile (· != '\n')).reverse

/-- The offset at which the line of offset `pos` starts. -/
def lineStart (text : Text) (pos : Nat) : Nat :=
  let before := text.take pos
  before.length - (lineSoFar before).length

/-- The indentation of the line of offset `pos`, as far as it stands in front of `pos`. -/
def lineIndent (text : Text) (pos : Nat) : Text :=
  indentation (lineSoFar (text.take pos))

/-- The offset of the end of the line of `pos`, in front of its line break; `limit` when the line does
not end before it. -/
def endOfLine (text : Text) (pos limit : Nat) : Nat :=
  let segment := slice pos limit text
  let line := segment.takeWhile (· != '\n')
  if line.length = segment.length then limit
  else if line.getLast? = some '\r' then pos + line.length - 1
  else pos + line.length

end ComponentKit.Text
