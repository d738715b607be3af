import ComponentKit.Console.Markup
import ComponentKit.Unicode.Width

/-!
# Screen

What printing puts on a screen of 200 columns without colours: lines, a table of two columns and a
panel. How marked-up text is turned into text is a matter of the console, and given to these functions as `draw`;
it may fail.
-/

namespace ComponentKit.Console

open Text Unicode

variable {ε : Type}

/-- The number of columns of the screen. -/
def screenWidth : Nat := 200

/-! ## Lines -/

/-- The line with each tab filled up to the next column that is a multiple of eight. -/
def expandTabs (column : Nat) : Text → Text
  | [] => []
  | c :: rest =>
    if c = '\t' then
      let gap := 8 - column % 8
      List.replicate gap ' ' ++ expandTabs (column + gap) rest
    else c :: expandTabs (column + charWidth c) rest

/-- The lines that a marked-up text shows, as `draw` draws it. -/
def shownLines (draw : Text → Except ε Text) (markup : Text) : Except ε (List Text) := do
  return (splitOn '\n' (← draw markup)).map (expandTabs 0)

/-- Lines with a line feed after each. -/
def printedLines (lines : List Text) : Text :=
  lines.flatMap (· ++ ['\n'])

/-- What printing a marked-up text puts on the screen: its `shownLines`, each with a line feed. -/
def printed (draw : Text → Except ε Text) (markup : Text) : Except ε Text :=
  printedLines <$> shownLines draw markup

/-- The line filled up with spaces to a number of columns. -/
def padded (columns : Nat) (line : Text) : Text :=
  line ++ List.replicate (columns - width line) ' '

/-- A line across the whole screen. -/
def rule : Text :=
  printedLines [List.replicate screenWidth '─']

/-! ## Tables -/

/-- The number of columns that the widest of some lines takes. -/
def widest (lines : List Text) : Nat :=
  (lines.map width).foldl max 0

/-- A line of a table: two cells between three bars, with a space on both sides of each cell. -/
def tableLine (bar : Char) (leftWidth rightWidth : Nat) (left right : Text) : Text :=
  concat [[bar, ' '], padded leftWidth left, [' ', bar, ' '], padded rightWidth right, [' ', bar]]

/-- A line between rows of a table. -/
def tableBorder (start fill cross stop : Char) (leftWidth rightWidth : Nat) : Text :=
  concat [[start], List.replicate (leftWidth + 2) fill, [cross],
    List.replicate (rightWidth + 2) fill, [stop]]

/-- The lines of a row, as many as the higher of its cells has. -/
def tableRow (leftWidth rightWidth : Nat) (cells : List Text × List Text) : List Text :=
  let height := max cells.1.length cells.2.length
  (List.range height).map fun k =>
    tableLine '│' leftWidth rightWidth (cells.1[k]?.getD []) (cells.2[k]?.getD [])

/-- A table of two columns with a title in the middle above it. -/
def table (draw : Text → Except ε Text) (title : Text) (header : Text × Text) (rows : List (Text × Text)) :
    Except ε Text := do
  let left ← rows.mapM fun row => shownLines draw row.1
  let right ← rows.mapM fun row => shownLines draw row.2
  let leftWidth := widest (header.1 :: left.flatten)
  let rightWidth := widest (header.2 :: right.flatten)
  let total := leftWidth + rightWidth + 7
  let indent := (total - width title) / 2
  return printedLines <|
    [padded total (List.replicate indent ' ' ++ title),
      tableBorder '┏' '━' '┳' '┓' leftWidth rightWidth,
      tableLine '┃' leftWidth rightWidth header.1 header.2,
      tableBorder '┡' '━' '╇' '┩' leftWidth rightWidth]
    ++ (left.zip right).flatMap (tableRow leftWidth rightWidth)
    ++ [tableBorder '└' '─' '┴' '┘' leftWidth rightWidth]

/-! ## Panels -/

/-- A marked-up text in a frame as wide as the screen, with a title in the upper edge. -/
def panel (draw : Text → Except ε Text) (title markup : Text) : Except ε Text := do
  let lines ← shownLines draw markup
  let inner := screenWidth - 2
  let heading := concat [" ", title, " "]
  let before := (inner - width heading) / 2
  let after := inner - width heading - before
  return printedLines <|
    [concat [['╭'], List.replicate before '─', heading, List.replicate after '─', ['╮']]]
    ++ lines.map (fun line => concat ["│ ", padded (inner - 2) line, " │"])
    ++ [concat [['╰'], List.replicate inner '─', ['╯']]]

end ComponentKit.Console
