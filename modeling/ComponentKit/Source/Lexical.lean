import ComponentKit.Text.Basic

/-!
# Code, strings and comments

Source text read from left to right by `step`: each character belongs to code, to a string between quotes of three
kinds, or to a comment, as the `Mode` tells. A backslash in a string takes away the meaning of the character after
it.
-/

namespace ComponentKit.Source

/-- What a reader of source text is in the middle of. -/
inductive Mode where
  /-- Code. -/
  | code
  /-- A string that ends with the given quote. -/
  | quoted (quote : Char)
  /-- A string, after a backslash. -/
  | escaped (quote : Char)
  /-- A comment up to the end of the line. -/
  | lineComment
  /-- The star that opens a comment. -/
  | commentOpening
  /-- A comment up to a star and a slash. -/
  | blockComment
  /-- The slash that closes a comment. -/
  | commentClosing
  deriving DecidableEq, Repr

namespace Mode

/-- Whether a character opens and closes strings. -/
def isStringQuote (c : Char) : Bool :=
  c == '\x27' || c == '"' || c == '\x60'

/-- The mode after a character `c`, which depends on the one that follows it. -/
def step (mode : Mode) (c : Char) (next : Option Char) : Mode :=
  match mode with
  | code =>
    if c = '/' && next = some '/' then lineComment
    else if c = '/' && next = some '*' then commentOpening
    else if isStringQuote c then quoted c
    else code
  | quoted quote => if c = '\\' then escaped quote else if c = quote then code else quoted quote
  | escaped quote => quoted quote
  | lineComment => if c = '\n' then code else lineComment
  | commentOpening => blockComment
  | blockComment => if c = '*' && next = some '/' then commentClosing else blockComment
  | commentClosing => code

end Mode

end ComponentKit.Source
