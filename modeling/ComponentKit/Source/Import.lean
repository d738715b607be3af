import ComponentKit.Source.Word
import ComponentKit.Text.Line

/-!
# Imports

Where a source text imports other modules, and where one more import belongs. An import statement is
recognized at the start of a line: as `import … from '…'`, as `import '…'`, or as the last line
`… from '…'` of a longer one, which starts with a closing brace. Nothing else may stand on the line on
which it ends.
-/

namespace ComponentKit.Source

open Text

/-! ## Import statements -/

/-- Whether a character opens or closes the name of a module. -/
def isQuote (c : Char) : Bool :=
  c == '\x27' || c == '"'

/-- What follows a module name in quotes, which is not empty and stands on one line. -/
def afterModule? : Text → Option Text
  | [] => none
  | opening :: rest =>
    if isQuote opening then
      let name := rest.takeWhile fun c => !isQuote c && c != '\n'
      match name, rest.drop name.length with
      | _ :: _, close :: after => if isQuote close then some after else none
      | _, _ => none
    else none

/-- Whether the line ends here. -/
def endsLine : Text → Bool
  | [] => true
  | '\n' :: _ => true
  | ['\r'] => true
  | '\r' :: '\n' :: _ => true
  | _ => false

/-- What follows the end of a statement: blanks and a semicolon, either of which may be missing. Only
blanks may follow on the line. -/
def afterTerminator? (text : Text) : Option Text :=
  let rest := text.dropWhile isIndent
  let after := match rest with
    | ';' :: more => more
    | _ => rest
  if endsLine (after.dropWhile isIndent) then some after else none

/-- What follows a clause `from '…'` with the end of its statement, at a position after `before`. -/
def afterFrom? (before : Char) (text : Text) : Option Text := do
  if Unicode.isWord before then none
  let rest ← dropLead? "from" text
  afterTerminator? (← afterModule? (rest.dropWhile isBlank))

/-- What follows the first clause `from '…'` that starts on this line and ends its statement. -/
def afterFromOnLine? (before : Char) : Text → Option Text
  | [] => none
  | c :: rest =>
    match afterFrom? before (c :: rest) with
    | some after => some after
    | none => if c = '\n' then none else afterFromOnLine? c rest

/-- What follows an import statement at the start of the text. -/
def afterImport? (text : Text) : Option Text :=
  let named : Option Text := do afterFromOnLine? 't' (← dropWord? "import" text)
  let bare : Option Text := do
    let rest ← dropLead? "import" text
    let blanks := rest.takeWhile isBlank
    if blanks.isEmpty then none
    afterTerminator? (← afterModule? (rest.drop blanks.length))
  let closing : Option Text := match text with
    | '\x7d' :: rest => afterFromOnLine? '\x7d' rest
    | _ => none
  named <|> bare <|> closing

/-- The offsets at which import statements end, in a text at offset `offset`. `lineStart` says whether
the text is at the start of a line, `inside` how many of its characters belong to a statement that was
found already. -/
def importEndsFrom (offset : Nat) (lineStart : Bool) (inside : Nat) : Text → List Nat
  | [] => []
  | c :: rest =>
    let found := if lineStart && inside == 0 then
        afterImport? ((c :: rest).dropWhile isIndent)
      else none
    match found with
    | some after =>
      let length := (c :: rest).length - after.length
      (offset + length) :: importEndsFrom (offset + 1) (c == '\n') (length - 1) rest
    | none => importEndsFrom (offset + 1) (c == '\n') (inside - 1) rest

/-- The offsets at which the import statements of a text end, each found by `afterImport?` at the start of a line. -/
def importEnds (text : Text) : List Nat :=
  importEndsFrom 0 true 0 text

/-! ## Declarations -/

/-- Whether a declaration of a class or an interface, or an export, starts here. -/
def startsDeclaration (text : Text) : Bool :=
  (dropWord? "export" text).isSome || (dropWord? "class" text).isSome
    || (dropWord? "interface" text).isSome
    || (dropLead? "abstract" text).any fun rest =>
        rest.head?.any isBlank && (dropWord? "class" (rest.dropWhile isBlank)).isSome

/-- The offset of the first declaration at the start of a line, in a text at offset `offset`. -/
def firstDeclarationFrom? (offset : Nat) (lineStart : Bool) : Text → Option Nat
  | [] => none
  | c :: rest =>
    if lineStart && startsDeclaration (c :: rest) then some offset
    else firstDeclarationFrom? (offset + 1) (c == '\n') rest

/-- The offset of the first line of a text at which it `startsDeclaration`. -/
def firstDeclaration? (text : Text) : Option Nat :=
  firstDeclarationFrom? 0 true text

/-! ## The place of a new import -/

/-- Where a new import belongs. -/
inductive ImportPlace where
  /-- On the line after the import statement that ends at an offset. -/
  | afterStatement (offset : Nat)
  /-- On the line before the declaration at an offset. -/
  | beforeDeclaration (offset : Nat)
  deriving DecidableEq, Repr

/-- After the last of the `importEnds`, or before the `firstDeclaration?` of a text without imports. -/
def importPlace? (text : Text) : Option ImportPlace :=
  match (importEnds text).getLast? with
  | some offset => some (.afterStatement offset)
  | none => (firstDeclaration? text).map .beforeDeclaration

/-- The text with a line put in at a place, set off by the `lineBreak` of the text. -/
def ImportPlace.insert (text line : Text) : ImportPlace → Text
  | afterStatement offset => insertAt offset (lineBreak text ++ line) text
  | beforeDeclaration offset => insertAt offset (line ++ lineBreak text) text

end ComponentKit.Source
