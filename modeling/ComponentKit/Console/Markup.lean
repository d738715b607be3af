import ComponentKit.Console.Style

/-!
# Marked-up text

Text with tags in brackets that set off what stands between them. On a terminal without colours the
tags vanish and the rest is shown, with the codes between colons in it replaced. A backslash in front of a
tag makes it text; `escape` puts one in front of every tag.

What a console knows beyond this is its `Theme`: which names of styles mean the same, and which codes there are.
`Theme.basic` has the normal form of `normalizeStyle` and no codes. Tags that a click acts on have handlers, which are
not looked at here.
-/

namespace ComponentKit.Console

open Text

/-! ## Parts -/

/-- A part of marked-up text. -/
inductive Part where
  /-- A character of running text. -/
  | letter (c : Char)
  /-- A piece of text that stands by itself. -/
  | text (text : Text)
  /-- A tag that opens a style. -/
  | opening (style : Text)
  /-- A tag that closes a style, or the last one if it names none; with its offset and its text. -/
  | closing (style : Text) (offset : Nat) (written : Text)
  deriving DecidableEq, Repr

/-- Whether a tag can start with a character. -/
def startsTag (c : Char) : Bool :=
  ('a' ≤ c && c ≤ 'z') || c == '#' || c == '/' || c == '@'

/-- The inside of a tag, for a text that follows an opening bracket. No other opening bracket may stand
in front of the closing one. -/
def tagBody? (text : Text) : Option Text :=
  let body := text.takeWhile fun c => c != ']' && c != '['
  match body, text.drop body.length with
  | c :: _, ']' :: _ => if startsTag c then some body else none
  | _, _ => none

/-- The part that a tag is, by its inside, `body`, and its offset. What follows an equals sign is a parameter of the
style. -/
def tagPart (body : Text) (offset : Nat) : Part :=
  let name := body.takeWhile (· != '=')
  match name with
  | '/' :: style => .closing (trim style) offset ('[' :: body ++ [']'])
  | _ => .opening name

/-- The parts of a text at offset `offset`. Of the backslashes in front of a tag every two show one; an
odd one makes the tag text. A backslash in front of any other bracket vanishes. -/
def partsFrom (offset : Nat) (text : Text) : List Part :=
  match text with
  | [] => []
  | c :: rest =>
    let slashes := (c :: rest).takeWhile (· == '\\')
    match (c :: rest).drop slashes.length with
    | '[' :: after =>
      match tagBody? after with
      | some body =>
        let count := slashes.length + body.length + 2
        let shown : Text := List.replicate (slashes.length / 2) '\\'
        let part : Part := if slashes.length % 2 = 1 then .text ('[' :: body ++ [']'])
          else tagPart body (offset + slashes.length)
        .text shown :: part :: partsFrom (offset + count) (rest.drop (count - 1))
      | none =>
        if slashes.length = 1 then .letter '[' :: partsFrom (offset + 2) (rest.drop 1)
        else .letter c :: partsFrom (offset + 1) rest
    | _ => .letter c :: partsFrom (offset + 1) rest
termination_by text.length
decreasing_by all_goals simp; try omega

/-- The parts of a marked-up text, read by `partsFrom` from its start. -/
def parts (markup : Text) : List Part :=
  partsFrom 0 markup

/-! ## Codes -/

/-- What a console knows of styles and codes: `normalForm` compares styles, and `code?` knows the codes. -/
structure Theme where
  /-- The normal form of the name of a style, which is the same for names that mean the same. -/
  normalForm : Text → Text
  /-- What the name of a code stands for, if there is such a code. -/
  code? : Text → Option Text

/-- A console without codes. -/
def Theme.basic : Theme := ⟨normalizeStyle, fun _ => none⟩

/-- The text with its codes replaced by what `code?` has for them. What two colons enclose without a blank is taken
for a code, known or not, so that its second colon starts no other one. -/
def replaceCodes (code? : Text → Option Text) (text : Text) : Text :=
  match text with
  | [] => []
  | c :: rest =>
    if c = ':' then
      let name := rest.takeWhile fun c => c != ':' && !isBlank c
      match rest.drop name.length with
      | ':' :: _ => (code? name).getD (':' :: name ++ [':']) ++ replaceCodes code? (rest.drop (name.length + 1))
      | _ => ':' :: replaceCodes code? rest
    else c :: replaceCodes code? rest
termination_by text.length
decreasing_by all_goals simp; try omega

/-- The parts with the codes in their texts replaced. Running text, `run` so far, is searched as a whole. -/
def replaceIn (code? : Text → Option Text) (run : Text) : List Part → List Part
  | [] => [.text (replaceCodes code? run)]
  | .letter c :: rest => replaceIn code? (run ++ [c]) rest
  | .text text :: rest =>
    .text (replaceCodes code? run) :: .text (replaceCodes code? text) :: replaceIn code? [] rest
  | part :: rest => .text (replaceCodes code? run) :: part :: replaceIn code? [] rest

/-! ## Rendering -/

/-- What is wrong with marked-up text. -/
inductive MarkupFault where
  /-- A closing tag whose style is not open. -/
  | notOpen (written : Text) (offset : Nat)
  /-- A closing tag without a style where none is open. -/
  | nothingOpen (offset : Nat)
  deriving DecidableEq, Repr

/-- The message for a fault. -/
def MarkupFault.message : MarkupFault → Text
  | notOpen written offset =>
    concat ["closing tag '", written, "' at position ", ofNat offset,
      " doesn't match any open tag"]
  | nothingOpen offset =>
    concat ["closing tag '[/]' at position ", ofNat offset, " has nothing to close"]

/-- Whether a character is kept out of shown text: it would move the cursor in other ways than a line
feed or a tab do. -/
def isCursorControl (c : Char) : Bool :=
  ['\x07', '\x08', '\x0b', '\x0c', '\r'].contains c

/-- The shown text of parts, with the styles that are open, innermost first. -/
def showParts (normalForm : Text → Text) (opened : List Text) : List Part → Except MarkupFault Text
  | [] => .ok []
  | .letter c :: rest => ([c].filter (!isCursorControl ·) ++ ·) <$> showParts normalForm opened rest
  | .text text :: rest => (text.filter (!isCursorControl ·) ++ ·) <$> showParts normalForm opened rest
  | .opening style :: rest => showParts normalForm (normalForm style :: opened) rest
  | .closing [] offset _ :: rest =>
    match opened with
    | [] => .error (.nothingOpen offset)
    | _ :: outer => showParts normalForm outer rest
  | .closing (c :: style) offset written :: rest =>
    let name := normalForm (c :: style)
    if opened.contains name then showParts normalForm (opened.erase name) rest
    else .error (.notOpen written offset)

/-- The text that marked-up text shows: `showParts` of its `parts`, after the codes in them are replaced. -/
def render (theme : Theme) (markup : Text) : Except MarkupFault Text :=
  showParts theme.normalForm [] (replaceIn theme.code? [] (parts markup))

/-! ## Escaping -/

/-- The text with a backslash in front of every tag; backslashes that stand there are doubled. -/
def escapeTags (text : Text) : Text :=
  match text with
  | [] => []
  | c :: rest =>
    let slashes := (c :: rest).takeWhile (· == '\\')
    match (c :: rest).drop slashes.length with
    | '[' :: after =>
      match tagBody? after with
      | some body =>
        slashes ++ slashes ++ '\\' :: '[' :: body ++ ']'
          :: escapeTags (rest.drop (slashes.length + body.length + 1))
      | none => c :: escapeTags rest
    | _ => c :: escapeTags rest
termination_by text.length
decreasing_by all_goals simp; try omega

/-- The text as marked-up text that shows it, by `escapeTags`. A single backslash at the end is doubled, as a tag may
follow. -/
def escape (text : Text) : Text :=
  let escaped := escapeTags text
  if endsWith escaped "\\" && !endsWith escaped "\\\\" then escaped ++ ['\\'] else escaped

end ComponentKit.Console
