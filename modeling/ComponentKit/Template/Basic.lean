import ComponentKit.Text.Quoted

/-!
# Templates

A `Template` is a text with slots. A slot takes a `Value` from a context, or a literal of its own, and passes it
through filters that make it fit for the place it stands in, as `stringContent` and `commentContent` do.
-/

namespace ComponentKit

namespace Template

/-- A change of a value before it is put in place. -/
inductive Filter where
  /-- For the inside of a string between single quotes. -/
  | stringContent
  /-- For the inside of a block comment. -/
  | commentContent
  deriving DecidableEq, Repr

/-- Where the value of a slot comes from. -/
inductive Value where
  /-- The value of a name in the context. -/
  | name (name : Text)
  /-- A literal. -/
  | literal (text : Text)
  deriving DecidableEq, Repr

/-- A part of a template. -/
inductive Piece where
  /-- Text that stands as it is. -/
  | text (text : Text)
  /-- A slot. -/
  | slot (value : Value) (filters : List Filter)
  deriving DecidableEq, Repr

/-- What can be wrong with a template or its use. -/
inductive Fault where
  /-- A slot takes a name that the context does not have. -/
  | undefined (name : Text)
  /-- A slot uses a filter that does not exist. -/
  | unknownFilter (name : Text)
  /-- A slot is not well formed. -/
  | malformed
  /-- There is no such template in the directory. -/
  | notFound (file directory : Text)
  deriving DecidableEq, Repr

/-- The message for a fault. -/
def Fault.message : Fault → Text
  | undefined name => Text.concat [Text.quoted name, " is undefined"]
  | unknownFilter name => Text.concat ["No filter named ", Text.quoted name, "."]
  | malformed => "malformed template"
  | notFound file directory =>
    Text.concat [Text.quoted file, " not found in search path: ", Text.quoted directory]

/-! ## Filters -/

/-- One character for the inside of a string between single quotes: the backslash and the quote are
escaped, a line feed becomes a space and a carriage return vanishes. -/
def stringCharacter (c : Char) : Text :=
  if c = '\\' then "\\\\"
  else if c = '\x27' then "\\'"
  else if c = '\n' then " "
  else if c = '\r' then []
  else [c]

/-- The text for the inside of a string between single quotes. -/
def stringContent (text : Text) : Text :=
  text.flatMap stringCharacter

/-- The text for the inside of a block comment: every star and slash that would end the comment are set
apart by a space. -/
def commentContent : Text → Text
  | [] => []
  | '*' :: '/' :: rest => '*' :: ' ' :: '/' :: commentContent rest
  | c :: rest => c :: commentContent rest

/-- The value after a filter: `stringContent` or `commentContent` of it. -/
def Filter.apply : Filter → Text → Text
  | .stringContent => Template.stringContent
  | .commentContent => Template.commentContent

/-! ## Rendering -/

/-- The values of the names that slots may take. -/
abbrev Context := List (Text × Text)

/-- The value of a slot before its filters, which a `Context` has or the slot itself. -/
def Value.find (context : Context) : Value → Except Fault Text
  | .literal content => .ok content
  | .name key =>
    match context.lookup key with
    | some content => .ok content
    | none => .error (.undefined key)

/-- The text of a piece. -/
def Piece.render (context : Context) : Piece → Except Fault Text
  | .text content => .ok content
  | .slot value filters => do
    return filters.foldl (fun content filter => filter.apply content) (← value.find context)

end Template

/-- A text with slots. -/
abbrev Template := List Template.Piece

namespace Template

/-- The text of a template, piece by piece (`Piece.render`). The first slot without a value is the fault. -/
def render (context : Context) (template : Template) : Except Fault Text :=
  Text.concat <$> template.mapM (Piece.render context)

/-- A template of several lines. -/
def ofLines (lines : List Template) : Template :=
  lines.flatMap fun line => line ++ [.text "\n"]

/-- A string literal in a template is text. -/
instance : Coe String Piece := ⟨fun text => .text text⟩

end Template

end ComponentKit
