import ComponentKit.Registry.Update
import ComponentKit.Source.Call
import ComponentKit.Source.Import
import ComponentKit.Source.MethodBody

/-!
# Patching a registry

Edits of the text of a registry: `insertImport` puts an import after the import block, `insertRegistration` a
registration into the method that registers the components of the kind, and `patch` does one after the other. Each
edit first looks for its own result, so that a text that has it stays as it is.
-/

namespace ComponentKit.Registry

open Text Source

/-! ## Outcomes -/

/-- Why an `Edit` was left out. -/
inductive Warning where
  /-- There is neither an import nor a declaration to put the import next to. -/
  | noImportPlace
  /-- The method that registers the components is not there. -/
  | methodMissing (layout : Layout)
  /-- The last registration is not closed within the method. -/
  | callNotClosed (layout : Layout)
  deriving DecidableEq, Repr

/-- The wording of a warning. -/
def Warning.message : Warning → Text
  | noImportPlace => "no import block or top-level declaration found; import not inserted"
  | methodMissing layout =>
    concat [layout.methodName, "() not found; registration left for auto-discovery"]
  | callNotClosed layout =>
    concat ["last ", layout.setter, "...) call in ", layout.methodName,
      "() is not closed; registration not inserted"]

/-- The outcome of `insertImport` or `insertRegistration`. -/
inductive Edit where
  /-- The text has what was to be added. -/
  | present
  /-- The text after the addition. -/
  | added (text : Text)
  /-- Nothing was added. -/
  | refused (warning : Warning)
  deriving DecidableEq, Repr

namespace Edit

/-- The text after an edit of `before`. -/
def text (before : Text) : Edit → Text
  | added text => text
  | _ => before

/-- Whether something was added. -/
def isAdded : Edit → Bool
  | added _ => true
  | _ => false

/-- The warnings of an edit, which is at most one. -/
def warnings : Edit → List Warning
  | refused warning => [warning]
  | _ => []

end Edit

/-! ## Imports -/

/-- Adds an import line at the `importPlace?`: after the last import, or before the first declaration of a text
without imports. -/
def insertImport (text line : Text) : Edit :=
  if occursIn line text then .present
  else match importPlace? text with
    | some place => .added (place.insert text line)
    | none => .refused .noImportPlace

/-! ## Registrations -/

/-- The lines of a registration. -/
structure Registration where
  /-- The registering call, by which a registration is recognized. -/
  call : Text
  /-- The lines after it. -/
  followers : List Text
  deriving DecidableEq, Repr

/-- All lines of a registration: its `call` and the `followers`. -/
def Registration.lines (registration : Registration) : List Text :=
  registration.call :: registration.followers

/-- Each line on a line of its own, behind `newline`, with the given indentation. -/
def indented (newline indent : Text) (lines : List Text) : Text :=
  lines.flatMap fun line => newline ++ indent ++ line

/-- One level of indentation. -/
def indentUnit : Text := "  "

/-- The indentation of the body of a method: one `indentUnit` more than the line of its signature has. -/
def bodyIndent (text : Text) (region : Region) : Text :=
  lineIndent text region.signatureStart ++ indentUnit

/-- The indentation for a line after the call at `offset`: that of the call, if the call starts its
line. -/
def callIndent (text : Text) (region : Region) (offset : Nat) : Text :=
  let start := lineStart text offset
  let lead := slice start offset text
  if region.bodyStart ≤ start && allBlank lead then lead else bodyIndent text region

/-- The indentation for a line at the end of a body: that of the last line of `content` that is not blank, or else the
`bodyIndent`. -/
def contentIndent (text : Text) (region : Region) (content : Text) : Text :=
  match (lines content).reverse.find? (!allBlank ·) with
  | some line =>
    let indent := indentation line
    if indent.isEmpty then bodyIndent text region else indent
  | none => bodyIndent text region

/-- The text with lines added at the end of a body, in front of its trailing blanks, with the `contentIndent`. The
closing brace gets a line of its own if it had none. -/
def appendToBody (text : Text) (region : Region) (newLines : List Text) : Text :=
  let newline := lineBreak text
  let body := region.body text
  let content := trimEnd body
  let trailing := body.drop content.length
  let ending := if trailing.contains '\n' then trailing
    else newline ++ lineIndent text region.signatureStart
  text.take region.bodyStart
    ++ (content ++ indented newline (contentIndent text region content) newLines ++ ending)
    ++ text.drop region.bodyEnd

/-- Adds a registration to the body of the method that `locate?` finds: behind `endOfCall?` of the last registration,
where the `anchor` says, or at the end of a body without one by `appendToBody`. -/
def insertRegistration (text : Text) (registration : Registration) (layout : Layout)
    (anchor : Anchor) : Edit :=
  match locate? text layout.methodName with
  | none => .refused (.methodMissing layout)
  | some region =>
    let body := region.body text
    if occursIn registration.call body then .present
    else match lastIndexOf? layout.setter body with
      | none => .added (appendToBody text region registration.lines)
      | some last =>
        let callStart := region.bodyStart + last
        match endOfCall? text callStart region.bodyEnd with
        | none => .refused (.callNotClosed layout)
        | some callEnd =>
          let place := match anchor with
            | .line => endOfLine text callEnd region.bodyEnd
            | .statement => callEnd
          .added (insertAt place
            (indented (lineBreak text) (callIndent text region callStart) registration.lines) text)

/-! ## Patches -/

/-- The `Registration` of an update: a legacy registry also starts the component, if there is a line that does so. -/
def Update.registration (update : Update) (style : RegistryStyle) : Registration :=
  ⟨update.registrationLine,
    if style = .legacy ∧ update.initializationLine ≠ [] then [update.initializationLine] else []⟩

/-- What a patch did to a text. -/
structure Patch where
  /-- The text after the patch. -/
  text : Text
  /-- Whether the import was added. -/
  importAdded : Bool
  /-- Whether the registration was added. -/
  registrationAdded : Bool
  /-- What was left out. -/
  warnings : List Warning
  deriving DecidableEq, Repr

/-- Whether anything was added. -/
def Patch.changed (patch : Patch) : Bool :=
  patch.importAdded || patch.registrationAdded

/-- Applies an update to the text of a registry: `insertImport` first, then `insertRegistration`. -/
def patch (style : RegistryStyle) (text : Text) (update : Update) : Patch :=
  let imported := insertImport text update.importLine
  let middle := imported.text text
  let registered := insertRegistration middle (update.registration style) (layout update.kind)
    (.ofStyle style)
  { text := registered.text middle
    importAdded := imported.isAdded
    registrationAdded := registered.isAdded
    warnings := imported.warnings ++ registered.warnings }

end ComponentKit.Registry
