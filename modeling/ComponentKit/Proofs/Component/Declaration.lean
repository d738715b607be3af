import ComponentKit.Proofs.Component.Content
import ComponentKit.Proofs.Component.Identity

/-!
# Declared names

The class and the variable that a component declares are identifiers under every accepted name. The class is never
one of the `languageWords`, since it starts with a capital letter. The variable is one for a util alone, the kind
without a suffix: the words that no component may be called (`Name.reserved`) are not all the words of the
language.
-/

namespace ComponentKit

open Text

/-! ## Words of the language -/

/-- The words that the language of the components keeps for itself. -/
def languageWords : List Text :=
  ["break", "case", "catch", "class", "const", "continue", "debugger", "default", "delete", "do", "else",
    "enum", "export", "extends", "false", "finally", "for", "function", "if", "import", "in", "instanceof",
    "new", "null", "return", "super", "switch", "this", "throw", "true", "try", "typeof", "var", "void",
    "while", "with"]

/-- Whether a text is a letter followed by letters and digits, all ASCII. -/
def IsDeclarable (x : Text) : Prop :=
  ∃ c rest, x = c :: rest ∧ c.isAlpha = true ∧ isAscii rest

/-- The words of the language are written in small letters. -/
theorem notMem_languageWords {x : Text} {c : Char} (hc : c ∈ x) (hlower : c.isLower = false) :
    x ∉ languageWords := by
  have hall : languageWords.all (·.all Char.isLower) = true := by decide
  intro hx
  rw [List.all_eq_true.mp (List.all_eq_true.mp hall x hx) c hc] at hlower
  cases hlower

namespace Name

variable {name : Text}

/-- The form of a variable is a word of the language exactly if the hyphenated form is one: then the name has
one word, and both forms are this word. -/
theorem IsPlain.camel_mem_languageWords_iff (h : IsPlain name) :
    camel name ∈ languageWords ↔ Name.kebab name ∈ languageWords := by
  cases hwords : words name with
  | nil => simp [camel, Name.kebab, hwords, join]
  | cons first others =>
    cases others with
    | nil => simp [camel, Name.kebab, hwords, join]
    | cons second others =>
      -- the second word does not start with a small letter in the one, and follows a hyphen in the other
      have hall := h.words_forall
      rw [hwords] at hall
      obtain ⟨hsecond, hne⟩ := hall second (by simp)
      obtain ⟨c, rest, rfl⟩ := List.exists_cons_of_ne_nil hne
      have hcamel : camel name ∉ languageWords := by
        have hmem : c.toUpper ∈ camel name := by simp [camel, hwords, capitalize_cons hsecond]
        refine notMem_languageWords hmem ?_
        exact forall_isAlphanum (p := fun c => c.toUpper.isLower = false) (by decide)
          (hsecond c List.mem_cons_self)
      have hkebab : Name.kebab name ∉ languageWords := by
        have hmem : '-' ∈ Name.kebab name := by simp [Name.kebab, hwords, join]
        exact notMem_languageWords hmem (by decide)
      exact iff_of_false hcamel hkebab

end Name

/-! ## Names of classes and variables -/

namespace Component

open Template

variable {raw key name : Text} {kind : Kind} {maxLength : Int}

theorem isDeclarable_instanceName (h : Name.validate raw kind maxLength = .ok key) :
    IsDeclarable (instanceName kind raw) := by
  obtain ⟨hplain, -⟩ := Name.validate_eq_ok h
  obtain ⟨c, rest, others, hc, hwords⟩ := Name.startsWithLetter_of_validate h
  have hword : isAscii (c :: rest) := hplain (c :: rest) (by simp [hwords])
  have hascii := isAscii_instanceName hplain kind
  have hsplit : instanceName kind raw
      = c.toLower :: (lower rest ++ others.flatMap capitalize ++ kind.conventions.typeSuffix) := by
    simp [instanceName, Name.camel, hwords, lower_cons hword]
  rw [hsplit] at hascii ⊢
  -- a letter in front stays a letter when it is made small
  refine ⟨_, _, rfl, ?_, fun d hd => hascii d (List.mem_cons_of_mem _ hd)⟩
  exact forall_isAlphanum (p := fun c => c.isAlpha = true → c.toLower.isAlpha = true) (by decide)
    (hword c List.mem_cons_self) hc

/-- A class is an identifier and no word of the language. -/
theorem isDeclarable_typeName (h : Name.validate raw kind maxLength = .ok key) :
    IsDeclarable (typeName kind raw) ∧ typeName kind raw ∉ languageWords := by
  obtain ⟨hascii, c, rest, htype, hupper⟩ := isClassName_typeName h
  have hc : c ∈ typeName kind raw := by simp [htype]
  refine ⟨⟨c, rest, htype, by simp [Char.isAlpha, hupper], fun d hd => hascii d ?_⟩,
    notMem_languageWords hc ?_⟩
  · rw [htype]
    exact List.mem_cons_of_mem c hd
  · exact forall_isAlphanum (p := fun c => c.isUpper = true → c.isLower = false) (by decide)
      (hascii c hc) hupper

/-- A variable is a word of the language only without a suffix. -/
theorem instanceName_mem_languageWords_iff (h : Name.validate raw kind maxLength = .ok key) :
    instanceName kind raw ∈ languageWords ↔ kind = .util ∧ key ∈ languageWords := by
  obtain ⟨hplain, rfl⟩ := Name.validate_eq_ok h
  by_cases hk : kind = .util
  · subst hk
    have hname : instanceName .util raw = Name.camel raw := List.append_nil _
    rw [hname, hplain.camel_mem_languageWords_iff]
    simp
  · -- each suffix has a capital letter
    have hcapital : kind.conventions.typeSuffix.any (!·.isLower) = true := by
      cases kind with
      | util => exact absurd rfl hk
      | tool | resource | prompt | service | transport => rfl
    obtain ⟨c, hc, hlower⟩ := List.any_eq_true.mp hcapital
    have hmem : c ∈ instanceName kind raw := List.mem_append_right _ hc
    exact iff_of_false (notMem_languageWords hmem (by simpa using hlower)) fun hword => hk hword.1

/-! ## Declarations -/

/-- The pieces of a line between its line breaks. -/
theorem infix_of_mem {lines : List Template} {line : Template} (h : line ∈ lines) :
    .text "\n" :: (line ++ [.text "\n"]) <:+: .text "\n" :: Template.ofLines lines := by
  induction lines with
  | nil => simp at h
  | cons first lines ih =>
    have hsplit : Template.ofLines (first :: lines) = first ++ (.text "\n" :: Template.ofLines lines) := by
      simp [Template.ofLines]
    rw [hsplit]
    rcases List.mem_cons.mp h with rfl | h
    · exact ⟨[], Template.ofLines lines, by simp⟩
    · have hrest : .text "\n" :: Template.ofLines lines
          <:+ .text "\n" :: (first ++ (.text "\n" :: Template.ofLines lines)) :=
        (List.suffix_append first _).trans (List.suffix_cons _ _)
      exact (ih h).trans hrest.isInfix

/-- Every component has a line that declares its class. -/
theorem exists_classLine (kind : Kind) :
    ∃ tail : Text, [.text "export class ", typeSlot, .text (' ' :: tail)] ∈ body kind := by
  cases kind with
  | tool => exact ⟨"\x7b".toList, List.mem_append_right toolPreamble List.mem_cons_self⟩
  | resource => exact ⟨"\x7b".toList, List.mem_append_right resourcePreamble List.mem_cons_self⟩
  | prompt => exact ⟨"\x7b".toList, List.mem_append_right promptPreamble List.mem_cons_self⟩
  | service =>
    exact ⟨"\x7b".toList,
      List.mem_append_left serviceTimeout (List.mem_append_right servicePreamble List.mem_cons_self)⟩
  | transport =>
    exact ⟨"implements Transport \x7b".toList, List.mem_append_right transportPreamble List.mem_cons_self⟩
  | util => exact ⟨"\x7b".toList, List.mem_append_right utilPreamble List.mem_cons_self⟩

/-- A service and a util have a line that declares a variable for it. -/
theorem constantLine_mem (h : kind = .service ∨ kind = .util) :
    [.text "export const ", instanceSlot, .text " = new ", typeSlot, .text "();"] ∈ body kind := by
  rcases h with rfl | rfl
  · exact List.mem_append_right (servicePreamble ++ serviceClass) (List.mem_of_getElem? (i := 20) rfl)
  · exact List.mem_append_right utilPreamble (List.mem_of_getElem? (i := 17) rfl)

theorem render_classLine (kind : Kind) (name : Text) (details : Details) (created tail : Text) :
    Template.render (context kind name details created)
        (.text "\n" :: ([.text "export class ", typeSlot, .text (' ' :: tail)] ++ [.text "\n"]))
      = .ok (concat ["\n", "export class ", typeName kind name, ' ' :: tail, "\n"]) := by
  simp [Template.render, Piece.render, typeSlot, context, List.lookup, Value.find, bind, Except.bind, pure,
    Except.pure, Functor.map, Except.map, concat]

theorem render_constantLine (kind : Kind) (name : Text) (details : Details) (created : Text) :
    Template.render (context kind name details created)
        (.text "\n" :: ([.text "export const ", instanceSlot, .text " = new ", typeSlot, .text "();"]
          ++ [.text "\n"]))
      = .ok (concat ["\n", "export const ", instanceName kind name, " = new ", typeName kind name, "();",
          "\n"]) := by
  simp [Template.render, Piece.render, typeSlot, instanceSlot, context, List.lookup, Value.find, bind,
    Except.bind, pure, Except.pure, Functor.map, Except.map, concat]

/-- A name that `validate` accepts, used as it was given or as it was accepted, leads to a component that declares its
class and, for a service and a util, a variable. Class and variable are identifiers. The class is not in
`languageWords`; the variable is exactly if the component is a util and its key is such a word. -/
theorem declares_of_validate (h : Name.validate raw kind maxLength = .ok key) (hname : name = raw ∨ name = key)
    (details : Details) (created : Text) :
    ∃ rest component, generateFrom (sourceTemplate kind) kind name details created = .ok component ∧
      component.content = '/' :: '*' :: (headerOf kind name details created ++ '*' :: '/' :: rest) ∧
      concat ["\nexport class ", typeName kind raw, " "] <:+: rest ∧
      (kind = .service ∨ kind = .util → concat ["\nexport const ", instanceName kind raw, " = new ",
        typeName kind raw, "();\n"] <:+: rest) ∧
      IsDeclarable (typeName kind raw) ∧ typeName kind raw ∉ languageWords ∧
      IsDeclarable (instanceName kind raw) ∧
      (instanceName kind raw ∈ languageWords ↔ kind = .util ∧ key ∈ languageWords) := by
  obtain ⟨hplain, hkey⟩ := Name.validate_eq_ok h
  -- the forms of the hyphenated name are those of the name that was given
  have htype : typeName kind name = typeName kind raw := by
    rcases hname with rfl | rfl
    · rfl
    · rw [typeName, hkey, hplain.pascal_kebab, typeName]
  have hinstance : instanceName kind name = instanceName kind raw := by
    rcases hname with rfl | rfl
    · rfl
    · rw [instanceName, hkey, hplain.camel_kebab, instanceName]
  obtain ⟨rest, component, hrest, hcomponent, hcontent⟩ := exists_component kind name details created
  obtain ⟨tail, hclass⟩ := exists_classLine kind
  refine ⟨rest, component, hcomponent, hcontent, ?_, fun hconstant => ?_, (isDeclarable_typeName h).1,
    (isDeclarable_typeName h).2, isDeclarable_instanceName h, instanceName_mem_languageWords_iff h⟩
  -- both lines are parts of the template and render on their own
  · have hline := infix_of_render (infix_of_mem hclass) hrest (render_classLine ..)
    rw [← htype]
    refine List.IsInfix.trans ?_ hline
    exact ⟨[], tail ++ ['\n'], by simp [concat]⟩
  · have hline := infix_of_render (infix_of_mem (constantLine_mem hconstant)) hrest (render_constantLine ..)
    rw [← htype, ← hinstance]
    refine List.IsInfix.trans ?_ hline
    exact ⟨[], [], by simp [concat]⟩

/-- A service whose name has capital letters and an underscore. -/
theorem declares_retry_queue :
    Name.validate "Retry_Queue" .service 50 = .ok "retry-queue".toList ∧
    ∃ rest component, generateFrom (sourceTemplate .service) .service "retry-queue" ⟨[], [], []⟩ "2026-01-15"
        = .ok component ∧
      component.content = '/' :: '*' ::
        (headerOf .service "retry-queue" ⟨[], [], []⟩ "2026-01-15" ++ '*' :: '/' :: rest) ∧
      concat ["\nexport const ", instanceName .service "Retry_Queue", " = new ",
        typeName .service "Retry_Queue", "();\n"] <:+: rest := by
  have hvalid : Name.validate "Retry_Queue" .service 50 = .ok "retry-queue".toList := by rfl
  obtain ⟨rest, component, hcomponent, hcontent, -, hconstant, -⟩ :=
    declares_of_validate hvalid (.inr rfl) ⟨[], [], []⟩ "2026-01-15"
  exact ⟨hvalid, rest, component, hcomponent, hcontent, hconstant (.inl rfl)⟩

/-- A util may be called like a word of the language. -/
theorem not_declares_legal : ¬ ∀ (kind : Kind) (raw key : Text) (maxLength : Int),
    Name.validate raw kind maxLength = .ok key →
      IsDeclarable (typeName kind raw) ∧ typeName kind raw ∉ languageWords ∧
      IsDeclarable (instanceName kind raw) ∧ instanceName kind raw ∉ languageWords := by
  intro hall
  have hvalid : Name.validate "new" .util 50 = .ok "new".toList := by rfl
  obtain ⟨-, -, -, hword⟩ := hall .util "new" "new" 50 hvalid
  exact hword (by decide)

end Component

end ComponentKit
