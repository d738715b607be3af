import ComponentKit.Proofs.Component.Reading
import ComponentKit.Proofs.Registry.Idempotence
import ComponentKit.Proofs.Registry.Wiring

/-!
# Reading a patched registry

A `patch` puts lines into a text without regard to what a reader of the text is in at the place. Every line that is
put in leaves the reader in the mode of its place, but for line comments, which end with the line break in front of
it. So a registration is code where its place is, and the rest of the text is read as before unless the place is in
a line comment that goes on behind it (`PartsNoComment`).
-/

namespace ComponentKit.Registry

open Text Source Component

variable {kind : IndexedKind} {style : RegistryStyle} {update : Update} {key text result : Text}
  {lines : List Text} {mode : Mode}

/-! ## Lines -/

/-- Behind lines a reader is in the mode in which the first of them starts. -/
theorem AreLines.after (h : AreLines lines text) (hmode : mode.Paused) (hlines : ∀ line ∈ lines, Mode.Keeps line)
    (hne : lines ≠ []) (next : Option Char) : mode.after text next = mode.nextLine := by
  induction h generalizing mode with
  | nil => exact absurd rfl hne
  | @cons newline indent line text lines hn hi _ hrest ih =>
    obtain ⟨hline, hothers⟩ := List.forall_mem_cons.mp hlines
    obtain ⟨hsettled, hcomment⟩ := hmode.nextLine
    rw [Mode.after_append, Mode.after_append, Mode.after_append, hmode.after_break hn,
      hsettled.after_blank hcomment hi, hline _ hsettled]
    cases hrest with
    | nil => rfl
    | cons =>
      rw [ih hsettled.paused hothers (List.cons_ne_nil _ _)]
      exact hsettled.nextLine_eq hcomment

/-! ## Exchanges -/

/-- An edit of a text: a piece is exchanged for another one. -/
structure Exchange where
  /-- The text in front of the piece. -/
  front : Text
  /-- The piece. -/
  removed : Text
  /-- What is put in its place. -/
  added : Text
  /-- The text behind it. -/
  back : Text

namespace Exchange

/-- The text that is edited. -/
def before (edit : Exchange) : Text :=
  edit.front ++ (edit.removed ++ edit.back)

/-- The text after the edit. -/
def after (edit : Exchange) : Text :=
  edit.front ++ (edit.added ++ edit.back)

/-- What the reader of the edited text is in when it comes to the piece, by `Mode.after`. -/
def placeMode (edit : Exchange) : Mode :=
  Mode.code.after edit.front (edit.removed ++ edit.back).head?

/-- What the reader of the text after the edit is in at the first character that was put in and is not
blank. -/
def addedMode (edit : Exchange) : Mode :=
  Mode.code.after (edit.front ++ edit.added.takeWhile isBlank) (edit.added.dropWhile isBlank).head?

/-- Whether each character around the piece belongs to the same before and after the edit. -/
def KeepsClasses (edit : Exchange) : Prop :=
  Mode.code.read edit.front (edit.removed ++ edit.back).head?
      = Mode.code.read edit.front (edit.added ++ edit.back).head? ∧
    (Mode.code.after (edit.front ++ edit.removed) edit.back.head?).read edit.back none
      = (Mode.code.after (edit.front ++ edit.added) edit.back.head?).read edit.back none

/-- Whether no mark of a comment goes on behind the part in front of the piece. -/
structure IsApart (edit : Exchange) : Prop where
  /-- Before the edit. -/
  before : Mode.Apart edit.front (edit.removed ++ edit.back).head?
  /-- After the edit. -/
  after : Mode.Apart edit.front (edit.added ++ edit.back).head?

variable {edit : Exchange}

theorem IsApart.after_front (h : edit.IsApart) :
    Mode.code.after edit.front (edit.added ++ edit.back).head? = edit.placeMode := by
  rw [placeMode, (Mode.read_of_apart h.before _).2, (Mode.read_of_apart h.after _).2]

theorem IsApart.paused (h : edit.IsApart) : edit.placeMode.Paused :=
  ((show Mode.code.Settled from trivial).after h.before).1

/-- Whether an exchange that lets the next line start keeps the classes depends on line comments only. -/
theorem IsApart.keepsClasses_iff (h : edit.IsApart)
    (hadded : ∀ next, edit.placeMode.after edit.added next = edit.placeMode.nextLine)
    (hremoved : ∀ c ∈ edit.removed, isBlank c = true ∧ c ≠ '\n')
    (hback : edit.placeMode.Settled ∨
      ∀ c ∈ (edit.removed ++ edit.back).head?, Mode.isInert c = true ∨ c = '\n') :
    edit.KeepsClasses ↔ (edit.placeMode = .lineComment →
      Mode.lineComment.read edit.back none = Mode.code.read edit.back none) := by
  -- what is in front is read alike, as neither side lets its first character change that
  have hfront : Mode.code.read edit.front (edit.removed ++ edit.back).head?
      = Mode.code.read edit.front (edit.added ++ edit.back).head? := by
    rw [(Mode.read_of_apart h.before _).1, (Mode.read_of_apart h.after _).1]
  have hinert : ∀ c ∈ edit.removed, Mode.isInert c = true :=
    fun c hc => Mode.isInert_of_isBlank (hremoved c hc).1 (hremoved c hc).2
  have hbefore : Mode.code.after (edit.front ++ edit.removed) edit.back.head?
      = edit.placeMode.after edit.removed edit.back.head? := by
    rw [Mode.after_append, ← List.head?_append]
    rfl
  have hafter : Mode.code.after (edit.front ++ edit.added) edit.back.head? = edit.placeMode.nextLine := by
    rw [Mode.after_append, ← List.head?_append, h.after_front, hadded]
  rw [KeepsClasses, and_iff_right hfront, hbefore, hafter]
  by_cases hcomment : edit.placeMode = .lineComment
  · -- what is removed does not end the comment
    rw [hcomment, Mode.keeps_of_isInert hinert .lineComment trivial]
    exact ⟨fun h _ => h, fun h => h rfl⟩
  · refine iff_of_true ?_ fun hc => absurd hc hcomment
    cases hsplit : edit.removed with
    | nil =>
      rw [hsplit] at hback
      exact (h.paused.read_nextLine hcomment hback).symm
    | cons c rest =>
      -- what is removed is blank, and a backslash takes its first character
      rw [hsplit] at hinert
      obtain ⟨hc, hrest⟩ := List.forall_mem_cons.mp hinert
      rw [Mode.after, h.paused.step_of_isInert hcomment hc,
        Mode.keeps_of_isInert hrest _ h.paused.nextLine.1]

/-- Whether the place is not in a line comment, or in one of which nothing is left behind it. -/
def PartsNoComment (edit : Exchange) : Prop :=
  edit.placeMode = .lineComment → Mode.lineComment.read edit.back none = Mode.code.read edit.back none

end Exchange

/-! ## The import step -/

/-- What `insertImport` does to a text, as an edit. -/
structure Exchange.Imports (edit : Exchange) (text : Text) (update : Update) : Prop where
  /-- It edits the text. -/
  before_eq : edit.before = text
  /-- It leaves the text that the registration step finds. -/
  after_eq : edit.after = imported text update
  /-- It takes nothing away. -/
  removed_eq : edit.removed = []
  /-- It puts in the import line next to a line break, or nothing. -/
  added_cases : edit.added = [] ∨ ∃ newline, IsBreak newline ∧
    (edit.added = newline ++ update.importLine ∨ edit.added = update.importLine ++ newline)
  /-- The rest of the text is read as before, unless the import line parts a line comment. -/
  keepsClasses_iff : edit.KeepsClasses ↔ (edit.added ≠ [] → edit.PartsNoComment)

/-- A step that adds nothing. -/
theorem imports_nothing (h : imported text update = text) :
    (Exchange.mk text [] [] []).Imports text update where
  before_eq := List.append_nil text
  after_eq := (List.append_nil text).trans h.symm
  removed_eq := rfl
  added_cases := .inl rfl
  keepsClasses_iff := iff_of_true ⟨rfl, rfl⟩ fun hne => absurd rfl hne

/-- A step that puts in the import line where a reader is settled. -/
theorem imports_line {p q line newline : Text} (htext : text = p ++ q)
    (hlast : ∀ c ∈ p.getLast?, c ≠ '/' ∧ c ≠ '*' ∧ c ≠ '\\') (hn : IsBreak newline)
    (himported : imported text update = p ++ line ++ q)
    (hline : line = newline ++ update.importLine ∨ line = update.importLine ++ newline)
    (hafter : ∀ mode : Mode, mode.Settled → ∀ next, mode.after line next = mode.nextLine) :
    (Exchange.mk p [] line q).Imports text update := by
  -- the last character in front starts no mark, so the reader is settled at the place
  have hapart : ∀ next, Mode.Apart p next := fun next => .inl fun c hc => ⟨(hlast c hc).1, (hlast c hc).2.1⟩
  have hedit : (Exchange.mk p [] line q).IsApart := ⟨hapart _, hapart _⟩
  have hsettled : (Exchange.mk p [] line q).placeMode.Settled :=
    ((show Mode.code.Settled from trivial).after hedit.before).2 fun hback => (hlast _ hback).2.2 rfl
  have hne : line ≠ [] := by
    rcases hline with rfl | rfl <;> simp [hn.ne_nil]
  refine ⟨htext.symm, ?_, rfl, .inr ⟨newline, hn, hline⟩, ?_⟩
  · rw [himported, List.append_assoc]
    rfl
  · rw [hedit.keepsClasses_iff (hafter _ hsettled) (by simp) (.inl hsettled)]
    exact ⟨fun h _ => h, fun h => h hne⟩

/-- The import step is such an edit: it goes behind a mark that ends a statement, or in front of a line. -/
theorem exists_imports (hkeeps : Mode.Keeps update.importLine) (text : Text) :
    ∃ edit : Exchange, edit.Imports text update := by
  have hn : IsBreak (lineBreak text) := isBreak_lineBreak text
  -- the marks that an import ends with are none that a comment or a string hangs on
  rcases imported_split text update with
    ⟨-, hsame⟩ | ⟨-, p, q, htext, ⟨hends, hinsert⟩ | ⟨hstart, hinsert⟩⟩
  · exact ⟨_, imports_nothing hsame⟩
  · have hlast : ∀ c ∈ p.getLast?, c ≠ '/' ∧ c ≠ '*' ∧ c ≠ '\\' := by
      obtain ⟨c, hlast, hmarks⟩ := hends.last_mark
      rw [hlast]
      rintro d hd
      obtain rfl := Option.some.inj hd
      rcases hmarks with rfl | rfl | rfl | rfl | rfl <;> decide
    refine ⟨_, imports_line htext hlast hn hinsert (.inl rfl) fun mode hmode next => ?_⟩
    rw [Mode.after_append, hmode.paused.after_break hn, hkeeps _ hmode.paused.nextLine.1]
  · have hlast : ∀ c ∈ p.getLast?, c ≠ '/' ∧ c ≠ '*' ∧ c ≠ '\\' := by
      rcases hstart with rfl | hlast
      · simp
      · rw [hlast]
        rintro c hc
        obtain rfl := Option.some.inj hc
        decide
    refine ⟨_, imports_line htext hlast hn hinsert (.inr rfl) fun mode hmode next => ?_⟩
    rw [Mode.after_append, hkeeps _ hmode, hmode.paused.after_break hn]

/-! ## The registration step -/

/-- What `insertRegistration` does to a text, as an edit. -/
structure Exchange.Registers (edit : Exchange) (text result : Text) (registration : Registration) : Prop where
  /-- It edits the text. -/
  before_eq : edit.before = text
  /-- It leaves the result. -/
  after_eq : edit.after = result
  /-- It takes away blanks at most. -/
  removed_blank : ∀ c ∈ edit.removed, isBlank c = true ∧ c ≠ '\n'
  /-- It puts in the lines of the registration, perhaps with blanks behind them. -/
  added_eq : ∃ added ending, edit.added = added ++ ending ∧ AreLines registration.lines added ∧
    ∀ c ∈ ending, isBlank c = true
  /-- The call is the first thing that it puts in. -/
  call_prefix : registration.call <+: edit.added.dropWhile isBlank
  /-- The call is read as code if the place is read as code or is in a line comment. -/
  addedMode_iff : edit.addedMode = .code ↔ edit.placeMode = .code ∨ edit.placeMode = .lineComment
  /-- The rest of the text is read as before, unless the lines part a line comment. -/
  keepsClasses_iff : edit.KeepsClasses ↔ edit.PartsNoComment

/-- Whether the character behind a place is no mark. -/
def IsCalm (text : Text) : Prop :=
  ∀ c ∈ text.head?, Mode.isInert c = true ∨ c = '\n'

theorem IsCalm.apart (h : IsCalm text) (front : Text) : Mode.Apart front text.head? := by
  refine .inr fun c hc => ?_
  rcases h c hc with hinert | rfl
  · obtain ⟨-, hslash, -, hstar, -⟩ := Mode.isInert_iff.mp hinert
    exact ⟨hslash, hstar⟩
  · decide

theorem isCalm_of_isBlank {c : Char} (hc : isBlank c = true) (rest : Text) : IsCalm (c :: rest) := by
  rintro d hd
  obtain rfl := Option.some.inj hd
  by_cases hbreak : c = '\n'
  · exact .inr hbreak
  · exact .inl (Mode.isInert_of_isBlank hc hbreak)

theorem isCalm_brace (rest : Text) : IsCalm ('\x7d' :: rest) := by
  rintro c hc
  obtain rfl := Option.some.inj hc
  exact .inl (by decide)

section Seams

variable {seam : Seam} {registration : Registration} {layout : Layout} {anchor : Anchor}

/-- A registration goes behind a call, or in front of a character that is no mark. -/
theorem Seam.Adds.place_cases (h : seam.Adds text result registration layout anchor) :
    endsLikeCall seam.front ∨ IsCalm (seam.back ++ '\x7d' :: seam.rest) := by
  -- blanks and the brace behind them are no marks
  have hblank : (∀ c ∈ seam.back, isBlank c = true) → IsCalm (seam.back ++ '\x7d' :: seam.rest) := by
    intro hblank
    cases hsplit : seam.back with
    | nil => exact isCalm_brace _
    | cons c back =>
      refine isCalm_of_isBlank (hblank c ?_) _
      rw [hsplit]
      exact List.mem_cons_self
  rcases h.isCut.cases_front with ⟨htrim, -⟩ | hcall | hback | ⟨rest, hback⟩
  · exact .inr (hblank fun c => isBlank_of_trimEnd htrim)
  · exact .inl hcall
  · rw [hback]
    exact .inr (isCalm_brace _)
  · right
    rcases hback with hback | hback <;>
    · rw [hback]
      exact isCalm_of_isBlank (by decide) _

/-- The edit of a registration step: blanks in front of the closing brace are taken away, or nothing is. -/
theorem Seam.Adds.exists_exchange (h : seam.Adds text result registration layout anchor) :
    ∃ edit : Exchange, edit.before = text ∧ edit.after = result ∧ edit.front = seam.opening ++ seam.front ∧
      edit.removed ++ edit.back = seam.back ++ '\x7d' :: seam.rest ∧
      (∀ c ∈ edit.removed, isBlank c = true ∧ c ≠ '\n') ∧
      ∃ ending, edit.added = seam.added text registration ++ ending ∧ ∀ c ∈ ending, isBlank c = true := by
  -- with the same ending nothing is taken away, otherwise the blanks up to the brace are
  by_cases hkept : seam.ending = seam.back
  · refine ⟨⟨seam.opening ++ seam.front, [], seam.added text registration, seam.back ++ '\x7d' :: seam.rest⟩,
      ?_, ?_, rfl, rfl, by simp, [], (List.append_nil _).symm, by simp⟩
    · rw [h.text_eq, Seam.body, Exchange.before]
      simp only [List.append_assoc, List.nil_append]
    · rw [h.result_eq, hkept, Exchange.after]
      simp only [List.append_assoc]
  · obtain ⟨-, hblank, hending⟩ := h.ending_blank hkept
    obtain ⟨hbreak, -⟩ := h.ending_cases.resolve_left hkept
    refine ⟨⟨seam.opening ++ seam.front, seam.back, seam.added text registration ++ seam.ending,
      '\x7d' :: seam.rest⟩, ?_, ?_, rfl, rfl, fun c hc => ⟨hblank c hc, ?_⟩, seam.ending, rfl, hending⟩
    · rw [h.text_eq, Seam.body, Exchange.before]
      simp only [List.append_assoc]
    · rw [h.result_eq, Exchange.after]
      simp only [List.append_assoc]
    · rintro rfl
      exact hbreak hc

/-- The place of a registration is apart from what follows it, and a backslash in front of it takes no mark. -/
theorem Seam.Adds.place_apart (h : seam.Adds text result registration layout anchor) :
    Mode.Apart (seam.opening ++ seam.front) (seam.back ++ '\x7d' :: seam.rest).head? ∧
      ((seam.opening ++ seam.front).getLast? ≠ some '\\' ∨ IsCalm (seam.back ++ '\x7d' :: seam.rest)) := by
  rcases h.place_cases with hends | hcalm
  · have hlast : ∀ c ∈ (seam.opening ++ seam.front).getLast?, c = ')' ∨ c = ';' := by
      rintro c hc
      rcases (hends.append_left seam.opening).getLast? with hlast | hlast
      · exact .inl (Option.some.inj (hc.symm.trans hlast))
      · exact .inr (Option.some.inj (hc.symm.trans hlast))
    refine ⟨.inl fun c hc => ?_, .inl fun hback => ?_⟩
    · rcases hlast c hc with rfl | rfl <;> decide
    · rcases hlast _ hback with h | h <;> cases h
  · exact ⟨hcalm.apart _, .inr hcalm⟩

/-- What is put in are blanks and the call, and more behind it. -/
theorem Seam.Adds.added_split (h : seam.Adds text result registration layout anchor)
    (hcall : IsBodyLine registration.call) {added ending : Text}
    (hadded : added = seam.added text registration ++ ending) :
    ∃ more, added = (lineBreak text ++ seam.indent) ++ (registration.call ++ more) ∧
      added.takeWhile isBlank = lineBreak text ++ seam.indent ∧
      added.dropWhile isBlank = registration.call ++ more := by
  refine ⟨indented (lineBreak text) seam.indent registration.followers ++ ending, ?_⟩
  have hsplit : added = (lineBreak text ++ seam.indent)
      ++ (registration.call ++ (indented (lineBreak text) seam.indent registration.followers ++ ending)) := by
    rw [hadded, Seam.added, Registration.lines, indented_cons]
    simp only [List.append_assoc]
  have hlead : ∀ c ∈ lineBreak text ++ seam.indent, isBlank c = true := by
    intro c hc
    exact (List.mem_append.mp hc).elim isBlank_of_mem_lineBreak (h.indent_blank c)
  obtain ⟨tail, htail⟩ := List.head?_eq_some_iff.mp hcall.head
  have hfirst : ∀ more, (registration.call ++ more).head?.any isBlank = false := by
    intro more
    rw [htail]
    rfl
  refine ⟨hsplit, ?_, ?_⟩
  · rw [hsplit]
    exact takeWhile_eq_of_forall hlead (hfirst _)
  · rw [hsplit]
    exact dropWhile_eq_of_forall hlead (hfirst _)

theorem exists_cons_lineBreak (text indent : Text) :
    ∃ c rest, lineBreak text ++ indent = c :: rest ∧ isBlank c = true := by
  rcases isBreak_lineBreak text with hnew | hnew
  · exact ⟨'\n', indent, by rw [hnew]; rfl, by decide⟩
  · exact ⟨'\r', '\n' :: indent, by rw [hnew]; rfl, by decide⟩

theorem Seam.Adds.exists_registers (h : seam.Adds text result registration layout anchor)
    (hcall : IsBodyLine registration.call) (hlines : ∀ line ∈ registration.lines, Mode.Keeps line) :
    ∃ edit : Exchange, edit.Registers text result registration := by
  obtain ⟨edit, hbefore, hafter, hfront, hbehind, hremoved, ending, hadded, hending⟩ := h.exists_exchange
  have hn : IsBreak (lineBreak text) := isBreak_lineBreak text
  have hareLines : AreLines registration.lines (seam.added text registration) :=
    areLines_indented hn h.indent_blank h.indent_unbroken _
  obtain ⟨more, hmore, htake, hdrop⟩ := h.added_split hcall hadded
  obtain ⟨first, rest, hsplit, hblank⟩ := exists_cons_lineBreak text seam.indent
  have hcalm : IsCalm (edit.added ++ edit.back) := by
    rw [hmore, hsplit]
    exact isCalm_of_isBlank hblank _
  have hplace := h.place_apart
  rw [← hfront, ← hbehind] at hplace
  -- apart from both sides, the modes in front of the lines and behind them are known
  have hedit : edit.IsApart := ⟨hplace.1, hcalm.apart _⟩
  obtain ⟨hsettled, hcomment⟩ := hedit.paused.nextLine
  refine ⟨edit, hbefore, hafter, hremoved, ⟨_, ending, hadded, hareLines, hending⟩, ?_, ?_, ?_⟩
  · rw [hdrop]
    exact List.prefix_append _ _
  · have hseen : ∀ next, (lineBreak text ++ seam.indent).head?.or next = (edit.added ++ edit.back).head? := by
      intro next
      rw [hmore, hsplit]
      rfl
    rw [Exchange.addedMode, htake, Mode.after_append, hseen, hedit.after_front, Mode.after_append,
      hedit.paused.after_break hn, hsettled.after_blank hcomment h.indent_blank]
    exact hedit.paused.nextLine_eq_code_iff
  · refine hedit.keepsClasses_iff (fun next => ?_) hremoved (hplace.2.imp_left ?_)
    · rw [hadded, Mode.after_append, hareLines.after hedit.paused hlines (List.cons_ne_nil _ _),
        hsettled.after_blank hcomment hending]
    · exact ((show Mode.code.Settled from trivial).after hedit.before).2

end Seams

/-! ## Patches -/

/-- A `patch` that adds a registration, as two edits. The registration is read as code and all characters of the text
belong to what they have belonged to exactly if the import does not part a line comment and the registration goes into
code, or into a line comment of which nothing is left behind it. -/
theorem patch_reads (h : Makes kind key update) (hadded : (patch style text update).registrationAdded = true) :
    ∃ imports registers : Exchange, imports.Imports text update ∧
      registers.Registers (imported text update) (patch style text update).text (update.registration style) ∧
      (registers.addedMode = .code ∧ imports.KeepsClasses ∧ registers.KeepsClasses ↔
        (imports.added ≠ [] → imports.PartsNoComment) ∧
          (registers.placeMode = .code ∨ registers.placeMode = .lineComment ∧ registers.PartsNoComment)) := by
  obtain ⟨himport, hregistration, hinitialization⟩ := keeps_of_makes h
  obtain ⟨imports, himports⟩ := exists_imports himport text
  have hw := isWiring_of_makes h
  obtain ⟨seam, hs⟩ := exists_seam_patch hadded
  have hkeeps : ∀ line ∈ (update.registration style).lines, Mode.Keeps line := by
    intro line hline
    rcases mem_lines_registration hline with rfl | rfl
    · exact hregistration
    · exact hinitialization
  obtain ⟨registers, hregisters⟩ := hs.exists_registers (hw.isBodyLine style _ List.mem_cons_self) hkeeps
  refine ⟨imports, registers, himports, hregisters, ?_⟩
  rw [hregisters.addedMode_iff, himports.keepsClasses_iff, hregisters.keepsClasses_iff]
  -- in code both edits keep all classes; in a line comment that depends on what is left behind
  constructor
  · rintro ⟨hcode | hcomment, himported, hparts⟩
    · exact ⟨himported, .inl hcode⟩
    · exact ⟨himported, .inr ⟨hcomment, hparts⟩⟩
  · rintro ⟨himported, hcode | ⟨hcomment, hparts⟩⟩
    · refine ⟨.inl hcode, himported, fun hcomment => ?_⟩
      rw [hcode] at hcomment
      cases hcomment
    · exact ⟨.inr hcomment, himported, hparts⟩

theorem patch_reads_weather :
    Makes .tool "weather" weather ∧ (patch .legacy listedRegistry weather).registrationAdded = true ∧
      ∃ imports registers : Exchange, imports.Imports listedRegistry weather ∧
        registers.Registers (imported listedRegistry weather) (patch .legacy listedRegistry weather).text
          (weather.registration .legacy) ∧
        (registers.addedMode = .code ∧ imports.KeepsClasses ∧ registers.KeepsClasses ↔
          (imports.added ≠ [] → imports.PartsNoComment) ∧
            (registers.placeMode = .code ∨ registers.placeMode = .lineComment ∧ registers.PartsNoComment)) := by
  have hadded : (patch .legacy listedRegistry weather).registrationAdded = true := by
    decide +kernel
  exact ⟨makes_weather, hadded, patch_reads makes_weather hadded⟩

/-- A registry whose only registration is in a comment. -/
def commentedRegistry : Text :=
  "class R \x7b\n  initializeTools() \x7b\n    /* this.tools.set('a', new ATool()); */\n  \x7d\n\x7d\n"

/-- A registration that is in a comment is taken for the last one, so that the new one goes into the comment. -/
theorem patch_into_comment :
    Mode.code.after commentedRegistry none = .code ∧ Makes .tool "weather" weather ∧
      (patch .autoDiscovery commentedRegistry weather).registrationAdded = true ∧
      ∃ before after, (patch .autoDiscovery commentedRegistry weather).text
          = before ++ (weather.registrationLine ++ after) ∧
        Mode.code.after before weather.registrationLine.head? = .blockComment := by
  refine ⟨by decide +kernel, makes_weather, by decide +kernel,
    concat ["import \x7b WeatherTool \x7d from './weather-tool.js';\nclass R \x7b\n  initializeTools() \x7b\n",
      "    /* this.tools.set('a', new ATool());\n    "], " */\n  \x7d\n\x7d\n", by decide +kernel, by decide +kernel⟩

end ComponentKit.Registry
