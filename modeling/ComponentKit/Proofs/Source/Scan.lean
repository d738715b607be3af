import ComponentKit.Proofs.Source.Call

/-!
# Reading source text

What each character of a text belongs to when the text is read from some `Mode` on: to code, to a string or to a
comment (`CharClass`). A text is read part by part, and a part sees of the text behind it no more than the first
character. Between two parts that make up no mark together, the reader is in one of a few modes, and most lines
leave it in the mode in which they have found it (`Keeps`).
-/

namespace ComponentKit.Source

open Text

/-! ## Classes of characters -/

/-- What a character of source text belongs to. -/
inductive CharClass where
  /-- Code. -/
  | code
  /-- A string, with its quotes. -/
  | string
  /-- A comment, with the marks around it, but without the line break that ends it. -/
  | comment
  deriving DecidableEq, Repr

namespace Mode

/-- What a character belongs to that is read in a mode, in front of another one. -/
def classOf (mode : Mode) (c : Char) (next : Option Char) : CharClass :=
  match mode with
  | code =>
    if c = '/' ∧ (next = some '/' ∨ next = some '*') then .comment
    else if isStringQuote c then .string
    else .code
  | quoted _ => .string
  | escaped _ => .string
  | lineComment => if c = '\n' then .code else .comment
  | commentOpening => .comment
  | blockComment => .comment
  | commentClosing => .comment

/-- The characters of a text with their classes (`classOf`), for a text that is read in a mode and followed by a
character. -/
def read (mode : Mode) : Text → Option Char → List (Char × CharClass)
  | [], _ => []
  | c :: rest, next => (c, mode.classOf c (rest.head?.or next))
      :: (mode.step c (rest.head?.or next)).read rest next

/-- The mode behind such a text. -/
def after (mode : Mode) : Text → Option Char → Mode
  | [], _ => mode
  | c :: rest, next => (mode.step c (rest.head?.or next)).after rest next

variable {mode : Mode} {x y : Text} {c : Char} {next : Option Char}

/-! ## Parts -/

theorem after_append (mode : Mode) (x y : Text) (next : Option Char) :
    mode.after (x ++ y) next = (mode.after x (y.head?.or next)).after y next := by
  induction x generalizing mode with
  | nil => rfl
  | cons c x ih => rw [List.cons_append, after, after, ih, List.head?_append, Option.or_assoc]

theorem read_append (mode : Mode) (x y : Text) (next : Option Char) :
    mode.read (x ++ y) next
      = mode.read x (y.head?.or next) ++ (mode.after x (y.head?.or next)).read y next := by
  induction x generalizing mode with
  | nil => rfl
  | cons c x ih =>
    rw [List.cons_append, read, read, after, ih, List.head?_append, Option.or_assoc, List.cons_append]

/-- A text and the character behind it make up no mark of a comment. -/
def Apart (x : Text) (next : Option Char) : Prop :=
  (∀ c ∈ x.getLast?, c ≠ '/' ∧ c ≠ '*') ∨ ∀ c ∈ next, c ≠ '/' ∧ c ≠ '*'

theorem Apart.of_cons (h : Apart (c :: x) next) (hne : x ≠ []) : Apart x next := by
  obtain ⟨d, x, rfl⟩ := List.exists_cons_of_ne_nil hne
  rwa [Apart, List.getLast?_cons_cons] at h

/-- One character that makes up no mark with the next one is read without it. -/
theorem step_of_apart (h : Apart [c] next) (mode : Mode) :
    mode.step c next = mode.step c none ∧ mode.classOf c next = mode.classOf c none := by
  -- the two of them open no comment and close none
  have hmark : ¬ (c = '/' ∧ (next = some '/' ∨ next = some '*')) ∧ ¬ (c = '*' ∧ next = some '/') := by
    rcases h with h | h
    · obtain ⟨hslash, hstar⟩ := h c rfl
      exact ⟨fun h => hslash h.1, fun h => hstar h.1⟩
    · refine ⟨?_, ?_⟩
      · rintro ⟨-, rfl | rfl⟩
        · exact (h _ rfl).1 rfl
        · exact (h _ rfl).2 rfl
      · rintro ⟨-, rfl⟩
        exact (h _ rfl).1 rfl
  obtain ⟨hopen, hclose⟩ := hmark
  -- only code and block comments look at the next character
  cases mode with
  | code =>
    have hline : ¬ (c = '/' ∧ next = some '/') := fun h => hopen ⟨h.1, .inl h.2⟩
    have hblock : ¬ (c = '/' ∧ next = some '*') := fun h => hopen ⟨h.1, .inr h.2⟩
    simp [step, classOf, hopen, hline, hblock]
  | blockComment => simp [step, classOf, hclose]
  | quoted | escaped | lineComment | commentOpening | commentClosing => exact ⟨rfl, rfl⟩

/-- A text that is apart from the character behind it is read without it. -/
theorem read_of_apart (h : Apart x next) (mode : Mode) :
    mode.read x next = mode.read x none ∧ mode.after x next = mode.after x none := by
  induction x generalizing mode with
  | nil => exact ⟨rfl, rfl⟩
  | cons c x ih =>
    cases x with
    | nil =>
      obtain ⟨hstep, hclass⟩ := step_of_apart h mode
      simp only [read, after, List.head?_nil, Option.none_or, hstep, hclass, and_self]
    | cons d x =>
      obtain ⟨hread, hafter⟩ := ih (h.of_cons (List.cons_ne_nil _ _)) (mode.step c (some d))
      exact ⟨congrArg (List.cons _) hread, hafter⟩

/-! ## Modes between parts -/

/-- Whether a reader that has started in code can be in a mode: a string has one of the quotes of `isStringQuote`. -/
def Reached : Mode → Prop
  | quoted quote => isStringQuote quote = true
  | escaped quote => isStringQuote quote = true
  | _ => True

/-- Whether a reader is in no mark and behind no backslash. -/
def Settled : Mode → Prop
  | code => True
  | quoted quote => isStringQuote quote = true
  | lineComment => True
  | blockComment => True
  | _ => False

/-- Whether a reader is settled, or behind a backslash. -/
def Paused : Mode → Prop
  | escaped quote => isStringQuote quote = true
  | mode => mode.Settled

theorem Settled.paused (h : mode.Settled) : mode.Paused := by
  cases mode with
  | escaped quote => exact h.elim
  | _ => exact h

theorem Paused.reached (h : mode.Paused) : mode.Reached := by
  cases mode with
  | quoted quote | escaped quote => exact h
  | _ => trivial

theorem Reached.step (h : mode.Reached) (c : Char) (next : Option Char) : (mode.step c next).Reached := by
  -- only code opens strings, and only at a quote
  cases mode with
  | code =>
    rw [Mode.step]
    split
    · trivial
    · split
      · trivial
      · split
        · assumption
        · trivial
  | quoted quote =>
    rw [Mode.step]
    split
    · exact h
    · split
      · trivial
      · exact h
  | escaped quote => exact h
  | lineComment =>
    rw [Mode.step]
    split <;> trivial
  | blockComment =>
    rw [Mode.step]
    split <;> trivial
  | commentOpening | commentClosing => trivial

theorem Reached.after (h : mode.Reached) (x : Text) (next : Option Char) : (mode.after x next).Reached := by
  induction x generalizing mode with
  | nil => exact h
  | cons c x ih => exact ih (h.step c _)

/-- Behind a character that makes up no mark with the next one a reader is settled, or behind a backslash. -/
theorem Reached.paused_step (h : mode.Reached) (hc : Apart [c] next) :
    (mode.step c next).Paused ∧ (c ≠ '\\' → (mode.step c next).Settled) := by
  rw [(step_of_apart hc mode).1]
  -- what follows the character does not matter, as no mark goes on behind it
  suffices (mode.step c none).Settled ∨ c = '\\' ∧ (mode.step c none).Paused by
    rcases this with hsettled | ⟨hback, hpaused⟩
    · exact ⟨hsettled.paused, fun _ => hsettled⟩
    · exact ⟨hpaused, fun hne => absurd hback hne⟩
  cases mode with
  | code =>
    left
    rw [Mode.step, if_neg (by simp), if_neg (by simp)]
    split
    · assumption
    · trivial
  | quoted quote =>
    rw [Mode.step]
    split
    · exact .inr ⟨‹_›, h⟩
    · left
      split
      · trivial
      · exact h
  | escaped quote => exact .inl h
  | lineComment =>
    left
    rw [Mode.step]
    split <;> trivial
  | commentOpening => exact .inl trivial
  | blockComment =>
    left
    rw [Mode.step, if_neg (by simp)]
    trivial
  | commentClosing => exact .inl trivial

/-- The same behind a text. -/
theorem Settled.after (h : mode.Settled) (hx : Apart x next) :
    (mode.after x next).Paused ∧ (x.getLast? ≠ some '\\' → (mode.after x next).Settled) := by
  cases hlast : x.getLast? with
  | none =>
    rw [List.getLast?_eq_none_iff.mp hlast]
    exact ⟨h.paused, fun _ => h⟩
  | some c =>
    obtain ⟨front, rfl⟩ := List.getLast?_eq_some_iff.mp hlast
    -- what is behind the text depends on its last character only
    have hc : Apart [c] next := by
      rwa [Apart, List.getLast?_concat] at hx
    rw [after_append]
    obtain ⟨hpaused, hsettled⟩ := (h.paused.reached.after front (some c)).paused_step hc
    refine ⟨hpaused, fun hne => hsettled ?_⟩
    rintro rfl
    exact hne rfl

/-- A block comment goes on at a star that no slash follows. -/
theorem step_blockComment (h : ¬ "*/".toList <:+: c :: x) (y : Text) :
    blockComment.step c (x ++ '*' :: y).head? = blockComment := by
  rw [step, if_neg]
  intro hmark
  rw [Bool.and_eq_true, decide_eq_true_eq, decide_eq_true_eq] at hmark
  obtain ⟨rfl, hnext⟩ := hmark
  cases x with
  | nil => cases hnext
  | cons d x =>
    obtain rfl : d = '/' := by simpa using hnext
    exact h ⟨[], x, rfl⟩

/-! ## Texts that keep modes -/

/-- Whether a text leaves a settled reader in the mode in which it has found it. -/
def Keeps (x : Text) : Prop :=
  ∀ mode, Settled mode → ∀ next, mode.after x next = mode

theorem Keeps.append (hx : Keeps x) (hy : Keeps y) : Keeps (x ++ y) := by
  intro mode hmode next
  rw [after_append, hx mode hmode, hy mode hmode]

/-- Whether a character has no meaning but its own in all settled modes. -/
def isInert (c : Char) : Bool :=
  !(isStringQuote c || c == '/' || c == '\\' || c == '*' || c == '\n')

theorem isInert_iff : isInert c = true ↔
    isStringQuote c = false ∧ c ≠ '/' ∧ c ≠ '\\' ∧ c ≠ '*' ∧ c ≠ '\n' := by
  simp [isInert, and_assoc]

theorem Settled.step_of_isInert (h : mode.Settled) (hc : isInert c = true) (next : Option Char) :
    mode.step c next = mode := by
  obtain ⟨hquote, hslash, hescape, hstar, hbreak⟩ := isInert_iff.mp hc
  cases mode with
  | code => simp [step, hslash, hquote]
  | quoted quote =>
    have hne : c ≠ quote := by
      rintro rfl
      rw [show isStringQuote c = true from h] at hquote
      cases hquote
    simp [step, hescape, hne]
  | lineComment => simp [step, hbreak]
  | blockComment => simp [step, hstar]
  | escaped | commentOpening | commentClosing => exact h.elim

theorem keeps_of_isInert (hx : ∀ c ∈ x, isInert c = true) : Keeps x := by
  intro mode hmode next
  induction x with
  | nil => rfl
  | cons c x ih =>
    obtain ⟨hc, hx⟩ := List.forall_mem_cons.mp hx
    rw [Mode.after, hmode.step_of_isInert hc, ih hx]

/-- A slash in front of an inert character is inert. -/
theorem keeps_slash (hc : isInert c = true) : Keeps ['/', c] := by
  intro mode hmode next
  obtain ⟨hquote, hslash, -, hstar, -⟩ := isInert_iff.mp hc
  -- in code the slash would need another one or a star behind it
  have hslashed : mode.step '/' (some c) = mode := by
    cases mode with
    | code => simp [step, hslash, hstar, isStringQuote]
    | quoted quote =>
      have hne : '/' ≠ quote := by
        rintro rfl
        exact absurd (show isStringQuote '/' = true from hmode) (by decide)
      simp [step, hne]
    | lineComment | blockComment => simp [step]
    | escaped | commentOpening | commentClosing => exact hmode.elim
  show (mode.step '/' (some c)).step c next = mode
  rw [hslashed, hmode.step_of_isInert hc]

/-- A string whose contents keep all modes keeps them too: also where it closes a string and opens
another one. -/
theorem Keeps.quote (hx : Keeps x) : Keeps ('\x27' :: (x ++ ['\x27'])) := by
  intro mode hmode next
  -- the mode between the quotes
  have hopen : ∀ inner, Settled inner → (∀ next, mode.step '\x27' next = inner) →
      (∀ next, inner.step '\x27' next = mode) → mode.after ('\x27' :: (x ++ ['\x27'])) next = mode := by
    intro inner hinner hfirst hlast
    rw [Mode.after, hfirst, after_append, hx inner hinner]
    exact hlast next
  cases mode with
  | code => exact hopen (quoted '\x27') rfl (fun _ => rfl) fun _ => rfl
  | quoted quote =>
    by_cases hquote : quote = '\x27'
    · subst hquote
      exact hopen code trivial (fun _ => rfl) fun _ => rfl
    · have hstep : ∀ next, (quoted quote).step '\x27' next = quoted quote := by
        intro next
        simp [step, Ne.symm hquote]
      exact hopen (quoted quote) hmode hstep hstep
  | lineComment => exact hopen lineComment trivial (fun _ => rfl) fun _ => rfl
  | blockComment => exact hopen blockComment trivial (fun _ => rfl) fun _ => rfl
  | escaped | commentOpening | commentClosing => exact hmode.elim

/-! ## Line breaks and blanks -/

/-- The mode at the start of the next line: a line comment is over there, and a backslash has taken the
line break. -/
def nextLine : Mode → Mode
  | lineComment => code
  | escaped quote => quoted quote
  | mode => mode

theorem Paused.nextLine (h : mode.Paused) : mode.nextLine.Settled ∧ mode.nextLine ≠ lineComment := by
  cases mode with
  | code | blockComment | lineComment => exact ⟨trivial, by intro hc; cases hc⟩
  | quoted quote | escaped quote => exact ⟨h, by intro hc; cases hc⟩
  | commentOpening | commentClosing => exact h.elim

theorem Paused.nextLine_eq_code_iff (h : mode.Paused) :
    mode.nextLine = code ↔ mode = code ∨ mode = lineComment := by
  cases mode with
  | code => exact iff_of_true rfl (.inl rfl)
  | lineComment => exact iff_of_true rfl (.inr rfl)
  | quoted | escaped | blockComment =>
    refine iff_of_false (fun hc => by cases hc) fun hc => ?_
    rcases hc with hc | hc <;> cases hc
  | commentOpening | commentClosing => exact h.elim

theorem Settled.nextLine_eq (h : mode.Settled) (hne : mode ≠ lineComment) : mode.nextLine = mode := by
  cases mode with
  | lineComment => exact absurd rfl hne
  | escaped quote => exact h.elim
  | _ => rfl

theorem isInert_of_isBlank (hc : isBlank c = true) (hne : c ≠ '\n') : isInert c = true := by
  have hnot : ∀ d : Char, isBlank d = false → c ≠ d := by
    rintro d hd rfl
    rw [hc] at hd
    cases hd
  rw [isInert_iff]
  refine ⟨?_, hnot _ (by decide), hnot _ (by decide), hnot _ (by decide), hne⟩
  simp only [isStringQuote, Bool.or_eq_false_iff, beq_eq_false_iff_ne]
  exact ⟨⟨hnot _ (by decide), hnot _ (by decide)⟩, hnot _ (by decide)⟩

theorem Settled.step_newline (h : mode.Settled) (hne : mode ≠ lineComment) (next : Option Char) :
    mode.step '\n' next = mode := by
  cases mode with
  | code | blockComment => rfl
  | quoted quote =>
    have hquote : '\n' ≠ quote := by
      rintro rfl
      exact absurd (show isStringQuote '\n' = true from h) (by decide)
    simp [step, hquote]
  | lineComment => exact absurd rfl hne
  | escaped | commentOpening | commentClosing => exact h.elim

/-- Blanks keep the modes that a line break keeps. -/
theorem Settled.after_blank (h : mode.Settled) (hne : mode ≠ lineComment) (hx : ∀ c ∈ x, isBlank c = true)
    (next : Option Char) : mode.after x next = mode := by
  induction x with
  | nil => rfl
  | cons c x ih =>
    obtain ⟨hc, hx⟩ := List.forall_mem_cons.mp hx
    have hstep : ∀ next, mode.step c next = mode := by
      intro next
      by_cases hbreak : c = '\n'
      · rw [hbreak]
        exact h.step_newline hne next
      · exact h.step_of_isInert (isInert_of_isBlank hc hbreak) next
    rw [Mode.after, hstep, ih hx]

/-- Behind a line break the next line starts. -/
theorem Paused.after_break (h : mode.Paused) (hn : IsBreak x) (next : Option Char) :
    mode.after x next = mode.nextLine := by
  have hfeed : mode.Settled → ∀ next, mode.step '\n' next = mode.nextLine := by
    intro hsettled next
    by_cases hne : mode = lineComment
    · rw [hne]
      rfl
    · rw [hsettled.step_newline hne, hsettled.nextLine_eq hne]
  -- a return in front of the feed is inert
  have hsettled : mode.Settled → mode.after x next = mode.nextLine := by
    intro hsettled
    rcases hn with rfl | rfl
    · exact hfeed hsettled next
    · show (mode.step '\r' (some '\n')).step '\n' next = mode.nextLine
      rw [hsettled.step_of_isInert (by decide), hfeed hsettled]
  cases mode with
  | escaped quote =>
    -- the backslash takes the first character
    have hquoted : (quoted quote).Settled := h
    rcases hn with rfl | rfl
    · rfl
    · exact hquoted.step_newline (by simp) next
  | code | lineComment | blockComment | quoted quote => exact hsettled h
  | commentOpening | commentClosing => exact h.elim

/-- An inert character is read as a line break is, but does not end a line comment. -/
theorem Paused.step_of_isInert (h : mode.Paused) (hne : mode ≠ lineComment) (hc : isInert c = true)
    (next : Option Char) : mode.step c next = mode.nextLine := by
  cases mode with
  | lineComment => exact absurd rfl hne
  | escaped quote => rfl
  | code => exact (show code.Settled from h).step_of_isInert hc next
  | quoted quote => exact (show (quoted quote).Settled from h).step_of_isInert hc next
  | blockComment => exact (show blockComment.Settled from h).step_of_isInert hc next
  | commentOpening | commentClosing => exact h.elim

/-- A text is read alike from a mode and from the start of the next line, unless the reader is in a line
comment, or behind a backslash that takes a mark. -/
theorem Paused.read_nextLine (h : mode.Paused) (hne : mode ≠ lineComment)
    (hx : mode.Settled ∨ ∀ c ∈ x.head?, isInert c = true ∨ c = '\n') :
    mode.nextLine.read x none = mode.read x none := by
  cases mode with
  | lineComment => exact absurd rfl hne
  | escaped quote =>
    cases x with
    | nil => rfl
    | cons c rest =>
      have hquoted : (quoted quote).Settled := h
      -- the backslash takes a character that would not have mattered
      have hstep : (quoted quote).step c (rest.head?.or none) = quoted quote := by
        rcases hx.resolve_left id c rfl with hc | rfl
        · exact hquoted.step_of_isInert hc _
        · exact hquoted.step_newline (by simp) _
      show (c, CharClass.string) :: ((quoted quote).step c _).read rest none
        = (c, CharClass.string) :: (quoted quote).read rest none
      rw [hstep]
  | code | quoted | blockComment => rfl
  | commentOpening | commentClosing => exact h.elim

end Mode

end ComponentKit.Source
