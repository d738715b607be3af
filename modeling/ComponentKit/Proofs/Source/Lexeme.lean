import ComponentKit.Proofs.Source.Scan

/-!
# Lexing source text

Source text falls into stretches of code, literals between quotes of three kinds, and comments (`lexemesFrom`).
`lex?` gives them if no line ends inside a literal between single or double quotes, and if the text does not end
inside a literal or a block comment. What a literal holds is left out of the `outline` of a text, so that two texts
with the same outline have the same code.
-/

namespace ComponentKit.Source

open Text

/-! ## Lexing -/

/-- What a stretch of source text is. -/
inductive LexemeSort where
  /-- Code. -/
  | code
  /-- A literal, with its quotes. -/
  | literal (quote : Char)
  /-- A comment, with the marks around it, but without the line break that ends it. -/
  | comment
  deriving DecidableEq, Repr

/-- A stretch of source text that is code, a literal or a comment. -/
structure Lexeme where
  /-- What the lexeme is. -/
  sort : LexemeSort
  /-- The characters of the lexeme. -/
  text : Text
  deriving DecidableEq, Repr

namespace Mode

/-- What a character belongs to that is read in a mode, in front of another one. -/
def sortOf (mode : Mode) (c : Char) (next : Option Char) : LexemeSort :=
  match mode with
  | code =>
    if c = '/' ∧ (next = some '/' ∨ next = some '*') then .comment
    else if isStringQuote c then .literal c
    else .code
  | quoted quote => .literal quote
  | escaped quote => .literal quote
  | lineComment => if c = '\n' then .code else .comment
  | commentOpening => .comment
  | blockComment => .comment
  | commentClosing => .comment

/-- Puts a character in front of lexemes. It belongs to the first one if that one is of its sort, unless the
character is the last one of a literal or a comment. -/
def pushLexeme (sort : LexemeSort) (c : Char) (isLast : Bool) : List Lexeme → List Lexeme
  | [] => [⟨sort, [c]⟩]
  | lexeme :: lexemes =>
    if lexeme.sort = sort ∧ isLast = false then ⟨sort, c :: lexeme.text⟩ :: lexemes
    else ⟨sort, [c]⟩ :: lexeme :: lexemes

/-- Whether a character is the last one of a literal or of a block comment. -/
def isLast (mode : Mode) (c : Char) (next : Option Char) : Bool :=
  mode.sortOf c next != .code && mode.step c next == code

/-- The lexemes of a text that is read in a mode. -/
def lexemesFrom (mode : Mode) : Text → List Lexeme
  | [] => []
  | c :: rest => pushLexeme (mode.sortOf c rest.head?) c (mode.isLast c rest.head?)
      ((mode.step c rest.head?).lexemesFrom rest)

/-- Whether a character breaks the literal that it stands in. -/
def breaks (mode : Mode) (c : Char) : Bool :=
  (mode == quoted '\x27' || mode == quoted '"') && (c == '\n' || c == '\r')

/-- Whether a text that is read in a mode breaks no literal and closes its last literal or comment. -/
def isSound (mode : Mode) : Text → Bool
  | [] => mode == code || mode == lineComment
  | c :: rest => !mode.breaks c && (mode.step c rest.head?).isSound rest

end Mode

/-- The `lexemesFrom` a source text, if it can be lexed. -/
def lex? (text : Text) : Option (List Lexeme) :=
  if Mode.code.isSound text then some (Mode.code.lexemesFrom text) else none

/-- A lexeme without what a literal holds. -/
def Lexeme.outline (lexeme : Lexeme) : Lexeme :=
  match lexeme.sort with
  | .literal quote => ⟨.literal quote, []⟩
  | _ => lexeme

/-- The lexemes without what their literals hold. -/
def outline (lexemes : List Lexeme) : List Lexeme :=
  lexemes.map Lexeme.outline

namespace Mode

variable {mode mode' : Mode} {sort : LexemeSort} {c d : Char} {isEnd : Bool} {x x' y y' z z' : Text}
  {lexemes lexemes' : List Lexeme} {next : Option Char}

/-! ## Pushing characters -/

theorem pushLexeme_text (sort : LexemeSort) (c : Char) (isEnd : Bool) (lexemes : List Lexeme) :
    (pushLexeme sort c isEnd lexemes).flatMap Lexeme.text = c :: lexemes.flatMap Lexeme.text := by
  cases lexemes with
  | nil => rfl
  | cons lexeme lexemes =>
    rw [pushLexeme]
    split <;> simp

/-- The lexemes of a text make up the text. -/
theorem lexemesFrom_text (mode : Mode) (x : Text) : (mode.lexemesFrom x).flatMap Lexeme.text = x := by
  induction x generalizing mode with
  | nil => rfl
  | cons c x ih => rw [lexemesFrom, pushLexeme_text, ih]

theorem pushLexeme_ne_nil (h : ∀ lexeme ∈ lexemes, lexeme.text ≠ []) :
    ∀ lexeme ∈ pushLexeme sort c isEnd lexemes, lexeme.text ≠ [] := by
  cases lexemes with
  | nil => simp [pushLexeme]
  | cons lexeme lexemes =>
    obtain ⟨hlexeme, hlexemes⟩ := List.forall_mem_cons.mp h
    rw [pushLexeme]
    split
    · exact List.forall_mem_cons.mpr ⟨by simp, hlexemes⟩
    · exact List.forall_mem_cons.mpr ⟨by simp, h⟩

theorem lexemesFrom_ne_nil (mode : Mode) (x : Text) :
    ∀ lexeme ∈ mode.lexemesFrom x, lexeme.text ≠ [] := by
  induction x generalizing mode with
  | nil => simp [lexemesFrom]
  | cons c x ih => exact pushLexeme_ne_nil (ih _)

/-- The first lexeme is of the sort of the first character. -/
theorem exists_lexemesFrom_cons (mode : Mode) (c : Char) (x : Text) :
    ∃ text lexemes, mode.lexemesFrom (c :: x) = ⟨mode.sortOf c x.head?, text⟩ :: lexemes := by
  rw [lexemesFrom]
  cases (mode.step c x.head?).lexemesFrom x with
  | nil => exact ⟨_, _, rfl⟩
  | cons lexeme lexemes =>
    rw [pushLexeme]
    split
    · exact ⟨_, _, rfl⟩
    · exact ⟨_, _, rfl⟩

/-! ## Outlines -/

/-- Whether lexemes start with a literal between quotes of a kind. -/
def StartsWithLiteral (quote : Char) (lexemes : List Lexeme) : Prop :=
  ∃ text rest, lexemes = ⟨.literal quote, text⟩ :: rest

/-- Pushing a character into a literal that goes on does not show in the outline. -/
theorem outline_pushLexeme_literal {quote : Char} (h : StartsWithLiteral quote lexemes) (c : Char) :
    outline (pushLexeme (.literal quote) c false lexemes) = outline lexemes := by
  obtain ⟨text, rest, rfl⟩ := h
  simp [pushLexeme, outline, Lexeme.outline]

/-- What is pushed into code or into a comment shows as it is. -/
theorem outline_pushLexeme (hsort : ∀ quote, sort ≠ .literal quote) (c : Char) (isEnd : Bool)
    (lexemes : List Lexeme) :
    outline (pushLexeme sort c isEnd lexemes) = pushLexeme sort c isEnd (outline lexemes) := by
  have hkeep : ∀ text, Lexeme.outline ⟨sort, text⟩ = ⟨sort, text⟩ := by
    intro text
    cases sort with
    | literal quote => exact absurd rfl (hsort quote)
    | code | comment => rfl
  cases lexemes with
  | nil => simp [pushLexeme, outline, hkeep]
  | cons lexeme lexemes =>
    obtain ⟨s, text⟩ := lexeme
    have hsame : (Lexeme.outline ⟨s, text⟩).sort = s := by cases s <;> rfl
    -- the character joins the first lexeme, or makes one of its own
    by_cases hs : s = sort ∧ isEnd = false
    · obtain ⟨rfl, rfl⟩ := hs
      simp [pushLexeme, outline, hkeep]
    · simp [pushLexeme, outline, hsame, hkeep, hs]

/-- A character that is pushed in front of lexemes can be taken away again. -/
theorem pushLexeme_inj (h : ∀ lexeme ∈ lexemes, lexeme.sort = sort → lexeme.text ≠ [])
    (h' : ∀ lexeme ∈ lexemes', lexeme.sort = sort → lexeme.text ≠ []) :
    pushLexeme sort c isEnd lexemes = pushLexeme sort c isEnd lexemes' ↔ lexemes = lexemes' := by
  refine ⟨fun heq => ?_, fun heq => by rw [heq]⟩
  -- a lexeme is not the pushed character alone, if it has taken the character
  have htaken : ∀ {lexeme : Lexeme} {rest others : List Lexeme}, lexeme.text ≠ [] →
      (⟨sort, c :: lexeme.text⟩ :: rest : List Lexeme) ≠ ⟨sort, [c]⟩ :: others := by
    intro lexeme rest others hne heq
    simp only [List.cons.injEq, Lexeme.mk.injEq, true_and] at heq
    exact hne heq.1
  -- on each side the character has joined a lexeme or stands alone, and the sides agree in that
  cases lexemes with
  | nil =>
    cases lexemes' with
    | nil => rfl
    | cons lexeme' rest' =>
      rw [pushLexeme, pushLexeme] at heq
      split at heq
      · rename_i hjoin
        exact absurd heq.symm (htaken (h' lexeme' List.mem_cons_self hjoin.1))
      · simp at heq
  | cons lexeme rest =>
    cases lexemes' with
    | nil =>
      rw [pushLexeme, pushLexeme] at heq
      split at heq
      · rename_i hjoin
        exact absurd heq (htaken (h lexeme List.mem_cons_self hjoin.1))
      · simp at heq
    | cons lexeme' rest' =>
      rw [pushLexeme, pushLexeme] at heq
      split at heq
      · rename_i hjoin
        split at heq
        · rename_i hjoin'
          simp only [List.cons.injEq, Lexeme.mk.injEq, true_and] at heq
          obtain ⟨htext, hrest⟩ := heq
          rw [hrest, List.cons.injEq]
          obtain ⟨s, text⟩ := lexeme
          obtain ⟨s', text'⟩ := lexeme'
          exact ⟨by rw [Lexeme.mk.injEq]; exact ⟨hjoin.1.trans hjoin'.1.symm, htext⟩, rfl⟩
        · exact absurd heq (htaken (h lexeme List.mem_cons_self hjoin.1))
      · split at heq
        · rename_i hjoin'
          exact absurd heq.symm (htaken (h' lexeme' List.mem_cons_self hjoin'.1))
        · exact (List.cons.inj heq).2

theorem outline_ne_nil (h : ∀ lexeme ∈ lexemes, lexeme.text ≠ [])
    (hsort : ∀ quote, sort ≠ .literal quote) :
    ∀ lexeme ∈ outline lexemes, lexeme.sort = sort → lexeme.text ≠ [] := by
  intro lexeme hlexeme hs
  obtain ⟨⟨s, text⟩, hmem, rfl⟩ := List.mem_map.mp hlexeme
  cases s with
  | literal quote => exact absurd hs.symm (hsort quote)
  | code | comment => exact h _ hmem

/-- A character that is pushed in front of lexemes shows in the outline what they are. -/
theorem outline_pushLexeme_iff (h : ∀ lexeme ∈ lexemes, lexeme.text ≠ [])
    (h' : ∀ lexeme ∈ lexemes', lexeme.text ≠ [])
    (hliteral : ∀ quote, sort = .literal quote → isEnd = false →
      StartsWithLiteral quote lexemes ∧ StartsWithLiteral quote lexemes') :
    outline (pushLexeme sort c isEnd lexemes) = outline (pushLexeme sort c isEnd lexemes')
      ↔ outline lexemes = outline lexemes' := by
  -- a literal hides the character, everything else shows it
  by_cases hsort : ∃ quote, sort = .literal quote
  · obtain ⟨quote, rfl⟩ := hsort
    -- a literal that goes on is the one behind the character
    cases isEnd with
    | false =>
      obtain ⟨hstart, hstart'⟩ := hliteral quote rfl rfl
      rw [outline_pushLexeme_literal hstart, outline_pushLexeme_literal hstart']
    | true =>
      have hpush : ∀ rs, outline (pushLexeme (.literal quote) c true rs)
          = ⟨.literal quote, []⟩ :: outline rs := by
        intro rs
        cases rs <;> simp [pushLexeme, outline, Lexeme.outline]
      rw [hpush, hpush, List.cons.injEq]
      exact and_iff_right rfl
  · have hplain : ∀ quote, sort ≠ .literal quote := fun quote hs => hsort ⟨quote, hs⟩
    rw [outline_pushLexeme hplain, outline_pushLexeme hplain,
      pushLexeme_inj (outline_ne_nil h hplain) (outline_ne_nil h' hplain)]

/-! ## Reading two texts alike -/

/-- A literal that goes on behind a character is the one that the character belongs to. -/
theorem sortOf_step {quote : Char} (hsort : mode.sortOf c next = .literal quote)
    (hstep : mode.step c next ≠ code) (d : Char) (next' : Option Char) :
    (mode.step c next).sortOf d next' = .literal quote := by
  -- a literal starts in code at its quote, and goes on within quotes
  cases mode with
  | code =>
    rw [sortOf] at hsort
    split at hsort
    · cases hsort
    · rename_i hmark
      split at hsort
      · rename_i hquote
        obtain rfl : c = quote := by simpa using hsort
        have hline : ¬ (c = '/' ∧ next = some '/') := fun h => hmark ⟨h.1, .inl h.2⟩
        have hblock : ¬ (c = '/' ∧ next = some '*') := fun h => hmark ⟨h.1, .inr h.2⟩
        simp [step, hline, hblock, hquote, sortOf]
      · cases hsort
  | quoted q =>
    obtain rfl : q = quote := by simpa [sortOf] using hsort
    rw [step] at hstep ⊢
    split
    · rfl
    · split
      · rename_i hback hquote
        rw [if_neg hback, if_pos hquote] at hstep
        exact absurd rfl hstep
      · rfl
  | escaped q => exact hsort
  | lineComment =>
    rw [sortOf] at hsort
    split at hsort <;> cases hsort
  | commentOpening | blockComment | commentClosing => cases hsort

/-- A text that is read inside a literal, and to its end, goes on with the literal. -/
theorem startsWithLiteral_of_isSound {quote : Char} (hsort : mode.sortOf c next = .literal quote)
    (hstep : mode.step c next ≠ code) (hy : (mode.step c next).isSound y = true) :
    StartsWithLiteral quote ((mode.step c next).lexemesFrom y) := by
  cases y with
  | nil =>
    have hsome := sortOf_step hsort hstep 'a' none
    rw [isSound, Bool.or_eq_true, beq_iff_eq, beq_iff_eq] at hy
    rw [hy.resolve_left hstep] at hsome
    cases hsome
  | cons d y =>
    obtain ⟨text, rest, hlexemes⟩ := exists_lexemesFrom_cons (mode.step c next) d y
    exact ⟨text, rest, by rw [hlexemes, sortOf_step hsort hstep]⟩

/-- What follows a character shows in the outline as it does on its own. -/
theorem outline_cons_iff (hsort : mode.sortOf c y.head? = mode.sortOf c y'.head?)
    (hstep : mode.step c y.head? = mode.step c y'.head?)
    (hy : (mode.step c y.head?).isSound y = true) (hy' : (mode.step c y.head?).isSound y' = true) :
    outline (mode.lexemesFrom (c :: y)) = outline (mode.lexemesFrom (c :: y'))
      ↔ outline ((mode.step c y.head?).lexemesFrom y) = outline ((mode.step c y.head?).lexemesFrom y') := by
  have hend : mode.isLast c y.head? = mode.isLast c y'.head? := by rw [isLast, isLast, hsort, hstep]
  rw [lexemesFrom, lexemesFrom, ← hsort, ← hstep, ← hend]
  refine outline_pushLexeme_iff (lexemesFrom_ne_nil _ y) (lexemesFrom_ne_nil _ y')
    fun quote hquote hlast => ?_
  have hmode : mode.step c y.head? ≠ code := by
    intro hcode
    simp [isLast, hquote, hcode] at hlast
  exact ⟨startsWithLiteral_of_isSound hquote hmode hy, startsWithLiteral_of_isSound hquote hmode hy'⟩

/-- A character inside a literal does not show in the outline. -/
theorem outline_cons_literal {quote : Char} (hsort : mode.sortOf c y.head? = .literal quote)
    (hstep : mode.step c y.head? ≠ code) (hy : (mode.step c y.head?).isSound y = true) :
    outline (mode.lexemesFrom (c :: y)) = outline ((mode.step c y.head?).lexemesFrom y) := by
  have hend : mode.isLast c y.head? = false := by simp [isLast, hstep]
  rw [lexemesFrom, hsort, hend, outline_pushLexeme_literal (startsWithLiteral_of_isSound hsort hstep hy)]

/-- Whether two texts that are read in a mode lead to a mode: what follows them can be lexed if it can be
lexed from there, and shows in the outline as it does from there. -/
structure Leads (mode : Mode) (x x' : Text) (mode' : Mode) : Prop where
  sound (y : Text) : mode.isSound (x ++ y) = mode'.isSound y
  sound' (y : Text) : mode.isSound (x' ++ y) = mode'.isSound y
  same (y y' : Text) : mode'.isSound y = true → mode'.isSound y' = true →
    (outline (mode.lexemesFrom (x ++ y)) = outline (mode.lexemesFrom (x' ++ y'))
      ↔ outline (mode'.lexemesFrom y) = outline (mode'.lexemesFrom y'))

theorem Leads.nil (mode : Mode) : Leads mode [] [] mode :=
  ⟨fun _ => rfl, fun _ => rfl, fun _ _ _ _ => Iff.rfl⟩

theorem Leads.append {mode'' : Mode} (h : Leads mode x x' mode') (hz : Leads mode' z z' mode'') :
    Leads mode (x ++ z) (x' ++ z') mode'' where
  sound y := by rw [List.append_assoc, h.sound, hz.sound]
  sound' y := by rw [List.append_assoc, h.sound', hz.sound']
  same y y' hy hy' := by
    rw [List.append_assoc, List.append_assoc, h.same _ _ (by rwa [hz.sound]) (by rwa [hz.sound']),
      hz.same y y' hy hy']

/-- A character in front of texts that start alike. -/
theorem Leads.cons (h : Leads (mode.step c (some d)) (d :: x) (d :: x') mode')
    (hbreaks : mode.breaks c = false) : Leads mode (c :: d :: x) (c :: d :: x') mode' where
  sound y := by
    rw [List.cons_append, isSound, hbreaks]
    exact h.sound y
  sound' y := by
    rw [List.cons_append, isSound, hbreaks]
    exact h.sound' y
  same y y' hy hy' := by
    rw [← h.same y y' hy hy']
    refine outline_cons_iff rfl rfl ?_ ?_
    · exact (h.sound y).trans hy
    · exact (h.sound' y').trans hy'

/-- Whether a character is read in a mode without the one that follows it. -/
def isBlind (mode : Mode) (c : Char) : Bool :=
  match mode with
  | code => c != '/'
  | blockComment => c != '*'
  | _ => true

theorem step_of_isBlind (h : mode.isBlind c = true) (next : Option Char) :
    mode.step c next = mode.step c none ∧ mode.sortOf c next = mode.sortOf c none := by
  cases mode with
  | code =>
    have hslash : c ≠ '/' := by simpa [isBlind] using h
    simp [step, sortOf, hslash]
  | blockComment =>
    have hstar : c ≠ '*' := by simpa [isBlind] using h
    simp [step, sortOf, hstar]
  | quoted | escaped | lineComment | commentOpening | commentClosing => exact ⟨rfl, rfl⟩

theorem leads_of_isBlind (h : mode.isBlind c = true) (hbreaks : mode.breaks c = false) :
    Leads mode [c] [c] (mode.step c none) where
  sound y := by
    rw [List.singleton_append, isSound, hbreaks, (step_of_isBlind h _).1]
    rfl
  sound' y := by
    rw [List.singleton_append, isSound, hbreaks, (step_of_isBlind h _).1]
    rfl
  same y y' hy hy' := by
    -- the character is read without the one behind it, so it is read alike in front of `y` and `y'`
    have hstep : mode.step c y.head? = mode.step c none := (step_of_isBlind h _).1
    have hstep' : mode.step c y'.head? = mode.step c none := (step_of_isBlind h _).1
    have hsort : mode.sortOf c y.head? = mode.sortOf c y'.head? := by
      rw [(step_of_isBlind h y.head?).2, (step_of_isBlind h y'.head?).2]
    rw [← hstep] at hy hy' ⊢
    exact outline_cons_iff hsort (hstep.trans hstep'.symm) hy hy'

/-- The mode behind a text whose last character is read by `Mode.step` without what follows, if the text breaks no
literal. -/
def scan (mode : Mode) : Text → Option Mode
  | [] => some mode
  | [c] => if mode.isBlind c && !mode.breaks c then some (mode.step c none) else none
  | c :: d :: rest => if mode.breaks c then none else (mode.step c (some d)).scan (d :: rest)

/-- A text that is read to its end leads to the mode behind it. -/
theorem leads_of_scan (h : mode.scan x = some mode') : Leads mode x x mode' := by
  induction x generalizing mode with
  | nil =>
    obtain rfl := Option.some.inj h
    exact .nil mode
  | cons c x ih =>
    -- the last character is read without the one behind it, which is not known
    cases x with
    | nil =>
      rw [scan] at h
      split at h
      · rename_i hc
        obtain rfl := Option.some.inj h
        rw [Bool.and_eq_true, Bool.not_eq_true'] at hc
        exact leads_of_isBlind hc.1 hc.2
      · cases h
    | cons d x =>
      rw [scan] at h
      split at h
      · cases h
      · rename_i hbreaks
        exact (ih h).cons (by simpa using hbreaks)

instance (mode : Mode) : Decidable mode.Settled :=
  match mode with
  | code | lineComment | blockComment => .isTrue trivial
  | quoted quote => inferInstanceAs (Decidable (isStringQuote quote = true))
  | escaped _ | commentOpening | commentClosing => .isFalse id

/-- Characters without a meaning of their own keep a settled mode. -/
theorem Settled.leads (h : mode.Settled) (hx : ∀ c ∈ x, isInert c = true ∧ c ≠ '\r') :
    Leads mode x x mode := by
  induction x with
  | nil => exact .nil mode
  | cons c x ih =>
    obtain ⟨⟨hc, hreturn⟩, hx⟩ := List.forall_mem_cons.mp hx
    obtain ⟨-, hslash, -, hstar, hfeed⟩ := isInert_iff.mp hc
    have hblind : mode.isBlind c = true := by cases mode <;> simp [isBlind, hslash, hstar]
    have hbreaks : mode.breaks c = false := by simp [breaks, hfeed, hreturn]
    have hfirst := leads_of_isBlind hblind hbreaks
    rw [h.step_of_isInert hc] at hfirst
    exact hfirst.append (ih hx)

/-! ## The content of a literal -/

/-- Whether a text can stand between single quotes: it breaks no line, and a backslash stands in front of
every single quote and escapes a character of the text. -/
inductive IsContent : Text → Prop where
  | nil : IsContent []
  | escape (c : Char) {x : Text} : IsContent x → IsContent ('\\' :: c :: x)
  | plain {c : Char} {x : Text} : c ≠ '\\' → c ≠ '\x27' → c ≠ '\n' → c ≠ '\r' → IsContent x →
    IsContent (c :: x)

theorem IsContent.append (hx : IsContent x) (hy : IsContent y) : IsContent (x ++ y) := by
  induction hx with
  | nil => exact hy
  | escape c _ ih => exact ih.escape c
  | plain hback hquote hfeed hreturn _ ih => exact ih.plain hback hquote hfeed hreturn

theorem IsContent.isSound (hx : IsContent x) (y : Text) :
    (quoted '\x27').isSound (x ++ y) = (quoted '\x27').isSound y := by
  induction hx with
  | nil => rfl
  | escape c _ ih => exact ih
  | plain hback hquote hfeed hreturn _ ih =>
    rw [List.cons_append, Mode.isSound, step, if_neg hback, if_neg hquote, ih]
    simp [breaks, hfeed, hreturn]

/-- The content of a literal does not show in the outline. -/
theorem IsContent.outline_eq (hx : IsContent x) (hy : (quoted '\x27').isSound y = true) :
    outline ((quoted '\x27').lexemesFrom (x ++ y)) = outline ((quoted '\x27').lexemesFrom y) := by
  induction hx with
  | nil => rfl
  | @escape c x hx ih =>
    -- the rest of the content changes neither soundness nor outline
    have hrest : (quoted '\x27').isSound (x ++ y) = true := by rw [hx.isSound, hy]
    have hescaped : outline ((escaped '\x27').lexemesFrom (c :: (x ++ y)))
        = outline ((quoted '\x27').lexemesFrom (x ++ y)) := outline_cons_literal rfl (by simp [step]) hrest
    rw [← ih, ← hescaped]
    exact outline_cons_literal rfl (by simp [step]) hrest
  | @plain c x hback hquote _ _ hx ih =>
    have hstep : ∀ next, (quoted '\x27').step c next = quoted '\x27' := by
      intro next
      rw [step, if_neg hback, if_neg hquote]
    rw [← ih, List.cons_append, outline_cons_literal rfl (by rw [hstep]; simp), hstep]
    rw [hstep, hx.isSound, hy]

/-- Two contents of a literal lead alike to its end. -/
theorem IsContent.leads (hx : IsContent x) (hx' : IsContent x') :
    Leads (quoted '\x27') x x' (quoted '\x27') :=
  ⟨hx.isSound, hx'.isSound, fun _ _ hy hy' => by rw [hx.outline_eq hy, hx'.outline_eq hy']⟩

/-- Whether a text has a single quote that no backslash escapes. -/
def hasBareQuote : Text → Bool
  | [] => false
  | '\\' :: _ :: rest => hasBareQuote rest
  | c :: rest => c == '\x27' || hasBareQuote rest

/-- A text without bare quotes and line breaks is the content of a literal, as soon as another character
follows, which its last backslash may need. -/
theorem isContent_concat (hquote : hasBareQuote x = false) (hbreak : ∀ c ∈ x, c ≠ '\n' ∧ c ≠ '\r')
    (hd : IsContent [d]) : IsContent (x ++ [d]) := by
  -- the cases are those of the search for a quote: a backslash takes the character behind it
  induction x using hasBareQuote.induct with
  | case1 => exact hd
  | case2 c rest ih =>
    rw [hasBareQuote] at hquote
    simp only [List.mem_cons, forall_eq_or_imp] at hbreak
    exact (ih hquote hbreak.2.2).escape c
  | case3 c rest hescape ih =>
    rw [hasBareQuote.eq_3 c rest hescape, Bool.or_eq_false_iff, beq_eq_false_iff_ne] at hquote
    rw [List.forall_mem_cons] at hbreak
    obtain ⟨⟨hfeed, hreturn⟩, hrest⟩ := hbreak
    by_cases hback : c = '\\'
    · -- the backslash is the last character of the text
      subst hback
      cases rest with
      | nil => exact IsContent.nil.escape d
      | cons e rest => exact (hescape e rest rfl rfl).elim
    · exact (ih hquote.2 hrest).plain hback hquote.1 hfeed hreturn

/-- In front of a bare quote the content of a literal may end. -/
theorem exists_bareQuote (hquote : hasBareQuote x = true) (hbreak : ∀ c ∈ x, c ≠ '\n' ∧ c ≠ '\r') :
    ∃ y z, x = y ++ '\x27' :: z ∧ IsContent y := by
  -- by the cases of the search for a quote
  induction x using hasBareQuote.induct with
  | case1 => cases hquote
  | case2 c rest ih =>
    rw [hasBareQuote] at hquote
    simp only [List.mem_cons, forall_eq_or_imp] at hbreak
    obtain ⟨y, z, rfl, hy⟩ := ih hquote hbreak.2.2
    exact ⟨'\\' :: c :: y, z, rfl, hy.escape c⟩
  | case3 c rest hescape ih =>
    rw [hasBareQuote.eq_3 c rest hescape, Bool.or_eq_true, beq_iff_eq] at hquote
    rw [List.forall_mem_cons] at hbreak
    obtain ⟨⟨hfeed, hreturn⟩, hrest⟩ := hbreak
    by_cases hfirst : c = '\x27'
    · exact ⟨[], rest, by rw [hfirst]; rfl, .nil⟩
    · obtain ⟨y, z, rfl, hy⟩ := ih (hquote.resolve_left hfirst) hrest
      -- a backslash with a character behind it belongs to the other case
      by_cases hback : c = '\\'
      · cases y with
        | nil => exact (hescape _ _ hback rfl).elim
        | cons e y => exact (hescape _ _ hback rfl).elim
      · exact ⟨c :: y, z, rfl, hy.plain hback hfirst hfeed hreturn⟩

/-- A quote ends its literal. -/
theorem outline_quote (y : Text) : outline ((quoted '\x27').lexemesFrom ('\x27' :: y))
    = ⟨.literal '\x27', []⟩ :: outline (code.lexemesFrom y) := by
  show outline (pushLexeme (.literal '\x27') '\x27' true (code.lexemesFrom y)) = _
  cases code.lexemesFrom y <;> simp [pushLexeme, outline, Lexeme.outline]

/-! ## Code -/

/-- The first lexeme is the start of the text. -/
theorem prefix_of_lexemesFrom {lexeme : Lexeme} (h : mode.lexemesFrom x = lexeme :: lexemes) :
    lexeme.text <+: x := by
  have htext := lexemesFrom_text mode x
  rw [h, List.flatMap_cons] at htext
  exact ⟨_, htext⟩

/-- A text with the outline of another one starts with the same two characters of code. -/
theorem prefix_of_outline_eq (hc : ∀ next, code.sortOf c next = .code ∧ code.step c next = code)
    (hd : ∀ next, code.sortOf d next = .code)
    (h : outline (code.lexemesFrom (c :: d :: x)) = outline (code.lexemesFrom y)) : [c, d] <+: y := by
  obtain ⟨text, rest, hsecond⟩ := exists_lexemesFrom_cons code d x
  -- the text of the first lexeme starts like what was read
  have hsecondText : [d] <+: text := by
    have hmem : (⟨code.sortOf d x.head?, text⟩ : Lexeme) ∈ code.lexemesFrom (d :: x) := by simp [hsecond]
    obtain ⟨e, text', rfl⟩ := List.exists_cons_of_ne_nil (lexemesFrom_ne_nil code (d :: x) _ hmem)
    obtain ⟨hed, -⟩ := List.cons_prefix_cons.mp (prefix_of_lexemesFrom hsecond)
    exact ⟨text', by rw [hed]; rfl⟩
  -- both characters are in one piece of code, which an outline shows as it is
  have hfirst : code.lexemesFrom (c :: d :: x) = ⟨.code, c :: text⟩ :: rest := by
    rw [lexemesFrom, isLast, (hc _).1, (hc _).2, hsecond, hd]
    rfl
  rw [hfirst] at h
  cases hy : code.lexemesFrom y with
  | nil => simp [hy, outline] at h
  | cons lexeme others =>
    obtain ⟨sort, text'⟩ := lexeme
    rw [hy, outline, outline, List.map_cons, List.map_cons, List.cons.injEq] at h
    -- the outline of a piece of code has its text
    have hsame : text' = c :: text := by
      cases sort with
      | code => simpa [Lexeme.outline] using h.1.symm
      | literal | comment => simp [Lexeme.outline] at h
    have hprefix := prefix_of_lexemesFrom hy
    rw [hsame] at hprefix
    exact (List.cons_prefix_cons.mpr ⟨rfl, hsecondText⟩).trans hprefix

/-! ## Comments -/

/-- A block comment is one lexeme up to the first star and slash. -/
theorem lexemesFrom_blockComment {inner : Text} (h : ¬ "*/".toList <:+: inner ++ ['*']) (y : Text) :
    blockComment.lexemesFrom (inner ++ '*' :: '/' :: y)
        = ⟨.comment, inner ++ ['*', '/']⟩ :: code.lexemesFrom y ∧
      blockComment.isSound (inner ++ '*' :: '/' :: y) = code.isSound y := by
  induction inner with
  | nil =>
    -- the slash ends the comment, so it is pushed in front of the rest as an end
    have hlast : commentClosing.lexemesFrom ('/' :: y) = ⟨.comment, ['/']⟩ :: code.lexemesFrom y := by
      rw [lexemesFrom]
      show pushLexeme .comment '/' true (code.lexemesFrom y) = _
      cases code.lexemesFrom y <;> simp [pushLexeme]
    refine ⟨?_, rfl⟩
    show pushLexeme .comment '*' false (commentClosing.lexemesFrom ('/' :: y)) = _
    rw [hlast]
    rfl
  | cons c inner ih =>
    obtain ⟨hlexemes, hsound⟩ := ih fun hin => h (List.infix_cons hin)
    -- a star inside is not followed by a slash, or the comment would have ended
    have hstep : blockComment.step c (inner ++ '*' :: '/' :: y).head? = blockComment :=
      step_blockComment (fun hin => h (hin.trans (List.prefix_append _ _).isInfix)) ('/' :: y)
    constructor
    · rw [List.cons_append, lexemesFrom, hstep, hlexemes, isLast, hstep]
      rfl
    · rw [List.cons_append, Mode.isSound, hstep, hsound]
      rfl

/-- A text that starts with a block comment has that comment for its first lexeme. -/
theorem lexemesFrom_comment {inner : Text} (h : ¬ "*/".toList <:+: inner ++ ['*']) (y : Text) :
    code.lexemesFrom ('/' :: '*' :: (inner ++ '*' :: '/' :: y))
        = ⟨.comment, '/' :: '*' :: (inner ++ ['*', '/'])⟩ :: code.lexemesFrom y ∧
      code.isSound ('/' :: '*' :: (inner ++ '*' :: '/' :: y)) = code.isSound y := by
  obtain ⟨hlexemes, hsound⟩ := lexemesFrom_blockComment h y
  refine ⟨?_, hsound⟩
  show pushLexeme .comment '/' false (pushLexeme .comment '*' false
    (blockComment.lexemesFrom (inner ++ '*' :: '/' :: y))) = _
  rw [hlexemes]
  rfl

end Mode

/-! ## Two texts with the same code -/

/-- Whether two texts can be lexed (`lex?`), start with a comment each, and have the same lexemes behind it, apart
from what literals hold. -/
def HaveSameCode (x x' : Text) : Prop :=
  ∃ header header' rest rest', lex? x = some (header :: rest) ∧ lex? x' = some (header' :: rest') ∧
    header.sort = .comment ∧ header'.sort = .comment ∧ outline rest = outline rest'

open Mode in
/-- Behind two block comments, which may be different ones, the rest decides. -/
theorem haveSameCode_iff {inner inner' : Text} (h : ¬ "*/".toList <:+: inner ++ ['*'])
    (h' : ¬ "*/".toList <:+: inner' ++ ['*']) (x x' : Text) :
    HaveSameCode ('/' :: '*' :: (inner ++ '*' :: '/' :: x)) ('/' :: '*' :: (inner' ++ '*' :: '/' :: x'))
      ↔ code.isSound x = true ∧ code.isSound x' = true ∧
        outline (code.lexemesFrom x) = outline (code.lexemesFrom x') := by
  obtain ⟨hlexemes, hsound⟩ := lexemesFrom_comment h x
  obtain ⟨hlexemes', hsound'⟩ := lexemesFrom_comment h' x'
  simp only [HaveSameCode, lex?, hlexemes, hlexemes', hsound, hsound']
  -- the headers are one lexeme on each side, and comments show nothing
  constructor
  · rintro ⟨header, header', rest, rest', hlex, hlex', -, -, hsame⟩
    split at hlex
    · split at hlex'
      · obtain ⟨-, rfl⟩ := List.cons.inj (Option.some.inj hlex)
        obtain ⟨-, rfl⟩ := List.cons.inj (Option.some.inj hlex')
        exact ⟨‹_›, ‹_›, hsame⟩
      · cases hlex'
    · cases hlex
  · rintro ⟨hx, hx', hsame⟩
    exact ⟨_, _, _, _, by rw [if_pos hx], by rw [if_pos hx'], rfl, rfl, hsame⟩

end ComponentKit.Source
