import ComponentKit.Proofs.Source.Scan

/-!
# The arguments of a call

What may stand between the parentheses of a call, as a grammar (`IsArguments`), and the scan for the end of a call:
`endOfCall?` accepts exactly the calls of the grammar. The scan is deterministic where the grammar offers a choice
of splits, so that the grammar has one split for each text as well.
-/

namespace ComponentKit.Source

open Text

variable {quote c : Char} {x y text : Text} {depth n : Nat}

/-! ## The grammar -/

/-- What may stand between two quotes of a kind: a backslash takes the character behind it along. -/
inductive IsQuotable (quote : Char) : Text → Prop where
  | nil : IsQuotable quote []
  | escaped (c : Char) {x : Text} : IsQuotable quote x → IsQuotable quote ('\\' :: c :: x)
  | plain {c : Char} {x : Text} : c ≠ quote → c ≠ '\\' → IsQuotable quote x → IsQuotable quote (c :: x)

/-- Whether a character starts a comment in front of another one. -/
def startsComment (c : Char) (next : Option Char) : Prop :=
  c = '/' ∧ (next = some '/' ∨ next = some '*')

/-- What may stand between two parentheses: strings, comments, texts in parentheses and other characters. -/
inductive IsArguments : Text → Prop where
  | nil : IsArguments []
  | string {quote : Char} {content x : Text} : Mode.isStringQuote quote = true → IsQuotable quote content →
    IsArguments x → IsArguments (quote :: (content ++ quote :: x))
  | lineComment {content x : Text} : '\n' ∉ content → IsArguments x →
    IsArguments ('/' :: '/' :: (content ++ '\n' :: x))
  | blockComment {content x : Text} : ¬ "*/".toList <:+: content → IsArguments x →
    IsArguments ('/' :: '*' :: (content ++ '*' :: '/' :: x))
  | group {inner x : Text} : IsArguments inner → IsArguments x →
    IsArguments ('(' :: (inner ++ ')' :: x))
  | other {c : Char} {x : Text} : Mode.isStringQuote c = false → c ≠ '(' → c ≠ ')' →
    ¬ startsComment c x.head? → IsArguments x → IsArguments (c :: x)

theorem IsQuotable.of_forall (h : ∀ c ∈ x, c ≠ quote ∧ c ≠ '\\') : IsQuotable quote x := by
  induction x with
  | nil => exact .nil
  | cons c x ih =>
    obtain ⟨hquote, hescape⟩ := h c (by simp)
    exact (ih fun d hd => h d (List.mem_cons_of_mem c hd)).plain hquote hescape

/-- Plain code may stand in front of arguments. -/
theorem IsArguments.plain_append (hx : ∀ c ∈ x, isPlainCode c = true) (hy : IsArguments y) :
    IsArguments (x ++ y) := by
  induction x with
  | nil => exact hy
  | cons c x ih =>
    have hc := hx c (by simp)
    simp only [isPlainCode, Bool.not_eq_true', Bool.or_eq_false_iff, beq_eq_false_iff_ne] at hc
    obtain ⟨⟨⟨hopen, hclose⟩, hslash⟩, hquote⟩ := hc
    exact (ih fun d hd => hx d (List.mem_cons_of_mem c hd)).other hquote hopen hclose fun h => hslash h.1

/-! ## Single steps of the scan -/

theorem callLength?_step {mode : Mode} (hmode : mode ≠ .code) (c : Char) (x : Text) :
    callLength? mode depth (c :: x) = (callLength? (mode.step c x.head?) depth x).map (· + 1) := by
  rw [callLength?, if_neg fun h => hmode h.1, if_neg fun h => hmode h.1]

theorem callLength?_character (hopen : c ≠ '(') (hclose : c ≠ ')') (x : Text) :
    callLength? .code depth (c :: x) = (callLength? (Mode.code.step c x.head?) depth x).map (· + 1) := by
  rw [callLength?, if_neg fun h => hopen h.2, if_neg fun h => hclose h.2]

theorem callLength?_opening (depth : Nat) (x : Text) :
    callLength? .code depth ('(' :: x) = (callLength? .code (depth + 1) x).map (· + 1) := rfl

theorem callLength?_closing (hd : 0 < depth) (x : Text) :
    callLength? .code (depth + 1) (')' :: x) = (callLength? .code depth x).map (· + 1) := by
  rw [callLength?, if_neg (by decide), if_pos ⟨rfl, rfl⟩, if_neg (by omega), Nat.add_sub_cancel]

theorem step_code_of_quote (h : Mode.isStringQuote c = true) (next : Option Char) :
    Mode.code.step c next = .quoted c := by
  have hslash : c ≠ '/' := by
    rintro rfl
    exact absurd h (by decide)
  simp [Mode.step, hslash, h]

theorem step_code_of_other (hquote : Mode.isStringQuote c = false) {next : Option Char}
    (h : ¬ startsComment c next) : Mode.code.step c next = .code := by
  have hline : ¬ (c = '/' ∧ next = some '/') := fun hc => h ⟨hc.1, .inl hc.2⟩
  have hblock : ¬ (c = '/' ∧ next = some '*') := fun hc => h ⟨hc.1, .inr hc.2⟩
  simp [Mode.step, hline, hblock, hquote]

/-- A quote opens a string. -/
theorem callLength?_quote (hquote : Mode.isStringQuote quote = true) (depth : Nat) (x : Text) :
    callLength? .code depth (quote :: x) = (callLength? (.quoted quote) depth x).map (· + 1) := by
  have hopen : quote ≠ '(' ∧ quote ≠ ')' := by
    constructor <;>
    · rintro rfl
      exact absurd hquote (by decide)
  rw [callLength?_character hopen.1 hopen.2, step_code_of_quote hquote]

/-- Two slashes open a comment. -/
theorem callLength?_slashes (depth : Nat) (x : Text) :
    callLength? .code depth ('/' :: '/' :: x) = (callLength? .lineComment depth x).map (· + 2) := by
  rw [callLength?_character (by decide) (by decide)]
  show (callLength? .lineComment depth ('/' :: x)).map (· + 1) = _
  rw [callLength?_step (by simp), Option.map_map]
  rfl

/-- A slash and a star open a comment. -/
theorem callLength?_slashStar (depth : Nat) (x : Text) :
    callLength? .code depth ('/' :: '*' :: x) = (callLength? .blockComment depth x).map (· + 2) := by
  rw [callLength?_character (by decide) (by decide)]
  show (callLength? .commentOpening depth ('*' :: x)).map (· + 1) = _
  rw [callLength?_step (by simp), Option.map_map]
  rfl

/-! ## Passing over what the grammar allows -/

/-- A scan that passes over two parts passes over the number of characters of both. -/
theorem map_add_map {length : Option Nat} {m n total : Nat} (h : m + n = total) :
    (length.map (· + m)).map (· + n) = length.map (· + total) := by
  subst h
  simp only [Option.map_map, Function.comp_def, Nat.add_assoc]

theorem callLength?_string (hquote : Mode.isStringQuote quote = true) (hx : IsQuotable quote x)
    (depth : Nat) (y : Text) : callLength? (.quoted quote) depth (x ++ quote :: y)
      = (callLength? .code depth y).map (· + (x.length + 1)) := by
  induction hx with
  -- a quote is no backslash, so it closes the string
  | nil =>
    have hne : quote ≠ '\\' := by
      rintro rfl
      exact absurd hquote (by decide)
    rw [List.nil_append, callLength?_step (by simp), Mode.step, if_neg hne, if_pos rfl]
    rfl
  | escaped c hx ih =>
    rw [List.cons_append, List.cons_append, callLength?_step (by simp), Mode.step, if_pos rfl,
      callLength?_step (by simp), Mode.step, ih, Option.map_map, Option.map_map]
    rfl
  | plain hother hback hx ih =>
    rw [List.cons_append, callLength?_step (by simp), Mode.step, if_neg hback, if_neg hother, ih,
      Option.map_map]
    rfl

theorem callLength?_lineComment (hx : '\n' ∉ x) (depth : Nat) (y : Text) :
    callLength? .lineComment depth (x ++ '\n' :: y)
      = (callLength? .code depth y).map (· + (x.length + 1)) := by
  induction x with
  | nil => rfl
  | cons c x ih =>
    rw [List.mem_cons, not_or] at hx
    rw [List.cons_append, callLength?_step (by simp), Mode.step, if_neg (Ne.symm hx.1), ih hx.2,
      Option.map_map]
    rfl

theorem callLength?_blockComment (hx : ¬ "*/".toList <:+: x) (depth : Nat) (y : Text) :
    callLength? .blockComment depth (x ++ '*' :: '/' :: y)
      = (callLength? .code depth y).map (· + (x.length + 2)) := by
  induction x with
  | nil =>
    rw [List.nil_append, callLength?_step (by simp)]
    show (callLength? .commentClosing depth ('/' :: y)).map (· + 1) = _
    rw [callLength?_step (by simp), Option.map_map]
    rfl
  | cons c x ih =>
    rw [List.cons_append, callLength?_step (by simp), Mode.step_blockComment hx,
      ih fun hin => hx (List.infix_cons hin), Option.map_map]
    rfl

/-- Inside of parentheses the scan goes on behind the arguments as it started. -/
theorem callLength?_arguments (hx : IsArguments x) (hd : 0 < depth) (y : Text) :
    callLength? .code depth (x ++ ')' :: y)
      = (callLength? .code depth (')' :: y)).map (· + x.length) := by
  -- one case for each production of the grammar; the depth is general for the groups
  induction hx generalizing depth y with
  | nil => simp
  | @string quote content x hquote hcontent _ ih =>
    rw [List.cons_append, callLength?_quote hquote, List.append_assoc, List.cons_append,
      callLength?_string hquote hcontent, ih hd, map_add_map rfl]
    exact map_add_map (by simp only [List.length_cons, List.length_append]; omega)
  | @lineComment content x hcontent _ ih =>
    rw [List.cons_append, List.cons_append, callLength?_slashes, List.append_assoc, List.cons_append,
      callLength?_lineComment hcontent, ih hd, map_add_map rfl]
    exact map_add_map (by simp only [List.length_cons, List.length_append]; omega)
  | @blockComment content x hcontent _ ih =>
    rw [List.cons_append, List.cons_append, callLength?_slashStar, List.append_assoc, List.cons_append,
      List.cons_append, callLength?_blockComment hcontent, ih hd, map_add_map rfl]
    exact map_add_map (by simp only [List.length_cons, List.length_append]; omega)
  | @group inner x _ _ ihinner ih =>
    rw [List.cons_append, callLength?_opening, List.append_assoc, List.cons_append,
      ihinner (Nat.succ_pos depth), callLength?_closing hd, ih hd, map_add_map rfl, map_add_map rfl]
    exact map_add_map (by simp only [List.length_cons, List.length_append]; omega)
  | @other c x hquote hopen hclose hcomment _ ih =>
    -- the character may be the last one, and then a parenthesis is behind it
    have hnext : ¬ startsComment c (x ++ ')' :: y).head? := by
      cases x with
      | nil => exact fun h => absurd h.2 (by simp)
      | cons d x => exact hcomment
    rw [List.cons_append, callLength?_character hopen hclose, step_code_of_other hquote hnext, ih hd,
      Option.map_map]
    rfl

/-! ## What a scan has passed over -/

theorem exists_string (h : callLength? (.quoted quote) depth text = some n) :
    ∃ x y, text = x ++ quote :: y ∧ IsQuotable quote x := by
  -- behind a backslash the scan goes on with the next character but one
  suffices (∀ n, callLength? (.quoted quote) depth text = some n →
      ∃ x y, text = x ++ quote :: y ∧ IsQuotable quote x) ∧
    (∀ n, callLength? (.escaped quote) depth text = some n →
      ∃ c x y, text = c :: (x ++ quote :: y) ∧ IsQuotable quote x) from this.1 n h
  clear h
  induction text with
  | nil => exact ⟨nofun, nofun⟩
  | cons c text ih =>
    constructor
    · intro n h
      rw [callLength?_step (by simp), Mode.step] at h
      obtain ⟨m, hm, -⟩ := Option.map_eq_some_iff.mp h
      split at hm
      · obtain ⟨d, x, y, rfl, hx⟩ := ih.2 m hm
        subst c
        exact ⟨'\\' :: d :: x, y, rfl, hx.escaped d⟩
      · split at hm
        · subst c
          exact ⟨[], text, rfl, .nil⟩
        · obtain ⟨x, y, rfl, hx⟩ := ih.1 m hm
          exact ⟨c :: x, y, rfl, hx.plain ‹_› ‹_›⟩
    · intro n h
      rw [callLength?_step (by simp), Mode.step] at h
      obtain ⟨m, hm, -⟩ := Option.map_eq_some_iff.mp h
      obtain ⟨x, y, rfl, hx⟩ := ih.1 m hm
      exact ⟨c, x, y, rfl, hx⟩

theorem exists_lineComment (h : callLength? .lineComment depth text = some n) :
    ∃ x y, text = x ++ '\n' :: y ∧ '\n' ∉ x := by
  induction text generalizing n with
  | nil => cases h
  | cons c text ih =>
    by_cases hc : c = '\n'
    · exact ⟨[], text, by rw [hc]; rfl, List.not_mem_nil⟩
    · rw [callLength?_step (by simp), Mode.step, if_neg hc] at h
      obtain ⟨m, hm, -⟩ := Option.map_eq_some_iff.mp h
      obtain ⟨x, y, rfl, hx⟩ := ih hm
      exact ⟨c :: x, y, rfl, by simp [Ne.symm hc, hx]⟩

theorem exists_blockComment (h : callLength? .blockComment depth text = some n) :
    ∃ x y, text = x ++ '*' :: '/' :: y ∧ ¬ "*/".toList <:+: x := by
  induction text generalizing n with
  | nil => cases h
  | cons c text ih =>
    -- the comment ends here, or the mark is in the rest
    by_cases hmark : c = '*' ∧ text.head? = some '/'
    · obtain ⟨rfl, hnext⟩ := hmark
      obtain ⟨y, rfl⟩ := List.head?_eq_some_iff.mp hnext
      exact ⟨[], y, rfl, by simp⟩
    · rw [callLength?_step (by simp), Mode.step, if_neg (by simpa using hmark)] at h
      obtain ⟨m, hm, -⟩ := Option.map_eq_some_iff.mp h
      obtain ⟨x, y, rfl, hx⟩ := ih hm
      refine ⟨c :: x, y, rfl, fun hin => ?_⟩
      -- a mark within `c :: x` would have been found
      rcases List.infix_cons_iff.mp hin with ⟨rest, hrest⟩ | hin
      · obtain ⟨rfl, rfl⟩ := List.cons.inj hrest
        exact hmark ⟨rfl, rfl⟩
      · exact hx hin

/-- A string or a comment at the start of a scan that ends is complete, and the scan goes on behind it. -/
theorem exists_token (h : callLength? .code depth (c :: text) = some n)
    (htoken : Mode.isStringQuote c = true ∨ startsComment c text.head?) :
    ∃ token more m, c :: text = token ++ more ∧ more.length ≤ text.length ∧
      callLength? .code depth more = some m ∧ ∀ x, IsArguments x → IsArguments (token ++ x) := by
  rcases htoken with hquote | ⟨rfl, hnext | hnext⟩
  -- a string
  · rw [callLength?_quote hquote] at h
    obtain ⟨m, hm, -⟩ := Option.map_eq_some_iff.mp h
    obtain ⟨content, more, rfl, hcontent⟩ := exists_string hm
    rw [callLength?_string hquote hcontent] at hm
    obtain ⟨m, hm, -⟩ := Option.map_eq_some_iff.mp hm
    exact ⟨c :: (content ++ [c]), more, m, by simp, by simp; omega, hm,
      fun x hx => by simpa using hx.string hquote hcontent⟩
  -- a comment up to the end of its line
  · obtain ⟨text, rfl⟩ := List.head?_eq_some_iff.mp hnext
    rw [callLength?_slashes] at h
    obtain ⟨m, hm, -⟩ := Option.map_eq_some_iff.mp h
    obtain ⟨content, more, rfl, hcontent⟩ := exists_lineComment hm
    rw [callLength?_lineComment hcontent] at hm
    obtain ⟨m, hm, -⟩ := Option.map_eq_some_iff.mp hm
    exact ⟨'/' :: '/' :: (content ++ ['\n']), more, m, by simp, by simp; omega, hm,
      fun x hx => by simpa using hx.lineComment hcontent⟩
  -- a comment between marks
  · obtain ⟨text, rfl⟩ := List.head?_eq_some_iff.mp hnext
    rw [callLength?_slashStar] at h
    obtain ⟨m, hm, -⟩ := Option.map_eq_some_iff.mp h
    obtain ⟨content, more, rfl, hcontent⟩ := exists_blockComment hm
    rw [callLength?_blockComment hcontent] at hm
    obtain ⟨m, hm, -⟩ := Option.map_eq_some_iff.mp hm
    exact ⟨'/' :: '*' :: (content ++ ['*', '/']), more, m, by simp, by simp; omega, hm,
      fun x hx => by simpa using hx.blockComment hcontent⟩

/-- A scan that ends has passed over arguments and the parenthesis behind them. -/
theorem exists_arguments (hd : 0 < depth) (h : callLength? .code depth text = some n) :
    ∃ x y, text = x ++ ')' :: y ∧ IsArguments x := by
  -- by the length of the text: behind a string, a comment or a group the scan goes on with a shorter one
  induction hlength : text.length using Nat.strong_induction_on generalizing text depth n with
  | _ length ih =>
    subst hlength
    cases text with
    | nil => cases h
    | cons c text =>
      by_cases hopen : c = '('
      · subst hopen
        rw [callLength?_opening] at h
        obtain ⟨m, hm, -⟩ := Option.map_eq_some_iff.mp h
        obtain ⟨inner, more, rfl, hinner⟩ := ih _ (Nat.lt_succ_self _) (Nat.succ_pos depth) hm rfl
        rw [callLength?_arguments hinner (Nat.succ_pos depth), callLength?_closing hd] at hm
        obtain ⟨m, hm, -⟩ := Option.map_eq_some_iff.mp hm
        obtain ⟨m, hm, -⟩ := Option.map_eq_some_iff.mp hm
        obtain ⟨x, y, rfl, hx⟩ := ih _ (by simp; omega) hd hm rfl
        exact ⟨'(' :: (inner ++ ')' :: x), y, by simp, hinner.group hx⟩
      by_cases hclose : c = ')'
      · exact ⟨[], text, by rw [hclose]; rfl, .nil⟩
      by_cases htoken : Mode.isStringQuote c = true ∨ startsComment c text.head?
      · obtain ⟨token, more, m, hsplit, hshort, hm, harguments⟩ := exists_token h htoken
        obtain ⟨x, y, rfl, hx⟩ := ih _ (Nat.lt_succ_of_le hshort) hd hm rfl
        exact ⟨token ++ x, y, by rw [hsplit, List.append_assoc], harguments x hx⟩
      · rw [not_or, Bool.not_eq_true] at htoken
        obtain ⟨hquote, hcomment⟩ := htoken
        rw [callLength?_character hopen hclose, step_code_of_other hquote hcomment] at h
        obtain ⟨m, hm, -⟩ := Option.map_eq_some_iff.mp h
        obtain ⟨x, y, rfl, hx⟩ := ih _ (Nat.lt_succ_self _) hd hm rfl
        refine ⟨c :: x, y, rfl, hx.other hquote hopen hclose fun hstart => hcomment ?_⟩
        -- at their end the arguments have a parenthesis behind them, which starts no comment
        cases x with
        | nil => exact absurd hstart.2 (by simp)
        | cons d x => exact hstart

/-- What a scan accepts: an opening parenthesis, arguments and the parenthesis that closes it. -/
theorem callLength?_iff {rest : Text} : callLength? .code 0 ('(' :: rest) = some n ↔
    ∃ x y, rest = x ++ ')' :: y ∧ IsArguments x ∧ n = x.length + 2 := by
  -- what the grammar has, the scan accepts at this length, so the length is settled by the arguments
  have hclose : ∀ x y, IsArguments x →
      callLength? .code 0 ('(' :: (x ++ ')' :: y)) = some (x.length + 2) := by
    intro x y hx
    rw [callLength?_opening, callLength?_arguments hx Nat.one_pos]
    show some (1 + x.length + 1) = _
    congr 1
    omega
  constructor
  · intro h
    obtain ⟨m, hm, -⟩ := Option.map_eq_some_iff.mp (callLength?_opening 0 rest ▸ h)
    obtain ⟨x, y, rfl, hx⟩ := exists_arguments Nat.one_pos hm
    exact ⟨x, y, rfl, hx, Option.some.inj (h.symm.trans (hclose x y hx))⟩
  · rintro ⟨x, y, rfl, hx, rfl⟩
    exact hclose x y hx

/-! ## Offsets in a text -/

/-- Whether the first opening parenthesis between two offsets is at the offset `start`. -/
def IsFirstOpening (text : Text) (pos limit start : Nat) : Prop :=
  pos ≤ start ∧ start < limit ∧ text[start]? = some '(' ∧ '(' ∉ slice pos start text

/-- Whether arguments in parentheses reach from one offset to another one, by the grammar `IsArguments`. -/
def IsCall (text : Text) (start stop : Nat) : Prop :=
  ∃ arguments, IsArguments arguments ∧ ('(' :: (arguments ++ [')'])) <+: text.drop start ∧
    stop = start + (arguments.length + 2)

/-- Whether a semicolon at an offset is separated from the offset `stop` by spaces and tabs only. -/
def IsSemicolonBehind (text : Text) (stop limit semicolon : Nat) : Prop :=
  stop ≤ semicolon ∧ semicolon < limit ∧ text[semicolon]? = some ';' ∧
    ∀ c ∈ slice stop semicolon text, isIndent c = true

/-- Whether a call with the semicolon that belongs to it ends at `last` if its parentheses end at `stop`. -/
def IsEndBehind (text : Text) (stop limit last : Nat) : Prop :=
  (∃ semicolon, IsSemicolonBehind text stop limit semicolon ∧ last = semicolon + 1) ∨
    ((∀ semicolon, ¬ IsSemicolonBehind text stop limit semicolon) ∧ last = stop)

theorem slice_eq_take_drop (start stop : Nat) (text : Text) :
    slice start stop text = (text.drop start).take (stop - start) := by
  rw [slice, List.drop_take]

theorem drop_slice (start stop n : Nat) (text : Text) :
    (slice start stop text).drop n = slice (start + n) stop text := by
  rw [slice, slice, List.drop_drop]

theorem offset_of_slice {start stop : Nat} (h : slice start stop text = x ++ c :: y) :
    start + x.length < stop ∧ text[start + x.length]? = some c ∧
      slice start (start + x.length) text = x := by
  have hc : (slice start stop text)[x.length]? = some c := by
    rw [h, List.getElem?_append_right (Nat.le_refl _), Nat.sub_self, List.getElem?_cons_zero]
  rw [slice_eq_take_drop, List.getElem?_take, List.getElem?_drop] at hc
  -- a slice is not longer than what it is cut from
  have hlt : x.length < stop - start := by
    by_contra hge
    rw [if_neg hge] at hc
    cases hc
  refine ⟨by omega, by rwa [if_pos hlt] at hc, ?_⟩
  calc slice start (start + x.length) text
      = (slice start stop text).take x.length := by
        rw [slice_eq_take_drop, slice_eq_take_drop, Nat.add_sub_cancel_left, List.take_take,
          Nat.min_eq_left hlt.le]
    _ = x := by rw [h, List.take_left]

theorem slice_of_offset {start stop i : Nat} (hstart : start ≤ i) (hstop : i < stop)
    (hc : text[i]? = some c) :
    slice start stop text = slice start i text ++ c :: slice (i + 1) stop text ∧
      start + (slice start i text).length = i := by
  obtain ⟨hi, rfl⟩ := List.getElem?_eq_some_iff.mp hc
  -- the slice is cut in front of the offset and behind it
  have htail : (slice start stop text).drop (i - start) = text[i] :: slice (i + 1) stop text := by
    have hlt : i < (text.take stop).length := by
      rw [List.length_take]
      omega
    rw [drop_slice, Nat.add_sub_cancel' hstart, slice, List.drop_eq_getElem_cons hlt,
      List.getElem_take]
    rfl
  have hlead : (slice start stop text).take (i - start) = slice start i text := by
    rw [slice_eq_take_drop, slice_eq_take_drop, List.take_take, Nat.min_eq_left (by omega)]
  constructor
  · rw [← hlead, ← htail, List.take_append_drop]
  · rw [slice, List.length_drop, List.length_take]
    omega

theorem IsFirstOpening.slice_eq {pos limit start : Nat} (h : IsFirstOpening text pos limit start) :
    slice start limit text = '(' :: slice (start + 1) limit text := by
  obtain ⟨-, hlt, hc, -⟩ := h
  have hsplit := (slice_of_offset (Nat.le_refl start) hlt hc).1
  rwa [show slice start start text = [] by simp [slice_eq_take_drop]] at hsplit

/-- The scan starts at the first opening parenthesis. -/
theorem IsFirstOpening.endOfCall?_eq {pos limit start : Nat} (h : IsFirstOpening text pos limit start) :
    endOfCall? text pos limit = (callLength? .code 0 (slice start limit text)).map
      fun n => start + n + semicolonLength (slice (start + n) limit text) := by
  obtain ⟨hpos, hlt, hc, hlead⟩ := h
  obtain ⟨hsplit, hlength⟩ := slice_of_offset hpos hlt hc
  have htake : (slice pos limit text).takeWhile (· != '(') = slice pos start text := by
    rw [hsplit, List.takeWhile_append_of_pos, List.takeWhile_cons_of_neg (by simp), List.append_nil]
    intro d hd
    rw [bne_iff_ne]
    rintro rfl
    exact hlead hd
  simp only [endOfCall?, htake, drop_slice, hlength]

theorem exists_isFirstOpening {pos limit last : Nat} (h : endOfCall? text pos limit = some last) :
    ∃ start, IsFirstOpening text pos limit start := by
  rcases dropWhile_cases (· != '(') (slice pos limit text) with hnil | ⟨c, rest, hdrop, hc⟩
  · simp [endOfCall?, drop_length_takeWhile, hnil, callLength?] at h
  · have hsplit := List.takeWhile_append_dropWhile (p := (· != '(')) (l := slice pos limit text)
    obtain rfl : c = '(' := by simpa using hc
    rw [hdrop] at hsplit
    obtain ⟨hlt, hc, hlead⟩ := offset_of_slice hsplit.symm
    refine ⟨_, Nat.le_add_right _ _, hlt, hc, ?_⟩
    rw [hlead]
    exact fun hmem => absurd (List.mem_takeWhile_imp hmem) (by simp)

/-- The calls that end in front of a limit are those the scan accepts. -/
theorem IsFirstOpening.isCall_iff {pos limit start stop : Nat}
    (h : IsFirstOpening text pos limit start) : IsCall text start stop ∧ stop ≤ limit ↔
      ∃ n, callLength? .code 0 (slice start limit text) = some n ∧ stop = start + n := by
  have hopening := h.slice_eq
  constructor
  -- a call in front of the limit lies in the slice that is scanned
  · rintro ⟨⟨x, hx, hin, rfl⟩, hle⟩
    have hlimited : ('(' :: (x ++ [')'])) <+: slice start limit text := by
      rw [slice_eq_take_drop, List.prefix_take_iff]
      exact ⟨hin, by simp; omega⟩
    obtain ⟨y, hy⟩ := hlimited
    refine ⟨x.length + 2, ?_, rfl⟩
    rw [← hy]
    exact callLength?_iff.mpr ⟨x, y, by simp, hx, rfl⟩
  -- and what is scanned is a part of the text
  · rintro ⟨n, hn, rfl⟩
    rw [hopening] at hn
    obtain ⟨x, y, hrest, hx, rfl⟩ := callLength?_iff.mp hn
    have hlimited : ('(' :: (x ++ [')'])) <+: slice start limit text :=
      ⟨y, by rw [hopening, hrest]; simp⟩
    rw [slice_eq_take_drop, List.prefix_take_iff] at hlimited
    refine ⟨⟨x, hx, hlimited.1, rfl⟩, ?_⟩
    have := hlimited.2
    have := h.2.1
    simp only [List.length_cons, List.length_append, List.length_nil] at *
    omega

/-- At an offset ends at most one call that starts at another one. -/
theorem IsCall.unique {start stop stop' : Nat} (h : IsCall text start stop)
    (h' : IsCall text start stop') : stop = stop' := by
  have hlength : ∀ x, IsArguments x → ('(' :: (x ++ [')'])) <+: text.drop start →
      callLength? .code 0 (text.drop start) = some (x.length + 2) := by
    rintro x hx ⟨y, hy⟩
    rw [← hy]
    exact callLength?_iff.mpr ⟨x, y, by simp, hx, rfl⟩
  obtain ⟨x, hx, hin, rfl⟩ := h
  obtain ⟨x', hx', hin', rfl⟩ := h'
  have := Option.some.inj ((hlength x hx hin).symm.trans (hlength x' hx' hin'))
  omega

theorem IsSemicolonBehind.unique {stop limit semicolon semicolon' : Nat}
    (h : IsSemicolonBehind text stop limit semicolon)
    (h' : IsSemicolonBehind text stop limit semicolon') : semicolon = semicolon' := by
  -- a semicolon is no indentation, so that none is in front of another one
  have hge : ∀ {i j}, IsSemicolonBehind text stop limit i → IsSemicolonBehind text stop limit j →
      j ≤ i := by
    intro i j hi hj
    by_contra hlt
    have hmem : ';' ∈ slice stop j text := by
      rw [(slice_of_offset hi.1 (Nat.lt_of_not_le hlt) hi.2.2.1).1]
      simp
    exact absurd (hj.2.2.2 _ hmem) (by decide)
  exact Nat.le_antisymm (hge h' h) (hge h h')

theorem IsEndBehind.unique {stop limit last last' : Nat} (h : IsEndBehind text stop limit last)
    (h' : IsEndBehind text stop limit last') : last = last' := by
  rcases h with ⟨i, hi, rfl⟩ | ⟨hnone, rfl⟩
  · rcases h' with ⟨j, hj, rfl⟩ | ⟨hnone, -⟩
    · rw [hi.unique hj]
    · exact absurd hi (hnone i)
  · rcases h' with ⟨j, hj, -⟩ | ⟨-, rfl⟩
    · exact absurd hj (hnone j)
    · rfl

theorem semicolonLength_append {gap : Text} (hgap : ∀ c ∈ gap, isIndent c = true) (y : Text) :
    semicolonLength (gap ++ ';' :: y) = gap.length + 1 := by
  have hindent : indentation (gap ++ ';' :: y) = gap := takeWhile_eq_of_forall hgap (by simp; decide)
  simp only [semicolonLength, hindent, List.drop_left]

/-- A text with a call and a semicolon is read up to the semicolon. -/
theorem callEnd?_call {lead : Text} (hlead : '(' ∉ lead) (hx : IsArguments x) (y : Text) :
    callEnd? (lead ++ '(' :: (x ++ ')' :: ';' :: y)) = some (lead.length + (x.length + 2) + 1) := by
  have hne : ∀ c ∈ lead, (c != '(') = true := fun c hc => by
    rw [bne_iff_ne]
    rintro rfl
    exact hlead hc
  have hcall : callLength? .code 0 ('(' :: (x ++ ')' :: ';' :: y)) = some (x.length + 2) :=
    callLength?_iff.mpr ⟨x, ';' :: y, rfl, hx, rfl⟩
  have hdrop : ('(' :: (x ++ ')' :: ';' :: y)).drop (x.length + 2) = ';' :: y := by
    rw [List.drop_succ_cons, List.append_cons]
    exact List.drop_left' List.length_append
  have hsemicolon : semicolonLength (';' :: y) = 1 := rfl
  rw [callEnd?, takeWhile_eq_of_forall hne (by rfl), dropWhile_eq_of_forall hne (by rfl), hcall]
  simp only [Option.map_some, hdrop, hsemicolon]

/-- The semicolon behind a call is the one that is read. -/
theorem isEndBehind_semicolonLength (text : Text) (stop limit : Nat) :
    IsEndBehind text stop limit (stop + semicolonLength (slice stop limit text)) := by
  by_cases h : ∃ semicolon, IsSemicolonBehind text stop limit semicolon
  · obtain ⟨semicolon, hsemi⟩ := h
    obtain ⟨hge, hlt, hc, hgap⟩ := id hsemi
    obtain ⟨hsplit, hlength⟩ := slice_of_offset hge hlt hc
    rw [hsplit, semicolonLength_append hgap, ← Nat.add_assoc, hlength]
    exact .inl ⟨semicolon, hsemi, rfl⟩
  · obtain ⟨taken, back, hsplit, hlength, rfl | ⟨gap, rfl, hgap⟩⟩ :=
      semicolonLength_split (slice stop limit text)
    · rw [hlength]
      exact .inr ⟨not_exists.mp h, rfl⟩
    · rw [List.append_assoc] at hsplit
      -- a semicolon that was read is one behind the call
      obtain ⟨hlt, hc, htaken⟩ := offset_of_slice hsplit
      exact absurd ⟨_, Nat.le_add_right _ _, hlt, hc, by rwa [htaken]⟩ h

theorem IsEndBehind.bounds {stop limit last : Nat} (h : IsEndBehind text stop limit last)
    (hle : stop ≤ limit) : stop ≤ last ∧ last ≤ limit := by
  rcases h with ⟨i, ⟨hge, hlt, -, -⟩, rfl⟩ | ⟨-, rfl⟩
  · omega
  · exact ⟨Nat.le_refl _, hle⟩

/-! ## What the scan for the end of a call accepts -/

/-- The scan finds the end of a call exactly where the first opening parenthesis is that of a call of the
grammar. -/
theorem endOfCall?_eq_some_iff {pos limit last : Nat} : endOfCall? text pos limit = some last ↔
    ∃ start stop, IsFirstOpening text pos limit start ∧ IsCall text start stop ∧ stop ≤ limit ∧
      IsEndBehind text stop limit last := by
  constructor
  · intro h
    obtain ⟨start, hopening⟩ := exists_isFirstOpening h
    rw [hopening.endOfCall?_eq] at h
    obtain ⟨n, hn, rfl⟩ := Option.map_eq_some_iff.mp h
    obtain ⟨hcall, hle⟩ := hopening.isCall_iff.mpr ⟨n, hn, rfl⟩
    exact ⟨start, _, hopening, hcall, hle, isEndBehind_semicolonLength text (start + n) limit⟩
  · rintro ⟨start, stop, hopening, hcall, hle, hend⟩
    obtain ⟨n, hn, rfl⟩ := hopening.isCall_iff.mp ⟨hcall, hle⟩
    rw [hopening.endOfCall?_eq, hn, hend.unique (isEndBehind_semicolonLength text (start + n) limit)]
    rfl

/-- `endOfCall?` finds an end if and only if the first opening parenthesis opens a call that is closed in front of the
limit, by the grammar `IsCall`; where that call ends is settled by its start, and what is found is behind the
semicolon of the call, if there is one. It is always an offset behind the start, up to the limit. -/
theorem endOfCall?_accepts (text : Text) (pos limit : Nat) :
    ((endOfCall? text pos limit).isSome ↔
      ∃ start stop, IsFirstOpening text pos limit start ∧ IsCall text start stop ∧ stop ≤ limit) ∧
    (∀ start stop stop', IsCall text start stop → IsCall text start stop' → stop = stop') ∧
    (∀ last, endOfCall? text pos limit = some last ↔ ∃ start stop, IsFirstOpening text pos limit start ∧
      IsCall text start stop ∧ stop ≤ limit ∧ IsEndBehind text stop limit last) ∧
    ∀ last, endOfCall? text pos limit = some last → pos < last ∧ last ≤ limit := by
  refine ⟨?_, fun start stop stop' => IsCall.unique, fun last => endOfCall?_eq_some_iff, ?_⟩
  · rw [Option.isSome_iff_exists]
    constructor
    · rintro ⟨last, hlast⟩
      obtain ⟨start, stop, hopening, hcall, hle, -⟩ := endOfCall?_eq_some_iff.mp hlast
      exact ⟨start, stop, hopening, hcall, hle⟩
    · rintro ⟨start, stop, hopening, hcall, hle⟩
      exact ⟨_, endOfCall?_eq_some_iff.mpr
        ⟨start, stop, hopening, hcall, hle, isEndBehind_semicolonLength text stop limit⟩⟩
  · intro last hlast
    obtain ⟨start, stop, hopening, ⟨x, -, -, rfl⟩, hle, hend⟩ := endOfCall?_eq_some_iff.mp hlast
    -- a call has at least its two parentheses
    have := hend.bounds hle
    have := hopening.1
    omega

/-- A parenthesis in a string, one in a comment and a semicolon behind a blank. -/
example : endOfCall? "set('a)', (b /* ) */)) ; \x7d".toList 0 26 = some 24 := by decide

end ComponentKit.Source
