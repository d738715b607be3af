import ComponentKit.Proofs.Source.Scan

/-!
# Parentheses in code

How many parentheses are open behind a text, if only those of its code count (`openBehind`). A call is read from
its own start, as if code started there. Where the reader of the whole text is in code as well, it finds the same
strings and comments in the call, so that behind the call as many parentheses are open as in front of it.
-/

namespace ComponentKit.Source

open Text

variable {mode : Mode} {x y call back word : Text} {c : Char} {next : Option Char} {depth n : Nat}

/-! ## The characters of code -/

namespace Mode

/-- The characters of code in a text that is read in a mode. -/
def codeOf (mode : Mode) (text : Text) (next : Option Char) : Text :=
  ((mode.read text next).filter (·.2 == .code)).map (·.1)

theorem codeOf_append (mode : Mode) (x y : Text) (next : Option Char) :
    mode.codeOf (x ++ y) next
      = mode.codeOf x (y.head?.or next) ++ (mode.after x (y.head?.or next)).codeOf y next := by
  rw [codeOf, read_append, List.filter_append, List.map_append]
  rfl

theorem codeOf_cons (mode : Mode) (c : Char) (x : Text) (next : Option Char) :
    mode.codeOf (c :: x) next = (if mode.classOf c (x.head?.or next) = .code then [c] else [])
      ++ (mode.step c (x.head?.or next)).codeOf x next := by
  rw [codeOf, read, List.filter_cons]
  by_cases h : mode.classOf c (x.head?.or next) = .code
  · simp [h, codeOf]
  · simp [h, codeOf]

/-- Only in code, and at the end of a line comment, a reader finds code. -/
theorem eq_code_of_classOf (h : mode.classOf c next = .code) :
    mode = code ∨ mode = lineComment ∧ c = '\n' := by
  cases mode with
  | code => exact .inl rfl
  | lineComment =>
    rw [classOf] at h
    split at h
    · exact .inr ⟨rfl, ‹_›⟩
    · cases h
  | quoted | escaped | commentOpening | blockComment | commentClosing => cases h

/-- Plain characters of code are read as they are. -/
theorem read_plain (hx : ∀ c ∈ x, isPlainCode c = true) (next : Option Char) :
    code.after x next = code ∧ code.codeOf x next = x := by
  induction x with
  | nil => exact ⟨rfl, rfl⟩
  | cons c x ih =>
    obtain ⟨hc, hx⟩ := List.forall_mem_cons.mp hx
    obtain ⟨hafter, hcode⟩ := ih hx
    simp only [isPlainCode, Bool.not_eq_true', Bool.or_eq_false_iff, beq_eq_false_iff_ne] at hc
    obtain ⟨⟨-, hslash⟩, hquote⟩ := hc
    -- nothing that opens a string or a comment is among the characters
    have hstep : ∀ next, code.step c next = code := by
      intro next
      simp [step, hslash, hquote]
    have hclass : ∀ next, code.classOf c next = .code := by
      intro next
      simp [classOf, hslash, hquote]
    rw [after, codeOf_cons, hstep, if_pos (hclass _), hafter, hcode]
    exact ⟨rfl, rfl⟩

/-- The first character of code in a text that is not blank. -/
def nextCode? (mode : Mode) (text : Text) : Option Char :=
  (mode.codeOf text none).find? (!isBlank ·)

end Mode

/-! ## Open parentheses -/

/-- How many of some parentheses are open behind a text, if a number of them are open in front of it. One
that closes nothing does not count. -/
def openBehind (left right : Char) (depth : Nat) (text : Text) : Nat :=
  text.foldl (fun depth c => if c = left then depth + 1 else if c = right then depth - 1 else depth) depth

theorem openBehind_append (left right : Char) (depth : Nat) (x y : Text) :
    openBehind left right depth (x ++ y) = openBehind left right (openBehind left right depth x) y :=
  List.foldl_append

theorem openBehind_plain (hx : ∀ c ∈ x, isPlainCode c = true) (depth : Nat) :
    openBehind '(' ')' depth x = depth := by
  induction x with
  | nil => rfl
  | cons c x ih =>
    obtain ⟨hc, hx⟩ := List.forall_mem_cons.mp hx
    simp only [isPlainCode, Bool.not_eq_true', Bool.or_eq_false_iff, beq_eq_false_iff_ne] at hc
    obtain ⟨⟨⟨hopen, hclose⟩, -⟩, -⟩ := hc
    show openBehind '(' ')' (if c = '(' then depth + 1 else if c = ')' then depth - 1 else depth) x = depth
    rw [if_neg hopen, if_neg hclose, ih hx]

/-! ## Calls -/

/-- What a call does to its reader: it is read from code to code, and closes the parentheses it opens (`openBehind`).
-/
def IsClosed (call : Text) : Prop :=
  ∀ next, Mode.code.after call next = .code ∧
    ∀ depth, openBehind '(' ')' depth (Mode.code.codeOf call next) = depth

theorem IsClosed.append (hx : IsClosed x) (hy : IsClosed y) : IsClosed (x ++ y) := by
  intro next
  obtain ⟨hxa, hxd⟩ := hx (y.head?.or next)
  obtain ⟨hya, hyd⟩ := hy next
  rw [Mode.after_append, Mode.codeOf_append, hxa]
  refine ⟨hya, fun depth => ?_⟩
  rw [openBehind_append, hxd, hyd]

theorem isClosed_plain (hx : ∀ c ∈ x, isPlainCode c = true) : IsClosed x := by
  intro next
  obtain ⟨hafter, hcode⟩ := Mode.read_plain hx next
  exact ⟨hafter, fun depth => by rw [hcode, openBehind_plain hx]⟩

/-- The parentheses that are open in front of the rest of a call are closed behind it. -/
theorem callLength?_closes {text : Text} (hd : 0 < depth) (h : callLength? mode depth text = some n) :
    ∃ call back, text = call ++ back ∧ n = call.length ∧ call ≠ [] ∧
      ∀ next, mode.after call next = .code ∧
        ∀ outer, openBehind '(' ')' (outer + depth) (mode.codeOf call next) = outer := by
  -- `outer` parentheses are open around the call: the depth of the scan counts on top of them
  induction text generalizing mode depth n with
  | nil => simp [callLength?] at h
  | cons c text ih =>
    rw [callLength?] at h
    split at h
    · -- an opening parenthesis
      rename_i hopen
      obtain ⟨rfl, rfl⟩ := hopen
      obtain ⟨m, hm, rfl⟩ := Option.map_eq_some_iff.mp h
      obtain ⟨call, back, rfl, rfl, -, hcall⟩ := ih (by omega) hm
      refine ⟨'(' :: call, back, rfl, rfl, List.cons_ne_nil _ _, fun next => ?_⟩
      obtain ⟨hafter, hdepth⟩ := hcall next
      refine ⟨hafter, fun outer => ?_⟩
      rw [Mode.codeOf_cons]
      exact hdepth outer
    · split at h
      · -- a closing parenthesis: the last one, or one of several
        rename_i hclose
        obtain ⟨rfl, rfl⟩ := hclose
        split at h
        · obtain rfl := Option.some.inj h
          obtain rfl : depth = 1 := by omega
          exact ⟨[')'], text, rfl, rfl, List.cons_ne_nil _ _, fun next => ⟨rfl, fun outer => rfl⟩⟩
        · obtain ⟨m, hm, rfl⟩ := Option.map_eq_some_iff.mp h
          obtain ⟨call, back, rfl, rfl, -, hcall⟩ := ih (by omega) hm
          refine ⟨')' :: call, back, rfl, rfl, List.cons_ne_nil _ _, fun next => ?_⟩
          obtain ⟨hafter, hdepth⟩ := hcall next
          refine ⟨hafter, fun outer => ?_⟩
          rw [Mode.codeOf_cons]
          show openBehind '(' ')' (outer + depth - 1) _ = outer
          rw [show outer + depth - 1 = outer + (depth - 1) by omega]
          exact hdepth outer
      · -- any other character: it is no parenthesis, or it is not code
        rename_i hopen hclose
        obtain ⟨m, hm, rfl⟩ := Option.map_eq_some_iff.mp h
        obtain ⟨call, back, rfl, rfl, hne, hcall⟩ := ih hd hm
        refine ⟨c :: call, back, rfl, rfl, List.cons_ne_nil _ _, fun next => ?_⟩
        obtain ⟨d, call, rfl⟩ := List.exists_cons_of_ne_nil hne
        obtain ⟨hafter, hdepth⟩ := hcall next
        refine ⟨hafter, fun outer => ?_⟩
        rw [Mode.codeOf_cons, openBehind_append]
        have hsame : openBehind '(' ')' (outer + depth)
            (if mode.classOf c ((d :: call).head?.or next) = .code then [c] else []) = outer + depth := by
          split
          · rename_i hclass
            have hparen : c ≠ '(' ∧ c ≠ ')' := by
              rcases Mode.eq_code_of_classOf hclass with hmode | ⟨-, rfl⟩
              · exact ⟨fun hc => hopen ⟨hmode, hc⟩, fun hc => hclose ⟨hmode, hc⟩⟩
              · exact ⟨by decide, by decide⟩
            simp [openBehind, hparen.1, hparen.2]
          · rfl
        rw [hsame]
        exact hdepth outer

/-- A call up to its end, with the semicolon behind it, closes what it opens. -/
theorem isClosed_of_callEnd? (hword : ∀ c ∈ word, isPlainCode c = true) (hstart : word ++ ['('] <+: call ++ back)
    (h : callEnd? (call ++ back) = some call.length) : IsClosed call := by
  obtain ⟨more, hmore⟩ := hstart
  -- the name of the call has no parenthesis, so the scan starts behind it
  have hlead : ∀ c ∈ word, (c != '(') = true := by
    intro c hc
    have hplain := hword c hc
    simp only [isPlainCode, Bool.not_eq_true', Bool.or_eq_false_iff, beq_eq_false_iff_ne] at hplain
    rw [bne_iff_ne]
    exact hplain.1.1.1
  rw [List.append_assoc, List.singleton_append] at hmore
  have htake : (word ++ '(' :: more).takeWhile (· != '(') = word := takeWhile_eq_of_forall hlead (by rfl)
  have hdrop : (word ++ '(' :: more).dropWhile (· != '(') = '(' :: more := dropWhile_eq_of_forall hlead (by rfl)
  rw [← hmore, callEnd?, htake, hdrop] at h
  obtain ⟨length, hlength, htotal⟩ := Option.map_eq_some_iff.mp h
  have hopened : callLength? .code 0 ('(' :: more) = (callLength? .code 1 more).map (· + 1) := rfl
  rw [hopened] at hlength
  obtain ⟨m, hm, rfl⟩ := Option.map_eq_some_iff.mp hlength
  obtain ⟨inner, after, rfl, rfl, -, hinner⟩ := callLength?_closes Nat.one_pos hm
  obtain ⟨taken, rest, rfl, hsemi, htaken⟩ := semicolonLength_split after
  have hbehind : ('(' :: (inner ++ (taken ++ rest))).drop (inner.length + 1) = taken ++ rest := by
    rw [List.drop_succ_cons, List.drop_left]
  rw [hbehind, hsemi] at htotal
  -- the call is its name, the parentheses and the semicolon
  obtain ⟨rfl, -⟩ : word ++ ('(' :: inner) ++ taken = call ∧ rest = back := by
    refine List.append_inj ?_ ?_
    · rw [← hmore]
      simp only [List.append_assoc, List.cons_append]
    · rw [← htotal]
      simp only [List.length_append, List.length_cons]
  have hparens : IsClosed ('(' :: inner) := by
    intro next
    obtain ⟨hafter, hdepth⟩ := hinner next
    refine ⟨hafter, fun depth => ?_⟩
    rw [Mode.codeOf_cons]
    exact hdepth depth
  -- what is taken behind the parenthesis is indentation and a semicolon
  have hsemicolon : ∀ c ∈ taken, isPlainCode c = true := by
    rcases htaken with rfl | ⟨gap, rfl, hgap⟩
    · simp
    · intro c hc
      rcases List.mem_append.mp hc with hc | hc
      · have hindent := hgap c hc
        simp only [isIndent, Bool.or_eq_true, beq_iff_eq] at hindent
        rcases hindent with rfl | rfl <;> decide
      · rw [List.mem_singleton] at hc
        subst hc
        decide
  exact ((isClosed_plain hword).append hparens).append (isClosed_plain hsemicolon)

/-! ## Statements -/

/-- Whether a character of code goes on with the expression in front of it. -/
def continues (c : Char) : Bool :=
  ['.', '?', ',', ')', ']'].contains c

/-- How many of some parentheses are open behind the first part of a body, in code, by `openBehind`. -/
def openIn (left right : Char) (before behind : Text) : Nat :=
  openBehind left right 0 (Mode.code.codeOf before behind.head?)

/-- Whether a line that was put into a body is between two statements: nothing is open in front of it, and
the code behind it does not go on with what stands in front. -/
def isBetweenStatements (before added behind : Text) : Bool :=
  openIn '(' ')' before (added ++ behind) == 0 && openIn '[' ']' before (added ++ behind) == 0
    && !((Mode.code.after (before ++ added) behind.head?).nextCode? behind).any continues

/-- Whether a call is a statement: nothing is open in front of it, it leaves no bracket open, and the code
behind it does not go on with it. -/
def isWholeStatement (before call behind : Text) : Bool :=
  openIn '(' ')' before (call ++ behind) == 0 && openIn '[' ']' (before ++ call) behind == 0
    && !(Mode.code.nextCode? behind).any continues

/-- The last character of a call makes up no mark with the next one. -/
theorem apart_of_endsLikeCall (h : endsLikeCall call) (before : Text) (next : Option Char) :
    Mode.Apart (before ++ call) next := by
  refine .inl fun c hc => ?_
  rcases (h.append_left before).getLast? with hlast | hlast
  · obtain rfl := Option.some.inj (hc.symm.trans hlast)
    decide
  · obtain rfl := Option.some.inj (hc.symm.trans hlast)
    decide

/-- Behind a call that is read in code the reader is in code, and as many parentheses are open as in front
of it. -/
theorem IsClosed.openIn_eq {before behind : Text} (h : IsClosed call)
    (hcode : Mode.code.after before (call ++ behind).head? = .code) :
    Mode.code.after (before ++ call) behind.head? = .code ∧
      openIn '(' ')' (before ++ call) behind = openIn '(' ')' before (call ++ behind) := by
  rw [List.head?_append] at hcode
  obtain ⟨hafter, hdepth⟩ := h behind.head?
  refine ⟨by rw [Mode.after_append, hcode, hafter], ?_⟩
  rw [openIn, openIn, Mode.codeOf_append, hcode, openBehind_append, hdepth, List.head?_append]

/-- A line behind a call that is read in code is between two statements exactly if the call is one. -/
theorem isBetweenStatements_eq {before added behind : Text} (hclosed : IsClosed call)
    (hends : endsLikeCall call) (hcode : Mode.code.after before (call ++ behind).head? = .code)
    (hadded : ∀ next, Mode.code.after added next = .code) :
    isBetweenStatements (before ++ call) added behind = isWholeStatement before call behind := by
  obtain ⟨hafter, hparens⟩ := hclosed.openIn_eq hcode
  -- the call is read alike in front of the line and in front of what follows it
  have hsame : ∀ left right,
      openIn left right (before ++ call) (added ++ behind) = openIn left right (before ++ call) behind := by
    intro left right
    rw [openIn, openIn, Mode.codeOf, Mode.codeOf, (Mode.read_of_apart (apart_of_endsLikeCall hends before _) _).1,
      (Mode.read_of_apart (apart_of_endsLikeCall hends before behind.head?) _).1]
  have hbehind : Mode.code.after (before ++ call ++ added) behind.head? = .code := by
    rw [Mode.after_append, (Mode.read_of_apart (apart_of_endsLikeCall hends before _) _).2,
      ← (Mode.read_of_apart (apart_of_endsLikeCall hends before behind.head?) _).2, hafter, hadded]
  rw [isBetweenStatements, isWholeStatement, hsame, hsame, hparens, hbehind]

end ComponentKit.Source
