import ComponentKit.Proofs.Source.ImportLine

/-!
# The import statements of a text

The offsets that `importEndsFrom` reads off a text are the ends of the statements on lines of their own. The
statements of complete lines come in front of those of the rest, and behind the last one there is none.
-/

namespace ComponentKit.Source

open Text

variable {first : Bool} {text front indent statement after x w : Text} {offset inside place : Nat}

/-! ## Statements on lines of their own -/

/-- Whether a line starts behind `front`; `first` says whether one starts in front of it. -/
def startsLine (first : Bool) (front : Text) : Bool :=
  (front.getLast?.map (· == '\n')).getD first

@[simp] theorem startsLine_nil (first : Bool) : startsLine first [] = first := rfl

theorem startsLine_cons (first : Bool) (c : Char) (front : Text) :
    startsLine first (c :: front) = startsLine (c == '\n') front := by
  cases front with
  | nil => rfl
  | cons d front => rw [startsLine, startsLine, List.getLast?_cons_cons]; rfl

theorem startsLine_append (first : Bool) (x y : Text) :
    startsLine first (x ++ y) = startsLine (startsLine first x) y := by
  induction x generalizing first with
  | nil => rfl
  | cons c x ih => rw [List.cons_append, startsLine_cons, startsLine_cons, ih]

theorem startsLine_of_getLast? {c : Char} (h : front.getLast? = some c) (first : Bool) :
    startsLine first front = (c == '\n') := by
  simp [startsLine, h]

/-- An import statement between `front` and `after`, on lines of its own. -/
structure ImportsBetween (first : Bool) (front indent statement after : Text) : Prop where
  /-- It starts a line. -/
  starts : startsLine first front = true
  /-- There is only indentation in front of it. -/
  indented : ∀ c ∈ indent, isIndent c = true
  /-- It is a statement. -/
  isImport : IsImport statement
  /-- It ends its line. -/
  ends : endsLine (after.dropWhile isIndent) = true

/-- Whether there is an import statement in a text. -/
def HasImport (first : Bool) (text : Text) : Prop :=
  ∃ front indent statement after, text = front ++ (indent ++ (statement ++ after)) ∧
    ImportsBetween first front indent statement after

theorem HasImport.append_left (h : HasImport (startsLine first x) text) : HasImport first (x ++ text) := by
  obtain ⟨front, indent, statement, after, rfl, himport⟩ := h
  refine ⟨x ++ front, indent, statement, after, by simp only [List.append_assoc], ?_, himport.indented,
    himport.isImport, himport.ends⟩
  rw [startsLine_append]
  exact himport.starts

theorem IsImport.head?_any {p : Char → Bool} (h : IsImport statement) (hi : p 'i' = false)
    (hb : p '\x7d' = false) (after : Text) : (statement ++ after).head?.any p = false := by
  have hhead : (statement ++ after).head? = statement.head? := by
    cases statement with
    | nil => rcases h.head with hh | hh <;> cases hh
    | cons c statement => rfl
  rw [hhead]
  rcases h.head with hh | hh
  · simpa [hh] using hi
  · simpa [hh] using hb

/-- The last character of a statement is a quote, indentation or a semicolon. -/
theorem IsImport.getLast? (h : IsImport statement) :
    ∃ c, statement.getLast? = some c ∧ (isQuote c || isIndent c || c == ';') = true := by
  obtain ⟨front, quote, gap, semicolon, rfl, hquote, hgap, hsemi⟩ := h.last
  -- without a semicolon it is the last character behind the quote, or the quote itself
  rcases hsemi with rfl | rfl
  · rw [List.append_nil]
    cases hg : gap.getLast? with
    | none =>
      obtain rfl := List.getLast?_eq_none_iff.mp hg
      exact ⟨quote, by simp, by simp [hquote]⟩
    | some c =>
      refine ⟨c, ?_, by simp [hgap c (List.mem_of_getLast? hg)]⟩
      rw [← hg]
      exact (getLast?_of_suffix ((List.suffix_cons _ _).trans (List.suffix_append _ _))
        (List.ne_nil_of_mem (List.mem_of_getLast? hg))).symm
  · refine ⟨';', ?_, rfl⟩
    rw [List.append_cons, ← List.append_assoc, List.getLast?_concat]

theorem IsImport.getLast?_ne (h : IsImport statement) {c : Char}
    (hc : (isQuote c || isIndent c || c == ';') = false) : statement.getLast? ≠ some c := by
  intro heq
  obtain ⟨d, hd, hshape⟩ := h.getLast?
  obtain rfl := Option.some.inj (hd.symm.trans heq)
  rw [hc] at hshape
  cases hshape

/-- The line behind the end of a statement has not started yet. -/
theorem IsImport.startsLine (h : IsImport statement) (first : Bool) (front : Text) :
    startsLine first (front ++ statement) = false := by
  obtain ⟨c, hc, -⟩ := h.getLast?
  have hne : c ≠ '\n' := by
    rintro rfl
    exact h.getLast?_ne (by decide) hc
  rw [startsLine_append, startsLine_of_getLast? hc]
  simpa using hne

theorem hasImport_cons {c : Char} {rest : Text} :
    HasImport first (c :: rest) ↔
      (first = true ∧ (afterImport? ((c :: rest).dropWhile isIndent)).isSome = true) ∨
        HasImport (c == '\n') rest := by
  constructor
  · rintro ⟨front, indent, statement, after, htext, himport⟩
    -- an import starts here, or behind the first character
    cases front with
    | nil =>
      refine .inl ⟨himport.starts, ?_⟩
      rw [List.nil_append] at htext
      rw [htext, dropWhile_eq_of_forall himport.indented
        (himport.isImport.head?_any (by decide) (by decide) after)]
      exact himport.isImport.isSome himport.ends
    | cons d front =>
      obtain ⟨rfl, rfl⟩ := List.cons.inj htext
      have hstarts := himport.starts
      rw [startsLine_cons] at hstarts
      exact .inr ⟨front, indent, statement, after, rfl, hstarts, himport.indented, himport.isImport,
        himport.ends⟩
  · rintro (⟨rfl, hsome⟩ | h)
    · obtain ⟨after, hafter⟩ := Option.isSome_iff_exists.mp hsome
      obtain ⟨statement, hstatement, himport, hends⟩ := afterImport?_eq_some hafter
      refine ⟨[], (c :: rest).takeWhile isIndent, statement, after, ?_, rfl,
        fun d hd => List.mem_takeWhile_imp hd, himport, hends⟩
      rw [← hstatement, List.takeWhile_append_dropWhile]
      rfl
    · have : c :: rest = [c] ++ rest := rfl
      rw [this]
      exact HasImport.append_left h

/-! ## Reading off the statements -/

/-- The statement that `afterImport?` recognizes at a position, if the line starts here and no statement goes on. -/
def foundAt (first : Bool) (inside : Nat) (text : Text) : Option Text :=
  if first && inside == 0 then afterImport? (text.dropWhile isIndent) else none

/-- What is recognized at a position is an import with nothing in front of it. -/
theorem foundAt_eq_some (h : foundAt first inside text = some after) :
    ∃ indent statement, text = indent ++ (statement ++ after) ∧
      ImportsBetween first [] indent statement after := by
  rw [foundAt] at h
  split at h
  · rename_i hcond
    obtain ⟨statement, hstatement, himport, hends⟩ := afterImport?_eq_some h
    refine ⟨text.takeWhile isIndent, statement, ?_, (Bool.and_eq_true_iff.mp hcond).1,
      fun d hd => List.mem_takeWhile_imp hd, himport, hends⟩
    rw [← hstatement, List.takeWhile_append_dropWhile]
  · cases h

theorem importEndsFrom_cons (offset : Nat) (first : Bool) (inside : Nat) (c : Char) (rest : Text) :
    importEndsFrom offset first inside (c :: rest) = match foundAt first inside (c :: rest) with
      | some after =>
        (offset + ((c :: rest).length - after.length)) ::
          importEndsFrom (offset + 1) (c == '\n') ((c :: rest).length - after.length - 1) rest
      | none => importEndsFrom (offset + 1) (c == '\n') (inside - 1) rest := rfl

theorem foundAt_zero_eq_none_iff : foundAt first 0 text = none ↔
    ¬ (first = true ∧ (afterImport? (text.dropWhile isIndent)).isSome = true) := by
  cases first <;> simp [foundAt]

theorem importEndsFrom_eq_nil_iff : importEndsFrom offset first 0 text = [] ↔ ¬ HasImport first text := by
  induction text generalizing offset first with
  | nil =>
    refine iff_of_true rfl ?_
    rintro ⟨front, indent, statement, after, htext, himport⟩
    have hnil : statement = [] := by
      have := congrArg List.length htext
      simp only [List.length_nil, List.length_append] at this
      exact List.eq_nil_of_length_eq_zero (by omega)
    rcases himport.isImport.head with hh | hh <;> simp [hnil] at hh
  | cons c rest ih =>
    rw [importEndsFrom_cons, hasImport_cons, not_or]
    -- nothing is found here just if no import starts here, and the rest is the induction
    cases hf : foundAt first 0 (c :: rest) with
    | none => exact (ih.trans (and_iff_right (foundAt_zero_eq_none_iff.mp hf)).symm)
    | some after =>
      refine iff_of_false (by simp) fun h => ?_
      rw [foundAt_zero_eq_none_iff.mpr h.1] at hf
      cases hf

/-- Inside a statement nothing is found. -/
theorem importEndsFrom_inside (offset : Nat) (first : Bool) (x text : Text) :
    importEndsFrom offset first x.length (x ++ text)
      = importEndsFrom (offset + x.length) (startsLine first x) 0 text := by
  induction x generalizing offset first with
  | nil => rfl
  | cons c x ih =>
    have hfound : foundAt first (c :: x).length (c :: (x ++ text)) = none := by
      simp [foundAt]
    rw [List.cons_append, importEndsFrom_cons, hfound]
    dsimp only
    rw [List.length_cons, Nat.add_sub_cancel, ih, startsLine_cons]
    congr 1
    omega

theorem foundAt_append (hx : x.getLast? = some '\n') (hs : Settled x w) :
    foundAt first inside (x ++ w) = (foundAt first inside x).map (· ++ w) := by
  have hne := dropWhile_ne_nil_of_newline (p := isIndent) (by decide) hx
  rw [foundAt, foundAt, dropWhile_append_of_ne_nil w hne,
    afterImport?_append (getLast?_dropWhile (by decide) hx) (hs.suffix (List.dropWhile_suffix _))]
  split <;> rfl

/-- The statements of a text are those of its first lines and those of the rest. -/
theorem importEndsFrom_append (hx : x.getLast? = some '\n') (hs : Settled x w)
    (hi : inside ≤ x.length) :
    importEndsFrom offset first inside (x ++ w)
      = importEndsFrom offset first inside x ++ importEndsFrom (offset + x.length) true 0 w := by
  induction x generalizing offset first inside with
  | nil => cases hx
  | cons c x ih =>
    -- the first part ends with a line break, so what is found in it is found with more behind it
    have hfound : foundAt first inside (c :: x ++ w) = (foundAt first inside (c :: x)).map (· ++ w) :=
      foundAt_append hx hs
    rw [List.cons_append] at hfound
    -- the scan goes on with the same rest whether a statement was found here or not
    have hrest : ∀ inside, inside ≤ x.length →
        importEndsFrom (offset + 1) (c == '\n') inside (x ++ w)
          = importEndsFrom (offset + 1) (c == '\n') inside x
            ++ importEndsFrom (offset + (c :: x).length) true 0 w := by
      intro inside hle
      cases x with
      | nil =>
        obtain rfl : c = '\n' := by simpa using hx
        obtain rfl : inside = 0 := Nat.le_zero.mp hle
        rfl
      | cons d x =>
        rw [List.getLast?_cons_cons] at hx
        rw [ih hx (hs.suffix (List.suffix_cons c _)) hle, List.length_cons, List.length_cons,
          List.length_cons]
        congr 2
        omega
    rw [List.cons_append, importEndsFrom_cons, importEndsFrom_cons, hfound]
    cases hf : foundAt first inside (c :: x) with
    | none =>
      rw [List.length_cons] at hi
      exact hrest _ (by omega)
    | some after =>
      -- the statement found ends in the first part, so `w` does not count
      have hlength : (c :: (x ++ w)).length - (after ++ w).length = (c :: x).length - after.length := by
        simp only [List.length_cons, List.length_append]
        omega
      simp only [Option.map_some, hlength, List.cons_append]
      rw [hrest _ (by rw [List.length_cons]; omega)]

/-- Behind the last statement that is found there is none. -/
theorem getLast?_importEndsFrom (h : (importEndsFrom offset first inside text).getLast? = some place) :
    ∃ front indent statement after, text = front ++ (indent ++ (statement ++ after)) ∧
      ImportsBetween first front indent statement after ∧ ¬ HasImport false after ∧
      place = offset + (front ++ (indent ++ statement)).length := by
  induction text generalizing offset first inside with
  | nil => simp [importEndsFrom] at h
  | cons c rest ih =>
    -- where the last one is found later on, `c` is put in front of it
    have hlater : ∀ {offset' inside'},
        (importEndsFrom offset' (c == '\n') inside' rest).getLast? = some place → offset' = offset + 1 →
        ∃ front indent statement after, c :: rest = front ++ (indent ++ (statement ++ after)) ∧
          ImportsBetween first front indent statement after ∧ ¬ HasImport false after ∧
          place = offset + (front ++ (indent ++ statement)).length := by
      rintro _ inside' hlast rfl
      obtain ⟨front, indent, statement, after, rfl, himport, hnone, rfl⟩ := ih hlast
      refine ⟨c :: front, indent, statement, after, rfl, ⟨?_, himport.indented, himport.isImport,
        himport.ends⟩, hnone, ?_⟩
      · rw [startsLine_cons]
        exact himport.starts
      · rw [List.cons_append, List.length_cons]
        omega
    rw [importEndsFrom_cons] at h
    cases hf : foundAt first inside (c :: rest) with
    | none =>
      rw [hf] at h
      exact hlater h rfl
    | some after =>
      rw [hf] at h
      dsimp only at h
      -- the statement found here is the last one just if the scan behind it finds none
      cases htail : (importEndsFrom (offset + 1) (c == '\n')
          ((c :: rest).length - after.length - 1) rest).getLast? with
      | some last =>
        rw [List.getLast?_cons, htail] at h
        obtain rfl := Option.some.inj h
        exact hlater htail rfl
      | none =>
        rw [List.getLast?_cons, htail] at h
        obtain rfl := Option.some.inj h
        obtain ⟨indent, statement, hsplit, himport⟩ := foundAt_eq_some hf
        rw [← List.append_assoc] at hsplit
        have hlength : (c :: rest).length - after.length = (indent ++ statement).length := by
          rw [hsplit, List.length_append]
          omega
        refine ⟨[], indent, statement, after, by rw [hsplit]; simp, himport, ?_, by rw [hlength]; rfl⟩
        -- the scan goes on behind the statement and finds nothing
        have hnil := List.getLast?_eq_none_iff.mp htail
        obtain ⟨d, x, hx⟩ := List.exists_cons_of_ne_nil (l := indent ++ statement) (by
          intro hempty
          rcases himport.isImport.head with hh | hh <;>
            simp [(List.append_eq_nil_iff.mp hempty).2] at hh)
        rw [hx, List.cons_append] at hsplit
        obtain ⟨rfl, rfl⟩ := List.cons.inj hsplit
        rw [hlength, hx, List.length_cons, Nat.add_sub_cancel, importEndsFrom_inside,
          importEndsFrom_eq_nil_iff, ← startsLine_cons true, ← hx, himport.isImport.startsLine] at hnil
        exact hnil

end ComponentKit.Source
