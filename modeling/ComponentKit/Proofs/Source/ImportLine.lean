import ComponentKit.Proofs.Source.Import

/-!
# Import statements line by line

A statement that is recognized in lines that are complete (`Settled`) is recognized whatever follows them, and none
is that reaches over their end. So the statements of a text are those of its first lines and those of the rest.
-/

namespace ComponentKit.Source

open Text

variable {text rest x w after : Text} {before : Char}

/-! ## Complete lines -/

/-- Whether a character is the last one of a word in front of a module. -/
def endsWord (c : Char) : Bool :=
  c == 'm' || c == 't'

/-- Whether no statement can reach from some lines into what follows: either no module name can follow, or
the lines do not end with a word that a module goes with. -/
def Settled (x w : Text) : Prop :=
  ∀ front blanks, x = front ++ blanks → (∀ c ∈ blanks, isBlank c = true) →
    front.getLast?.any endsWord = true → (w.dropWhile isBlank).head?.any isQuote = false

theorem Settled.suffix {y : Text} (h : Settled x w) (hy : y <:+ x) : Settled y w := by
  obtain ⟨z, rfl⟩ := hy
  intro front blanks heq hb hlast
  refine h (z ++ front) blanks (by rw [heq, List.append_assoc]) hb ?_
  cases front with
  | nil => simp at hlast
  | cons c front => rwa [← getLast?_of_suffix (List.suffix_append z (c :: front)) (by simp)]

theorem settled_of_head (x : Text) (h : (w.dropWhile isBlank).head?.any isQuote = false) : Settled x w :=
  fun _ _ _ _ _ => h

theorem getLast?_suffix {y : Text} {c : Char} (hx : x.getLast? = some c) (hy : y <:+ x) (hne : y ≠ []) :
    y.getLast? = some c :=
  (getLast?_of_suffix hy hne).trans hx

theorem dropWhile_ne_nil_of_newline {p : Char → Bool} (hp : p '\n' = false)
    (hx : x.getLast? = some '\n') : x.dropWhile p ≠ [] := by
  intro h
  have := List.dropWhile_eq_nil_iff.mp h '\n' (List.mem_of_getLast? hx)
  rw [hp] at this
  cases this

theorem getLast?_dropWhile {p : Char → Bool} (hp : p '\n' = false) (hx : x.getLast? = some '\n') :
    (x.dropWhile p).getLast? = some '\n' :=
  getLast?_suffix hx (List.dropWhile_suffix p) (dropWhile_ne_nil_of_newline hp hx)

/-- Behind a character that is no line break the lines go on. -/
theorem getLast?_tail {c : Char} (hx : (c :: x).getLast? = some '\n') (hc : c ≠ '\n') :
    x.getLast? = some '\n' := by
  cases x with
  | nil => exact absurd (by simpa using hx) hc
  | cons d x => rwa [List.getLast?_cons_cons] at hx

theorem endsLine_append (hx : x.getLast? = some '\n') (w : Text) : endsLine (x ++ w) = endsLine x := by
  cases x with
  | nil => cases hx
  | cons c x =>
    by_cases hn : c = '\n'
    · subst hn
      rfl
    -- two characters decide, and the line break is not the first one
    · obtain ⟨d, x, rfl⟩ := List.exists_cons_of_ne_nil
        (List.ne_nil_of_mem (List.mem_of_getLast? (getLast?_tail hx hn)))
      by_cases hr : c = '\r'
      · subst hr
        by_cases hd : d = '\n'
        · subst hd
          rfl
        · simp [endsLine, hd]
      · simp [endsLine, hn, hr]

theorem dropLead?_append_of_newline {lead : Text} (hl : '\n' ∉ lead) (hx : x.getLast? = some '\n')
    (w : Text) : dropLead? lead (x ++ w) = (dropLead? lead x).map (· ++ w) := by
  induction lead generalizing x with
  | nil => simp [dropLead?]
  | cons a lead ih =>
    rw [List.mem_cons, not_or] at hl
    cases x with
    | nil => cases hx
    | cons c x =>
      -- a word without a line break is used up before the lines end
      by_cases hac : a = c
      · subst hac
        simpa [dropLead?] using ih hl.2 (getLast?_tail hx (Ne.symm hl.1))
      · simp [dropLead?, hac]

theorem getLast?_of_dropLead? {lead : Text} (hl : '\n' ∉ lead) (hx : x.getLast? = some '\n')
    (h : dropLead? lead x = some rest) : rest.getLast? = some '\n' := by
  obtain rfl := dropLead?_eq_some_iff.mp h
  cases rest with
  | nil =>
    rw [List.append_nil] at hx
    exact absurd (List.mem_of_getLast? hx) hl
  | cons c rest => rwa [← getLast?_of_suffix (List.suffix_append lead (c :: rest)) (by simp)] at hx

/-! ## Reading complete lines -/

theorem afterModule?_append (hx : x.getLast? = some '\n') (w : Text) :
    afterModule? (x ++ w) = (afterModule? x).map (· ++ w) ∧
      ∀ after, afterModule? x = some after → after.getLast? = some '\n' := by
  cases x with
  | nil => cases hx
  | cons opening x =>
    rw [List.cons_append, afterModule?, afterModule?]
    by_cases hq : isQuote opening = true
    · have hopening : opening ≠ '\n' := by
        rintro rfl
        exact absurd hq (by decide)
      have hlast := getLast?_tail hx hopening
      -- a module has no line break in its name, so the name ends within the first part
      have hne : x.dropWhile (fun c => !isQuote c && c != '\n') ≠ [] :=
        dropWhile_ne_nil_of_newline (by decide) hlast
      rw [if_pos hq, if_pos hq]
      simp only [takeWhile_append_of_ne_nil w hne, drop_length_takeWhile_append, drop_length_takeWhile]
      have hend : (x.dropWhile (fun c => !isQuote c && c != '\n')).getLast? = some '\n' :=
        getLast?_dropWhile (by decide) hlast
      obtain ⟨close, tail, htail⟩ := List.exists_cons_of_ne_nil hne
      rw [htail] at hend ⊢
      cases x.takeWhile (fun c => !isQuote c && c != '\n') with
      | nil => simp
      | cons d name =>
        by_cases hclose : isQuote close = true
        · have hne' : close ≠ '\n' := by
            rintro rfl
            exact absurd hclose (by decide)
          simpa [hclose] using getLast?_tail hend hne'
        · simp [hclose]
    · simp [hq]

theorem afterTerminator?_append (hx : x.getLast? = some '\n') (w : Text) :
    afterTerminator? (x ++ w) = (afterTerminator? x).map (· ++ w) := by
  have hdrop : ∀ {y : Text}, y.getLast? = some '\n' →
      (y ++ w).dropWhile isIndent = y.dropWhile isIndent ++ w :=
    fun hy => dropWhile_append_of_ne_nil w (dropWhile_ne_nil_of_newline (by decide) hy)
  have hline : ∀ {y : Text}, y.getLast? = some '\n' →
      endsLine ((y ++ w).dropWhile isIndent) = endsLine (y.dropWhile isIndent) :=
    fun hy => by rw [hdrop hy, endsLine_append (getLast?_dropWhile (by decide) hy)]
  have hrest : (x.dropWhile isIndent).getLast? = some '\n' := getLast?_dropWhile (by decide) hx
  -- with or without the semicolon, the line break is still ahead
  have hsemi : afterSemicolon (x.dropWhile isIndent ++ w) = afterSemicolon (x.dropWhile isIndent) ++ w ∧
      (afterSemicolon (x.dropWhile isIndent)).getLast? = some '\n' := by
    obtain ⟨c, more, hd⟩ := List.exists_cons_of_ne_nil (List.ne_nil_of_mem (List.mem_of_getLast? hrest))
    rw [hd] at hrest ⊢
    by_cases hc : c = ';'
    · subst hc
      exact ⟨rfl, getLast?_tail hrest (by decide)⟩
    · have hne : (c :: more).head? ≠ some ';' := by simpa using hc
      rw [afterSemicolon_of_ne hne, afterSemicolon_of_ne (by simpa using hc)]
      exact ⟨rfl, hrest⟩
  simp only [afterTerminator?_eq, hdrop hx, hsemi.1, hline hsemi.2]
  split <;> rfl

theorem afterEnding?_append (hx : x.getLast? = some '\n') (w : Text) :
    afterEnding? (x ++ w) = (afterEnding? x).map (· ++ w) := by
  obtain ⟨heq, hlast⟩ := afterModule?_append hx w
  rw [afterEnding?, afterEnding?, heq]
  cases hm : afterModule? x with
  | none => rfl
  | some rest => exact afterTerminator?_append (hlast rest hm) w

/-- The module of a statement that starts in complete lines is in these lines. -/
theorem afterEnding?_dropWhile_append {lead : Text} (hlead : lead.getLast?.any endsWord = true)
    (hx : x = lead ++ rest) (hrest : rest.getLast? = some '\n') (hs : Settled x w) :
    afterEnding? ((rest ++ w).dropWhile isBlank)
      = (afterEnding? (rest.dropWhile isBlank)).map (· ++ w) := by
  by_cases hblank : rest.dropWhile isBlank = []
  · -- the lines end with the word, so that no module follows
    have hall : ∀ c ∈ rest, isBlank c = true := List.dropWhile_eq_nil_iff.mp hblank
    have hquote := hs lead rest hx hall hlead
    rw [List.dropWhile_append_of_pos hall, hblank]
    cases hw : w.dropWhile isBlank with
    | nil => rfl
    | cons c more =>
      rw [hw] at hquote
      have hc : isQuote c = false := by simpa using hquote
      simp [afterEnding?, afterModule?, hc]
  · rw [dropWhile_append_of_ne_nil w hblank]
    exact afterEnding?_append (getLast?_suffix hrest (List.dropWhile_suffix _) hblank) w

theorem afterFrom?_append (hx : x.getLast? = some '\n') (hs : Settled x w) (before : Char) :
    afterFrom? before (x ++ w) = (afterFrom? before x).map (· ++ w) := by
  rw [afterFrom?_eq, afterFrom?_eq, dropLead?_append_of_newline (by decide) hx]
  split
  · rfl
  · cases hd : dropLead? "from".toList x with
    | none => rfl
    | some rest =>
      exact afterEnding?_dropWhile_append (by decide) (dropLead?_eq_some_iff.mp hd)
        (getLast?_of_dropLead? (by decide) hx hd) hs

theorem afterFromOnLine?_append (hx : x.getLast? = some '\n') (hs : Settled x w) (before : Char) :
    afterFromOnLine? before (x ++ w) = (afterFromOnLine? before x).map (· ++ w) := by
  induction x generalizing before with
  | nil => cases hx
  | cons c x ih =>
    have hfrom := afterFrom?_append hx hs before
    rw [List.cons_append] at hfrom
    rw [List.cons_append, afterFromOnLine?, afterFromOnLine?, hfrom]
    -- either the word goes with a module here, or the search goes on along the line
    cases afterFrom? before (c :: x) with
    | some after => rfl
    | none =>
      by_cases hc : c = '\n'
      · simp [hc]
      · simpa [hc] using ih (getLast?_tail hx hc) (hs.suffix (List.suffix_cons c x)) c

theorem afterNamed?_append (hx : x.getLast? = some '\n') (hs : Settled x w) :
    afterNamed? (x ++ w) = (afterNamed? x).map (· ++ w) := by
  have hword : dropWord? "import" (x ++ w) = (dropWord? "import" x).map (· ++ w) := by
    rw [dropWord?, dropWord?, dropLead?_append_of_newline (by decide) hx]
    cases hd : dropLead? "import".toList x with
    | none => rfl
    | some rest =>
      -- the character behind the word is one of the lines, as they go on to their break
      obtain ⟨c, rest, rfl⟩ := List.exists_cons_of_ne_nil
        (List.ne_nil_of_mem (List.mem_of_getLast? (getLast?_of_dropLead? (by decide) hx hd)))
      cases hw : isWordNext (some c) <;> simp [Option.filter, hw]
  rw [afterNamed?, afterNamed?, hword]
  cases hd : dropWord? "import".toList x with
  | none => rfl
  | some rest =>
    obtain ⟨rfl, -⟩ := dropWord?_eq_some_iff.mp hd
    have hrest := getLast?_of_dropLead? (by decide) hx (dropLead?_eq_some_iff.mpr rfl)
    exact afterFromOnLine?_append hrest (hs.suffix (List.suffix_append _ _)) 't'

theorem afterBare?_append (hx : x.getLast? = some '\n') (hs : Settled x w) :
    afterBare? (x ++ w) = (afterBare? x).map (· ++ w) := by
  rw [afterBare?, afterBare?, dropLead?_append_of_newline (by decide) hx]
  cases hd : dropLead? "import".toList x with
  | none => rfl
  | some rest =>
    have hrest := getLast?_of_dropLead? (by decide) hx hd
    -- whether a blank follows the word is decided by the first character of the rest
    have hempty : ((rest ++ w).takeWhile isBlank).isEmpty = (rest.takeWhile isBlank).isEmpty := by
      obtain ⟨c, more, rfl⟩ := List.exists_cons_of_ne_nil
        (List.ne_nil_of_mem (List.mem_of_getLast? hrest))
      cases hc : isBlank c <;> simp [hc]
    simp only [Option.map_some, Option.bind_some, hempty]
    split
    · rfl
    · exact afterEnding?_dropWhile_append (by decide) (dropLead?_eq_some_iff.mp hd) hrest hs

theorem afterClosing?_append (hx : x.getLast? = some '\n') (hs : Settled x w) :
    afterClosing? (x ++ w) = (afterClosing? x).map (· ++ w) := by
  cases x with
  | nil => cases hx
  | cons c x =>
    by_cases hc : c = '\x7d'
    · subst hc
      exact afterFromOnLine?_append (getLast?_tail hx (by decide)) (hs.suffix (List.suffix_cons _ x)) _
    · simp [afterClosing?_eq, hc]

/-- Whether a statement starts at complete lines, and where it ends, is settled by these lines. -/
theorem afterImport?_append (hx : x.getLast? = some '\n') (hs : Settled x w) :
    afterImport? (x ++ w) = (afterImport? x).map (· ++ w) := by
  rw [afterImport?_eq, afterImport?_eq, afterNamed?_append hx hs, afterBare?_append hx hs,
    afterClosing?_append hx hs]
  cases afterNamed? x <;> cases afterBare? x <;> cases afterClosing? x <;> rfl

end ComponentKit.Source
