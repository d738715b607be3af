import ComponentKit.Proofs.Source.ImportPlace

/-!
# Insertions behind the last import

Lines that are put in behind the last import, and that import nothing (`IsQuiet`), leave it the last one. There is
one exception: their line break may end the line of a statement in front of them that shared its line with other
characters before. Then this statement becomes the last import.
-/

namespace ComponentKit.Source

open Text

variable {p q w g x r inserted front indent statement after : Text}

/-! ## Texts that import nothing -/

/-- Whether an inserted text imports nothing: it starts with a line break, its lines start with a `t`, and
it ends inside a line. -/
structure IsQuiet (inserted : Text) : Prop where
  /-- It starts with a line break. -/
  starts : startsWithBreak inserted
  /-- Behind each line break comes a word that no import starts with. -/
  lines : ∀ x y, inserted = x ++ '\n' :: y → (y.dropWhile isBlank).head? = some 't'
  /-- It ends inside a line. -/
  ends : inserted.getLast? = some ';'

theorem head?_dropWhile_append {c : Char} {x : Text} (h : (x.dropWhile isBlank).head? = some c) (y : Text) :
    ((x ++ y).dropWhile isBlank).head? = some c := by
  have hne : x.dropWhile isBlank ≠ [] := by
    intro hnil
    rw [hnil] at h
    cases h
  rw [dropWhile_append_of_ne_nil y hne, List.head?_append, h]
  rfl

/-- Where a line starts behind a line break, one starts whatever is in front. -/
theorem HasImport.of_false (h : HasImport false g) (first : Bool) : HasImport first g := by
  obtain ⟨front, indent, statement, after, rfl, himport⟩ := h
  refine ⟨front, indent, statement, after, rfl, ?_, himport.indented, himport.isImport, himport.ends⟩
  cases front with
  | nil => exact absurd himport.starts (by simp)
  | cons c front =>
    have hstarts := himport.starts
    rwa [startsLine_cons] at hstarts ⊢

/-- A statement does not reach into a quiet text. -/
theorem IsQuiet.not_reached {k m : Text} (hi : IsQuiet inserted) (hindent : ∀ c ∈ indent, isIndent c = true)
    (himport : IsImport statement) (hsplit : indent ++ statement = k ++ m) (hm : m ≠ [])
    (htext : inserted ++ g = m ++ after) : False := by
  -- a line break of the statement would be followed by the quote of its module
  have hbreak : ∀ x y y' rest, inserted = x ++ '\n' :: y → y ++ g = y' ++ rest →
      ∀ k', indent ++ statement = k' ++ '\n' :: y' → False := by
    intro x y y' rest hins hrest k' hk
    -- the break is not in the indentation, so it is in the statement
    have hstatement : ∃ s, statement = s ++ '\n' :: y' := by
      rcases List.append_eq_append_iff.mp hk with ⟨s, -, hs⟩ | ⟨s, hs, hy⟩
      · exact ⟨s, hs⟩
      · cases s with
        | nil => exact ⟨[], hy.symm⟩
        | cons c s =>
          obtain rfl := (List.cons.inj hy).1
          exact absurd (hindent '\n' (by simp [hs])) (by decide)
    obtain ⟨s, hs⟩ := hstatement
    have hquote := himport.quote_of_newline hs
    cases hh : (y'.dropWhile isBlank).head? with
    | none => simp [hh] at hquote
    | some c =>
      have hleft := head?_dropWhile_append (hi.lines x y hins) g
      have hright := head?_dropWhile_append hh rest
      rw [hrest, hright] at hleft
      obtain rfl := Option.some.inj hleft
      rw [hh] at hquote
      exact absurd hquote (by decide)
  -- what is reached starts with the line break of the insertion, which may be two characters
  obtain ⟨c, m, rfl⟩ := List.exists_cons_of_ne_nil hm
  obtain ⟨rest, hrest | hrest⟩ := hi.starts
  · rw [hrest] at htext
    obtain ⟨rfl, htail⟩ := List.cons.inj htext
    exact hbreak [] rest m after hrest htail k hsplit
  · rw [hrest] at htext
    obtain rfl : '\r' = c := (List.cons.inj htext).1
    have htail : '\n' :: (rest ++ g) = m ++ after := (List.cons.inj htext).2
    -- a statement that takes the carriage return alone would end with it
    cases m with
    | nil =>
      have hne : statement ≠ [] := by
        rintro rfl
        rcases himport.head with hh | hh <;> cases hh
      have hlast : statement.getLast? = some '\r' := by
        rw [getLast?_of_suffix (List.suffix_append indent statement) hne, hsplit, List.getLast?_concat]
      exact himport.getLast?_ne (by decide) hlast
    | cons d m =>
      obtain rfl : '\n' = d := (List.cons.inj htail).1
      exact hbreak ['\r'] rest m after hrest (List.cons.inj htail).2 (k ++ ['\r']) (by simp [hsplit])

/-- A statement that is there after a quiet insertion only ends in front of it, on the line that the
insertion ends. -/
theorem IsQuiet.ends_in_front (hi : IsQuiet inserted) (hnone : ¬ HasImport true (w ++ g))
    (himport : ImportsBetween true front indent statement after)
    (htext : w ++ (inserted ++ g) = front ++ (indent ++ (statement ++ after))) :
    ∃ z, w = front ++ (indent ++ statement) ++ z ∧ after = z ++ (inserted ++ g) ∧
      endsLine ((z ++ g).dropWhile isIndent) = false := by
  -- an import that ends in front was there before, unless its line did not end
  have hfront : ∀ z, w = front ++ (indent ++ statement) ++ z → after = z ++ (inserted ++ g) →
      ∃ z, w = front ++ (indent ++ statement) ++ z ∧ after = z ++ (inserted ++ g) ∧
        endsLine ((z ++ g).dropWhile isIndent) = false := by
    intro z hw hafter
    refine ⟨z, hw, hafter, Bool.eq_false_iff.mpr fun hends => hnone ?_⟩
    exact ⟨front, indent, statement, z ++ g, by rw [hw]; simp only [List.append_assoc],
      himport.starts, himport.indented, himport.isImport, hends⟩
  have hwhole : w ++ (inserted ++ g) = (front ++ (indent ++ statement)) ++ after := by
    rw [htext]
    simp only [List.append_assoc]
  -- the import ends in front of the insertion, or it reaches into it
  rcases List.append_eq_append_iff.mp hwhole with ⟨m, hu, hins⟩ | ⟨z, hw, hafter⟩
  · by_cases hm : m = []
    · subst hm
      rw [List.append_nil] at hu
      exact hfront [] (by rw [hu, List.append_nil]) hins.symm
    exfalso
    rcases List.append_eq_append_iff.mp hu with ⟨k, -, hk⟩ | ⟨k, hfk, hmk⟩
    · exact hi.not_reached himport.indented himport.isImport hk hm hins
    · by_cases hk : k = []
      · subst hk
        exact hi.not_reached himport.indented himport.isImport (k := []) hmk.symm hm hins
      have hstarts := himport.starts
      rw [hfk, startsLine_append] at hstarts
      rw [hmk, List.append_assoc] at hins
      rcases List.append_eq_append_iff.mp hins with ⟨j, hkj, hg⟩ | ⟨j, hij, hrest⟩
      · -- the statement starts behind the insertion
        rw [hkj, startsLine_append, startsLine_of_getLast? hi.ends] at hstarts
        refine hnone (HasImport.append_left (HasImport.of_false ?_ _))
        exact ⟨j, indent, statement, after, by rw [hg]; simp only [List.append_assoc], hstarts,
          himport.indented, himport.isImport, himport.ends⟩
      · -- the statement starts a line of the insertion
        cases hl : k.getLast? with
        | none => exact hk (List.getLast?_eq_none_iff.mp hl)
        | some c =>
          rw [startsLine_of_getLast? hl] at hstarts
          obtain rfl := eq_of_beq hstarts
          obtain ⟨k, rfl⟩ := List.getLast?_eq_some_iff.mp hl
          have ht := hi.lines k j (by rw [hij]; simp)
          have hhead := head?_dropWhile_append ht g
          have hblank : ∀ c ∈ indent, isBlank c = true :=
            fun c hc => isBlank_of_isIndent (himport.indented c hc)
          rw [← hrest, List.append_assoc, dropWhile_eq_of_forall hblank
            (himport.isImport.head?_any (by decide) (by decide) after)] at hhead
          have hone : (statement ++ after).head?.any (· == 't') = false :=
            himport.isImport.head?_any (by decide) (by decide) after
          rw [hhead] at hone
          cases hone
  · exact hfront z hw hafter

/-! ## The last import -/

/-- Behind the line of the last import, the statements of a text are its own and those of what follows. -/
theorem EndsImports.importEnds_eq (h : EndsImports p q) (hb : ∀ c ∈ x, isBlank c = true)
    (hx : x.getLast? = some '\n') (r : Text) :
    importEnds (p ++ (x ++ r))
      = importEndsFrom 0 true 0 (p ++ x) ++ importEndsFrom (p ++ x).length true 0 r := by
  have hlast : (p ++ x).getLast? = some '\n' := by
    rw [List.getLast?_append, hx]
    rfl
  rw [importEnds, ← List.append_assoc, importEndsFrom_append hlast (h.settled hb r) (Nat.zero_le _),
    Nat.zero_add]

/-- The line of the last import may be followed by anything that imports nothing. -/
theorem EndsImports.of_not_hasImport (h : EndsImports p (x ++ g)) (hb : ∀ c ∈ x, isBlank c = true)
    (hx : x.getLast? = some '\n') (hr : ¬ HasImport true r) : EndsImports p (x ++ r) := by
  obtain ⟨-, -, hnone⟩ := h.split
  have hg : ¬ HasImport true g := by
    intro hg
    refine hnone (HasImport.append_left ?_)
    rwa [startsLine_of_getLast? hx]
  -- the last import is read off the lines up to here, whichever quiet text follows
  have hends : ∀ t, ¬ HasImport true t →
      importEnds (p ++ (x ++ t)) = importEndsFrom 0 true 0 (p ++ x) := by
    intro t ht
    rw [h.importEnds_eq hb hx, importEndsFrom_eq_nil_iff.mpr ht, List.append_nil]
  rw [EndsImports, importPlace?_eq_afterStatement_iff] at h ⊢
  rw [hends r hr, ← hends g hg]
  exact h

/-- If more is imported behind the line of the last import, the last of these imports takes its place. -/
theorem EndsImports.of_hasImport (h : EndsImports p q) (hb : ∀ c ∈ x, isBlank c = true)
    (hx : x.getLast? = some '\n') (hr : HasImport true r) :
    ∃ front indent statement after, r = front ++ (indent ++ (statement ++ after)) ∧
      ImportsBetween true front indent statement after ∧
      EndsImports (p ++ (x ++ (front ++ (indent ++ statement)))) after := by
  have hends := h.importEnds_eq hb hx r
  cases hlast : (importEndsFrom (p ++ x).length true 0 r).getLast? with
  | none => exact absurd hr (importEndsFrom_eq_nil_iff.mp (List.getLast?_eq_none_iff.mp hlast))
  | some place =>
    obtain ⟨front, indent, statement, after, rfl, himport, -, rfl⟩ := getLast?_importEndsFrom hlast
    refine ⟨front, indent, statement, after, rfl, himport, ?_⟩
    rw [EndsImports, importPlace?_eq_afterStatement_iff]
    -- offsets count from the start of the text, so the pieces in front add up to the place
    have htext : p ++ (x ++ (front ++ (indent ++ statement))) ++ after
        = p ++ (x ++ (front ++ (indent ++ (statement ++ after)))) := by
      simp only [List.append_assoc]
    rw [htext, hends, List.getLast?_append, hlast, Option.some_or, ← List.length_append,
      List.append_assoc]

theorem endsLine_cases (h : endsLine g = true) : g = [] ∨ g = ['\r'] ∨ startsWithBreak g := by
  rw [endsLine.eq_def] at h
  split at h
  · exact .inl rfl
  · exact .inr (.inr ⟨_, .inl rfl⟩)
  · exact .inr (.inl rfl)
  · exact .inr (.inr ⟨_, .inr rfl⟩)
  · cases h

/-- What follows the last import and is not blank starts on a later line. -/
theorem EndsImports.line_split (h : EndsImports p (w ++ g)) (hw : ∃ c ∈ w, isBlank c = false) :
    ∃ gap newline v, w = gap ++ (newline ++ v) ∧ (∀ c ∈ gap, isIndent c = true) ∧ IsBreak newline := by
  obtain ⟨-, hends, -⟩ := h.split
  obtain ⟨c, hc, hblank⟩ := hw
  have hsplit := List.takeWhile_append_dropWhile (p := isIndent) (l := w)
  have hgap : ∀ d ∈ w.takeWhile isIndent, isIndent d = true := fun d hd => List.mem_takeWhile_imp hd
  have hcw : c ∈ w.dropWhile isIndent := by
    rw [← hsplit, List.mem_append] at hc
    refine hc.resolve_left fun hc => ?_
    rw [isBlank_of_isIndent (hgap c hc)] at hblank
    cases hblank
  rw [dropWhile_append_of_ne_nil g (List.ne_nil_of_mem hcw)] at hends
  -- from here on only what the two parts consist of matters
  generalize w.takeWhile isIndent = gap at hsplit hgap
  generalize w.dropWhile isIndent = y at hsplit hcw hends
  subst hsplit
  have hreturn : c ≠ '\r' := by
    rintro rfl
    exact absurd hblank (by decide)
  obtain ⟨d, y, rfl⟩ := List.exists_cons_of_ne_nil (List.ne_nil_of_mem hcw)
  -- a line ends with its text, a lone carriage return or a break; `c` leaves only the break
  rcases endsLine_cases hends with hnil | hone | ⟨rest, hrest | hrest⟩
  · cases hnil
  · obtain ⟨rfl, hy⟩ := List.cons.inj hone
    obtain ⟨rfl, rfl⟩ := List.append_eq_nil_iff.mp hy
    exact absurd (by simpa using hcw) hreturn
  · obtain ⟨rfl, -⟩ := List.cons.inj hrest
    exact ⟨gap, ['\n'], y, rfl, hgap, .inl rfl⟩
  · obtain ⟨rfl, hy⟩ := List.cons.inj hrest
    have hcy := (List.mem_cons.mp hcw).resolve_left hreturn
    obtain ⟨e, y, rfl⟩ := List.exists_cons_of_ne_nil (List.ne_nil_of_mem hcy)
    obtain ⟨rfl, -⟩ := List.cons.inj hy
    exact ⟨gap, ['\r', '\n'], y, rfl, hgap, .inr rfl⟩

/-- Lines put in behind the last import leave it the last one, or they end the line of a statement that
is the last import then. -/
theorem EndsImports.insert_quiet (h : EndsImports p (w ++ g)) (hw : ∃ c ∈ w, isBlank c = false)
    (hi : IsQuiet inserted) :
    EndsImports p (w ++ (inserted ++ g)) ∨ ∃ front statement z, w = front ++ statement ++ z ∧
      IsImport statement ∧ endsLine ((z ++ (inserted ++ g)).dropWhile isIndent) = true ∧
      endsLine ((z ++ g).dropWhile isIndent) = false ∧
      EndsImports (p ++ (front ++ statement)) (z ++ (inserted ++ g)) := by
  obtain ⟨gap, newline, v, rfl, hgap, hnewline⟩ := h.line_split hw
  have hb : ∀ c ∈ gap ++ newline, isBlank c = true := by
    intro c hc
    rcases List.mem_append.mp hc with hc | hc
    · exact isBlank_of_isIndent (hgap c hc)
    · exact hnewline.isBlank hc
  have hx : (gap ++ newline).getLast? = some '\n' := by
    rw [List.getLast?_append, hnewline.getLast?]
    rfl
  replace h : EndsImports p ((gap ++ newline) ++ (v ++ g)) := by simpa only [List.append_assoc] using h
  -- whether the insertion completes an import that starts in front of it
  by_cases hr : HasImport true (v ++ (inserted ++ g))
  · right
    obtain ⟨front, indent, statement, after, htext, himport, hends⟩ := h.of_hasImport hb hx hr
    have hnone : ¬ HasImport true (v ++ g) := by
      intro hg
      refine h.split.2.2 (HasImport.append_left ?_)
      rwa [startsLine_of_getLast? hx]
    obtain ⟨z, rfl, rfl, hline⟩ := hi.ends_in_front hnone himport htext
    refine ⟨gap ++ newline ++ front ++ indent, statement, z, by simp only [List.append_assoc],
      himport.isImport, himport.ends, hline, ?_⟩
    simpa only [List.append_assoc] using hends
  · left
    have := h.of_not_hasImport hb hx hr
    simpa only [List.append_assoc] using this

/-! ## Cuts that complete no statement -/

/-- What follows on a line decides whether it ends, unless only indentation or a carriage return stand in
front of it. -/
theorem endsLine_dropWhile_append {z : Text} (hz : z.dropWhile isIndent ≠ [])
    (hr : z.dropWhile isIndent ≠ ['\r']) (a b : Text) :
    endsLine ((z ++ a).dropWhile isIndent) = endsLine ((z ++ b).dropWhile isIndent) := by
  rw [dropWhile_append_of_ne_nil a hz, dropWhile_append_of_ne_nil b hz]
  obtain ⟨c, y, hy⟩ := List.exists_cons_of_ne_nil hz
  rw [hy] at hr ⊢
  -- only a carriage return makes a second character count, and there is one
  by_cases hn : c = '\n'
  · subst hn
    rfl
  · by_cases hc : c = '\r'
    · subst hc
      cases y with
      | nil => exact absurd rfl hr
      | cons d y =>
        by_cases hd : d = '\n'
        · subst hd
          rfl
        · simp [endsLine, hd]
    · simp [endsLine, hn, hc]

/-- Lines put in behind a character that is not blank leave the last import the last one, or complete a
statement that ends there. -/
theorem EndsImports.insert_behind {c : Char} (h : EndsImports p (w ++ g)) (hi : IsQuiet inserted)
    (hlast : w.getLast? = some c) (hc : isBlank c = false) :
    EndsImports p (w ++ (inserted ++ g)) ∨ ∃ front statement, w = front ++ statement ∧
      IsImport statement ∧ EndsImports (p ++ w) (inserted ++ g) := by
  rcases h.insert_quiet ⟨c, List.mem_of_getLast? hlast, hc⟩ hi with h | ⟨front, statement, z, rfl, himport,
    htrue, hfalse, hends⟩
  · exact .inl h
  · right
    -- behind the statement nothing is left, or its line would end as it did before
    have hz : z = [] := by
      by_contra hne
      have hzlast : z.getLast? = some c := by
        rw [← hlast]
        exact getLast?_of_suffix (List.suffix_append _ z) hne
      have hmem : c ∈ z.dropWhile isIndent := by
        have hin := List.mem_of_getLast? hzlast
        rw [← List.takeWhile_append_dropWhile (p := isIndent) (l := z), List.mem_append] at hin
        refine hin.resolve_left fun hin => ?_
        rw [isBlank_of_isIndent (List.mem_takeWhile_imp hin)] at hc
        cases hc
      have hsame := endsLine_dropWhile_append (z := z) (List.ne_nil_of_mem hmem) (fun hr => by
        rw [hr, List.mem_singleton] at hmem
        subst hmem
        exact absurd hc (by decide)) (inserted ++ g) g
      rw [htrue, hfalse] at hsame
      cases hsame
    subst hz
    rw [List.append_nil]
    exact ⟨front, statement, rfl, himport, hends⟩

/-- The character in front of the blanks and the semicolon that a text may end with. -/
def lastMark (text : Text) : Option Char :=
  ((afterSemicolon (text.reverse.dropWhile isIndent)).dropWhile isIndent).head?

theorem lastMark_eq {c : Char} {gap semicolon : Text} (hc : isIndent c = false) (hs : c ≠ ';')
    (hgap : ∀ c ∈ gap, isIndent c = true) (hsemi : semicolon = [] ∨ semicolon = [';']) :
    lastMark (x ++ c :: (gap ++ semicolon)) = some c := by
  have hreverse : ∀ d ∈ gap.reverse, isIndent d = true := fun d hd => hgap d (List.mem_reverse.mp hd)
  have hdrop : (gap.reverse ++ c :: x.reverse).dropWhile isIndent = c :: x.reverse :=
    dropWhile_eq_of_forall hreverse (by simpa using hc)
  have hfront : (c :: x.reverse).dropWhile isIndent = c :: x.reverse :=
    List.dropWhile_cons_of_neg (by simpa using hc)
  rcases hsemi with rfl | rfl
  · have heq : (x ++ c :: (gap ++ [])).reverse = gap.reverse ++ c :: x.reverse := by simp
    rw [lastMark, heq, hdrop, afterSemicolon_of_ne (by simpa using hs), hfront]
    rfl
  · have heq : (x ++ c :: (gap ++ [';'])).reverse = ';' :: (gap.reverse ++ c :: x.reverse) := by simp
    rw [lastMark, heq, List.dropWhile_cons_of_neg (by decide), afterSemicolon, hdrop]
    rfl

/-- No statement ends with a call. -/
theorem IsImport.not_endsLikeCall (h : IsImport statement) (front : Text) :
    ¬ endsLikeCall (front ++ statement) := by
  obtain ⟨before, quote, gap, semicolon, rfl, hquote, hgap, hsemi⟩ := h.last
  rintro ⟨x, ending, hx, hending⟩
  have hindent : isIndent quote = false := by
    cases hi : isIndent quote with
    | false => rfl
    | true =>
      have := isBlank_of_isQuote hquote
      rw [isBlank_of_isIndent hi] at this
      cases this
  have hne : ∀ {c}, isQuote c = false → quote ≠ c := by
    rintro c hc rfl
    rw [hquote] at hc
    cases hc
  -- an import ends with the quote of its module, a call with its parenthesis
  have hstatement : lastMark (front ++ (before ++ quote :: (gap ++ semicolon))) = some quote := by
    rw [← List.append_assoc]
    exact lastMark_eq hindent (hne (by decide)) hgap hsemi
  have hcall : lastMark (x ++ ')' :: ending) = some ')' := by
    rcases hending with rfl | ⟨gap', rfl, hgap'⟩
    · have hnone : ∀ c ∈ ([] : Text), isIndent c = true := by simp
      exact lastMark_eq (by decide) (by decide) hnone (.inl rfl)
    · exact lastMark_eq (by decide) (by decide) hgap' (.inr rfl)
  rw [hx, hcall] at hstatement
  exact hne (by decide) (Option.some.inj hstatement).symm

/-- Lines put in behind a call leave the last import the last one. -/
theorem EndsImports.insert_behind_call (h : EndsImports p (w ++ g)) (hi : IsQuiet inserted)
    (hw : endsLikeCall w) : EndsImports p (w ++ (inserted ++ g)) := by
  obtain ⟨c, hc, hblank⟩ := hw.isBlank_getLast?
  rcases h.insert_behind hi hc hblank with h | ⟨front, statement, rfl, himport, -⟩
  · exact h
  · exact absurd hw (himport.not_endsLikeCall front)

/-- Lines put in at the end of a line, with a line break like that of the line, leave the last import the
last one. -/
theorem EndsImports.insert_at_break (h : EndsImports p (w ++ g)) (hi : IsQuiet inserted)
    (hw : ∃ c ∈ w, isBlank c = false) (hg : startsWithBreak g)
    (hsame : g.head? = some '\r' → inserted.head? = some '\r') : EndsImports p (w ++ (inserted ++ g)) := by
  rcases h.insert_quiet hw hi with h | ⟨front, statement, z, rfl, himport, htrue, hfalse, -⟩
  · exact h
  exfalso
  have hends : ∀ {t : Text}, startsWithBreak t → endsLine (t.dropWhile isIndent) = true := by
    rintro t ⟨rest, rfl | rfl⟩ <;> rfl
  -- what stood between the statement and `g` is blank, a carriage return, or decides the line by itself
  by_cases hz : z.dropWhile isIndent = []
  · rw [List.dropWhile_append_of_pos (List.dropWhile_eq_nil_iff.mp hz), hends hg] at hfalse
    cases hfalse
  by_cases hr : z.dropWhile isIndent = ['\r']
  · rw [dropWhile_append_of_ne_nil _ hz, hr] at htrue hfalse
    obtain ⟨rest, rfl | rfl⟩ := hg
    · cases hfalse
    · obtain ⟨more, hmore⟩ := List.head?_eq_some_iff.mp (hsame rfl)
      rw [hmore] at htrue
      cases htrue
  · rw [endsLine_dropWhile_append hz hr _ g, hfalse] at htrue
    cases htrue

end ComponentKit.Source
