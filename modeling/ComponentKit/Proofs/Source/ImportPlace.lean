import ComponentKit.Proofs.Source.Call
import ComponentKit.Proofs.Source.ImportEnds
import ComponentKit.Proofs.Text.Blank

/-!
# The place of the next import

A line put in behind the last import (`EndsImports`) is the last import of the new text. Lines put in further on
that are no imports leave it the last one, unless their line break completes another statement in front of them,
which is the last one then.
-/

namespace ComponentKit.Source

open Text

variable {text line p q w g inserted newline : Text}

/-! ## The last import -/

/-- Whether `importPlace?` is behind the statement that ends the first part of a text. -/
def EndsImports (p q : Text) : Prop :=
  importPlace? (p ++ q) = some (.afterStatement p.length)

theorem importPlace?_eq_afterStatement_iff {place : Nat} :
    importPlace? text = some (.afterStatement place) ↔ (importEnds text).getLast? = some place := by
  rw [importPlace?]
  cases (importEnds text).getLast? with
  | some last => simp
  | none => simp

theorem EndsImports.getLast? (h : EndsImports p q) :
    (importEndsFrom 0 true 0 (p ++ q)).getLast? = some p.length :=
  importPlace?_eq_afterStatement_iff.mp h

/-- Where the last import ends there is a statement in front and none behind. -/
theorem EndsImports.split (h : EndsImports p q) :
    (∃ front statement, p = front ++ statement ∧ IsImport statement) ∧
      endsLine (q.dropWhile isIndent) = true ∧ ¬ HasImport false q := by
  obtain ⟨front, indent, statement, after, htext, himport, hnone, hlength⟩ :=
    getLast?_importEndsFrom h.getLast?
  rw [Nat.zero_add] at hlength
  have hsplit : p ++ q = (front ++ (indent ++ statement)) ++ after := by
    rw [htext]
    simp only [List.append_assoc]
  obtain ⟨rfl, rfl⟩ := List.append_inj hsplit hlength
  exact ⟨⟨front ++ indent, statement, by rw [List.append_assoc], himport.isImport⟩, himport.ends, hnone⟩

/-- The last import ends with a quote, a semicolon or the space between them. -/
theorem EndsImports.last_mark (h : EndsImports p q) : ∃ c, p.getLast? = some c ∧
    (c = '\x27' ∨ c = '"' ∨ c = ' ' ∨ c = '\t' ∨ c = ';') := by
  obtain ⟨⟨front, statement, rfl, himport⟩, -, -⟩ := h.split
  obtain ⟨c, hc, hshape⟩ := himport.getLast?
  refine ⟨c, ?_, by simpa [isQuote, isIndent, or_assoc] using hshape⟩
  rw [List.getLast?_append, hc, Option.some_or]

/-- The last import does not end with a word. -/
theorem EndsImports.isWordNext_getLast? (h : EndsImports p q) : isWordNext p.getLast? = false := by
  obtain ⟨c, hc, hmarks⟩ := h.last_mark
  rw [hc, isWordNext, Option.any_some]
  rcases hmarks with rfl | rfl | rfl | rfl | rfl <;> rfl

theorem afterStatement_split {place : Nat} (h : importPlace? text = some (.afterStatement place)) :
    ∃ p q, text = p ++ q ∧ p.length = place ∧ EndsImports p q := by
  obtain ⟨front, indent, statement, after, htext, -, -, hlength⟩ :=
    getLast?_importEndsFrom (importPlace?_eq_afterStatement_iff.mp h)
  rw [Nat.zero_add] at hlength
  have hsplit : text = (front ++ (indent ++ statement)) ++ after := by
    rw [htext]
    simp only [List.append_assoc]
  refine ⟨_, _, hsplit, hlength.symm, ?_⟩
  rw [EndsImports, ← hsplit, ← hlength]
  exact h

/-- Behind the last import no statement goes on to the next line. -/
theorem EndsImports.settled (h : EndsImports p q) {blanks : Text} (hb : ∀ c ∈ blanks, isBlank c = true)
    (w : Text) : Settled (p ++ blanks) w := by
  obtain ⟨⟨front, statement, rfl, himport⟩, -, -⟩ := h.split
  obtain ⟨before, quote, gap, semicolon, rfl, hquote, hgap, hsemi⟩ := himport.last
  -- a word that a module goes with would end where the last import does
  intro lead tail hsplit htail hword
  exfalso
  obtain ⟨c, hlast⟩ : ∃ c, lead.getLast? = some c := by
    cases hl : lead.getLast? with
    | none => simp [hl] at hword
    | some c => exact ⟨c, rfl⟩
  have hc : c = 'm' ∨ c = 't' := by
    rw [hlast] at hword
    simpa [endsWord] using hword
  obtain ⟨lead, rfl⟩ := List.getLast?_eq_some_iff.mp hlast
  have hindent : ∀ d ∈ gap, isBlank d = true := fun d hd => isBlank_of_isIndent (hgap d hd)
  -- the last character that is not blank is the quote or the semicolon, and it is the end of the word
  have hreverse := congrArg (fun t : Text => (t.reverse.dropWhile isBlank).head?) hsplit
  have hright : ((lead ++ [c] ++ tail).reverse.dropWhile isBlank).head? = some c := by
    have hblank : isBlank c = false := by rcases hc with rfl | rfl <;> decide
    rw [List.append_assoc, List.reverse_append, List.reverse_append,
      List.append_assoc, dropWhile_eq_of_forall (fun d hd => htail d (List.mem_reverse.mp hd))]
    · rfl
    · simpa using hblank
  have hleft : ∃ d, ((front ++ (before ++ quote :: (gap ++ semicolon)) ++ blanks).reverse.dropWhile
      isBlank).head? = some d ∧ (isQuote d || d == ';') = true := by
    rcases hsemi with rfl | rfl
    · refine ⟨quote, ?_, by simp [hquote]⟩
      have heq : (front ++ (before ++ quote :: (gap ++ [])) ++ blanks).reverse
          = (blanks.reverse ++ gap.reverse) ++ (quote :: (front ++ before).reverse) := by simp
      rw [heq, dropWhile_eq_of_forall]
      · rfl
      · intro d hd
        rcases List.mem_append.mp hd with hd | hd
        · exact hb d (List.mem_reverse.mp hd)
        · exact hindent d (List.mem_reverse.mp hd)
      · simpa using isBlank_of_isQuote hquote
    · refine ⟨';', ?_, by simp⟩
      have heq : (front ++ (before ++ quote :: (gap ++ [';'])) ++ blanks).reverse
          = blanks.reverse ++ (';' :: (front ++ (before ++ quote :: gap)).reverse) := by simp
      rw [heq, dropWhile_eq_of_forall fun d hd => hb d (List.mem_reverse.mp hd)]
      · rfl
      · simp only [List.head?_cons]
        decide
  obtain ⟨d, hd, hshape⟩ := hleft
  obtain rfl := Option.some.inj ((hd.symm.trans hreverse).trans hright)
  rcases hc with rfl | rfl <;> exact absurd hshape (by decide)

/-! ## A new import line -/

/-- A line that `afterImport?` takes for an import statement, whatever follows on the next lines. -/
structure IsImportLine (line : Text) : Prop where
  /-- It is read as a statement. -/
  reads : ∀ q, endsLine (q.dropWhile isIndent) = true → afterImport? (line ++ q) = some q
  /-- It starts with its keyword. -/
  head : line.head? = some 'i'
  /-- It ends with a semicolon. -/
  last : line.getLast? = some ';'

/-- A word `from` in front of another one goes with no module. -/
theorem afterFrom?_eq_none {x : Text} (hx : ∀ c ∈ x, isQuote c = false) (hne : x ≠ []) (before : Char)
    (z : Text) : afterFrom? before (x ++ ("from".toList ++ z)) = none := by
  rw [afterFrom?_eq]
  split
  · rfl
  · refine Option.bind_eq_none_iff.mpr fun rest hrest => ?_
    have hsplit := dropLead?_eq_some_iff.mp hrest
    rw [← List.append_assoc] at hsplit
    -- the second word is not used up by the first one
    have hlong : ∃ y, x ++ "from".toList = "from".toList ++ y ∧ rest = y ++ z ∧ y ≠ [] := by
      rcases List.append_eq_append_iff.mp hsplit with ⟨y, hy, -⟩ | ⟨y, hy, hr⟩
      · have := congrArg List.length hy
        have hpos := List.length_pos_iff.mpr hne
        have hfour : "from".toList.length = 4 := rfl
        simp only [List.length_append] at this
        omega
      · refine ⟨y, hy, hr, ?_⟩
        rintro rfl
        have := congrArg List.length hy
        have hpos := List.length_pos_iff.mpr hne
        simp only [List.length_append, List.length_nil] at this
        omega
    obtain ⟨y, hy, rfl, hyne⟩ := hlong
    have hlast : 'm' ∈ y := by
      have h := getLast?_of_suffix (hy ▸ List.suffix_append "from".toList y) hyne
      have hm : (x ++ "from".toList).getLast? = some 'm' := by
        rw [List.getLast?_append]
        rfl
      exact List.mem_of_getLast? (h.trans hm)
    have hquote : ∀ c ∈ y, isQuote c = false := by
      intro c hc
      have hmem : c ∈ x ++ "from".toList := hy ▸ List.mem_append_right _ hc
      rcases List.mem_append.mp hmem with hmem | hmem
      · exact hx c hmem
      · simpa using List.any_eq_false.mp (by decide : "from".toList.any isQuote = false) c hmem
    have hdrop : y.dropWhile isBlank ≠ [] := by
      intro hnil
      exact absurd (List.dropWhile_eq_nil_iff.mp hnil 'm' hlast) (by decide)
    obtain ⟨c, more, hmore⟩ := List.exists_cons_of_ne_nil hdrop
    have hc : isQuote c = false :=
      hquote c ((List.dropWhile_suffix isBlank).subset (by rw [hmore]; exact List.mem_cons_self))
    rw [dropWhile_append_of_ne_nil z hdrop, hmore]
    simp [afterEnding?, afterModule?, hc]

theorem afterFromOnLine?_skip {lead : Text} (hq : ∀ c ∈ lead, isQuote c = false) (hn : '\n' ∉ lead)
    (before : Char) (z : Text) :
    afterFromOnLine? before (lead ++ ("from".toList ++ z))
      = afterFromOnLine? (lead.getLastD before) ("from".toList ++ z) := by
  induction lead generalizing before with
  | nil => rfl
  | cons c lead ih =>
    rw [List.mem_cons, not_or] at hn
    have hnone := afterFrom?_eq_none hq (by simp) before z
    rw [List.cons_append] at hnone
    rw [List.cons_append, afterFromOnLine?, hnone]
    simp only [if_neg (Ne.symm hn.1), List.getLastD_cons]
    exact ih (fun d hd => hq d (List.mem_cons_of_mem c hd)) hn.2 c

/-- What an import line looks like. -/
theorem isImportLine_of_eq (names name : Text)
    (hl : line = "import ".toList ++ (names ++ (" from \x27".toList ++ (name ++ "\x27;".toList))))
    (hnames : ∀ c ∈ names, (!isQuote c && c != '\n') = true)
    (hname : ∀ c ∈ name, (!isQuote c && c != '\n') = true) (hne : name ≠ []) : IsImportLine line where
  reads q hends := by
    let module := '\x27' :: (name ++ '\x27' :: ';' :: q)
    have hword : dropWord? "import" (line ++ q)
        = some ((' ' :: (names ++ [' '])) ++ ("from".toList ++ ' ' :: module)) :=
      dropWord?_eq_some_iff.mpr ⟨by rw [hl]; simp [module], by rfl⟩
    have hmodule : afterModule? module = some (';' :: q) :=
      afterModule?_eq_some_iff.mpr ⟨'\x27', name, '\x27', rfl, rfl, rfl, hne, hname⟩
    have hterminator : afterTerminator? (';' :: q) = some q := by
      simp only [afterTerminator?_eq, List.dropWhile_cons_of_neg (p := isIndent) (a := ';') (by decide),
        afterSemicolon, hends, if_true]
    -- read backwards: the module, the word in front of it, and the names that are skipped up to it
    have hfrom : afterFrom? ' ' ("from".toList ++ ' ' :: module) = some q := by
      have hlead : dropLead? "from" ("from".toList ++ ' ' :: module) = some (' ' :: module) :=
        dropLead?_eq_some_iff.mpr rfl
      rw [afterFrom?_eq, if_neg (by decide), hlead, Option.bind_some,
        List.dropWhile_cons_of_pos (by decide), List.dropWhile_cons_of_neg (by decide), afterEnding?,
        hmodule, Option.bind_some, hterminator]
    -- the names hold no quote and no line break, so the search passes over them
    have hlead : ∀ c ∈ ' ' :: (names ++ [' ']), isQuote c = false ∧ c ≠ '\n' := by
      intro c hc
      simp only [List.mem_cons, List.mem_append, List.not_mem_nil, or_false] at hc
      rcases hc with rfl | hc | rfl
      · decide
      · simpa using hnames c hc
      · decide
    have honline : afterFromOnLine? 't' ((' ' :: (names ++ [' '])) ++ ("from".toList ++ ' ' :: module))
        = some q := by
      have hlast : (' ' :: (names ++ [' '])).getLastD 't' = ' ' := by
        rw [← List.cons_append, List.getLastD_concat]
      have hcons : "from".toList ++ ' ' :: module = 'f' :: ("rom".toList ++ ' ' :: module) := rfl
      rw [afterFromOnLine?_skip (fun c hc => (hlead c hc).1) (fun hn => (hlead _ hn).2 rfl), hlast]
      rw [hcons] at hfrom ⊢
      rw [afterFromOnLine?, hfrom]
    rw [afterImport?_eq, afterNamed?, hword, Option.bind_some, honline]
    rfl
  head := by
    rw [hl]
    rfl
  last := by
    have hlast : line = ("import ".toList ++ (names ++ (" from \x27".toList ++ (name ++ "\x27".toList))))
        ++ [';'] := by
      rw [hl]
      simp
    rw [hlast, List.getLast?_concat]

theorem endsLine_of_isBreak (h : IsBreak newline) (rest : Text) :
    endsLine ((newline ++ rest).dropWhile isIndent) = true := by
  rcases h with rfl | rfl <;> rfl

/-- Behind the line break of an import line, its statement is the only one. -/
theorem importEndsFrom_line (hl : IsImportLine line) (hq : endsLine (q.dropWhile isIndent) = true)
    (hnone : ¬ HasImport false q) (offset : Nat) :
    importEndsFrom offset true 0 (line ++ q) = [offset + line.length] := by
  obtain ⟨x, rfl⟩ := List.head?_eq_some_iff.mp hl.head
  have hfound : foundAt true 0 ('i' :: (x ++ q)) = some q := hl.reads q hq
  have hlength : ('i' :: (x ++ q)).length - q.length = ('i' :: x).length := by
    simp only [List.length_cons, List.length_append]
    omega
  -- the scan goes through the rest of the statement without finding another
  rw [List.cons_append, importEndsFrom_cons, hfound]
  dsimp only
  rw [hlength, List.length_cons, Nat.add_sub_cancel, importEndsFrom_inside]
  have hstarts : startsLine ('i' == '\n') x = false := by
    rw [← startsLine_cons true, startsLine_of_getLast? hl.last]
    decide
  rw [hstarts, importEndsFrom_eq_nil_iff.mpr hnone]

theorem IsImportLine.settled (hl : IsImportLine line) (x rest : Text) : Settled x (line ++ rest) := by
  obtain ⟨y, rfl⟩ := List.head?_eq_some_iff.mp hl.head
  refine settled_of_head _ ?_
  rw [List.cons_append, List.dropWhile_cons_of_neg (by decide)]
  simp only [List.head?_cons]
  decide

theorem endsImports_of_line {x : Text} (hx : x = [] ∨ x.getLast? = some '\n') (hl : IsImportLine line)
    (hq : endsLine (q.dropWhile isIndent) = true) (hnone : ¬ HasImport false q) :
    EndsImports (x ++ line) q := by
  have hends : importEnds (x ++ line ++ q) = importEndsFrom 0 true 0 x ++ [(x ++ line).length] := by
    rw [importEnds, List.append_assoc]
    rcases hx with rfl | hx
    · rw [List.nil_append, importEndsFrom_line hl hq hnone]
      simp [importEndsFrom]
    · rw [importEndsFrom_append hx (hl.settled x q) (Nat.zero_le _), importEndsFrom_line hl hq hnone,
        List.length_append, Nat.zero_add]
  rw [EndsImports, importPlace?_eq_afterStatement_iff, hends, List.getLast?_concat]

/-- A line put in behind the last import is the last import. -/
theorem EndsImports.insert (h : EndsImports p q) (hl : IsImportLine line) (hn : IsBreak newline) :
    EndsImports (p ++ newline ++ line) q := by
  obtain ⟨-, hq, hnone⟩ := h.split
  refine endsImports_of_line (.inr ?_) hl hq hnone
  rw [List.getLast?_append, hn.getLast?]
  rfl

/-! ## A first import line -/

/-- A declaration starts a line. -/
theorem firstDeclarationFrom?_eq_some {offset place : Nat} {first : Bool}
    (h : firstDeclarationFrom? offset first text = some place) :
    ∃ p q, text = p ++ q ∧ startsLine first p = true ∧ place = offset + p.length ∧
      startsDeclaration q = true := by
  -- on the text, as the search moves on by one character
  induction text generalizing offset first with
  | nil => simp [firstDeclarationFrom?] at h
  | cons c rest ih =>
    rw [firstDeclarationFrom?] at h
    split at h
    · rename_i hstart
      obtain rfl := Option.some.inj h
      obtain ⟨hfirst, hdecl⟩ := Bool.and_eq_true_iff.mp hstart
      exact ⟨[], c :: rest, rfl, hfirst, rfl, hdecl⟩
    · obtain ⟨p, q, rfl, hstarts, rfl, hdecl⟩ := ih h
      refine ⟨c :: p, q, rfl, by rwa [startsLine_cons], ?_, hdecl⟩
      rw [List.length_cons]
      omega

/-- The first declaration starts a line. -/
theorem firstDeclaration?_split {place : Nat} (h : firstDeclaration? text = some place) :
    ∃ p q, text = p ++ q ∧ p.length = place ∧ (p = [] ∨ p.getLast? = some '\n') ∧
      startsDeclaration q = true := by
  obtain ⟨p, q, rfl, hstarts, hlength, hdecl⟩ := firstDeclarationFrom?_eq_some h
  refine ⟨p, q, rfl, by rw [hlength, Nat.zero_add], ?_, hdecl⟩
  cases hl : p.getLast? with
  | none => exact .inl (List.getLast?_eq_none_iff.mp hl)
  | some c =>
    rw [startsLine_of_getLast? hl] at hstarts
    exact .inr (by rw [← eq_of_beq hstarts])

theorem beforeDeclaration_split {place : Nat} (h : importPlace? text = some (.beforeDeclaration place)) :
    ∃ p q, text = p ++ q ∧ p.length = place ∧ (p = [] ∨ p.getLast? = some '\n') ∧
      ¬ HasImport true text := by
  rw [importPlace?] at h
  cases hends : (importEnds text).getLast? with
  | some last => simp [hends] at h
  | none =>
    rw [hends] at h
    obtain ⟨found, hfound, hplace⟩ := Option.map_eq_some_iff.mp h
    obtain rfl : found = place := by simpa using hplace
    obtain ⟨p, q, htext, hlength, hstart, -⟩ := firstDeclaration?_split hfound
    exact ⟨p, q, htext, hlength, hstart,
      importEndsFrom_eq_nil_iff.mp (List.getLast?_eq_none_iff.mp hends)⟩

theorem HasImport.of_isBreak (h : HasImport false (newline ++ q)) (hn : IsBreak newline) :
    HasImport true q := by
  rcases hn with rfl | rfl
  · simpa [hasImport_cons] using h
  · simpa [hasImport_cons] using h

/-- A line put in before a declaration of a text without imports is the only import. -/
theorem endsImports_of_first (hp : p = [] ∨ p.getLast? = some '\n') (hnone : ¬ HasImport true (p ++ q))
    (hl : IsImportLine line) (hn : IsBreak newline) : EndsImports (p ++ line) (newline ++ q) := by
  refine endsImports_of_line hp hl (endsLine_of_isBreak hn q) fun h => hnone ?_
  refine HasImport.append_left ?_
  have hstarts : startsLine true p = true := by
    rcases hp with rfl | hp
    · rfl
    · rw [startsLine_of_getLast? hp]
      rfl
  rw [hstarts]
  exact h.of_isBreak hn

end ComponentKit.Source
