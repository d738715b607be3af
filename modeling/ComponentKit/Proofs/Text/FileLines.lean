import ComponentKit.Proofs.Text.Blank

/-!
# The lines of a file

The lines of a file with the line breaks that end them (`fileLines`). Reading a file makes each of these a line
feed, and a text that is put into another one goes into one line: the lines in front of it and behind it stay
(`EditsLine`).
-/

namespace ComponentKit.Text

variable {x y text line : Text} {c : Char}

/-! ## Lines and their ends -/

/-- The lines of a file, each with the line break that ends it: a line feed, a carriage return, or the one
behind the other. -/
def fileLines : Text → List Text
  | [] => []
  | '\r' :: '\n' :: rest => ['\r', '\n'] :: fileLines rest
  | c :: rest =>
    if c = '\n' ∨ c = '\r' then [c] :: fileLines rest
    else match fileLines rest with
      | line :: more => (c :: line) :: more
      | [] => [[c]]

theorem fileLines_returnFeed (text : Text) :
    fileLines ('\r' :: '\n' :: text) = ['\r', '\n'] :: fileLines text := rfl

theorem fileLines_feed (text : Text) : fileLines ('\n' :: text) = ['\n'] :: fileLines text := rfl

theorem unifyLineBreaks_returnFeed (text : Text) :
    unifyLineBreaks ('\r' :: '\n' :: text) = '\n' :: unifyLineBreaks text := rfl

/-- The lines of a file are the file. -/
theorem flatten_fileLines (text : Text) : (fileLines text).flatten = text := by
  fun_induction fileLines text with
  | case1 => rfl
  | case2 rest ih => rw [List.flatten_cons, ih]; rfl
  | case3 c rest _ _ ih => rw [List.flatten_cons, ih]; rfl
  | case4 c rest _ _ line more hlines ih =>
    rw [hlines] at ih
    rw [List.flatten_cons, List.cons_append, ← List.flatten_cons, ih]
  | case5 c rest _ _ hlines ih =>
    rw [hlines] at ih
    rw [← ih]
    rfl

theorem return_notMem_unifyLineBreaks (text : Text) : '\r' ∉ unifyLineBreaks text := by
  fun_induction unifyLineBreaks text with
  | case1 => exact List.not_mem_nil
  | case2 rest ih => simp [ih]
  | case3 c rest _ ih =>
    rw [List.mem_cons, not_or]
    refine ⟨?_, ih⟩
    split
    · decide
    · exact Ne.symm ‹_›

theorem unifyLineBreaks_cons (hc : c ≠ '\r') (text : Text) :
    unifyLineBreaks (c :: text) = c :: unifyLineBreaks text := by
  rw [unifyLineBreaks, if_neg hc]
  exact fun _ h => absurd h hc

theorem unifyLineBreaks_of_notMem (h : '\r' ∉ text) : unifyLineBreaks text = text := by
  induction text with
  | nil => rfl
  | cons c text ih =>
    rw [List.mem_cons, not_or] at h
    rw [unifyLineBreaks_cons (Ne.symm h.1), ih h.2]

/-- No line feed is lost. -/
theorem count_le_count_unifyLineBreaks (text : Text) :
    text.count '\n' ≤ (unifyLineBreaks text).count '\n' := by
  fun_induction unifyLineBreaks text with
  | case1 => exact le_refl _
  | case2 rest ih => simpa using ih
  | case3 c rest _ ih =>
    by_cases hc : c = '\r'
    · subst hc
      exact (List.count_cons_of_ne (by decide)).le.trans (ih.trans (List.count_le_count_cons ..))
    · rw [if_neg hc, List.count_cons, List.count_cons]
      exact Nat.add_le_add_right ih _

theorem fileLines_cons (hfeed : c ≠ '\n') (hreturn : c ≠ '\r') (text : Text) : fileLines (c :: text)
    = match fileLines text with
      | line :: more => (c :: line) :: more
      | [] => [[c]] := by
  rw [fileLines, if_neg (not_or.mpr ⟨hfeed, hreturn⟩)]
  exact fun _ h => absurd h hreturn

/-- Reading a file makes the end of each line a line feed, and changes nothing else. -/
theorem fileLines_unifyLineBreaks (text : Text) :
    fileLines (unifyLineBreaks text) = (fileLines text).map unifyLineBreaks := by
  fun_induction fileLines text with
  | case1 => rfl
  | case2 rest ih =>
    rw [unifyLineBreaks_returnFeed, fileLines_feed, ih]
    rfl
  | case3 c rest hnot hc ih =>
    have hunify : unifyLineBreaks (c :: rest) = '\n' :: unifyLineBreaks rest := by
      rw [unifyLineBreaks]
      · rcases hc with rfl | rfl <;> rfl
      · exact hnot
    rw [hunify, fileLines_feed, ih]
    rcases hc with rfl | rfl <;> rfl
  | case4 c rest _ hc line more hlines ih =>
    obtain ⟨hfeed, hreturn⟩ := not_or.mp hc
    rw [unifyLineBreaks_cons hreturn, fileLines_cons hfeed hreturn, ih, hlines, List.map_cons, List.map_cons,
      unifyLineBreaks_cons hreturn]
  | case5 c rest _ hc hlines ih =>
    obtain ⟨hfeed, hreturn⟩ := not_or.mp hc
    rw [unifyLineBreaks_cons hreturn, fileLines_cons hfeed hreturn, ih, hlines, List.map_cons, List.map_nil,
      unifyLineBreaks_cons hreturn]
    rfl

/-- Reading keeps exactly the files that have no carriage return. -/
theorem map_unifyLineBreaks_fileLines :
    (fileLines text).map unifyLineBreaks = fileLines text ↔ '\r' ∉ text := by
  rw [← fileLines_unifyLineBreaks]
  constructor
  · intro h
    have hsame := congrArg List.flatten h
    rw [flatten_fileLines, flatten_fileLines] at hsame
    exact hsame ▸ return_notMem_unifyLineBreaks text
  · intro h
    rw [unifyLineBreaks_of_notMem h]

/-- A text that ends with a line feed has its lines in front of those of any text behind it. -/
theorem fileLines_append (hx : x = [] ∨ x.getLast? = some '\n') (y : Text) :
    fileLines (x ++ y) = fileLines x ++ fileLines y := by
  -- what follows a character of `x` ends like `x`, so the hypothesis is passed on
  have hlast : ∀ {c : Char} {rest : Text}, (c :: rest = [] ∨ (c :: rest).getLast? = some '\n') →
      rest = [] ∨ rest.getLast? = some '\n' := by
    intro c rest h
    cases rest with
    | nil => exact .inl rfl
    | cons d rest => exact .inr (by simpa [List.getLast?_cons_cons] using h)
  fun_induction fileLines x with
  | case1 => rfl
  | case2 rest ih =>
    rw [List.cons_append, List.cons_append, fileLines_returnFeed, ih (hlast (hlast hx))]
    rfl
  | case3 c rest hnot hc ih =>
    rw [List.cons_append, fileLines, if_pos hc, ih (hlast hx)]
    · rfl
    · -- the line breaks of two texts make up no single one, as no return is the last character of `x`
      rintro more rfl hmore
      cases rest with
      | nil => simp at hx
      | cons d rest =>
        obtain rfl := (List.cons.inj hmore).1
        exact hnot rest rfl rfl
  | case4 c rest _ hc line more hlines ih =>
    obtain ⟨hfeed, hreturn⟩ := not_or.mp hc
    rw [List.cons_append, fileLines_cons hfeed hreturn, ih (hlast hx), hlines]
    rfl
  | case5 c rest _ hc hlines ih =>
    -- the last character would be neither a line feed nor have one behind it
    have hnil : rest = [] := by rw [← flatten_fileLines rest, hlines]; rfl
    subst hnil
    exact absurd (by simpa using hx) (not_or.mp hc).1

/-- A text without line breaks is part of one line. -/
theorem fileLines_line (hfeed : '\n' ∉ line) (hreturn : '\r' ∉ line) :
    fileLines (line ++ ['\n']) = [line ++ ['\n']] ∧ (fileLines line).length ≤ 1 := by
  induction line with
  | nil => exact ⟨fileLines_feed [], by simp [fileLines]⟩
  | cons c line ih =>
    rw [List.mem_cons, not_or] at hfeed hreturn
    obtain ⟨hwith, hwithout⟩ := ih hfeed.2 hreturn.2
    rw [List.cons_append, fileLines_cons (Ne.symm hfeed.1) (Ne.symm hreturn.1), hwith,
      fileLines_cons (Ne.symm hfeed.1) (Ne.symm hreturn.1)]
    refine ⟨rfl, ?_⟩
    split
    · rename_i heq
      rwa [heq] at hwithout
    · exact Nat.le_refl 1

/-! ## Edits of a line -/

/-- Every text ends inside of a line, which may be empty. -/
theorem exists_lineStart (text : Text) : ∃ lead line, text = lead ++ line ∧
    (lead = [] ∨ lead.getLast? = some '\n') ∧ '\n' ∉ line := by
  induction text using List.reverseRecOn with
  | nil => exact ⟨[], [], rfl, .inl rfl, List.not_mem_nil⟩
  | append_singleton text c ih =>
    by_cases hc : c = '\n'
    · subst hc
      exact ⟨text ++ ['\n'], [], by simp, .inr List.getLast?_concat, List.not_mem_nil⟩
    · obtain ⟨lead, line, rfl, hlead, hline⟩ := ih
      exact ⟨lead, line ++ [c], by simp, hlead, by simp [hline, Ne.symm hc]⟩

/-- Every text starts inside of a line, which a line feed ends or the end of the text. -/
theorem exists_lineEnd (text : Text) : ∃ line rest, '\n' ∉ line ∧
    (text = line ∧ rest = [] ∨ text = line ++ ['\n'] ++ rest) := by
  induction text with
  | nil => exact ⟨[], [], List.not_mem_nil, .inl ⟨rfl, rfl⟩⟩
  | cons c text ih =>
    by_cases hc : c = '\n'
    · subst hc
      exact ⟨[], text, List.not_mem_nil, .inr rfl⟩
    · obtain ⟨line, rest, hline, hsplit⟩ := ih
      refine ⟨c :: line, rest, by simp [hline, Ne.symm hc], ?_⟩
      exact hsplit.imp (fun h => ⟨by rw [h.1], h.2⟩) fun h => by rw [h]; rfl

/-- Whether lines become other ones by a piece of one of them that is exchanged for another one: only blanks
are taken away, and all other lines stay. -/
def EditsLine (before after : List Text) : Prop :=
  ∃ lead touched edited rest, before = lead ++ (touched ++ rest) ∧ after = lead ++ (edited ++ rest) ∧
    touched.length ≤ 1 ∧ ∃ head removed added tail, touched.flatten = head ++ removed ++ tail ∧
      edited.flatten = head ++ added ++ tail ∧ ∀ c ∈ removed, isBlank c = true

theorem EditsLine.refl (lines : List Text) : EditsLine lines lines :=
  ⟨[], [], [], lines, rfl, rfl, Nat.zero_le 1, [], [], [], [], rfl, rfl, fun _ h => by cases h⟩

/-- Of the lines of a sort an edit takes away one at most. -/
theorem EditsLine.countP_le {before after : List Text} (h : EditsLine before after) (p : Text → Bool) :
    before.countP p ≤ after.countP p + 1 := by
  obtain ⟨lead, touched, edited, rest, rfl, rfl, hone, -⟩ := h
  have := List.countP_le_length (p := p) (l := touched)
  simp only [List.countP_append]
  omega

/-- A piece of a text that breaks no line is part of one line, and so is what it is exchanged for. -/
theorem editsLine_fileLines {removed : Text} (hblank : ∀ c ∈ removed, isBlank c = true)
    (hfeed : '\n' ∉ removed) (hreturn : '\r' ∉ x ++ removed ++ y) (added : Text) :
    EditsLine (fileLines (x ++ removed ++ y)) (fileLines (x ++ added ++ y)) := by
  -- the line that is edited starts within `x` and ends within `y`
  obtain ⟨lead, head, rfl, hlead, hhead⟩ := exists_lineStart x
  obtain ⟨tail, rest, htail, hy⟩ := exists_lineEnd y
  have hsplit : ∃ ending, y = tail ++ ending ++ rest ∧ (ending = ['\n'] ∨ ending = [] ∧ rest = []) := by
    rcases hy with ⟨rfl, rfl⟩ | rfl
    · exact ⟨[], by simp, .inr ⟨rfl, rfl⟩⟩
    · exact ⟨['\n'], rfl, .inl rfl⟩
  obtain ⟨ending, rfl, hending⟩ := hsplit
  -- the line that is edited ends where its text ends, or where the whole text does
  have hlines : ∀ piece, fileLines (lead ++ head ++ piece ++ (tail ++ ending ++ rest))
      = fileLines lead ++ (fileLines (head ++ piece ++ (tail ++ ending)) ++ fileLines rest) := by
    intro piece
    have hassoc : lead ++ head ++ piece ++ (tail ++ ending ++ rest)
        = lead ++ ((head ++ piece ++ (tail ++ ending)) ++ rest) := by
      simp only [List.append_assoc]
    rw [hassoc, fileLines_append hlead]
    rcases hending with rfl | ⟨rfl, rfl⟩
    · rw [fileLines_append (.inr (by rw [← List.append_assoc, List.getLast?_concat]))]
    · simp [fileLines]
  refine ⟨fileLines lead, fileLines (head ++ removed ++ (tail ++ ending)),
    fileLines (head ++ added ++ (tail ++ ending)), fileLines rest, hlines removed, hlines added, ?_, head,
    removed, added, tail ++ ending, flatten_fileLines _, flatten_fileLines _, hblank⟩
  -- the removed text breaks no line, so the old line is one
  have hone : '\n' ∉ head ++ removed ++ tail ∧ '\r' ∉ head ++ removed ++ tail := by
    simp only [List.mem_append, not_or] at hreturn ⊢
    exact ⟨⟨⟨hhead, hfeed⟩, htail⟩, ⟨hreturn.1.1.2, hreturn.1.2⟩, hreturn.2.1.1⟩
  rcases hending with rfl | ⟨rfl, -⟩
  · rw [← List.append_assoc, (fileLines_line hone.1 hone.2).1]
    exact Nat.le_refl 1
  · rw [List.append_nil]
    exact (fileLines_line hone.1 hone.2).2

/-- A text that is put into another one goes into one line. -/
theorem editsLine_insert (hreturn : '\r' ∉ x ++ y) (added : Text) :
    EditsLine (fileLines (x ++ y)) (fileLines (x ++ added ++ y)) := by
  have hnone : ∀ c ∈ ([] : Text), isBlank c = true := fun _ h => by cases h
  have hparts : '\r' ∉ x ++ [] ++ y := by rwa [List.append_nil]
  have hedit := editsLine_fileLines hnone List.not_mem_nil hparts added
  rwa [List.append_nil] at hedit

/-! ## Lines at the end -/

/-- Whether lines become other ones by a line behind them. The blanks at their end are taken away, so that the
last line that is not blank is the last one in front of the new line. -/
def AppendsLine (fragment : Text) (before after : List Text) : Prop :=
  ∃ lead touched last blanks, before = lead ++ touched ∧ touched.flatten = last ++ blanks ∧
    (∀ c ∈ blanks, isBlank c = true) ∧ '\n' ∉ last ∧ after = lead ++ [last ++ ['\n'], fragment ++ ['\n']]

theorem appendsLine_fileLines {content blanks fragment : Text} (hreturn : '\r' ∉ content)
    (hblank : ∀ c ∈ blanks, isBlank c = true) (hfragment : '\n' ∉ fragment ∧ '\r' ∉ fragment) :
    AppendsLine fragment (fileLines (content ++ blanks))
      (fileLines (content ++ ['\n'] ++ fragment ++ ['\n'])) := by
  obtain ⟨lead, last, rfl, hlead, hlast⟩ := exists_lineStart content
  rw [List.mem_append, not_or] at hreturn
  refine ⟨fileLines lead, fileLines (last ++ blanks), last, blanks, ?_, flatten_fileLines _, hblank, hlast, ?_⟩
  · rw [List.append_assoc, fileLines_append hlead]
  · have hassoc : lead ++ last ++ ['\n'] ++ fragment ++ ['\n']
        = lead ++ ((last ++ ['\n']) ++ (fragment ++ ['\n'])) := by
      simp only [List.append_assoc]
    rw [hassoc, fileLines_append hlead, fileLines_append (.inr List.getLast?_concat),
      (fileLines_line hlast hreturn.2).1, (fileLines_line hfragment.1 hfragment.2).1]
    rfl

end ComponentKit.Text
