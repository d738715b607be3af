import ComponentKit.Console.Screen
import ComponentKit.Proofs.Console.Escape

/-!
# What marked-up text shows

What is `written` in a marked-up text are some of its characters, in their order: tags vanish, and so does a
backslash in front of a bracket. A text that has neither is literal (`IsLiteral`). Codes stand for texts that are
not longer, so that what is shown is the text exactly if it is literal and has no code that the console knows.
-/

namespace ComponentKit.Console

open Text
open scoped List

variable {text rest shown plain after body more slashes run : Text} {opened : List Text} {items : List Part}
  {c : Char} {offset : Nat} {weight : Char → Nat} {code? : Text → Option Text} {theme : Theme}

/-! ## Literal text -/

/-- Whether a text has neither a tag nor a backslash in front of an opening bracket. -/
def IsLiteral (text : Text) : Prop :=
  ∀ front back, text = front ++ '[' :: back → tagBody? back = none ∧ front.getLast? ≠ some '\\'

theorem isLiteral_of_notMem (h : '[' ∉ text) : IsLiteral text := by
  rintro front back rfl
  simp at h

theorem IsLiteral.tail (h : IsLiteral (c :: rest)) : IsLiteral rest := by
  rintro front back rfl
  obtain ⟨htag, hlast⟩ := h (c :: front) back rfl
  refine ⟨htag, fun hfront => hlast ?_⟩
  rw [List.getLast?_cons, hfront]
  rfl

theorem IsLiteral.not_startsWithTag (h : IsLiteral text) : ¬ StartsWithTag text := by
  intro htag
  obtain ⟨slashes, body, more, rfl, -, hbody⟩ := exists_tag htag
  rw [(h slashes (body ++ ']' :: more) rfl).1] at hbody
  cases hbody

theorem IsLiteral.ne_escaped (h : IsLiteral text) (after : Text) : text ≠ '\\' :: '[' :: after := by
  rintro rfl
  exact (h ['\\'] after rfl).2 rfl

/-- A text is literal if no tag starts it, nor a backslash in front of a bracket, and its rest is literal. -/
theorem IsLiteral.cons (htag : ¬ StartsWithTag (c :: rest)) (hescaped : ∀ after, c :: rest ≠ '\\' :: '[' :: after)
    (h : IsLiteral rest) : IsLiteral (c :: rest) := by
  intro front back heq
  -- the bracket is the first character, or one of the rest
  cases front with
  | nil =>
    obtain ⟨rfl, rfl⟩ := List.cons.inj heq
    refine ⟨?_, by simp⟩
    rw [startsWithTag_cons (by decide)] at htag
    cases hbody : tagBody? rest with
    | none => rfl
    | some body => exact absurd ⟨rfl, body, hbody⟩ htag
  | cons d front =>
    obtain ⟨rfl, hrest⟩ := List.cons.inj heq
    obtain ⟨hback, hlast⟩ := h front back hrest
    refine ⟨hback, ?_⟩
    -- only directly behind the first character can the rest not tell what is in front of the bracket
    cases front with
    | nil =>
      rintro hslash
      obtain rfl := Option.some.inj hslash
      exact hescaped back (by rw [hrest]; rfl)
    | cons e front => rwa [List.getLast?_cons_cons]

theorem isLiteral_plain_append (hplain : ∀ c ∈ plain, c ≠ '[' ∧ c ≠ '\\') :
    IsLiteral (plain ++ rest) ↔ IsLiteral rest := by
  induction plain with
  | nil => exact Iff.rfl
  | cons c plain ih =>
    obtain ⟨⟨hbracket, hslash⟩, hmore⟩ := List.forall_mem_cons.mp hplain
    rw [← ih hmore]
    -- a plain character starts no tag and escapes nothing
    refine ⟨IsLiteral.tail, .cons (fun htag => hbracket ((startsWithTag_cons hslash).mp htag).1) ?_⟩
    intro after h
    exact hslash (List.cons.inj h).1

/-! ## What is written -/

/-- What is written are characters of the text, in their order. -/
theorem sublist_written (offset : Nat) (text : Text) : written (partsFrom offset text) <+ text := by
  induction text using induction_on_parts generalizing offset with
  | nil =>
    rw [partsFrom]
    exact List.nil_sublist _
  | tag slashes body more hslashes hbody ih =>
    have hhalf : List.replicate (slashes.length / 2) '\\' <+ slashes := by
      conv => rhs; rw [List.eq_replicate_of_mem hslashes]
      exact (List.replicate_sublist_replicate _).mpr (Nat.div_le_self _ _)
    rw [partsFrom_tag offset hslashes hbody, written]
    -- the tag is written behind an odd number of backslashes, and else not
    split
    · have hsplit : '[' :: (body ++ ']' :: more) = ('[' :: body ++ [']']) ++ more := by simp
      rw [hsplit]
      exact hhalf.append ((List.Sublist.refl _).append (ih _))
    · rw [written_tagPart, show '[' :: (body ++ ']' :: more) = ('[' :: body ++ [']']) ++ more by simp]
      exact hhalf.append ((ih _).trans (List.sublist_append_right _ _))
  | escaped after htag ih =>
    rw [partsFrom_escaped offset htag]
    exact .cons _ ((ih _).cons_cons _)
  | plain c rest htag hescaped ih =>
    rw [partsFrom_plain offset htag hescaped]
    exact (ih _).cons_cons _

/-- A text that is written as it stands is literal. -/
theorem isLiteral_of_written (h : written (partsFrom offset text) = text) : IsLiteral text := by
  induction text using induction_on_parts generalizing offset with
  | nil => exact isLiteral_of_notMem List.not_mem_nil
  | tag slashes body more hslashes hbody ih =>
    have htail := (sublist_written (offset + (slashes.length + body.length + 2)) more).length_le
    have hlength := congrArg List.length h
    rw [partsFrom_tag offset hslashes hbody, written] at hlength
    -- either the tag is lost or one of the backslashes
    split at hlength
    · rename_i hodd
      simp only [written, List.length_append, List.length_replicate, List.length_cons, List.length_nil] at hlength
      omega
    · simp only [written_tagPart, List.length_append, List.length_replicate, List.length_cons] at hlength
      omega
  | escaped after htag ih =>
    have htail := (sublist_written (offset + 2) after).length_le
    have hlength := congrArg List.length h
    -- the backslash in front of the bracket is missing
    rw [partsFrom_escaped offset htag, written] at hlength
    simp only [List.length_cons] at hlength
    omega
  | plain c rest htag hescaped ih =>
    rw [partsFrom_plain offset htag hescaped, written] at h
    exact .cons htag hescaped (ih (List.cons.inj h).2)

/-- A literal text is all running text. -/
theorem partsFrom_of_isLiteral (h : IsLiteral text) (offset : Nat) : partsFrom offset text = text.map .letter := by
  induction text generalizing offset with
  | nil =>
    rw [partsFrom]
    rfl
  | cons c rest ih =>
    rw [partsFrom_plain offset h.not_startsWithTag h.ne_escaped, ih h.tail]
    rfl

/-! ## Codes -/

/-- Whether a text stays on its line, and fills no more columns than its characters take. -/
def StaysOnLine (text : Text) : Prop :=
  ∀ c ∈ text, c ≠ '\n' ∧ c ≠ '\t' ∧ isCursorControl c = false

/-- What is asked of the codes of a console: none that `code?` knows stands for a text that has more characters than
the code with its colons, or takes more columns, and every such text stays on its line. -/
structure Theme.IsModest (theme : Theme) : Prop where
  /-- A code stands for no more characters than it has. -/
  length_le : ∀ name text, theme.code? name = some text → text.length ≤ name.length + 2
  /-- The characters take no more columns. -/
  width_le : ∀ name text, theme.code? name = some text → Unicode.width text ≤ Unicode.width name + 2
  /-- The text stays on its line. -/
  staysOnLine : ∀ name text, theme.code? name = some text → StaysOnLine text

/-- A console without codes is modest, so that what holds of listings holds of those that it prints. -/
theorem isModest_basic : Theme.basic.IsModest :=
  ⟨fun _ _ h => (by cases h), fun _ _ h => (by cases h), fun _ _ h => (by cases h)⟩

/-- Between two colons without a blank stands the name of a code. -/
theorem exists_code (hdrop : rest.drop (rest.takeWhile fun c => c != ':' && !isBlank c).length = ':' :: after) :
    rest = rest.takeWhile (fun c => c != ':' && !isBlank c)
      ++ ':' :: rest.drop ((rest.takeWhile fun c => c != ':' && !isBlank c).length + 1) := by
  have hbehind : rest.drop ((rest.takeWhile fun c => c != ':' && !isBlank c).length + 1) = after := by
    rw [← List.drop_drop, hdrop]
    rfl
  rw [hbehind, ← hdrop, drop_length_takeWhile, List.takeWhile_append_dropWhile]

/-- What the characters of a text weigh together, for any `weight`: its length is one such sum, its width another. -/
def weigh (weight : Char → Nat) (text : Text) : Nat :=
  (text.map weight).sum

@[simp] theorem weigh_nil : weigh weight [] = 0 := rfl

@[simp] theorem weigh_cons : weigh weight (c :: text) = weight c + weigh weight text := rfl

@[simp] theorem weigh_append : weigh weight (text ++ more) = weigh weight text + weigh weight more := by
  rw [weigh, List.map_append, List.sum_append, weigh, weigh]

theorem weigh_le_of_sublist (h : shown <+ text) : weigh weight shown ≤ weigh weight text :=
  (h.map weight).sum_le_sum fun _ _ => Nat.zero_le _

theorem weigh_one (text : Text) : weigh (fun _ => 1) text = text.length := by
  simp [weigh]

theorem weigh_charWidth (text : Text) : weigh Unicode.charWidth text = Unicode.width text := by
  rw [weigh, List.sum_eq_foldl, List.foldl_map, Unicode.width]

section Weight

variable (hcode : ∀ name text, code? name = some text → weigh weight text ≤ weigh weight (':' :: name ++ [':']))

include hcode

/-- If no code stands for a text that weighs more, then no text weighs more with its codes replaced. -/
theorem weigh_replaceCodes_le (text : Text) : weigh weight (replaceCodes code? text) ≤ weigh weight text := by
  fun_induction replaceCodes code? text with
  | case1 => exact le_rfl
  | case2 rest name after hdrop ih =>
    have hsplit : ':' :: rest = (':' :: name ++ [':']) ++ rest.drop (name.length + 1) := by
      rw [List.append_assoc]
      exact congrArg (':' :: ·) (exists_code hdrop)
    have hname : weigh weight ((code? name).getD (':' :: name ++ [':'])) ≤ weigh weight (':' :: name ++ [':']) := by
      cases hknown : code? name with
      | none => exact le_rfl
      | some text => exact hcode name text hknown
    rw [hsplit, weigh_append, weigh_append]
    exact Nat.add_le_add hname ih
  | case3 rest name hnone ih => exact Nat.add_le_add_left ih _
  | case4 c rest hc ih => exact Nat.add_le_add_left ih _

theorem weigh_replaceIn_le (run : Text) (items : List Part) :
    weigh weight (written (replaceIn code? run items)) ≤ weigh weight run + weigh weight (written items) := by
  have hrun := weigh_replaceCodes_le hcode run
  induction items generalizing run with
  | nil => simpa [replaceIn, written] using hrun
  | cons part items ih =>
    have hrest := ih [] (weigh_replaceCodes_le hcode [])
    rw [weigh_nil, Nat.zero_add] at hrest
    cases part with
    | letter c =>
      have h := ih (run ++ [c]) (weigh_replaceCodes_le hcode _)
      rwa [weigh_append, Nat.add_assoc] at h
    | text text =>
      have htext := weigh_replaceCodes_le hcode text
      simp only [replaceIn, written, weigh_append]
      omega
    | opening style =>
      simp only [replaceIn, written, weigh_append]
      omega
    | closing style offset mark =>
      simp only [replaceIn, written, weigh_append]
      omega

end Weight

theorem Theme.IsModest.weigh_one_le (hmodest : theme.IsModest) (name text : Text) (h : theme.code? name = some text) :
    weigh (fun _ => 1) text ≤ weigh (fun _ => 1) (':' :: name ++ [':']) := by
  rw [weigh_one, weigh_one]
  simpa using hmodest.length_le name text h

theorem Theme.IsModest.weigh_charWidth_le (hmodest : theme.IsModest) (name text : Text)
    (h : theme.code? name = some text) :
    weigh Unicode.charWidth text ≤ weigh Unicode.charWidth (':' :: name ++ [':']) := by
  have hcolon : Unicode.charWidth ':' = 1 := by decide +kernel
  have hwidth := hmodest.width_le name text h
  simp only [← weigh_charWidth] at hwidth
  simp only [List.cons_append, weigh_cons, weigh_append, weigh_nil, hcolon]
  omega

section Characters

variable {P : Char → Prop} (hcode : ∀ name text, code? name = some text → ∀ c ∈ text, P c)

include hcode

/-- What holds of the characters of a text and of those that codes stand for holds of all that is left. -/
theorem forall_replaceCodes (text : Text) (h : ∀ c ∈ text, P c) : ∀ c ∈ replaceCodes code? text, P c := by
  fun_induction replaceCodes code? text with
  | case1 => exact h
  | case2 rest name after hdrop ih =>
    obtain ⟨hcolon, hrest⟩ := List.forall_mem_cons.mp h
    have hname : ∀ c ∈ name, P c := fun c hc => hrest c ((List.takeWhile_sublist _).subset hc)
    refine List.forall_mem_append.mpr ⟨?_, ih fun c hc => hrest c (List.mem_of_mem_drop hc)⟩
    cases hknown : code? name with
    | none => exact List.forall_mem_append.mpr ⟨List.forall_mem_cons.mpr ⟨hcolon, hname⟩, by simpa using hcolon⟩
    | some text => exact hcode name text hknown
  | case3 rest name hnone ih =>
    obtain ⟨hcolon, hrest⟩ := List.forall_mem_cons.mp h
    exact List.forall_mem_cons.mpr ⟨hcolon, ih hrest⟩
  | case4 c rest hc ih =>
    obtain ⟨hfirst, hrest⟩ := List.forall_mem_cons.mp h
    exact List.forall_mem_cons.mpr ⟨hfirst, ih hrest⟩

theorem forall_replaceIn (run : Text) (items : List Part) (hrun : ∀ c ∈ run, P c) (h : ∀ c ∈ written items, P c) :
    ∀ c ∈ written (replaceIn code? run items), P c := by
  have hcodes := forall_replaceCodes hcode
  induction items generalizing run with
  | nil => exact List.forall_mem_append.mpr ⟨hcodes run hrun, List.forall_mem_nil _⟩
  | cons part items ih =>
    cases part with
    | letter c =>
      obtain ⟨hc, hitems⟩ := List.forall_mem_cons.mp h
      exact ih (run ++ [c]) (List.forall_mem_append.mpr ⟨hrun, by simpa using hc⟩) hitems
    | text text =>
      obtain ⟨htext, hitems⟩ := List.forall_mem_append.mp h
      exact List.forall_mem_append.mpr ⟨hcodes run hrun,
        List.forall_mem_append.mpr ⟨hcodes text htext, ih [] (List.forall_mem_nil _) hitems⟩⟩
    | opening style => exact List.forall_mem_append.mpr ⟨hcodes run hrun, ih [] (List.forall_mem_nil _) h⟩
    | closing style offset mark =>
      exact List.forall_mem_append.mpr ⟨hcodes run hrun, ih [] (List.forall_mem_nil _) h⟩

end Characters

theorem replaceIn_letters (run text : Text) (items : List Part) :
    replaceIn code? run (text.map .letter ++ items) = replaceIn code? (run ++ text) items := by
  induction text generalizing run with
  | nil => rw [List.append_nil]; rfl
  | cons c text ih =>
    have h := ih (run ++ [c])
    rwa [List.append_assoc] at h

/-- It takes two colons for a code. -/
theorem replaceCodes_of_count (h : text.count ':' ≤ 1) : replaceCodes code? text = text := by
  fun_induction replaceCodes code? text with
  | case1 => rfl
  | case2 rest name after hdrop ih =>
    have hmem : ':' ∈ rest := List.mem_of_mem_drop (hdrop ▸ List.mem_cons_self)
    have hcount := List.count_pos_iff.mpr hmem
    rw [List.count_cons_self] at h
    omega
  | case3 rest name hnone ih =>
    rw [List.count_cons_self] at h
    rw [ih (by omega)]
  | case4 c rest hc ih =>
    rw [List.count_cons_of_ne hc] at h
    rw [ih h]

/-! ## What is shown -/

/-- What is shown of a literal text is the text with its codes replaced. -/
theorem written_of_isLiteral (h : IsLiteral text) :
    written (replaceIn code? [] (parts text)) = replaceCodes code? text := by
  have hletters : replaceIn code? [] (text.map .letter ++ []) = _ := replaceIn_letters [] text []
  rw [List.append_nil] at hletters
  rw [parts, partsFrom_of_isLiteral h, hletters]
  exact List.append_nil _

theorem openedAfter_of_isLiteral (normalForm : Text → Text) (h : IsLiteral text) :
    openedAfter normalForm opened (parts text) = some opened := by
  have hletters : openedAfter normalForm opened (text.map .letter ++ []) = _ := openedAfter_letters text []
  rw [List.append_nil] at hletters
  rw [parts, partsFrom_of_isLiteral h, hletters]
  rfl

/-- A text is shown as it stands exactly if it is literal and has no code, provided that it does not move the cursor. -/
theorem render_eq_self_iff (hmodest : theme.IsModest) (hclean : ∀ c ∈ text, isCursorControl c = false) :
    render theme text = .ok text ↔ IsLiteral text ∧ replaceCodes theme.code? text = text := by
  have hfilter : text.filter (!isCursorControl ·) = text :=
    List.filter_eq_self.mpr fun c hc => by rw [hclean c hc]; rfl
  constructor
  · intro h
    obtain ⟨-, hshown⟩ := render_eq_ok.mp h
    have hkept : text <+ written (replaceIn theme.code? [] (parts text)) := by
      conv_lhs => rw [hshown]
      exact List.filter_sublist
    -- nothing is missing, so that the tags have left out nothing, and then the codes have not either
    have hcodes := weigh_replaceIn_le hmodest.weigh_one_le [] (parts text)
    rw [weigh_nil, Nat.zero_add, weigh_one, weigh_one] at hcodes
    have hsublist : written (parts text) <+ text := sublist_written 0 text
    have hliteral := isLiteral_of_written (hsublist.eq_of_length_le (hkept.length_le.trans hcodes))
    have hlength := weigh_replaceCodes_le hmodest.weigh_one_le text
    rw [weigh_one, weigh_one] at hlength
    rw [written_of_isLiteral hliteral] at hkept
    exact ⟨hliteral, (hkept.eq_of_length_le hlength).symm⟩
  · rintro ⟨hliteral, hcodes⟩
    refine render_eq_ok.mpr ⟨⟨[], openedAfter_of_isLiteral _ hliteral⟩, ?_⟩
    rw [written_of_isLiteral hliteral, hcodes, hfilter]

theorem filter_of_isPlain (h : isPlain text = true) : text.filter (!isCursorControl ·) = text :=
  List.filter_eq_self.mpr fun c hc => by rw [(forall_of_isPlain h).2 c hc]; rfl

/-- Text between the tags of a style is shown without them. -/
theorem render_styled (style front text : Text) (hstyle : isStyleName style = true) (hfront : isPlain front = true)
    (htext : isPlain text = true) (hcolons : front.count ':' ≤ 1 ∧ text.count ':' ≤ 1) :
    render theme (front ++ '[' :: (style ++ ']' :: (text ++ closingTag style))) = .ok (front ++ text) := by
  have hparts : ∃ offset, parts (front ++ '[' :: (style ++ ']' :: (text ++ closingTag style))) = front.map .letter
      ++ .text [] :: .opening style :: (text.map .letter ++ [.text [], .closing style offset (closingTag style)]) := by
    refine ⟨0 + front.length + (style.length + 2) + text.length, ?_⟩
    rw [parts, partsFrom_plain_append (forall_of_isPlain hfront).1, partsFrom_opening hstyle,
      partsFrom_plain_append (forall_of_isPlain htext).1, ← List.append_nil (closingTag style),
      partsFrom_closing hstyle, partsFrom, List.append_nil]
  obtain ⟨offset, hparts⟩ := hparts
  refine render_eq_ok.mpr ⟨⟨[], ?_⟩, ?_⟩
  · rw [hparts, openedAfter_letters, openedAfter, openedAfter, openedAfter_letters, openedAfter,
      openedAfter_closing hstyle List.mem_cons_self, List.erase_cons_head]
    rfl
  · have hnil : replaceCodes theme.code? [] = [] := by rw [replaceCodes]
    have hwritten : written (replaceIn theme.code? [] (parts (front ++ '[' :: (style ++ ']' ::
        (text ++ closingTag style))))) = front ++ text := by
      -- around the tags stand empty pieces, which have no codes either
      rw [hparts]
      simp only [replaceIn_letters, replaceIn, written, List.nil_append, List.append_nil, hnil,
        replaceCodes_of_count hcolons.1, replaceCodes_of_count hcolons.2]
    rw [hwritten, List.filter_append, filter_of_isPlain hfront, filter_of_isPlain htext]

theorem render_of_isPlain (h : isPlain text = true) (hcolons : text.count ':' ≤ 1) : render theme text = .ok text := by
  have hliteral := isLiteral_of_notMem fun hmem => ((forall_of_isPlain h).1 '[' hmem).1 rfl
  refine render_eq_ok.mpr ⟨⟨[], openedAfter_of_isLiteral _ hliteral⟩, ?_⟩
  rw [written_of_isLiteral hliteral, replaceCodes_of_count hcolons, filter_of_isPlain h]

/-! ## Lines -/

theorem expandTabs_of_notMem (h : '\t' ∉ text) (column : Nat) : expandTabs column text = text := by
  induction text generalizing column with
  | nil => rfl
  | cons c rest ih =>
    rw [List.mem_cons, not_or] at h
    rw [expandTabs, if_neg (Ne.symm h.1), ih h.2]

section Drawing

variable {ε : Type} {draw : Text → Except ε Text}

theorem printed_of_draw (h : draw text = .ok shown) :
    printed draw text = .ok (printedLines ((splitOn '\n' shown).map (expandTabs 0))) := by
  rw [printed, shownLines, h]
  rfl

/-- A text that is shown on one line is printed on one. -/
theorem printed_of_staysOnLine (h : draw text = .ok shown) (hline : StaysOnLine shown) :
    printed draw text = .ok (printedLines [shown]) := by
  have hbreak : '\n' ∉ shown := fun hmem => (hline _ hmem).1 rfl
  have htab : '\t' ∉ shown := fun hmem => (hline _ hmem).2.1 rfl
  rw [printed_of_draw h, splitOn_eq_singleton hbreak, List.map_singleton, expandTabs_of_notMem htab]

end Drawing

/-- What is shown weighs no more than the text, if no code stands for a text that weighs more. -/
theorem weigh_le_of_render (hcode : ∀ name text, theme.code? name = some text →
      weigh weight text ≤ weigh weight (':' :: name ++ [':']))
    (h : render theme text = .ok shown) : weigh weight shown ≤ weigh weight text := by
  obtain ⟨-, rfl⟩ := render_eq_ok.mp h
  have hcodes := weigh_replaceIn_le hcode [] (parts text)
  rw [weigh_nil, Nat.zero_add] at hcodes
  exact (weigh_le_of_sublist List.filter_sublist).trans (hcodes.trans (weigh_le_of_sublist (sublist_written 0 text)))

theorem width_le_of_render (hmodest : theme.IsModest) (h : render theme text = .ok shown) :
    Unicode.width shown ≤ Unicode.width text := by
  rw [← weigh_charWidth, ← weigh_charWidth]
  exact weigh_le_of_render hmodest.weigh_charWidth_le h

theorem length_le_of_render (hmodest : theme.IsModest) (h : render theme text = .ok shown) :
    shown.length ≤ text.length := by
  rw [← weigh_one, ← weigh_one text]
  exact weigh_le_of_render hmodest.weigh_one_le h

/-- What is shown stays on its line if the text does. -/
theorem staysOnLine_of_render (hmodest : theme.IsModest) (h : render theme text = .ok shown)
    (hline : StaysOnLine text) : StaysOnLine shown := by
  obtain ⟨-, rfl⟩ := render_eq_ok.mp h
  have hwritten : StaysOnLine (written (parts text)) := fun c hc => hline c ((sublist_written 0 text).subset hc)
  intro c hc
  exact forall_replaceIn hmodest.staysOnLine [] _ (List.forall_mem_nil _) hwritten c (List.mem_of_mem_filter hc)

end ComponentKit.Console
