import ComponentKit.Proofs.Console.Escape

/-!
# Which marked-up texts can be shown

Tags open and close styles, and a closing tag whose style is not open keeps a text from being shown. So a text
without a closing tag (`HasClosing`) can always be shown, also between the tags of a style. Texts in sequence are
shown one after the other, if no tag reaches from the one into the next (`shows_append`).
-/

namespace ComponentKit.Console

variable {text rest front tail body more slashes style : Text} {opened : List Text} {parts others : List Part}
  {offset : Nat} {normalForm : Text → Text} {theme : Theme}

/-- A text can be shown wherever it stands, or nowhere. -/
theorem shows_iff :
    Shows normalForm opened text ↔ ∃ after, openedAfter normalForm opened (Console.parts text) = some after := by
  refine ⟨fun h => h 0, fun h offset => ?_⟩
  rwa [openedAfter_partsFrom]

theorem exists_render_eq_ok : (∃ shown, render theme text = .ok shown) ↔ Shows theme.normalForm [] text := by
  simp only [render_eq_ok, shows_iff]
  exact ⟨fun ⟨_, h, _⟩ => h, fun h => ⟨_, h, rfl⟩⟩

theorem exists_render_eq_error : (∃ fault, render theme text = .error fault) ↔ ¬ Shows theme.normalForm [] text := by
  rw [← exists_render_eq_ok]
  cases render theme text <;> simp

/-! ## Closing tags -/

/-- Whether a text has a closing tag, or the start of one. -/
def HasClosing (text : Text) : Prop :=
  "[/".toList <:+: text

/-- Text without a closing tag opens styles, and closes none. -/
theorem openedAfter_of_not_hasClosing (opened : List Text) (offset : Nat) (h : ¬ HasClosing text) :
    ∃ inner, openedAfter normalForm opened (partsFrom offset text) = some (inner ++ opened) := by
  have hsuffix (front : Text) {rest : Text} (h : ¬ HasClosing (front ++ rest)) : ¬ HasClosing rest :=
    fun hin => h (hin.trans (List.suffix_append _ _).isInfix)
  induction text using induction_on_parts generalizing opened offset with
  | nil =>
    rw [partsFrom]
    exact ⟨[], rfl⟩
  | tag slashes body more hslashes hbody ih =>
    have hmore : ¬ HasClosing more := hsuffix (slashes ++ '[' :: body ++ [']']) (by simpa using h)
    rw [partsFrom_tag offset hslashes hbody, openedAfter]
    split
    · exact ih _ _ hmore
    · -- the tag is no closing one, so that it opens a style
      have hname : ∀ style, body.takeWhile (· != '=') ≠ '/' :: style := by
        intro style hname
        have hfront := List.takeWhile_prefix (p := (· != '=')) (l := body)
        rw [hname] at hfront
        obtain ⟨after, rfl⟩ := hfront
        exact h ⟨slashes, style ++ after ++ ']' :: more, by simp⟩
      rw [tagPart]
      split
      · rename_i style hslash
        exact absurd hslash (hname style)
      · obtain ⟨inner, hinner⟩ := ih (normalForm (body.takeWhile (· != '=')) :: opened) _ hmore
        refine ⟨inner ++ [normalForm (body.takeWhile (· != '='))], ?_⟩
        rw [openedAfter, hinner, List.append_assoc]
        rfl
  | escaped after htag ih =>
    rw [partsFrom_escaped offset htag, openedAfter]
    exact ih _ _ (hsuffix ['\\', '['] h)
  | plain c rest htag hescaped ih =>
    rw [partsFrom_plain offset htag hescaped, openedAfter]
    exact ih _ _ (hsuffix [c] h)

/-- So such a text can be shown. -/
theorem shows_of_not_hasClosing (h : ¬ HasClosing text) : Shows normalForm opened text :=
  fun offset => ⟨_, (openedAfter_of_not_hasClosing opened offset h).choose_spec⟩

/-! ## Texts in sequence -/

/-- No tag reaches into a text that opens brackets. -/
theorem startsWithTag_of_append (hopens : OpensBrackets tail) (htext : text ≠ [])
    (hlast : text.getLast? ≠ some '\\') (h : StartsWithTag (text ++ tail)) : StartsWithTag text := by
  induction text with
  | nil => exact absurd rfl htext
  | cons c rest ih =>
    rw [List.cons_append] at h
    by_cases hc : c = '\\'
    · subst hc
      cases rest with
      | nil => exact absurd rfl hlast
      | cons d rest =>
        rw [startsWithTag_slash] at h ⊢
        exact ih (List.cons_ne_nil _ _) hlast h
    -- the body ends in front of the first bracket, so not behind the text
    · rw [startsWithTag_cons hc] at h ⊢
      obtain ⟨rfl, body, hbody⟩ := h
      exact ⟨rfl, body, tagBody?_of_append hopens hbody⟩

theorem getLast?_ne_of_append (front : Text) {c : Char} (h : (front ++ text).getLast? ≠ some c) :
    text.getLast? ≠ some c := by
  intro hlast
  refine h ?_
  rw [List.getLast?_append, hlast]
  rfl

/-- The parts of texts in sequence are those of the one and those of the other, if no tag reaches from the one
into the other and no backslash stands between them. -/
theorem partsFrom_append (hopens : OpensBrackets tail) (hlast : text.getLast? ≠ some '\\') (offset : Nat) :
    ∃ start, partsFrom offset (text ++ tail) = partsFrom offset text ++ partsFrom start tail := by
  induction text using induction_on_parts generalizing offset with
  | nil =>
    refine ⟨offset, ?_⟩
    rw [partsFrom]
    rfl
  | tag slashes body more hslashes hbody ih =>
    -- the tag and its body stand in the first text, so they are there in front of any other one
    have hbody' : tagBody? (body ++ ']' :: (more ++ tail)) = some body :=
      tagBody?_eq_some.mpr ⟨⟨_, rfl⟩, (tagBody?_eq_some.mp hbody).2⟩
    have hmore : more.getLast? ≠ some '\\' :=
      getLast?_ne_of_append (slashes ++ '[' :: body ++ [']']) (by simpa using hlast)
    obtain ⟨start, hstart⟩ := ih hmore (offset + (slashes.length + body.length + 2))
    have htext : slashes ++ '[' :: (body ++ ']' :: more) ++ tail
        = slashes ++ '[' :: (body ++ ']' :: (more ++ tail)) := by simp
    exact ⟨start, by
      rw [htext, partsFrom_tag offset hslashes hbody', partsFrom_tag offset hslashes hbody, hstart]
      rfl⟩
  | escaped after htag ih =>
    have hafter : after.getLast? ≠ some '\\' := getLast?_ne_of_append ['\\', '['] hlast
    obtain ⟨start, hstart⟩ := ih hafter (offset + 2)
    refine ⟨start, ?_⟩
    have htag' : ¬ StartsWithTag ('\\' :: '[' :: (after ++ tail)) :=
      fun h => htag (startsWithTag_of_append hopens (List.cons_ne_nil _ _) hlast h)
    rw [List.cons_append, List.cons_append, partsFrom_escaped offset htag', partsFrom_escaped offset htag, hstart]
    rfl
  | plain c rest htag hescaped ih =>
    have hrest : rest.getLast? ≠ some '\\' := getLast?_ne_of_append [c] hlast
    obtain ⟨start, hstart⟩ := ih hrest (offset + 1)
    refine ⟨start, ?_⟩
    have htag' : ¬ StartsWithTag (c :: (rest ++ tail)) :=
      fun h => htag (startsWithTag_of_append hopens (List.cons_ne_nil _ _) hlast h)
    -- a bracket that the character escapes is one of the text, which does not end with a backslash
    have hescaped' : ∀ after, c :: (rest ++ tail) ≠ '\\' :: '[' :: after := by
      intro after h
      obtain ⟨rfl, hbracket⟩ := List.cons.inj h
      cases rest with
      | nil => exact hlast rfl
      | cons d rest =>
        obtain ⟨rfl, -⟩ := List.cons.inj hbracket
        exact hescaped rest rfl
    rw [List.cons_append, partsFrom_plain offset htag' hescaped', partsFrom_plain offset htag hescaped, hstart]
    rfl

/-- The backslashes at the end of a text. -/
theorem exists_slashes (text : Text) :
    ∃ front slashes, text = front ++ slashes ∧ front.getLast? ≠ some '\\' ∧ ∀ c ∈ slashes, c = '\\' := by
  induction text using List.reverseRecOn with
  | nil => exact ⟨[], [], rfl, by simp, List.forall_mem_nil _⟩
  | append_singleton text c ih =>
    by_cases hc : c = '\\'
    · obtain ⟨front, slashes, rfl, hfront, hslashes⟩ := ih
      refine ⟨front, slashes ++ [c], List.append_assoc _ _ _, hfront, ?_⟩
      exact List.forall_mem_append.mpr ⟨hslashes, by simpa using hc⟩
    · exact ⟨text ++ [c], [], (List.append_nil _).symm, by simpa using hc, List.forall_mem_nil _⟩

theorem opensBrackets_cons (rest : Text) : OpensBrackets ('[' :: rest) := by
  intro body more h
  cases body with
  | nil => cases h
  | cons c body =>
    obtain ⟨rfl, -⟩ := List.cons.inj h
    exact List.mem_cons_self

theorem OpensBrackets.append (hfront : ']' ∉ front) (h : OpensBrackets tail) : OpensBrackets (front ++ tail) := by
  intro body more htext
  induction front generalizing body with
  | nil => exact h body more htext
  | cons c front ih =>
    rw [List.mem_cons, not_or] at hfront
    cases body with
    | nil => exact absurd (List.cons.inj htext).1.symm hfront.1
    | cons d body => exact List.mem_cons_of_mem d (ih hfront.2 body (List.cons.inj htext).2)

theorem openedAfter_slashes (hslashes : ∀ c ∈ slashes, c = '\\') :
    openedAfter normalForm opened (partsFrom offset slashes) = some opened := by
  induction slashes generalizing offset with
  | nil =>
    rw [partsFrom]
    rfl
  | cons slash slashes ih =>
    have hnone : '[' ∉ slash :: slashes := fun hmem => by cases hslashes '[' hmem
    have hescaped : ∀ after, slash :: slashes ≠ '\\' :: '[' :: after := by
      rintro after h
      rw [h] at hnone
      exact hnone (List.mem_cons_of_mem _ List.mem_cons_self)
    rw [partsFrom_plain offset (not_startsWithTag_of_notMem hnone) hescaped, openedAfter]
    exact ih (List.forall_mem_cons.mp hslashes).2

/-- A text is shown in front of another one if this one is shown, behind any backslashes, where the styles are
open that the text leaves open. -/
theorem shows_append (hopens : OpensBrackets tail) {after : List Text}
    (htext : openedAfter normalForm opened (Console.parts text) = some after)
    (htail : ∀ slashes, (∀ c ∈ slashes, c = '\\') → Shows normalForm after (slashes ++ tail)) :
    Shows normalForm opened (text ++ tail) := by
  obtain ⟨front, slashes, rfl, hlast, hslashes⟩ := exists_slashes text
  have hplain : ']' ∉ slashes := fun hmem => by cases hslashes _ hmem
  have hnone : OpensBrackets slashes := by
    rw [← List.append_nil slashes]
    exact OpensBrackets.nil.append hplain
  -- the backslashes at the end of the text show themselves, or belong to the text behind it
  obtain ⟨start, hfront⟩ := partsFrom_append hnone hlast 0
  obtain ⟨restart, hall⟩ := partsFrom_append (hopens.append hplain) hlast 0
  have hopened : openedAfter normalForm opened (partsFrom 0 front) = some after := by
    rw [Console.parts, hfront, openedAfter_append] at htext
    obtain ⟨middle, hmiddle, hafter⟩ := Option.bind_eq_some_iff.mp htext
    rw [openedAfter_slashes hslashes] at hafter
    rw [hmiddle, hafter]
  rw [List.append_assoc, shows_iff, Console.parts, hall, openedAfter_append, hopened, Option.bind_some,
    openedAfter_partsFrom]
  exact shows_iff.mp (htail slashes hslashes)

/-! ## Text between tags -/

theorem exists_erase_append (inner : List Text) (name : Text) (opened : List Text) :
    ∃ left, (inner ++ name :: opened).erase name = left ++ opened := by
  by_cases hmem : name ∈ inner
  · exact ⟨inner.erase name ++ [name], by rw [List.erase_append_left _ hmem, List.append_assoc]; rfl⟩
  · exact ⟨inner, by rw [List.erase_append_right _ hmem, List.erase_cons_head]⟩

/-- A text without a closing tag can be shown between the tags of a style, in front of a text that can be shown whatever
styles are open besides. -/
theorem Shows.between (hstyle : isStyleName style = true) (h : ¬ HasClosing text)
    (hmore : ∀ inner, Shows normalForm (inner ++ opened) more) :
    Shows normalForm opened ('[' :: (style ++ ']' :: (text ++ (closingTag style ++ more)))) := by
  refine .opening hstyle ?_
  obtain ⟨inner, hinner⟩ := openedAfter_of_not_hasClosing (normalForm style :: opened) 0 h
  refine shows_append (opensBrackets_cons _) hinner fun slashes hslashes => ?_
  have hmem : normalForm style ∈ inner ++ normalForm style :: opened :=
    List.mem_append_right _ List.mem_cons_self
  -- the text may have opened the style once more, and then one of the two is left
  refine .closing hstyle hslashes hmem ?_ ?_
  · have hopen := hmore (inner ++ [normalForm style])
    rwa [List.append_assoc] at hopen
  · obtain ⟨left, hleft⟩ := exists_erase_append inner (normalForm style) opened
    rw [hleft]
    exact hmore left

theorem shows_styled (hstyle : isStyleName style = true) (h : ¬ HasClosing text) :
    Shows normalForm opened ('[' :: (style ++ ']' :: (text ++ closingTag style))) := by
  have hshows : Shows normalForm opened ('[' :: (style ++ ']' :: (text ++ (closingTag style ++ [])))) :=
    .between hstyle h fun inner => .nil _
  rwa [List.append_nil] at hshows

/-! ## Neutral text -/

/-- Backslashes in front of a character that is neither one nor a bracket are text. -/
theorem Shows.slashes_append {c : Char} (hslashes : ∀ c ∈ slashes, c = '\\') (hc : c ≠ '[' ∧ c ≠ '\\')
    (h : Shows normalForm opened (c :: rest)) : Shows normalForm opened (slashes ++ c :: rest) := by
  induction slashes with
  | nil => exact h
  | cons slash slashes ih =>
    obtain ⟨rfl, hrest⟩ := List.forall_mem_cons.mp hslashes
    -- behind the backslashes stands no bracket, so no tag starts at any of them
    have hnone : ¬ StartsWithTag ('\\' :: (slashes ++ c :: rest)) := by
      rintro ⟨after, body, hafter, -⟩
      have hspan : ('\\' :: slashes ++ c :: rest).dropWhile (· == '\\') = c :: rest :=
        Text.dropWhile_eq_of_forall (fun c hc => by simpa using hslashes c hc) (by simpa using hc.2)
      rw [← List.cons_append, hspan] at hafter
      exact hc.1 (List.cons.inj hafter).1
    intro offset
    rw [List.cons_append]
    rcases partsFrom_cons offset hnone with hparts | ⟨after, -, hafter, -⟩
    · rw [hparts]
      exact ih hrest _
    · -- the next character is a backslash or the one behind them, but no bracket
      cases slashes with
      | nil => exact absurd (List.cons.inj hafter).1 hc.1
      | cons slash slashes =>
        obtain ⟨rfl, -⟩ := List.cons.inj hafter
        cases hrest _ List.mem_cons_self

/-- Whether a text leaves the open styles as they are, and can be shown wherever what follows it can. -/
def IsNeutral (text : Text) : Prop :=
  ∀ normalForm opened rest, Shows normalForm opened rest → Shows normalForm opened (text ++ rest)

namespace IsNeutral

theorem plain (h : isPlain text = true) : IsNeutral text :=
  fun _ _ _ hrest => .plain_append text (forall_of_isPlain h).1 hrest

theorem marked (hstyle : isStyleName style = true) (h : isPlain text = true) :
    IsNeutral ('[' :: (style ++ ']' :: (text ++ closingTag style))) := by
  intro normalForm opened rest hrest
  have hshows := Shows.marked hstyle text (forall_of_isPlain h).1 hrest
  simpa using hshows

theorem append (hfront : IsNeutral front) (h : IsNeutral text) : IsNeutral (front ++ text) := by
  intro normalForm opened rest hrest
  rw [List.append_assoc]
  exact hfront _ _ _ (h _ _ _ hrest)

theorem join {separator : Text} (hseparator : IsNeutral separator) {lines : List Text}
    (h : ∀ line ∈ lines, IsNeutral line) : IsNeutral (Text.join separator lines) := by
  induction lines with
  | nil => exact fun _ _ _ hrest => hrest
  | cons line lines ih =>
    obtain ⟨hline, hlines⟩ := List.forall_mem_cons.mp h
    cases lines with
    | nil =>
      show IsNeutral (line ++ [])
      rwa [List.append_nil]
    | cons next lines => exact hline.append (hseparator.append (ih hlines))

theorem shows (h : IsNeutral text) (opened : List Text) : Shows normalForm opened text := by
  have hshows := h normalForm opened [] (.nil opened)
  rwa [List.append_nil] at hshows

end IsNeutral

end ComponentKit.Console
