import ComponentKit.Console.Markup
import ComponentKit.Proofs.Result
import ComponentKit.Proofs.Text.Span

/-!
# The parts of marked-up text

`parts` reads a text as running text, as tags, and as pieces behind backslashes. What becomes of the parts is told
by two functions, each for itself: `openedAfter` has the styles that are open behind them, if every closing tag
finds one to close, and `written` has their characters. `showParts` fails where `openedAfter` does, and else shows
what is written. Codes make no difference to the open styles, so that they keep nothing from being shown.
-/

namespace ComponentKit.Console

open Text

variable {text rest tail body more after slashes shown run : Text} {opened : List Text} {items others : List Part}
  {c : Char} {offset : Nat} {normalForm : Text → Text} {code? : Text → Option Text} {theme : Theme}

/-! ## Tags -/

/-- The inside of a tag is what stands in front of the first bracket, which closes it. -/
theorem tagBody?_eq_some : tagBody? text = some body ↔
    (∃ more, text = body ++ ']' :: more) ∧ (∀ c ∈ body, c ≠ ']' ∧ c ≠ '[') ∧
      body.head?.any startsTag = true := by
  have hspan : ∀ {body : Text}, (∀ c ∈ body, c ≠ ']' ∧ c ≠ '[') →
      ∀ more, (body ++ ']' :: more).takeWhile (fun c => c != ']' && c != '[') = body := by
    intro body hbody more
    refine takeWhile_eq_of_forall (fun c hc => ?_) (by simp)
    simpa using hbody c hc
  constructor
  -- the span in front of the first bracket is the body, if this bracket closes and the span can start a
  -- tag
  · intro h
    rw [tagBody?] at h
    generalize hspanned : text.takeWhile (fun c => c != ']' && c != '[') = span at h
    have hplain : ∀ c ∈ span, c ≠ ']' ∧ c ≠ '[' := by
      intro c hc
      rw [← hspanned] at hc
      simpa using List.mem_takeWhile_imp hc
    have htext : text = span ++ text.drop span.length := by
      rw [← hspanned, drop_length_takeWhile, List.takeWhile_append_dropWhile]
    split at h
    · rename_i first others _ more hdrop
      split at h
      · rename_i hstarts
        obtain rfl := Option.some.inj h
        exact ⟨⟨more, by rw [← hdrop]; exact htext⟩, hplain, by simpa using hstarts⟩
      · cases h
    · cases h
  · rintro ⟨⟨more, rfl⟩, hplain, hstarts⟩
    have hdrop : (body ++ ']' :: more).drop body.length = ']' :: more := List.drop_left
    rw [tagBody?, hspan hplain]
    cases body with
    | nil => cases hstarts
    | cons first others =>
      rw [hdrop]
      exact if_pos (by simpa using hstarts)

/-- Whether a text starts with a tag that `tagBody?` finds, maybe behind backslashes. -/
def StartsWithTag (text : Text) : Prop :=
  ∃ after body, text.dropWhile (· == '\\') = '[' :: after ∧ tagBody? after = some body

theorem startsWithTag_slash : StartsWithTag ('\\' :: text) ↔ StartsWithTag text := by
  rw [StartsWithTag, List.dropWhile_cons_of_pos (by rfl)]
  exact Iff.rfl

theorem startsWithTag_cons (hc : c ≠ '\\') :
    StartsWithTag (c :: rest) ↔ c = '[' ∧ ∃ body, tagBody? rest = some body := by
  rw [StartsWithTag, List.dropWhile_cons_of_neg (by simpa using hc)]
  constructor
  · rintro ⟨after, body, h, hbody⟩
    obtain ⟨rfl, rfl⟩ := List.cons.inj h
    exact ⟨rfl, body, hbody⟩
  · rintro ⟨rfl, body, hbody⟩
    exact ⟨rest, body, rfl, hbody⟩

theorem not_startsWithTag_of_notMem (h : '[' ∉ text) : ¬ StartsWithTag text := by
  rintro ⟨after, body, hafter, -⟩
  exact h ((List.dropWhile_suffix _).subset (hafter ▸ List.mem_cons_self))

/-! ## Backslashes in front of a tag -/

theorem takeWhile_slashes (hslashes : ∀ c ∈ slashes, c = '\\') (rest : Text) :
    (slashes ++ '[' :: rest).takeWhile (· == '\\') = slashes :=
  takeWhile_eq_of_forall (fun c hc => by simpa using hslashes c hc) (by simp)

theorem drop_tag (slashes body more : Text) :
    (slashes ++ '[' :: (body ++ ']' :: more)).drop (slashes.length + body.length + 2) = more := by
  have hsplit : slashes ++ '[' :: (body ++ ']' :: more) = (slashes ++ '[' :: body ++ [']']) ++ more := by simp
  rw [hsplit]
  exact List.drop_left' (by simp; omega)

theorem exists_cons_slashes (slashes rest : Text) : ∃ c more, slashes ++ '[' :: rest = c :: more :=
  List.exists_cons_of_ne_nil (List.append_ne_nil_of_right_ne_nil _ (List.cons_ne_nil _ _))

/-- A text that starts with a tag is the backslashes, the tag and what follows it. -/
theorem exists_tag (h : StartsWithTag text) : ∃ slashes body more,
    text = slashes ++ '[' :: (body ++ ']' :: more) ∧ (∀ c ∈ slashes, c = '\\') ∧
      tagBody? (body ++ ']' :: more) = some body := by
  obtain ⟨after, body, hafter, hbody⟩ := h
  obtain ⟨⟨more, rfl⟩, -⟩ := tagBody?_eq_some.mp hbody
  refine ⟨text.takeWhile (· == '\\'), body, more, ?_, fun c hc => ?_, hbody⟩
  · rw [← hafter, List.takeWhile_append_dropWhile]
  · simpa using List.mem_takeWhile_imp hc

/-! ## From part to part -/

/-- Of the backslashes in front of a tag every two show one; behind an odd number of them the tag is text. -/
theorem partsFrom_tag (offset : Nat) (hslashes : ∀ c ∈ slashes, c = '\\')
    (hbody : tagBody? (body ++ ']' :: more) = some body) :
    partsFrom offset (slashes ++ '[' :: (body ++ ']' :: more))
      = .text (List.replicate (slashes.length / 2) '\\')
        :: (if slashes.length % 2 = 1 then .text ('[' :: body ++ [']'])
          else tagPart body (offset + slashes.length))
        :: partsFrom (offset + (slashes.length + body.length + 2)) more := by
  have hspan := takeWhile_slashes hslashes (body ++ ']' :: more)
  have hdrop : (slashes ++ '[' :: (body ++ ']' :: more)).drop slashes.length
      = '[' :: (body ++ ']' :: more) := List.drop_left
  have hmore := drop_tag slashes body more
  obtain ⟨c, rest, htext⟩ := exists_cons_slashes slashes (body ++ ']' :: more)
  rw [htext] at hspan hdrop hmore ⊢
  -- the function reads the backslashes and the tag at once; the rest is at the offset behind both
  rw [partsFrom, hspan]
  simp only [hdrop, hbody]
  exact congrArg (fun rest => _ :: _ :: partsFrom _ rest) hmore

/-- A character in front of which no tag starts is text. A single backslash in front of a bracket vanishes
with it. -/
theorem partsFrom_cons (offset : Nat) (h : ¬ StartsWithTag (c :: rest)) :
    partsFrom offset (c :: rest) = .letter c :: partsFrom (offset + 1) rest ∨
      ∃ after, c = '\\' ∧ rest = '[' :: after ∧
        partsFrom offset (c :: rest) = .letter '[' :: partsFrom (offset + 2) after := by
  rw [partsFrom, drop_length_takeWhile]
  split
  · rename_i after hafter
    split
    · rename_i body hbody
      exact absurd ⟨after, body, hafter, hbody⟩ h
    · split
      -- one backslash in front of a bracket that starts no tag
      · rename_i hsingle
        refine .inr ⟨after, ?_⟩
        obtain ⟨slash, hslash⟩ := List.length_eq_one_iff.mp hsingle
        have hmem : slash ∈ (c :: rest).takeWhile (· == '\\') := by
          rw [hslash]
          exact List.mem_cons_self
        have htext : c :: rest = slash :: '[' :: after := by
          rw [← List.takeWhile_append_dropWhile (p := (· == '\\')) (l := c :: rest), hslash, hafter]
          rfl
        obtain ⟨rfl, rfl⟩ := List.cons.inj htext
        exact ⟨by simpa using List.mem_takeWhile_imp hmem, rfl, rfl⟩
      · exact .inl rfl
  · exact .inl rfl

/-- Where nothing is escaped and no tag starts, a character is text. -/
theorem partsFrom_plain (offset : Nat) (htag : ¬ StartsWithTag (c :: rest))
    (hescaped : ∀ after, c :: rest ≠ '\\' :: '[' :: after) :
    partsFrom offset (c :: rest) = .letter c :: partsFrom (offset + 1) rest := by
  rcases partsFrom_cons offset htag with hparts | ⟨after, rfl, rfl, -⟩
  · exact hparts
  · exact absurd rfl (hescaped after)

/-- A backslash in front of a bracket vanishes. -/
theorem partsFrom_escaped (offset : Nat) (htag : ¬ StartsWithTag ('\\' :: '[' :: after)) :
    partsFrom offset ('\\' :: '[' :: after) = .letter '[' :: partsFrom (offset + 2) after := by
  have hnone : tagBody? after = none := by
    rw [startsWithTag_slash, startsWithTag_cons (by decide)] at htag
    exact Option.eq_none_iff_forall_ne_some.mpr fun body hbody => htag ⟨rfl, body, hbody⟩
  rw [partsFrom]
  simp [hnone]

/-- What holds of the empty text and stays when a part is put in front of a text holds of every text. -/
@[elab_as_elim]
theorem induction_on_parts {motive : Text → Prop} (text : Text) (nil : motive [])
    (tag : ∀ slashes body more, (∀ c ∈ slashes, c = '\\') → tagBody? (body ++ ']' :: more) = some body →
      motive more → motive (slashes ++ '[' :: (body ++ ']' :: more)))
    (escaped : ∀ after, ¬ StartsWithTag ('\\' :: '[' :: after) → motive after →
      motive ('\\' :: '[' :: after))
    (plain : ∀ c rest, ¬ StartsWithTag (c :: rest) → (∀ after, c :: rest ≠ '\\' :: '[' :: after) →
      motive rest → motive (c :: rest)) : motive text := by
  -- on the length, as a tag and an escaped bracket are taken off as a whole
  induction hn : text.length using Nat.strong_induction_on generalizing text with
  | _ n ih =>
    subst hn
    by_cases htag : StartsWithTag text
    · obtain ⟨slashes, body, more, rfl, hslashes, hbody⟩ := exists_tag htag
      refine tag slashes body more hslashes hbody (ih more.length ?_ more rfl)
      simp only [List.length_append, List.length_cons]
      omega
    · cases text with
      | nil => exact nil
      | cons c rest =>
        by_cases hescaped : ∃ after, c :: rest = '\\' :: '[' :: after
        · obtain ⟨after, h⟩ := hescaped
          rw [h] at htag ih ⊢
          exact escaped after htag (ih after.length (by simp only [List.length_cons]; omega) after rfl)
        · exact plain c rest htag (not_exists.mp hescaped) (ih rest.length (Nat.lt_succ_self _) rest rfl)

/-! ## Open styles -/

/-- The styles that are open behind some parts, innermost first. None if a closing tag finds no style to close. -/
def openedAfter (normalForm : Text → Text) (opened : List Text) : List Part → Option (List Text)
  | [] => some opened
  | .letter _ :: rest => openedAfter normalForm opened rest
  | .text _ :: rest => openedAfter normalForm opened rest
  | .opening style :: rest => openedAfter normalForm (normalForm style :: opened) rest
  | .closing [] _ _ :: rest =>
    match opened with
    | [] => none
    | _ :: outer => openedAfter normalForm outer rest
  | .closing (c :: style) _ _ :: rest =>
    if normalForm (c :: style) ∈ opened then openedAfter normalForm (opened.erase (normalForm (c :: style))) rest
    else none

theorem openedAfter_append :
    openedAfter normalForm opened (items ++ others)
      = (openedAfter normalForm opened items).bind (openedAfter normalForm · others) := by
  induction items generalizing opened with
  | nil => rfl
  | cons part items ih =>
    cases part with
    | letter c => exact ih
    | text text => exact ih
    | opening style => exact ih
    | closing style offset written =>
      cases style with
      | nil =>
        cases opened with
        | nil => rfl
        | cons style outer => exact ih
      | cons c style =>
        rw [List.cons_append, openedAfter, openedAfter]
        split
        · exact ih
        · rfl

/-- Where a tag stands does not matter. -/
theorem openedAfter_tagPart (h : ∀ opened, openedAfter normalForm opened items = openedAfter normalForm opened others)
    (offset start : Nat) :
    openedAfter normalForm opened (tagPart body offset :: items)
      = openedAfter normalForm opened (tagPart body start :: others) := by
  rw [tagPart, tagPart]
  split
  · rename_i style _
    generalize Text.trim style = name
    cases name with
    | nil =>
      cases opened with
      | nil => rfl
      | cons style outer => exact h outer
    | cons c name =>
      rw [openedAfter, openedAfter]
      split
      · exact h _
      · rfl
  · exact h _

theorem openedAfter_partsFrom (opened : List Text) (offset : Nat) (text : Text) :
    openedAfter normalForm opened (partsFrom offset text) = openedAfter normalForm opened (Console.parts text) := by
  rw [Console.parts]
  -- the induction needs any two offsets
  generalize 0 = start
  induction text using induction_on_parts generalizing opened offset start with
  | nil => rw [partsFrom, partsFrom]
  | tag slashes body more hslashes hbody ih =>
    rw [partsFrom_tag offset hslashes hbody, partsFrom_tag start hslashes hbody, openedAfter, openedAfter]
    split
    · exact ih _ _ _
    · exact openedAfter_tagPart (fun opened => ih opened _ _) _ _
  | escaped after htag ih =>
    rw [partsFrom_escaped offset htag, partsFrom_escaped start htag]
    exact ih _ _ _
  | plain c rest htag hescaped ih =>
    rw [partsFrom_plain offset htag hescaped, partsFrom_plain start htag hescaped]
    exact ih _ _ _

/-! ## What is written -/

/-- The characters of parts, without those of tags. -/
def written : List Part → Text
  | [] => []
  | .letter c :: rest => c :: written rest
  | .text text :: rest => text ++ written rest
  | .opening _ :: rest => written rest
  | .closing _ _ _ :: rest => written rest

theorem written_tagPart : written (tagPart body offset :: items) = written items := by
  rw [tagPart]
  split <;> rfl

/-- Parts can be shown exactly if each of their closing tags has a style to close; then what is written is shown, but
for what moves the cursor. -/
theorem showParts_eq_ok : showParts normalForm opened items = .ok shown ↔
    (∃ after, openedAfter normalForm opened items = some after) ∧
      shown = (written items).filter (!isCursorControl ·) := by
  induction items generalizing opened shown with
  | nil => simp [showParts, openedAfter, written, eq_comm]
  | cons part items ih =>
    cases part with
    | letter c =>
      have hfilter := List.filter_append (p := (!isCursorControl ·)) [c] (written items)
      rw [List.singleton_append] at hfilter
      simp only [showParts, openedAfter, written, map_eq_ok, ih, hfilter]
      exact ⟨fun ⟨_, ⟨hopened, rfl⟩, h⟩ => ⟨hopened, h.symm⟩, fun ⟨hopened, h⟩ => ⟨_, ⟨hopened, rfl⟩, h.symm⟩⟩
    | text text =>
      simp only [showParts, openedAfter, written, map_eq_ok, ih, List.filter_append]
      exact ⟨fun ⟨_, ⟨hopened, rfl⟩, h⟩ => ⟨hopened, h.symm⟩, fun ⟨hopened, h⟩ => ⟨_, ⟨hopened, rfl⟩, h.symm⟩⟩
    | opening style => exact ih
    | closing style offset mark =>
      -- a tag without a name closes the innermost style, another one its own
      cases style with
      | nil =>
        cases opened with
        | nil => simp [showParts, openedAfter]
        | cons style outer => exact ih
      | cons c style =>
        rw [showParts, openedAfter]
        simp only [List.contains_iff_mem]
        split
        · exact ih
        · simp

/-! ## Codes -/

theorem openedAfter_replaceIn :
    openedAfter normalForm opened (replaceIn code? run items) = openedAfter normalForm opened items := by
  induction items generalizing run opened with
  | nil => rfl
  | cons part items ih =>
    cases part with
    | letter c => exact ih
    | text text => exact ih
    | opening style => exact ih
    | closing style offset mark =>
      cases style with
      | nil =>
        cases opened with
        | nil => rfl
        | cons style outer => exact ih
      | cons c style =>
        show openedAfter normalForm opened
          (.text _ :: .closing (c :: style) offset mark :: replaceIn code? [] items) = _
        rw [openedAfter, openedAfter, openedAfter]
        split
        · exact ih
        · rfl

theorem render_eq_ok : render theme text = .ok shown ↔
    (∃ after, openedAfter theme.normalForm [] (parts text) = some after) ∧
      shown = (written (replaceIn theme.code? [] (parts text))).filter (!isCursorControl ·) := by
  rw [render, showParts_eq_ok, openedAfter_replaceIn]

end ComponentKit.Console
