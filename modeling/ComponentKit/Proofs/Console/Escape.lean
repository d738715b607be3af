import ComponentKit.Proofs.Console.Parts
import ComponentKit.Session.Report

/-!
# Messages can be shown

A tag in escaped text has an odd number of backslashes in front of it, so that all parts of such a text are text.
Only a closing tag can keep marked-up text from being shown, and the tags that `decorate` puts around a message
close what they have opened: they do so, or are text themselves, whatever backslashes the message ends with. So
every message can be shown (`Message.exists_printed`).
-/

namespace ComponentKit.Console

open Text

variable {text rest tail body more slashes plain style : Text} {opened : List Text} {c : Char} {offset : Nat}
  {normalForm : Text → Text}

/-! ## Escaping -/

theorem forall_doubled (hslashes : ∀ c ∈ slashes, c = '\\') :
    ∀ c ∈ slashes ++ slashes ++ ['\\'], c = '\\' := by
  intro c hc
  simp only [List.mem_append, List.mem_singleton, or_self] at hc
  exact hc.elim (hslashes c) id

/-- In front of a tag all backslashes are doubled, and there is one more. -/
theorem escapeTags_tag (hslashes : ∀ c ∈ slashes, c = '\\') (hbody : tagBody? (body ++ ']' :: more) = some body) :
    escapeTags (slashes ++ '[' :: (body ++ ']' :: more))
      = slashes ++ slashes ++ '\\' :: '[' :: body ++ ']' :: escapeTags more := by
  have hspan := takeWhile_slashes hslashes (body ++ ']' :: more)
  have hdrop : (slashes ++ '[' :: (body ++ ']' :: more)).drop slashes.length
      = '[' :: (body ++ ']' :: more) := List.drop_left
  have hmore := drop_tag slashes body more
  -- for the equation of the function, which takes the first character off
  obtain ⟨c, rest, htext⟩ := exists_cons_slashes slashes (body ++ ']' :: more)
  rw [htext] at hspan hdrop hmore ⊢
  have hbehind : rest.drop (slashes.length + body.length + 1) = more := hmore
  -- the backslashes, the bracket and the body are written, and the scan goes on behind them
  rw [escapeTags, hspan]
  simp only [hdrop, hbody, hbehind]

/-- A character in front of which no tag starts stays as it is. -/
theorem escapeTags_cons (h : ¬ StartsWithTag (c :: rest)) : escapeTags (c :: rest) = c :: escapeTags rest := by
  rw [escapeTags, drop_length_takeWhile]
  split
  · rename_i after hafter
    split
    · rename_i body hbody
      exact absurd ⟨after, body, hafter, hbody⟩ h
    · rfl
  · rfl

/-- A text has only one first bracket. -/
theorem append_opening_ne (hslashes : ∀ c ∈ slashes, c = '\\') (hbody : ∀ c ∈ body, c ≠ ']' ∧ c ≠ '[') :
    slashes ++ '[' :: rest ≠ body ++ ']' :: more := by
  intro h
  have hfirst := congrArg (List.dropWhile fun c => c != ']' && c != '[') h
  rw [dropWhile_eq_of_forall (fun c hc => by rw [hslashes c hc]; rfl) (by simp),
    dropWhile_eq_of_forall (fun c hc => by simpa using hbody c hc) (by simp)] at hfirst
  cases hfirst

/-- Escaping changes nothing in front of the first bracket, if this one closes. -/
theorem eq_append_of_escapeTags (hbody : ∀ c ∈ body, c ≠ ']' ∧ c ≠ '[')
    (h : escapeTags text = body ++ ']' :: more) : ∃ more, text = body ++ ']' :: more := by
  induction text generalizing body with
  | nil =>
    have := congrArg List.length h
    simp [escapeTags] at this
  | cons c rest ih =>
    by_cases htag : StartsWithTag (c :: rest)
    · obtain ⟨slashes, inside, behind, htext, hslashes, hinside⟩ := exists_tag htag
      rw [htext, escapeTags_tag hslashes hinside] at h
      have hne : slashes ++ slashes ++ ['\\'] ++ '[' :: (inside ++ ']' :: escapeTags behind)
          ≠ body ++ ']' :: more := append_opening_ne (forall_doubled hslashes) hbody
      -- an escaped tag has an opening bracket in front of its first closing one
      refine absurd ?_ hne
      rw [← h]
      simp
    · rw [escapeTags_cons htag] at h
      cases body with
      | nil => exact ⟨rest, by rw [(List.cons.inj h).1]; rfl⟩
      | cons d body =>
        obtain ⟨rfl, hrest⟩ := List.cons.inj h
        obtain ⟨more, rfl⟩ := ih (List.forall_mem_cons.mp hbody).2 hrest
        exact ⟨more, rfl⟩

/-- Whether an opening bracket stands in front of every closing one, so that no tag reaches into the text. -/
def OpensBrackets (text : Text) : Prop :=
  ∀ body more, text = body ++ ']' :: more → '[' ∈ body

theorem OpensBrackets.nil : OpensBrackets [] := by
  intro body more h
  simp at h

/-- A closing bracket in front of which none opens does not stand in such a text. -/
theorem OpensBrackets.exists_append (h : OpensBrackets tail) (hbody : '[' ∉ body)
    (hmore : text ++ tail = body ++ ']' :: more) : ∃ front, text = body ++ ']' :: front := by
  rcases List.append_eq_append_iff.mp hmore with ⟨middle, hm, htl⟩ | ⟨middle, hm, htl⟩
  · -- in the tail an opening one would stand in front of it
    exact absurd (hm ▸ List.mem_append_right _ (h _ _ htl)) hbody
  · cases middle with
    | nil => exact absurd (h [] more htl.symm) List.not_mem_nil
    | cons d middle =>
      obtain ⟨rfl, -⟩ := List.cons.inj htl
      exact ⟨middle, hm⟩

/-- No tag that starts in a text ends in a text that opens brackets. -/
theorem tagBody?_of_append (htail : OpensBrackets tail) (h : tagBody? (text ++ tail) = some body) :
    tagBody? text = some body := by
  obtain ⟨⟨more, hmore⟩, hplain, hstarts⟩ := tagBody?_eq_some.mp h
  exact tagBody?_eq_some.mpr ⟨htail.exists_append (fun hmem => (hplain _ hmem).2 rfl) hmore, hplain, hstarts⟩

/-- Escaping makes no tag: one that starts in front of an escaped text is behind the backslashes that this
text consists of. -/
theorem slashes_of_startsWithTag (htail : OpensBrackets tail) (h : ¬ StartsWithTag text)
    (htag : StartsWithTag (escapeTags text ++ tail)) : ∀ c ∈ text, c = '\\' := by
  induction text with
  | nil => exact fun c hc => (List.not_mem_nil hc).elim
  | cons c rest ih =>
    rw [escapeTags_cons h, List.cons_append] at htag
    by_cases hc : c = '\\'
    · subst hc
      rw [startsWithTag_slash] at h htag
      exact List.forall_mem_cons.mpr ⟨rfl, ih h htag⟩
    -- escaping keeps all brackets, so a tag of the escaped text would be one of the text
    · exfalso
      rw [startsWithTag_cons hc] at h htag
      obtain ⟨rfl, body, hbody⟩ := htag
      obtain ⟨⟨more, hmore⟩, hplain, hstarts⟩ := tagBody?_eq_some.mp (tagBody?_of_append htail hbody)
      obtain ⟨more, hrest⟩ := eq_append_of_escapeTags hplain hmore
      exact h ⟨rfl, body, tagBody?_eq_some.mpr ⟨⟨more, hrest⟩, hplain, hstarts⟩⟩

/-- Backslashes alone are not escaped. -/
theorem escapeTags_slashes (h : ∀ c ∈ text, c = '\\') : escapeTags text = text := by
  induction text with
  | nil => rw [escapeTags]
  | cons c rest ih =>
    have hnone : ¬ StartsWithTag (c :: rest) := not_startsWithTag_of_notMem fun hmem => by cases h '[' hmem
    rw [escapeTags_cons hnone, ih (List.forall_mem_cons.mp h).2]

/-! ## Showing -/

/-- Whether a marked-up text can be shown where some styles are open, innermost first: there is an `openedAfter` it.
-/
def Shows (normalForm : Text → Text) (opened : List Text) (text : Text) : Prop :=
  ∀ offset, ∃ after, openedAfter normalForm opened (partsFrom offset text) = some after

/-- Text without brackets and backslashes is running text in front of the rest. -/
theorem partsFrom_plain_append (hplain : ∀ c ∈ plain, c ≠ '[' ∧ c ≠ '\\') (offset : Nat) (rest : Text) :
    partsFrom offset (plain ++ rest) = plain.map .letter ++ partsFrom (offset + plain.length) rest := by
  induction plain generalizing offset with
  | nil => rfl
  | cons c plain ih =>
    obtain ⟨⟨hbracket, hslash⟩, hmore⟩ := List.forall_mem_cons.mp hplain
    have hnone : ¬ StartsWithTag (c :: (plain ++ rest)) :=
      fun htag => hbracket ((startsWithTag_cons hslash).mp htag).1
    have hlength : offset + 1 + plain.length = offset + (c :: plain).length := by
      rw [List.length_cons]
      omega
    -- no tag starts at a plain character, nor is it a backslash
    rcases partsFrom_cons offset hnone with hparts | ⟨-, hc, -⟩
    · rw [List.cons_append, hparts, ih hmore, hlength]
      rfl
    · exact absurd hc hslash

theorem openedAfter_letters (plain : Text) (items : List Part) :
    openedAfter normalForm opened (plain.map .letter ++ items) = openedAfter normalForm opened items := by
  induction plain with
  | nil => rfl
  | cons c plain ih => exact ih

theorem openedAfter_plain_append (hplain : ∀ c ∈ plain, c ≠ '[' ∧ c ≠ '\\') (rest : Text) :
    openedAfter normalForm opened (partsFrom offset (plain ++ rest))
      = openedAfter normalForm opened (partsFrom (offset + plain.length) rest) := by
  rw [partsFrom_plain_append hplain, openedAfter_letters]

/-- Whether a text has no brackets that open, no backslashes, and nothing that moves the cursor. -/
def isPlain (text : Text) : Bool :=
  text.all fun c => c != '[' && c != '\\' && !isCursorControl c

theorem forall_of_isPlain (h : isPlain text = true) :
    (∀ c ∈ text, c ≠ '[' ∧ c ≠ '\\') ∧ ∀ c ∈ text, isCursorControl c = false := by
  simp only [isPlain, List.all_eq_true, Bool.and_eq_true, bne_iff_ne, Bool.not_eq_true'] at h
  exact ⟨fun c hc => (h c hc).1, fun c hc => (h c hc).2⟩

namespace Shows

theorem nil (opened : List Text) : Shows normalForm opened [] :=
  fun offset => ⟨opened, by rw [partsFrom]; rfl⟩

theorem plain_append (plain : Text) (hplain : ∀ c ∈ plain, c ≠ '[' ∧ c ≠ '\\') (h : Shows normalForm opened rest) :
    Shows normalForm opened (plain ++ rest) := by
  intro offset
  rw [openedAfter_plain_append hplain]
  exact h _

/-- A text without opening brackets has no tags. -/
theorem of_forall (h : ∀ c ∈ text, c ≠ '[') : Shows normalForm opened text := by
  induction text with
  | nil => exact nil opened
  | cons c rest ih =>
    have hnone : ¬ StartsWithTag (c :: rest) := not_startsWithTag_of_notMem fun hmem => h '[' hmem rfl
    intro offset
    rcases partsFrom_cons offset hnone with hparts | ⟨after, -, rfl, -⟩
    · rw [hparts]
      exact ih (List.forall_mem_cons.mp h).2 _
    · exact absurd rfl (h '[' (by simp))

end Shows

/-- Whether a text names a style in a tag. -/
def isStyleName (style : Text) : Bool :=
  style.head?.any (fun c => startsTag c && c != '/')
    && style.all (fun c => c != ']' && c != '[' && c != '=') && trim style == style

/-- The tag that closes a style. -/
def closingTag (style : Text) : Text :=
  '[' :: '/' :: (style ++ [']'])

section Styles

variable (hstyle : isStyleName style = true)

include hstyle

theorem exists_cons_of_isStyleName : ∃ c rest, style = c :: rest := by
  cases style with
  | nil => cases hstyle
  | cons c rest => exact ⟨c, rest, rfl⟩

theorem plain_of_isStyleName : ∀ c ∈ style, c ≠ ']' ∧ c ≠ '[' ∧ c ≠ '=' := by
  intro c hc
  simp only [isStyleName, Bool.and_eq_true, List.all_eq_true] at hstyle
  simpa [and_assoc] using hstyle.1.2 c hc

theorem tagPart_opening (offset : Nat) : tagPart style offset = .opening style := by
  have hname : style.takeWhile (· != '=') = style :=
    List.takeWhile_eq_self_iff.mpr fun c hc => by simpa using (plain_of_isStyleName hstyle c hc).2.2
  simp only [isStyleName, Bool.and_eq_true] at hstyle
  obtain ⟨⟨hhead, -⟩, -⟩ := hstyle
  simp only [tagPart, hname]
  split
  · cases hhead
  · rfl

theorem tagPart_closing (offset : Nat) :
    tagPart ('/' :: style) offset = .closing style offset (closingTag style) := by
  have hname : ('/' :: style).takeWhile (· != '=') = '/' :: style :=
    List.takeWhile_eq_self_iff.mpr fun c hc => by
      rcases List.mem_cons.mp hc with rfl | hc
      · rfl
      · simpa using (plain_of_isStyleName hstyle c hc).2.2
  simp only [isStyleName, Bool.and_eq_true, beq_iff_eq] at hstyle
  simp only [tagPart, hname, hstyle.2]
  rfl

theorem tagBody?_opening (more : Text) : tagBody? (style ++ ']' :: more) = some style := by
  refine tagBody?_eq_some.mpr ⟨⟨more, rfl⟩, fun c hc => ?_, ?_⟩
  · exact ⟨(plain_of_isStyleName hstyle c hc).1, (plain_of_isStyleName hstyle c hc).2.1⟩
  · simp only [isStyleName, Bool.and_eq_true] at hstyle
    cases style with
    | nil => exact hstyle.1.1
    | cons c style => exact (Bool.and_eq_true_iff.mp hstyle.1.1).1

theorem tagBody?_closing (more : Text) : tagBody? ('/' :: style ++ ']' :: more) = some ('/' :: style) := by
  refine tagBody?_eq_some.mpr ⟨⟨more, rfl⟩, fun c hc => ?_, by rfl⟩
  rcases List.mem_cons.mp hc with rfl | hc
  · decide
  · exact ⟨(plain_of_isStyleName hstyle c hc).1, (plain_of_isStyleName hstyle c hc).2.1⟩

/-- A tag with the name of a style opens it. -/
theorem partsFrom_opening (offset : Nat) (more : Text) :
    partsFrom offset ('[' :: (style ++ ']' :: more))
      = .text [] :: .opening style :: partsFrom (offset + (style.length + 2)) more := by
  have hparts := partsFrom_tag offset (List.forall_mem_nil _) (tagBody?_opening hstyle more)
  rw [List.nil_append] at hparts
  rw [hparts]
  simp only [List.length_nil, Nat.zero_mod, Nat.zero_ne_one, if_false, tagPart_opening hstyle, Nat.zero_add]
  rfl

/-- A tag with a slash in front of the name closes it. -/
theorem partsFrom_closing (offset : Nat) (more : Text) :
    partsFrom offset (closingTag style ++ more) = .text [] :: .closing style offset (closingTag style)
      :: partsFrom (offset + (style.length + 3)) more := by
  have hparts := partsFrom_tag offset (List.forall_mem_nil _) (tagBody?_closing hstyle more)
  have htext : closingTag style ++ more = '[' :: ('/' :: style ++ ']' :: more) := by simp [closingTag]
  rw [List.nil_append] at hparts
  rw [htext, hparts]
  simp only [List.length_nil, Nat.zero_mod, Nat.zero_ne_one, if_false, tagPart_closing hstyle, Nat.zero_add,
    List.length_cons]
  rfl

theorem openedAfter_opening (more : Text) :
    openedAfter normalForm opened (partsFrom offset ('[' :: (style ++ ']' :: more)))
      = openedAfter normalForm (normalForm style :: opened) (partsFrom (offset + (style.length + 2)) more) := by
  rw [partsFrom_opening hstyle]
  rfl

/-- A tag that closes an open style does so. -/
theorem openedAfter_closing (hmem : normalForm style ∈ opened) (offset : Nat) (mark : Text) (items : List Part) :
    openedAfter normalForm opened (.closing style offset mark :: items)
      = openedAfter normalForm (opened.erase (normalForm style)) items := by
  obtain ⟨c, rest, rfl⟩ := exists_cons_of_isStyleName hstyle
  rw [openedAfter, if_pos hmem]

theorem Shows.opening (h : Shows normalForm (normalForm style :: opened) more) :
    Shows normalForm opened ('[' :: (style ++ ']' :: more)) := by
  intro offset
  rw [openedAfter_opening hstyle]
  exact h _

/-- A tag that closes an open style does so, or it is text behind backslashes. -/
theorem Shows.closing (hslashes : ∀ c ∈ slashes, c = '\\') (hmem : normalForm style ∈ opened)
    (hopen : Shows normalForm opened more) (hclosed : Shows normalForm (opened.erase (normalForm style)) more) :
    Shows normalForm opened (slashes ++ (closingTag style ++ more)) := by
  intro offset
  have htext : slashes ++ (closingTag style ++ more) = slashes ++ '[' :: ('/' :: style ++ ']' :: more) := by
    simp [closingTag]
  rw [htext, partsFrom_tag offset hslashes (tagBody?_closing hstyle more), openedAfter]
  -- an odd number of backslashes makes the tag text, an even one leaves it
  split
  · exact hopen _
  · rw [tagPart_closing hstyle, openedAfter_closing hstyle hmem]
    exact hclosed _

/-- A plain text between the tags of a style can be shown in front of a text that can. -/
theorem Shows.marked (plain : Text) (hplain : ∀ c ∈ plain, c ≠ '[' ∧ c ≠ '\\') (h : Shows normalForm opened more) :
    Shows normalForm opened ('[' :: (style ++ ']' :: (plain ++ (closingTag style ++ more)))) := by
  intro offset
  rw [openedAfter_opening hstyle, openedAfter_plain_append hplain, partsFrom_closing hstyle, openedAfter,
    openedAfter_closing hstyle List.mem_cons_self, List.erase_cons_head]
  exact h _

end Styles

/-- Escaped text can be shown in front of a text that can be shown behind backslashes. -/
theorem shows_escapeTags (hopens : OpensBrackets tail)
    (htail : ∀ slashes, (∀ c ∈ slashes, c = '\\') → Shows normalForm opened (slashes ++ tail)) (text : Text) :
    Shows normalForm opened (escapeTags text ++ tail) := by
  -- on the length: a tag is escaped as a whole, with the backslashes in front of it
  induction hn : text.length using Nat.strong_induction_on generalizing text with
  | _ n ih =>
    subst hn
    by_cases hall : ∀ c ∈ text, c = '\\'
    · rw [escapeTags_slashes hall]
      exact htail text hall
    obtain ⟨c, rest, rfl⟩ := List.exists_cons_of_ne_nil (l := text) (by rintro rfl; simp at hall)
    intro offset
    by_cases htag : StartsWithTag (c :: rest)
    · obtain ⟨slashes, body, more, htext, hslashes, hbody⟩ := exists_tag htag
      have hbody' : tagBody? (body ++ ']' :: (escapeTags more ++ tail)) = some body :=
        tagBody?_eq_some.mpr ⟨⟨_, rfl⟩, (tagBody?_eq_some.mp hbody).2⟩
      have hodd : (slashes ++ slashes ++ ['\\']).length % 2 = 1 := by
        simp only [List.length_append, List.length_singleton]
        omega
      have hshorter : more.length < (c :: rest).length := by
        rw [htext]
        simp
        omega
      -- behind an odd number of backslashes the tag is text, and the rest is shown as before
      rw [htext, escapeTags_tag hslashes hbody, show slashes ++ slashes ++ '\\' :: '[' :: body ++ ']'
        :: escapeTags more ++ tail
        = slashes ++ slashes ++ ['\\'] ++ '[' :: (body ++ ']' :: (escapeTags more ++ tail)) by simp,
        partsFrom_tag offset (forall_doubled hslashes) hbody', if_pos hodd]
      exact ih _ hshorter more rfl _
    · -- no tag starts here, as the text is not all backslashes
      have hnone : ¬ StartsWithTag (c :: (escapeTags rest ++ tail)) := by
        intro h
        refine hall (slashes_of_startsWithTag hopens htag ?_)
        rwa [escapeTags_cons htag, List.cons_append]
      rw [escapeTags_cons htag, List.cons_append]
      rcases partsFrom_cons offset hnone with hparts | ⟨after, rfl, hafter, hparts⟩
      · rw [hparts]
        exact ih rest.length (by simp) rest rfl _
      · rw [hparts]
        rw [startsWithTag_slash] at htag
        -- the bracket is one of the text: it is escaped as it stands
        cases rest with
        | nil => simp at hall
        | cons d rest =>
          rw [escapeTags_cons htag, List.cons_append] at hafter
          obtain ⟨rfl, rfl⟩ := List.cons.inj hafter
          exact ih rest.length (by simp) rest rfl _

/-- The same of a text that is escaped as a whole. -/
theorem shows_escape (hopens : OpensBrackets tail)
    (htail : ∀ slashes, (∀ c ∈ slashes, c = '\\') → Shows normalForm opened (slashes ++ tail)) (text : Text) :
    Shows normalForm opened (escape text ++ tail) := by
  rw [escape]
  split
  · rw [List.append_assoc]
    refine shows_escapeTags ?_ (fun slashes hslashes => ?_) text
    · intro body more h
      cases body with
      | nil => cases h
      | cons c body => exact List.mem_cons_of_mem c (hopens body more (List.cons.inj h).2)
    · rw [← List.append_assoc]
      exact htail _ (by simpa [or_imp, forall_and] using hslashes)
  · exact shows_escapeTags hopens htail text

theorem shows_escaped (opened : List Text) (text : Text) : Shows normalForm opened (escape text) := by
  have hslashes : ∀ slashes : Text, (∀ c ∈ slashes, c = '\\') → Shows normalForm opened (slashes ++ []) := by
    intro slashes hslashes
    rw [List.append_nil]
    exact .of_forall fun c hc => by rw [hslashes c hc]; decide
  rw [← List.append_nil (escape text)]
  exact shows_escape .nil hslashes text

/-- The tag behind an escaped text closes its style, if the text does not make text of it. -/
theorem shows_escaped_closing (hstyle : isStyleName style = true) (opened : List Text) (text : Text) :
    Shows normalForm (normalForm style :: opened) (escape text ++ closingTag style) := by
  refine shows_escape (fun body more h => ?_) (fun slashes hslashes => ?_) text
  · cases body with
    | nil => cases h
    | cons c body =>
      obtain ⟨rfl, -⟩ := List.cons.inj h
      exact List.mem_cons_self
  · have hopen : normalForm style ∈ normalForm style :: opened := List.mem_cons_self
    have h := Shows.closing hstyle hslashes hopen (.nil _) (.nil _)
    rwa [List.append_nil] at h

end ComponentKit.Console

namespace ComponentKit

open Console

variable {normalForm : Text → Text}

/-- What the levels put around an escaped text closes the styles that it opens. -/
theorem shows_decorate (level : Level) (text : Text) : Shows normalForm [] (level.decorate (escape text)) := by
  have htext : Shows normalForm [] (' ' :: escape text) := .plain_append [' '] (by simp) (shows_escaped [] text)
  -- each level has a mark of its own in front, or a style around the whole message
  cases level with
  | step =>
    have h := Shows.marked (show isStyleName "cyan" by rfl) ">" (by simp) htext
    simpa [Level.decorate, Text.concat, closingTag] using h
  | success =>
    have h := Shows.plain_append "  " (by simp)
      (.marked (show isStyleName "green" by rfl) "+" (by simp) htext)
    simpa [Level.decorate, Text.concat, closingTag] using h
  | info =>
    have h : Shows normalForm [] ("  ".toList ++ escape text) := .plain_append _ (by simp) (shows_escaped [] text)
    simpa [Level.decorate, Text.concat] using h
  | warning =>
    have hmessage : Shows normalForm []
        (" ".toList ++ '[' :: ("yellow".toList ++ ']' :: (escape text ++ closingTag "yellow"))) :=
      .plain_append _ (by simp) (.opening (by rfl) (shows_escaped_closing (by rfl) _ _))
    have h := Shows.plain_append "  " (by simp)
      (.marked (show isStyleName "bold yellow" by rfl) "!" (by simp) hmessage)
    simpa [Level.decorate, Text.concat, closingTag] using h
  | error =>
    have h : Shows normalForm [] ('[' :: ("bold red".toList ++ ']' :: (escape text ++ closingTag "bold red"))) :=
      .opening (by rfl) (shows_escaped_closing (by rfl) [] text)
    simpa [Level.decorate, Text.concat, closingTag] using h
  | debug =>
    have h : Shows normalForm []
        ('[' :: ("dim".toList ++ ']' :: ("    ".toList ++ (escape text ++ closingTag "dim")))) :=
      .opening (by rfl) (.plain_append _ (by simp) (shows_escaped_closing (by rfl) [] text))
    simpa [Level.decorate, Text.concat, closingTag] using h

/-- A message can always be shown. -/
theorem Message.exists_printed (message : Message) (verbose : Bool) :
    ∃ shown, message.printed verbose = .ok shown := by
  rw [Message.printed]
  split
  · exact ⟨[], rfl⟩
  · have hshows : Shows Theme.basic.normalForm [] _ := shows_decorate message.level message.text
    have hrender := render_eq_ok.mpr ⟨hshows 0, rfl⟩
    exact ⟨_, by rw [Console.printed, shownLines, hrender]; rfl⟩

end ComponentKit
