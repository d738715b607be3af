import ComponentKit.Name.Validation
import Mathlib

/-!
# The words of a name

`words` reads a name one separator at a time, so blanks around and between the words do not matter. The words of an
accepted name are ASCII letters and digits; on these the two cases undo each other, and the hyphenated form of a
name is its own hyphenated form.
-/

namespace ComponentKit

theorem Text.join_cons_cons (separator first second : Text) (parts : List Text) :
    join separator (first :: second :: parts) = first ++ (separator ++ join separator (second :: parts)) :=
  rfl

namespace Name

open Text

variable {name : Text}

/-! ## Reading words -/

theorem foldr_pushCharacter_append (current : Text) (others : List Text) (x : Text) :
    x.foldr pushCharacter (current :: others) = x.foldr pushCharacter [current] ++ others ∧
      x.foldr pushCharacter [current] ≠ [] := by
  induction x with
  | nil => simp
  | cons c x ih =>
    obtain ⟨ih, hne⟩ := ih
    rw [List.foldr_cons, List.foldr_cons, ih]
    obtain ⟨w, ws, hw⟩ := List.exists_cons_of_ne_nil hne
    rw [hw, List.cons_append, pushCharacter, pushCharacter]
    split <;> simp

theorem foldr_pushCharacter_nil {x : Text} (hx : x ≠ []) :
    x.foldr pushCharacter [[]] = x.foldr pushCharacter [] := by
  rw [← List.dropLast_concat_getLast hx, List.foldr_append, List.foldr_append]
  congr 1

/-- At a separator the words fall into those in front of it and those behind it. -/
theorem words_append_separator {c : Char} (hc : isSeparator c = true) (x y : Text) :
    words (x ++ c :: y) = words x ++ words y := by
  -- the separator leaves an empty word in front, which is dropped at the end
  have hy : ∃ others, (c :: y).foldr pushCharacter [] = [] :: others ∧
      others.filter (!·.isEmpty) = words y := by
    rw [List.foldr_cons, words]
    cases hfold : y.foldr pushCharacter [] with
    | nil => exact ⟨[[]], by simp [pushCharacter, hc], by simp⟩
    | cons w ws => exact ⟨w :: ws, by simp [pushCharacter, hc], rfl⟩
  obtain ⟨others, hothers, hfilter⟩ := hy
  rw [words, List.foldr_append, hothers, (foldr_pushCharacter_append [] others x).1,
    List.filter_append, hfilter]
  -- with characters in front, the empty word that they are pushed on is no other start
  by_cases hx : x = []
  · subst hx
    simp [words]
  · rw [foldr_pushCharacter_nil hx, words, words]

theorem words_cons_separator {c : Char} (hc : isSeparator c = true) (y : Text) :
    words (c :: y) = words y := by
  simpa [words] using words_append_separator hc [] y

theorem words_eq_nil (h : ∀ c ∈ name, isSeparator c = true) : words name = [] := by
  induction name with
  | nil => rfl
  | cons c name ih =>
    rw [words_cons_separator (h c (by simp))]
    exact ih fun d hd => h d (by simp [hd])

/-- A text without separators is one word. -/
theorem words_of_forall {w : Text} (hw : w ≠ []) (h : ∀ c ∈ w, isSeparator c = false) :
    words w = [w] := by
  have hfold : w.foldr pushCharacter [] = [w] := by
    induction w with
    | nil => exact absurd rfl hw
    | cons c w ih =>
      have hc : isSeparator c = false := h c (by simp)
      cases w with
      | nil => simp [pushCharacter, hc]
      | cons d w =>
        rw [List.foldr_cons, ih (by simp) fun e he => h e (by simp [List.mem_cons.mp he])]
        simp [pushCharacter, hc]
  have hempty : w.isEmpty = false := by simpa using hw
  simp [words, hfold, hempty]

/-- A word is not empty, and has characters of the name that separate nothing. -/
theorem mem_words {w : Text} (h : w ∈ words name) :
    w ≠ [] ∧ ∀ c ∈ w, c ∈ name ∧ isSeparator c = false := by
  obtain ⟨hw, hne⟩ := List.mem_filter.mp h
  refine ⟨by simpa using hne, ?_⟩
  clear h hne
  induction name generalizing w with
  | nil => simp at hw
  | cons d name ih =>
    rw [List.foldr_cons] at hw
    -- the fold has pushed the characters behind: a new one goes in front of the first word or starts one
    cases hfold : name.foldr pushCharacter [] with
    | nil =>
      rw [hfold, pushCharacter] at hw
      cases hd : isSeparator d <;> simp [hd] at hw <;> subst hw <;> simp [hd]
    | cons v vs =>
      rw [hfold, pushCharacter] at hw
      rw [hfold] at ih
      cases hd : isSeparator d with
      | true =>
        simp only [hd, if_true, List.mem_cons] at hw
        rcases hw with rfl | hw
        · simp
        · intro c hc
          obtain ⟨hmem, hsep⟩ := ih (List.mem_cons.mpr hw) c hc
          exact ⟨List.mem_cons_of_mem d hmem, hsep⟩
      | false =>
        simp only [hd, Bool.false_eq_true, if_false, List.mem_cons] at hw
        intro c hc
        rcases hw with rfl | hw
        · rcases List.mem_cons.mp hc with rfl | hc
          · exact ⟨by simp, hd⟩
          · obtain ⟨hmem, hsep⟩ := ih List.mem_cons_self c hc
            exact ⟨List.mem_cons_of_mem d hmem, hsep⟩
        · obtain ⟨hmem, hsep⟩ := ih (List.mem_cons_of_mem v hw) c hc
          exact ⟨List.mem_cons_of_mem d hmem, hsep⟩

/-! ## Tidying -/

theorem isSeparator_of_isBlank {c : Char} (h : isBlank c = true) : isSeparator c = true := by
  simp [isSeparator, h]

theorem words_append_hyphenateBlanks (x : Text) :
    words (x ++ hyphenateBlanks name) = words (x ++ name) := by
  induction name generalizing x with
  | nil => rfl
  | cons c name ih =>
    unfold hyphenateBlanks
    split
    · rename_i hc
      have hsep := isSeparator_of_isBlank hc
      -- a hyphen in the place of the blank separates the same words
      have hhyphen : words (x ++ '-' :: hyphenateBlanks name) = words (x ++ c :: name) := by
        rw [words_append_separator (by decide), words_append_separator hsep]
        exact congrArg (words x ++ ·) (ih [])
      split
      · rename_i d rest
        split
        · rename_i hd
          -- two blanks become one hyphen: between them there is no word
          rw [ih x, words_append_separator hsep, words_append_separator (isSeparator_of_isBlank hd),
            words_cons_separator (isSeparator_of_isBlank hd)]
        · exact hhyphen
      · exact hhyphen
    · rw [List.append_cons, ih, ← List.append_cons]

/-- Blanks around a name, and how many there are between its words, do not matter. -/
theorem words_tidy (name : Text) : words (tidy name) = words name := by
  have hstart : words (trimStart name) = words name := by
    induction name with
    | nil => rfl
    | cons c name ih =>
      cases hc : isBlank c with
      | true => simpa [trimStart, hc, words_cons_separator (isSeparator_of_isBlank hc)] using ih
      | false => simp [trimStart, hc]
  have hend : ∀ t : Text, words (trimEnd t) = words t := by
    intro t
    conv_rhs => rw [← trimEnd_append_blanks t]
    -- what is trimmed at the end separates, and no word stands behind it
    cases hb : (t.reverse.takeWhile isBlank).reverse with
    | nil => simp
    | cons c blanks =>
      have hblank : ∀ d ∈ c :: blanks, isSeparator d = true := by
        intro d hd
        rw [← hb, List.mem_reverse] at hd
        exact isSeparator_of_isBlank (List.mem_takeWhile_imp hd)
      have hrest : words blanks = [] := words_eq_nil fun d hd => hblank d (List.mem_cons_of_mem c hd)
      rw [words_append_separator (hblank c (by simp)), hrest, List.append_nil]
  have h : words (hyphenateBlanks (trim name)) = words (trim name) := words_append_hyphenateBlanks []
  rw [tidy, h, trim, hend, hstart]

/-! ## Joining words -/

theorem join_hyphen (word next : Text) (others : List Text) :
    join "-" (word :: next :: others) = word ++ '-' :: join "-" (next :: others) :=
  join_cons_cons ..

theorem join_cons (word : Text) (others : List Text) :
    join "-" (word :: others) = word ++ others.flatMap ('-' :: ·) := by
  induction others generalizing word with
  | nil => simp [join]
  | cons v others ih => rw [join_hyphen, ih, List.flatMap_cons, List.cons_append]

theorem words_join {ws : List Text} (h : ∀ w ∈ ws, w ≠ [] ∧ ∀ c ∈ w, isSeparator c = false) :
    words (join "-" ws) = ws := by
  induction ws with
  | nil => rfl
  | cons w ws ih =>
    have hw := words_of_forall (h w (by simp)).1 (h w (by simp)).2
    cases ws with
    | nil => simpa [join] using hw
    | cons v vs =>
      rw [join_hyphen, words_append_separator (by decide), hw,
        ih fun u hu => h u (List.mem_cons_of_mem w hu)]
      rfl

/-- What the hyphenated form of a name has in it comes from its words in lower case, or is a hyphen. -/
theorem mem_kebab {c : Char} (hc : c ∈ kebab name) : c = '-' ∨ ∃ w ∈ words name, c ∈ lower w := by
  rw [kebab] at hc
  cases hwords : words name with
  | nil => simp [hwords, join] at hc
  | cons w ws =>
    rw [hwords, List.map_cons, join_cons, List.mem_append, List.mem_flatMap] at hc
    rcases hc with hc | ⟨u, hu, hc⟩
    · exact .inr ⟨w, List.mem_cons_self, hc⟩
    · obtain ⟨v, hv, rfl⟩ := List.mem_map.mp hu
      exact (List.mem_cons.mp hc).imp_right fun hc => ⟨v, List.mem_cons_of_mem w hv, hc⟩

end Name

end ComponentKit
