import ComponentKit.Proofs.Source.Signature

/-!
# Locating a method

The method that `locate?` finds is the leftmost occurrence of its signature. Its body ends where as many braces are
closed as opened, for the first time from its opening brace on (`ClosesAt`).
-/

namespace ComponentKit.Source

open Text

variable {name text front rest body behind : Text} {before : Option Char} {offset n : Nat}

/-- What is behind a character of a text, by its place. -/
theorem getElem?_behind (front rest : Text) (c : Char) (i : Nat) :
    (front ++ c :: rest)[front.length + 1 + i]? = rest[i]? := by
  rw [List.getElem?_append_right (by omega), Nat.add_assoc, Nat.add_sub_cancel_left, Nat.add_comm 1,
    List.getElem?_cons_succ]

/-! ## Occurrences of a signature -/

/-- An occurrence of the signature of a method in a text, by its pieces. -/
structure Occurrence (name text : Text) where
  /-- What is in front of it. -/
  front : Text
  /-- The access modifier, if any. -/
  access : Text
  /-- The modifier of a static method, if any. -/
  static : Text
  /-- The modifier of an asynchronous method, if any. -/
  async : Text
  /-- The blanks between the name and the parentheses. -/
  gap : Text
  /-- The blanks in the parentheses. -/
  inside : Text
  /-- The return type, if any. -/
  result : Text
  /-- The blanks in front of the opening brace. -/
  space : Text
  /-- What is behind the opening brace. -/
  behind : Text
  /-- The pieces are the text. -/
  split : text = front ++ (access ++ (static ++ (async ++ (name ++ (gap ++ '(' :: (inside ++ ')' ::
    (result ++ (space ++ '\x7b' :: behind))))))))
  isAccess : IsModifier ["private", "protected", "public"] front.getLast? access
  isStatic : IsModifier ["static"] (front ++ access).getLast? static
  isAsync : IsModifier ["async"] (front ++ access ++ static).getLast? async
  /-- The name starts at a word boundary. -/
  boundary : isBoundary (front ++ access ++ static ++ async).getLast? (name ++ (gap ++ ['('])) = true
  gapBlank : ∀ c ∈ gap, isBlank c = true
  insideBlank : ∀ c ∈ inside, isBlank c = true
  isResult : IsReturnType result
  spaceBlank : ∀ c ∈ space, isBlank c = true

namespace Occurrence

/-- Where a signature starts. -/
def start (o : Occurrence name text) : Nat :=
  o.front.length

/-- Where the closing parenthesis of a signature is. -/
def parenthesis (o : Occurrence name text) : Nat :=
  (o.front ++ o.access ++ o.static ++ o.async ++ name ++ o.gap ++ '(' :: o.inside).length

/-- Where the opening brace behind a signature is. -/
def opening (o : Occurrence name text) : Nat :=
  o.parenthesis + 1 + (o.result ++ o.space).length

/-- Whether no `Occurrence` of the signature starts further left. -/
def IsLeftmost (o : Occurrence name text) : Prop :=
  ∀ other : Occurrence name text, o.start ≤ other.start

/-- A signature occurs behind a text exactly if the rest is a signature there. -/
theorem exists_iff : (∃ o : Occurrence name (front ++ rest), o.front = front ∧ o.behind = behind) ↔
    HasSignature name behind modifierLevels front.getLast? rest := by
  constructor
  · rintro ⟨⟨lead, access, static, async, gap, inside, result, space, left, hsplit, haccess, hstatic, hasync,
      hboundary, hgap, hinside, hresult, hspace⟩, hfront, hbehind⟩
    obtain rfl : lead = front := hfront
    obtain rfl : left = behind := hbehind
    obtain rfl := List.append_cancel_left hsplit
    -- the grammar says of each piece what is in front of it, the pieces say it of the text
    rw [List.getLast?_append] at hstatic
    rw [List.getLast?_append, List.getLast?_append] at hasync
    rw [List.getLast?_append, List.getLast?_append, List.getLast?_append,
      ← isBoundary_append _ (inside ++ ')' :: (result ++ (space ++ '\x7b' :: left))) (by simp)] at hboundary
    simp only [List.append_assoc, List.singleton_append] at hboundary
    exact ⟨_, _, rfl, haccess, _, _, rfl, hstatic, _, _, rfl, hasync, _, rfl, hboundary, _, _, _, _, rfl, hgap,
      hinside, hresult, hspace⟩
  · rintro ⟨access, _, rfl, haccess, static, _, rfl, hstatic, async, _, rfl, hasync, _, rfl, hboundary, gap,
      inside, result, space, rfl, hgap, hinside, hresult, hspace⟩
    refine ⟨⟨front, access, static, async, gap, inside, result, space, behind, rfl, haccess, ?_, ?_, ?_, hgap,
      hinside, hresult, hspace⟩, rfl, rfl⟩
    · rwa [List.getLast?_append]
    · rwa [List.getLast?_append, List.getLast?_append]
    · rw [List.getLast?_append, List.getLast?_append, List.getLast?_append,
        ← isBoundary_append _ (inside ++ ')' :: (result ++ (space ++ '\x7b' :: behind))) (by simp)]
      simpa only [List.append_assoc, List.singleton_append] using hboundary

/-- What is read at an offset is the occurrence that starts there. -/
theorem afterSignature?_eq_some_iff : Cursor.afterSignature? name ⟨(text.take n).getLast?, text.drop n⟩
      = some behind ↔ ∃ o : Occurrence name text, o.start = n ∧ o.behind = behind := by
  constructor
  · intro h
    have hsignature := Source.afterSignature?_eq_some_iff.mp h
    -- a signature is not empty, so it does not start behind the end
    have hle : n ≤ text.length := by
      obtain ⟨lead, tail, hlead, -⟩ := named_of_afterSignature? h
      have := congrArg List.length hlead
      simp only [List.length_drop, List.length_append, List.length_cons] at this
      omega
    obtain ⟨o, hfront, hbehind⟩ := exists_iff.mpr hsignature
    rw [← List.take_append_drop n text]
    exact ⟨o, by rw [start, hfront, List.length_take, Nat.min_eq_left hle], hbehind⟩
  · rintro ⟨o, rfl, rfl⟩
    have hfront : text.take o.start = o.front := (congrArg (List.take o.start) o.split).trans List.take_left
    have hparts := List.take_append_drop o.start text
    rw [hfront] at hparts
    rw [hfront, Source.afterSignature?_eq_some_iff, ← exists_iff, hparts]
    exact ⟨o, rfl, rfl⟩

theorem start_lt_opening (o : Occurrence name text) : o.start < o.opening := by
  simp only [start, opening, parenthesis, List.length_append]
  omega

/-- An occurrence is a split of its text at the opening brace. -/
theorem exists_split (o : Occurrence name text) :
    ∃ lead, text = lead ++ '\x7b' :: o.behind ∧ lead.length = o.opening := by
  refine ⟨o.front ++ o.access ++ o.static ++ o.async ++ name ++ o.gap ++ '(' :: o.inside ++ ')' ::
    (o.result ++ o.space), ?_, ?_⟩
  · have hsplit := o.split
    simpa only [List.append_assoc, List.cons_append] using hsplit
  · simp only [opening, parenthesis, List.length_append, List.length_cons]
    omega

/-- The opening brace is the first one behind the parentheses. -/
theorem isLeast_opening (o : Occurrence name text) :
    IsLeast {i | o.parenthesis < i ∧ text[i]? = some '\x7b'} o.opening := by
  -- no brace comes in between: a return type has none, and blanks are none
  have hbrace : '\x7b' ∉ o.result ++ o.space := by
    rw [List.mem_append, not_or]
    exact ⟨fun hmem => absurd (o.isResult.noStop _ hmem) (by decide),
      fun hmem => absurd (o.spaceBlank _ hmem) (by decide)⟩
  have hbehind : ∀ i, text[o.parenthesis + 1 + i]? = (o.result ++ o.space ++ '\x7b' :: o.behind)[i]? := by
    intro i
    have hsplit : text = (o.front ++ o.access ++ o.static ++ o.async ++ name ++ o.gap ++ '(' :: o.inside)
        ++ ')' :: (o.result ++ o.space ++ '\x7b' :: o.behind) := by
      have := o.split
      simpa only [List.append_assoc, List.cons_append] using this
    exact (congrArg (·[o.parenthesis + 1 + i]?) hsplit).trans (getElem?_behind _ _ _ i)
  constructor
  · refine ⟨by rw [opening]; omega, ?_⟩
    rw [opening, hbehind, List.getElem?_append_right (Nat.le_refl _), Nat.sub_self]
    rfl
  · rintro i ⟨hlt, hi⟩
    refine Nat.le_of_not_lt fun hio => hbrace ?_
    obtain ⟨k, rfl⟩ := Nat.exists_eq_add_of_lt hlt
    rw [opening] at hio
    rw [Nat.add_right_comm, hbehind, List.getElem?_append_left (by omega)] at hi
    exact List.mem_of_getElem? hi

end Occurrence

/-! ## The leftmost one -/

/-- The search goes from left to right and stops at the first signature. -/
theorem signatureFrom?_eq_some_iff : signatureFrom? name offset before text = some (n, body) ↔
    ∃ k, n = offset + k ∧
      Cursor.afterSignature? name ⟨(text.take k).getLast?.or before, text.drop k⟩ = some body ∧
      ∀ j < k, Cursor.afterSignature? name ⟨(text.take j).getLast?.or before, text.drop j⟩ = none := by
  -- on the text: behind its first character the search goes on with that character in front
  induction text generalizing offset before with
  | nil =>
    -- there is no room for a signature, as it has a brace at least
    have hnone : ∀ before, Cursor.afterSignature? name ⟨before, []⟩ = none := by
      refine fun before => Option.eq_none_iff_forall_ne_some.mpr fun body h => ?_
      obtain ⟨lead, tail, hsplit, -⟩ := named_of_afterSignature? h
      simpa using congrArg List.length hsplit
    simp [signatureFrom?, hnone]
  | cons c text ih =>
    have hbefore : ∀ k, ((c :: text).take (k + 1)).getLast?.or before = (text.take k).getLast?.or (some c) :=
      fun k => getLast?_cons_or c (text.take k) before
    rw [signatureFrom?]
    -- a signature at the first character is the one found, and otherwise the search goes on behind it
    cases hfirst : Cursor.afterSignature? name ⟨before, c :: text⟩ with
    | some first =>
      constructor
      · intro h
        obtain ⟨rfl, rfl⟩ := Prod.mk.inj (Option.some.inj h)
        exact ⟨0, rfl, hfirst, fun j hj => absurd hj (Nat.not_lt_zero j)⟩
      · rintro ⟨k, rfl, hk, hnone⟩
        cases k with
        | zero => rw [Option.some.inj (hfirst.symm.trans hk)]; rfl
        | succ k => exact absurd (hfirst.symm.trans (hnone 0 k.succ_pos)) (Option.some_ne_none _)
    | none =>
      refine ih.trans ⟨?_, ?_⟩
      · rintro ⟨k, rfl, hk, hnone⟩
        refine ⟨k + 1, by omega, by rw [hbefore]; exact hk, fun j hj => ?_⟩
        cases j with
        | zero => exact hfirst
        | succ j =>
          rw [hbefore]
          exact hnone j (Nat.lt_of_succ_lt_succ hj)
      · rintro ⟨k, rfl, hk, hnone⟩
        cases k with
        | zero => exact absurd (hfirst.symm.trans hk) (Option.some_ne_none _).symm
        | succ k =>
          rw [hbefore] at hk
          refine ⟨k, by omega, hk, fun j hj => ?_⟩
          have := hnone (j + 1) (Nat.succ_lt_succ hj)
          rwa [hbefore] at this

/-- The search finds the leftmost occurrence. -/
theorem signatureFrom?_eq_some_iff_isLeftmost : signatureFrom? name 0 none text = some (n, body) ↔
    ∃ o : Occurrence name text, o.IsLeftmost ∧ o.start = n ∧ o.behind = body := by
  simp only [signatureFrom?_eq_some_iff, Option.or_none, Nat.zero_add, Occurrence.afterSignature?_eq_some_iff]
  constructor
  · -- an occurrence further left would have been read there
    rintro ⟨k, rfl, ⟨o, rfl, hbehind⟩, hnone⟩
    refine ⟨o, fun other => Nat.le_of_not_lt fun hlt => ?_, rfl, hbehind⟩
    have hother := Occurrence.afterSignature?_eq_some_iff.mpr ⟨other, rfl, rfl⟩
    rw [hnone other.start hlt] at hother
    cases hother
  · rintro ⟨o, hleft, rfl, hbehind⟩
    refine ⟨o.start, rfl, ⟨o, rfl, hbehind⟩, fun j hj => Option.eq_none_iff_forall_ne_some.mpr fun b hb => ?_⟩
    obtain ⟨other, rfl, -⟩ := Occurrence.afterSignature?_eq_some_iff.mp hb
    exact Nat.not_lt.mpr (hleft other) hj

/-! ## The closing brace -/

/-- Whether as many braces are closed as opened from an opening brace to a character of the text. -/
def ClosesAt (text : Text) (opening stop : Nat) : Prop :=
  stop < text.length ∧
    (slice opening (stop + 1) text).count '\x7b' = (slice opening (stop + 1) text).count '\x7d'

theorem level_eq_count (text : Text) :
    level text = (text.count '\x7b' : Int) - (text.count '\x7d' : Int) := by
  induction text with
  | nil => rfl
  | cons c text ih =>
    rw [level_cons, ih, braceStep, List.count_cons, List.count_cons]
    by_cases ho : c = '\x7b'
    · subst ho
      simp
      omega
    · by_cases hc : c = '\x7d'
      · subst hc
        simp
        omega
      · simp [ho, hc]

/-- The closing brace is the first character behind which the level is zero. -/
theorem closingBraceFrom?_eq_some_iff {depth : Int} (hd : 0 < depth) : closingBraceFrom? depth text = some n ↔
    IsLeast {n | n < text.length ∧ depth + level (text.take (n + 1)) = 0} n := by
  -- the place found closes the level, and up to it the level stays positive
  have hfound : ∀ {n}, closingBraceFrom? depth text = some n →
      IsLeast {n | n < text.length ∧ depth + level (text.take (n + 1)) = 0} n := by
    intro n h
    obtain ⟨hclose, hlevel, hpos⟩ := closingBraceFrom?_spec hd h
    have hlt := closingBraceFrom?_lt_length h
    refine ⟨⟨hlt, ?_⟩, fun m hm => Nat.le_of_not_lt fun hmn => ?_⟩
    · have hstep : level ['\x7d'] = -1 := rfl
      rw [List.head?_drop] at hclose
      rw [List.take_add_one, hclose, Option.toList_some, level_append, hstep]
      omega
    · have := hpos (text.take (m + 1)) (List.take_prefix_take_left (by omega))
      have := hm.2
      omega
  refine ⟨hfound, fun h => ?_⟩
  -- a search that finds nothing never comes down to zero, and one that does finds the first place
  cases hsearch : closingBraceFrom? depth text with
  | some m => rw [(hfound hsearch).unique h]
  | none =>
    have := level_pos_of_closingBraceFrom?_eq_none hd hsearch _ (List.take_prefix (n + 1) text)
    have := h.1.2
    omega

/-- A brace is closed where the level behind it is back at zero. -/
theorem closesAt_iff (front body : Text) :
    ClosesAt (front ++ '\x7b' :: body) front.length (front.length + 1 + n) ↔
      n < body.length ∧ 1 + level (body.take (n + 1)) = 0 := by
  have hslice : slice front.length (front.length + 1 + n + 1) (front ++ '\x7b' :: body)
      = '\x7b' :: body.take (n + 1) := by
    have hstop : front.length + 1 + n + 1 = front.length + (n + 1 + 1) := by omega
    rw [slice, hstop, List.take_length_add_append, List.drop_left, List.take_succ_cons]
  have hlevel := level_eq_count ('\x7b' :: body.take (n + 1))
  have hstep : braceStep '\x7b' = 1 := rfl
  rw [level_cons, hstep] at hlevel
  rw [ClosesAt, hslice, hlevel, List.length_append, List.length_cons]
  omega

/-! ## The region -/

/-- What is located is the leftmost occurrence, up to its closing brace. -/
theorem locate?_of_isLeftmost {o : Occurrence name text} (h : o.IsLeftmost) : locate? text name
    = (closingBraceFrom? 1 o.behind).map fun n => ⟨o.start, o.opening + 1, o.opening + 1 + n⟩ := by
  obtain ⟨lead, hsplit, hlength⟩ := o.exists_split
  -- the body is known by what is left of the text behind the opening brace
  have hbody : text.length - o.behind.length = o.opening + 1 := by
    have := congrArg List.length hsplit
    rw [List.length_append, List.length_cons] at this
    omega
  rw [locate?, signatureFrom?_eq_some_iff_isLeftmost.mpr ⟨o, h, rfl, rfl⟩]
  simp only [Option.bind_eq_bind, Option.bind_some, hbody]
  cases closingBraceFrom? 1 o.behind <;> rfl

/-- Nothing is located without an occurrence. -/
theorem exists_isLeftmost_of_locate? {region : Region} (h : locate? text name = some region) :
    ∃ o : Occurrence name text, o.IsLeftmost := by
  obtain ⟨⟨n, body⟩, hfound, -⟩ := Option.bind_eq_some_iff.mp h
  obtain ⟨o, hleft, -⟩ := signatureFrom?_eq_some_iff_isLeftmost.mp hfound
  exact ⟨o, hleft⟩

/-- The closing brace of an occurrence is the first place at which its braces are balanced. -/
theorem Occurrence.closingBraceFrom?_eq_some_iff (o : Occurrence name text) :
    closingBraceFrom? 1 o.behind = some n ↔
      IsLeast {e | o.opening + 1 ≤ e ∧ ClosesAt text o.opening e} (o.opening + 1 + n) := by
  obtain ⟨lead, hsplit, hlength⟩ := o.exists_split
  have hcloses : ∀ n, ClosesAt text o.opening (o.opening + 1 + n) ↔
      n < o.behind.length ∧ 1 + level (o.behind.take (n + 1)) = 0 := by
    intro n
    rw [← closesAt_iff lead o.behind, hlength, ← hsplit]
  rw [Source.closingBraceFrom?_eq_some_iff Int.one_pos]
  constructor
  · rintro ⟨hn, hleast⟩
    refine ⟨⟨by omega, (hcloses n).mpr hn⟩, ?_⟩
    rintro e ⟨hle, he⟩
    obtain ⟨m, rfl⟩ := Nat.exists_eq_add_of_le hle
    have := hleast ((hcloses m).mp he)
    omega
  · rintro ⟨⟨-, hn⟩, hleast⟩
    refine ⟨(hcloses n).mp hn, fun m hm => ?_⟩
    have := hleast ⟨by omega, (hcloses m).mpr hm⟩
    omega

/-- `locate?` finds a method exactly if its signature occurs and the brace of the leftmost occurrence is closed. The
`Region` starts with that occurrence and ends with the first brace at which the braces are balanced. -/
theorem locate?_eq_leftmost_occurrence (text name : Text) :
    ((∃ region, locate? text name = some region) ↔
      ∃ o : Occurrence name text, o.IsLeftmost ∧ ∃ stop, o.opening + 1 ≤ stop ∧ ClosesAt text o.opening stop) ∧
    ∀ region, locate? text name = some region → ∀ o : Occurrence name text, o.IsLeftmost →
      region.signatureStart = o.start ∧ region.bodyStart = o.opening + 1 ∧
      IsLeast {i | o.parenthesis < i ∧ text[i]? = some '\x7b'} (region.bodyStart - 1) ∧
      IsLeast {e | region.bodyStart ≤ e ∧ ClosesAt text (region.bodyStart - 1) e} region.bodyEnd ∧
      region.signatureStart < region.bodyStart ∧ region.bodyStart ≤ region.bodyEnd ∧
      region.bodyEnd < text.length ∧ text[region.bodyEnd]? = some '\x7d' := by
  refine ⟨⟨?_, ?_⟩, fun region hregion o hleft => ?_⟩
  · rintro ⟨region, hregion⟩
    obtain ⟨o, hleft⟩ := exists_isLeftmost_of_locate? hregion
    rw [locate?_of_isLeftmost hleft, Option.map_eq_some_iff] at hregion
    obtain ⟨n, hn, -⟩ := hregion
    exact ⟨o, hleft, _, (o.closingBraceFrom?_eq_some_iff.mp hn).1⟩
  · rintro ⟨o, hleft, stop, hle, hcloses⟩
    -- of the places at which the braces are balanced there is a first one
    obtain ⟨first, hfirst, hleast⟩ := WellFounded.has_min (wellFounded_lt (α := Nat))
      {e | o.opening + 1 ≤ e ∧ ClosesAt text o.opening e} ⟨stop, hle, hcloses⟩
    obtain ⟨n, rfl⟩ := Nat.exists_eq_add_of_le hfirst.1
    have hn := o.closingBraceFrom?_eq_some_iff.mpr ⟨hfirst, fun e he => Nat.le_of_not_lt (hleast e he)⟩
    exact ⟨_, by rw [locate?_of_isLeftmost hleft, hn]; rfl⟩
  · rw [locate?_of_isLeftmost hleft, Option.map_eq_some_iff] at hregion
    obtain ⟨n, hn, rfl⟩ := hregion
    have hleast := o.closingBraceFrom?_eq_some_iff.mp hn
    have hstart := o.start_lt_opening
    refine ⟨rfl, rfl, o.isLeast_opening, hleast, Nat.lt_succ_of_lt hstart, Nat.le_add_right _ _,
      hleast.1.2.1, ?_⟩
    obtain ⟨lead, hsplit, hlength⟩ := o.exists_split
    have hclose := (closingBraceFrom?_spec Int.one_pos hn).1
    have hat := (congrArg (·[o.opening + 1 + n]?) hsplit).trans (hlength ▸ getElem?_behind lead _ _ n)
    rw [List.head?_drop] at hclose
    exact hat.trans hclose

/-- A call in front of the method is no occurrence, and the modifier belongs to the one that is. -/
theorem exists_leftmost_async : ∃ o : Occurrence "load" "go(); async load(): A<b> \x7b\x7b\x7d\x7d",
    o.IsLeftmost ∧ o.start = 6 ∧ o.opening = 25 := by
  have hregion : locate? "go(); async load(): A<b> \x7b\x7b\x7d\x7d" "load" = some ⟨6, 26, 28⟩ := by decide
  obtain ⟨o, hleft, -⟩ := (locate?_eq_leftmost_occurrence _ _).1.mp ⟨_, hregion⟩
  obtain ⟨hstart, hbody, -⟩ := (locate?_eq_leftmost_occurrence _ _).2 _ hregion o hleft
  exact ⟨o, hleft, hstart.symm, (Nat.succ.inj hbody).symm⟩

end ComponentKit.Source
