import ComponentKit.Proofs.Source.Call
import ComponentKit.Proofs.Source.MethodBody
import ComponentKit.Proofs.Text.Blank
import ComponentKit.Proofs.Text.Occurrence
import ComponentKit.Registry.Patch

/-!
# The registration step

What `insertRegistration` changes when it adds something: a piece of the body of the registering method is
exchanged for the new lines (`BodyEdit`). As long as these close the braces that they open the method is found
again, with the registration in its body, so that a second registration step finds its own result.
-/

namespace ComponentKit.Registry

open Text Source

variable {text result : Text} {registration : Registration} {layout : Layout} {anchor : Anchor}

/-! ## Registering methods -/

theorem isWord_of_mem_methodName (kind : IndexedKind) :
    ∀ c ∈ (Registry.layout kind).methodName, Unicode.isWord c = true := by
  have h : (Registry.layout kind).methodName.all Unicode.isWord = true := by
    cases kind <;> rfl
  exact List.all_eq_true.mp h

theorem methodName_ne_nil (kind : IndexedKind) : (Registry.layout kind).methodName ≠ [] := by
  cases kind <;> simp [Registry.layout]

/-- A registration has a call, and perhaps the line that starts the component. -/
theorem mem_lines_registration {update : Update} {style : RegistryStyle} {line : Text}
    (h : line ∈ (update.registration style).lines) :
    line = update.registrationLine ∨ line = update.initializationLine := by
  simp only [Update.registration, Registration.lines, List.mem_cons] at h
  rcases h with rfl | h
  · exact .inl rfl
  · split at h
    · exact .inr (by simpa using h)
    · simp at h

/-! ## Blank lines and indentation -/

theorem isBlank_of_mem_lineBreak {c : Char} (h : c ∈ lineBreak text) : isBlank c = true :=
  (isBreak_lineBreak text).isBlank h

theorem isIndent_of_mem_indentation {c : Char} (h : c ∈ indentation text) : isIndent c = true :=
  List.mem_takeWhile_imp h

theorem isIndent_of_mem_bodyIndent {region : Region} {c : Char} (h : c ∈ bodyIndent text region) :
    isIndent c = true := by
  rcases List.mem_append.mp h with h | h
  · exact isIndent_of_mem_indentation h
  · have hunit : indentUnit.all isIndent = true := by decide
    exact List.all_eq_true.mp hunit c h

theorem isBlank_of_mem_callIndent {region : Region} {offset : Nat} {c : Char}
    (h : c ∈ callIndent text region offset) : isBlank c = true := by
  simp only [callIndent] at h
  split at h
  · rename_i hblank
    exact List.all_eq_true.mp (Bool.and_eq_true_iff.mp hblank).2 c h
  · exact isBlank_of_isIndent (isIndent_of_mem_bodyIndent h)

/-- The part of a line in front of a position has no line feed. -/
theorem newline_notMem_lineSoFar (before : Text) : '\n' ∉ lineSoFar before := by
  intro h
  rw [lineSoFar, List.mem_reverse] at h
  simpa using List.mem_takeWhile_imp h

theorem slice_lineStart (text : Text) (offset : Nat) :
    slice (lineStart text offset) offset text = lineSoFar (text.take offset) := by
  have hsuffix : lineSoFar (text.take offset) <:+ text.take offset := by
    rw [lineSoFar, ← List.reverse_prefix, List.reverse_reverse]
    exact List.takeWhile_prefix _
  obtain ⟨lead, hlead⟩ := hsuffix
  rw [slice, lineStart]
  generalize lineSoFar (text.take offset) = line at hlead ⊢
  rw [← hlead, List.length_append, Nat.add_sub_cancel]
  exact List.drop_left

theorem newline_notMem_callIndent {region : Region} {offset : Nat} :
    '\n' ∉ callIndent text region offset := by
  intro h
  simp only [callIndent] at h
  split at h
  · rw [slice_lineStart] at h
    exact newline_notMem_lineSoFar _ h
  · exact absurd (isIndent_of_mem_bodyIndent h) (by decide)

/-- The indentation of a call is made of spaces and tabs, or it is what stands in front of the call. -/
theorem callIndent_cases (text : Text) (region : Region) (offset : Nat) :
    (∀ c ∈ callIndent text region offset, isIndent c = true) ∨
      ∃ lead, text = lead ++ (callIndent text region offset ++ text.drop offset) := by
  rw [callIndent]
  split
  · refine .inr ⟨(text.take offset).take (lineStart text offset), ?_⟩
    rw [slice, ← List.append_assoc, List.take_append_drop, List.take_append_drop]
  · exact .inl fun c => isIndent_of_mem_bodyIndent

theorem isIndent_of_mem_contentIndent {region : Region} {content : Text} {c : Char}
    (h : c ∈ contentIndent text region content) : isIndent c = true := by
  simp only [contentIndent] at h
  split at h
  · split at h
    · exact isIndent_of_mem_bodyIndent h
    · exact isIndent_of_mem_indentation h
  · exact isIndent_of_mem_bodyIndent h

/-! ## Edits of a body -/

/-- An edit of the body of a method that `locate?` finds: a piece of the body is exchanged for another one. -/
structure BodyEdit where
  /-- The text up to the opening brace. -/
  opening : Text
  /-- The body in front of the edit. -/
  front : Text
  /-- What the edit takes away. -/
  removed : Text
  /-- What the edit puts in its place. -/
  added : Text
  /-- The body behind the edit. -/
  back : Text
  /-- The text behind the closing brace. -/
  rest : Text

namespace BodyEdit

/-- The text that is edited. -/
def before (edit : BodyEdit) : Text :=
  edit.opening ++ (edit.front ++ edit.removed ++ edit.back ++ '\x7d' :: edit.rest)

/-- The text after the edit. -/
def after (edit : BodyEdit) : Text :=
  edit.opening ++ (edit.front ++ edit.added ++ edit.back ++ '\x7d' :: edit.rest)

/-- What an edit is known to do with which `insertRegistration` adds a registration. -/
structure Registers (edit : BodyEdit) (registration : Registration) (layout : Layout) : Prop where
  /-- The edit is made in the body of the registering method. -/
  located : ∃ start,
    IsMethod layout.methodName edit.opening (edit.front ++ edit.removed ++ edit.back) edit.rest start
  /-- The registration was not there. -/
  absent : ¬ registration.call <:+: edit.front ++ edit.removed ++ edit.back
  /-- Only blanks are taken away. -/
  removed_blank : ∀ c ∈ edit.removed, isBlank c = true
  /-- The lines of the registration are added, among blanks. -/
  added_eq : ∃ indent ending, (∀ c ∈ indent, isBlank c = true) ∧ (∀ c ∈ ending, isBlank c = true) ∧
    edit.added = indented (lineBreak edit.before) indent registration.lines ++ ending

/-- Where a registration is added: at the end of the body, behind a call, or in front of a line break. -/
def HasPlace (edit : BodyEdit) : Prop :=
  edit.back = [] ∨ edit.removed = [] ∧ (endsLikeCall edit.front ∨ startsWithBreak edit.back)

end BodyEdit

theorem balanced_of_blank {text : Text} (h : ∀ c ∈ text, isBlank c = true) : Balanced text :=
  Balanced.of_forall fun c hc => isBrace_of_isBlank (h c hc)

theorem balanced_indented {newline indent : Text} {lines : List Text}
    (hn : ∀ c ∈ newline, isBlank c = true) (hi : ∀ c ∈ indent, isBlank c = true)
    (hl : ∀ line ∈ lines, Balanced line) : Balanced (indented newline indent lines) := by
  induction lines with
  | nil => exact balanced_of_blank (by simp [indented])
  | cons line lines ih =>
    obtain ⟨hline, hlines⟩ := List.forall_mem_cons.mp hl
    rw [indented, List.flatMap_cons]
    exact (((balanced_of_blank hn).append (balanced_of_blank hi)).append hline).append (ih hlines)

/-- The braces of indented lines are those of the lines. -/
theorem filter_isBrace_indented {newline indent : Text} (hn : ∀ c ∈ newline, isBlank c = true)
    (hi : ∀ c ∈ indent, isBlank c = true) (lines : List Text) :
    (indented newline indent lines).filter isBrace = lines.flatten.filter isBrace := by
  have hnone : ∀ {x : Text}, (∀ c ∈ x, isBlank c = true) → x.filter isBrace = [] :=
    fun hx => List.filter_eq_nil_iff.mpr fun c hc => by simp [isBrace_of_isBlank (hx c hc)]
  induction lines with
  | nil => rfl
  | cons line lines ih =>
    rw [indented] at ih
    simp only [indented, List.flatMap_cons, List.flatten_cons, List.filter_append, ih, hnone hn, hnone hi,
      List.nil_append]

namespace BodyEdit.Registers

variable {edit : BodyEdit}

/-- The registration is in what is added. -/
theorem call_infix (h : edit.Registers registration layout) : registration.call <:+: edit.added := by
  obtain ⟨indent, ending, -, -, hadded⟩ := h.added_eq
  refine ⟨lineBreak edit.before ++ indent,
    indented (lineBreak edit.before) indent registration.followers ++ ending, ?_⟩
  rw [hadded]
  simp only [Registration.lines, indented, List.flatMap_cons, List.append_assoc]

/-- An edit that adds lines with balanced braces leaves the method where it was. -/
theorem located_after (h : edit.Registers registration layout)
    (hlines : ∀ line ∈ registration.lines, Balanced line) :
    ∃ start, IsMethod layout.methodName edit.opening (edit.front ++ edit.added ++ edit.back)
      edit.rest start := by
  obtain ⟨start, hm⟩ := h.located
  obtain ⟨indent, ending, hi, he, hadded⟩ := h.added_eq
  have hbalanced : Balanced edit.added := by
    rw [hadded]
    exact (balanced_indented (fun c => isBlank_of_mem_lineBreak) hi hlines).append (balanced_of_blank he)
  have hlevel : level edit.removed = level edit.added := by
    rw [hbalanced.closed, (balanced_of_blank h.removed_blank).closed]
  exact ⟨start, hm.exchange hlevel hbalanced.nonneg⟩

/-- The step finds its own result. -/
theorem present_after (h : edit.Registers registration layout)
    (hlines : ∀ line ∈ registration.lines, Balanced line) (anchor : Anchor) :
    insertRegistration edit.after registration layout anchor = .present := by
  obtain ⟨start, hm⟩ := h.located_after hlines
  have hcall : occursIn registration.call (edit.front ++ edit.added ++ edit.back) = true := by
    rw [occursIn_iff]
    obtain ⟨x, y, hxy⟩ := h.call_infix
    exact ⟨edit.front ++ x, y ++ edit.back, by rw [← hxy]; simp only [List.append_assoc]⟩
  simp only [insertRegistration, after, hm.locate?, body_regionOf, hcall, if_true]

end BodyEdit.Registers

/-! ## The place of a registration -/

/-- What trimming takes away are blanks. -/
theorem trimEnd_split (body : Text) :
    ∃ trailing, body = trimEnd body ++ trailing ∧ body.drop (trimEnd body).length = trailing ∧
      ∀ c ∈ trailing, isBlank c = true := by
  have hsplit := trimEnd_append_blanks body
  refine ⟨(body.reverse.takeWhile isBlank).reverse, hsplit.symm, ?_, fun c hc => ?_⟩
  · conv_lhs => rw [← hsplit]
    exact List.drop_left' (by rw [hsplit])
  · exact List.mem_takeWhile_imp (List.mem_reverse.mp hc)

/-- How far behind the last registration a new one goes, in the rest of the body: right there, or at the end of that
line (`endOfLine`). -/
def placeBehind (anchor : Anchor) (rest : Text) : Nat :=
  match anchor with
  | .line => endOfLine rest 0 rest.length
  | .statement => 0

/-- Whether a new registration goes between the two parts of a body. -/
inductive IsCut (layout : Layout) (anchor : Anchor) (front back : Text) : Prop where
  /-- In a body without registrations: in front of its trailing blanks. -/
  | atEnd : ¬ layout.setter <:+: front ++ back → front = trimEnd (front ++ back) →
      IsCut layout anchor front back
  /-- In a body with registrations: behind the call of the last one, or at the end of its line. -/
  | afterCall {before call line : Text} : front = before ++ (call ++ line) →
      lastIndexOf? layout.setter (front ++ back) = some before.length →
      callEnd? (call ++ (line ++ back)) = some call.length → endsLikeCall call →
      placeBehind anchor (line ++ back) = line.length → '\n' ∉ line →
      (line = [] ∨ back = [] ∨ startsWithBreak back) → IsCut layout anchor front back

theorem place_eq (anchor : Anchor) (x segment y : Text) :
    (match anchor with
      | .line => endOfLine (x ++ (segment ++ y)) x.length (x.length + segment.length)
      | .statement => x.length) = x.length + placeBehind anchor segment := by
  cases anchor with
  | statement => rfl
  | line => exact endOfLine_eq x segment y

/-- A new registration goes behind a call, or behind the rest of its line. -/
theorem placeBehind_split (anchor : Anchor) (rest : Text) :
    ∃ line back, rest = line ++ back ∧ placeBehind anchor rest = line.length ∧ '\n' ∉ line ∧
      (line = [] ∨ back = [] ∨ startsWithBreak back) := by
  cases anchor with
  | statement => exact ⟨[], rest, rfl, rfl, by simp, .inl rfl⟩
  | line =>
    obtain ⟨line, back, hrest, hline, hplace, hback⟩ := endOfLine_split rest
    exact ⟨line, back, hrest, hplace, fun hn => hline _ hn rfl, .inr hback⟩

/-- A body has a place for a new registration, unless its last registration is not closed. -/
theorem isCut_or_not_closed (layout : Layout) (anchor : Anchor) (body : Text) :
    (∃ front back, body = front ++ back ∧ IsCut layout anchor front back) ∨
      ∃ last, lastIndexOf? layout.setter body = some last ∧ callEnd? (body.drop last) = none := by
  -- the end of the body without a registration, and otherwise behind the last one if that is closed
  cases hlast : lastIndexOf? layout.setter body with
  | none =>
    obtain ⟨trailing, hbody, -, -⟩ := trimEnd_split body
    refine .inl ⟨trimEnd body, trailing, hbody, .atEnd ?_ ?_⟩
    · rw [← hbody]
      exact lastIndexOf?_eq_none_iff.mp hlast
    · rw [← hbody]
  | some last =>
    cases hcall : callEnd? (body.drop last) with
    | none => exact .inr ⟨last, rfl, hcall⟩
    | some n =>
      left
      obtain ⟨hle, -, -⟩ := lastIndexOf?_eq_some_iff.mp hlast
      obtain ⟨call, more, hsegment, rfl, hends⟩ := callEnd?_eq_some hcall
      obtain ⟨line, back, rfl, hplace, hline, hback⟩ := placeBehind_split anchor more
      have hbody : body = body.take last ++ (call ++ line) ++ back := by
        rw [List.append_assoc, List.append_assoc, ← hsegment, List.take_append_drop]
      refine ⟨_, back, hbody, .afterCall rfl ?_ ?_ hends hplace hline hback⟩
      · rw [← hbody, hlast, List.length_take, Nat.min_eq_left hle]
      · rw [← hsegment, hcall]

/-- In front of the place of a registration a body is trimmed, or the place ends a call or a line. -/
theorem IsCut.cases_front {front back : Text} (h : IsCut layout anchor front back) :
    (front = trimEnd (front ++ back) ∧ ¬ layout.setter <:+: front ++ back) ∨ endsLikeCall front ∨ back = [] ∨
      startsWithBreak back := by
  cases h with
  | atEnd hsetter htrim => exact .inl ⟨htrim, hsetter⟩
  | @afterCall before call line hfront _ _ hends _ _ hback =>
    rcases hback with rfl | hback
    · rw [hfront, List.append_nil]
      exact .inr (.inl (hends.append_left before))
    · exact .inr (.inr hback)

/-- Behind the place of a registration there is none. -/
theorem IsCut.setter_not_infix_back {front back : Text} (h : IsCut layout anchor front back) :
    ¬ layout.setter <:+: back := by
  intro hback
  cases h with
  | atEnd hsetter _ => exact hsetter (hback.trans (List.suffix_append front back).isInfix)
  | @afterCall before call line hfront hlast _ hends _ _ _ =>
    obtain ⟨-, -, hnone⟩ := lastIndexOf?_eq_some_iff.mp hlast
    have hpos := List.length_pos_iff.mpr hends.ne_nil
    -- a setter behind the place would start later than the last one
    obtain ⟨x, y, hxy⟩ := hback
    have hbody : front ++ back = (front ++ x) ++ (layout.setter ++ y) := by
      rw [← hxy]
      simp only [List.append_assoc]
    have hlength : (front ++ x).length = before.length + (call.length + line.length + x.length) := by
      rw [hfront]
      simp only [List.length_append]
      omega
    refine hnone (front ++ x).length (by omega) (by rw [hbody]; simp) ?_
    rw [hbody, List.drop_left]
    exact List.prefix_append _ _

/-- A body has one place for a new registration. -/
theorem IsCut.unique {front back front' back' : Text} (h : IsCut layout anchor front back)
    (h' : IsCut layout anchor front' back') (hbody : front ++ back = front' ++ back') :
    front = front' ∧ back = back' := by
  suffices hfront : front.length = front'.length from List.append_inj hbody hfront
  cases h with
  | atEnd hsetter htrim =>
    cases h' with
    | atEnd _ htrim' => rw [htrim, htrim', hbody]
    | afterCall _ hlast' =>
      rw [← hbody, lastIndexOf?_eq_none_iff.mpr hsetter] at hlast'
      cases hlast'
  | @afterCall before call line hfront hlast hcall _ hplace =>
    cases h' with
    | atEnd hsetter' =>
      rw [hbody, lastIndexOf?_eq_none_iff.mpr hsetter'] at hlast
      cases hlast
    | @afterCall before' call' line' hfront' hlast' hcall' _ hplace' =>
      -- both have the call of the same registration, and the same rest of its line
      have hbefore : before.length = before'.length := by
        rw [hbody, hlast'] at hlast
        exact (Option.some.inj hlast).symm
      have hsplit : before ++ (call ++ (line ++ back)) = before' ++ (call' ++ (line' ++ back')) := by
        rw [hfront, hfront'] at hbody
        simpa only [List.append_assoc] using hbody
      obtain ⟨-, hrest⟩ := List.append_inj hsplit hbefore
      have hlength : call.length = call'.length := by
        rw [hrest, hcall'] at hcall
        exact (Option.some.inj hcall).symm
      obtain ⟨-, hmore⟩ := List.append_inj hrest hlength
      have hline : line.length = line'.length := by
        rw [hmore, hplace'] at hplace
        exact hplace.symm
      rw [hfront, hfront']
      simp only [List.length_append]
      omega

theorem getLast?_trimEnd {text : Text} {c : Char} (h : (trimEnd text).getLast? = some c) :
    isBlank c = false := by
  rw [trimEnd, List.getLast?_reverse] at h
  have := List.head?_dropWhile_not isBlank text.reverse
  rw [h] at this
  simpa using this

/-- If the closing brace has a line of its own, the line break in front of it is behind the place of a
registration. -/
theorem IsCut.newline_mem_back {front back b spaces : Text} (h : IsCut layout anchor front back)
    (hbody : front ++ back = b ++ '\n' :: spaces) (hspaces : ∀ c ∈ spaces, isIndent c = true) :
    '\n' ∈ back := by
  by_contra hn
  -- otherwise what stands in front of the place ends with the line break or with indentation
  have hlast : ∀ {x z : Text}, spaces = x ++ z → ∃ c, (b ++ '\n' :: x).getLast? = some c ∧
      isBlank c = true := by
    intro x z hz
    cases hx : x.getLast? with
    | none =>
      obtain rfl := List.getLast?_eq_none_iff.mp hx
      exact ⟨'\n', List.getLast?_concat, by decide⟩
    | some c =>
      have hmem : c ∈ spaces := hz ▸ List.mem_append_left z (List.mem_of_getLast? hx)
      refine ⟨c, ?_, isBlank_of_isIndent (hspaces c hmem)⟩
      rw [List.append_cons, List.getLast?_append, hx]
      rfl
  cases h with
  | atEnd _ htrim =>
    obtain ⟨z, hfront, hz⟩ := append_cons_eq_of_notMem hn hbody
    obtain ⟨c, hc, hblank⟩ := hlast hz
    rw [← hfront, htrim] at hc
    rw [getLast?_trimEnd hc] at hblank
    cases hblank
  | @afterCall before call line hfront _ _ hends _ hline _ =>
    have hrest : '\n' ∉ line ++ back := by simp [hline, hn]
    have hsplit : (before ++ call) ++ (line ++ back) = b ++ '\n' :: spaces := by
      rw [← hbody, hfront]
      simp only [List.append_assoc]
    obtain ⟨z, hcall, hz⟩ := append_cons_eq_of_notMem hrest hsplit
    obtain ⟨c, hc, hblank⟩ := hlast hz
    obtain ⟨d, hd, hmark⟩ := (hends.append_left before).isBlank_getLast?
    rw [hcall, hc] at hd
    obtain rfl := Option.some.inj hd
    rw [hmark] at hblank
    cases hblank

/-! ## The step as an edit -/

theorem isBlank_of_trimEnd {front back : Text} (h : front = trimEnd (front ++ back)) {c : Char}
    (hc : c ∈ back) : isBlank c = true := by
  obtain ⟨trailing, hbody, -, hblank⟩ := trimEnd_split (front ++ back)
  rw [← h] at hbody
  exact hblank c (List.append_cancel_left hbody ▸ hc)

section Steps

variable {opening body rest front back : Text} {start : Nat}

/-- Lines at the end of a body go in front of its trailing blanks, which stay if they break a line. -/
theorem appendToBody_eq (start : Nat) (htrim : front = trimEnd (front ++ back))
    (htext : text = opening ++ (front ++ back ++ '\x7d' :: rest)) (newLines : List Text) :
    ∃ indent ending, (∀ c ∈ indent, isIndent c = true) ∧
      (ending = back ∨ '\n' ∉ back ∧ ∃ gap, (∀ c ∈ gap, isIndent c = true) ∧
        ending = lineBreak text ++ gap) ∧
      appendToBody text (regionOf opening (front ++ back) start) newLines = opening ++ (front
        ++ (indented (lineBreak text) indent newLines ++ ending) ++ '\x7d' :: rest) := by
  have hbody : (regionOf opening (front ++ back) start).body text = front ++ back := by
    rw [htext, body_regionOf]
  have hdrop : (front ++ back).drop front.length = back := List.drop_left
  have htake : text.take (regionOf opening (front ++ back) start).bodyStart = opening := by
    rw [htext, take_bodyStart_regionOf]
  have htail : text.drop (regionOf opening (front ++ back) start).bodyEnd = '\x7d' :: rest := by
    rw [htext, drop_bodyEnd_regionOf]
  -- a body whose blanks hold a line break keeps them, another one gets a line for its brace
  refine ⟨contentIndent text (regionOf opening (front ++ back) start) front,
    if back.contains '\n' then back else lineBreak text ++ lineIndent text start,
    fun c hc => isIndent_of_mem_contentIndent hc, ?_, ?_⟩
  · split
    · exact .inl rfl
    · rename_i hnewline
      exact .inr ⟨by simpa using hnewline, _, fun c => isIndent_of_mem_indentation, rfl⟩
  · simp only [appendToBody, hbody, htake, htail, ← htrim, hdrop]
    simp only [regionOf, List.append_assoc]

/-- The place of a registration is counted from the end of the last call. -/
theorem place_behind_call (anchor : Anchor) {before call line : Text}
    (htext : text = opening ++ (before ++ (call ++ line) ++ back ++ '\x7d' :: rest))
    (hcall : callEnd? (call ++ (line ++ back)) = some call.length) :
    ∃ callEnd, endOfCall? text (opening.length + before.length)
        (opening.length + (before ++ (call ++ line) ++ back).length) = some callEnd ∧
      (match anchor with
        | .line => endOfLine text callEnd (opening.length + (before ++ (call ++ line) ++ back).length)
        | .statement => callEnd) = (opening ++ before ++ call).length + placeBehind anchor (line ++ back) := by
  -- offsets and the limit are counted from the start of the text, so the pieces are added up
  have hlimit : opening.length + (before ++ (call ++ line) ++ back).length
      = (opening ++ before).length + (call ++ (line ++ back)).length := by
    simp only [List.length_append]
    omega
  refine ⟨(opening ++ before ++ call).length, ?_, ?_⟩
  · have hsplit : text = (opening ++ before) ++ ((call ++ (line ++ back)) ++ '\x7d' :: rest) := by
      rw [htext]
      simp only [List.append_assoc]
    rw [hlimit, ← List.length_append, hsplit, endOfCall?_eq, hcall, Option.map_some, ← List.length_append]
  · have hsplit : text = (opening ++ before ++ call) ++ ((line ++ back) ++ '\x7d' :: rest) := by
      rw [htext]
      simp only [List.append_assoc]
    have hend : (opening ++ before).length + (call ++ (line ++ back)).length
        = (opening ++ before ++ call).length + (line ++ back).length := by
      simp only [List.length_append]
      omega
    rw [hlimit, hend, hsplit, place_eq]

/-- How the lines of a registration are laid out: indented like the line of a call or with spaces and tabs,
and in front of what was there or of a line for the closing brace. -/
structure LaysOut (text setter indent back ending : Text) : Prop where
  /-- The indentation is made of spaces and tabs, or it stands in front of a call. -/
  indent_cases : (∀ c ∈ indent, isIndent c = true) ∨
    ∃ lead more, text = lead ++ (indent ++ (setter ++ more))
  /-- Behind the lines is what was there, or the indentation of the closing brace. -/
  ending_cases : ending = back ∨ ∃ gap, (∀ c ∈ gap, isIndent c = true) ∧ ending = lineBreak text ++ gap

/-- A call that a body ends with, or goes on behind, stands in the text. -/
theorem drop_of_lastIndexOf? {before setter : Text} (more : Text)
    (htext : text = opening ++ (before ++ more ++ '\x7d' :: rest))
    (hlast : lastIndexOf? setter (before ++ more) = some before.length) :
    ∃ behind, text.drop (opening.length + before.length) = setter ++ behind := by
  obtain ⟨-, hprefix, -⟩ := lastIndexOf?_eq_some_iff.mp hlast
  rw [List.drop_left] at hprefix
  obtain ⟨behind, hbehind⟩ := hprefix
  refine ⟨behind ++ '\x7d' :: rest, ?_⟩
  rw [htext, ← List.length_append, List.append_assoc before, ← List.append_assoc opening, List.drop_left,
    ← hbehind, List.append_assoc]

/-- What a registration step does to a method whose body has neither the registration nor its trailing
blanks on the line of its last characters, and how it lays out the lines. -/
theorem insertRegistration_of_isCut (hm : IsMethod layout.methodName opening (front ++ back) rest start)
    (habsent : ¬ registration.call <:+: front ++ back) (hcut : IsCut layout anchor front back)
    (htext : text = opening ++ (front ++ back ++ '\x7d' :: rest)) :
    ∃ indent ending, (∀ c ∈ indent, isBlank c = true) ∧ '\n' ∉ indent ∧
      (ending = back ∨ '\n' ∉ back ∧ ¬ layout.setter <:+: front ++ back ∧
        front = trimEnd (front ++ back) ∧ ∀ c ∈ ending, isBlank c = true) ∧
      LaysOut text layout.setter indent back ending ∧
      insertRegistration text registration layout anchor = .added (opening ++ (front
        ++ (indented (lineBreak text) indent registration.lines ++ ending) ++ '\x7d' :: rest)) := by
  have hlocated : locate? text layout.methodName = some (regionOf opening (front ++ back) start) := by
    rw [htext, hm.locate?]
  have hbody : (regionOf opening (front ++ back) start).body text = front ++ back := by
    rw [htext, body_regionOf]
  have hpresent : occursIn registration.call (front ++ back) = false := occursIn_eq_false_iff.mpr habsent
  simp only [insertRegistration, hlocated, hbody, hpresent, Bool.false_eq_true, if_false]
  cases hcut with
  | atEnd hsetter htrim =>
    -- the lines are indented with spaces and tabs, whether or not the closing brace gets a line of its own
    obtain ⟨indent, ending, hindent, hending, hadded⟩ :=
      appendToBody_eq start htrim htext registration.lines
    simp only [lastIndexOf?_eq_none_iff.mpr hsetter, hadded]
    refine ⟨indent, ending, fun c hc => isBlank_of_isIndent (hindent c hc),
      fun hc => absurd (hindent _ hc) (by decide), ?_, ⟨.inl hindent, hending.imp_right And.right⟩, rfl⟩
    refine hending.imp_right fun ⟨hback, gap, hgap, hending⟩ => ⟨hback, hsetter, htrim, fun c hc => ?_⟩
    rw [hending] at hc
    rcases List.mem_append.mp hc with hc | hc
    · exact isBlank_of_mem_lineBreak hc
    · exact isBlank_of_isIndent (hgap c hc)
  | @afterCall before call line hfront hlast hcall _ hplace _ _ =>
    subst hfront
    -- the place is an offset in the whole text: behind the call and what its line goes on with
    obtain ⟨callEnd, hend, hplaced⟩ := place_behind_call anchor htext hcall
    have hfront : (opening ++ before ++ call).length + placeBehind anchor (line ++ back)
        = (opening ++ (before ++ (call ++ line))).length := by
      rw [hplace]
      simp only [List.length_append]
      omega
    rw [hfront] at hplaced
    have hinsert : ∀ added, insertAt (opening ++ (before ++ (call ++ line))).length added text
        = opening ++ (before ++ (call ++ line) ++ (added ++ back) ++ '\x7d' :: rest) := by
      intro added
      rw [htext, show opening ++ (before ++ (call ++ line) ++ back ++ '\x7d' :: rest)
        = (opening ++ (before ++ (call ++ line))) ++ (back ++ '\x7d' :: rest) by
          simp only [List.append_assoc], insertAt_append]
      simp only [List.append_assoc]
    have hcases := callIndent_cases text (regionOf opening (before ++ (call ++ line) ++ back) start)
      (opening.length + before.length)
    obtain ⟨behind, hbehind⟩ := drop_of_lastIndexOf? (call ++ line ++ back)
      (by simpa only [List.append_assoc] using htext) (by simpa only [List.append_assoc] using hlast)
    refine ⟨callIndent text (regionOf opening (before ++ (call ++ line) ++ back) start)
      (opening.length + before.length), back, fun c => isBlank_of_mem_callIndent, newline_notMem_callIndent,
      .inl rfl, ⟨hcases.imp_right fun ⟨lead, hlead⟩ => ⟨lead, behind, hbehind ▸ hlead⟩, .inl rfl⟩, ?_⟩
    simp only [hlast, regionOf, hend]
    exact congrArg Edit.added ((congrArg (insertAt · _ text) hplaced).trans (hinsert _))

/-- A registration step that finds its result has found the method and the registration in its body. -/
theorem exists_region_of_present (h : insertRegistration text registration layout anchor = .present) :
    ∃ region, locate? text layout.methodName = some region ∧ registration.call <:+: region.body text := by
  cases hloc : locate? text layout.methodName with
  | none => simp [insertRegistration, hloc] at h
  | some region =>
    refine ⟨region, rfl, occursIn_iff.mp ?_⟩
    by_contra habsent
    simp only [insertRegistration, hloc, habsent, if_false] at h
    split at h
    · cases h
    · split at h <;> cases h

/-- A registration step refuses to go behind a call that is not closed in the body. -/
theorem insertRegistration_of_not_closed {last : Nat} (hm : IsMethod layout.methodName opening body rest start)
    (habsent : ¬ registration.call <:+: body) (hlast : lastIndexOf? layout.setter body = some last)
    (hcall : callEnd? (body.drop last) = none) (htext : text = opening ++ (body ++ '\x7d' :: rest)) :
    insertRegistration text registration layout anchor = .refused (.callNotClosed layout) := by
  have hlocated : locate? text layout.methodName = some (regionOf opening body start) := by
    rw [htext, hm.locate?]
  have hbody : (regionOf opening body start).body text = body := by
    rw [htext, body_regionOf]
  obtain ⟨hle, -, -⟩ := lastIndexOf?_eq_some_iff.mp hlast
  -- the call is read from where it starts up to the end of the body, and no further
  have hsplit : text = (opening ++ body.take last) ++ (body.drop last ++ '\x7d' :: rest) := by
    rw [htext, List.append_assoc, ← List.append_assoc (body.take last), List.take_append_drop]
  have hlen : (opening ++ body.take last).length = opening.length + last := by
    rw [List.length_append, List.length_take, Nat.min_eq_left hle]
  have hlimit : (opening ++ body.take last).length + (body.drop last).length
      = opening.length + body.length := by
    rw [hlen, List.length_drop]
    omega
  have hnone : endOfCall? text (opening.length + last) (opening.length + body.length) = none := by
    have := endOfCall?_eq (opening ++ body.take last) (body.drop last) ('\x7d' :: rest)
    rwa [← hsplit, hlimit, hlen, hcall] at this
  have hregion : (regionOf opening body start).bodyStart = opening.length ∧
      (regionOf opening body start).bodyEnd = opening.length + body.length := ⟨rfl, rfl⟩
  simp [insertRegistration, hlocated, hbody, occursIn_eq_false_iff.mpr habsent, hlast, hregion, hnone]

end Steps

/-! ## Seams -/

/-- A text taken apart where a registration goes. -/
structure Seam where
  /-- The text up to the opening brace of the method. -/
  opening : Text
  /-- The body in front of the registration. -/
  front : Text
  /-- The body behind it. -/
  back : Text
  /-- The text behind the closing brace. -/
  rest : Text
  /-- The offset of the signature. -/
  start : Nat
  /-- The indentation of the lines. -/
  indent : Text
  /-- What stands between the lines and the closing brace in the end. -/
  ending : Text

namespace Seam

/-- The body in which the registration is added. -/
def body (seam : Seam) : Text :=
  seam.front ++ seam.back

/-- The lines between the two parts of the body. -/
def added (seam : Seam) (text : Text) (registration : Registration) : Text :=
  indented (lineBreak text) seam.indent registration.lines

/-- What an `insertRegistration` that adds something does. -/
structure Adds (seam : Seam) (text result : Text) (registration : Registration) (layout : Layout)
    (anchor : Anchor) : Prop where
  /-- The parts are those of the text. -/
  text_eq : text = seam.opening ++ (seam.body ++ '\x7d' :: seam.rest)
  /-- The method is the registering one. -/
  isMethod : IsMethod layout.methodName seam.opening seam.body seam.rest seam.start
  /-- The registration was not there. -/
  absent : ¬ registration.call <:+: seam.body
  /-- The place is one for registrations. -/
  isCut : IsCut layout anchor seam.front seam.back
  /-- The lines are indented with blanks. -/
  indent_blank : ∀ c ∈ seam.indent, isBlank c = true
  /-- The indentation breaks no line. -/
  indent_unbroken : '\n' ∉ seam.indent
  /-- The body behind the place stays, or it is blank and the closing brace gets a line of its own. -/
  ending_cases : seam.ending = seam.back ∨ '\n' ∉ seam.back ∧ ¬ layout.setter <:+: seam.body ∧
    seam.front = trimEnd seam.body ∧ ∀ c ∈ seam.ending, isBlank c = true
  /-- The lines are put in between. -/
  result_eq : result = seam.opening
    ++ (seam.front ++ (seam.added text registration ++ seam.ending) ++ '\x7d' :: seam.rest)

end Seam

/-- An added registration has a seam, along which its lines are laid out. -/
theorem exists_seam_laidOut (h : insertRegistration text registration layout anchor = .added result) :
    ∃ seam : Seam, seam.Adds text result registration layout anchor ∧
      LaysOut text layout.setter seam.indent seam.back seam.ending := by
  cases hloc : locate? text layout.methodName with
  | none => simp [insertRegistration, hloc] at h
  | some region =>
    obtain ⟨opening, body, rest, htext, hm, hregion⟩ := exists_isMethod hloc
    generalize region.signatureStart = start at hm hregion
    subst hregion
    have hbody : (regionOf opening body start).body text = body := by
      rw [htext, body_regionOf]
    have habsent : ¬ registration.call <:+: body := by
      intro hin
      simp [insertRegistration, hloc, hbody, occursIn_iff.mpr hin] at h
    -- where the registration was added there is a place, as it is refused otherwise
    rcases isCut_or_not_closed layout anchor body with ⟨front, back, rfl, hcut⟩ | ⟨last, hlast, hcall⟩
    · obtain ⟨indent, ending, hindent, hunbroken, hending, hlaid, heq⟩ :=
        insertRegistration_of_isCut hm habsent hcut htext
      rw [heq] at h
      exact ⟨⟨opening, front, back, rest, start, indent, ending⟩, ⟨htext, hm, habsent, hcut, hindent,
        hunbroken, hending, (Edit.added.inj h).symm⟩, hlaid⟩
    · rw [insertRegistration_of_not_closed hm habsent hlast hcall htext] at h
      cases h

theorem exists_seam (h : insertRegistration text registration layout anchor = .added result) :
    ∃ seam : Seam, seam.Adds text result registration layout anchor :=
  (exists_seam_laidOut h).imp fun _ => And.left

/-- The body of the registering method, as `locate?` finds it. -/
def registeringBody? (layout : Layout) (text : Text) : Option Text :=
  (locate? text layout.methodName).map fun region => region.body text

namespace Seam.Adds

variable {seam : Seam}

/-- What is added behind the place is blank where it is not what was there. -/
theorem ending_blank (h : seam.Adds text result registration layout anchor) (hne : seam.ending ≠ seam.back) :
    seam.front = trimEnd seam.body ∧ (∀ c ∈ seam.back, isBlank c = true) ∧
      ∀ c ∈ seam.ending, isBlank c = true := by
  obtain ⟨-, -, htrim, hblank⟩ := h.ending_cases.resolve_left hne
  exact ⟨htrim, fun c => isBlank_of_trimEnd htrim, hblank⟩

/-- The method is found again around lines that close the braces they open. -/
theorem isMethod_result (h : seam.Adds text result registration layout anchor)
    (hadded : Balanced (seam.added text registration)) :
    IsMethod layout.methodName seam.opening (seam.front ++ (seam.added text registration ++ seam.ending))
      seam.rest seam.start := by
  have hmethod := h.isMethod
  -- with the same ending the lines are put in, and nothing is exchanged for them
  by_cases hkept : seam.ending = seam.back
  · rw [body, ← List.append_nil seam.front] at hmethod
    have := hmethod.exchange (v := seam.added text registration) hadded.closed.symm hadded.nonneg
    rwa [List.append_assoc, ← hkept] at this
  · -- the trailing blanks are exchanged for the lines and blanks
    obtain ⟨-, hback, hending⟩ := h.ending_blank hkept
    have hbalanced := hadded.append (balanced_of_blank hending)
    have hlevel : level seam.back = level (seam.added text registration ++ seam.ending) := by
      rw [hbalanced.closed, (balanced_of_blank hback).closed]
    rw [body, ← List.append_nil (seam.front ++ seam.back)] at hmethod
    have := hmethod.exchange hlevel hbalanced.nonneg
    rwa [List.append_nil] at this

/-- The method is found again around lines with balanced braces. -/
theorem isMethod_after (h : seam.Adds text result registration layout anchor)
    (hlines : ∀ line ∈ registration.lines, Balanced line) :
    IsMethod layout.methodName seam.opening (seam.front ++ (seam.added text registration ++ seam.ending))
      seam.rest seam.start :=
  h.isMethod_result (balanced_indented (fun _ => isBlank_of_mem_lineBreak) h.indent_blank hlines)

theorem registeringBody?_eq (h : seam.Adds text result registration layout anchor) :
    registeringBody? layout text = some seam.body := by
  rw [registeringBody?, h.text_eq, h.isMethod.locate?, Option.map_some, body_regionOf]

theorem registeringBody?_result (h : seam.Adds text result registration layout anchor)
    (hlines : ∀ line ∈ registration.lines, Balanced line) :
    registeringBody? layout result = some (seam.front ++ (seam.added text registration ++ seam.ending)) := by
  rw [registeringBody?, h.result_eq, (h.isMethod_after hlines).locate?, Option.map_some, body_regionOf]

end Seam.Adds

/-- An added registration is an edit of the body of the registering method. -/
theorem insertRegistration_eq_added
    (h : insertRegistration text registration layout anchor = .added result) :
    ∃ edit : BodyEdit, edit.Registers registration layout ∧ text = edit.before ∧ result = edit.after ∧
      edit.HasPlace := by
  obtain ⟨seam, hs⟩ := exists_seam h
  have hends : ((∀ c ∈ seam.back, isBlank c = true) ∧ ∀ c ∈ seam.ending, isBlank c = true) ∨
      seam.ending = seam.back ∧ (seam.back = [] ∨ endsLikeCall seam.front ∨ startsWithBreak seam.back) := by
    by_cases hkept : seam.ending = seam.back
    · rcases hs.isCut.cases_front with ⟨htrim, -⟩ | hcall | hback
      · have hblank : ∀ c ∈ seam.back, isBlank c = true := fun c => isBlank_of_trimEnd htrim
        exact .inl ⟨hblank, hkept ▸ hblank⟩
      · exact .inr ⟨hkept, .inr (.inl hcall)⟩
      · exact .inr ⟨hkept, hback.imp_right .inr⟩
    · exact .inl (hs.ending_blank hkept).2
  -- at the end of the body the edit reaches up to the closing brace, elsewhere it takes nothing away
  rcases hends with ⟨hblank, hending⟩ | ⟨hkept, hplace⟩
  · -- the trailing blanks are exchanged for the lines and blanks
    let edit : BodyEdit := ⟨seam.opening, seam.front, seam.back,
      seam.added text registration ++ seam.ending, [], seam.rest⟩
    have hbody : edit.front ++ edit.removed ++ edit.back = seam.body := by simp [edit, Seam.body]
    have hbefore : text = edit.before := by rw [BodyEdit.before, hbody]; exact hs.text_eq
    refine ⟨edit, ⟨⟨seam.start, hbody ▸ hs.isMethod⟩, hbody ▸ hs.absent, hblank, seam.indent, seam.ending,
      hs.indent_blank, hending, by rw [← hbefore]; rfl⟩, hbefore, ?_, .inl rfl⟩
    simp [edit, BodyEdit.after, hs.result_eq]
  · let edit : BodyEdit := ⟨seam.opening, seam.front, [], seam.added text registration, seam.back, seam.rest⟩
    have hbody : edit.front ++ edit.removed ++ edit.back = seam.body := by simp [edit, Seam.body]
    have hbefore : text = edit.before := by rw [BodyEdit.before, hbody]; exact hs.text_eq
    refine ⟨edit, ⟨⟨seam.start, hbody ▸ hs.isMethod⟩, hbody ▸ hs.absent, by simp [edit], seam.indent, [],
      hs.indent_blank, by simp, by rw [← hbefore, List.append_nil]; rfl⟩, hbefore, ?_,
      hplace.imp_right fun hplace => ⟨rfl, hplace⟩⟩
    simp [edit, BodyEdit.after, hs.result_eq, hkept]

end ComponentKit.Registry
