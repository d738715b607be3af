import ComponentKit.Proofs.Registry.Idempotence
import ComponentKit.Proofs.Registry.Sequence

/-!
# Runs of legacy patches

A legacy registration is a pair of lines: the call, and on the next line the start of the component. The next
registration goes behind the line of the last call, so it goes into the middle of the last pair. A run of patches
(`patchAll`) leaves the calls in order and behind them the lines that start the components, the last one first:
only the last pair stays together.
-/

namespace ComponentKit.Registry

open Text Source Component

variable {kind : IndexedKind} {update : Update} {updates applied : List Update}
  {text middle front back body line next newline indent : Text} {lines more : List Text}

/-! ## Lines that register nothing -/

/-- Lines that register nothing, in front of a text that registers nothing. -/
theorem AreLines.setter_not_infix_append (h : AreLines lines text)
    (hlines : ∀ line ∈ lines, IsBodyLine line ∧ ¬ (layout kind).setter <:+: line)
    (hback : ¬ (layout kind).setter <:+: back) : ¬ (layout kind).setter <:+: text ++ back := by
  obtain ⟨hhead, hsemi, -⟩ := setter_facts kind
  induction h with
  | nil => exact hback
  | cons hn hi _ _ ih =>
    obtain ⟨hline, hnot⟩ := hlines _ List.mem_cons_self
    rw [List.append_assoc]
    exact not_infix_line_append hhead (by decide) hsemi hn hi hline hnot
      (ih fun line hl => hlines line (List.mem_cons_of_mem _ hl))

/-! ## The very next line -/

/-- What stands on the next line from its first character on that is not blank, right behind the end of a
line. -/
def nextLine? : Text → Option Text
  | '\n' :: rest => some (rest.dropWhile fun c => isBlank c && c != '\n')
  | '\r' :: '\n' :: rest => some (rest.dropWhile fun c => isBlank c && c != '\n')
  | _ => none

/-- Whether a line is somewhere followed, on the very next line, by another one. -/
def isFollowedBy (line next text : Text) : Bool :=
  text.tails.any fun tail => ((dropLead? line tail).bind nextLine?).any (next.isPrefixOf ·)

theorem isFollowedBy_append (hn : IsBreak newline) (hi : ∀ c ∈ indent, isBlank c = true)
    (hunbroken : '\n' ∉ indent) (hnext : IsBodyLine next) (before after : Text) :
    isFollowedBy line next (before ++ (line ++ ((newline ++ indent ++ next) ++ after))) = true := by
  obtain ⟨tail, rfl⟩ := List.head?_eq_some_iff.mp hnext.head
  have hlead : ∀ c ∈ indent, (isBlank c && c != '\n') = true := by
    intro c hc
    rw [Bool.and_eq_true, bne_iff_ne]
    refine ⟨hi c hc, ?_⟩
    rintro rfl
    exact hunbroken hc
  have hdrop : (indent ++ ('t' :: tail ++ after)).dropWhile (fun c => isBlank c && c != '\n')
      = 't' :: tail ++ after := by
    rw [dropWhile_eq_of_forall hlead (by rfl)]
  have hline : nextLine? ((newline ++ indent ++ ('t' :: tail)) ++ after) = some ('t' :: tail ++ after) := by
    rw [List.append_assoc, List.append_assoc]
    rcases hn with rfl | rfl <;>
    · show some ((indent ++ ('t' :: tail ++ after)).dropWhile _) = _
      rw [hdrop]
  -- the suffix that starts with the line is the one to look at
  rw [isFollowedBy, List.any_eq_true]
  refine ⟨_, (List.mem_tails _ _).mpr (List.suffix_append before _), ?_⟩
  rw [dropLead?_eq_some_iff.mpr rfl, Option.bind_some, hline, Option.any_some, List.isPrefixOf_iff_prefix]
  exact List.prefix_append _ _

/-! ## One patch -/

/-- A legacy registration is a pair of lines. -/
theorem lines_registration_legacy (hu : IsWiring kind update) :
    (update.registration .legacy).lines = [update.registrationLine, update.initializationLine] := by
  simp [Update.registration, Registration.lines, hu.initialization_ne_nil]

theorem isBodyLine_initialization (hu : IsWiring kind update) : IsBodyLine update.initializationLine := by
  refine hu.isBodyLine .legacy _ ?_
  rw [lines_registration_legacy hu]
  simp

/-- A legacy patch that adds a registration has a seam. -/
theorem exists_seam_legacy (hu : IsWiring kind update)
    (hadded : (patch .legacy text update).registrationAdded = true) :
    ∃ seam : Seam, seam.Adds (imported text update) (patch .legacy text update).text
      (update.registration .legacy) (layout kind) .line := by
  obtain ⟨seam, hs⟩ := exists_seam_patch hadded
  rw [hu.kind_eq] at hs
  exact ⟨seam, hs⟩

/-- A patch leaves its own pair together. -/
theorem isFollowedBy_patch (hu : IsWiring kind update)
    (hadded : (patch .legacy text update).registrationAdded = true) :
    isFollowedBy update.registrationLine update.initializationLine (patch .legacy text update).text = true := by
  obtain ⟨seam, hs⟩ := exists_seam_legacy hu hadded
  have hn : IsBreak (lineBreak (imported text update)) := isBreak_lineBreak _
  rw [hs.result_eq, Seam.added, lines_registration_legacy hu, indented_cons, indented_cons]
  have hfollowed : ∀ before after, isFollowedBy update.registrationLine update.initializationLine
      (before ++ (update.registrationLine ++ ((lineBreak (imported text update) ++ seam.indent
        ++ update.initializationLine) ++ after))) = true :=
    isFollowedBy_append hn hs.indent_blank hs.indent_unbroken (isBodyLine_initialization hu)
  have := hfollowed (seam.opening ++ seam.front ++ (lineBreak (imported text update) ++ seam.indent))
    (indented (lineBreak (imported text update)) seam.indent [] ++ seam.ending ++ '\x7d' :: seam.rest)
  simpa only [List.append_assoc] using this

/-! ## Pairs put into each other -/

/-- A body with registrations in order between two parts, and behind them the lines that start the
components, the last one first. -/
structure IsNested (kind : IndexedKind) (updates : List Update) (front back body : Text) : Prop where
  /-- The lines are between the two parts. -/
  lines : ∃ calls starts, body = front ++ (calls ++ starts) ++ back ∧
    AreLines (updates.map (·.registrationLine)) calls ∧
    AreLines (updates.map (·.initializationLine)).reverse starts
  /-- The part behind registers nothing. -/
  setter_not_infix_back : ¬ (layout kind).setter <:+: back

/-- The next registration goes between the calls and the lines that start the components. -/
theorem IsNested.isCut (h : IsNested kind (applied ++ [update]) front back body)
    (happlied : ∀ other ∈ applied ++ [update], IsWiring kind other) :
    ∃ calls starts, body = (front ++ calls) ++ (starts ++ back) ∧
      AreLines ((applied ++ [update]).map (·.registrationLine)) calls ∧
      AreLines ((applied ++ [update]).map (·.initializationLine)).reverse starts ∧
      IsCut (layout kind) .line (front ++ calls) (starts ++ back) := by
  obtain ⟨calls, starts, rfl, hcalls, hstarts⟩ := h.lines
  have hu := happlied update (by simp)
  have hlast := hcalls
  rw [List.map_append] at hlast
  obtain ⟨x, newline, indent, rfl⟩ := hlast.exists_last
  have hbreak : startsWithBreak starts := hstarts.startsWithBreak (by simp)
  -- behind the last call there is no other one
  have hsetter : ¬ (layout kind).setter <:+: starts ++ back := by
    refine hstarts.setter_not_infix_append (fun line hline => ?_) h.setter_not_infix_back
    obtain ⟨other, hother, rfl⟩ := List.mem_map.mp (List.mem_reverse.mp hline)
    exact ⟨isBodyLine_initialization (happlied other hother),
      (happlied other hother).setter_not_infix_initialization⟩
  have hplace : placeBehind .line ([] ++ (starts ++ back)) = 0 := by
    obtain ⟨rest, hrest⟩ := hbreak.append_right back
    rcases hrest with hrest | hrest <;>
    · rw [hrest]
      simp [placeBehind, endOfLine, slice]
  -- so the last call is the one of the last update
  have hindex := lastIndexOf?_append (x := front ++ (x ++ (newline ++ indent)))
    (hu.setter_prefix.trans (List.prefix_append _ (starts ++ back))) (setter_not_infix_tail_append hu hsetter)
  have hfront : front ++ (x ++ (newline ++ indent ++ update.registrationLine))
      = (front ++ (x ++ (newline ++ indent))) ++ (update.registrationLine ++ []) := by
    simp only [List.append_assoc, List.append_nil]
  refine ⟨_, starts, by simp only [List.append_assoc], hcalls, hstarts,
    .afterCall hfront ?_ (hu.callEnd?_eq _) hu.endsLikeCall hplace (by simp) (.inl rfl)⟩
  rw [← hindex]
  simp only [List.append_assoc]

/-- A patch puts its pair into the last one. -/
theorem IsNested.patch (h : IsNested kind (applied ++ [update]) front back body)
    (happlied : ∀ other ∈ applied ++ [update], IsWiring kind other) {later : Update}
    (hlater : IsWiring kind later) (hadded : (Registry.patch .legacy text later).registrationAdded = true)
    (hbody : registeringBody? (layout kind) (imported text later) = some body) :
    ∃ after, registeringBody? (layout kind) (Registry.patch .legacy text later).text = some after ∧
      IsNested kind (applied ++ [update] ++ [later]) front back after := by
  obtain ⟨seam, hs⟩ := exists_seam_legacy hlater hadded
  obtain ⟨calls, starts, rfl, hcalls, hstarts, hcut⟩ := h.isCut happlied
  rw [hs.registeringBody?_eq] at hbody
  obtain ⟨hfront, hback⟩ := hs.isCut.unique hcut (Option.some.inj hbody)
  -- the body has a registration, so that nothing is taken away
  have hending : seam.ending = seam.back := by
    refine hs.ending_cases.resolve_right fun hno => hno.2.1 ?_
    have hcalls' := hcalls
    rw [List.map_append] at hcalls'
    obtain ⟨x, newline, indent, rfl⟩ := hcalls'.exists_last
    have hu := happlied update (by simp)
    refine hu.setter_prefix.isInfix.trans ⟨front ++ (x ++ (newline ++ indent)), starts ++ back, ?_⟩
    rw [Seam.body, hfront, hback]
    simp only [List.append_assoc]
  have hpair : AreLines [later.registrationLine, later.initializationLine]
      (seam.added (imported text later) (later.registration .legacy)) := by
    rw [← lines_registration_legacy hlater]
    exact areLines_indented (isBreak_lineBreak _) hs.indent_blank hs.indent_unbroken _
  refine ⟨_, hs.registeringBody?_result (hlater.balanced_lines .legacy), ⟨?_, h.setter_not_infix_back⟩⟩
  -- the two added lines are parted: the call joins the calls, the start goes in front of the starts
  obtain ⟨call, start, hsplit, hcall, hstart⟩ : ∃ call start,
      seam.added (imported text later) (later.registration .legacy) = call ++ start ∧
        AreLines [later.registrationLine] call ∧ AreLines [later.initializationLine] start := by
    generalize seam.added (imported text later) (later.registration .legacy) = added at hpair
    obtain _ | ⟨hn, hi, hunbroken, hstart⟩ := hpair
    refine ⟨_, _, rfl, ?_, hstart⟩
    rw [← List.append_nil (_ ++ later.registrationLine)]
    exact .cons hn hi hunbroken .nil
  refine ⟨calls ++ call, start ++ starts, ?_, ?_, ?_⟩
  · rw [hsplit, hending, hfront, hback]
    simp only [List.append_assoc]
  · rw [List.map_append]
    exact hcalls.append hcall
  · rw [List.map_append, List.reverse_append]
    exact hstart.append hstarts

/-- The first patch puts its pair where registrations go. -/
theorem isNested_first (hu : IsWiring kind update)
    (hadded : (patch .legacy text update).registrationAdded = true) :
    ∃ front back ending, registeringBody? (layout kind) (imported text update) = some (front ++ back) ∧
      (ending = back ∨ ∀ c ∈ back ++ ending, isBlank c = true) ∧
      ∃ after, registeringBody? (layout kind) (patch .legacy text update).text = some after ∧
        IsNested kind [update] front ending after := by
  obtain ⟨seam, hs⟩ := exists_seam_legacy hu hadded
  have hends : seam.ending = seam.back ∨ ∀ c ∈ seam.back ++ seam.ending, isBlank c = true := by
    by_cases hkept : seam.ending = seam.back
    · exact .inl hkept
    · obtain ⟨-, hback, hending⟩ := hs.ending_blank hkept
      exact .inr fun c hc => (List.mem_append.mp hc).elim (hback c) (hending c)
  -- the pair itself is the nest, with nothing between its two lines
  refine ⟨seam.front, seam.back, seam.ending, hs.registeringBody?_eq, hends, _,
    hs.registeringBody?_result (hu.balanced_lines .legacy), ⟨?_, ?_⟩⟩
  · have hn : IsBreak (lineBreak (imported text update)) := isBreak_lineBreak _
    refine ⟨indented (lineBreak (imported text update)) seam.indent [update.registrationLine],
      indented (lineBreak (imported text update)) seam.indent [update.initializationLine], ?_,
      areLines_indented hn hs.indent_blank hs.indent_unbroken _,
      areLines_indented hn hs.indent_blank hs.indent_unbroken _⟩
    rw [Seam.added, lines_registration_legacy hu]
    simp only [indented, List.flatMap_cons, List.flatMap_nil, List.append_nil, List.append_assoc]
  · by_cases hkept : seam.ending = seam.back
    · rw [hkept]
      exact hs.isCut.setter_not_infix_back
    · -- a setter does not start with a blank
      intro hin
      obtain ⟨tail, htail⟩ := List.head?_eq_some_iff.mp (setter_facts kind).1
      have hmem : 't' ∈ seam.ending := hin.subset (by rw [htail]; exact List.mem_cons_self)
      exact absurd ((hs.ending_blank hkept).2.2 _ hmem) (by decide)

/-! ## Runs -/

/-- Whether no `insertImport` of a run of patches changes the body of the registering method. -/
def keepsBody (kind : IndexedKind) (style : RegistryStyle) : Text → List Update → Bool
  | _, [] => true
  | text, update :: updates => registeringBody? (layout kind) (imported text update) == registeringBody? (layout kind) text
    && keepsBody kind style (patch style text update).text updates

/-- Each further patch puts its pair into the last one. -/
theorem IsNested.patches (h : IsNested kind (applied ++ [update]) front back body)
    (happlied : ∀ other ∈ applied ++ [update], IsWiring kind other)
    (hbody : registeringBody? (layout kind) text = some body) (hupdates : ∀ other ∈ updates, IsWiring kind other)
    (hadded : ∀ patch ∈ patches .legacy text updates, patch.registrationAdded = true)
    (hkeeps : keepsBody kind .legacy text updates = true) :
    ∃ after, registeringBody? (layout kind) (patchAll .legacy text updates) = some after ∧
      IsNested kind (applied ++ [update] ++ updates) front back after := by
  -- on the updates; the one just applied is the innermost pair that the next one goes into
  induction updates generalizing applied update text body with
  | nil => exact ⟨body, hbody, by rwa [List.append_nil]⟩
  | cons later updates ih =>
    obtain ⟨hlater, hrest⟩ := List.forall_mem_cons.mp hupdates
    obtain ⟨hfirst, hothers⟩ := List.forall_mem_cons.mp hadded
    rw [keepsBody, Bool.and_eq_true, beq_iff_eq, hbody] at hkeeps
    obtain ⟨after, hafter, hnested⟩ := h.patch happlied hlater hfirst hkeeps.1
    have happlied' : ∀ other ∈ applied ++ [update] ++ [later], IsWiring kind other := by
      intro other hother
      rcases List.mem_append.mp hother with hother | hother
      · exact happlied other hother
      · exact List.mem_singleton.mp hother ▸ hlater
    have hrun := ih hnested happlied' hafter hrest hothers hkeeps.2
    rw [List.append_assoc (applied ++ [update]), List.singleton_append] at hrun
    rwa [patchAll, List.foldl_cons]

theorem patches_concat (style : RegistryStyle) (text : Text) (updates : List Update) (update : Update) :
    patches style text (updates ++ [update])
      = patches style text updates ++ [patch style (patchAll style text updates) update] := by
  induction updates generalizing text with
  | nil => rfl
  | cons first updates ih =>
    rw [List.cons_append, patches, ih, patches, List.cons_append, patchAll, patchAll, List.foldl_cons]

/-- Legacy patches for generated updates of one kind, by `patchAll`, each of which adds its registration. The pair of
the last one is together in the end. If no import goes into the body of the method, the body has the calls of all
updates in order, each on the next line behind the one before, and behind them the lines that start the components,
the last one first. -/
theorem patchAll_legacy (hmakes : ∀ update ∈ updates, ∃ key, Makes kind key update)
    (hadded : ∀ patch ∈ patches .legacy text updates, patch.registrationAdded = true) :
    (∀ last ∈ updates.getLast?, isFollowedBy last.registrationLine last.initializationLine
      (patchAll .legacy text updates) = true) ∧
    (updates ≠ [] → keepsBody kind .legacy text updates = true →
      ∃ front back added ending, registeringBody? (layout kind) text = some (front ++ back) ∧
        registeringBody? (layout kind) (patchAll .legacy text updates) = some (front ++ added ++ ending) ∧
        AreLines (updates.map (·.registrationLine) ++ (updates.map (·.initializationLine)).reverse) added ∧
        (ending = back ∨ ∀ c ∈ back ++ ending, isBlank c = true)) := by
  have hwiring : ∀ update ∈ updates, IsWiring kind update := by
    intro update hupdate
    obtain ⟨key, hkey⟩ := hmakes update hupdate
    exact isWiring_of_makes hkey
  refine ⟨fun last hlast => ?_, fun hne hkeeps => ?_⟩
  · obtain ⟨earlier, rfl⟩ := List.getLast?_eq_some_iff.mp hlast
    -- the last patch puts both its lines in at one place
    have hpatch := hadded (patch .legacy (patchAll .legacy text earlier) last) (by
      rw [patches_concat]
      simp)
    rw [patchAll, List.foldl_append]
    exact isFollowedBy_patch (hwiring last (by simp)) hpatch
  · obtain ⟨first, updates, rfl⟩ := List.exists_cons_of_ne_nil hne
    obtain ⟨hfirst, hrest⟩ := List.forall_mem_cons.mp hwiring
    obtain ⟨hpatch, hothers⟩ := List.forall_mem_cons.mp hadded
    rw [keepsBody, Bool.and_eq_true, beq_iff_eq] at hkeeps
    -- the first update opens the nest; each later one goes between its calls and its starts
    obtain ⟨front, back, ending, hbody, hends, middle, hmiddle, hnested⟩ := isNested_first hfirst hpatch
    rw [hkeeps.1] at hbody
    have hsingle : ∀ other ∈ [] ++ [first], IsWiring kind other := by
      intro other hother
      rw [List.nil_append, List.mem_singleton] at hother
      exact hother ▸ hfirst
    have hempty : IsNested kind ([] ++ [first]) front ending middle := hnested
    obtain ⟨after, hafter, hnested⟩ := hempty.patches hsingle hmiddle hrest hothers hkeeps.2
    obtain ⟨calls, starts, rfl, hcalls, hstarts⟩ := hnested.lines
    refine ⟨front, back, calls ++ starts, ending, hbody, ?_, hcalls.append hstarts, hends⟩
    rwa [patchAll, List.foldl_cons]

theorem registrationAdded_listedRegistry :
    ∀ patch ∈ patches .legacy listedRegistry [weather, news], patch.registrationAdded = true := by
  decide +kernel

theorem patchAll_legacy_weather_news :
    (∀ update ∈ [weather, news], ∃ key, Makes .tool key update) ∧
      (∀ patch ∈ patches .legacy listedRegistry [weather, news], patch.registrationAdded = true) ∧
      isFollowedBy news.registrationLine news.initializationLine
        (patchAll .legacy listedRegistry [weather, news]) = true ∧
      ∃ front back added ending, registeringBody? (layout .tool) listedRegistry = some (front ++ back) ∧
        registeringBody? (layout .tool) (patchAll .legacy listedRegistry [weather, news])
          = some (front ++ added ++ ending) ∧
        AreLines [weather.registrationLine, news.registrationLine, news.initializationLine,
          weather.initializationLine] added ∧
        (ending = back ∨ ∀ c ∈ back ++ ending, isBlank c = true) := by
  have hmakes : ∀ update ∈ [weather, news], ∃ key, Makes .tool key update :=
    List.forall_mem_cons.mpr ⟨⟨_, makes_weather⟩, List.forall_mem_cons.mpr ⟨⟨_, makes_news⟩, by simp⟩⟩
  obtain ⟨hlast, hbody⟩ := patchAll_legacy hmakes registrationAdded_listedRegistry
  exact ⟨hmakes, registrationAdded_listedRegistry, hlast news rfl, hbody (by simp) (by decide +kernel)⟩

/-- The second patch parts the pair of the first one. -/
theorem patchAll_legacy_parts_pair :
    List.Forall₂ (Makes .tool) ["weather", "news"] [weather, news] ∧
      (∀ update ∈ [weather, news], ∀ line ∈ [update.importLine, update.registrationLine],
        occursIn line listedRegistry = false) ∧
      (∀ patch ∈ patches .legacy listedRegistry [weather, news], patch.registrationAdded = true) ∧
      isFollowedBy weather.registrationLine weather.initializationLine
        (patchAll .legacy listedRegistry [weather, news]) = false :=
  ⟨.cons makes_weather (.cons makes_news .nil), by decide +kernel, registrationAdded_listedRegistry,
    by decide +kernel⟩

end ComponentKit.Registry
