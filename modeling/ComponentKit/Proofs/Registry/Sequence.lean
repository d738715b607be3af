import ComponentKit.Proofs.Registry.FirstPatch

/-!
# Patches one after another

A registry that its first patch wires (`IsPatchable`) takes any number of updates for different keys: each patch
adds both lines, no line is lost or repeated, and the lines stand in the order of the updates (`patches_add`).
-/

namespace ComponentKit.Registry

open Text Source Component

variable {kind : IndexedKind} {style : RegistryStyle} {update : Update} {updates : List Update}
  {keys : List Text} {key line gap text final front back : Text} {region : Region} {place : ImportPlace}
  {site : Site}

/-- The patches of a text by some updates, one after another, each by `patch`. -/
def patches (style : RegistryStyle) : Text → List Update → List Patch
  | _, [] => []
  | text, update :: updates =>
    patch style text update :: patches style (patch style text update).text updates

/-- The text after the `patches` by some updates. -/
def patchAll (style : RegistryStyle) (text : Text) (updates : List Update) : Text :=
  updates.foldl (fun text update => (patch style text update).text) text

/-! ## Lines of their own -/

/-- Whether a line that starts a line of a text is the end of it. -/
def EndsWithLine (line text : Text) : Prop :=
  ∃ before, text = before ++ line ∧ startsLine true before = true

/-- Whether a line and a gap behind it are a whole line of a text. -/
def HasOwnLine (gap line text : Text) : Prop :=
  ∃ before after, text = before ++ (line ++ (gap ++ after)) ∧ startsLine true before = true ∧
    startsWithBreak after

theorem HasOwnLine.append_right (h : HasOwnLine gap line text) (more : Text) :
    HasOwnLine gap line (text ++ more) := by
  obtain ⟨before, after, rfl, hstarts, hafter⟩ := h
  exact ⟨before, after ++ more, by simp only [List.append_assoc], hstarts, hafter.append_right more⟩

/-- A last line is a whole line when a gap and a line break follow. -/
theorem EndsWithLine.hasOwnLine (h : EndsWithLine line text) (gap : Text) {after : Text}
    (hafter : startsWithBreak after) : HasOwnLine gap line (text ++ (gap ++ after)) := by
  obtain ⟨before, rfl, hstarts⟩ := h
  exact ⟨before, after, by simp only [List.append_assoc], hstarts, hafter⟩

/-- Whether import lines have lines of their own: the last of them, in front of a gap, or all of them and
the gap stands behind one of these. -/
inductive HaveOwnLines (gap : Text) (updates : List Update) (imports behind : Text) : Prop where
  /-- The gap is behind the last import. -/
  | gapBehind {earlier : List Update} {last : Update} : updates = earlier ++ [last] →
      (∀ update ∈ earlier, HasOwnLine [] update.importLine imports) → EndsWithLine last.importLine imports →
      indentation behind = gap → HaveOwnLines gap updates imports behind
  /-- The gap is behind some import line. -/
  | gapInside {exempt : Update} : exempt ∈ updates → HasOwnLine gap exempt.importLine imports →
      (∀ update ∈ updates, update ≠ exempt →
        EndsWithLine update.importLine imports ∨ HasOwnLine [] update.importLine imports) →
      indentation behind = [] → HaveOwnLines gap updates imports behind

/-- One more import line in a line of its own. -/
theorem HaveOwnLines.concat {imports behind newline behind' : Text}
    (h : HaveOwnLines gap updates imports behind) (hn : IsBreak newline)
    (hbehind : indentation behind' = indentation behind) :
    HaveOwnLines gap (updates ++ [update]) (imports ++ (newline ++ update.importLine)) behind' := by
  have hends : EndsWithLine update.importLine (imports ++ (newline ++ update.importLine)) := by
    refine ⟨imports ++ newline, (List.append_assoc ..).symm, ?_⟩
    rw [startsLine_append, startsLine_of_getLast? hn.getLast?]
    rfl
  -- the line break behind an earlier last line makes it a whole one
  have hwhole : ∀ {line}, EndsWithLine line imports → HasOwnLine [] line (imports ++ (newline ++ update.importLine)) :=
    fun hline => hline.hasOwnLine [] (hn.startsWithBreak _)
  -- the indentation that no line owns stays behind the last line, or inside the text
  cases h with
  | @gapBehind earlier last hupdates hearlier hlast hgap =>
    refine .gapBehind rfl (fun other hother => ?_) hends (hbehind.trans hgap)
    rw [hupdates, List.mem_append, List.mem_singleton] at hother
    rcases hother with hother | rfl
    · exact (hearlier other hother).append_right _
    · exact hwhole hlast
  | @gapInside exempt hmem hexempt hothers hgap =>
    refine .gapInside (List.mem_append_left _ hmem) (hexempt.append_right _) (fun other hother hne => ?_)
      (hbehind.trans hgap)
    rcases List.mem_append.mp hother with hother | hother
    · rcases hothers other hother hne with hline | hline
      · exact .inr (hwhole hline)
      · exact .inr (hline.append_right _)
    · obtain rfl := List.mem_singleton.mp hother
      exact .inl hends

/-- In the whole text the import lines have lines of their own. -/
theorem HaveOwnLines.hasOwnLine {imports behind newline v : Text}
    (h : HaveOwnLines gap updates imports behind) (hbehind : behind = indentation behind ++ (newline ++ v))
    (hn : IsBreak newline) : ∃ exempt ∈ updates, HasOwnLine gap exempt.importLine (imports ++ behind) ∧
      ∀ update ∈ updates, update ≠ exempt → HasOwnLine [] update.importLine (imports ++ behind) := by
  have hbreak : startsWithBreak (newline ++ v) := hn.startsWithBreak v
  -- what follows the last import ends the line that was open so far
  cases h with
  | @gapBehind earlier last hupdates hearlier hlast hgap =>
    refine ⟨last, by simp [hupdates], ?_, fun other hother hne => ?_⟩
    · rw [hbehind, hgap]
      exact hlast.hasOwnLine gap hbreak
    · rw [hupdates, List.mem_append, List.mem_singleton] at hother
      exact (hearlier other (hother.resolve_right hne)).append_right _
  | @gapInside exempt hmem hexempt hothers hgap =>
    refine ⟨exempt, hmem, hexempt.append_right _, fun other hother hne => ?_⟩
    rcases hothers other hother hne with hline | hline
    · rw [hbehind, hgap]
      exact hline.hasOwnLine [] hbreak
    · exact hline.append_right _

theorem inOrder_singleton (h : line <:+: text) : InOrder [line] text := by
  obtain ⟨before, after, rfl⟩ := h
  exact ⟨before, after, rfl, trivial⟩

/-! ## One step -/

/-- What some `patches` leave of a text whose body had the given parts in front of the place of the registrations and
behind it. -/
structure IsPatched (kind : IndexedKind) (style : RegistryStyle) (text gap front back : Text)
    (updates : List Update) (site : Site) : Prop where
  /-- The registry is ready for the next patch. -/
  isWired : site.IsWired kind style
  /-- The front of the body is what it was. -/
  front_prefix : front <+: site.head
  /-- The end of the body is what it was. -/
  back_suffix : back <:+ site.back
  /-- The import lines have lines of their own. -/
  ownLines : HaveOwnLines gap updates site.imports site.behind
  /-- The import lines are in order. -/
  imports_inOrder : InOrder (updates.map (·.importLine)) site.imports
  /-- The registration lines are in order. -/
  registrations_inOrder : InOrder (updates.map (·.registrationLine)) (site.between ++ site.call)
  /-- No statement occurs more often than in the text and the lines of the updates together. -/
  occurrences_le : ∀ needle, IsOneStatement needle → occurrences needle site.text
    ≤ occurrences needle text + (updates.map (Update.lineOccurrences style needle)).sum

/-- The first patch of a registry. -/
theorem IsPatchable.isPatched (ht : IsPatchable kind text region place) (hu : IsWiring kind update)
    (himport : ¬ update.importLine <:+: text) (hregistration : ¬ update.registrationLine <:+: text)
    (hwarnings : (Registry.patch style text update).warnings = []) :
    ∃ front back site, region.body text = front ++ back ∧ IsCut (layout kind) (.ofStyle style) front back ∧
      IsPatched kind style text (place.gap text) front back [update] site ∧
      Registry.patch style text update = ⟨site.text, true, true, []⟩ := by
  obtain ⟨imports, behind, front, back, site, hfirst, hbody, hcut, hsite, hpatch⟩ :=
    ht.patch hu himport hregistration hwarnings
  have hends : EndsWithLine update.importLine imports := hfirst.imports_eq
  obtain ⟨x, hx⟩ := hsite.registrations_eq
  -- the last import is still the one of the update, or the registration has completed a later one
  have hown : HaveOwnLines (place.gap text) [update] site.imports site.behind := by
    rcases hsite.imports_cases with ⟨himports, hindent⟩ | ⟨more, himports, hbreak, hindent⟩
    · have hsplit : [update] = [] ++ [update] := rfl
      exact .gapBehind hsplit (by simp) (himports ▸ hends) (hindent.trans hfirst.indentation_eq)
    · refine .gapInside (List.mem_singleton_self _) ?_ (fun other hother hne => ?_) hindent
      · rw [himports, hfirst.indentation_eq]
        exact hends.hasOwnLine _ hbreak
      · exact absurd (List.mem_singleton.mp hother) hne
  have himports : update.importLine <:+: site.imports := by
    obtain ⟨before, rfl, -⟩ := hends
    rcases hsite.imports_cases with ⟨himports, -⟩ | ⟨more, himports, -⟩
    · rw [himports]
      exact (List.suffix_append _ _).isInfix
    · rw [himports]
      exact (List.suffix_append before update.importLine).isInfix.trans (List.prefix_append _ _).isInfix
  refine ⟨front, back, site, hbody, hcut, ⟨hsite.isWired, hsite.head_eq ▸ List.prefix_refl _,
    hsite.back_suffix, hown, inOrder_singleton himports, inOrder_singleton ?_, fun needle hneedle => ?_⟩,
    hpatch⟩
  · exact ⟨x, [], by rw [hx, List.append_nil]⟩
  · have himported := hfirst.occurrences_le needle hneedle
    have hregistered := hsite.occurrences_le needle hneedle
    simp only [List.map_cons, List.map_nil, List.sum_cons, List.sum_nil, Update.lineOccurrences]
    omega

/-- A later patch. -/
theorem IsPatched.patch (h : IsPatched kind style text gap front back updates site)
    (hu : IsWiring kind update) (himport : ¬ update.importLine <:+: site.text)
    (hregistration : ¬ update.registrationLine <:+: site.text) :
    ∃ next, IsPatched kind style text gap front back (updates ++ [update]) next ∧
      Registry.patch style site.text update = ⟨next.text, true, true, []⟩ := by
  obtain ⟨next, hwired, hgrows, hpatch⟩ := h.isWired.patch hu himport hregistration
  obtain ⟨newline, hnewline, himports⟩ := hgrows.imports
  obtain ⟨x, hx⟩ := hgrows.registrations
  -- the lines grow at the end of either list, and what was there stays in front
  refine ⟨next, ⟨hwired, h.front_prefix.trans hgrows.head, h.back_suffix.trans hgrows.back, ?_, ?_, ?_,
    fun needle hneedle => ?_⟩, hpatch⟩
  · rw [himports]
    exact h.ownLines.concat hnewline hgrows.indentation_eq
  · rw [List.map_append, himports, ← List.append_assoc]
    exact h.imports_inOrder.concat _ _
  · rw [List.map_append, hx]
    exact h.registrations_inOrder.concat _ _
  · have hbefore := h.occurrences_le needle hneedle
    have hstep := hgrows.occurrences_le needle hneedle
    simp only [List.map_append, List.map_cons, List.map_nil, List.sum_append, List.sum_cons, List.sum_nil]
    omega

/-! ## How often a line is added -/

theorem exists_makes_of_mem (h : List.Forall₂ (Makes kind) keys updates) (hu : update ∈ updates) :
    ∃ key ∈ keys, Makes kind key update := by
  induction h with
  | nil => cases hu
  | cons hfirst _ ih =>
    rcases List.mem_cons.mp hu with rfl | hu
    · exact ⟨_, List.mem_cons_self, hfirst⟩
    · obtain ⟨key, hkey, hmakes⟩ := ih hu
      exact ⟨key, List.mem_cons_of_mem _ hkey, hmakes⟩

section Sums

variable (style)

theorem sum_lineOccurrences_of_notMem (h : List.Forall₂ (Makes kind) keys updates)
    (hu : Makes kind key update) (hkey : key ∉ keys) (hline : line ∈ [update.importLine, update.registrationLine]) :
    (updates.map (Update.lineOccurrences style line)).sum = 0 := by
  induction h with
  | nil => rfl
  | cons hfirst _ ih =>
    rw [List.mem_cons, not_or] at hkey
    rw [List.map_cons, List.sum_cons, lineOccurrences_of_ne hu hfirst hkey.1 style hline, ih hkey.2]

/-- Updates for different keys have each line once. -/
theorem sum_lineOccurrences_of_mem (h : List.Forall₂ (Makes kind) keys updates) (hkeys : keys.Nodup)
    (hu : update ∈ updates) (hline : line ∈ [update.importLine, update.registrationLine]) :
    (updates.map (Update.lineOccurrences style line)).sum = 1 := by
  -- on the updates: the line is the one of the first, or of a later one and not of the first
  induction h with
  | nil => cases hu
  | @cons first other keys updates hfirst hrest ih =>
    obtain ⟨hnot, hnodup⟩ := List.nodup_cons.mp hkeys
    rw [List.map_cons, List.sum_cons]
    rcases List.mem_cons.mp hu with rfl | hu
    · rw [lineOccurrences_self hfirst style hline,
        sum_lineOccurrences_of_notMem style hrest hfirst hnot hline]
    · obtain ⟨key, hkey, hmakes⟩ : ∃ key ∈ keys, Makes kind key update := by
        exact exists_makes_of_mem hrest hu
      have hne : key ≠ first := fun heq => hnot (heq ▸ hkey)
      rw [lineOccurrences_of_ne hmakes hfirst hne style hline, ih hnodup hu]

end Sums

/-! ## All steps -/

/-- Patches go on until each update is applied. -/
theorem IsPatched.patches {applied : List Update} {appliedKeys : List Text}
    (h : IsPatched kind style text gap front back applied site)
    (happlied : List.Forall₂ (Makes kind) appliedKeys applied)
    (hupdates : List.Forall₂ (Makes kind) keys updates) (hkeys : (appliedKeys ++ keys).Nodup)
    (hfresh : ∀ update ∈ updates, ∀ line ∈ [update.importLine, update.registrationLine], ¬ line <:+: text) :
    ∃ last, IsPatched kind style text gap front back (applied ++ updates) last ∧
      patchAll style site.text updates = last.text ∧
      ∀ patch ∈ Registry.patches style site.text updates,
        patch.importAdded = true ∧ patch.registrationAdded = true ∧ patch.warnings = [] := by
  -- on the updates, with what is applied so far as the state that each patch extends
  induction hupdates generalizing applied appliedKeys site with
  | nil => exact ⟨site, by rwa [List.append_nil], rfl, by simp [Registry.patches]⟩
  | @cons key update keys updates hmakes hrest ih =>
    have hwiring := isWiring_of_makes hmakes
    have hnot : key ∉ appliedKeys := fun hmem =>
      (List.nodup_append.mp hkeys).2.2 key hmem key List.mem_cons_self rfl
    -- the update's lines are neither in the text nor in the lines that were added
    have habsent : ∀ line ∈ [update.importLine, update.registrationLine], IsOneStatement line →
        ¬ line <:+: site.text := by
      intro line hline hone
      have hle := h.occurrences_le line hone
      rw [sum_lineOccurrences_of_notMem style happlied hmakes hnot hline,
        (occurrences_eq_zero_iff hone.ne_nil).mpr (hfresh update List.mem_cons_self line hline)] at hle
      exact (occurrences_eq_zero_iff hone.ne_nil).mp (by omega)
    obtain ⟨next, hnext, hpatch⟩ := h.patch hwiring
      (habsent _ (by simp) hwiring.import_isOneStatement)
      (habsent _ (by simp) hwiring.registration_isOneStatement)
    have happlied' : List.Forall₂ (Makes kind) (appliedKeys ++ [key]) (applied ++ [update]) :=
      List.rel_append happlied (.cons hmakes .nil)
    have hkeys' : (appliedKeys ++ [key] ++ keys).Nodup := by
      rwa [List.append_assoc]
    obtain ⟨last, hlast, htext, hadded⟩ := ih hnext happlied' hkeys' fun other hother =>
      hfresh other (List.mem_cons_of_mem _ hother)
    rw [List.append_assoc] at hlast
    refine ⟨last, hlast, ?_, ?_⟩
    · rw [patchAll, List.foldl_cons, hpatch]
      exact htext
    · rw [Registry.patches, hpatch]
      exact List.forall_mem_cons.mpr ⟨⟨rfl, rfl, rfl⟩, hadded⟩

/-! ## Registrations that were there -/

/-- Whether the registrations of a body start in its front part, and end there unless another one starts
inside. -/
def HoldsCalls (layout : Layout) (text : Text) (region : Region) (front : Text) : Prop :=
  ∀ i, layout.setter <+: (region.body text).drop i →
    i < front.length ∧ ∀ stop, endOfCall? text (region.bodyStart + i) region.bodyEnd = some stop →
      stop ≤ region.bodyStart + front.length ∨
        ∃ j, i < j ∧ region.bodyStart + j < stop ∧ layout.setter <+: (region.body text).drop j

section Calls

variable {layout : Layout} {anchor : Anchor} {opening body rest : Text} {start i : Nat}

/-- A registration is read from the body only. -/
theorem endOfCall?_regionOf (htext : text = opening ++ (body ++ '\x7d' :: rest)) (hi : i ≤ body.length) :
    endOfCall? text ((regionOf opening body start).bodyStart + i) (regionOf opening body start).bodyEnd
      = (callEnd? (body.drop i)).map (opening.length + i + ·) := by
  have hsplit : text = (opening ++ body.take i) ++ (body.drop i ++ '\x7d' :: rest) := by
    rw [htext, List.append_assoc, ← List.append_assoc (body.take i), List.take_append_drop]
  have hlength : (opening ++ body.take i).length = opening.length + i := by
    rw [List.length_append, List.length_take, Nat.min_eq_left hi]
  have hlimit : opening.length + i + (body.drop i).length = opening.length + body.length := by
    rw [List.length_drop]
    omega
  have hcall := endOfCall?_eq (opening ++ body.take i) (body.drop i) ('\x7d' :: rest)
  rw [← hsplit, hlength, hlimit] at hcall
  exact hcall

/-- A prefix that is not empty starts inside a text. -/
theorem lt_of_prefix_drop {needle : Text} (hne : needle ≠ []) (h : needle <+: body.drop i) : i < body.length := by
  by_contra hge
  rw [List.drop_eq_nil_of_le (by omega)] at h
  exact hne (List.prefix_nil.mp h)

/-- A whole body holds its registrations. -/
theorem holdsCalls_self (hne : layout.setter ≠ []) (htext : text = opening ++ (body ++ '\x7d' :: rest)) :
    HoldsCalls layout text (regionOf opening body start) body := by
  have hbody : (regionOf opening body start).body text = body := by
    rw [htext, body_regionOf]
  intro i hi
  rw [hbody] at hi
  have hlt := lt_of_prefix_drop hne hi
  refine ⟨hlt, fun stop hstop => .inl ?_⟩
  rw [endOfCall?_regionOf htext (Nat.le_of_lt hlt), Option.map_eq_some_iff] at hstop
  obtain ⟨n, hn, rfl⟩ := hstop
  -- a call ends in the text it is read from
  obtain ⟨call, back, hsplit, rfl, -⟩ := callEnd?_eq_some hn
  have hlength := congrArg List.length hsplit
  rw [List.length_drop, List.length_append] at hlength
  show opening.length + i + call.length ≤ opening.length + body.length
  omega

/-- The registrations of a body are in front of the place of a new one. -/
theorem IsCut.holdsCalls (hcut : IsCut layout anchor front back) (hne : layout.setter ≠ [])
    (htext : text = opening ++ (front ++ back ++ '\x7d' :: rest)) :
    HoldsCalls layout text (regionOf opening (front ++ back) start) front := by
  have hbody : (regionOf opening (front ++ back) start).body text = front ++ back := by
    rw [htext, body_regionOf]
  intro i hi
  rw [hbody] at hi ⊢
  have hlt := lt_of_prefix_drop hne hi
  cases hcut with
  | atEnd hsetter _ => exact absurd (hi.isInfix.trans (List.drop_suffix i _).isInfix) hsetter
  | @afterCall before call line hfront hlast hcall hends _ _ _ =>
    obtain ⟨-, hlastPrefix, hnone⟩ := lastIndexOf?_eq_some_iff.mp hlast
    have hle : i ≤ before.length := by
      by_contra hgt
      exact hnone i (by omega) (Nat.le_of_lt hlt) hi
    have hpos := List.length_pos_iff.mpr hends.ne_nil
    have hlength : front.length = before.length + (call.length + line.length) := by
      rw [hfront, List.length_append, List.length_append]
    refine ⟨by omega, fun stop hstop => ?_⟩
    rw [endOfCall?_regionOf htext (Nat.le_of_lt hlt), Option.map_eq_some_iff] at hstop
    obtain ⟨n, hn, rfl⟩ := hstop
    show opening.length + i + n ≤ opening.length + front.length ∨
      ∃ j, i < j ∧ opening.length + j < opening.length + i + n ∧ _
    rcases Nat.lt_or_eq_of_le hle with hearlier | rfl
    · -- an earlier registration is closed in front of the last one, or the last one starts inside
      by_cases hin : opening.length + before.length < opening.length + i + n
      · exact .inr ⟨before.length, hearlier, hin, hlastPrefix⟩
      · left
        omega
    · left
      rw [hfront, List.append_assoc, List.drop_left, List.append_assoc, hcall] at hn
      obtain rfl := Option.some.inj hn
      omega

end Calls

/-! ## What the patches leave -/

/-- Whether a text has the lines of some updates where patches put them in another text. -/
structure Adds (kind : IndexedKind) (text : Text) (region : Region) (place : ImportPlace)
    (updates : List Update) (final : Text) : Prop where
  /-- Each line is there once. -/
  once : ∀ update ∈ updates, ∀ line ∈ [update.importLine, update.registrationLine], occurrences line final = 1
  /-- Each import line is a whole line, but what followed the last import stands behind one of them. -/
  ownLine : updates ≠ [] → ∃ exempt ∈ updates, HasOwnLine (place.gap text) exempt.importLine final ∧
    ∀ update ∈ updates, update ≠ exempt → HasOwnLine [] update.importLine final
  /-- The import lines are in order. -/
  imports_inOrder : InOrder (updates.map (·.importLine)) final
  /-- The registration lines are in order in the body, behind those that it had. -/
  registrations : ∃ found front added back, locate? final (layout kind).methodName = some found ∧
    region.body text = front ++ back ∧ found.body final = front ++ added ++ back ∧
    InOrder (updates.map (·.registrationLine)) added ∧ HoldsCalls (layout kind) text region front

/-- The last import of a wired registry is not the end of the text. -/
theorem Site.IsWired.closing_mem_behind (h : site.IsWired kind style) : '\x7d' ∈ site.behind := by
  obtain ⟨w, -, hbehind⟩ := h.exists_between
  rw [hbehind]
  simp

/-- What patches leave has all lines where they belong. -/
theorem IsPatched.adds (h : IsPatched kind style text (place.gap text) front back updates site)
    (hupdates : List.Forall₂ (Makes kind) keys updates) (hkeys : keys.Nodup)
    (hfresh : ∀ update ∈ updates, ∀ line ∈ [update.importLine, update.registrationLine], ¬ line <:+: text)
    (hbody : region.body text = front ++ back) (hcalls : HoldsCalls (layout kind) text region front) :
    Adds kind text region place updates site.text where
  once update hupdate line hline := by
    obtain ⟨key, -, hmakes⟩ := exists_makes_of_mem hupdates hupdate
    have hwiring := isWiring_of_makes hmakes
    have hin : line <:+: site.text ∧ IsOneStatement line := by
      rcases (by simpa using hline : line = _ ∨ line = _) with rfl | rfl
      · have himport := h.imports_inOrder.infix (List.mem_map_of_mem hupdate)
        rw [← h.isWired.text_eq]
        exact ⟨himport.trans (List.prefix_append _ _).isInfix, hwiring.import_isOneStatement⟩
      · have hregistration := h.registrations_inOrder.infix (List.mem_map_of_mem hupdate)
        refine ⟨hregistration.trans ⟨site.opening ++ site.head, site.back ++ '\x7d' :: site.rest, ?_⟩,
          hwiring.registration_isOneStatement⟩
        simp only [Site.text, Site.body, List.append_assoc]
    obtain ⟨hinside, hone⟩ := hin
    -- it was absent and no other update has it, so it occurs at most once
    have hle := h.occurrences_le line hone
    rw [(occurrences_eq_zero_iff hone.ne_nil).mpr (hfresh update hupdate line hline),
      sum_lineOccurrences_of_mem style hupdates hkeys hupdate hline] at hle
    have hpos : occurrences line site.text ≠ 0 := fun hzero =>
      (occurrences_eq_zero_iff hone.ne_nil).mp hzero hinside
    omega
  ownLine _ := by
    have hends := h.isWired.endsImports
    rw [← List.append_nil site.behind] at hends
    -- the last registration is behind the last import, so its line ends with a break
    obtain ⟨gap, newline, v, hbehind, hgap, hnewline⟩ :=
      hends.line_split ⟨_, h.isWired.closing_mem_behind, by decide⟩
    have hindent : indentation site.behind = gap := by
      rw [hbehind]
      exact indentation_append_break hgap hnewline v
    rw [← h.isWired.text_eq]
    exact h.ownLines.hasOwnLine (hindent ▸ hbehind) hnewline
  imports_inOrder := by
    rw [← h.isWired.text_eq]
    exact h.imports_inOrder.append_right _
  registrations := by
    obtain ⟨more, hmore⟩ := h.front_prefix
    obtain ⟨rest, hrest⟩ := h.back_suffix
    refine ⟨_, front, more ++ (site.between ++ site.call) ++ rest, back, h.isWired.isMethod.locate?, hbody, ?_,
      (h.registrations_inOrder.append_left more).append_right rest, hcalls⟩
    rw [Site.text, body_regionOf, Site.body, ← hmore, ← hrest]
    simp only [List.append_assoc]

/-- Updates for different keys, one after another, each by `patch`. If the first patch does not warn, each patch adds
its two lines. In the end each line is there once: the import lines are whole lines in the order of the updates, but
for spaces and tabs that followed the last import and stand behind one of them now, and the registration lines are in
the body, in the same order, behind the last registration that it had. -/
theorem patches_add (ht : IsPatchable kind text region place)
    (hupdates : List.Forall₂ (Makes kind) keys updates) (hkeys : keys.Nodup)
    (habsent : ∀ update ∈ updates, ∀ line ∈ [update.importLine, update.registrationLine],
      occursIn line text = false)
    (hwarnings : ∀ update ∈ updates.head?, (patch style text update).warnings = []) :
    (∀ patch ∈ patches style text updates,
      patch.importAdded = true ∧ patch.registrationAdded = true ∧ patch.warnings = []) ∧
    Adds kind text region place updates (patchAll style text updates) := by
  obtain ⟨opening, body, rest, htext, hm, hregion⟩ :=
    locate?_eq_some (isWord_of_mem_methodName kind) (methodName_ne_nil kind) ht.located
  have hbody : region.body text = body := by
    rw [hregion, htext, body_regionOf]
  have hsetter : (layout kind).setter ≠ [] := by
    cases kind <;> decide
  have hfresh : ∀ update ∈ updates, ∀ line ∈ [update.importLine, update.registrationLine], ¬ line <:+: text :=
    fun update hupdate line hline => occursIn_eq_false_iff.mp (habsent update hupdate line hline)
  cases hupdates with
  | nil =>
    refine ⟨by simp [patches], by simp, by simp, trivial, region, body, [], [], ht.located, ?_, ?_, trivial, ?_⟩
    · rw [hbody, List.append_nil]
    · rw [List.append_nil, List.append_nil]
      exact hbody
    · rw [hregion]
      exact holdsCalls_self hsetter htext
  | @cons key update keys updates hmakes hrest =>
    -- the first patch wires the registry; the others only let grow what is wired
    have hwiring := isWiring_of_makes hmakes
    have hlines := hfresh update List.mem_cons_self
    obtain ⟨front, back, site, hsplit, hcut, hpatched, hpatch⟩ :=
      ht.isPatched hwiring (hlines _ (by simp)) (hlines _ (by simp)) (hwarnings update rfl)
    obtain ⟨last, hlast, hall, hadded⟩ := hpatched.patches (.cons hmakes .nil) hrest hkeys fun other hother =>
      hfresh other (List.mem_cons_of_mem _ hother)
    refine ⟨?_, ?_⟩
    · rw [patches, hpatch]
      exact List.forall_mem_cons.mpr ⟨⟨rfl, rfl, rfl⟩, hadded⟩
    · rw [patchAll, List.foldl_cons, hpatch]
      rw [patchAll] at hall
      rw [hall]
      obtain rfl : body = front ++ back := hbody.symm.trans hsplit
      refine hlast.adds (.cons hmakes hrest) hkeys hfresh hsplit ?_
      rw [hregion]
      exact hcut.holdsCalls hsetter htext

/-- A registry whose last import is followed by a blank. -/
def spacedRegistry : Text :=
  "import a from 'x'; \nclass R \x7b\n  initializeTools() \x7b\n  \x7d\n\x7d\n"

theorem isPatchable_spacedRegistry :
    IsPatchable .tool spacedRegistry ⟨32, 51, 54⟩ (.afterStatement 18) where
  located := by decide
  closing := List.all_eq_true.mp (by decide)
  place_eq := by decide
  offset_le := by decide
  unnamed := by decide

set_option maxRecDepth 8192 in
/-- Two tools are added to a registry. -/
theorem patches_add_weather_news :
    IsPatchable .tool spacedRegistry ⟨32, 51, 54⟩ (.afterStatement 18) ∧
      Adds .tool spacedRegistry ⟨32, 51, 54⟩ (.afterStatement 18) [weather, news]
        (patchAll .legacy spacedRegistry [weather, news]) := by
  have hmakes : List.Forall₂ (Makes .tool) ["weather", "news"] [weather, news] :=
    .cons makes_weather (.cons makes_news .nil)
  exact ⟨isPatchable_spacedRegistry,
    (patches_add isPatchable_spacedRegistry hmakes (by decide) (by decide) (by decide)).2⟩

/-- A registry with a registration inside another one. -/
def nestedRegistry : Text :=
  concat ["import a from 'x';\nclass R \x7b\n  initializeTools() \x7b\n",
    "    this.tools.set('a', this.tools.set('b', c));\n  \x7d\n\x7d\n"]

set_option maxRecDepth 8192 in
theorem isPatchable_nestedRegistry :
    IsPatchable .tool nestedRegistry ⟨31, 50, 102⟩ (.afterStatement 18) where
  located := by decide
  closing := List.all_eq_true.mp (by decide)
  place_eq := by decide
  offset_le := by decide
  unnamed := by decide

set_option maxRecDepth 8192 in
/-- Import lines need not be whole lines: a blank behind the last import stands behind the new one then. And
registrations need not be behind all that were there: one inside another is the last one. -/
theorem patch_spaced_nested :
    (IsPatchable .tool spacedRegistry ⟨32, 51, 54⟩ (.afterStatement 18) ∧
      (∀ line ∈ [weather.importLine, weather.registrationLine], occursIn line spacedRegistry = false) ∧
      (patch .autoDiscovery spacedRegistry weather).warnings = [] ∧
      weather.importLine ∉ lines (patchAll .autoDiscovery spacedRegistry [weather])) ∧
    (IsPatchable .tool nestedRegistry ⟨31, 50, 102⟩ (.afterStatement 18) ∧
      (∀ line ∈ [weather.importLine, weather.registrationLine], occursIn line nestedRegistry = false) ∧
      (patch .autoDiscovery nestedRegistry weather).warnings = [] ∧
      patchAll .autoDiscovery nestedRegistry [weather] = concat ["import a from 'x';\n",
        "import \x7b WeatherTool \x7d from './weather-tool.js';\nclass R \x7b\n  initializeTools() \x7b\n",
        "    this.tools.set('a', this.tools.set('b', c)\n",
        "    this.tools.set('weather', new WeatherTool()););\n  \x7d\n\x7d\n"]) :=
  ⟨⟨isPatchable_spacedRegistry, by decide, by decide, by decide⟩, isPatchable_nestedRegistry, by decide,
    by decide, by decide⟩

end ComponentKit.Registry
