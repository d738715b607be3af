import ComponentKit.Proofs.Component.Statements
import ComponentKit.Proofs.Registry.Registration

/-!
# Patching twice

A second `patch` with the same update finds the registration of the first one in every text. It finds the import
line as well unless the registration of the first patch has cut it in two, or has made a text with a place for
imports out of one without (`LosesImport`). Exactly then the second patch changes the text again.
-/

namespace ComponentKit.Registry

open Text Source Component

variable {style : RegistryStyle} {text : Text} {kind : IndexedKind} {key type module normalized : Text}
  {update : Update} {edit : BodyEdit} {registration : Registration} {layout : Layout}

/-! ## Lines that survive the registration -/

/-- Whether an edit goes through a line that was there. -/
def BodyEdit.Cuts (edit : BodyEdit) (line : Text) : Prop :=
  ∃ head tail, line = head ++ tail ∧ head ≠ [] ∧ tail ≠ [] ∧ head <:+ edit.opening ++ edit.front ∧
    tail <+: edit.removed ++ (edit.back ++ '\x7d' :: edit.rest)

/-- A line that is not indented is still there after a registration was added, unless that goes through
it. -/
theorem BodyEdit.Registers.infix_after {line : Text} {c : Char} (hreg : edit.Registers registration layout)
    (hhead : line.head? = some c) (hc : isBlank c = false) (h : line <:+: edit.before) :
    line <:+: edit.after ∨ edit.Cuts line := by
  have hbefore : edit.before
      = (edit.opening ++ edit.front) ++ (edit.removed ++ (edit.back ++ '\x7d' :: edit.rest)) := by
    simp only [BodyEdit.before, List.append_assoc]
  have hafter : edit.after
      = (edit.opening ++ edit.front) ++ (edit.added ++ (edit.back ++ '\x7d' :: edit.rest)) := by
    simp only [BodyEdit.after, List.append_assoc]
  rw [hbefore, infix_append_iff] at h
  rw [hafter]
  -- the line is in front of the edit, from the removed blanks on, or across the place
  rcases h with h | h | ⟨head, tail, hne, hne', hsplit, hsuffix, hprefix⟩
  · exact .inl (h.trans (List.prefix_append _ _).isInfix)
  · -- the line does not start among the blanks that are taken away
    have hblank : c ∉ edit.removed := by
      intro hmem
      rw [hreg.removed_blank c hmem] at hc
      cases hc
    have hbehind := (infix_append_of_first hhead hblank).mp h
    exact .inl (hbehind.trans ((List.suffix_append _ _).trans (List.suffix_append _ _)).isInfix)
  · exact .inr ⟨head, tail, hsplit, hne, hne', hsuffix, hprefix⟩

/-- The end of a call in the middle of a line is one of a call that starts in the line. -/
theorem paren_mem_of_endsLikeCall {text head : Text} {c : Char} (hcall : endsLikeCall text)
    (h : head <:+ text) (hhead : head.head? = some c) (hc : isBlank c = false) (hsemi : c ≠ ';') :
    ')' ∈ head := by
  obtain ⟨front, ending, rfl, hending⟩ := hcall
  rcases List.suffix_or_suffix_of_suffix h (List.suffix_append front (')' :: ending)) with hs | hs
  · rcases List.suffix_cons_iff.mp hs with rfl | hs
    · exact List.mem_cons_self
    · -- behind the parenthesis there are blanks and a semicolon
      have hmem : c ∈ ending := hs.subset (List.mem_of_head? hhead)
      rcases hending with rfl | ⟨gap, rfl, hgap⟩
      · exact absurd hmem List.not_mem_nil
      · rcases List.mem_append.mp hmem with hmem | hmem
        · rw [isBlank_of_isIndent (hgap c hmem)] at hc
          cases hc
        · exact absurd (List.mem_singleton.mp hmem) hsemi
  · exact hs.subset List.mem_cons_self

/-- A registration goes through a statement with balanced braces only behind a parenthesis of that, or if
the braces of the method are those of the statement. -/
theorem BodyEdit.Registers.cuts_cases {line : Text} {c : Char} (hreg : edit.Registers registration layout)
    (hplace : edit.HasPlace) (hcuts : edit.Cuts line) (hbalanced : Balanced line)
    (hhead : line.head? = some c) (hc : isBlank c = false) (hsemi : c ≠ ';')
    (hlast : line.getLast? = some ';') (hbreak : ∀ c ∈ line, c ≠ '\n' ∧ c ≠ '\r') :
    ')' ∈ line ∨ '\x7b' :: (edit.front ++ edit.removed ++ edit.back) ++ ['\x7d'] <:+: line := by
  obtain ⟨head, tail, rfl, hne, hne', hsuffix, hprefix⟩ := hcuts
  rw [List.head?_append_of_ne_nil _ hne] at hhead
  rw [List.getLast?_append_of_ne_nil _ hne'] at hlast
  -- the place is the end of the body, right behind a call, or in front of a line break
  rcases hplace with hback | ⟨hremoved, hcall | hback⟩
  · right
    rw [hback, List.nil_append] at hprefix
    rw [hback, List.append_nil]
    obtain ⟨start, hmethod⟩ := hreg.located
    rw [hback, List.append_nil] at hmethod
    -- the line ends with a semicolon, so it goes beyond the blanks
    have htail : (edit.removed ++ ['\x7d']) <+: tail := by
      have hblank : ';' ∉ edit.removed := fun hmem => absurd (hreg.removed_blank _ hmem) (by decide)
      have hin : ';' ∈ tail := List.mem_of_getLast? hlast
      rcases prefix_append_cases hprefix with hp | ⟨q, hq, rfl⟩
      · exact absurd (hp.subset hin) hblank
      · rcases List.prefix_cons_iff.mp hq with rfl | ⟨q, rfl, -⟩
        · exact absurd (by simpa using hin) hblank
        · exact (List.prefix_append_right_inj _).mpr (by simp)
    have hinner : head ++ edit.removed ++ ['\x7d'] <+: head ++ tail := by
      rw [List.append_assoc]
      exact (List.prefix_append_right_inj head).mpr htail
    -- up to the closing brace of the method the line has opened a brace
    have hlevel : 1 ≤ level (head ++ edit.removed) := by
      have := hbalanced.nonneg _ hinner
      rw [level_append] at this
      have hclose : level ['\x7d'] = -1 := rfl
      omega
    have hinside : head ++ edit.removed <:+ edit.opening ++ (edit.front ++ edit.removed) := by
      obtain ⟨lead, hlead⟩ := hsuffix
      exact ⟨lead, by rw [← List.append_assoc, hlead]; simp only [List.append_assoc]⟩
    obtain ⟨lead, hlead⟩ := hmethod.brace_cons_suffix hinside (by omega)
    refine List.IsInfix.trans ⟨lead, [], ?_⟩ hinner.isInfix
    rw [← hlead, List.append_nil, List.append_assoc]
  · exact .inl (List.mem_append_left _
      (paren_mem_of_endsLikeCall (hcall.append_left edit.opening) hsuffix hhead hc hsemi))
  · -- no line goes through a line break
    rw [hremoved, List.nil_append] at hprefix
    obtain ⟨d, tail, rfl⟩ := List.exists_cons_of_ne_nil hne'
    have hd := hbreak d (by simp)
    obtain ⟨rest, hrest⟩ := hback.append_right ('\x7d' :: edit.rest)
    obtain ⟨more, hmore⟩ := hprefix
    rcases hrest with hrest | hrest <;>
    · rw [hrest] at hmore
      obtain ⟨rfl, -⟩ := List.cons.inj hmore
      simp at hd

/-! ## The steps of a patch -/

/-- The lines of a registration for a key and a class whose braces are balanced have balanced braces. -/
theorem balanced_of_mem_lines (hk : Balanced key) (ht : Balanced type) :
    ∀ line ∈ ((updateOf kind key type).registration style).lines, Balanced line := by
  obtain ⟨-, hregistration, hinitialization⟩ := balanced_updateOf kind hk ht
  intro line hline
  rcases mem_lines_registration hline with rfl | rfl
  · exact hregistration
  · exact hinitialization

/-- The text between the two steps of a `patch`, as `insertImport` leaves it. -/
def imported (text : Text) (update : Update) : Text :=
  (insertImport text update.importLine).text text

/-- The `insertRegistration` of a `patch`. -/
def registered (style : RegistryStyle) (text : Text) (update : Update) : Edit :=
  insertRegistration text (update.registration style) (Registry.layout update.kind) (.ofStyle style)

theorem patch_text (style : RegistryStyle) (text : Text) (update : Update) :
    (patch style text update).text
      = (registered style (imported text update) update).text (imported text update) := rfl

/-- An import that was added is in the text. -/
theorem infix_insert (place : ImportPlace) (text line : Text) : line <:+: place.insert text line := by
  cases place with
  | afterStatement offset =>
    exact ⟨text.take offset ++ lineBreak text, text.drop offset, by
      simp [ImportPlace.insert, insertAt]⟩
  | beforeDeclaration offset =>
    exact ⟨text.take offset, lineBreak text ++ text.drop offset, by
      simp [ImportPlace.insert, insertAt]⟩

/-- What the import step leaves: the text, or the text with the import line on a line of its own, behind the
last import or in front of a line. -/
theorem imported_split (text : Text) (update : Update) :
    ((insertImport text update.importLine).isAdded = false ∧ imported text update = text) ∨
      (insertImport text update.importLine).isAdded = true ∧ ∃ p q, text = p ++ q ∧
        (EndsImports p q ∧ imported text update = p ++ (lineBreak text ++ update.importLine) ++ q ∨
          (p = [] ∨ p.getLast? = some '\n') ∧
            imported text update = p ++ (update.importLine ++ lineBreak text) ++ q) := by
  cases h : insertImport text update.importLine with
  | present => exact .inl ⟨rfl, by rw [imported, h]; rfl⟩
  | refused warning => exact .inl ⟨rfl, by rw [imported, h]; rfl⟩
  | added after =>
    refine .inr ⟨rfl, ?_⟩
    rw [imported, h, Edit.text]
    rw [insertImport] at h
    split at h
    · cases h
    split at h
    · rename_i place hplace
      obtain rfl := Edit.added.inj h
      -- behind an import the line break comes first, in front of a line it comes last
      cases place with
      | afterStatement offset =>
        obtain ⟨p, q, rfl, rfl, hends⟩ := afterStatement_split hplace
        refine ⟨p, q, rfl, .inl ⟨hends, ?_⟩⟩
        rw [ImportPlace.insert, insertAt_append]
      | beforeDeclaration offset =>
        obtain ⟨p, q, rfl, rfl, hstart, -⟩ := beforeDeclaration_split hplace
        refine ⟨p, q, rfl, .inr ⟨hstart, ?_⟩⟩
        rw [ImportPlace.insert, insertAt_append]
    · cases h

/-- After the import step the import line is there, or there is no place for it. -/
theorem imported_cases (text : Text) (update : Update) :
    update.importLine <:+: imported text update ∨
      (imported text update = text ∧ ¬ update.importLine <:+: text ∧ importPlace? text = none) := by
  rw [imported, insertImport]
  split
  · rename_i h
    exact .inl (occursIn_iff.mp h)
  · rename_i h
    cases hp : importPlace? text with
    | some place => exact .inl (infix_insert place text update.importLine)
    | none => exact .inr ⟨rfl, fun hin => h (occursIn_iff.mpr hin), rfl⟩

/-- An import step adds nothing exactly if the line is there or has no place. -/
theorem isAdded_insertImport_eq_false_iff {line : Text} :
    (insertImport text line).isAdded = false ↔ line <:+: text ∨ importPlace? text = none := by
  rw [insertImport]
  split
  · rename_i h
    exact iff_of_true rfl (.inl (occursIn_iff.mp h))
  · rename_i h
    have habsent : ¬ line <:+: text := fun hin => h (occursIn_iff.mpr hin)
    cases importPlace? text with
    | none => exact iff_of_true rfl (.inr rfl)
    | some place => simp [Edit.isAdded, habsent]

/-- A step that adds nothing leaves the text. -/
theorem text_eq_of_isAdded_eq_false {edit : Edit} (h : edit.isAdded = false) (text : Text) :
    edit.text text = text := by
  cases edit with
  | added result => cases h
  | present | refused warning => rfl

/-- A step that adds something has a result. -/
theorem eq_added_of_isAdded {edit : Edit} (h : edit.isAdded = true) : ∃ result, edit = .added result := by
  cases edit with
  | added result => exact ⟨result, rfl⟩
  | present | refused warning => cases h

/-- A second import step adds nothing. -/
theorem isAdded_insertImport_imported (text : Text) (update : Update) :
    (insertImport (imported text update) update.importLine).isAdded = false := by
  rw [isAdded_insertImport_eq_false_iff]
  rcases imported_cases text update with h | ⟨heq, -, hnone⟩
  · exact .inl h
  · exact .inr (by rw [heq, hnone])

theorem imported_imported (text : Text) (update : Update) :
    imported (imported text update) update = imported text update :=
  text_eq_of_isAdded_eq_false (isAdded_insertImport_imported text update) _

/-- A patch that finds the import done goes on as if it had made it. -/
theorem patch_imported (style : RegistryStyle) (text : Text) (update : Update) :
    (patch style (imported text update) update).text = (patch style text update).text := by
  rw [patch_text, imported_imported, patch_text]

/-- A patch that adds a registration has the result of its registration step. -/
theorem exists_registered_eq (h : (patch style text update).registrationAdded = true) :
    ∃ result, registered style (imported text update) update = .added result ∧
      (patch style text update).text = result := by
  have hregistered : (registered style (imported text update) update).isAdded = true := h
  obtain ⟨result, hr⟩ := eq_added_of_isAdded hregistered
  refine ⟨result, hr, ?_⟩
  rw [patch_text, hr]
  rfl

/-- A patch that adds a registration has a seam, in the text between its two steps. -/
theorem exists_seam_patch (h : (patch style text update).registrationAdded = true) :
    ∃ seam : Seam, seam.Adds (imported text update) (patch style text update).text
      (update.registration style) (Registry.layout update.kind) (.ofStyle style) := by
  obtain ⟨result, hr, hfirst⟩ := exists_registered_eq h
  rw [hfirst]
  exact exists_seam hr

/-- A registration that was added is found by the next registration step. -/
theorem registered_eq_added (h : Makes kind normalized update) {result : Text}
    (hadded : registered style text update = .added result) :
    ∃ edit : BodyEdit, text = edit.before ∧ result = edit.after ∧
      edit.Registers (update.registration style) (Registry.layout update.kind) ∧
      edit.HasPlace ∧ registered style result update = .present := by
  obtain ⟨edit, hreg, rfl, rfl, hplace⟩ := insertRegistration_eq_added hadded
  obtain ⟨hk, type, ht, rfl⟩ := h.eq_updateOf
  exact ⟨edit, rfl, rfl, hreg, hplace, hreg.present_after
    (balanced_of_mem_lines (balanced_of_isKeyCharacter hk) (balanced_of_isAscii ht)) _⟩

/-! ## Two patches -/

/-- Whether a second `patch` with an update leaves what the first one made. -/
def Settles (style : RegistryStyle) (text : Text) (update : Update) : Prop :=
  let first := patch style text update
  let second := patch style first.text update
  second.text = first.text ∧ second.importAdded = false ∧ second.registrationAdded = false

/-- Whether `patch` adds a registration and leaves a text that lacks the import line but has a place for it. -/
def LosesImport (style : RegistryStyle) (text : Text) (update : Update) : Prop :=
  let first := patch style text update
  first.registrationAdded = true ∧ ¬ update.importLine <:+: first.text ∧
    importPlace? first.text ≠ none

instance : Decidable (Settles style text update) :=
  inferInstanceAs (Decidable (_ ∧ _))

/-- A patch whose two steps change nothing settles. -/
theorem settles_of_unchanged {first : Text} (hfirst : (patch style text update).text = first)
    (himport : (insertImport first update.importLine).isAdded = false)
    (hregistered : (registered style first update).isAdded = false) : Settles style text update := by
  have himported : imported first update = first := text_eq_of_isAdded_eq_false himport first
  refine ⟨?_, ?_, ?_⟩
  · rw [hfirst, patch_text, himported]
    exact text_eq_of_isAdded_eq_false hregistered first
  · rw [hfirst]
    exact himport
  · rw [hfirst]
    show (registered style (imported first update) update).isAdded = false
    rw [himported, hregistered]

/-- A patch that adds no registration settles. -/
theorem settles_of_not_registered (h : (patch style text update).registrationAdded = false) :
    Settles style text update := by
  have hregistered : (registered style (imported text update) update).isAdded = false := h
  have hfirst : (patch style text update).text = imported text update := by
    rw [patch_text]
    exact text_eq_of_isAdded_eq_false hregistered _
  exact settles_of_unchanged hfirst (isAdded_insertImport_imported text update) hregistered

/-- A patch that adds a registration settles exactly if the next import step adds nothing. -/
theorem settles_iff_of_registered (h : Makes kind normalized update)
    (hadded : (patch style text update).registrationAdded = true) :
    Settles style text update
      ↔ (insertImport (patch style text update).text update.importLine).isAdded = false := by
  refine ⟨fun hs => hs.2.1, fun himport => settles_of_unchanged rfl himport ?_⟩
  obtain ⟨result, hr, hfirst⟩ := exists_registered_eq hadded
  obtain ⟨-, -, -, -, -, hpresent⟩ := registered_eq_added h hr
  rw [hfirst, hpresent]
  rfl

/-- A second patch changes nothing, exactly if the first one has not lost the import line. -/
theorem settles_iff (h : Makes kind normalized update) :
    Settles style text update ↔ ¬ LosesImport style text update := by
  by_cases hadded : (patch style text update).registrationAdded = true
  · rw [settles_iff_of_registered h hadded, isAdded_insertImport_eq_false_iff]
    constructor
    · rintro (hin | hnone) hlost
      · exact hlost.2.1 hin
      · exact hlost.2.2 hnone
    · intro hkept
      by_contra hboth
      rw [not_or] at hboth
      exact hkept ⟨hadded, hboth⟩
  · exact iff_of_true (settles_of_not_registered (by simpa using hadded)) fun hlost => hadded hlost.1

/-- A patch whose import step leaves the line in the text keeps it, unless the braces of the method are
those of the line. -/
theorem not_losesImport (h : Makes kind normalized update)
    (himport : update.importLine <:+: imported text update)
    (hbraces : ∀ region, locate? (imported text update) (Registry.layout update.kind).methodName
      = some region → ¬ '\x7b' :: region.body (imported text update) ++ ['\x7d'] <:+: update.importLine) :
    ¬ LosesImport style text update := by
  rintro ⟨hadded, hlost, -⟩
  obtain ⟨result, hr, hfirst⟩ := exists_registered_eq hadded
  obtain ⟨edit, hbefore, rfl, hreg, hplace, -⟩ := registered_eq_added h hr
  rw [hfirst] at hlost
  apply hlost
  obtain ⟨hk, type, ht, rfl⟩ := h.eq_updateOf
  rw [hbefore] at himport hbraces
  have hline := isOneStatement_importStatement ht (isKeyCharacter_of_mem_module kind.toKind hk)
  have hparen : ')' ∉ (updateOf kind normalized type).importLine :=
    not_mem_importStatement ht (isKeyCharacter_of_mem_module _ hk) (by rfl) (by rfl) (by rfl)
  -- an import line has no parenthesis, so only its braces could hold the registration
  refine (hreg.infix_after (c := 'i') rfl (by decide) himport).resolve_right fun hcuts => ?_
  have hbalanced := (balanced_updateOf kind (balanced_of_isKeyCharacter hk)
    (balanced_of_isAscii ht)).1
  obtain ⟨start, hmethod⟩ := hreg.located
  have hbody := (hreg.cuts_cases hplace hcuts hbalanced (c := 'i') rfl (by decide) (by decide)
    hline.getLast? hline.unbroken).resolve_left hparen
  refine hbraces _ hmethod.locate? ?_
  rwa [BodyEdit.before, body_regionOf]

/-- `patch` of a registry, again with the same update. A run that was stopped behind `insertImport` converges to the
text of a whole patch. A second patch changes nothing exactly if the first one did not lose the import line
(`LosesImport`), and it never does so when the import step has left the line in the text and the registering method is
not opened and closed by the braces of that line. -/
theorem patch_patch (h : Makes kind normalized update) (style : RegistryStyle) (text : Text) :
    (patch style (imported text update) update).text = (patch style text update).text ∧
      (Settles style text update ↔ ¬ LosesImport style text update) ∧
      (update.importLine <:+: imported text update →
        (∀ region, locate? (imported text update) (Registry.layout update.kind).methodName
          = some region →
            ¬ '\x7b' :: region.body (imported text update) ++ ['\x7d'] <:+: update.importLine) →
        Settles style text update) :=
  ⟨patch_imported style text update, settles_iff h,
    fun himport hbraces => (settles_iff h).mpr (not_losesImport h himport hbraces)⟩

set_option maxRecDepth 8192 in
/-- A registry in good order is settled by the first patch. -/
theorem patch_patch_weather :
    Makes .tool "weather" weather ∧
      Settles .legacy "import a from 'a';\nclass R \x7b\n  initializeTools() \x7b\n  \x7d\n\x7d\n"
        weather := by
  refine ⟨makes_weather, (patch_patch makes_weather .legacy _).2.1.mpr fun hlost => ?_⟩
  have hin : occursIn weather.importLine (patch .legacy
      "import a from 'a';\nclass R \x7b\n  initializeTools() \x7b\n  \x7d\n\x7d\n" weather).text = true := by
    decide
  exact hlost.2.1 (occursIn_iff.mp hin)

set_option maxRecDepth 8192 in
/-- The line break that a registration puts in front of a closing brace can turn what follows the brace
into an import, next to which a second patch puts the import line that the first one had no place for. -/
theorem not_settles_weather :
    ¬ Settles .autoDiscovery "initializeTools() \x7b \x7d from 'x'" weather := by
  decide

end ComponentKit.Registry
