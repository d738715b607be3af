import ComponentKit.Proofs.Registry.Insertion

/-!
# Additions break lines

Each step of a `patch` that adds something adds a line break, and no step takes a line feed away: the blanks that
make room for a registration have none. So the two steps cannot undo each other, and the text that a patch leaves
is another one as soon as one of them adds something.
-/

namespace ComponentKit.Registry

open Text Source

variable {style : RegistryStyle} {text result segment : Text} {update : Update}
  {registration : Registration} {layout : Layout} {anchor : Anchor}

/-! ## Line feeds of what is added -/

theorem count_lineBreak (text : Text) : (lineBreak text).count '\n' = 1 := by
  rcases isBreak_lineBreak text with h | h <;> rw [h] <;> rfl

/-- The lines of a registration start with a line break. -/
theorem count_indented_pos (text indent : Text) (registration : Registration) :
    0 < (indented (lineBreak text) indent registration.lines).count '\n' := by
  simp only [indented, Registration.lines, List.flatMap_cons, List.count_append, count_lineBreak]
  omega

theorem IsInserted.count_lt {before after : Text} (h : IsInserted segment before after)
    (hfeed : 0 < segment.count '\n') : before.count '\n' < after.count '\n' := by
  obtain ⟨x, y, rfl, rfl⟩ := h
  simp only [List.count_append]
  omega

/-! ## Steps that add something -/

/-- An import that is added brings a line feed. -/
theorem count_imported_lt (h : (insertImport text update.importLine).isAdded = true) :
    text.count '\n' < (imported text update).count '\n' := by
  have hbreak := count_lineBreak text
  rcases imported_inserts text update with ⟨hnone, -⟩ | ⟨-, hinserted | hinserted⟩
  · rw [hnone] at h
    cases h
  · exact hinserted.count_lt (by rw [List.count_append]; omega)
  · exact hinserted.count_lt (by rw [List.count_append]; omega)

/-- A registration that is added brings a line feed; the blanks that it takes away have none. -/
theorem Seam.Adds.count_lt {seam : Seam} (h : seam.Adds text result registration layout anchor) :
    text.count '\n' < result.count '\n' := by
  have hadded := count_indented_pos text seam.indent registration
  have hending : seam.back.count '\n' ≤ seam.ending.count '\n' := by
    rcases h.ending_cases with hkept | ⟨hnone, -⟩
    · rw [hkept]
    · rw [List.count_eq_zero.mpr hnone]
      omega
  have hbefore := congrArg (List.count '\n') h.text_eq
  have hafter := congrArg (List.count '\n') h.result_eq
  simp only [Seam.body, Seam.added, List.count_append] at hbefore hafter
  omega

/-! ## Whole patches -/

/-- A patch that reports no change has none. -/
theorem patch_text_of_not_changed (h : (patch style text update).changed = false) :
    (patch style text update).text = text := by
  obtain ⟨himport, hregistration⟩ := Bool.or_eq_false_iff.mp h
  have hregistered : (registered style (imported text update) update).isAdded = false := hregistration
  rw [patch_text, text_eq_of_isAdded_eq_false hregistered]
  exact text_eq_of_isAdded_eq_false himport text

/-- A patch that reports a change leaves more line feeds than there were. -/
theorem count_patch_lt (h : (patch style text update).changed = true) :
    text.count '\n' < (patch style text update).text.count '\n' := by
  cases hregistration : (patch style text update).registrationAdded with
  | true =>
    -- the registration goes into a text that has lost none, whether or not the import was added
    have himported : text.count '\n' ≤ (imported text update).count '\n' := by
      cases himport : (insertImport text update.importLine).isAdded with
      | true => exact (count_imported_lt himport).le
      | false => exact (congrArg _ (text_eq_of_isAdded_eq_false himport text)).ge
    obtain ⟨seam, hs⟩ := exists_seam_patch hregistration
    exact himported.trans_lt hs.count_lt
  | false =>
    -- only the import can have been added, and nothing was done after it
    have himport : (insertImport text update.importLine).isAdded = true := by
      rw [Patch.changed, hregistration, Bool.or_false] at h
      exact h
    have hsame : (patch style text update).text = imported text update :=
      text_eq_of_isAdded_eq_false hregistration _
    rw [hsame]
    exact count_imported_lt himport

/-- A patch reports a change exactly if it leaves another text. -/
theorem changed_iff_text_ne (style : RegistryStyle) (text : Text) (update : Update) :
    (patch style text update).changed = true ↔ (patch style text update).text ≠ text := by
  constructor
  · intro h hsame
    have := count_patch_lt h
    rw [hsame] at this
    omega
  · intro h
    by_contra hnone
    exact h (patch_text_of_not_changed (by simpa using hnone))

end ComponentKit.Registry
