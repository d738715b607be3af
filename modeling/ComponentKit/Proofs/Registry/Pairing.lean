import ComponentKit.Proofs.Registry.Insertion
import ComponentKit.Proofs.Text.Pairing

/-!
# Patches of registries with paired line breaks

In a registry whose carriage returns and line feeds come in pairs only (`IsPaired`), no edit goes between a
carriage return and its line feed, and all the line breaks that an edit adds are pairs. So a `patch` with lines
that break no line leaves such a registry.
-/

namespace ComponentKit.Registry

open Text Source

variable {style : RegistryStyle} {text result line newline indent ending : Text} {update : Update}
  {registration : Registration} {layout : Layout} {anchor : Anchor}

/-! ## What is added -/

theorem isPaired_of_isIndent (h : ∀ c ∈ indent, isIndent c = true) : IsPaired indent :=
  .of_notMem (fun hc => absurd (h _ hc) (by decide)) fun hc => absurd (h _ hc) (by decide)

theorem isPaired_indented {lines : List Text} (hnewline : IsPaired newline) (hindent : IsPaired indent)
    (hlines : ∀ line ∈ lines, IsPaired line) : IsPaired (indented newline indent lines) :=
  isPaired_flatMap fun line hline => (hnewline.append hindent).append (hlines line hline)

/-! ## The import -/

/-- A text that goes between two parts leaves the text paired if the first part does not end in the middle of
a pair. -/
theorem isPaired_between {p q added : Text} (h : IsPaired (p ++ q)) (hlast : p.getLast? ≠ some '\r')
    (hadded : IsPaired added) : IsPaired (p ++ added ++ q) := by
  obtain ⟨hp, hq⟩ := h.split fun htears => hlast htears.1
  exact (hp.append hadded).append hq

/-- An import goes behind a mark that ends a statement, or in front of a line. -/
theorem isPaired_imported (h : IsPaired text) (hfeed : '\n' ∈ text) (hline : IsPaired update.importLine) :
    IsPaired (imported text update) := by
  have hpair : IsPaired (lineBreak text) := h.lineBreak_eq hfeed ▸ isPaired_pair
  -- in both places the character in front is no carriage return, so no pair is torn
  rcases imported_split text update with
    ⟨-, hsame⟩ | ⟨-, p, q, htext, ⟨hends, hinsert⟩ | ⟨hstart, hinsert⟩⟩
  · rwa [hsame]
  · have hlast : p.getLast? ≠ some '\r' := by
      obtain ⟨c, hlast, hmarks⟩ := hends.last_mark
      rw [hlast]
      rcases hmarks with rfl | rfl | rfl | rfl | rfl <;> decide
    rw [hinsert]
    exact isPaired_between (htext ▸ h) hlast (hpair.append hline)
  · have hlast : p.getLast? ≠ some '\r' := by
      rcases hstart with rfl | hlast
      · simp
      · rw [hlast]
        decide
    rw [hinsert]
    exact isPaired_between (htext ▸ h) hlast (hline.append hpair)

theorem newline_mem_imported (hfeed : '\n' ∈ text) : '\n' ∈ imported text update := by
  rcases imported_inserts text update with ⟨-, hsame⟩ | ⟨-, hinserted | hinserted⟩
  · rwa [hsame]
  · exact hinserted.sublist.subset hfeed
  · exact hinserted.sublist.subset hfeed

/-! ## The registration -/

/-- A place behind which a line feed stands is in front of the carriage return of that line feed. -/
theorem getLast?_of_placeBehind {back : Text} (hplace : placeBehind anchor (line ++ '\n' :: back) = line.length)
    (hline : '\n' ∉ line) : line.getLast? ≠ some '\r' := by
  intro hlast
  cases anchor with
  | statement =>
    rw [placeBehind] at hplace
    rw [List.eq_nil_of_length_eq_zero hplace.symm] at hlast
    cases hlast
  | line =>
    have hne : line ≠ [] := by
      rintro rfl
      cases hlast
    have hspan : ∀ c ∈ line, (c != '\n') = true := by
      intro c hc
      rw [bne_iff_ne]
      rintro rfl
      exact hline hc
    have htake : (line ++ '\n' :: back).takeWhile (· != '\n') = line :=
      takeWhile_eq_of_forall hspan (by simp)
    have hslice : slice 0 (line ++ '\n' :: back).length (line ++ '\n' :: back) = line ++ '\n' :: back := by
      simp [slice]
    have hshort : line.length ≠ (line ++ '\n' :: back).length := by simp
    -- behind a return the place would be one further in front
    rw [placeBehind, endOfLine] at hplace
    simp only [hslice, htake, if_neg hshort, if_pos hlast] at hplace
    have := List.length_pos_iff.mpr hne
    omega

/-- The place of a registration tears no pair. -/
theorem not_tearsPair_of_isCut {opening front back rest : Text} (hopens : opening.getLast? = some '\x7b')
    (hcut : IsCut layout anchor front back) :
    ¬ TearsPair (opening ++ front) (back ++ '\x7d' :: rest) := by
  rintro ⟨hlast, hhead⟩
  -- neither brace is half of a pair, so the return ends the front and the feed starts the back
  obtain ⟨more, rfl⟩ : ∃ more, back = '\n' :: more := by
    cases back with
    | nil => cases hhead
    | cons c more => exact ⟨more, by rw [Option.some.inj hhead]⟩
  have hfront : front.getLast? = some '\r' := by
    cases hf : front.getLast? with
    | none =>
      obtain rfl := List.getLast?_eq_none_iff.mp hf
      rw [List.append_nil, hopens] at hlast
      cases hlast
    | some c => rwa [List.getLast?_append, hf, Option.some_or] at hlast
  cases hcut with
  | atEnd _ htrim =>
    rw [htrim] at hfront
    exact absurd (getLast?_trimEnd hfront) (by decide)
  | @afterCall before call line hsplit _ _ hends hplace hline _ =>
    rw [hsplit, ← List.append_assoc] at hfront
    cases hl : line.getLast? with
    | none =>
      obtain rfl := List.getLast?_eq_none_iff.mp hl
      rw [List.append_nil] at hfront
      rcases (hends.append_left before).getLast? with h | h
      all_goals
        rw [hfront] at h
        cases h
    | some c =>
      rw [List.getLast?_append, hl, Option.some_or] at hfront
      exact getLast?_of_placeBehind hplace hline (hl.trans hfront)

/-- Where the lines of a registration are indented like a call, they are indented without line breaks. -/
theorem isPaired_indent {setter back : Text} (h : IsPaired text) (hlaid : LaysOut text setter indent back ending)
    (hsetter : setter.head? = some 't') (hunbroken : '\n' ∉ indent) : IsPaired indent := by
  rcases hlaid.indent_cases with hindent | ⟨lead, more, htext⟩
  · exact isPaired_of_isIndent hindent
  · -- a return in front of a call would have its feed in front of the call too
    refine .of_notMem hunbroken fun hreturn => ?_
    obtain ⟨front, gap, rfl⟩ := List.append_of_mem hreturn
    have hhead := h.carriage (lead ++ front) (gap ++ (setter ++ more)) (by rw [htext]; simp)
    cases gap with
    | nil =>
      rw [List.nil_append, List.head?_append, hsetter] at hhead
      cases hhead
    | cons c gap =>
      obtain rfl := Option.some.inj hhead
      exact hunbroken (by simp)

/-- What stands in front of the closing brace in the end is paired as well. -/
theorem isPaired_ending {setter back rest : Text} (h : IsPaired (back ++ '\x7d' :: rest))
    (hlaid : LaysOut text setter indent back ending) (hpair : IsPaired (lineBreak text)) :
    IsPaired (ending ++ '\x7d' :: rest) := by
  rcases hlaid.ending_cases with rfl | ⟨gap, hgap, rfl⟩
  · exact h
  · obtain ⟨-, hbrace⟩ := h.split fun htears => by cases htears.2
    exact (hpair.append (isPaired_of_isIndent hgap)).append hbrace

/-- A registration goes between pairs. -/
theorem isPaired_insertRegistration (h : IsPaired text) (hfeed : '\n' ∈ text)
    (hsetter : layout.setter.head? = some 't') (hlines : ∀ line ∈ registration.lines, IsPaired line) :
    IsPaired ((insertRegistration text registration layout anchor).text text) := by
  cases hadded : insertRegistration text registration layout anchor with
  | present => exact h
  | refused warning => exact h
  | added result =>
    obtain ⟨seam, hs, hlaid⟩ := exists_seam_laidOut hadded
    have hpair : IsPaired (lineBreak text) := h.lineBreak_eq hfeed ▸ isPaired_pair
    have hadds : IsPaired (seam.added text registration) :=
      isPaired_indented hpair (isPaired_indent h hlaid hsetter hs.indent_unbroken) hlines
    -- the text falls into two paired parts at the place, and the result puts a third between them
    have htext : text = (seam.opening ++ seam.front) ++ (seam.back ++ '\x7d' :: seam.rest) := by
      rw [hs.text_eq, Seam.body]
      simp only [List.append_assoc]
    rw [htext] at h
    obtain ⟨hfront, hback⟩ := h.split (not_tearsPair_of_isCut hs.isMethod.opens hs.isCut)
    have hresult : result = (seam.opening ++ seam.front) ++ (seam.added text registration
        ++ (seam.ending ++ '\x7d' :: seam.rest)) := by
      rw [hs.result_eq]
      simp only [List.append_assoc]
    rw [Edit.text, hresult]
    exact hfront.append (hadds.append (isPaired_ending hback hlaid hpair))

/-! ## Whole patches -/

/-- A `patch` with lines that break no line keeps the line breaks of a registry paired. -/
theorem isPaired_patch (style : RegistryStyle) (hfeed : '\n' ∈ text) (hpaired : IsPaired text)
    (hlines : ∀ line ∈ [update.importLine, update.registrationLine, update.initializationLine],
      '\n' ∉ line ∧ '\r' ∉ line) : IsPaired (patch style text update).text := by
  have hline : ∀ line ∈ [update.importLine, update.registrationLine, update.initializationLine],
      IsPaired line := fun line hmem => .of_notMem (hlines line hmem).1 (hlines line hmem).2
  rw [patch_text]
  refine isPaired_insertRegistration (isPaired_imported hpaired hfeed (hline _ (by simp)))
    (newline_mem_imported hfeed) (by cases update.kind <;> rfl) fun line hmem => hline line ?_
  rcases mem_lines_registration hmem with rfl | rfl <;> simp

/-- A registry whose line breaks are pairs. -/
def pairedRegistry : Text :=
  ["import \x7b A \x7d from './a.js';", "export class R \x7b", "  initializeTools() \x7b",
    "    this.tools.set('a', new A());", "  \x7d", "\x7d"].flatMap (·.toList ++ ['\r', '\n'])

theorem isPaired_patch_weather : (patch .legacy pairedRegistry Component.weather).changed = true ∧
    IsPaired pairedRegistry ∧ IsPaired (patch .legacy pairedRegistry Component.weather).text := by
  have hpaired : IsPaired pairedRegistry := by
    refine isPaired_flatMap fun line hline => .append ?_ isPaired_pair
    have hall : ∀ line ∈ ["import \x7b A \x7d from './a.js';", "export class R \x7b",
        "  initializeTools() \x7b", "    this.tools.set('a', new A());", "  \x7d", "\x7d"],
        '\n' ∉ line.toList ∧ '\r' ∉ line.toList := by decide +kernel
    exact .of_notMem (hall line hline).1 (hall line hline).2
  exact ⟨by decide +kernel, hpaired,
    isPaired_patch .legacy (by decide +kernel) hpaired (by decide +kernel)⟩

end ComponentKit.Registry
