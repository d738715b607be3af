import ComponentKit.Proofs.Registry.Idempotence
import ComponentKit.Proofs.Text.FileLines

/-!
# What a patch puts in

`insertRegistration` only puts lines in: around them the method is found again, with a body that is longer by what
was added, and in which a second step finds the registration. A patch puts the import line somewhere into the text
and the lines of the registration somewhere into the body of the registering method, so that all characters but
blanks stay as they are and in their order (`patch_inserts`).
-/

namespace ComponentKit.Registry

open Text Source Component

variable {style : RegistryStyle} {text result : Text} {update : Update} {registration : Registration}
  {layout : Layout} {anchor : Anchor} {setter newline : Text} {lines : List Text}

/-! ## The region of a registration -/

/-- The call is one of the lines that are added. -/
theorem Seam.call_infix (seam : Seam) (text : Text) (registration : Registration) :
    registration.call <:+: seam.front ++ (seam.added text registration ++ seam.ending) := by
  refine ⟨seam.front ++ (lineBreak text ++ seam.indent),
    indented (lineBreak text) seam.indent registration.followers ++ seam.ending, ?_⟩
  simp only [added, Registration.lines, indented, List.flatMap_cons, List.append_assoc]

namespace Seam.Adds

variable {seam : Seam}

theorem locate?_eq (h : seam.Adds text result registration layout anchor) :
    locate? text layout.methodName = some (regionOf seam.opening seam.body seam.start) := by
  rw [h.text_eq, h.isMethod.locate?]

/-- A registration is added in a body that ends where the one before did, but for the characters that are
added. -/
theorem length_result (h : seam.Adds text result registration layout anchor) :
    (seam.front ++ (seam.added text registration ++ seam.ending)).length + text.length
      = seam.body.length + result.length := by
  have htext := congrArg List.length h.text_eq
  have hresult := congrArg List.length h.result_eq
  simp only [List.length_append, List.length_cons] at htext hresult ⊢
  omega

theorem balanced_added (h : seam.Adds text result registration layout anchor)
    (hlines : Balanced registration.lines.flatten) : Balanced (seam.added text registration) :=
  (balanced_congr (filter_isBrace_indented (fun _ => isBlank_of_mem_lineBreak) h.indent_blank _)).mpr hlines

end Seam.Adds

/-- An `insertRegistration` whose lines close the braces that they open leaves the method where it was, for any method
and any setter: the body ends as many characters later as were added and has the registration, which a second step
finds. A step that adds nothing leaves the text. -/
theorem insertRegistration_stable (hlines : Balanced registration.lines.flatten) (text : Text)
    (layout : Layout) (anchor : Anchor) :
    (∀ result, insertRegistration text registration layout anchor = .added result →
      ∃ region region', locate? text layout.methodName = some region ∧
        locate? result layout.methodName = some region' ∧
        region'.signatureStart = region.signatureStart ∧ region'.bodyStart = region.bodyStart ∧
        region'.bodyEnd + text.length = region.bodyEnd + result.length ∧
        registration.call <:+: region'.body result ∧
        insertRegistration result registration layout anchor = .present) ∧
    ((insertRegistration text registration layout anchor).isAdded = false →
      (insertRegistration text registration layout anchor).text text = text) := by
  refine ⟨fun result hadded => ?_, fun hnone => text_eq_of_isAdded_eq_false hnone text⟩
  obtain ⟨seam, hs⟩ := exists_seam hadded
  -- the lines close what they open, so that the brace behind the seam still closes the body
  have hmethod := hs.isMethod_result (hs.balanced_added hlines)
  have hlocated : locate? result layout.methodName = some (regionOf seam.opening
      (seam.front ++ (seam.added text registration ++ seam.ending)) seam.start) := by
    rw [hs.result_eq, hmethod.locate?]
  have hbody : (regionOf seam.opening (seam.front ++ (seam.added text registration ++ seam.ending))
      seam.start).body result = seam.front ++ (seam.added text registration ++ seam.ending) := by
    rw [hs.result_eq, body_regionOf]
  refine ⟨_, _, hs.locate?_eq, hlocated, rfl, rfl, ?_, ?_, ?_⟩
  · have := hs.length_result
    simp only [regionOf]
    omega
  · rw [hbody]
    exact seam.call_infix text registration
  · simp only [insertRegistration, hlocated, hbody, occursIn_iff.mpr (seam.call_infix text registration),
      if_true]

/-- The blanks of an empty body make room for a registration, and the brace moves with it. -/
theorem insertRegistration_stable_setup :
    let layout : Layout := ⟨.tool, "setup", "add("⟩
    let registration : Registration := ⟨"add(\x7b\x7d);", []⟩
    let result : Text := "setup() \x7b\n  add(\x7b\x7d);\n\x7d"
    Balanced registration.lines.flatten ∧
      insertRegistration "setup() \x7b  \x7d" registration layout .statement = .added result ∧
      ∃ region', locate? result layout.methodName = some region' ∧
        insertRegistration result registration layout .statement = .present := by
  have hlines : Balanced (Registration.lines ⟨"add(\x7b\x7d);", []⟩).flatten :=
    ⟨(opensFirst_congr (by decide)).mpr (OpensFirst.of_forall (x := []) (by simp)).braced, by decide⟩
  have hadded : insertRegistration "setup() \x7b  \x7d" ⟨"add(\x7b\x7d);", []⟩ ⟨.tool, "setup", "add("⟩ .statement
      = .added "setup() \x7b\n  add(\x7b\x7d);\n\x7d" := by
    decide +kernel
  obtain ⟨-, region', -, hlocated, -, -, -, -, hpresent⟩ := (insertRegistration_stable hlines _ _ _).1 _ hadded
  exact ⟨hlines, hadded, region', hlocated, hpresent⟩

/-! ## What a patch keeps -/

/-- Whether a text becomes another one by a segment that is put between two parts of it. -/
def IsInserted (segment before after : Text) : Prop :=
  ∃ x y, before = x ++ y ∧ after = x ++ segment ++ y

/-- Whether a body becomes another one by lines that are put into it, each on a line of its own. -/
inductive GainsLines (setter newline : Text) (lines : List Text) : Text → Text → Prop where
  /-- The lines are put between two parts of the body. -/
  | inserted {indent before after : Text} : (∀ c ∈ indent, isBlank c = true) →
    IsInserted (indented newline indent lines) before after → GainsLines setter newline lines before after
  /-- In a body without registrations, other blanks stand between the lines and the closing brace than
  before, if those had no line feed. -/
  | appended {indent front gap ending : Text} : (∀ c ∈ indent, isBlank c = true) →
    ¬ setter <:+: front ++ gap → (∀ c ∈ gap, isBlank c = true) → '\n' ∉ gap →
    (∀ c ∈ ending, isBlank c = true) →
    GainsLines setter newline lines (front ++ gap) (front ++ indented newline indent lines ++ ending)

/-- The characters of a text that are not blank. -/
def inked (text : Text) : Text :=
  text.filter (!isBlank ·)

theorem inked_append (x y : Text) : inked (x ++ y) = inked x ++ inked y :=
  List.filter_append x y

theorem inked_of_blank {x : Text} (h : ∀ c ∈ x, isBlank c = true) : inked x = [] :=
  List.filter_eq_nil_iff.mpr fun c hc => by simp [h c hc]

theorem IsInserted.sublist {segment before after : Text} (h : IsInserted segment before after) :
    before.Sublist after := by
  obtain ⟨x, y, rfl, rfl⟩ := h
  exact (List.sublist_append_left x segment).append (List.Sublist.refl y)

theorem GainsLines.inked_sublist {before after : Text} (h : GainsLines setter newline lines before after) :
    (inked before).Sublist (inked after) := by
  cases h with
  | inserted _ h => exact h.sublist.filter _
  | @appended indent front gap ending _ _ hgap _ hending =>
    rw [inked_append, inked_append, inked_append, inked_of_blank hgap, inked_of_blank hending]
    simp

/-- The import step puts in the import line and one line break, or nothing. -/
theorem imported_inserts (text : Text) (update : Update) :
    ((insertImport text update.importLine).isAdded = false ∧ imported text update = text) ∨
      (insertImport text update.importLine).isAdded = true ∧
        (IsInserted (lineBreak text ++ update.importLine) text (imported text update) ∨
          IsInserted (update.importLine ++ lineBreak text) text (imported text update)) := by
  refine (imported_split text update).imp_right (And.imp_right ?_)
  rintro ⟨p, q, htext, ⟨-, hafter⟩ | ⟨-, hafter⟩⟩
  · exact .inl ⟨p, q, htext, hafter⟩
  · exact .inr ⟨p, q, htext, hafter⟩

/-- A registration step puts its lines into the body. -/
theorem Seam.Adds.gainsLines {seam : Seam} (h : seam.Adds text result registration layout anchor) :
    GainsLines layout.setter (lineBreak text) registration.lines seam.body
      (seam.front ++ (seam.added text registration ++ seam.ending)) := by
  rw [← List.append_assoc]
  rcases h.ending_cases with hkept | ⟨hnewline, hsetter, htrim, hending⟩
  · exact .inserted h.indent_blank ⟨seam.front, seam.back, rfl, by rw [hkept]; rfl⟩
  · exact .appended h.indent_blank hsetter (fun c => isBlank_of_trimEnd htrim) hnewline hending

/-- In a `patch`, `insertImport` puts in the import line and a line break or leaves the text, and `insertRegistration`
leaves the text or puts its lines into the located body. So no character that is not blank is lost, and those of the
text stay in their order. -/
theorem patch_inserts (style : RegistryStyle) (text : Text) (update : Update) :
    (((patch style text update).importAdded = false ∧ imported text update = text) ∨
      (patch style text update).importAdded = true ∧
        (IsInserted (lineBreak text ++ update.importLine) text (imported text update) ∨
          IsInserted (update.importLine ++ lineBreak text) text (imported text update))) ∧
    (((patch style text update).registrationAdded = false ∧
        (patch style text update).text = imported text update) ∨
      (patch style text update).registrationAdded = true ∧ ∃ region body,
        locate? (imported text update) (Registry.layout update.kind).methodName = some region ∧
        ((imported text update).drop region.bodyEnd).head? = some '\x7d' ∧
        GainsLines (Registry.layout update.kind).setter (lineBreak (imported text update))
          (update.registration style).lines (region.body (imported text update)) body ∧
        (patch style text update).text = (imported text update).take region.bodyStart ++ body
          ++ (imported text update).drop region.bodyEnd) ∧
    (inked text).Sublist (inked (patch style text update).text) := by
  have himport := imported_inserts text update
  have hbefore : text.Sublist (imported text update) := by
    rcases himport with ⟨-, heq⟩ | ⟨-, h | h⟩
    · rw [heq]
    · exact h.sublist
    · exact h.sublist
  cases hadded : (patch style text update).registrationAdded with
  | false =>
    have hsame : (patch style text update).text = imported text update :=
      text_eq_of_isAdded_eq_false hadded _
    exact ⟨himport, .inl ⟨rfl, hsame⟩, hsame ▸ hbefore.filter _⟩
  | true =>
    obtain ⟨seam, hs⟩ := exists_seam_patch hadded
    have hgains := hs.gainsLines
    -- the pieces that the statement cuts off by offsets are those of the seam
    have hsplit : imported text update = seam.opening ++ seam.body ++ '\x7d' :: seam.rest := by
      rw [hs.text_eq, List.append_assoc]
    have hstart : (imported text update).take (regionOf seam.opening seam.body seam.start).bodyStart
        = seam.opening := by
      rw [hs.text_eq, take_bodyStart_regionOf]
    have hend : (imported text update).drop (regionOf seam.opening seam.body seam.start).bodyEnd
        = '\x7d' :: seam.rest := by
      rw [hs.text_eq, drop_bodyEnd_regionOf]
    have hbody : (regionOf seam.opening seam.body seam.start).body (imported text update) = seam.body := by
      rw [hs.text_eq, body_regionOf]
    refine ⟨himport, .inr ⟨rfl, _, _, hs.locate?_eq, by rw [hend]; rfl, hbody.symm ▸ hgains, ?_⟩, ?_⟩
    · rw [hstart, hend, hs.result_eq]
      simp only [List.append_assoc]
    · -- the body keeps its characters, and so does what is around it
      have hparts : inked (imported text update)
          = inked seam.opening ++ (inked seam.body ++ inked ('\x7d' :: seam.rest)) := by
        rw [hsplit, List.append_assoc, inked_append, inked_append]
      refine (hbefore.filter _).trans ?_
      show (inked (imported text update)).Sublist (inked (patch style text update).text)
      rw [hparts, hs.result_eq, inked_append, inked_append _ ('\x7d' :: seam.rest)]
      exact (List.Sublist.refl _).append (hgains.inked_sublist.append (List.Sublist.refl _))

/-! ## The lines of a patch -/

/-- A text without carriage returns is edited with line feeds. -/
theorem lineBreak_of_notMem (h : '\r' ∉ text) : lineBreak text = ['\n'] := by
  rw [lineBreak, if_neg]
  · rfl
  · rw [occursIn_iff]
    exact fun hin => h (hin.subset (by decide))

theorem mem_indented {indent : Text} {c : Char} (h : c ∈ indented newline indent lines) :
    c ∈ newline ∨ c ∈ indent ∨ ∃ line ∈ lines, c ∈ line := by
  obtain ⟨line, hline, hc⟩ := List.mem_flatMap.mp h
  rcases List.mem_append.mp hc with hc | hc
  · exact (List.mem_append.mp hc).imp_right .inl
  · exact .inr (.inr ⟨line, hline, hc⟩)

theorem mem_callIndent {region : Region} {offset : Nat} {c : Char} (h : c ∈ callIndent text region offset) :
    c ∈ text ∨ isIndent c = true := by
  simp only [callIndent] at h
  split at h
  · exact .inl (List.mem_of_mem_take (List.mem_of_mem_drop h))
  · exact .inr (isIndent_of_mem_bodyIndent h)

theorem mem_body {region : Region} {c : Char} (h : c ∈ region.body text) : c ∈ text :=
  List.mem_of_mem_take (List.mem_of_mem_drop h)

theorem mem_appendToBody {region : Region} {c : Char} (h : c ∈ appendToBody text region lines) :
    c ∈ text ∨ c ∈ lineBreak text ∨ isIndent c = true ∨ ∃ line ∈ lines, c ∈ line := by
  simp only [appendToBody, List.mem_append] at h
  rcases h with (h | (h | h) | h) | h
  · exact .inl (List.mem_of_mem_take h)
  · exact .inl (mem_body (mem_of_mem_trimEnd h))
  · rcases mem_indented h with h | h | h
    · exact .inr (.inl h)
    · exact .inr (.inr (.inl (isIndent_of_mem_contentIndent h)))
    · exact .inr (.inr (.inr h))
  · split at h
    · exact .inl (mem_body (List.mem_of_mem_drop h))
    · rcases List.mem_append.mp h with h | h
      · exact .inr (.inl h)
      · exact .inr (.inr (.inl (isIndent_of_mem_indentation h)))
  · exact .inl (List.mem_of_mem_drop h)

/-- A registration step puts in its lines, line breaks and indentation, which it may take from the text. -/
theorem mem_insertRegistration (h : insertRegistration text registration layout anchor = .added result)
    {c : Char} (hc : c ∈ result) : c ∈ text ∨ c ∈ lineBreak text ∨ isIndent c = true ∨
      ∃ line ∈ registration.lines, c ∈ line := by
  simp only [insertRegistration] at h
  -- refused without the method, present, at the end of the body, refused at an open call, or behind a
  -- call
  split at h
  · cases h
  rename_i region hregion
  split at h
  · cases h
  split at h
  · obtain rfl := Edit.added.inj h
    exact mem_appendToBody hc
  split at h
  · cases h
  · obtain rfl := Edit.added.inj h
    simp only [insertAt, List.mem_append] at hc
    rcases hc with (hc | hc) | hc
    · exact .inl (List.mem_of_mem_take hc)
    · rcases mem_indented hc with hc | hc | hc
      · exact .inr (.inl hc)
      · exact (mem_callIndent hc).imp_right fun h => .inr (.inl h)
      · exact .inr (.inr (.inr hc))
    · exact .inl (List.mem_of_mem_drop hc)

/-- The import step goes into one line of a text without carriage returns, and brings in none. -/
theorem editsLine_imported (htext : '\r' ∉ text) (himport : '\r' ∉ update.importLine) :
    '\r' ∉ imported text update ∧ EditsLine (fileLines text) (fileLines (imported text update)) := by
  -- either way one segment without carriage returns is put in
  have hsegment : ∀ {segment}, '\r' ∉ segment → IsInserted segment text (imported text update) →
      '\r' ∉ imported text update ∧ EditsLine (fileLines text) (fileLines (imported text update)) := by
    rintro segment hsegment ⟨x, y, hbefore, hafter⟩
    rw [hafter, hbefore]
    rw [hbefore] at htext
    refine ⟨?_, editsLine_insert htext segment⟩
    rw [List.mem_append, not_or] at htext
    simp [htext, hsegment]
  have hbreak : lineBreak text = ['\n'] := lineBreak_of_notMem htext
  rcases imported_inserts text update with ⟨-, heq⟩ | ⟨-, h | h⟩
  · rw [heq]
    exact ⟨htext, EditsLine.refl _⟩
  · exact hsegment (by simp [hbreak, himport]) h
  · exact hsegment (by simp [hbreak, himport]) h

/-- The registration step of a patch goes into one line of such a text, and brings in no carriage return. -/
theorem editsLine_patch (htext : '\r' ∉ imported text update)
    (hlines : ∀ line ∈ (update.registration style).lines, '\r' ∉ line) :
    '\r' ∉ (patch style text update).text ∧
      EditsLine (fileLines (imported text update)) (fileLines (patch style text update).text) := by
  cases hadded : (patch style text update).registrationAdded with
  | false =>
    have hsame : (patch style text update).text = imported text update :=
      text_eq_of_isAdded_eq_false hadded _
    rw [hsame]
    exact ⟨htext, EditsLine.refl _⟩
  | true =>
    obtain ⟨result, hr, hresult⟩ := exists_registered_eq hadded
    constructor
    · rw [hresult]
      intro hmem
      rcases mem_insertRegistration hr hmem with h | h | h | ⟨line, hline, h⟩
      · exact htext h
      · rw [lineBreak_of_notMem htext] at h
        exact absurd h (by decide)
      · exact absurd h (by decide)
      · exact hlines line hline h
    · obtain ⟨seam, hs⟩ := exists_seam_patch hadded
      have hbefore := hs.text_eq
      have hafter := hs.result_eq
      rw [Seam.body] at hbefore
      rcases hs.ending_cases with hkept | ⟨hfeed, -, htrim, -⟩
      · have hparts : imported text update
            = (seam.opening ++ seam.front) ++ (seam.back ++ '\x7d' :: seam.rest) := by
          simp [hbefore]
        have hedit := editsLine_insert (hparts ▸ htext)
          (seam.added (imported text update) (update.registration style))
        rw [← hparts] at hedit
        rw [hafter, hkept]
        simpa only [List.append_assoc] using hedit
      · -- the trailing blanks are exchanged for the lines and blanks
        have hparts : imported text update
            = (seam.opening ++ seam.front) ++ seam.back ++ '\x7d' :: seam.rest := by
          simp [hbefore]
        have hedit := editsLine_fileLines (fun _ => isBlank_of_trimEnd htrim) hfeed (hparts ▸ htext)
          (seam.added (imported text update) (update.registration style) ++ seam.ending)
        rw [← hparts] at hedit
        rw [hafter]
        simpa only [List.append_assoc] using hedit

end ComponentKit.Registry
