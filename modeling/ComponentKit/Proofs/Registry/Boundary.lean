import ComponentKit.Proofs.Registry.Reading
import ComponentKit.Proofs.Source.Nesting

/-!
# Registrations between statements

A registration that goes behind a call goes behind what `endOfCall?` finds: the closing parenthesis of the call, or
the semicolon that follows. The parentheses of the call are closed there, but not those that the call stands in:
the new line is a statement between two others exactly if the call is a statement (`isWholeStatement`).
-/

namespace ComponentKit.Registry

open Text Source Component

variable {kind : IndexedKind} {update : Update} {key text body : Text}

/-! ## Calls that register -/

/-- The setter is a name and a parenthesis. -/
theorem exists_setter_eq (kind : IndexedKind) :
    ∃ word, (layout kind).setter = word ++ ['('] ∧ ∀ c ∈ word, isPlainCode c = true := by
  have hplain : (layout kind).setter.dropLast.all isPlainCode = true := by cases kind <;> decide
  refine ⟨(layout kind).setter.dropLast, ?_, List.all_eq_true.mp hplain⟩
  cases kind <;> decide

/-- A registering call closes what it opens. -/
theorem isClosed_of_setter {call back : Text} (hsetter : (layout kind).setter <+: call ++ back)
    (hcall : callEnd? (call ++ back) = some call.length) : IsClosed call := by
  obtain ⟨word, hword, hplain⟩ := exists_setter_eq kind
  rw [hword] at hsetter
  exact isClosed_of_callEnd? hplain hsetter hcall

/-! ## Patches -/

/-- A patch that adds a registration to a body with registrations, in a registry without starting lines. The
registration is a line right behind the last call, which `callEnd?` reads as one from its own start on. If the reader
of the body is in code where the call starts, then as many parentheses are open at the place as at that start
(`openIn`), and the line is between two statements exactly if the call is a statement. -/
theorem patch_behind_call (h : Makes kind key update)
    (hadded : (patch .autoDiscovery text update).registrationAdded = true)
    (hbody : registeringBody? (layout kind) (imported text update) = some body)
    (hcalls : occursIn (layout kind).setter body = true) :
    ∃ opening lead call back rest added, body = lead ++ (call ++ back) ∧
      imported text update = opening ++ (body ++ '\x7d' :: rest) ∧
      (patch .autoDiscovery text update).text
        = opening ++ (lead ++ (call ++ (added ++ back)) ++ '\x7d' :: rest) ∧
      AreLines [update.registrationLine] added ∧
      lastIndexOf? (layout kind).setter body = some lead.length ∧
      callEnd? (call ++ back) = some call.length ∧
      (Mode.code.after lead (call ++ (back ++ '\x7d' :: rest)).head? = .code →
        openIn '(' ')' (lead ++ call) (back ++ '\x7d' :: rest)
            = openIn '(' ')' lead (call ++ (back ++ '\x7d' :: rest)) ∧
          isBetweenStatements (lead ++ call) added (back ++ '\x7d' :: rest)
            = isWholeStatement lead call (back ++ '\x7d' :: rest)) := by
  have hw := isWiring_of_makes h
  obtain ⟨seam, hs⟩ := exists_seam_patch hadded
  rw [hw.kind_eq] at hs
  obtain rfl : seam.body = body := Option.some.inj (hs.registeringBody?_eq.symm.trans hbody)
  have hsetter : (layout kind).setter <:+: seam.body := occursIn_iff.mp hcalls
  -- only an end of the body without a registration changes what follows
  have hending : seam.ending = seam.back := by
    by_contra hkept
    exact (hs.ending_cases.resolve_left hkept).2.1 hsetter
  have hlines : (update.registration .autoDiscovery).lines = [update.registrationLine] := by
    simp [Update.registration, Registration.lines]
  have hareLines : AreLines [update.registrationLine] (seam.added (imported text update)
      (update.registration .autoDiscovery)) := by
    rw [← hlines]
    exact areLines_indented (isBreak_lineBreak _) hs.indent_blank hs.indent_unbroken _
  -- the reader is in code again behind the line that is added
  have hcode : ∀ next, Mode.code.after (seam.added (imported text update)
      (update.registration .autoDiscovery)) next = .code := by
    refine hareLines.after (show Mode.code.Settled from trivial).paused (fun line hline => ?_) (by simp)
    rw [List.mem_singleton] at hline
    exact hline ▸ (keeps_of_makes h).2.1
  cases hs.isCut with
  | atEnd hnone => exact absurd hsetter hnone
  | @afterCall lead call line hfront hlast hcall hends hplace =>
    -- in this style the registration goes right behind the call
    obtain rfl : line = [] := List.eq_nil_of_length_eq_zero hplace.symm
    rw [List.append_nil] at hfront
    rw [List.nil_append] at hcall
    have hprefix : (layout kind).setter <+: call ++ seam.back := by
      obtain ⟨-, hprefix, -⟩ := lastIndexOf?_eq_some_iff.mp hlast
      rwa [hfront, List.append_assoc, List.drop_left] at hprefix
    have hclosed := isClosed_of_setter hprefix hcall
    refine ⟨seam.opening, lead, call, seam.back, seam.rest, _, ?_, hs.text_eq, ?_, hareLines, hlast, hcall,
      fun hstart => ⟨(hclosed.openIn_eq hstart).2, isBetweenStatements_eq hclosed hends hstart hcode⟩⟩
    · rw [Seam.body, hfront, List.append_assoc]
    · rw [hs.result_eq, hending, hfront]
      simp only [List.append_assoc]

theorem patch_behind_call_weather :
    Makes .tool "weather" weather ∧ (patch .autoDiscovery listedRegistry weather).registrationAdded = true ∧
      registeringBody? (layout .tool) (imported listedRegistry weather)
        = some "\n    this.tools.set('a', new ATool());\n  ".toList ∧
      occursIn (layout .tool).setter "\n    this.tools.set('a', new ATool());\n  " = true ∧
      ∃ opening lead call back rest added,
        "\n    this.tools.set('a', new ATool());\n  ".toList = lead ++ (call ++ back) ∧
        (patch .autoDiscovery listedRegistry weather).text
          = opening ++ (lead ++ (call ++ (added ++ back)) ++ '\x7d' :: rest) ∧
        AreLines [weather.registrationLine] added ∧ callEnd? (call ++ back) = some call.length := by
  have hadded : (patch .autoDiscovery listedRegistry weather).registrationAdded = true := by
    decide +kernel
  have hbody : registeringBody? (layout .tool) (imported listedRegistry weather)
      = some "\n    this.tools.set('a', new ATool());\n  ".toList := by
    decide +kernel
  have hcalls : occursIn (layout .tool).setter "\n    this.tools.set('a', new ATool());\n  " = true := by
    decide +kernel
  obtain ⟨opening, lead, call, back, rest, added, hsplit, -, hresult, hlines, -, hcall, -⟩ :=
    patch_behind_call makes_weather hadded hbody hcalls
  exact ⟨makes_weather, hadded, hbody, hcalls, opening, lead, call, back, rest, added, hsplit, hresult, hlines, hcall⟩

/-- A registry whose registration is an argument of another call. -/
def trackedRegistry : Text :=
  "class R \x7b\n  initializeTools() \x7b\n    this.track(this.tools.set('a', new ATool()));\n  \x7d\n\x7d\n"

/-- A new registration goes into the argument list of the other call. -/
theorem patch_inside_statement :
    Makes .tool "weather" weather ∧ (patch .autoDiscovery trackedRegistry weather).registrationAdded = true ∧
      ∃ opening before added behind, imported trackedRegistry weather = opening ++ (before ++ behind) ∧
        registeringBody? (layout .tool) (imported trackedRegistry weather)
          = some (before ++ ");\n  ".toList) ∧
        (patch .autoDiscovery trackedRegistry weather).text = opening ++ (before ++ (added ++ behind)) ∧
        added = "\n    ".toList ++ weather.registrationLine ∧
        openIn '(' ')' before (added ++ behind) = 1 ∧ Mode.code.nextCode? behind = some ')' ∧
        isBetweenStatements before added behind = false := by
  refine ⟨makes_weather, by decide +kernel,
    "import \x7b WeatherTool \x7d from './weather-tool.js';\nclass R \x7b\n  initializeTools() \x7b",
    "\n    this.track(this.tools.set('a', new ATool())", "\n    ".toList ++ weather.registrationLine,
    ");\n  \x7d\n\x7d\n", by decide +kernel, by decide +kernel, by decide +kernel, rfl, by decide +kernel,
    by decide +kernel, by decide +kernel⟩

end ComponentKit.Registry
