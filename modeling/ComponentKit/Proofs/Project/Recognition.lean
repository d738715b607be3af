import ComponentKit.Proofs.Project.Detection
import ComponentKit.Proofs.Session.Ending

/-!
# Recognizing a project again

Where there is all that makes a project (`IsProject`), `detect` finds it, and leaves the session as it is. A
project stays one as long as its directories and its manifest stay.
-/

namespace ComponentKit.Project

open Step

variable {before after disk : Disk} {home : Location} {nesting : Nat} {settings : Settings} {path : Path}
  {manifest : Json} {start : Store} {session : Session}

/-! ## Where a project is it is found -/

/-- The project that `detect` gives for a directory with a manifest. -/
def recognized (settings : Settings) (path : Path) (home : Location) (manifest : Json) : Project :=
  { unknown settings path with
    isValid := true
    manifest := some manifest
    name := (declaredName? manifest).getD (((path.resolve home).getLast?).getD []) }

theorem yields_readManifest (h : HasManifest session.disk session.home session.nesting settings path manifest) :
    Yields (readManifest settings path) session (some manifest) := by
  obtain ⟨text, document, ⟨bytes, raw, hfile, hread, hdecode, rfl⟩, hdocument, rfl⟩ := h
  rw [readManifest]
  refine Yields.bind (Yields.inspect hfile) ?_
  rw [if_pos rfl]
  refine Yields.bind ?_ (Yields.pure _)
  rw [readDocument]
  exact Yields.bind (Yields.readText hread hdecode) (Yields.bind Yields.get
    (Yields.bind (Yields.ofResult (by rw [hdocument]; rfl)) (Yields.pure _)))

theorem yields_hasFiles {root : Path} {files : List Text}
    (h : ∀ file ∈ files, session.disk.pathExists session.home (root.join file) = .ok true) :
    Yields (hasFiles root files) session true := by
  induction files with
  | nil => exact Yields.pure true
  | cons file files ih =>
    obtain ⟨hfile, hfiles⟩ := List.forall_mem_cons.mp h
    rw [hasFiles]
    refine Yields.bind (Yields.inspect hfile) ?_
    rw [if_pos rfl]
    exact ih hfiles

theorem yields_hasSources (h : IsProject session.disk session.home session.nesting settings path manifest) :
    Yields (hasSources settings (settings.sourceRoot path) manifest) session true := by
  rw [hasSources, h.declares]
  refine Yields.bind (Yields.inspect h.isDirectory) ?_
  exact yields_hasFiles h.files

theorem yields_nameOf (h : IsNamed path manifest) : Yields (nameOf path manifest) session
    ((declaredName? manifest).getD (((path.resolve session.home).getLast?).getD [])) := by
  rw [nameOf]
  cases hname : declaredName? manifest with
  | some name => exact Yields.pure name
  | none =>
    rw [directoryName, locationOf, h hname]
    exact Yields.bind (Yields.bind Yields.get (Yields.pure _)) (Yields.pure _)

/-- A project with a name is found, and the session stays as it is. -/
theorem yields_detect (h : IsProject session.disk session.home session.nesting settings path manifest)
    (hnamed : IsNamed path manifest) :
    Yields (detect settings path) session (recognized settings path session.home manifest) := by
  rw [detect]
  refine Yields.bind (yields_readManifest h.hasManifest).outcome ?_
  refine Yields.bind (Yields.pure (some manifest)) ?_
  refine Yields.bind (Yields.map (yields_nameOf hnamed)).outcome ?_
  refine Yields.bind (Yields.pure (some _)) ?_
  exact Yields.bind (yields_hasSources h).outcome (Yields.bind (Yields.pure true) (Yields.pure _))

/-! ## Manifests that exhaust their reader -/

theorem endsIn_readManifest_of_isExhausting {failure : Failure}
    (h : IsExhausting start.disk start.home start.nesting settings path failure) :
    EndsIn start (readManifest settings path) (.error failure) := by
  obtain ⟨text, offset, ⟨bytes, raw, hfile, hread, hdecode, rfl⟩, hdeep, rfl⟩ := h
  have htext : EndsIn start (readText (settings.manifestPath path)) (.ok (Text.unifyLineBreaks raw)) := by
    refine EndsIn.of_yields fun session hs => ?_
    subst hs
    exact Yields.readText hread hdecode
  rw [readManifest]
  refine EndsIn.ok_bind (.inspect_ok hfile) ?_
  rw [if_pos rfl, readDocument]
  refine EndsIn.error_bind (EndsIn.ok_bind htext (EndsIn.get_bind fun session hs => EndsIn.error_bind ?_))
  subst hs
  rw [show documentOf session.nesting _ = _ from hdeep]
  exact .ofResult _

/-- A manifest that exhausts its reader ends the look for a project. -/
theorem endsIn_detect_of_isExhausting {failure : Failure}
    (h : IsExhausting start.disk start.home start.nesting settings path failure) :
    EndsIn start (detect settings path) (.error failure) := by
  have hread := endsIn_readManifest_of_isExhausting h
  obtain ⟨text, offset, -, -, rfl⟩ := h
  rw [detect]
  refine EndsIn.ok_bind hread.outcome (EndsIn.error_bind ?_)
  rw [settle, if_neg (by simp [Failure.isFileFault, Failure.isContentFault])]
  exact .throw _

/-! ## Projects stay projects -/

/-- A project stays one when its directories and its manifest stay, and nothing disappears. -/
theorem IsProject.mono (h : IsProject before home nesting settings path manifest)
    (hdirectory : ∀ q, before.entryAt? q = some .directory → after.entryAt? q = some .directory)
    (hthere : ∀ q entry, before.entryAt? q = some entry → ∃ entry, after.entryAt? q = some entry)
    (hmanifest : ∀ q content, before.locate home (settings.manifestPath path) = .ok q →
      before.entryAt? q = some (.file content) → after.entryAt? q = some (.file content)) :
    IsProject after home nesting settings path manifest where
  hasManifest := by
    obtain ⟨text, document, ⟨bytes, raw, -, hread, hdecode, htext⟩, hdocument, hrecord⟩ := h.hasManifest
    obtain ⟨place, hplace, hcontent⟩ := Disk.readFile_eq_ok.mp hread
    have hlocated := Disk.locate_mono hdirectory hplace
    have hkept := hmanifest place bytes hplace hcontent
    exact ⟨text, document, ⟨bytes, raw, Disk.isFile_eq_ok_true.mpr ⟨place, bytes, hlocated, hkept⟩,
      Disk.readFile_eq_ok.mpr ⟨place, hlocated, hkept⟩, hdecode, htext⟩, hdocument, hrecord⟩
  declares := h.declares
  isDirectory := by
    obtain ⟨place, hplace, hdir⟩ := Disk.isDirectory_eq_ok_true.mp h.isDirectory
    exact Disk.isDirectory_eq_ok_true.mpr
      ⟨place, Disk.locate_mono hdirectory hplace, hdirectory place hdir⟩
  files file hfile := by
    obtain ⟨place, entry, hplace, hentry⟩ := Disk.pathExists_eq_ok_true.mp (h.files file hfile)
    obtain ⟨now, hnow⟩ := hthere place entry hentry
    exact Disk.pathExists_eq_ok_true.mpr ⟨place, now, Disk.locate_mono hdirectory hplace, hnow⟩

end ComponentKit.Project
