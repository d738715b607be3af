import ComponentKit.Proofs.Project.Layout
import ComponentKit.Proofs.Session.Spec
import ComponentKit.Proofs.Text.Utf8

/-!
# What a detected project has

What makes a directory a project can be read off the disk (`IsProject`): the manifest with its dependency, the
source root, and the files that every project has. A `detect` that finds a project has found all of this, and it
keeps the store.
-/

namespace ComponentKit.Project

open Step

variable {disk : Disk} {home : Location} {nesting : Nat} {start store : Store} {settings : Settings} {path root : Path}
  {project : Project} {manifest : Json}

/-! ## What makes a project -/

/-- Whether a text is read at the path of the manifest, with its line breaks unified. -/
def HasManifestText (disk : Disk) (home : Location) (settings : Settings) (path : Path) (text : Text) : Prop :=
  ∃ bytes raw, disk.isFile home (settings.manifestPath path) = .ok true ∧
    disk.readFile home (settings.manifestPath path) = .ok bytes ∧ Utf8.decode bytes = .ok raw ∧
    text = Text.unifyLineBreaks raw

/-- Whether a manifest is read at its path, by a reader that follows `nesting` lists and objects within each
other. -/
def HasManifest (disk : Disk) (home : Location) (nesting : Nat) (settings : Settings) (path : Path)
    (manifest : Json) : Prop :=
  ∃ text document, HasManifestText disk home settings path text ∧ documentOf nesting text = .ok document ∧
    manifest = Json.asRecord document

/-- Whether the manifest exhausts its reader: `documentOf` finds it nested too deeply, and `failure` is what this
comes to. -/
def IsExhausting (disk : Disk) (home : Location) (nesting : Nat) (settings : Settings) (path : Path)
    (failure : Failure) : Prop :=
  ∃ text offset, HasManifestText disk home settings path text ∧
    documentOf nesting text = .error ⟨.tooDeep, offset⟩ ∧ failure = .malformedJson text ⟨.tooDeep, offset⟩

/-- Whether no half of a surrogate pair is in the manifest. A `Text` holds none, so that `manifestDialect` replaces it;
a name that has one can be read all the same, and not be printed. -/
def IsWhole (disk : Disk) (home : Location) (nesting : Nat) (settings : Settings) (path : Path) : Prop :=
  ∀ text offset, HasManifestText disk home settings path text →
    Json.readLimited ⟨none, some nesting⟩ maxDigits text ≠ .error ⟨.loneSurrogate, offset⟩

/-- Whether a directory is a project with a manifest, as the disk shows it. -/
structure IsProject (disk : Disk) (home : Location) (nesting : Nat) (settings : Settings) (path : Path)
    (manifest : Json) : Prop where
  /-- The manifest is there. -/
  hasManifest : HasManifest disk home nesting settings path manifest
  /-- It declares the framework. -/
  declares : declares manifest settings.frameworkDependency = true
  /-- The source root is a directory. -/
  isDirectory : disk.isDirectory home (settings.sourceRoot path) = .ok true
  /-- The files that every project has are there. -/
  files : ∀ file ∈ requiredFiles, disk.pathExists home ((settings.sourceRoot path).join file) = .ok true

/-- A manifest is whole if a reader that knows no half pairs takes it. -/
theorem isWhole_of_readFile (text : Text)
    (hfile : disk.readFile home (settings.manifestPath path) = .ok (Utf8.encode text))
    (hread : (Json.readLimited ⟨none, some nesting⟩ maxDigits (Text.unifyLineBreaks text)).isOk = true) :
    IsWhole disk home nesting settings path := by
  rintro _ offset ⟨bytes, raw, -, hbytes, hdecode, rfl⟩ hfault
  obtain rfl := Except.ok.inj (hfile.symm.trans hbytes)
  obtain rfl := Except.ok.inj ((Utf8.decode_encode text).symm.trans hdecode)
  cases (congrArg Except.isOk hfault).symm.trans hread

/-- What is known of a directory that `detect` has found to be a project. -/
structure Detected (store : Store) (settings : Settings) (path : Path) (project : Project) : Prop where
  /-- The project is the directory. -/
  path_eq : project.path = path
  /-- Its source root is the one of the settings. -/
  sourceRoot_eq : project.sourceRoot = settings.sourceRoot path
  /-- The source root is a directory. -/
  isDirectory : store.disk.isDirectory store.home (settings.sourceRoot path) = .ok true
  /-- Something stands where the registries belong. -/
  registries : ∀ kind : IndexedKind,
    store.disk.pathExists store.home (registryPath (settings.sourceRoot path) kind) = .ok true

theorem IsProject.detected (h : IsProject store.disk store.home store.nesting settings path manifest)
    (hpath : project.path = path) (hroot : project.sourceRoot = settings.sourceRoot path) :
    Detected store settings path project := by
  refine ⟨hpath, hroot, h.isDirectory, fun kind => ?_⟩
  obtain ⟨file, hmem, hfile⟩ := join_registry_mem (settings.sourceRoot path) kind
  rw [← hfile]
  exact h.files file hmem

/-- The path to the directory of a kind is not overlong, as a file that every project has is there. -/
theorem IsProject.fits (h : IsProject disk home nesting settings path manifest) (kind : Kind) :
    Disk.isOverlong (directory (settings.sourceRoot path) kind) = false := by
  obtain ⟨place, entry, hlocated, -⟩ :=
    Disk.pathExists_eq_ok_true.mp (h.files "core/mcp-server.ts".toList (by decide))
  exact isOverlong_directory kind (Disk.locate_eq_ok.mp hlocated).1.fits

/-- Whether a project has a name: one without a `declaredName?` in its manifest goes by the name of its directory,
which is looked for along the path. -/
def IsNamed (path : Path) (manifest : Json) : Prop :=
  declaredName? manifest = none → path.hasNul = false

/-! ## Looking for a project -/

/-- Whether `settle` takes a failure for the lack of a project. -/
def IsExpected (failure : Failure) : Prop :=
  (failure.isFileFault || failure.isContentFault) = true

theorem isExpected_access (fault : Disk.Fault) : IsExpected (.access fault) := by
  cases fault <;> rfl

/-- An inspection fails as expected. -/
theorem spec_inspect_expected {α : Type} (look : Disk → Location → Except Disk.Fault α) :
    Spec (· = start) (inspect look)
      (fun value store => store = start ∧ look store.disk store.home = .ok value)
      fun failure store => store = start ∧ IsExpected failure :=
  (spec_inspect _ look).weaken_error
    fun _ _ ⟨hs, fault, _, hfailure⟩ => ⟨hs, hfailure ▸ isExpected_access fault⟩

theorem spec_readText_content (path : Path) :
    Spec (· = start) (readText path)
      (fun text store => store = start ∧ ∃ bytes raw, start.disk.readFile start.home path = .ok bytes ∧
        Utf8.decode bytes = .ok raw ∧ text = Text.unifyLineBreaks raw)
      fun failure store => store = start ∧ IsExpected failure := by
  rw [readText]
  refine Spec.bind (spec_inspect_expected _) fun bytes => ?_
  refine Spec.bind (Spec.ofResult (Q := fun raw store => store = start ∧
    start.disk.readFile start.home path = .ok bytes ∧ Utf8.decode bytes = .ok raw) _
    (fun raw store hs h => ?_) fun failure store hs h => ⟨hs.1, ?_⟩) fun raw => Spec.pure _ fun store hs => ?_
  -- the text is what the bytes decode to, or they do not decode, which is expected
  · obtain ⟨rfl, hread⟩ := hs
    exact ⟨rfl, hread, mapError_eq_ok.mp h⟩
  · obtain ⟨fault, -, rfl⟩ := mapError_eq_error.mp h
    rfl
  · exact ⟨hs.1, bytes, raw, hs.2.1, hs.2.2, rfl⟩

/-- A manifest that is read is there; one that exhausts its reader is not expected. -/
theorem spec_readManifest :
    Spec (· = start) (readManifest settings path)
      (fun found store => store = start ∧ ∀ manifest, found = some manifest →
        HasManifest start.disk start.home start.nesting settings path manifest)
      fun failure store => store = start ∧
        (IsExpected failure ∨ IsExhausting start.disk start.home start.nesting settings path failure) := by
  rw [readManifest]
  refine Spec.bind ((spec_inspect_expected _).weaken_error fun _ _ h => ⟨h.1, .inl h.2⟩) fun isFile => ?_
  -- a manifest that is no file is no manifest
  split
  · rename_i hfile
    subst hfile
    refine Spec.of_forall fun store hs => ?_
    obtain ⟨rfl, hfile⟩ := hs
    refine Spec.bind (Q := fun document after => after = store ∧
      HasManifest store.disk store.home store.nesting settings path document) ?_ fun document =>
        Spec.pure _ fun _ hs => ⟨hs.1, fun manifest h => Option.some.inj h ▸ hs.2⟩
    rw [readDocument]
    refine Spec.bind ((spec_readText_content _).weaken_error fun _ _ h => ⟨h.1, .inl h.2⟩) fun text =>
      Spec.bind (Spec.get (G := fun session after => (after = store ∧
        HasManifestText store.disk store.home settings path text) ∧ session.nesting = store.nesting)
          fun session hs => ?_) fun session => Spec.bind (Spec.ofResult (Q := fun document after =>
            after = store ∧ HasManifest store.disk store.home store.nesting settings path
              (Json.asRecord document)) _ (fun document after hs h => ?_) fun failure after hs h => ⟨hs.1.1, ?_⟩)
                fun document => Spec.pure _ fun _ hs => hs
    · obtain ⟨hstore, bytes, raw, hread, hdecode, rfl⟩ := hs
      exact ⟨⟨hstore, bytes, raw, hfile, hread, hdecode, rfl⟩, congrArg Store.nesting hstore⟩
    · obtain ⟨⟨rfl, htext⟩, hnesting⟩ := hs
      rw [hnesting] at h
      exact ⟨rfl, text, document, htext, mapError_eq_ok.mp h, rfl⟩
    · obtain ⟨⟨rfl, htext⟩, hnesting⟩ := hs
      obtain ⟨⟨defect, offset⟩, hfault, rfl⟩ := mapError_eq_error.mp h
      rw [hnesting] at hfault
      by_cases hdeep : defect = .tooDeep
      · subst hdeep
        exact .inr ⟨text, offset, htext, hfault, rfl⟩
      · exact .inl (by simpa [IsExpected, Failure.isFileFault, Failure.isContentFault] using hdeep)
  · exact Spec.bind Spec.report fun _ => Spec.pure _ fun _ hs =>
      ⟨hs.1, fun manifest h => by cases h⟩

/-- A name that is found is that of a project that has one. -/
theorem spec_nameOf :
    Spec (· = start) (nameOf path manifest)
      (fun _ store => store = start ∧ IsNamed path manifest)
      fun failure store => store = start ∧ IsExpected failure := by
  rw [nameOf]
  -- without a name in the manifest the directory gives it, which a null character prevents
  split
  · rename_i name hname
    refine Spec.pure _ fun _ hs => ⟨hs, fun hnone => ?_⟩
    rw [hname] at hnone
    cases hnone
  · rw [directoryName]
    exact Spec.bind ((spec_locationOf path).weaken_error fun _ _ h => ⟨h.1, h.2.2 ▸ isExpected_access _⟩)
      fun place => Spec.pure _ fun _ hs => ⟨hs.1, fun _ => hs.2.1⟩

theorem spec_hasFiles (files : List Text) :
    Spec (· = start) (hasFiles root files)
      (fun found store => store = start ∧ (found = true → ∀ file ∈ files,
        start.disk.pathExists start.home (root.join file) = .ok true))
      fun failure store => store = start ∧ IsExpected failure := by
  -- on the files, the first missing one of which ends the look
  induction files with
  | nil => exact Spec.pure _ fun store hs => ⟨hs, by simp⟩
  | cons file files ih =>
    rw [hasFiles]
    refine Spec.bind (spec_inspect_expected _) fun found => ?_
    split
    · rename_i hfound
      refine Spec.of_forall fun store hs => ?_
      obtain ⟨rfl, hlook⟩ := hs
      refine ih.weaken_ok fun more _ h => ⟨h.1, fun hmore => ?_⟩
      refine List.forall_mem_cons.mpr ⟨?_, h.2 hmore⟩
      rw [hlook, hfound]
    · exact Spec.bind ((Spec.report (P := (· = start))).weaken_pre fun _ h => h.1)
        fun _ => Spec.pure _ fun _ hs => ⟨hs, fun h => by cases h⟩

/-- With a manifest, what has its sources is a project. -/
theorem spec_hasSources (manifest : Json) :
    Spec (· = start) (hasSources settings (settings.sourceRoot path) manifest)
      (fun found store => store = start ∧
        (found = true → HasManifest start.disk start.home start.nesting settings path manifest →
          IsProject start.disk start.home start.nesting settings path manifest))
      fun failure store => store = start ∧ IsExpected failure := by
  have hreport : ∀ text, Spec (· = start) (report .debug text) (fun _ store => store = start)
      fun failure store => store = start ∧ IsExpected failure := fun text => Spec.report
  rw [hasSources]
  -- what the manifest declares, the source root, and the files in it are looked at in this order
  split
  · exact Spec.bind (hreport _) fun _ => Spec.pure _ fun _ hs => ⟨hs, fun h => by cases h⟩
  · rename_i hdeclares
    refine Spec.bind (spec_inspect_expected _) fun found => ?_
    split
    · exact Spec.bind ((hreport _).weaken_pre fun _ h => h.1)
        fun _ => Spec.pure _ fun _ hs => ⟨hs, fun h => by cases h⟩
    · rename_i hfound
      refine Spec.of_forall fun store hs => ?_
      obtain ⟨rfl, hlook⟩ := hs
      refine (spec_hasFiles requiredFiles).weaken_ok
        fun all _ h => ⟨h.1, fun hall hmanifest => ⟨hmanifest, ?_, ?_, h.2 hall⟩⟩
      · simpa using hdeclares
      · rw [hlook]
        simpa using hfound

/-- What is settled on is what was found, or the fallback for a failure that is expected; another failure stays. -/
theorem spec_settle {α : Type} {step : Step Failure α} {Q : α → Prop} {D : Failure → Prop} (fallback : α)
    (hfallback : Q fallback)
    (hstep : Spec (· = start) step (fun value store => store = start ∧ Q value)
      fun failure store => store = start ∧ (IsExpected failure ∨ D failure)) :
    Spec (· = start) (do settle fallback (← outcome step))
      (fun value store => store = start ∧ Q value) fun failure store => store = start ∧ D failure := by
  refine Spec.bind (Spec.outcome hstep) fun result => ?_
  cases result with
  | ok value => exact Spec.pure _ fun _ hs => hs
  | error failure =>
    by_cases hfault : (failure.isFileFault || failure.isContentFault) = true
    · refine Spec.of_forall fun store hs => ?_
      obtain ⟨rfl, -⟩ := hs
      rw [settle, if_pos hfault]
      exact Spec.bind Spec.report fun _ => Spec.pure _ fun _ hs => ⟨hs, hfallback⟩
    · rw [settle, if_neg hfault]
      exact Spec.throw _ fun store hs => ⟨hs.1, hs.2.resolve_left hfault⟩

/-- A look for a project keeps the store; what it takes for a project is one, with a name. It fails only for a
manifest that exhausts its reader. -/
theorem spec_detect :
    Spec (· = start) (detect settings path)
      (fun project store => store = start ∧ (project.isValid = true →
        Detected start settings path project ∧ ∃ manifest,
          IsProject start.disk start.home start.nesting settings path manifest ∧ IsNamed path manifest))
      fun failure store => store = start ∧
        IsExhausting start.disk start.home start.nesting settings path failure := by
  rw [detect]
  simp only [← bind_assoc]
  refine Spec.bind (spec_settle (Q := fun found => ∀ manifest, found = some manifest →
    HasManifest start.disk start.home start.nesting settings path manifest) none (fun _ h => by cases h)
      spec_readManifest) fun found => ?_
  -- without a manifest there is no project, and what is asked further is asked of this one
  cases found with
  | none => exact Spec.pure _ fun _ hs => ⟨hs.1, fun h => by cases h⟩
  | some manifest =>
    refine Spec.of_forall fun store hs => ?_
    obtain ⟨rfl, hmanifest⟩ := hs
    refine Spec.bind ((spec_settle (Q := fun found => found.isSome = true → IsNamed path manifest)
      (D := fun _ => False) none (fun h => by cases h) (Spec.map (spec_nameOf.weaken_ends
        (fun _ _ h => ⟨h.1, fun _ => h.2⟩) fun _ _ h => ⟨h.1, .inl h.2⟩))).weaken_error
          fun _ _ h => h.2.elim) fun found => ?_
    cases found with
    | none => exact Spec.pure _ fun _ hs => ⟨hs.1, fun h => by cases h⟩
    | some name =>
      refine Spec.of_forall fun after hs => ?_
      obtain ⟨rfl, hnamed⟩ := hs
      refine Spec.bind ((spec_settle (Q := fun found => found = true →
        HasManifest after.disk after.home after.nesting settings path manifest →
          IsProject after.disk after.home after.nesting settings path manifest) (D := fun _ => False) false
            (fun h => by cases h) ((spec_hasSources manifest).weaken_error fun _ _ h => ⟨h.1, .inl h.2⟩)).weaken_error
              fun _ _ h => h.2.elim) fun valid => Spec.pure _ fun _ hs => ⟨hs.1, fun h => ?_⟩
      have hproject := hs.2 h (hmanifest manifest rfl)
      exact ⟨hproject.detected rfl rfl, manifest, hproject, hnamed rfl⟩

end ComponentKit.Project
