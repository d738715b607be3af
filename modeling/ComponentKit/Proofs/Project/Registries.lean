import ComponentKit.Project.Registries
import ComponentKit.Proofs.Project.Layout
import ComponentKit.Proofs.Session.Ending
import ComponentKit.Proofs.Session.Run

/-!
# Calls for registries and indexes

What `apply` and `updateIndex` do as a whole when they find their registry or their index: the file is read,
messages follow, and the file is written over if another text is needed (`WritesOver`). Such a call fails only if
the device refuses that write, and then every file is as it was. A call says that its file is not there exactly if
it is not.
-/

namespace ComponentKit

open Step Registry

variable {session middle after : Session} {settings : Settings} {project : Project}
  {update : Registry.Update} {root path : Path} {kind : IndexedKind} {text new fragment : Text} {α : Type}
  {step : Step Failure α} {needed : Prop} {kept written : α}

/-! ## Calls that may write -/

/-- Whether a call writes a text over a file exactly if that is needed, as `apply` and `updateIndex` do. It returns
one value where it is not and another where it is, and it fails where the device refuses the write. -/
structure Step.WritesOver (step : Step Failure α) (session : Session) (path : Path) (new : Text)
    (needed : Prop) (kept written : α) : Prop where
  /-- Where no write is needed, only messages follow. -/
  kept : ¬ needed → ∃ after, step.run session = (.ok kept, after) ∧ session.Told after
  /-- A write that is needed and accepted is done. -/
  written : needed → session.AcceptsWrite → ∃ after,
    step.run session = (.ok written, after) ∧ session.Wrote path new after
  /-- A write that is needed and refused leaves every file as it was. -/
  refused : needed → ¬ session.AcceptsWrite → ∃ failure after,
    step.run session = (.error failure, after) ∧ after.disk = session.disk

/-- A call that returned has kept the file or written it, and returned the value for that. -/
theorem Step.WritesOver.cases_of_ok {value : α} (h : step.WritesOver session path new needed kept written)
    (hrun : step.run session = (.ok value, after)) :
    (¬ needed ∧ value = kept ∧ session.Told after) ∨
      needed ∧ session.AcceptsWrite ∧ value = written ∧ session.Wrote path new after := by
  by_cases hneeded : needed
  · by_cases haccepts : session.AcceptsWrite
    · obtain ⟨last, hlast, hwrote⟩ := h.written hneeded haccepts
      obtain ⟨hvalue, rfl⟩ := Prod.mk.inj (hrun.symm.trans hlast)
      exact .inr ⟨hneeded, haccepts, Except.ok.inj hvalue, hwrote⟩
    · obtain ⟨failure, last, hlast, -⟩ := h.refused hneeded haccepts
      cases (Prod.mk.inj (hrun.symm.trans hlast)).1
  · obtain ⟨last, hlast, htold⟩ := h.kept hneeded
    obtain ⟨hvalue, rfl⟩ := Prod.mk.inj (hrun.symm.trans hlast)
    exact .inl ⟨hneeded, Except.ok.inj hvalue, htold⟩

/-- However such a call ends, the files are as they were or the text was written. -/
theorem Step.WritesOver.disk_cases (h : step.WritesOver session path new needed kept written) :
    (step.run session).2.disk = session.disk ∨ session.Wrote path new (step.run session).2 := by
  by_cases hneeded : needed
  · by_cases haccepts : session.AcceptsWrite
    · obtain ⟨after, hrun, hwrote⟩ := h.written hneeded haccepts
      exact .inr (hrun ▸ hwrote)
    · obtain ⟨failure, after, hrun, hdisk⟩ := h.refused hneeded haccepts
      exact .inl (hrun ▸ hdisk)
  · obtain ⟨after, hrun, htold⟩ := h.kept hneeded
    exact .inl (hrun ▸ htold.disk)

namespace Project

/-! ## Reading and writing with an explanation -/

theorem run_readExplained_eq_ok {wrap : Failure → Failure} :
    (readExplained wrap path).run session = (.ok text, after) ↔
      session.Reads path text ∧ session = after := by
  rw [readExplained, run_mapFailure_eq_ok, run_readText_eq_ok]

theorem run_readExplained_of_reads (h : session.Reads path text) (wrap : Failure → Failure) :
    (readExplained wrap path).run session = (.ok text, session) :=
  run_readExplained_eq_ok.mpr ⟨h, rfl⟩

/-- A registry or an index is written over, a message follows, and a value is returned. -/
theorem run_rewrite (wrap : Failure → Failure) (hreads : session.Reads (registryPath root kind) text)
    (haccepts : session.AcceptsWrite) (new : Text) (level : Level) (message : Text) (value : α) :
    ∃ after,
      (do writeExplained wrap (registryPath root kind) new
          report level message
          return value : Step Failure α).run session = (.ok value, after) ∧
        session.Wrote (registryPath root kind) new after := by
  rw [registryPath_eq] at hreads ⊢
  obtain ⟨middle, hwrite, disk, hdisk, htold⟩ := run_writeText_there hreads haccepts new
  obtain ⟨after, hrun, htold'⟩ := (onlyReports_report level message).run_return value middle
  exact ⟨after, (run_bind_of_ok (run_mapFailure_eq_ok.mpr hwrite)).trans hrun, disk, hdisk,
    htold.trans htold'⟩

/-- A write that the device refuses ends the call. -/
theorem run_rewrite_refused (wrap : Failure → Failure) (hrefused : ¬ session.AcceptsWrite) (path : Path)
    (new : Text) (next : Unit → Step Failure α) : ∃ failure after,
      (writeExplained wrap path new >>= next).run session = (.error failure, after) ∧
        after.disk = session.disk := by
  rw [run_bind, writeExplained, run_mapFailure, run_writeText_refused hrefused]
  exact ⟨_, _, rfl, rfl⟩

/-! ## Registries -/

theorem onlyReports_reportPatch (path : Path) (update : Registry.Update) (patch : Registry.Patch) :
    OnlyReports (reportPatch path update patch) := by
  have hwarnings : OnlyReports (patch.warnings.forM fun warning =>
      report .warning (Text.concat [update.kind.name, " registry: ", warning.message])) :=
    onlyReports_forM fun warning => onlyReports_report _ _
  rw [reportPatch]
  split <;> refine (onlyReports_report _ _).bind ?_
  all_goals
    split
    · exact (onlyReports_report _ _).bind hwarnings
    · exact hwarnings

/-- The `PatchReport` on what an update did to a text. -/
def reportOn (settings : Settings) (project : Project) (update : Registry.Update) (text : Text) :
    PatchReport :=
  let patch := Registry.patch settings.registryStyle text update
  ⟨update.kind, registryPath project.sourceRoot update.kind, patch.importAdded, patch.registrationAdded,
    patch.warnings⟩

/-- A registry that is read is reported on; it is written over exactly if its text changes. -/
theorem writesOver_apply (hkind : update.kind = kind)
    (hreads : session.Reads (registryPath project.sourceRoot kind) text) :
    (project.apply settings update).WritesOver session (registryPath project.sourceRoot kind)
      (patch settings.registryStyle text update).text
      ((patch settings.registryStyle text update).text ≠ text)
      (reportOn settings project update text) (reportOn settings project update text) := by
  subst hkind
  obtain ⟨middle, hreport, htold⟩ := onlyReports_reportPatch
    (registryPath project.sourceRoot update.kind) update (patch settings.registryStyle text update) session
  -- the messages in between change neither the files nor what the device accepts
  have hreads' := htold.reads hreads
  rw [Project.apply]
  dsimp only
  -- all three cases begin with the look, the reading and the report of the patch
  constructor <;> rw [run_bind_of_ok (run_isFile_of_reads hreads), if_neg (by decide),
    run_bind_of_ok (run_readExplained_of_reads hreads _), run_bind_of_ok hreport]
  · intro hsame
    rw [if_neg hsame]
    obtain ⟨after, hrun, htold'⟩ := (onlyReports_report _ _).run_return _ middle
    exact ⟨after, hrun, htold.trans htold'⟩
  · intro hchanged haccepts
    rw [if_pos hchanged]
    obtain ⟨after, hrun, hwrote⟩ := run_rewrite _ hreads' (htold.acceptsWrite_iff.mpr haccepts) _ _ _ _
    exact ⟨after, hrun, htold.wrote hwrote⟩
  · intro hchanged hrefused
    rw [if_pos hchanged]
    obtain ⟨failure, after, hrun, hdisk⟩ :=
      run_rewrite_refused _ (mt htold.acceptsWrite_iff.mp hrefused) _ _ _
    exact ⟨failure, after, hrun, hdisk.trans htold.disk⟩

/-- An update is applied exactly if the registry is read and the write that it may need is accepted. -/
theorem exists_run_apply_iff : (∃ outcome after,
    (project.apply settings update).run session = (.ok outcome, after)) ↔
      ∃ text, session.Reads (registryPath project.sourceRoot update.kind) text ∧
        ((patch settings.registryStyle text update).text ≠ text → session.AcceptsWrite) := by
  constructor
  · rintro ⟨outcome, after, hrun⟩
    obtain ⟨text, hreads⟩ : ∃ text, session.Reads (registryPath project.sourceRoot update.kind) text := by
      -- a run that returned has read the registry
      have happly := hrun
      rw [Project.apply] at happly
      dsimp only at happly
      obtain ⟨found, middle, hfile, happly⟩ := run_bind_eq_ok.mp happly
      obtain ⟨-, rfl⟩ := run_inspect_eq_ok.mp hfile
      split at happly
      · obtain ⟨_, _, hthrow, -⟩ := run_bind_eq_ok.mp happly
        cases hthrow
      obtain ⟨text, last, hread, -⟩ := run_bind_eq_ok.mp happly
      exact ⟨text, (run_readExplained_eq_ok.mp hread).1⟩
    refine ⟨text, hreads, fun hchanged => ?_⟩
    rcases (writesOver_apply rfl hreads).cases_of_ok hrun with ⟨hsame, -⟩ | ⟨-, haccepts, -⟩
    · exact absurd hchanged hsame
    · exact haccepts
  · rintro ⟨text, hreads, haccepts⟩
    -- an unchanged text needs no write
    by_cases hsame : (patch settings.registryStyle text update).text = text
    · obtain ⟨after, hrun, -⟩ := (writesOver_apply rfl hreads).kept (not_not.mpr hsame)
      exact ⟨_, after, hrun⟩
    · obtain ⟨after, hrun, -⟩ := (writesOver_apply rfl hreads).written hsame (haccepts hsame)
      exact ⟨_, after, hrun⟩

/-! ## Indexes -/

/-- An index that is read gets the export at its end exactly if that is not there yet. -/
theorem writesOver_updateIndex (hreads : session.Reads (registryPath project.sourceRoot kind) text)
    (hfragment : fragment ≠ []) :
    (project.updateIndex kind.toKind fragment).WritesOver session (registryPath project.sourceRoot kind)
      (appendExport text fragment) (¬ hasExport text fragment = true) false true := by
  have hkind : kind.toKind.conventions.hasIndex = true := by cases kind <;> rfl
  have hskip : ¬ (!kind.toKind.conventions.hasIndex || fragment.isEmpty) = true := by
    simp [hkind, hfragment]
  rw [Project.updateIndex, if_neg hskip]
  dsimp only
  rw [show indexPath project.sourceRoot kind.toKind = registryPath project.sourceRoot kind from rfl]
  -- all three cases begin with the look and the reading
  constructor <;> rw [run_bind_of_ok (run_isFile_of_reads hreads), if_neg (by decide),
    run_bind_of_ok (run_readExplained_of_reads hreads _)]
  · intro hexport
    rw [if_pos (not_not.mp hexport)]
    exact (onlyReports_report _ _).run_return _ session
  · intro hnew haccepts
    rw [if_neg hnew]
    exact run_rewrite _ hreads haccepts _ _ _ _
  · intro hnew hrefused
    rw [if_neg hnew]
    exact run_rewrite_refused _ hrefused _ _ _

/-! ## Files that are not there -/

/-- Whether a failure says that a registry or an index is not there (`registryMissing`, `indexMissing`). -/
def saysMissing : Failure → Bool
  | .registryMissing _ _ => true
  | .indexMissing _ => true
  | _ => false

/-- A step that never says that a file is not there. -/
def FindsFiles (step : Step Failure α) : Prop :=
  Spec (fun _ => True) step (fun _ _ => True) fun failure _ => saysMissing failure = false

theorem FindsFiles.bind {β : Type} {next : α → Step Failure β} (hstep : FindsFiles step)
    (hnext : ∀ value, FindsFiles (next value)) : FindsFiles (step >>= next) :=
  Spec.bind hstep hnext

theorem findsFiles_of_onlyReports {step : Step Failure Unit} (h : OnlyReports step) : FindsFiles step := by
  intro session _
  obtain ⟨after, hrun, -⟩ := h session
  rw [hrun]
  trivial

theorem findsFiles_inspect (look : Disk → Location → Except Disk.Fault α) : FindsFiles (inspect look) :=
  (spec_inspect _ look).weaken_ends (fun _ _ _ => trivial) fun _ _ ⟨_, _, _, h⟩ => h ▸ rfl

/-- A failure that is explained by another one says what that one says. -/
theorem findsFiles_readExplained {wrap : Failure → Failure}
    (hwrap : ∀ cause, saysMissing (wrap cause) = false) (path : Path) :
    FindsFiles (readExplained wrap path) := by
  refine Spec.mapFailure ?_
  rw [readText]
  refine Spec.bind ((spec_inspect _ _).weaken_ends (fun _ _ h => h.1) ?_) fun bytes => ?_
  · rintro _ _ ⟨-, fault, -, rfl⟩
    dsimp only
    split
    · exact hwrap _
    · rfl
  · refine Spec.bind (Spec.ofResult _ (fun _ _ hs _ => hs) fun failure _ _ h => ?_) fun text =>
      Spec.pure _ fun _ hs => trivial
    obtain ⟨fault, -, rfl⟩ := mapError_eq_error.mp h
    exact hwrap _

theorem findsFiles_writeExplained {wrap : Failure → Failure}
    (hwrap : ∀ cause, saysMissing (wrap cause) = false) (path : Path) (text : Text) :
    FindsFiles (writeExplained wrap path text) := by
  refine Spec.mapFailure ?_
  have haccess : ∀ fault, saysMissing
      (if (Failure.access fault).isFileFault then wrap (.access fault) else .access fault) = false := by
    intro fault
    -- the device refuses, the directories cannot be made, or the file cannot be written; none says that
    -- it is missing
    split
    · exact hwrap _
    · rfl
  rw [writeText]
  refine Spec.bind (Spec.modify (U := fun _ _ => True) _ fun _ hs => hs) fun _ => ?_
  refine Spec.bind (Spec.get (G := fun _ _ => True) fun _ hs => hs) fun session => ?_
  split
  · exact Spec.throw_bind _ fun _ _ => hwrap _
  · refine Spec.bind (Q := fun _ _ => True) (Spec.of_forall fun store _ => ?_) fun _ =>
      spec_change _ (fun _ _ _ _ => trivial) fun _ fault _ _ => haccess fault
    refine (spec_makeDirectories path.parent).weaken_ends (fun _ _ _ => trivial) ?_
    rintro _ _ ⟨-, fault, -, rfl⟩
    exact haccess fault

/-- A call that first looks for its file says that one is not there exactly if that one is not. -/
theorem run_unless_missing {missing failure : Failure} (hstep : FindsFiles step)
    (hfailure : saysMissing failure = true) :
    ((do
        if !(← isFile path) then throw missing
        step : Step Failure α).run session).1 = .error failure ↔
      session.disk.isFile session.home path = .ok false ∧ failure = missing := by
  rw [run_bind_eq_error]
  constructor
  · rintro (hlook | ⟨found, after, hlook, hrun⟩)
    · rw [Spec.run_error (findsFiles_inspect _) trivial hlook] at hfailure
      cases hfailure
    · obtain ⟨hfound, rfl⟩ := run_inspect_eq_ok.mp hlook
      -- where the file is there the call goes on, and says no such thing
      cases found with
      | true =>
        rw [if_neg (by decide)] at hrun
        rw [Spec.run_error hstep trivial hrun] at hfailure
        cases hfailure
      | false => exact ⟨hfound, (Except.error.inj hrun).symm⟩
  · rintro ⟨hfound, rfl⟩
    exact .inr ⟨false, session, run_inspect_eq_ok.mpr ⟨hfound, rfl⟩, rfl⟩

/-- An update finds no registry exactly if there is no file where the registry of its kind belongs. -/
theorem run_apply_eq_missing {indexed : IndexedKind} :
    ((project.apply settings update).run session).1 = .error (.registryMissing indexed path) ↔
      session.disk.isFile session.home (registryPath project.sourceRoot update.kind) = .ok false ∧
        indexed = update.kind ∧ path = registryPath project.sourceRoot update.kind := by
  rw [Project.apply, ← Failure.registryMissing.injEq]
  refine run_unless_missing (FindsFiles.bind (findsFiles_readExplained (fun _ => rfl) _) fun current => ?_) rfl
  dsimp only
  refine (findsFiles_of_onlyReports (onlyReports_reportPatch _ _ _)).bind fun _ => ?_
  have hreport : ∀ level text (value : PatchReport),
      FindsFiles (do report level text; return value : Step Failure PatchReport) :=
    fun level text value => (findsFiles_of_onlyReports (onlyReports_report level text)).bind
      fun _ => Spec.pure _ fun _ _ => trivial
  split
  · exact (findsFiles_writeExplained (fun _ => rfl) _ _).bind fun _ => hreport _ _ _
  · exact hreport _ _ _

/-- An export finds no index exactly if one is needed and there is no file where it belongs. -/
theorem run_updateIndex_eq_missing {given : Kind} :
    ((project.updateIndex given fragment).run session).1 = .error (.indexMissing path) ↔
      (given.conventions.hasIndex = true ∧ fragment ≠ []) ∧
        session.disk.isFile session.home (indexPath project.sourceRoot given) = .ok false ∧
          path = indexPath project.sourceRoot given := by
  have hreport : ∀ level text value,
      FindsFiles (do report level text; return value : Step Failure Bool) :=
    fun level text value => (findsFiles_of_onlyReports (onlyReports_report level text)).bind
      fun _ => Spec.pure _ fun _ _ => trivial
  rw [Project.updateIndex]
  -- an export that is empty, or of a kind without an index, is skipped
  split
  · rename_i hskip
    refine ⟨fun h => ?_, fun ⟨hneeded, _⟩ => ?_⟩
    · have hfound := Spec.run_error (hreport _ _ _) trivial h
      cases hfound
    · simp [hneeded.1, hneeded.2] at hskip
  · rename_i hneeded
    have hneeded' : given.conventions.hasIndex = true ∧ fragment ≠ [] := by simpa using hneeded
    rw [and_iff_right hneeded', ← Failure.indexMissing.injEq]
    refine run_unless_missing (FindsFiles.bind (findsFiles_readExplained (fun _ => rfl) _) fun current => ?_)
      rfl
    split
    · exact hreport _ _ _
    · exact (findsFiles_writeExplained (fun _ => rfl) _ _).bind fun _ => hreport _ _ _

end Project

end ComponentKit
