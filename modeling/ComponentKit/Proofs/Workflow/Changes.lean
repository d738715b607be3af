import ComponentKit.Proofs.Registry.Growth
import ComponentKit.Proofs.Workflow.Rewriting

/-!
# Reported and real changes

The `PatchReport` on a registry and what happened to its file agree. An `apply` that ends with a report has read
the file, has written it exactly if the patch left another text, and reports a change exactly then: each step of a
patch that adds something adds a line feed, so that neither two steps nor a step and the unified line breaks can
make up for each other.
-/

namespace ComponentKit.Workflow

open Step Registry Project Component

/-! ## Reported changes -/

/-- What is reported of a text is a change exactly if the patch leaves another text. -/
theorem changed_reportOn_iff (settings : Settings) (project : Project) (update : Registry.Update)
    (text : Text) : (reportOn settings project update text).changed = true ↔
      (patch settings.registryStyle text update).text ≠ text :=
  changed_iff_text_ne settings.registryStyle text update

/-- `patch` reports a change exactly if it leaves another text, and an update that `apply` has applied is reported as
a change exactly if the file was written: once, and with other bytes than before. Otherwise nothing on the disk
changed. It is applied exactly if the file is read and the write that it may need is accepted. -/
theorem apply_changed_iff :
    (∀ (style : RegistryStyle) (text : Text) (update : Registry.Update),
      (patch style text update).changed = true ↔ (patch style text update).text ≠ text) ∧
    ∀ (settings : Settings) (project : Project) (update : Registry.Update) (session : Session),
      ((∃ outcome after, (project.apply settings update).run session = (.ok outcome, after)) ↔
        ∃ text, session.Reads (registryPath project.sourceRoot update.kind) text ∧
          ((patch settings.registryStyle text update).text ≠ text → session.AcceptsWrite)) ∧
      ∀ outcome after, (project.apply settings update).run session = (.ok outcome, after) →
        (outcome.changed = true ↔ after.writes = session.writes + 1) ∧
        (outcome.changed = true ↔
          after.disk.readFile after.home (registryPath project.sourceRoot update.kind)
            ≠ session.disk.readFile session.home (registryPath project.sourceRoot update.kind)) ∧
        (outcome.changed = false → after.writes = session.writes ∧ after.disk = session.disk) := by
  refine ⟨changed_iff_text_ne, fun settings project update session => ⟨exists_run_apply_iff,
    fun outcome after hrun => ?_⟩⟩
  obtain ⟨text, hreads, -⟩ := exists_run_apply_iff.mp ⟨outcome, after, hrun⟩
  have hchanged := changed_reportOn_iff settings project update text
  -- the run has kept the text and told so, or has written another one
  rcases (writesOver_apply rfl hreads).cases_of_ok hrun with
    ⟨hsame, rfl, messages, screen, rfl⟩ | ⟨hne, -, rfl, hwrote⟩
  · have hnone : (reportOn settings project update text).changed = false := by
      simpa [hsame] using hchanged
    simp [hnone]
  · have hsome := hchanged.mpr hne
    have hbytes := hwrote.readFile_ne hreads (count_patch_lt hsome)
    simp [hsome, hwrote.writes, hbytes]

theorem reads_returnsSession : returnsSession.Reads (registryPath returnsProject.sourceRoot .tool)
    (Text.unifyLineBreaks returnsRegistry) := by
  obtain ⟨bytes, hread, hdecode⟩ := hasText_returnsSession
  exact ⟨bytes, returnsRegistry, hread, hdecode, rfl⟩

/-- The report on the update of a registry with carriage returns. -/
def returnsReport : PatchReport :=
  reportOn Settings.default returnsProject weather (Text.unifyLineBreaks returnsRegistry)

theorem apply_changed_iff_weather : ∃ after,
    (returnsProject.apply Settings.default weather).run returnsSession = (.ok returnsReport, after) ∧
      returnsReport.changed = true ∧ after.writes = 1 ∧
      after.disk.readFile after.home (registryPath returnsProject.sourceRoot .tool)
        ≠ returnsSession.disk.readFile returnsSession.home (registryPath returnsProject.sourceRoot .tool) := by
  have hreads : returnsSession.Reads (registryPath returnsProject.sourceRoot weather.kind)
      (Text.unifyLineBreaks returnsRegistry) := reads_returnsSession
  have haccepts : returnsSession.AcceptsWrite := rfl
  have hchanged : returnsReport.changed = true := by decide +kernel
  have hne := (changed_reportOn_iff _ _ _ _).mp hchanged
  obtain ⟨after, hrun, -⟩ := (writesOver_apply rfl hreads).written hne haccepts
  obtain ⟨hwrites, hbytes, -⟩ :=
    (apply_changed_iff.2 Settings.default returnsProject weather returnsSession).2 _ after hrun
  exact ⟨after, hrun, hchanged, hwrites.mp hchanged, hbytes.mp hchanged⟩

end ComponentKit.Workflow
