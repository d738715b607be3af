import ComponentKit.Proofs.Registry.Index
import ComponentKit.Proofs.Workflow.Changes

/-!
# Indexing

`updateIndex` adds the export of a component to the index of its kind exactly if the class of the component is not
there yet. What holds for one call (`Answers`), a second call with the same export and calls with any number of
exports follow from: the index that was written is read again as it was written.
-/

namespace ComponentKit.Workflow

open Text Source Registry Project Step Component

variable {session after : Session} {project : Project} {kind : IndexedKind} {index : Text}

/-! ## One call -/

/-- A call writes a new export exactly if the class of its component is not in the index. -/
theorem writesOver_line (hreads : session.Reads (registryPath project.sourceRoot kind) index)
    (fresh : NewExport kind) : (project.updateIndex kind.toKind fresh.line).WritesOver session
      (registryPath project.sourceRoot kind) (appendExport index fresh.line)
      (¬ StandsIn fresh.type index) false true := by
  have hne : fresh.line ≠ [] := by
    intro h
    have hlast := fresh.getLast?_line
    rw [h] at hlast
    cases hlast
  rw [← fresh.hasExport_line]
  exact writesOver_updateIndex hreads hne

/-- What a call that returned leaves is an index with the class, whatever it returned. -/
theorem exists_reads_of_run (hreads : session.Reads (registryPath project.sourceRoot kind) index)
    (fresh : NewExport kind) {added : Bool}
    (hrun : (project.updateIndex kind.toKind fresh.line).run session = (.ok added, after)) :
    ∃ left, after.Reads (registryPath project.sourceRoot kind) left ∧ StandsIn fresh.type left := by
  rcases (writesOver_line hreads fresh).cases_of_ok hrun with ⟨hstands, -, htold⟩ | ⟨-, -, -, hwrote⟩
  · exact ⟨index, htold.reads hreads, not_not.mp hstands⟩
  · have hreturn := fresh.return_notMem_appendExport hreads.return_notMem
    exact ⟨_, hwrote.reads hreads hreturn, (fresh.standsIn_appendExport fresh index).mpr (.inr rfl)⟩

/-! ## Many calls -/

/-- Calls with exports of different classes that are not in an index put all of them there. -/
theorem run_updateIndex_all (fresh : List (NewExport kind)) (hdistinct : fresh.Pairwise (·.type ≠ ·.type))
    (hreads : session.Reads (registryPath project.sourceRoot kind) index)
    (hnew : ∀ new ∈ fresh, ¬ StandsIn new.type index) (haccepts : session.AcceptsWrites fresh.length) :
    ∃ after, (fresh.mapM fun new => project.updateIndex kind.toKind new.line).run session
        = (.ok (fresh.map fun _ => true), after) ∧
      after.Reads (registryPath project.sourceRoot kind) (withLines index (fresh.map (·.line))) ∧
      (fresh ≠ [] → after.disk.readFile after.home (registryPath project.sourceRoot kind)
        = .ok (Utf8.encode (withLines index (fresh.map (·.line))))) := by
  -- each call reads what the one before it wrote, so the session and the index change with the list
  induction fresh generalizing session index with
  | nil => exact ⟨session, rfl, hreads, fun h => absurd rfl h⟩
  | cons first fresh ih =>
    obtain ⟨hfirst, hdistinct⟩ := List.pairwise_cons.mp hdistinct
    obtain ⟨hnone, hnew⟩ := List.forall_mem_cons.mp hnew
    obtain ⟨middle, hcall, hwrote⟩ := (writesOver_line hreads first).written hnone haccepts.first
    have hread := hwrote.reads hreads (first.return_notMem_appendExport hreads.return_notMem)
    -- the class that was added is none of those that follow
    have hstill : ∀ new ∈ fresh, ¬ StandsIn new.type (appendExport index first.line) := by
      intro new hmem hstands
      rcases (first.standsIn_appendExport new index).mp hstands with hthere | hsame
      · exact hnew new hmem hthere
      · exact hfirst new hmem hsame.symm
    obtain ⟨after, hcalls, hlast, hbytes⟩ := ih hdistinct hread hstill (hwrote.acceptsWrites haccepts)
    have hlines := withLines_appendExport first hreads.return_notMem (fresh.map (·.line))
    rw [hlines] at hlast hbytes
    refine ⟨after, ?_, hlast, fun _ => ?_⟩
    · rw [List.mapM_cons, run_bind_of_ok hcall, run_bind_of_ok hcalls]
      rfl
    · cases fresh with
      | nil =>
        obtain ⟨-, rfl⟩ := run_pure_eq_ok.mp hcalls
        rw [List.map_cons, ← hlines]
        exact hwrote.readFile hreads
      | cons second fresh => exact hbytes (List.cons_ne_nil second fresh)

/-! ## The index after calls -/

/-- What a call of `updateIndex` returns and what it leaves, for an index that is read. -/
structure Answers (project : Project) (session : Session) (index : Text) (fresh : NewExport kind) : Prop where
  /-- Nothing is added exactly if the class stands in the index. -/
  returns_false : (∃ after, (project.updateIndex kind.toKind fresh.line).run session = (.ok false, after))
    ↔ StandsIn fresh.type index
  /-- If nothing is added, the disk stays as it is. -/
  kept : ∀ after, (project.updateIndex kind.toKind fresh.line).run session = (.ok false, after) →
    after.disk = session.disk
  /-- Otherwise the export is added, unless the device refuses the write. -/
  returns_true : (∃ after, (project.updateIndex kind.toKind fresh.line).run session = (.ok true, after))
    ↔ ¬ StandsIn fresh.type index ∧ session.AcceptsWrite
  /-- It goes on a line of its own behind everything but the blanks at the end. -/
  added : ∀ after, (project.updateIndex kind.toKind fresh.line).run session = (.ok true, after) →
    after.disk.readFile after.home (registryPath project.sourceRoot kind)
      = .ok (Utf8.encode (trimEnd index ++ '\n' :: fresh.line ++ ['\n']))
  /-- A second call adds nothing. -/
  again : ∀ added after, (project.updateIndex kind.toKind fresh.line).run session = (.ok added, after) →
    ∃ last, (project.updateIndex kind.toKind fresh.line).run after = (.ok false, last) ∧
      last.disk = after.disk

/-- An index that is read answers every call: `Project.updateIndex` returns whether the class is new to it, and adds
the export exactly then. -/
theorem answers_of_reads (hreads : session.Reads (registryPath project.sourceRoot kind) index)
    (fresh : NewExport kind) : Answers project session index fresh := by
  have hcall := writesOver_line hreads fresh
  have hagain : ∀ added after,
      (project.updateIndex kind.toKind fresh.line).run session = (.ok added, after) →
        ∃ last, (project.updateIndex kind.toKind fresh.line).run after = (.ok false, last) ∧
          last.disk = after.disk := by
    intro added after hrun
    obtain ⟨left, hleft, hstands⟩ := exists_reads_of_run hreads fresh hrun
    obtain ⟨last, hlast, htold⟩ := (writesOver_line hleft fresh).kept (not_not.mpr hstands)
    exact ⟨last, hlast, htold.disk⟩
  -- a class that stands in the index leaves it, another one is written if the device lets it
  by_cases hstands : StandsIn fresh.type index
  · obtain ⟨told, hrun, htold⟩ := hcall.kept (not_not.mpr hstands)
    exact ⟨by simp [hrun, hstands], by simp [hrun, htold.disk], by simp [hrun, hstands], by simp [hrun],
      hagain⟩
  by_cases haccepts : session.AcceptsWrite
  · obtain ⟨wrote, hrun, hwrote⟩ := hcall.written hstands haccepts
    have hbytes := hwrote.readFile hreads
    rw [fresh.appendExport_line hreads.return_notMem] at hbytes
    exact ⟨by simp [hrun, hstands], by simp [hrun], by simp [hrun, hstands, haccepts],
      by rw [hrun]; rintro _ ⟨⟩; exact hbytes, hagain⟩
  · obtain ⟨failure, last, hrun, -⟩ := hcall.refused hstands haccepts
    exact ⟨by simp [hrun, hstands], by simp [hrun], by simp [hrun, haccepts], by simp [hrun], hagain⟩

/-- For an index that is read, each call of `updateIndex` answers as it should (`Answers`), and calls with any number
of exports of different classes that are not in the index add all of them behind each other, in their order. -/
theorem updateIndex_adds (project : Project) (session : Session) (index : Text)
    (hreads : session.Reads (registryPath project.sourceRoot kind) index) :
    (∀ fresh : NewExport kind, Answers project session index fresh) ∧
    ∀ fresh : List (NewExport kind), fresh.Pairwise (·.type ≠ ·.type) →
      (∀ new ∈ fresh, ¬ StandsIn new.type index) → session.AcceptsWrites fresh.length →
      ∃ after, (fresh.mapM fun new => project.updateIndex kind.toKind new.line).run session
          = (.ok (fresh.map fun _ => true), after) ∧
        after.Reads (registryPath project.sourceRoot kind) (withLines index (fresh.map (·.line))) ∧
        (fresh ≠ [] → after.disk.readFile after.home (registryPath project.sourceRoot kind)
          = .ok (Utf8.encode (withLines index (fresh.map (·.line))))) :=
  ⟨answers_of_reads hreads, fun fresh hdistinct hnew haccepts =>
    run_updateIndex_all fresh hdistinct hreads hnew haccepts⟩

/-- An index with a class whose name goes on behind the name of another one. -/
def toolkitIndex : Text :=
  "export \x7b WeatherToolkit \x7d from './weather-toolkit.js';\n\n"

/-- A session where `toolkitIndex` is the index of the tools. -/
def toolkitSession : Session :=
  .start ⟨[(["s", "tools", "index.ts"], .file (Utf8.encode toolkitIndex)), (["s"], .directory),
    (["s", "tools"], .directory)]⟩ [] ⟨2026, 1, 1, 0, 0, 0, 0⟩ false .none

/-- The export of a tool called `weather`. -/
def weatherExport : NewExport .tool where
  name := "weather"
  accepted := ⟨50, "weather", by rfl⟩
  line := exportStatement "WeatherTool" "weather-tool"
  exports := ⟨[], ⟨[], [], []⟩, [], _, _, generateFrom_weather, rfl, rfl⟩

/-- The export of a tool called `news`. -/
def newsExport : NewExport .tool where
  name := "news"
  accepted := ⟨50, "news", by rfl⟩
  line := exportStatement "NewsTool" "news-tool"
  exports := ⟨[], ⟨[], [], []⟩, [], ⟨.tool, [], some ⟨_, news⟩⟩, _, by rfl, rfl, rfl⟩

theorem updateIndex_adds_weather : ∃ after,
    ([weatherExport, newsExport].mapM fun new => returnsProject.updateIndex .tool new.line).run
        toolkitSession = (.ok [true, true], after) ∧
      after.disk.readFile after.home (registryPath returnsProject.sourceRoot .tool)
        = .ok (Utf8.encode (concat ["export \x7b WeatherToolkit \x7d from './weather-toolkit.js';\n",
          "export \x7b WeatherTool \x7d from './weather-tool.js';\n",
          "export \x7b NewsTool \x7d from './news-tool.js';\n"])) := by
  have hreads : toolkitSession.Reads (registryPath returnsProject.sourceRoot .tool) toolkitIndex :=
    ⟨Utf8.encode toolkitIndex, toolkitIndex, by rfl, Utf8.decode_encode _, by decide +kernel⟩
  have hnew : ∀ new ∈ [weatherExport, newsExport], ¬ StandsIn new.type toolkitIndex := by
    simp only [List.forall_mem_cons, List.not_mem_nil, false_implies, implies_true, and_true,
      ← mentions_iff (NewExport.isClassName_type _).isIdentifier.1]
    decide +kernel
  obtain ⟨after, hrun, -, hbytes⟩ := (updateIndex_adds returnsProject toolkitSession toolkitIndex hreads).2
    [weatherExport, newsExport] (by decide +kernel) hnew fun _ _ => rfl
  exact ⟨after, hrun, (hbytes (List.cons_ne_nil _ _)).trans (by decide +kernel)⟩

end ComponentKit.Workflow
