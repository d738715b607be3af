import ComponentKit.Proofs.Session.Spec

/-!
# How steps end

From one store a step that keeps it ends in one way, whatever was reported and printed before: it `EndsIn` a
result. The ways in which steps end are put together like the steps.
-/

namespace ComponentKit.Step

variable {ε ε' α β : Type} {start : Store} {step : Step ε α} {next : α → Step ε β}
  {result : Except ε α} {other : Except ε β}

/-! ## Steps in sequence -/

/-- From a store, which it keeps, a step ends with a result. -/
def EndsIn (start : Store) (step : Step ε α) (result : Except ε α) : Prop :=
  ∀ session : Session, session.store = start →
    ∃ after, step.run session = (result, after) ∧ after.store = start

namespace EndsIn

theorem pure (value : α) : EndsIn start (Pure.pure value : Step ε α) (.ok value) :=
  fun session hs => ⟨session, rfl, hs⟩

theorem throw (failure : ε) : EndsIn start (MonadExcept.throw failure : Step ε α) (.error failure) :=
  fun session hs => ⟨session, rfl, hs⟩

theorem ofResult (result : Except ε α) : EndsIn start (Step.ofResult result) result :=
  fun session hs => ⟨session, rfl, hs⟩

/-- What follows a step is run from the same store, if the step ends with a value. -/
theorem bind {f : α → Except ε β} (hstep : EndsIn start step result)
    (hnext : ∀ value, result = .ok value → EndsIn start (next value) (f value)) :
    EndsIn start (step >>= next) (result >>= f) := by
  intro session hs
  obtain ⟨after, hrun, hafter⟩ := hstep session hs
  rw [run_bind, hrun]
  cases result with
  | ok value => exact hnext value rfl after hafter
  | error failure => exact ⟨after, rfl, hafter⟩

theorem ok_bind {value : α} (hstep : EndsIn start step (.ok value)) (hnext : EndsIn start (next value) other) :
    EndsIn start (step >>= next) other :=
  hstep.bind (f := fun _ => other) fun _ h => Except.ok.inj h ▸ hnext

theorem error_bind {failure : ε} (h : EndsIn start step (.error failure)) :
    EndsIn start (step >>= next) (.error failure) :=
  h.bind (f := fun _ => .error failure) fun _ h => by cases h

/-- A step that never fails needs no more than what all its values have in common. -/
theorem bind_of_spec {Q : α → Prop}
    (h : Spec (· = start) step (fun value store => store = start ∧ Q value) fun _ _ => False)
    (hnext : ∀ value, Q value → EndsIn start (next value) other) : EndsIn start (step >>= next) other := by
  intro session hs
  rw [run_bind]
  cases hrun : step.run session with
  | mk outcome after =>
    cases outcome with
    | ok value =>
      obtain ⟨hafter, hvalue⟩ := h.ok hs hrun
      exact hnext value hvalue after hafter
    | error failure => exact (h.error hs hrun).elim

theorem of_yields {value : α} (h : ∀ session : Session, session.store = start → Yields step session value) :
    EndsIn start step (.ok value) :=
  fun session hs => ⟨session, h session hs, hs⟩

theorem get_bind {next : Session → Step ε β}
    (h : ∀ session : Session, session.store = start → EndsIn start (next session) other) :
    EndsIn start (MonadState.get >>= next) other := by
  intro session hs
  rw [run_bind]
  exact h session hs session hs

theorem outcome (h : EndsIn start step result) :
    EndsIn start (Step.outcome step : Step ε' (Except ε α)) (.ok result) := by
  intro session hs
  obtain ⟨after, hrun, hafter⟩ := h session hs
  have houtcome : (Step.outcome step : Step ε' (Except ε α)).run session
      = (.ok (step.run session).1, (step.run session).2) := rfl
  exact ⟨after, by rw [houtcome, hrun], hafter⟩

theorem mapFailure (f : ε → ε') (h : EndsIn start step result) :
    EndsIn start (step.mapFailure f) (result.mapError f) := by
  intro session hs
  obtain ⟨after, hrun, hafter⟩ := h session hs
  exact ⟨after, by rw [run_mapFailure, hrun], hafter⟩

theorem inspect (look : Disk → Location → Except Disk.Fault α) :
    EndsIn start (Step.inspect look) ((look start.disk start.home).mapError .access) := by
  rw [Step.inspect]
  refine get_bind fun session hs => ?_
  subst hs
  exact ofResult _

theorem inspect_ok {look : Disk → Location → Except Disk.Fault α} {value : α}
    (h : look start.disk start.home = .ok value) : EndsIn start (Step.inspect look) (.ok value) := by
  have hlook := @inspect α start look
  rwa [h] at hlook

theorem locationOf (path : Path) : EndsIn start (Step.locationOf path)
    (if path.hasNul = true then .error (.access .nullCharacter) else .ok (path.resolve start.home)) := by
  rw [Step.locationOf]
  split
  · exact .error_bind (.throw _)
  · refine get_bind fun session hs => ?_
    subst hs
    exact .pure _

theorem report (level : Level) (text : Text) : EndsIn start (Step.report level text) (.ok ()) := by
  intro session hs
  have hspec : Spec (· = start) (Step.report level text) (fun _ store => store = start) fun _ _ => False :=
    Spec.report
  have h := hspec session hs
  cases hrun : (Step.report level text).run session with
  | mk outcome after =>
    rw [hrun] at h
    cases outcome with
    | ok value => exact ⟨after, rfl, h⟩
    | error failure => exact h.elim

/-- How a step ends is what it guarantees. -/
theorem spec (h : EndsIn start step result) : Spec (· = start) step
    (fun value store => store = start ∧ result = .ok value)
    fun failure store => store = start ∧ result = .error failure := by
  intro session hs
  obtain ⟨after, hrun, hafter⟩ := h session hs
  rw [hrun]
  cases result with
  | ok value => exact ⟨hafter, rfl⟩
  | error failure => exact ⟨hafter, rfl⟩

/-- How a step ends is what a run of it yields. -/
theorem run_fst (h : EndsIn start step result) {session : Session} (hs : session.store = start) :
    (step.run session).1 = result := by
  obtain ⟨after, hrun, -⟩ := h session hs
  rw [hrun]

end EndsIn

/-! ## Failing -/

theorem Spec.run_error {P : Store → Prop} {Q : α → Store → Prop} {E : ε → Store → Prop}
    {session : Session} {failure : ε} (h : Spec P step Q E) (hs : P session.store)
    (hrun : (step.run session).1 = .error failure) : E failure (step.run session).2.store :=
  h.error hs (Prod.ext hrun rfl)

/-- A failure comes from the first step, or from what follows it. -/
theorem run_bind_eq_error {session : Session} {failure : ε} :
    ((step >>= next).run session).1 = .error failure ↔ (step.run session).1 = .error failure ∨
      ∃ value after, step.run session = (.ok value, after) ∧ ((next value).run after).1 = .error failure := by
  rw [run_bind]
  rcases step.run session with ⟨cause | value, after⟩ <;> simp

end ComponentKit.Step
