import ComponentKit.Proofs.Console.Escape
import ComponentKit.Proofs.Disk.Change
import ComponentKit.Session.Basic

/-!
# Specifications of steps

What a step of a run guarantees, as a triple, `Spec`: from a store with the precondition it ends with a value or
with a failure, each with its own postcondition. The `Store` is what the steps of a run work on; the messages and
the screen have no part in it, so a report keeps every condition.
-/

namespace ComponentKit

/-- The part of a session that steps on files work on. -/
structure Store where
  /-- Files and directories. -/
  disk : Disk
  /-- The working directory. -/
  home : Location
  /-- The time. -/
  now : Instant
  /-- Whether details are shown. -/
  verbose : Bool
  /-- What the device refuses. -/
  outage : Outage
  /-- How many lists and objects within each other the reader of manifests follows. -/
  nesting : Nat
  /-- How many copies there were. -/
  copies : Nat

/-- The store of a session. -/
def Session.store (session : Session) : Store :=
  ⟨session.disk, session.home, session.now, session.verbose, session.outage, session.nesting,
    session.copies⟩

namespace Step

variable {ε ε' α β : Type} {P : Store → Prop} {Q : α → Store → Prop} {R : β → Store → Prop}
  {E : ε → Store → Prop} {F : ε' → Store → Prop} {step : Step ε α} {next : α → Step ε β}
  {G : Session → Store → Prop} {U : Unit → Store → Prop}

/-- From a store with `P` a step ends with a value and `Q`, or with a failure and `E`. -/
def Spec (P : Store → Prop) (step : Step ε α) (Q : α → Store → Prop) (E : ε → Store → Prop) : Prop :=
  ∀ session : Session, P session.store →
    match step.run session with
    | (.ok value, after) => Q value after.store
    | (.error failure, after) => E failure after.store

/-! ## Rules -/

theorem run_bind (session : Session) :
    (step >>= next).run session =
      match step.run session with
      | (.ok value, after) => (next value).run after
      | (.error failure, after) => (.error failure, after) := by
  simp only [run, ExceptT.run_bind, StateT.run_bind]
  show (match (StateT.run (ExceptT.run step) session) with | (value, after) => _) = _
  rcases StateT.run (ExceptT.run step) session with ⟨value | value, after⟩ <;> rfl

theorem Spec.pure (value : α) (h : ∀ store, P store → Q value store) :
    Spec P (Pure.pure value : Step ε α) Q E :=
  fun session hs => h session.store hs

theorem Spec.throw (failure : ε) (h : ∀ store, P store → E failure store) :
    Spec P (throw failure : Step ε α) Q E :=
  fun session hs => h session.store hs

theorem Spec.bind (hstep : Spec P step Q E) (hnext : ∀ value, Spec (Q value) (next value) R E) :
    Spec P (step >>= next) R E := by
  intro session hs
  rw [run_bind]
  have h := hstep session hs
  cases hr : step.run session with
  | mk result after =>
    rw [hr] at h
    cases result with
    | ok value => exact hnext value after h
    | error failure => exact h

theorem Spec.map {f : α → β} (h : Spec P step (fun value => R (f value)) E) :
    Spec P (f <$> step) R E := by
  rw [map_eq_pure_bind]
  exact h.bind fun _ => Spec.pure _ fun _ hs => hs

/-- Nothing follows a failure. -/
theorem Spec.throw_bind (failure : ε) (h : ∀ store, P store → E failure store) :
    Spec P ((MonadExcept.throw failure : Step ε α) >>= next) R E :=
  Spec.bind (Q := fun _ _ => False) (Spec.throw failure h) fun _ _ hf => hf.elim

theorem Spec.weaken {P' : Store → Prop} {Q' : α → Store → Prop} {E' : ε → Store → Prop}
    (h : Spec P step Q E) (hP : ∀ store, P' store → P store)
    (hQ : ∀ value store, Q value store → Q' value store)
    (hE : ∀ failure store, E failure store → E' failure store) : Spec P' step Q' E' := by
  intro session hs
  have := h session (hP _ hs)
  cases hr : step.run session with
  | mk result after =>
    rw [hr] at this
    cases result with
    | ok value => exact hQ value _ this
    | error failure => exact hE failure _ this

/-- From the same stores, with less said about both ends. -/
theorem Spec.weaken_ends {Q' : α → Store → Prop} {E' : ε → Store → Prop} (h : Spec P step Q E)
    (hQ : ∀ value store, Q value store → Q' value store)
    (hE : ∀ failure store, E failure store → E' failure store) : Spec P step Q' E' :=
  h.weaken (fun _ hs => hs) hQ hE

/-- From fewer stores. -/
theorem Spec.weaken_pre {P' : Store → Prop} (h : Spec P step Q E) (hP : ∀ store, P' store → P store) :
    Spec P' step Q E :=
  h.weaken hP (fun _ _ hq => hq) fun _ _ he => he

/-- With less said about values only. -/
theorem Spec.weaken_ok {Q' : α → Store → Prop} (h : Spec P step Q E)
    (hQ : ∀ value store, Q value store → Q' value store) : Spec P step Q' E :=
  h.weaken_ends hQ fun _ _ he => he

/-- With less said about failures only. -/
theorem Spec.weaken_error {E' : ε → Store → Prop} (h : Spec P step Q E)
    (hE : ∀ failure store, E failure store → E' failure store) : Spec P step Q E' :=
  h.weaken_ends (fun _ _ hq => hq) hE

/-- A fact about the time of the precondition may be used as a hypothesis. -/
theorem Spec.of_forall (h : ∀ store, P store → Spec (· = store) step Q E) : Spec P step Q E :=
  fun session hs => h session.store hs session rfl

theorem Spec.ok {session after : Session} {value : α} (h : Spec P step Q E) (hs : P session.store)
    (hrun : step.run session = (.ok value, after)) : Q value after.store := by
  have := h session hs
  rwa [hrun] at this

theorem Spec.error {session after : Session} {failure : ε} (h : Spec P step Q E)
    (hs : P session.store) (hrun : step.run session = (.error failure, after)) :
    E failure after.store := by
  have := h session hs
  rwa [hrun] at this

/-- What holds at every end holds after a run. -/
theorem Spec.store {S : Store → Prop} {session : Session} (h : Spec P step (fun _ => S) fun _ => S)
    (hs : P session.store) : S (step.run session).2.store := by
  have := h session hs
  cases hr : step.run session with
  | mk result after =>
    rw [hr] at this
    cases result <;> exact this

/-- What has nothing to do with the store stays. -/
theorem Spec.const {C : Prop} : Spec (fun _ => C) step (fun _ _ => C) fun _ _ => C := by
  intro session hs
  rcases step.run session with ⟨_ | _, after⟩ <;> exact hs

/-- A failure that is taken as an outcome. -/
theorem Spec.outcome (h : Spec P step Q E) :
    Spec P (Step.outcome step : Step ε' (Except ε α))
      (fun result store => match result with
        | .ok value => Q value store
        | .error failure => E failure store) F := by
  intro session hs
  have := h session hs
  have hrun : (Step.outcome step : Step ε' (Except ε α)).run session
      = (.ok (step.run session).1, (step.run session).2) := rfl
  rw [hrun]
  cases hr : step.run session with
  | mk result after =>
    rw [hr] at this
    cases result <;> exact this

theorem run_mapFailure (f : ε → ε') (session : Session) :
    (step.mapFailure f).run session = ((step.run session).1.mapError f, (step.run session).2) := by
  simp only [run, Step.mapFailure, ExceptT.adapt, ExceptT.run, ExceptT.mk]
  rcases h : StateT.run step session with ⟨value | value, after⟩ <;>
    simp [StateT.run] at h <;> simp [StateT.run, Functor.map, StateT.map, h]

theorem Spec.mapFailure {f : ε → ε'} (h : Spec P step Q fun failure => F (f failure)) :
    Spec P (step.mapFailure f) Q F := by
  intro session hs
  have := h session hs
  rw [run_mapFailure]
  cases hr : step.run session with
  | mk result after =>
    rw [hr] at this
    cases result <;> exact this

theorem Spec.ofResult (result : Except ε α)
    (hok : ∀ value store, P store → result = .ok value → Q value store)
    (herror : ∀ failure store, P store → result = .error failure → E failure store) :
    Spec P (ofResult result) Q E := by
  intro session hs
  have hrun : (Step.ofResult result).run session = (result, session) := rfl
  rw [hrun]
  cases result with
  | ok value => exact hok value _ hs rfl
  | error failure => exact herror failure _ hs rfl

theorem Spec.get (h : ∀ session : Session, P session.store → G session session.store) :
    Spec P (get : Step ε Session) G E :=
  fun session hs => h session hs

theorem Spec.modify (f : Session → Session)
    (h : ∀ session : Session, P session.store → U () (f session).store) :
    Spec P (modify f : Step ε Unit) U E :=
  fun session hs => h session hs

/-! ## Steps that only look -/

/-- Whether a step yields a value and leaves the session as it is. -/
def Yields (step : Step ε α) (session : Session) (value : α) : Prop :=
  step.run session = (.ok value, session)

section Yields

variable {session : Session} {value : α} {result : β}

theorem Yields.pure (value : α) : Yields (Pure.pure value : Step ε α) session value :=
  rfl

theorem Yields.bind (hstep : Yields step session value) (hnext : Yields (next value) session result) :
    Yields (step >>= next) session result := by
  rw [Yields, run_bind, hstep]
  exact hnext

theorem Yields.map {f : α → β} (hstep : Yields step session value) :
    Yields (f <$> step) session (f value) := by
  rw [map_eq_pure_bind]
  exact hstep.bind (Yields.pure _)

theorem Yields.outcome (hstep : Yields step session value) :
    Yields (Step.outcome step : Step ε' (Except ε α)) session (.ok value) := by
  have hrun : (Step.outcome step : Step ε' (Except ε α)).run session
      = (.ok (step.run session).1, (step.run session).2) := rfl
  rw [Yields, hrun, hstep]

theorem Yields.get : Yields (MonadState.get : Step ε Session) session session :=
  rfl

theorem Yields.ofResult {given : Except ε α} (h : given = .ok value) :
    Yields (Step.ofResult given) session value := by
  subst h
  rfl

theorem Yields.inspect {look : Disk → Location → Except Disk.Fault α}
    (h : look session.disk session.home = .ok value) : Yields (Step.inspect look) session value :=
  Yields.bind Yields.get (Yields.ofResult (by rw [h]; rfl))

theorem Yields.readText {path : Path} {bytes : Bytes} {text : Text}
    (hread : session.disk.readFile session.home path = .ok bytes) (hdecode : Utf8.decode bytes = .ok text) :
    Yields (Step.readText path) session (Text.unifyLineBreaks text) :=
  Yields.bind (Yields.inspect hread) (Yields.bind (Yields.ofResult (by rw [hdecode]; rfl)) (Yields.pure _))

end Yields

/-! ## Reports and inspections -/

/-- A report never fails, and keeps every condition. -/
theorem Spec.report {E : Failure → Store → Prop} {level : Level} {text : Text} :
    Spec P (report level text) (fun _ => P) E := by
  rw [Step.report]
  refine Spec.bind (Spec.modify (U := fun _ => P) _ fun session hs => hs) fun _ => ?_
  refine Spec.bind (Spec.get (G := fun _ => P) fun session hs => hs) fun session => ?_
  refine Spec.bind (Spec.ofResult _ (fun _ _ hs _ => hs) fun failure store _ h => ?_)
    fun shown => Spec.modify _ fun _ hs => hs
  obtain ⟨shown, hshown⟩ := Message.exists_printed ⟨level, text⟩ session.verbose
  rw [hshown] at h
  cases h

/-- A path leads somewhere unless it has a null character. -/
theorem spec_locationOf {start : Store} (path : Path) :
    Spec (· = start) (locationOf path)
      (fun place store => store = start ∧ path.hasNul = false ∧ place = path.resolve start.home)
      fun failure store => store = start ∧ path.hasNul = true ∧ failure = .access .nullCharacter := by
  rw [locationOf]
  cases hnul : path.hasNul with
  | true => exact Spec.throw_bind _ fun _ hs => ⟨hs, rfl, rfl⟩
  | false =>
    refine Spec.bind (Spec.get (G := fun session store => store = start ∧ session.home = start.home)
      fun session hs => ⟨hs, congrArg Store.home hs⟩) fun session => ?_
    exact Spec.pure _ fun _ hs => ⟨hs.1, rfl, by rw [hs.2]⟩

/-- An inspection keeps every condition. -/
theorem spec_inspect (P : Store → Prop) (look : Disk → Location → Except Disk.Fault α) :
    Spec P (inspect look) (fun value store => P store ∧ look store.disk store.home = .ok value)
      fun failure store => P store ∧ ∃ fault, look store.disk store.home = .error fault ∧
        failure = .access fault := by
  rw [inspect]
  refine Spec.bind (Spec.get (G := fun session store => P store ∧ session.store = store)
    fun session hs => ⟨hs, rfl⟩) fun session => ?_
  refine Spec.ofResult _ (fun value store hs h => ⟨hs.1, ?_⟩) fun failure store hs h => ⟨hs.1, ?_⟩
  · obtain ⟨-, rfl⟩ := hs
    exact mapError_eq_ok.mp h
  · obtain ⟨-, rfl⟩ := hs
    exact mapError_eq_error.mp h

/-- A change that the disk refuses changes nothing. -/
theorem spec_change {U : Unit → Store → Prop} {E : Failure → Store → Prop}
    (act : Disk → Location → Except Disk.Fault Disk)
    (hok : ∀ store disk, P store → act store.disk store.home = .ok disk → U () { store with disk })
    (herror : ∀ store fault, P store → act store.disk store.home = .error fault →
      E (.access fault) store) : Spec P (change act) U E := by
  rw [change]
  refine Spec.bind ((spec_inspect P act).weaken_error ?_) fun disk => ?_
  · rintro _ store ⟨hs, fault, hact, rfl⟩
    exact herror store fault hs hact
  · exact Spec.modify _ fun session hs => hok session.store disk hs.1 hs.2

/-! ## Operations on files -/

section Operations

variable {start : Store}

/-- Reading keeps every condition. -/
theorem spec_readText (P : Store → Prop) (path : Path) :
    Spec P (readText path) (fun _ => P) fun _ => P := by
  rw [readText]
  refine Spec.bind ((spec_inspect P _).weaken_ends (fun _ _ h => h.1) fun _ _ h => h.1) fun bytes => ?_
  exact Spec.bind (Spec.ofResult _ (fun _ _ hs _ => hs) fun _ _ hs _ => hs) fun text =>
    Spec.pure _ fun _ hs => hs

theorem spec_makeDirectories (path : Path) :
    Spec (· = start) (makeDirectories path)
      (fun _ store => store = { start with disk := (start.disk.makeDirectories start.home path).2 } ∧
        (start.disk.makeDirectories start.home path).1 = .ok ())
      fun failure store =>
        store = { start with disk := (start.disk.makeDirectories start.home path).2 } ∧
          ∃ fault, (start.disk.makeDirectories start.home path).1 = .error fault ∧
            failure = .access fault := by
  rintro session rfl
  have hrun : (makeDirectories path).run session
      = ((session.disk.makeDirectories session.home path).1.mapError .access,
        { session with disk := (session.disk.makeDirectories session.home path).2 }) := rfl
  rw [hrun]
  cases h : (session.disk.makeDirectories session.home path).1 with
  | ok value => exact ⟨rfl, h⟩
  | error fault => exact ⟨rfl, fault, h, rfl⟩

theorem spec_makeFreshDirectory (root : Path) (name : Text) :
    Spec (· = start) (makeFreshDirectory root name)
      (fun path store =>
        store = { start with disk := (start.disk.makeFreshDirectory start.home root name).2 } ∧
          (start.disk.makeFreshDirectory start.home root name).1 = .ok path)
      fun failure store =>
        store = { start with disk := (start.disk.makeFreshDirectory start.home root name).2 } ∧
          ∃ fault, (start.disk.makeFreshDirectory start.home root name).1 = .error fault ∧
            failure = .access fault := by
  rintro session rfl
  have hrun : (makeFreshDirectory root name).run session
      = ((session.disk.makeFreshDirectory session.home root name).1.mapError .access,
        { session with disk := (session.disk.makeFreshDirectory session.home root name).2 }) := rfl
  rw [hrun]
  cases h : (session.disk.makeFreshDirectory session.home root name).1 with
  | ok value => exact ⟨rfl, h⟩
  | error fault => exact ⟨rfl, fault, h, rfl⟩

/-- A text that is written is there afterwards, in a directory; otherwise at most directories were
made. -/
theorem spec_writeText (path : Path) (text : Text) :
    Spec (· = start) (writeText path text)
      (fun _ store => ∃ disk,
        (start.disk.makeDirectories start.home path.parent).2.writeFile start.home path
          (Utf8.encode text) = .ok disk ∧ store = { start with disk })
      fun _ store => store = start ∨
        store = { start with disk := (start.disk.makeDirectories start.home path.parent).2 } := by
  rw [writeText]
  refine Spec.bind (Spec.modify (U := fun _ store => store = start) _ fun session hs => hs)
    fun _ => ?_
  refine Spec.bind (Spec.get (G := fun _ store => store = start) fun session hs => hs)
    fun session => ?_
  -- the device may refuse at once; otherwise the directories are made, and then the file is written
  split
  · exact Spec.throw_bind _ fun store hs => .inl hs
  · refine Spec.bind ((spec_makeDirectories path.parent).weaken_ends (fun _ _ h => h.1)
      fun _ _ h => .inr h.1) fun _ => ?_
    refine spec_change _ (fun store disk hs hact => ⟨disk, ?_⟩) fun store fault hs hact => .inr hs
    subst hs
    exact ⟨hact, rfl⟩

/-- A copy is made in a directory; a failure names the disk or the device, by the number of the copy. -/
theorem spec_copyFile (source target : Path) :
    Spec (· = start) (copyFile source target)
      (fun _ store => ∃ disk,
        (start.disk.makeDirectories start.home target.parent).1 = .ok () ∧
        (start.disk.makeDirectories start.home target.parent).2.copyFile start.home source target
          = .ok disk ∧ store = { start with disk, copies := start.copies + 1 })
      fun failure store =>
        (store = { start with disk := (start.disk.makeDirectories start.home target.parent).2 } ∧
          ∃ fault, (start.disk.makeDirectories start.home target.parent).1 = .error fault ∧
            failure = .access fault) ∨
        (store = { start with
            disk := (start.disk.makeDirectories start.home target.parent).2
            copies := start.copies + 1 } ∧
          ((start.outage.copy (start.copies + 1) = true ∧
              failure = .outage .copy (start.copies + 1)) ∨
            ∃ fault, (start.disk.makeDirectories start.home target.parent).2.copyFile start.home
              source target = .error fault ∧ failure = .access fault)) := by
  rw [copyFile]
  refine Spec.bind ((spec_makeDirectories target.parent).weaken_error
    fun failure _ h => .inl h) fun _ => ?_
  -- the copy is counted before the device is asked, so a refused one counts as well
  refine Spec.bind (Spec.modify (U := fun _ store => store = { start with
      disk := (start.disk.makeDirectories start.home target.parent).2
      copies := start.copies + 1 } ∧
    (start.disk.makeDirectories start.home target.parent).1 = .ok ()) _ fun session hs => ?_)
    fun _ => ?_
  · refine ⟨?_, hs.2⟩
    have hstore : ({ session with copies := session.copies + 1 } : Session).store
        = { session.store with copies := session.store.copies + 1 } := rfl
    rw [hstore, hs.1]
  refine Spec.bind (Spec.get (G := fun session store => (store = { start with
      disk := (start.disk.makeDirectories start.home target.parent).2
      copies := start.copies + 1 } ∧
    (start.disk.makeDirectories start.home target.parent).1 = .ok ()) ∧ session.store = store)
    fun session hs => ⟨hs, rfl⟩) fun session => ?_
  split
  -- the number of the refused copy is the one just counted
  · rename_i hrefused
    refine Spec.throw_bind _ fun store hs => .inr ⟨hs.1.1, .inl ?_⟩
    have hcopies : session.copies = start.copies + 1 := by
      show session.store.copies = _
      rw [hs.2, hs.1.1]
    have houtage : session.outage = start.outage := by
      show session.store.outage = _
      rw [hs.2, hs.1.1]
    rw [hcopies, houtage] at hrefused
    exact ⟨hrefused, by rw [hcopies]⟩
  · refine spec_change _ (fun store disk hs hact => ⟨disk, hs.1.2, ?_⟩) fun store fault hs hact =>
      .inr ⟨hs.1.1, .inr ⟨fault, ?_, rfl⟩⟩
    · obtain ⟨⟨rfl, -⟩, -⟩ := hs
      exact ⟨hact, rfl⟩
    · obtain ⟨⟨rfl, -⟩, -⟩ := hs
      exact hact

end Operations

end Step

end ComponentKit
