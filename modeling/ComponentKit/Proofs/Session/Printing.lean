import ComponentKit.Proofs.Session.Ending
import ComponentKit.Proofs.Session.Run

/-!
# Steps that only print

A step that `Prints` texts puts them on the screen in order, up to the first that cannot be shown, for which it
fails. It does nothing else. The texts of steps in sequence are those of the one and then those of the other.
-/

namespace ComponentKit.Console

variable {ε : Type} {results more : List (Except ε Text)} {text : Text} {fault : ε}

/-- Several texts as one, if all of them can be shown, and else the first fault. -/
def inOrder : List (Except ε Text) → Except ε Text
  | [] => .ok []
  | .error fault :: _ => .error fault
  | .ok text :: results => (text ++ ·) <$> inOrder results

theorem inOrder_append_of_ok (h : inOrder results = .ok text) :
    inOrder (results ++ more) = (text ++ ·) <$> inOrder more := by
  -- on the first results, all of which can be shown
  induction results generalizing text with
  | nil =>
    obtain rfl := Except.ok.inj h
    show inOrder more = (fun rest => rest) <$> inOrder more
    rw [id_map']
  | cons result results ih =>
    cases result with
    | error fault => cases h
    | ok first =>
      rw [inOrder] at h
      cases hrest : inOrder results with
      | error fault =>
        rw [hrest] at h
        cases h
      | ok rest =>
        rw [hrest] at h
        obtain rfl := Except.ok.inj h
        rw [List.cons_append, inOrder, ih hrest, Functor.map_map]
        simp only [List.append_assoc]

theorem inOrder_append_of_error (h : inOrder results = .error fault) :
    inOrder (results ++ more) = .error fault := by
  -- the first fault is met before the further results are
  induction results with
  | nil => cases h
  | cons result results ih =>
    cases result with
    | error first => exact h
    | ok first =>
      rw [inOrder] at h
      cases hrest : inOrder results with
      | ok rest =>
        rw [hrest] at h
        cases h
      | error cause =>
        rw [hrest] at h ih
        obtain rfl := Except.error.inj h
        rw [List.cons_append, inOrder, ih rfl]
        rfl

/-- Texts can be shown in order exactly if each of them can. -/
theorem inOrder_eq_ok : inOrder results = .ok text ↔
    ∃ texts : List Text, results = texts.map .ok ∧ text = texts.flatten := by
  constructor
  -- on the results, reading off one text after the other
  · intro h
    induction results generalizing text with
    | nil => exact ⟨[], rfl, (Except.ok.inj h).symm⟩
    | cons result results ih =>
      cases result with
      | error fault => cases h
      | ok first =>
        rw [inOrder] at h
        cases hrest : inOrder results with
        | error fault =>
          rw [hrest] at h
          cases h
        | ok rest =>
          rw [hrest] at h
          obtain ⟨texts, rfl, rfl⟩ := ih hrest
          exact ⟨first :: texts, rfl, (Except.ok.inj h).symm⟩
  · rintro ⟨texts, rfl, rfl⟩
    induction texts with
    | nil => rfl
    | cons first texts ih =>
      rw [List.map_cons, inOrder, ih]
      rfl

/-- They cannot exactly if one of them cannot. -/
theorem exists_inOrder_eq_error :
    (∃ fault, inOrder results = .error fault) ↔ ∃ fault, .error fault ∈ results := by
  induction results with
  | nil =>
    refine ⟨fun ⟨fault, h⟩ => ?_, fun ⟨fault, h⟩ => (List.not_mem_nil h).elim⟩
    cases h
  | cons result results ih =>
    cases result with
    | error fault => exact iff_of_true ⟨fault, rfl⟩ ⟨fault, List.mem_cons_self⟩
    | ok first =>
      have hmem : (∃ fault, .error fault ∈ (Except.ok first : Except ε Text) :: results) ↔
          ∃ fault, .error fault ∈ results := by simp
      rw [hmem, ← ih, inOrder]
      cases inOrder results <;> simp [Functor.map, Except.map]

end ComponentKit.Console

namespace ComponentKit.Step

open Console

variable {ε : Type} {step second : Step ε Unit} {session after : Session} {texts more : List (Except ε Text)}
  {text : Text} {failure : ε}

/-- Whether a step fails in a session. -/
def Fails {α : Type} (step : Step ε α) (session : Session) : Prop :=
  ∃ failure, (step.run session).1 = .error failure

theorem fails_mapFailure {ε' α : Type} {step : Step ε α} {f : ε → ε'} :
    Fails (step.mapFailure f) session ↔ Fails step session := by
  rw [Fails, Fails, run_mapFailure]
  cases (step.run session).1 <;> simp [Except.mapError]

/-- Whether a step does nothing but print texts in order (`inOrder`), up to one that cannot be shown. -/
def Prints (step : Step ε Unit) (texts : List (Except ε Text)) : Prop :=
  ∀ session : Session, match inOrder texts with
    | .ok text => step.run session = (.ok (), { session with screen := session.screen ++ text })
    | .error failure => (step.run session).1 = .error failure

namespace Prints

theorem run_eq_ok (h : Prints step texts) : step.run session = (.ok (), after) ↔
    ∃ text, inOrder texts = .ok text ∧ after = { session with screen := session.screen ++ text } := by
  have h := h session
  cases htexts : inOrder texts with
  | ok text =>
    rw [htexts] at h
    rw [show step.run session = _ from h]
    simp [eq_comm]
  | error fault =>
    rw [htexts] at h
    refine ⟨fun hrun => ?_, fun ⟨text, htext, _⟩ => by cases htext⟩
    rw [hrun] at h
    cases h

theorem run_eq_error (h : Prints step texts) :
    (step.run session).1 = .error failure ↔ inOrder texts = .error failure := by
  have h := h session
  cases htexts : inOrder texts with
  | ok text =>
    rw [htexts] at h
    rw [show step.run session = _ from h]
    simp
  | error fault =>
    rw [htexts] at h
    rw [show (step.run session).1 = _ from h]
    simp [eq_comm]

/-- A step that only prints fails exactly if one of its texts cannot be shown. -/
theorem fails_iff (h : Prints step texts) : Fails step session ↔ ∃ failure, .error failure ∈ texts := by
  rw [Fails, ← exists_inOrder_eq_error]
  simp only [h.run_eq_error]

theorem done : Prints (pure () : Step ε Unit) [] := by
  intro session
  show (Except.ok (), session) = (Except.ok (), { session with screen := session.screen ++ [] })
  rw [List.append_nil]

theorem print (text : Text) : Prints (Step.print text : Step ε Unit) [.ok text] := by
  intro session
  show (Except.ok (), { session with screen := session.screen ++ text })
    = (Except.ok (), { session with screen := session.screen ++ (text ++ []) })
  rw [List.append_nil]

/-- A text that may not be shown is printed or the failure. -/
theorem result (given : Except ε Text) : Prints (do Step.print (← ofResult given)) [given] := by
  intro session
  cases given with
  | ok text => exact print text session
  | error fault => rfl

theorem markup (draw : Text → Except ε Text) (markup : Text) :
    Prints (printMarkup draw markup) [printed draw markup] :=
  result _

theorem bind (hstep : Prints step texts) (hsecond : Prints second more) :
    Prints (step >>= fun _ => second) (texts ++ more) := by
  intro session
  -- a fault in the first step ends the run, and the second step goes on with its screen
  cases hfirst : inOrder texts with
  | error fault =>
    rw [inOrder_append_of_error hfirst]
    exact run_bind_eq_error.mpr (.inl (hstep.run_eq_error.mpr hfirst))
  | ok text =>
    have hrun : step.run session = (.ok (), { session with screen := session.screen ++ text }) :=
      hstep.run_eq_ok.mpr ⟨text, hfirst, rfl⟩
    have hrest := hsecond { session with screen := session.screen ++ text }
    rw [inOrder_append_of_ok hfirst, run_bind_of_ok hrun]
    cases hmore : inOrder more with
    | ok rest =>
      rw [hmore] at hrest
      show _ = (_, { session with screen := session.screen ++ (text ++ rest) })
      rw [← List.append_assoc]
      exact hrest
    | error fault =>
      rw [hmore] at hrest
      exact hrest

theorem forM {α : Type} {f : α → Step ε Unit} {g : α → List (Except ε Text)}
    (h : ∀ x, Prints (f x) (g x)) (items : List α) : Prints (items.forM f) (items.flatMap g) := by
  induction items with
  | nil => exact done
  | cons item items ih =>
    rw [List.flatMap_cons]
    exact (h item).bind ih

end Prints

end ComponentKit.Step
