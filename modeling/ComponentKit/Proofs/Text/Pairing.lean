import ComponentKit.Proofs.Text.Blank
import ComponentKit.Proofs.Text.Occurrence

/-!
# Line breaks of two characters

Texts in which carriage returns and line feeds come in pairs only (`IsPaired`). Such texts can be joined, and taken
apart wherever no pair is torn, so that an edit between pairs that adds paired text leaves a paired text.
-/

namespace ComponentKit.Text

variable {text x y : Text}

/-- Whether carriage returns and line feeds come in pairs only. -/
structure IsPaired (text : Text) : Prop where
  /-- In front of a line feed is a carriage return. -/
  feed : ∀ front back, text = front ++ '\n' :: back → front.getLast? = some '\r'
  /-- Behind a carriage return is a line feed. -/
  carriage : ∀ front back, text = front ++ '\r' :: back → back.head? = some '\n'

/-- Whether a cut between two parts of a text tears a pair. -/
def TearsPair (x y : Text) : Prop :=
  x.getLast? = some '\r' ∧ y.head? = some '\n'

namespace IsPaired

theorem of_notMem (hfeed : '\n' ∉ text) (hcarriage : '\r' ∉ text) : IsPaired text :=
  ⟨fun _ _ h => absurd (by simp [h]) hfeed, fun _ _ h => absurd (by simp [h]) hcarriage⟩

theorem append (hx : IsPaired x) (hy : IsPaired y) : IsPaired (x ++ y) := by
  constructor
  · intro front back h
    rcases List.append_eq_append_iff.mp h with ⟨more, rfl, hmore⟩ | ⟨more, hmore, hback⟩
    · rw [List.getLast?_append, hy.feed more back hmore, Option.some_or]
    -- a pair across the seam would have its halves in different parts, which neither allows
    · cases more with
      | nil => cases hy.feed [] back hback.symm
      | cons c more =>
        obtain ⟨rfl, -⟩ := List.cons.inj hback
        exact hx.feed front more hmore
  · intro front back h
    rcases List.append_eq_append_iff.mp h with ⟨more, rfl, hmore⟩ | ⟨more, hmore, hback⟩
    · exact hy.carriage more back hmore
    · cases more with
      | nil => exact hy.carriage [] back hback.symm
      | cons c more =>
        obtain ⟨rfl, hrest⟩ := List.cons.inj hback
        rw [show back = more ++ y from hrest, List.head?_append, hx.carriage front more hmore,
          Option.some_or]

/-- The parts of a paired text are paired if no pair is torn. -/
theorem split (h : IsPaired (x ++ y)) (hcut : ¬ TearsPair x y) : IsPaired x ∧ IsPaired y := by
  refine ⟨⟨fun front back hx => ?_, fun front back hx => ?_⟩,
    fun front back hy => ?_, fun front back hy => ?_⟩
  · exact h.feed front (back ++ y) (by simp [hx])
  · -- only a return at the end of the first part can have its feed in the second
    have hhead := h.carriage front (back ++ y) (by simp [hx])
    cases back with
    | nil => exact absurd ⟨by simp [hx], hhead⟩ hcut
    | cons c back => exact hhead
  · -- and only a feed at the start of the second can have its return in the first
    have hlast := h.feed (x ++ front) back (by simp [hy])
    cases front using List.reverseRec with
    | nil => exact absurd ⟨by simpa using hlast, by simp [hy]⟩ hcut
    | append_singleton front c =>
      rw [← List.append_assoc, List.getLast?_concat] at hlast
      rwa [List.getLast?_concat]
  · exact h.carriage (x ++ front) back (by simp [hy])

end IsPaired

theorem isPaired_flatMap {α : Type} {items : List α} {f : α → Text} (h : ∀ item ∈ items, IsPaired (f item)) :
    IsPaired (items.flatMap f) := by
  induction items with
  | nil => exact .of_notMem List.not_mem_nil List.not_mem_nil
  | cons item items ih =>
    obtain ⟨hitem, hitems⟩ := List.forall_mem_cons.mp h
    exact hitem.append (ih hitems)

/-- A text with paired line breaks uses pairs. -/
theorem IsPaired.lineBreak_eq (h : IsPaired text) (hfeed : '\n' ∈ text) :
    lineBreak text = ['\r', '\n'] := by
  obtain ⟨front, back, rfl⟩ := List.append_of_mem hfeed
  obtain ⟨lead, rfl⟩ := List.getLast?_eq_some_iff.mp (h.feed front back rfl)
  rw [lineBreak, if_pos]
  · rfl
  · rw [occursIn_iff]
    exact ⟨lead, back, by simp⟩

theorem isPaired_pair : IsPaired ['\r', '\n'] := by
  refine ⟨fun front back h => ?_, fun front back h => ?_⟩
  all_goals rcases front with _ | ⟨a, _ | ⟨b, front⟩⟩
  · exact absurd (List.cons.inj h).1 (by decide)
  · exact congrArg some (List.cons.inj h).1.symm
  · simp at h
  · exact congrArg List.head? (List.cons.inj h).2.symm
  · simp at h
  · simp at h

end ComponentKit.Text
