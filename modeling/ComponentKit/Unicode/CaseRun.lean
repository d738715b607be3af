/-!
# Runs of a case mapping

Most letters map to the other case by a distance that whole stretches of the alphabet share, so a mapping is
written as a list of such stretches, each a `CaseRun`.
-/

namespace ComponentKit.Unicode

/-- Every `step`-th code point from `first` to `last` maps to the one `shift` away from it. -/
structure CaseRun where
  /-- The first code point of the run. -/
  first : Nat
  /-- The last code point of the run. -/
  last : Nat
  /-- The distance between neighbours in the run. -/
  step : Nat
  /-- The distance from a code point to its image. -/
  shift : Int

namespace CaseRun

/-- Whether a code point belongs to the run. -/
def contains (run : CaseRun) (n : Nat) : Bool :=
  run.first ≤ n && n ≤ run.last && (n - run.first) % run.step == 0

/-- The image of a character under the first run that contains it; a character in none stays. -/
def shiftIn (runs : List CaseRun) (c : Char) : Char :=
  match runs.find? (·.contains c.toNat) with
  | some run => Char.ofNat (c.toNat + run.shift).toNat
  | none => c

end CaseRun

end ComponentKit.Unicode
