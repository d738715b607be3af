/-!
# Sets of code points

A `CodePointSet` is a set of characters as the sorted list of its boundaries, which is how the classes of the
Unicode character database are written down in this folder.
-/

namespace ComponentKit.Unicode

/-- Whether `n` lies in the set that starts at the first number, ends before the second, starts again
at the third, and so on. -/
def withinBoundaries : List Nat → Nat → Bool
  | [], _ => false
  | [start], n => start ≤ n
  | start :: stop :: rest, n =>
    if n < start then false else if n < stop then true else withinBoundaries rest n

/-- A set of characters, given by the sorted code points at which membership changes. -/
structure CodePointSet where
  /-- The code points at which membership changes, the first one being the least member. -/
  boundaries : List Nat

namespace CodePointSet

/-- Membership of a character. -/
def contains (s : CodePointSet) (c : Char) : Bool :=
  withinBoundaries s.boundaries c.toNat

end CodePointSet

end ComponentKit.Unicode
