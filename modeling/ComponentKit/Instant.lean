import ComponentKit.Text.Basic

/-!
# Points in time

A point in universal time, as the day that a component's header names (`date`) and as a part of a file name
(`stamp`).
-/

namespace ComponentKit

/-- A point in universal time. -/
structure Instant where
  year : Nat
  month : Nat
  day : Nat
  hour : Nat
  minute : Nat
  second : Nat
  microsecond : Nat
  deriving DecidableEq, Repr

namespace Instant

open Text

/-- The day, in figures with hyphens between them. -/
def date (instant : Instant) : Text :=
  concat [ofNatPadded 4 instant.year, "-", ofNatPadded 2 instant.month, "-",
    ofNatPadded 2 instant.day]

/-- The instant to the millisecond, rounded down, in characters that any file name may have. -/
def stamp (instant : Instant) : Text :=
  concat [date instant, "T", ofNatPadded 2 instant.hour, "-", ofNatPadded 2 instant.minute, "-",
    ofNatPadded 2 instant.second, "-", ofNatPadded 3 (instant.microsecond / 1000), "Z"]

end Instant

end ComponentKit
