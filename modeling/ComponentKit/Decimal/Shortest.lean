import ComponentKit.Text.Basic

/-!
# Shortest decimals

A binary fraction `m · 2 ^ q` stands for every real number that rounds to it. Its shortest decimal is
the one with the fewest digits among those reals, and the nearest to it of that many digits.
-/

namespace ComponentKit.Decimal

/-! ## The interval of a binary fraction -/

/-- A positive binary fraction `m · 2 ^ q` with the reals that round to it, all in units of
`2 ^ (q - 2)`: the fraction is `4 * m` units, the reals lie between `low` and `high`, and the ends
belong to it when `closed`. -/
structure Interval where
  /-- The exponent of the unit. -/
  unit : Int
  /-- The lower end. -/
  low : Nat
  /-- The fraction itself. -/
  value : Nat
  /-- The upper end. -/
  high : Nat
  /-- Whether the ends round to the fraction. -/
  closed : Bool
  deriving Repr

/-- The interval of `m · 2 ^ q`. Below a power of two the neighbouring fraction is half as far away,
unless `m` is at the bottom of the exponent range. -/
def Interval.of (m : Nat) (q : Int) (narrow : Bool) : Interval :=
  ⟨q - 2, if narrow then 4 * m - 1 else 4 * m - 2, 4 * m, 4 * m + 2, m % 2 == 0⟩

/-- Compares `a · 2 ^ unit` with `d · 10 ^ e`. -/
def compareWith (unit : Int) (a : Nat) (d : Nat) (e : Int) : Ordering :=
  compare (a * Nat.pow 2 unit.toNat * Nat.pow 10 (-e).toNat)
    (d * Nat.pow 10 e.toNat * Nat.pow 2 (-unit).toNat)

/-- Whether `d · 10 ^ e` rounds to the fraction of the interval. -/
def Interval.holds (i : Interval) (d : Nat) (e : Int) : Bool :=
  match compareWith i.unit i.low d e, compareWith i.unit i.high d e with
  | .lt, .gt => true
  | .eq, _ => i.closed
  | _, .eq => i.closed
  | _, _ => false

/-! ## The search -/

/-- The whole part of `a · 2 ^ unit / 10 ^ e`. -/
def quotient (unit : Int) (a : Nat) (e : Int) : Nat :=
  (a * Nat.pow 2 unit.toNat * Nat.pow 10 (-e).toNat)
    / (Nat.pow 10 e.toNat * Nat.pow 2 (-unit).toNat)

/-- The exponent of the leading digit of the value: the greatest `e`, within the range of binary
fractions of 64 bits, with `10 ^ e` at most the value. -/
def leadingExponent (i : Interval) : Int :=
  let candidates := (List.range 640).map fun k : Nat => (310 : Int) - (k : Int)
  (candidates.find? fun e => 0 < quotient i.unit i.value e).getD (-330)

/-- A decimal of at most `digits` digits that rounds to the fraction, as `d · 10 ^ e`. Only the two
neighbours of the value on that grid can; the nearer one is taken, of two equally near the even. -/
def onGrid (i : Interval) (lead : Int) (digits : Nat) : Option (Nat × Int) :=
  let e := lead - (digits : Int) + 1
  let below := quotient i.unit i.value e
  let above := below + 1
  let belowNearer :=
    match compareWith (i.unit - 1) (4 * i.value) (below + above) e with
    | .lt => true
    | .eq => below % 2 == 0
    | .gt => false
  match i.holds below e, i.holds above e with
  | true, true => some (if belowNearer then below else above, e)
  | true, false => some (below, e)
  | false, true => some (above, e)
  | false, false => none

/-- The shortest decimal `d · 10 ^ e` that rounds to the fraction; 17 digits always suffice. -/
def shortest (i : Interval) : Nat × Int :=
  let lead := leadingExponent i
  ((List.range 17).findSome? fun k => onGrid i lead (k + 1)).getD (0, 0)

end ComponentKit.Decimal
