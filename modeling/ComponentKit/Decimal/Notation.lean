import ComponentKit.Decimal.Shortest

/-!
# Floating-point numbers in decimal

A floating-point number is written with the fewest digits that read back as it (`Parts.toText`). Numbers from
0.0001 up to, not including, 10 ^ 16 are written out with a point, the others with an exponent of at least two
digits.
-/

namespace ComponentKit.Decimal

/-- A floating-point number of 64 bits by its parts. -/
inductive Parts where
  /-- Not a number. -/
  | nan
  /-- An infinity. -/
  | infinite (negative : Bool)
  /-- The number `m · 2 ^ q`. `narrow` says that the next smaller magnitude is half as far away as the
  next greater one. -/
  | finite (negative : Bool) (m : Nat) (q : Int) (narrow : Bool)
  deriving Repr

/-- The parts of the number that 64 bits encode. -/
def Parts.ofBits (bits : Nat) : Parts :=
  let leading := Nat.pow 2 52
  let negative := bits / Nat.pow 2 63 == 1
  let exponent : Nat := bits / leading % 2048
  let fraction : Nat := bits % leading
  if exponent = 2047 then (if fraction = 0 then .infinite negative else .nan)
  else if exponent = 0 then .finite negative fraction (-1074) false
  else
    .finite negative (leading + fraction) ((exponent : Int) - 1075) (fraction == 0 && 1 < exponent)

/-- The parts of a number. -/
def Parts.of (x : Float) : Parts :=
  .ofBits x.toBits.toNat

/-- The number as an integer, when it is finite and has no fraction. -/
def Parts.toInt? : Parts → Option Int
  | .finite negative m q _ =>
    let magnitude : Option Nat :=
      if 0 ≤ q then some (m * Nat.pow 2 q.toNat)
      else if m % Nat.pow 2 (-q).toNat = 0 then some (m / Nat.pow 2 (-q).toNat)
      else none
    magnitude.map fun n => if negative then -(n : Int) else (n : Int)
  | _ => none

/-- Whether the number is neither infinite nor missing. -/
def Parts.isFinite : Parts → Bool
  | .finite .. => true
  | _ => false

/-- The digits of `d` without the zeros at the end, and how many zeros those were. -/
def significant (d : Nat) : Text × Nat :=
  let digits := Text.ofNat d
  let zeros := (digits.reverse.takeWhile (· == '0')).length
  (digits.take (digits.length - zeros), zeros)

/-- The decimal `d · 10 ^ e`, which is positive, in the notation of its size. -/
def written (d : Nat) (e : Int) : Text :=
  let (digits, zeros) := significant d
  let point : Int := (digits.length : Int) + zeros + e
  let lead := point - 1
  if lead < -4 || 16 ≤ lead then
    let tail := digits.drop 1
    let sign : Text := if lead < 0 then "-" else "+"
    Text.concat [digits.take 1, if tail.isEmpty then [] else '.' :: tail, "e", sign,
      Text.ofNatPadded 2 lead.natAbs]
  else if point ≤ 0 then
    Text.concat ["0.", List.replicate point.natAbs '0', digits]
  else
    let whole := point.toNat
    let padded := digits ++ List.replicate (whole - digits.length) '0'
    let tail := padded.drop whole
    Text.concat [padded.take whole, ".", if tail.isEmpty then "0" else tail]

/-- The number in decimal. -/
def Parts.toText : Parts → Text
  | .nan => "nan"
  | .infinite negative => if negative then "-inf" else "inf"
  | .finite negative m q narrow =>
    let magnitude : Text :=
      if m = 0 then "0.0"
      else
        let (d, e) := shortest (.of m q narrow)
        written d e
    if negative then '-' :: magnitude else magnitude

/-- The number `digits · 10 ^ exponent`, rounded to the nearest floating-point number. Magnitudes
beyond the range are settled before any power is computed. -/
def roundToFloat (negative : Bool) (digits : Nat) (exponent : Int) : Float :=
  let size : Int := ((Text.ofNat digits).length : Int) + exponent
  let magnitude : Float :=
    if digits = 0 || size < -330 then 0.0
    else if 310 < size then 1.0 / 0.0
    else Float.ofScientific digits (exponent < 0) exponent.natAbs
  if negative then -magnitude else magnitude

end ComponentKit.Decimal
