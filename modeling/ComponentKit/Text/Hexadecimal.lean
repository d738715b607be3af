import ComponentKit.Text.Basic

/-!
# Hexadecimal

Numbers in hexadecimal digits, as escapes write code points: `hexDigits` writes them and `hexUnit?` reads four.
-/

namespace ComponentKit.Text

/-! ## Writing -/

/-- The digit of a value below sixteen, in lower case. -/
def hexDigit (n : Nat) : Char :=
  if n < 10 then Char.ofNat (0x30 + n) else Char.ofNat (0x57 + n)

/-- The last `places` hexadecimal digits of a number. -/
def hexDigits : (places n : Nat) → Text
  | 0, _ => []
  | places + 1, n => hexDigits places (n / 16) ++ [hexDigit (n % 16)]

/-! ## Reading -/

/-- The value of a hexadecimal digit. -/
def hexValue? (c : Char) : Option Nat :=
  if c.isDigit then some (c.toNat - 0x30)
  else if 'a' ≤ c && c ≤ 'f' then some (c.toNat - 0x57)
  else if 'A' ≤ c && c ≤ 'F' then some (c.toNat - 0x37)
  else none

/-- The number that the first four characters write in hexadecimal. -/
def hexUnit? : Text → Option Nat
  | a :: b :: c :: d :: _ => do
    return (((← hexValue? a) * 16 + (← hexValue? b)) * 16 + (← hexValue? c)) * 16 + (← hexValue? d)
  | _ => none

end ComponentKit.Text
