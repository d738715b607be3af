/-!
# Text

A `Text` is a list of characters, so that an offset into it is a plain index and an edit is a concatenation. This
module finds one text in another (`indexOf?`, `lastIndexOf?`) and takes texts apart; all offsets count characters.
-/

namespace ComponentKit

/-- A piece of text, as its characters in order. -/
abbrev Text := List Char

/-- String literals stand for texts. -/
instance : Coe String Text := ⟨String.toList⟩

namespace Text

/-! ## Searching -/

/-- The offset of the first occurrence of `needle`. -/
def indexOf? (needle : Text) : Text → Option Nat
  | [] => if needle.isEmpty then some 0 else none
  | c :: rest =>
    if needle.isPrefixOf (c :: rest) then some 0 else (indexOf? needle rest).map (· + 1)

/-- The offset of the last occurrence of `needle`. -/
def lastIndexOf? (needle : Text) : Text → Option Nat
  | [] => if needle.isEmpty then some 0 else none
  | c :: rest =>
    match lastIndexOf? needle rest with
    | some i => some (i + 1)
    | none => if needle.isPrefixOf (c :: rest) then some 0 else none

/-- Whether `needle` occurs in `text`. -/
def occursIn (needle text : Text) : Bool :=
  (indexOf? needle text).isSome

/-- Whether `text` ends with `ending`. -/
def endsWith (text ending : Text) : Bool :=
  ending.isSuffixOf text

/-- The text after `lead`, when it starts with `lead`. -/
def dropLead? : (lead text : Text) → Option Text
  | [], text => some text
  | _ :: _, [] => none
  | a :: lead, c :: text => if a = c then dropLead? lead text else none

/-- What follows `lead` is what is left of the text. -/
theorem dropLead?_eq_some_iff {lead text rest : Text} :
    dropLead? lead text = some rest ↔ text = lead ++ rest := by
  induction lead generalizing text with
  | nil => simp [dropLead?]
  | cons a lead ih =>
    cases text with
    | nil => simp [dropLead?]
    | cons c text =>
      by_cases h : a = c
      · subst h; simp [dropLead?, ih]
      · simp [dropLead?, h, Ne.symm h]

/-! ## Taking apart and putting together -/

/-- The parts between the occurrences of `separator`; there is always at least one. -/
def splitOn (separator : Char) : Text → List Text
  | [] => [[]]
  | c :: rest =>
    if c = separator then [] :: splitOn separator rest
    else match splitOn separator rest with
      | part :: parts => (c :: part) :: parts
      | [] => [[c]]

/-- The parts one after another. -/
def concat (parts : List Text) : Text :=
  parts.flatten

/-- The parts with `separator` between neighbours. -/
def join (separator : Text) (parts : List Text) : Text :=
  (parts.intersperse separator).flatten

/-- The text with every `target` replaced. -/
def replaceChar (target : Char) (replacement : Text) (text : Text) : Text :=
  text.flatMap fun c => if c = target then replacement else [c]

/-- The text with `inserted` put in at `offset`. -/
def insertAt (offset : Nat) (inserted text : Text) : Text :=
  text.take offset ++ inserted ++ text.drop offset

/-- The characters of `text` from `start` up to, not including, `stop`. -/
def slice (start stop : Nat) (text : Text) : Text :=
  (text.take stop).drop start

/-- A number in decimal digits. -/
def ofNat (n : Nat) : Text :=
  (Nat.repr n).toList

/-- A number in decimal digits, after a minus sign when it is negative. -/
def ofInt (n : Int) : Text :=
  if n < 0 then '-' :: ofNat n.natAbs else ofNat n.natAbs

/-- The number in decimal, filled up with zeros to at least `places` digits. -/
def ofNatPadded (places n : Nat) : Text :=
  let digits := ofNat n
  List.replicate (places - digits.length) '0' ++ digits

end Text

end ComponentKit
