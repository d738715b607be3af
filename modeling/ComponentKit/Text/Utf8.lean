import ComponentKit.Text.Quoted

/-!
# UTF-8

`Bytes` of a file and the text they stand for. `decode` stops at the first byte sequence that `encode` never writes
and says where it stands and what is wrong with it.
-/

namespace ComponentKit

/-- The content of a file. -/
abbrev Bytes := List UInt8

namespace Utf8

/-- The bytes of a text. -/
def encode (text : Text) : Bytes :=
  text.flatMap String.utf8EncodeChar

/-- What is wrong with a byte sequence. -/
inductive Defect where
  /-- No character starts with this byte. -/
  | invalidStart
  /-- The character that was started does not go on with this byte. -/
  | invalidContinuation
  /-- The bytes end inside a character. -/
  | unexpectedEnd
  deriving DecidableEq, Repr

/-- A byte sequence that cannot be decoded. -/
structure Fault where
  /-- The offset of the first byte of the sequence. -/
  position : Nat
  /-- The first byte. -/
  byte : UInt8
  /-- How many bytes could have belonged to one character. -/
  length : Nat
  /-- What is wrong. -/
  defect : Defect
  deriving DecidableEq, Repr

/-- Whether a byte can follow the first byte of a character. -/
def isContinuation (b : UInt8) : Bool :=
  0x80 ≤ b && b ≤ 0xBF

/-- How a byte begins a character: the number of bytes that follow, and the range of the first of
them, which excludes overlong forms, surrogates and numbers beyond the last code point. -/
inductive Lead where
  /-- A character of one byte. -/
  | single
  /-- One byte follows. -/
  | two
  /-- Two bytes follow, the first of them in the given range. -/
  | three (low high : UInt8)
  /-- Three bytes follow, the first of them in the given range. -/
  | four (low high : UInt8)
  /-- No character starts like this. -/
  | invalid
  deriving DecidableEq, Repr

/-- The role of a byte at the start of a character. -/
def Lead.ofByte (b : UInt8) : Lead :=
  if b < 0x80 then .single
  else if b < 0xC2 then .invalid
  else if b < 0xE0 then .two
  else if b = 0xE0 then .three 0xA0 0xBF
  else if b = 0xED then .three 0x80 0x9F
  else if b < 0xF0 then .three 0x80 0xBF
  else if b = 0xF0 then .four 0x90 0xBF
  else if b < 0xF4 then .four 0x80 0xBF
  else if b = 0xF4 then .four 0x80 0x8F
  else .invalid

/-- The low six bits of a byte. -/
def payload (b : UInt8) : Nat :=
  b.toNat % 64

/-- The text of the bytes that stand at offset `pos`. -/
def decodeFrom (pos : Nat) : Bytes → Except Fault Text
  | [] => .ok []
  | a :: rest =>
    match Lead.ofByte a with
    | .single => (Char.ofNat a.toNat :: ·) <$> decodeFrom (pos + 1) rest
    | .invalid => .error ⟨pos, a, 1, .invalidStart⟩
    | .two =>
      match rest with
      | [] => .error ⟨pos, a, 1, .unexpectedEnd⟩
      | b :: rest =>
        if isContinuation b then
          (Char.ofNat (a.toNat % 32 * 64 + payload b) :: ·) <$> decodeFrom (pos + 2) rest
        else .error ⟨pos, a, 1, .invalidContinuation⟩
    | .three low high =>
      match rest with
      | [] => .error ⟨pos, a, 1, .unexpectedEnd⟩
      | b :: rest =>
        if low ≤ b && b ≤ high then
          match rest with
          | [] => .error ⟨pos, a, 2, .unexpectedEnd⟩
          | c :: rest =>
            if isContinuation c then
              (Char.ofNat ((a.toNat % 16 * 64 + payload b) * 64 + payload c) :: ·)
                <$> decodeFrom (pos + 3) rest
            else .error ⟨pos, a, 2, .invalidContinuation⟩
        else .error ⟨pos, a, 1, .invalidContinuation⟩
    | .four low high =>
      match rest with
      | [] => .error ⟨pos, a, 1, .unexpectedEnd⟩
      | b :: rest =>
        if low ≤ b && b ≤ high then
          match rest with
          | [] => .error ⟨pos, a, 2, .unexpectedEnd⟩
          | c :: rest =>
            if isContinuation c then
              match rest with
              | [] => .error ⟨pos, a, 3, .unexpectedEnd⟩
              | d :: rest =>
                if isContinuation d then
                  (Char.ofNat
                    (((a.toNat % 8 * 64 + payload b) * 64 + payload c) * 64 + payload d) :: ·)
                    <$> decodeFrom (pos + 4) rest
                else .error ⟨pos, a, 3, .invalidContinuation⟩
            else .error ⟨pos, a, 2, .invalidContinuation⟩
        else .error ⟨pos, a, 1, .invalidContinuation⟩

/-- The text of the bytes, read by `decodeFrom` from their start. -/
def decode (bytes : Bytes) : Except Fault Text :=
  decodeFrom 0 bytes

namespace Defect

/-- The wording of a defect. -/
def message : Defect → Text
  | invalidStart => "invalid start byte"
  | invalidContinuation => "invalid continuation byte"
  | unexpectedEnd => "unexpected end of data"

end Defect

/-- The message for bytes that cannot be decoded. -/
def Fault.message (fault : Fault) : Text :=
  let place :=
    if fault.length = 1 then
      Text.concat ["byte 0x", Text.hexDigits 2 fault.byte.toNat, " in position ",
        Text.ofNat fault.position]
    else
      Text.concat ["bytes in position ", Text.ofNat fault.position, "-",
        Text.ofNat (fault.position + fault.length - 1)]
  Text.concat ["'utf-8' codec can't decode ", place, ": ", fault.defect.message]

end Utf8

end ComponentKit
