import ComponentKit.Text.Utf8

/-!
# Encoding and decoding

Bytes that `decode` takes are the bytes of the text that they stand for: each character has one form only, as the
decoder takes no overlong forms and no surrogates. The other way round, what `encode` gives for a text is always
decoded, and to that text.
-/

namespace ComponentKit.Utf8

variable {a b c d low high : UInt8} {n pos : Nat} {bytes rest : Bytes} {text : Text}

/-! ## The bytes of a code point -/

theorem val_ofNat (h : n.isValidChar) : (Char.ofNat n).val.toNat = n := by
  rw [Char.ofNat, dif_pos h]
  rfl

theorem isValidChar_of_lt (h : n < 0xD800) : n.isValidChar :=
  .inl h

theorem isValidChar_of_le (hlow : 0xDFFF < n) (hhigh : n < 0x110000) : n.isValidChar :=
  .inr ⟨hlow, hhigh⟩

/-- A byte is settled by its number. -/
theorem ofNat_eq (h : n = a.toNat) : UInt8.ofNat n = a := by
  rw [h, UInt8.ofNat_toNat]

theorem encode_single (ha : a.toNat < 0x80) : String.utf8EncodeChar (Char.ofNat a.toNat) = [a] := by
  have hval := val_ofNat (isValidChar_of_lt (n := a.toNat) (by omega))
  simp only [String.utf8EncodeChar, hval, if_pos (show a.toNat ≤ 127 by omega), UInt8.ofNat_toNat]

theorem encode_two (ha : 0xC2 ≤ a.toNat) (ha' : a.toNat < 0xE0) (hb : 0x80 ≤ b.toNat)
    (hb' : b.toNat ≤ 0xBF) :
    String.utf8EncodeChar (Char.ofNat (a.toNat % 32 * 64 + payload b)) = [a, b] := by
  rw [payload]
  generalize hn : a.toNat % 32 * 64 + b.toNat % 64 = n
  have hval := val_ofNat (isValidChar_of_lt (n := n) (by omega))
  simp only [String.utf8EncodeChar, hval, if_neg (show ¬ n ≤ 127 by omega),
    if_pos (show n ≤ 2047 by omega), ofNat_eq (show n / 64 % 32 + 192 = a.toNat by omega),
    ofNat_eq (show n % 64 + 128 = b.toNat by omega)]

theorem encode_three (ha : 0xE0 ≤ a.toNat) (ha' : a.toNat < 0xF0) (hb : 0x80 ≤ b.toNat)
    (hb' : b.toNat ≤ 0xBF) (hc : 0x80 ≤ c.toNat) (hc' : c.toNat ≤ 0xBF)
    (hfirst : a.toNat = 0xE0 → 0xA0 ≤ b.toNat) (hlast : a.toNat = 0xED → b.toNat ≤ 0x9F) :
    String.utf8EncodeChar (Char.ofNat ((a.toNat % 16 * 64 + payload b) * 64 + payload c)) = [a, b, c] := by
  rw [payload, payload]
  -- the payloads make up one number, whose parts are cut out again by division
  generalize hn : (a.toNat % 16 * 64 + b.toNat % 64) * 64 + c.toNat % 64 = n
  have hvalid : n.isValidChar := by
    by_cases hlow : n < 0xD800
    · exact isValidChar_of_lt hlow
    · exact isValidChar_of_le (by omega) (by omega)
  have hval := val_ofNat hvalid
  simp only [String.utf8EncodeChar, hval, if_neg (show ¬ n ≤ 127 by omega),
    if_neg (show ¬ n ≤ 2047 by omega), if_pos (show n ≤ 65535 by omega),
    ofNat_eq (show n / 4096 % 16 + 224 = a.toNat by omega),
    ofNat_eq (show n / 64 % 64 + 128 = b.toNat by omega),
    ofNat_eq (show n % 64 + 128 = c.toNat by omega)]

theorem encode_four (ha : 0xF0 ≤ a.toNat) (ha' : a.toNat ≤ 0xF4) (hb : 0x80 ≤ b.toNat)
    (hb' : b.toNat ≤ 0xBF) (hc : 0x80 ≤ c.toNat) (hc' : c.toNat ≤ 0xBF) (hd : 0x80 ≤ d.toNat)
    (hd' : d.toNat ≤ 0xBF) (hfirst : a.toNat = 0xF0 → 0x90 ≤ b.toNat)
    (hlast : a.toNat = 0xF4 → b.toNat ≤ 0x8F) :
    String.utf8EncodeChar
      (Char.ofNat (((a.toNat % 8 * 64 + payload b) * 64 + payload c) * 64 + payload d)) = [a, b, c, d] := by
  rw [payload, payload, payload]
  -- as with three bytes; the bounds on the second one keep the number a code point
  generalize hn : ((a.toNat % 8 * 64 + b.toNat % 64) * 64 + c.toNat % 64) * 64 + d.toNat % 64 = n
  have hval := val_ofNat (isValidChar_of_le (n := n) (by omega) (by omega))
  simp only [String.utf8EncodeChar, hval, if_neg (show ¬ n ≤ 127 by omega),
    if_neg (show ¬ n ≤ 2047 by omega), if_neg (show ¬ n ≤ 65535 by omega),
    ofNat_eq (show n / 262144 % 8 + 240 = a.toNat by omega),
    ofNat_eq (show n / 4096 % 64 + 128 = b.toNat by omega),
    ofNat_eq (show n / 64 % 64 + 128 = c.toNat by omega),
    ofNat_eq (show n % 64 + 128 = d.toNat by omega)]

/-! ## First bytes -/

/-- What a byte that begins a character tells about itself and the byte behind it. -/
def Lead.Fits (a : UInt8) : Lead → Prop
  | .single => a.toNat < 0x80
  | .two => 0xC2 ≤ a.toNat ∧ a.toNat < 0xE0
  | .three low high => 0xE0 ≤ a.toNat ∧ a.toNat < 0xF0 ∧ 0x80 ≤ low.toNat ∧ high.toNat ≤ 0xBF ∧
    (a.toNat = 0xE0 → 0xA0 ≤ low.toNat) ∧ (a.toNat = 0xED → high.toNat ≤ 0x9F)
  | .four low high => 0xF0 ≤ a.toNat ∧ a.toNat ≤ 0xF4 ∧ 0x80 ≤ low.toNat ∧ high.toNat ≤ 0xBF ∧
    (a.toNat = 0xF0 → 0x90 ≤ low.toNat) ∧ (a.toNat = 0xF4 → high.toNat ≤ 0x8F)
  | .invalid => True

theorem Lead.fits_ofByte (a : UInt8) : (Lead.ofByte a).Fits a := by
  rw [Lead.ofByte]
  repeat' split
  -- each branch has the comparisons that led to it, as bounds on the number of the byte
  all_goals
    simp only [Fits, UInt8.lt_iff_toNat_lt, UInt8.toNat_ofNat, ← UInt8.toNat_inj] at *
    try omega

/-! ## Encoding what was decoded -/

theorem isContinuation_iff : isContinuation b = true ↔ 0x80 ≤ b.toNat ∧ b.toNat ≤ 0xBF := by
  simp [isContinuation, UInt8.le_iff_toNat_le]

/-- A character in front of what is decoded is encoded in front of it. -/
theorem encode_of_map {character : Char}
    (hrest : ∀ text, decodeFrom pos rest = .ok text → encode text = rest)
    (hcharacter : String.utf8EncodeChar character = bytes)
    (h : (character :: ·) <$> decodeFrom pos rest = .ok text) : encode text = bytes ++ rest := by
  cases hr : decodeFrom pos rest with
  | error fault => simp [hr, Functor.map, Except.map] at h
  | ok more =>
    obtain rfl : character :: more = text := by simpa [hr, Functor.map, Except.map] using h
    rw [encode, List.flatMap_cons, hcharacter, ← hrest more hr]
    rfl

theorem isBetween_iff : (low ≤ b && b ≤ high) = true ↔ low.toNat ≤ b.toNat ∧ b.toNat ≤ high.toNat := by
  simp [UInt8.le_iff_toNat_le]

theorem encode_of_decodeFrom (h : decodeFrom pos bytes = .ok text) : encode text = bytes := by
  fun_induction decodeFrom pos bytes generalizing text with
  | case1 pos =>
    obtain rfl := Except.ok.inj h
    rfl
  | case2 pos a rest hlead ih =>
    have hfits : Lead.single.Fits a := hlead ▸ Lead.fits_ofByte a
    exact encode_of_map (fun _ => ih) (encode_single hfits) h
  | case5 pos a hlead b rest hb ih =>
    have hfits : Lead.two.Fits a := hlead ▸ Lead.fits_ofByte a
    rw [isContinuation_iff] at hb
    exact encode_of_map (fun _ => ih) (encode_two hfits.1 hfits.2 hb.1 hb.2) h
  | case9 pos a low high hlead b hb c rest hc ih =>
    have hfits : (Lead.three low high).Fits a := hlead ▸ Lead.fits_ofByte a
    obtain ⟨ha, ha', hlow, hhigh, hfirst, hlast⟩ := hfits
    rw [isBetween_iff] at hb
    rw [isContinuation_iff] at hc
    exact encode_of_map (fun _ => ih) (encode_three ha ha' (by omega) (by omega) hc.1 hc.2
      (fun h => Nat.le_trans (hfirst h) hb.1) fun h => Nat.le_trans hb.2 (hlast h)) h
  | case15 pos a low high hlead b hb c hc d rest hd ih =>
    have hfits : (Lead.four low high).Fits a := hlead ▸ Lead.fits_ofByte a
    obtain ⟨ha, ha', hlow, hhigh, hfirst, hlast⟩ := hfits
    rw [isBetween_iff] at hb
    rw [isContinuation_iff] at hc hd
    exact encode_of_map (fun _ => ih) (encode_four ha ha' (by omega) (by omega) hc.1 hc.2 hd.1 hd.2
      (fun h => Nat.le_trans (hfirst h) hb.1) fun h => Nat.le_trans hb.2 (hlast h)) h
  -- in all other cases the bytes begin no character
  | _ => cases h

/-- Bytes that are decoded are those of the text. -/
theorem encode_of_decode (h : decode bytes = .ok text) : encode text = bytes :=
  encode_of_decodeFrom h

/-! ## Decoding what was encoded -/

theorem ofByte_single (h : a.toNat < 0x80) : Lead.ofByte a = .single := by
  simp only [Lead.ofByte, UInt8.lt_iff_toNat_lt, UInt8.reduceToNat]
  rw [if_pos (by omega)]

theorem ofByte_two (h : 0xC2 ≤ a.toNat) (h' : a.toNat < 0xE0) : Lead.ofByte a = .two := by
  simp only [Lead.ofByte, UInt8.lt_iff_toNat_lt, UInt8.reduceToNat]
  rw [if_neg (by omega), if_neg (by omega), if_pos (by omega)]

theorem ofByte_three (h : 0xE0 ≤ a.toNat) (h' : a.toNat < 0xF0) : Lead.ofByte a =
    .three (if a.toNat = 0xE0 then 0xA0 else 0x80) (if a.toNat = 0xED then 0x9F else 0xBF) := by
  simp only [Lead.ofByte, UInt8.lt_iff_toNat_lt, ← UInt8.toNat_inj, UInt8.reduceToNat]
  (repeat' split) <;> first | rfl | omega

theorem ofByte_four (h : 0xF0 ≤ a.toNat) (h' : a.toNat ≤ 0xF4) : Lead.ofByte a =
    .four (if a.toNat = 0xF0 then 0x90 else 0x80) (if a.toNat = 0xF4 then 0x8F else 0xBF) := by
  simp only [Lead.ofByte, UInt8.lt_iff_toNat_lt, ← UInt8.toNat_inj, UInt8.reduceToNat]
  (repeat' split) <;> first | rfl | omega

/-- The second byte of a character lies in the range that its first byte leaves. -/
theorem isBetween_of_first {p q : Prop} [Decidable p] [Decidable q] (hb : 0x80 ≤ b.toNat) (hb' : b.toNat ≤ 0xBF)
    (hfirst : p → low.toNat ≤ b.toNat) (hlast : q → b.toNat ≤ high.toNat) :
    ((if p then low else 0x80) ≤ b && b ≤ (if q then high else 0xBF)) = true := by
  rw [isBetween_iff]
  constructor
  · split
    · exact hfirst ‹_›
    · exact hb
  · split
    · exact hlast ‹_›
    · exact hb'

theorem decodeFrom_two (ha : 0xC2 ≤ a.toNat) (ha' : a.toNat < 0xE0) (hb : 0x80 ≤ b.toNat)
    (hb' : b.toNat ≤ 0xBF) : decodeFrom pos (a :: b :: rest)
      = (Char.ofNat (a.toNat % 32 * 64 + payload b) :: ·) <$> decodeFrom (pos + 2) rest := by
  rw [decodeFrom.eq_def]
  simp only [ofByte_two ha ha', if_pos (isContinuation_iff.mpr ⟨hb, hb'⟩)]

theorem decodeFrom_three (ha : 0xE0 ≤ a.toNat) (ha' : a.toNat < 0xF0) (hb : 0x80 ≤ b.toNat)
    (hb' : b.toNat ≤ 0xBF) (hc : 0x80 ≤ c.toNat) (hc' : c.toNat ≤ 0xBF)
    (hfirst : a.toNat = 0xE0 → 0xA0 ≤ b.toNat) (hlast : a.toNat = 0xED → b.toNat ≤ 0x9F) :
    decodeFrom pos (a :: b :: c :: rest)
      = (Char.ofNat ((a.toNat % 16 * 64 + payload b) * 64 + payload c) :: ·)
          <$> decodeFrom (pos + 3) rest := by
  -- the bounds on the second byte are those of its first byte
  have hbetween : ((if a.toNat = 0xE0 then 0xA0 else 0x80 : UInt8) ≤ b &&
      b ≤ (if a.toNat = 0xED then 0x9F else 0xBF : UInt8)) = true := isBetween_of_first hb hb' hfirst hlast
  rw [decodeFrom.eq_def]
  simp only [ofByte_three ha ha', if_pos hbetween, if_pos (isContinuation_iff.mpr ⟨hc, hc'⟩)]

theorem decodeFrom_four (ha : 0xF0 ≤ a.toNat) (ha' : a.toNat ≤ 0xF4) (hb : 0x80 ≤ b.toNat)
    (hb' : b.toNat ≤ 0xBF) (hc : 0x80 ≤ c.toNat) (hc' : c.toNat ≤ 0xBF) (hd : 0x80 ≤ d.toNat)
    (hd' : d.toNat ≤ 0xBF) (hfirst : a.toNat = 0xF0 → 0x90 ≤ b.toNat)
    (hlast : a.toNat = 0xF4 → b.toNat ≤ 0x8F) : decodeFrom pos (a :: b :: c :: d :: rest)
      = (Char.ofNat (((a.toNat % 8 * 64 + payload b) * 64 + payload c) * 64 + payload d) :: ·)
          <$> decodeFrom (pos + 4) rest := by
  -- the bounds on the second byte are those of its first byte
  have hbetween : ((if a.toNat = 0xF0 then 0x90 else 0x80 : UInt8) ≤ b &&
      b ≤ (if a.toNat = 0xF4 then 0x8F else 0xBF : UInt8)) = true := isBetween_of_first hb hb' hfirst hlast
  rw [decodeFrom.eq_def]
  simp only [ofByte_four ha ha', if_pos hbetween, if_pos (isContinuation_iff.mpr ⟨hc, hc'⟩),
    if_pos (isContinuation_iff.mpr ⟨hd, hd'⟩)]

theorem toNat_ofNat_of_lt (h : n < 256) : (UInt8.ofNat n).toNat = n := by
  rw [UInt8.toNat_ofNat']
  omega

/-- What was encoded is decoded as it was. -/
theorem decodeFrom_encodeChar (character : Char) (pos : Nat) (rest : Bytes) :
    decodeFrom pos (String.utf8EncodeChar character ++ rest) = (character :: ·) <$>
      decodeFrom (pos + (String.utf8EncodeChar character).length) rest := by
  have hcharacter : Char.ofNat character.val.toNat = character := Char.ofNat_toNat character
  have hvalid : character.val.toNat.isValidChar := character.valid
  simp only [String.utf8EncodeChar]
  generalize character.val.toNat = n at *
  -- each payload is cut out of the number by division, which is undone by multiplying
  have hbyte : ∀ k, k < 256 → (UInt8.ofNat k).toNat = k := fun k => toNat_ofNat_of_lt
  split
  · have ha := hbyte n (by omega)
    rw [List.singleton_append, decodeFrom.eq_def]
    simp only [ofByte_single (a := UInt8.ofNat n) (by omega), ha, hcharacter, List.length_singleton]
  split
  · have ha := hbyte (n / 64 % 32 + 192) (by omega)
    have hb := hbyte (n % 64 + 128) (by omega)
    have hnumber : (n / 64 % 32 + 192) % 32 * 64 + (n % 64 + 128) % 64 = n := by omega
    rw [List.cons_append, List.singleton_append,
      decodeFrom_two (by omega) (by omega) (by omega) (by omega)]
    simp only [payload, ha, hb, hnumber, hcharacter, List.length_cons, List.length_nil]
  split
  · have ha := hbyte (n / 4096 % 16 + 224) (by omega)
    have hb := hbyte (n / 64 % 64 + 128) (by omega)
    have hc := hbyte (n % 64 + 128) (by omega)
    have hnumber : ((n / 4096 % 16 + 224) % 16 * 64 + (n / 64 % 64 + 128) % 64) * 64
        + (n % 64 + 128) % 64 = n := by omega
    -- below and above the surrogates the bytes fit for different reasons
    rcases hvalid with hvalid | hvalid
    all_goals
      rw [List.cons_append, List.cons_append, List.singleton_append,
        decodeFrom_three (by omega) (by omega) (by omega) (by omega) (by omega) (by omega) (by omega)
          (by omega)]
      simp only [payload, ha, hb, hc, hnumber, hcharacter, List.length_cons, List.length_nil]
  · have ha := hbyte (n / 262144 % 8 + 240) (by omega)
    have hb := hbyte (n / 4096 % 64 + 128) (by omega)
    have hc := hbyte (n / 64 % 64 + 128) (by omega)
    have hd := hbyte (n % 64 + 128) (by omega)
    have hnumber : (((n / 262144 % 8 + 240) % 8 * 64 + (n / 4096 % 64 + 128) % 64) * 64
        + (n / 64 % 64 + 128) % 64) * 64 + (n % 64 + 128) % 64 = n := by omega
    have hbound : n < 0x110000 := by
      rcases hvalid with hvalid | hvalid <;> omega
    rw [List.cons_append, List.cons_append, List.cons_append, List.singleton_append,
      decodeFrom_four (by omega) (by omega) (by omega) (by omega) (by omega) (by omega) (by omega)
        (by omega) (by omega) (by omega)]
    simp only [payload, ha, hb, hc, hd, hnumber, hcharacter, List.length_cons, List.length_nil]

theorem decodeFrom_encode (text : Text) (pos : Nat) : decodeFrom pos (encode text) = .ok text := by
  induction text generalizing pos with
  | nil => rfl
  | cons c text ih =>
    rw [encode, List.flatMap_cons, decodeFrom_encodeChar]
    rw [encode] at ih
    rw [ih]
    rfl

/-- The bytes of a text are decoded to the text. -/
theorem decode_encode (text : Text) : decode (encode text) = .ok text :=
  decodeFrom_encode text 0

end ComponentKit.Utf8
