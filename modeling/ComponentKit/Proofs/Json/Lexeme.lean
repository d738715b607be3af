import ComponentKit.Json.Printer
import ComponentKit.Json.Token
import ComponentKit.Proofs.Text.Figures
import ComponentKit.Proofs.Text.Span

/-!
# Lexemes that were printed

A printed text is read back character by character: what `printCharacter` gives for a character is read as that
character, whatever comes behind it. A printed number is read back where nothing behind it could belong to it
(`EndsNumber`), and so is a word.
-/

namespace ComponentKit.Json

open Text

variable {dialect : Dialect} {start offset count n : Nat} {rest text : Text} {c d : Char}

/-! ## Hexadecimal figures -/

theorem hexValue?_hexDigit (h : n < 16) : hexValue? (hexDigit n) = some n := by
  have hall : ∀ k < 16, hexValue? (hexDigit k) = some k := by decide
  exact hall n h

theorem hexDigits_four (n : Nat) :
    hexDigits 4 n = [hexDigit (n / 16 / 16 / 16 % 16), hexDigit (n / 16 / 16 % 16), hexDigit (n / 16 % 16),
      hexDigit (n % 16)] := rfl

/-- Four figures are enough for what four figures can write. -/
theorem hexUnit?_hexDigits (h : n < 0x10000) (rest : Text) : hexUnit? (hexDigits 4 n ++ rest) = some n := by
  have hfigure (k : Nat) : hexValue? (hexDigit (k % 16)) = some (k % 16) :=
    hexValue?_hexDigit (Nat.mod_lt k (by decide))
  rw [hexDigits_four]
  simp only [List.cons_append, List.nil_append, hexUnit?, hfigure, Option.bind_eq_bind, Option.bind_some,
    Option.pure_def, Option.some.injEq]
  omega

/-! ## Characters of a text -/

/-- A short escape is read as its character. -/
theorem readEscape_short (hne : c ≠ 'u') (h : shortEscape? c = some d) (rest : Text) :
    readEscape dialect start offset (c :: rest) = .ok (d, 1) := by
  rw [readEscape.eq_def]
  split
  · rename_i heq
    cases heq
  · rename_i heq
    exact absurd (List.cons.inj heq).1 hne
  · rename_i heq
    obtain ⟨rfl, rfl⟩ := List.cons.inj heq
    rw [h]

/-- An escape by code unit is read as the character with that number, if it is not half of one. -/
theorem readEscape_unit (h : n < 0xD800) (hrest : rest ≠ []) :
    readEscape dialect start offset ('u' :: (hexDigits 4 n ++ rest)) = .ok (Char.ofNat n, 5) := by
  have hlength : ¬ (hexDigits 4 n ++ rest).length ≤ 4 := by
    have := List.length_pos_iff.mpr hrest
    simp only [hexDigits_four, List.length_append, List.length_cons, List.length_nil]
    omega
  -- below the surrogates a number is no half of a pair, so the next escape is left alone
  have hhigh : isHighSurrogate n = false := by
    simp [isHighSurrogate]
    omega
  have hlow : isLowSurrogate n = false := by
    simp [isLowSurrogate]
    omega
  have hunit : unitCharacter dialect offset n = .ok (Char.ofNat n) := by
    simp [unitCharacter, hhigh, hlow]
  simp only [readEscape, if_neg hlength, hexUnit?_hexDigits (show n < 0x10000 by omega), hhigh, hunit,
    Bool.false_and, Bool.false_eq_true, if_false]
  split <;> rfl

/-- Behind a backslash the escape is read and then the rest of the text. -/
theorem readText_escape {taken : Nat} (hescape : readEscape dialect start offset text = .ok (d, taken))
    (hread : readText dialect start (offset + 1 + taken) (text.drop taken) = .ok (rest, count)) :
    readText dialect start offset ('\\' :: text) = .ok (d :: rest, 1 + taken + count) := by
  rw [readText]
  simp [hescape, hread, bind, Except.bind, pure, Except.pure]

/-- A character that stands for itself. -/
theorem readText_plain (hquote : c ≠ '"') (hbackslash : c ≠ '\\') (hcontrol : ¬ c.toNat < 0x20)
    (hread : readText dialect start (offset + 1) text = .ok (rest, count)) :
    readText dialect start offset (c :: text) = .ok (c :: rest, 1 + count) := by
  rw [readText]
  simp [hquote, hbackslash, hcontrol, hread, bind, Except.bind, pure, Except.pure]

/-- What a character was printed as is read as that character, as long as the text goes on. -/
theorem readText_printCharacter (c : Char) (htext : text ≠ [])
    (hread : readText dialect start (offset + (printCharacter c).length) text = .ok (rest, count)) :
    readText dialect start offset (printCharacter c ++ text)
      = .ok (c :: rest, (printCharacter c).length + count) := by
  have hshort (mark : Char) (hne : mark ≠ 'u') (hmark : shortEscape? mark = some c)
      (hprint : printCharacter c = ['\\', mark]) :
      readText dialect start offset (printCharacter c ++ text)
        = .ok (c :: rest, (printCharacter c).length + count) := by
    rw [hprint] at hread ⊢
    exact readText_escape (readEscape_short hne hmark text) hread
  -- the characters that have an escape of their own, one by one
  by_cases hquote : c = '"'
  · subst hquote
    exact hshort '"' (by decide) rfl rfl
  by_cases hbackslash : c = '\\'
  · subst hbackslash
    exact hshort '\\' (by decide) rfl rfl
  by_cases hback : c = '\x08'
  · subst hback
    exact hshort 'b' (by decide) rfl rfl
  by_cases hform : c = '\x0c'
  · subst hform
    exact hshort 'f' (by decide) rfl rfl
  by_cases hfeed : c = '\n'
  · subst hfeed
    exact hshort 'n' (by decide) rfl rfl
  by_cases hreturn : c = '\r'
  · subst hreturn
    exact hshort 'r' (by decide) rfl rfl
  by_cases htab : c = '\t'
  · subst htab
    exact hshort 't' (by decide) rfl rfl
  -- no short escape: the character stands for itself unless it is a control character
  have hprint : printCharacter c = if c.toNat < 0x20 then ['\\', 'u'] ++ hexDigits 4 c.toNat else [c] := by
    rw [printCharacter.eq_def]
    split <;> first | contradiction | rfl
  rw [hprint] at hread ⊢
  split at hread
  · rename_i hcontrol
    rw [if_pos hcontrol, List.append_assoc]
    have hescape : readEscape dialect start offset ('u' :: (hexDigits 4 c.toNat ++ text))
        = .ok (Char.ofNat c.toNat, 5) := readEscape_unit (by omega) htext
    rw [Char.ofNat_toNat] at hescape
    refine readText_escape hescape ?_
    rw [hexDigits_four] at hread ⊢
    exact hread
  · rename_i hcontrol
    rw [if_neg hcontrol]
    exact readText_plain hquote hbackslash hcontrol hread

/-- A printed text is read back up to its closing quote. -/
theorem readText_flatMap (text rest : Text) :
    readText dialect start offset (text.flatMap printCharacter ++ '"' :: rest)
      = .ok (text, (text.flatMap printCharacter).length + 1) := by
  induction text generalizing offset with
  | nil =>
    rw [List.flatMap_nil, List.nil_append, readText]
    rfl
  | cons c text ih =>
    rw [List.flatMap_cons, List.append_assoc, readText_printCharacter c (by simp) ih, List.length_append,
      Nat.add_assoc]

/-! ## Numbers -/

/-- Whether a number that stands in front of a text ends there. -/
def EndsNumber (rest : Text) : Prop :=
  ∀ c ∈ rest.head?, c.isDigit = false ∧ c ∉ ['.', 'e', 'E']

theorem endsNumber_nil : EndsNumber [] := by
  simp [EndsNumber]

theorem endsNumber_cons (hdigit : c.isDigit = false) (hsign : c ∉ ['.', 'e', 'E']) (rest : Text) :
    EndsNumber (c :: rest) := by
  intro d hd
  rw [← Option.some.inj hd]
  exact ⟨hdigit, hsign⟩

theorem takeWhile_isDigit_append (hrest : EndsNumber rest) {digits : Text}
    (hdigits : ∀ c ∈ digits, c.isDigit = true) : (digits ++ rest).takeWhile Char.isDigit = digits :=
  takeWhile_eq_of_forall hdigits (by
    cases rest with
    | nil => rfl
    | cons c rest => exact (hrest c rfl).1)

theorem fractionDigits_of_endsNumber (hrest : EndsNumber rest) : fractionDigits rest = [] := by
  cases rest with
  | nil => rfl
  | cons c rest =>
    have hpoint : c ≠ '.' := by
      rintro rfl
      exact (hrest '.' rfl).2 (by decide)
    rw [fractionDigits.eq_def]
    split
    · rename_i heq
      exact absurd (List.cons.inj heq).1 hpoint
    · rfl

theorem readExponent_of_endsNumber (hrest : EndsNumber rest) : readExponent rest = none := by
  cases rest with
  | nil => rfl
  | cons c rest =>
    have hsign := (hrest c rfl).2
    have hlower : c ≠ 'e' := by
      rintro rfl
      exact hsign (by decide)
    have hupper : c ≠ 'E' := by
      rintro rfl
      exact hsign (by decide)
    simp [readExponent, hlower, hupper]

theorem digitsValue_ofNat (n : Nat) : digitsValue (ofNat n) = n := by
  rw [digitsValue, ofNat_eq_toDigits]
  have h := Nat.ofDigitChars_ten_toDigits (n := n)
  rw [Nat.ofDigitChars_eq_foldl] at h
  simpa only [Nat.mul_comm, show '0'.toNat = 0x30 from rfl] using h

/-- The figures of a number are its whole part. -/
theorem integerDigits_ofNat (hrest : EndsNumber rest) (n : Nat) :
    integerDigits (ofNat n ++ rest) = ofNat n := by
  have hdigits : ∀ c ∈ ofNat n, c.isDigit = true := fun c => isDigit_of_mem_ofNat
  cases hn : ofNat n with
  | nil => exact absurd hn (ofNat_ne_nil n)
  | cons c digits =>
    rw [hn] at hdigits
    rw [List.cons_append, integerDigits]
    by_cases hzero : c = '0'
    -- only zero itself starts with this figure
    · subst hzero
      obtain rfl := head?_ofNat (by rw [hn]; rfl)
      obtain ⟨-, rfl⟩ := List.cons.inj (show ['0'] = '0' :: digits from hn)
      rfl
    · rw [if_neg hzero, if_pos (hdigits c List.mem_cons_self),
        takeWhile_isDigit_append hrest fun d hd => hdigits d (List.mem_cons_of_mem c hd)]

theorem isEmpty_ofNat (n : Nat) : (ofNat n).isEmpty = false := by
  simpa using ofNat_ne_nil n

/-- The first figure of a number. -/
theorem exists_ofNat (n : Nat) : ∃ c digits, ofNat n = c :: digits ∧ c.isDigit = true := by
  obtain ⟨c, digits, hn⟩ := List.exists_cons_of_ne_nil (ofNat_ne_nil n)
  exact ⟨c, digits, hn, isDigit_of_mem_ofNat (hn ▸ List.mem_cons_self)⟩

theorem readNumber_ofNat (hrest : EndsNumber rest) (n : Nat) :
    readNumber (ofNat n ++ rest) = some (.int n, (ofNat n).length) := by
  rw [readNumber.eq_def]
  split
  rename_i sign negative hsign
  split at hsign
  · rename_i htext
    obtain ⟨c, digits, hn, hdigit⟩ := exists_ofNat n
    rw [hn] at htext
    rw [(List.cons.inj htext).1] at hdigit
    cases hdigit
  · obtain ⟨rfl, rfl⟩ := Prod.mk.inj hsign
    simp [integerDigits_ofNat hrest, isEmpty_ofNat, fractionDigits_of_endsNumber hrest,
      readExponent_of_endsNumber hrest, digitsValue_ofNat]

theorem readNumber_minus (hrest : EndsNumber rest) (n : Nat) :
    readNumber ('-' :: (ofNat n ++ rest)) = some (.int (-n), (ofNat n).length + 1) := by
  simp [readNumber, integerDigits_ofNat hrest, isEmpty_ofNat, fractionDigits_of_endsNumber hrest,
    Nat.add_comm 1, readExponent_of_endsNumber hrest, digitsValue_ofNat]

/-- An integer is read back where it ends. -/
theorem readNumber_ofInt (hrest : EndsNumber rest) (n : Int) :
    readNumber (ofInt n ++ rest) = some (.int n, (ofInt n).length) := by
  rw [ofInt]
  split
  · rw [List.cons_append, readNumber_minus hrest, List.length_cons]
    congr 3
    omega
  · rw [readNumber_ofNat hrest]
    congr 3
    omega

/-! ## Words -/

/-- An integer starts with a figure or a minus sign in front of one. -/
theorem exists_ofInt (n : Int) : ∃ c digits, c.isDigit = true ∧
    (ofInt n = c :: digits ∨ ofInt n = '-' :: c :: digits) := by
  obtain ⟨c, digits, hn, hdigit⟩ := exists_ofNat n.natAbs
  rw [ofInt, hn]
  split
  · exact ⟨c, digits, hdigit, .inr rfl⟩
  · exact ⟨c, digits, hdigit, .inl rfl⟩

/-- No word starts like a number. -/
theorem find?_words_eq_none (hc : c.isDigit = true) (text : Text) :
    (words.find? fun word => word.1.isPrefixOf (c :: text)) = none ∧
      (words.find? fun word => word.1.isPrefixOf ('-' :: c :: text)) = none := by
  have hne (d : Char) (hd : d.isDigit = false) : (d == c) = false := by
    refine beq_eq_false_iff_ne.mpr ?_
    rintro rfl
    rw [hc] at hd
    cases hd
  simp [words, List.find?, List.isPrefixOf, hne]

/-- The lexemes of values that are no texts: a word, or an integer in figures. -/
inductive IsScalar : Json → Text → Prop where
  | null : IsScalar .null "null"
  | bool (value : Bool) : IsScalar (.bool value) (if value then "true" else "false")
  | int (n : Int) : IsScalar (.int n) (ofInt n)

/-- A figure, a minus sign or the letter of a word starts nothing else. -/
theorem IsScalar.exists_first {value : Json} (h : IsScalar value text) : ∃ c more, text = c :: more ∧
    isSpace c = false ∧ punctuation? c = none ∧ c ≠ '"' := by
  cases h with
  | null => exact ⟨_, _, rfl, by decide, rfl, by decide⟩
  | bool value => cases value <;> exact ⟨_, _, rfl, by decide, rfl, by decide⟩
  | int n =>
    obtain ⟨c, digits, hdigit, hn | hn⟩ := exists_ofInt n
    -- the first sign is a figure
    · have hne (d : Char) (hd : d.isDigit = false) : c ≠ d := by
        rintro rfl
        rw [hdigit] at hd
        cases hd
      refine ⟨c, digits, hn, ?_, ?_, hne _ (by decide)⟩
      · simp [isSpace, hne]
      · rw [punctuation?.eq_def]
        split <;> first | rfl | cases hdigit
    · exact ⟨_, _, hn, by decide, rfl, by decide⟩

/-- A word or an integer is read back where it ends. -/
theorem readScalar_append {value : Json} (h : IsScalar value text) (hrest : EndsNumber rest) :
    readScalar (text ++ rest) = some (value, text.length) := by
  cases h with
  | null => rfl
  | bool value => cases value <;> rfl
  | int n =>
    have hword : (words.find? fun word => word.1.isPrefixOf (ofInt n ++ rest)) = none := by
      obtain ⟨c, digits, hdigit, hn | hn⟩ := exists_ofInt n
      · rw [hn]
        exact (find?_words_eq_none hdigit _).1
      · rw [hn]
        exact (find?_words_eq_none hdigit _).2
    rw [readScalar, hword, readNumber_ofInt hrest]

end ComponentKit.Json
