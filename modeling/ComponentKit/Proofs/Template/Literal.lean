import ComponentKit.Proofs.Template.Filter

/-!
# The filter for strings

What comes out of `stringContent` is read back between single quotes. The reading, `literalValue?`, is given apart
from the filter, as a reader of the language would do it: the literal ends at the first quote that no backslash
escapes, it may not break the line, and of the escapes only those of the backslash and of the quote have a meaning
here. The filter itself is four replacements, each on the result of the one before; that it works character by
character is a theorem about their order.
-/

namespace ComponentKit.Template

open Text Source Mode

/-! ## Reading a literal -/

/-- The offset of the first quote that no backslash escapes. -/
def closingQuote? : Text → Option Nat
  | [] => none
  | '\\' :: _ :: rest => (closingQuote? rest).map (· + 2)
  | c :: rest => if c = '\x27' then some 0 else (closingQuote? rest).map (· + 1)

/-- What a literal with the given inside stands for. It stands for nothing when a quote in it is not escaped, when it
breaks the line, or when a backslash in it begins neither of the two escapes that `stringCharacter` writes. -/
def literalValue? : Text → Option Text
  | [] => some []
  | '\\' :: c :: rest => if c = '\\' ∨ c = '\x27' then (literalValue? rest).map (c :: ·) else none
  | c :: rest =>
    if c = '\\' ∨ c = '\x27' ∨ c = '\n' ∨ c = '\r' then none else (literalValue? rest).map (c :: ·)

section Reading

variable {c : Char} {rest : Text}

theorem closingQuote?_cons (hback : c ≠ '\\') (hquote : c ≠ '\x27') :
    closingQuote? (c :: rest) = (closingQuote? rest).map (· + 1) := by
  rw [closingQuote?.eq_3 c rest fun _ _ h => absurd h hback, if_neg hquote]

theorem literalValue?_cons (hback : c ≠ '\\') (hquote : c ≠ '\x27') (hfeed : c ≠ '\n') (hreturn : c ≠ '\r') :
    literalValue? (c :: rest) = (literalValue? rest).map (c :: ·) := by
  rw [literalValue?.eq_3 c rest fun _ _ h => absurd h hback, if_neg]
  simp [hback, hquote, hfeed, hreturn]

end Reading

/-- The content of a literal has no quote that ends it. -/
theorem closingQuote?_of_isContent {x : Text} (hx : IsContent x) (rest : Text) :
    closingQuote? (x ++ '\x27' :: rest) = some x.length := by
  induction hx with
  | nil => rfl
  | escape c _ ih => rw [List.cons_append, List.cons_append, closingQuote?, ih]; rfl
  | plain hback hquote _ _ _ ih => rw [List.cons_append, closingQuote?_cons hback hquote, ih]; rfl

/-- The content of a literal and the quote behind it are one lexeme. -/
theorem lexemesFrom_content {x : Text} (hx : IsContent x) (rest : Text) :
    (quoted '\x27').lexemesFrom (x ++ '\x27' :: rest)
      = ⟨.literal '\x27', x ++ ['\x27']⟩ :: code.lexemesFrom rest := by
  induction hx with
  | nil =>
    show pushLexeme (.literal '\x27') '\x27' true (code.lexemesFrom rest) = _
    cases code.lexemesFrom rest <;> simp [pushLexeme]
  -- behind a backslash the scanner takes any character and stays in the literal
  | @escape c x _ ih =>
    have hescaped : (escaped '\x27').lexemesFrom (c :: (x ++ '\x27' :: rest))
        = ⟨.literal '\x27', c :: (x ++ ['\x27'])⟩ :: code.lexemesFrom rest := by
      show pushLexeme (.literal '\x27') c false ((quoted '\x27').lexemesFrom (x ++ '\x27' :: rest)) = _
      rw [ih]
      rfl
    show pushLexeme (.literal '\x27') '\\' false
      ((escaped '\x27').lexemesFrom (c :: (x ++ '\x27' :: rest))) = _
    rw [hescaped]
    rfl
  -- any other character leaves it there, too
  | @plain c x hback hquote _ _ _ ih =>
    have hstep : ∀ next, (quoted '\x27').step c next = quoted '\x27' := by
      intro next
      rw [step, if_neg hback, if_neg hquote]
    rw [List.cons_append, lexemesFrom, hstep, ih, isLast, hstep]
    rfl

/-! ## The filter -/

theorem stringContent_cons (c : Char) (text : Text) :
    stringContent (c :: text) = stringCharacter c ++ stringContent text := rfl

/-- A character that the filter does not know stays. -/
theorem stringCharacter_plain {c : Char} (hback : c ≠ '\\') (hquote : c ≠ '\x27') (hfeed : c ≠ '\n')
    (hreturn : c ≠ '\r') : stringCharacter c = [c] := by
  rw [stringCharacter, if_neg hback, if_neg hquote, if_neg hfeed, if_neg hreturn]

/-- The filter replaces backslashes first, then quotes, line feeds and carriage returns, each in the
result of the replacement before it. -/
theorem stringContent_eq_replaceChar (text : Text) :
    stringContent text = replaceChar '\r' [] (replaceChar '\n' " "
      (replaceChar '\x27' "\\'" (replaceChar '\\' "\\\\" text))) := by
  simp only [replaceChar, List.flatMap_assoc, stringContent]
  refine List.flatMap_congr fun c _ => ?_
  -- no replacement makes a character that a later one replaces
  by_cases hback : c = '\\'
  · subst hback; rfl
  by_cases hquote : c = '\x27'
  · subst hquote; rfl
  by_cases hfeed : c = '\n'
  · subst hfeed; rfl
  by_cases hreturn : c = '\r'
  · subst hreturn; rfl
  rw [stringCharacter_plain hback hquote hfeed hreturn]
  simp [hback, hquote, hfeed, hreturn]

/-- No replaced character is left. -/
theorem notMem_replaceChar {target : Char} {replacement : Text} (h : target ∉ replacement) (text : Text) :
    target ∉ replaceChar target replacement text := by
  rw [replaceChar, List.mem_flatMap]
  rintro ⟨c, -, hc⟩
  split at hc
  · exact h hc
  · rename_i hne
    exact hne (List.mem_singleton.mp hc).symm

/-- A replacement brings in no characters but its own. -/
theorem notMem_replaceChar_of_notMem {target d : Char} {replacement text : Text} (hd : d ∉ replacement)
    (h : d ∉ text) : d ∉ replaceChar target replacement text := by
  rw [replaceChar, List.mem_flatMap]
  rintro ⟨c, hc, hmem⟩
  split at hmem
  · exact hd hmem
  · exact h ((List.mem_singleton.mp hmem) ▸ hc)

/-- What filtered text stands for: the text with spaces for its line feeds and without its carriage
returns. -/
theorem literalValue?_stringContent (text : Text) :
    literalValue? (stringContent text) = some (replaceChar '\r' [] (replaceChar '\n' " " text)) := by
  induction text with
  | nil => rfl
  | cons c text ih =>
    rw [stringContent_cons]
    -- an escape is read back as the character it stands for, and so is every character that needs none
    by_cases hback : c = '\\'
    · subst hback
      show (literalValue? (stringContent text)).map ('\\' :: ·) = _
      rw [ih]
      rfl
    by_cases hquote : c = '\x27'
    · subst hquote
      show (literalValue? (stringContent text)).map ('\x27' :: ·) = _
      rw [ih]
      rfl
    by_cases hfeed : c = '\n'
    · subst hfeed
      show (literalValue? (stringContent text)).map (' ' :: ·) = _
      rw [ih]
      rfl
    by_cases hreturn : c = '\r'
    · subst hreturn
      exact ih
    rw [stringCharacter_plain hback hquote hfeed hreturn, List.singleton_append,
      literalValue?_cons hback hquote hfeed hreturn, ih]
    simp [replaceChar, hfeed, hreturn]

/-- What `stringContent` gives is one literal between single quotes, whatever follows it: its first bare quote is the
one behind it, it breaks no line, it stands for the text with spaces for line feeds and without carriage returns, and
a reader of source text takes it for one lexeme. -/
theorem literal_stringContent (text rest : Text) :
    closingQuote? (stringContent text ++ '\x27' :: rest) = some (stringContent text).length ∧
      '\n' ∉ stringContent text ∧ '\r' ∉ stringContent text ∧
      literalValue? (stringContent text) = some (replaceChar '\r' [] (replaceChar '\n' " " text)) ∧
      code.lexemesFrom ('\x27' :: (stringContent text ++ '\x27' :: rest))
        = ⟨.literal '\x27', '\x27' :: (stringContent text ++ ['\x27'])⟩ :: code.lexemesFrom rest := by
  have hcontent := isContent_stringContent text
  refine ⟨closingQuote?_of_isContent hcontent rest, ?_, ?_, literalValue?_stringContent text, ?_⟩
  · rw [stringContent_eq_replaceChar]
    exact notMem_replaceChar_of_notMem (by decide) (notMem_replaceChar (by decide) _)
  · rw [stringContent_eq_replaceChar]
    exact notMem_replaceChar (by decide) _
  -- the quote in front opens the literal
  · show pushLexeme (.literal '\x27') '\x27' false
      ((quoted '\x27').lexemesFrom (stringContent text ++ '\x27' :: rest)) = _
    rw [lexemesFrom_content hcontent]
    rfl

/-- Every mix of backslashes, quotes and line breaks is read back, also at the end of the text. -/
example : literalValue? (stringContent "\\\\'\\\r\n'\\") = some "\\\\'\\ '\\".toList := by decide

end ComponentKit.Template
