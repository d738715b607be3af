import ComponentKit.Text.Basic

/-!
# Blanks

The characters that count as blank space (`isBlank`), and trimming. The set is the one of the Unicode space
separators together with the line and paragraph separators and the control characters that move the cursor; joiners
and byte order marks are not blank.
-/

namespace ComponentKit.Text

/-- Whether a character is blank space. -/
def isBlank (c : Char) : Bool :=
  let n := c.toNat
  (0x09 ≤ n && n ≤ 0x0D) || (0x1C ≤ n && n ≤ 0x20) || n == 0x85 || n == 0xA0 || n == 0x1680
    || (0x2000 ≤ n && n ≤ 0x200A) || n == 0x2028 || n == 0x2029 || n == 0x202F || n == 0x205F
    || n == 0x3000

/-- Whether a character indents a line: a space or a tab. -/
def isIndent (c : Char) : Bool :=
  c == ' ' || c == '\t'

/-- The text without the blanks it starts with. -/
def trimStart (text : Text) : Text :=
  text.dropWhile isBlank

/-- The text without the blanks it ends with. -/
def trimEnd (text : Text) : Text :=
  (text.reverse.dropWhile isBlank).reverse

/-- The text without the blanks around it. -/
def trim (text : Text) : Text :=
  trimEnd (trimStart text)

/-- Whether the text holds nothing but blanks. -/
def allBlank (text : Text) : Bool :=
  text.all isBlank

/-- The spaces and tabs that the text starts with. -/
def indentation (text : Text) : Text :=
  text.takeWhile isIndent

/-- Trimming the end only takes blanks away. -/
theorem trimEnd_append_blanks (text : Text) :
    trimEnd text ++ (text.reverse.takeWhile isBlank).reverse = text := by
  rw [trimEnd, ← List.reverse_append, List.takeWhile_append_dropWhile, List.reverse_reverse]

theorem mem_of_mem_trimEnd {text : Text} {c : Char} (h : c ∈ trimEnd text) : c ∈ text := by
  rw [← trimEnd_append_blanks text]
  exact List.mem_append_left _ h

end ComponentKit.Text
