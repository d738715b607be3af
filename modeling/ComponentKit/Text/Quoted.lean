import ComponentKit.Text.Hexadecimal
import ComponentKit.Unicode.Printable

/-!
# Quoted text

`quoted` puts a text between quotes, with escapes for what would not show, as messages cite user input.
-/

namespace ComponentKit.Text

/-- One character of a quoted text: the backslash, the quote in use and the common line controls have
short escapes, other unprintable characters are written by their code point. -/
def quotedCharacter (quote c : Char) : Text :=
  if c = '\\' || c = quote then ['\\', c]
  else if c = '\n' then "\\n"
  else if c = '\r' then "\\r"
  else if c = '\t' then "\\t"
  else if Unicode.isPrintable c then [c]
  else if c.toNat < 0x100 then "\\x".toList ++ hexDigits 2 c.toNat
  else if c.toNat < 0x10000 then "\\u".toList ++ hexDigits 4 c.toNat
  else "\\U".toList ++ hexDigits 8 c.toNat

/-- The text between single quotes; double quotes are used when the text has single ones only. -/
def quoted (text : Text) : Text :=
  let quote := if text.contains '\x27' && !text.contains '"' then '"' else '\x27'
  quote :: text.flatMap (quotedCharacter quote) ++ [quote]

end ComponentKit.Text
