import DocumentLayout.Text.Hex
import DocumentLayout.Text.Printable

/-!
# Quoted text

Text as a description of a value shows it: between double quotes, with escapes for the quote, the
backslash and whatever cannot be shown on its own.
-/

namespace DocumentLayout.Text

/-- A character between quotes. What cannot be shown is written by its code point. -/
def quotedChar (c : Char) : Text :=
  if c = '"' then "\\\"".toList
  else if c = '\\' then "\\\\".toList
  else if c = '\n' then "\\n".toList
  else if c = '\r' then "\\r".toList
  else if c = '\t' then "\\t".toList
  else if c.toNat = 0 then "\\0".toList
  else if isPrintable c then [c]
  else "\\u\x7b".toList ++ hexDigits c.toNat ++ "\x7d".toList

/-- A text between double quotes. -/
def quoted (text : Text) : Text := '"' :: text.flatMap quotedChar ++ ['"']

end DocumentLayout.Text
