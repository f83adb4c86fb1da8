import DocumentLayout.Text.Basic

/-!
# White space

The white space of Unicode, and the trims that remove it. Indentation knows only the space and
the tab; a blank line or a trim knows all of white space.
-/

namespace DocumentLayout.Text

/-- The characters with the Unicode property `White_Space`. -/
def isSpace (c : Char) : Bool :=
  let n := c.toNat
  (9 ≤ n && n ≤ 13) || n == 0x20 || n == 0x85 || n == 0xA0 || n == 0x1680 ||
  (0x2000 ≤ n && n ≤ 0x200A) || n == 0x2028 || n == 0x2029 || n == 0x202F || n == 0x205F ||
  n == 0x3000

/-- The two characters that indent a line. -/
def isIndent (c : Char) : Bool := c == ' ' || c == '\t'

/-- Every indenting character is white space. -/
theorem isSpace_of_isIndent {c : Char} (h : isIndent c = true) : isSpace c = true := by
  simp only [isIndent, Bool.or_eq_true, beq_iff_eq] at h
  rcases h with rfl | rfl <;> decide

/-- Whether a text holds nothing but white space. -/
def isBlank (text : Text) : Bool := text.all isSpace

/-- The text from its first character that is not white space. -/
def trimStart (text : Text) : Text := text.dropWhile isSpace

/-- The text up to its last character that is not white space. -/
def trimEnd (text : Text) : Text := (text.reverse.dropWhile isSpace).reverse

/-- The text from its first to its last character that is not white space. -/
def trim (text : Text) : Text := trimEnd (trimStart text)

/-- The text after its leading spaces and tabs. -/
def trimIndent (text : Text) : Text := text.dropWhile isIndent

end DocumentLayout.Text
