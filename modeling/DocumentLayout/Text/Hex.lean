import DocumentLayout.Text.Basic

/-!
# Numbers in base sixteen

Escapes name a character by its code point in base sixteen.
-/

namespace DocumentLayout.Text

/-- The digits of a number in base sixteen, in lower case. -/
def hexDigits (n : Nat) : Text := Nat.toDigits 16 n

/-- The digits of a number with zeros in front of them up to `width`. -/
def paddedHex (width n : Nat) : Text :=
  List.replicate (width - (hexDigits n).length) '0' ++ hexDigits n

/-- The value of a digit, in either case. -/
def hexValue? (c : Char) : Option Nat :=
  if c.isDigit then some (c.toNat - '0'.toNat)
  else if 'a' ≤ c && c ≤ 'f' then some (c.toNat - 'a'.toNat + 10)
  else if 'A' ≤ c && c ≤ 'F' then some (c.toNat - 'A'.toNat + 10)
  else none

/-- The number that `count` digits spell at the start of a text. -/
def hexNumber? (count : Nat) (text : Text) : Option Nat :=
  let digits := text.take count
  if digits.length < count then none
  else digits.foldlM (fun n c => (hexValue? c).map (16 * n + ·)) 0

/-- The character with a code point; none for a surrogate or a number beyond all of them. -/
def ofCodePoint? (n : Nat) : Option Char :=
  if n < 0xD800 ∨ (0xDFFF < n ∧ n ≤ 0x10FFFF) then some (Char.ofNat n) else none

end DocumentLayout.Text
