import DocumentLayout.Text.Basic

/-!
# Letters without case

Labels are compared without regard to case. The pairs of capital and small letters are those of
ASCII, Latin-1, Greek and Cyrillic.
-/

namespace DocumentLayout.Text

/-- The small letter of a capital letter. -/
def foldedCase (c : Char) : Char :=
  let n := c.toNat
  if n < 0x80 then c.toLower
  else if 0xC0 ≤ n && n ≤ 0xDE && n != 0xD7 then Char.ofNat (n + 0x20)
  else if 0x391 ≤ n && n ≤ 0x3A9 && n != 0x3A2 then Char.ofNat (n + 0x20)
  else if n == 0x3C2 then Char.ofNat 0x3C3
  else if 0x410 ≤ n && n ≤ 0x42F then Char.ofNat (n + 0x20)
  else if 0x400 ≤ n && n ≤ 0x40F then Char.ofNat (n + 0x50)
  else c

end DocumentLayout.Text
