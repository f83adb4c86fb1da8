/-!
# Text

A text is a list of characters. Offsets and lengths count the bytes of its UTF-8 form, so a cut
at an offset may fall inside a character; such a cut has no result.
-/

namespace DocumentLayout

/-- Text is handled character by character. -/
abbrev Text := List Char

namespace Text

/-! ## Bytes -/

/-- The length of a text in UTF-8 bytes. -/
def byteLength : Text → Nat
  | [] => 0
  | c :: rest => c.utf8Size + byteLength rest

@[simp] theorem byteLength_nil : byteLength [] = 0 := rfl

@[simp] theorem byteLength_cons (c : Char) (rest : Text) :
    byteLength (c :: rest) = c.utf8Size + byteLength rest := rfl

@[simp] theorem byteLength_append (s t : Text) :
    byteLength (s ++ t) = byteLength s + byteLength t := by
  induction s with
  | nil => simp
  | cons c rest ih => simp [ih, Nat.add_assoc]

/-- The text after its first `n` bytes; nothing when the text is shorter or when byte `n` lies
inside a character. -/
def dropBytes? : Nat → Text → Option Text
  | 0, text => some text
  | _ + 1, [] => none
  | n + 1, c :: rest => if c.utf8Size ≤ n + 1 then dropBytes? (n + 1 - c.utf8Size) rest else none

/-- The text up to the first boundary of characters at or after byte `n`, and the text after it. -/
def splitBytes : Nat → Text → Text × Text
  | 0, text => ([], text)
  | _ + 1, [] => ([], [])
  | n + 1, c :: rest =>
    let (taken, left) := splitBytes (n + 1 - c.utf8Size) rest
    (c :: taken, left)

/-- What is cut off is a prefix of exactly `n` bytes. -/
theorem exists_of_dropBytes? {n : Nat} {text rest : Text} (h : dropBytes? n text = some rest) :
    ∃ taken, text = taken ++ rest ∧ byteLength taken = n := by
  fun_induction dropBytes? n text with
  | case1 => exact ⟨[], by simp_all⟩
  | case2 => simp at h
  | case3 n c tail hc ih =>
    obtain ⟨taken, rfl, ht⟩ := ih h
    exact ⟨c :: taken, rfl, by simp; omega⟩
  | case4 => simp at h

/-- A cut of at least one byte leaves fewer characters. -/
theorem length_lt_of_dropBytes? {n : Nat} {text rest : Text} (hn : n ≠ 0)
    (h : dropBytes? n text = some rest) : rest.length < text.length := by
  obtain ⟨taken, rfl, ht⟩ := exists_of_dropBytes? h
  cases taken with
  | nil => simp at ht; omega
  | cons => simp only [List.length_append, List.length_cons]; omega

/-! ## Prefixes and occurrences -/

/-- The text after `front`, when it starts with `front`. -/
abbrev dropPrefix? (front text : Text) : Option Text := front.isPrefixOf? text

/-- The text without a last character `c`, when it ends in one. -/
def dropLast? (c : Char) (text : Text) : Option Text :=
  if text.getLast? = some c then some text.dropLast else none

/-- The text before and after the first occurrence of `mark`. -/
def cutAt? (mark : Text) : Text → Option (Text × Text)
  | [] => (dropPrefix? mark []).map fun after => ([], after)
  | c :: rest =>
    match dropPrefix? mark (c :: rest) with
    | some after => some ([], after)
    | none => (cutAt? mark rest).map fun (before, after) => (c :: before, after)

/-- Whether `mark` occurs in the text. -/
def includes (mark text : Text) : Bool := (cutAt? mark text).isSome

/-! ## Line breaks -/

/-- The text before the first line feed, and the text after it when there is one. -/
def cutLine : Text → Text × Option Text
  | [] => ([], none)
  | c :: rest =>
    if c = '\n' then ([], some rest)
    else
      let (line, after) := cutLine rest
      (c :: line, after)

/-- Every carriage return, with the line feed after it if there is one, becomes one line feed. -/
def unifyBreaks : Text → Text
  | [] => []
  | '\r' :: '\n' :: rest => '\n' :: unifyBreaks rest
  | '\r' :: rest => '\n' :: unifyBreaks rest
  | c :: rest => c :: unifyBreaks rest

/-- The text after one leading line break, CRLF or LF, if there is one. -/
def dropBreak : Text → Text
  | '\r' :: '\n' :: rest => rest
  | '\n' :: rest => rest
  | text => text

/-! ## Digits and letters -/

/-- The number that a list of decimal digits spells. -/
def decimalValue (digits : Text) : Nat :=
  digits.foldl (fun n c => 10 * n + (c.toNat - '0'.toNat)) 0

/-- The decimal digits of a number. -/
def ofNat (n : Nat) : Text := Nat.toDigits 10 n

/-- The decimal digits of an integer, after a minus sign when it is negative. -/
def ofInt : Int → Text
  | .ofNat n => ofNat n
  | .negSucc n => '-' :: ofNat (n + 1)

/-- ASCII letters in lower case; all else as it is. -/
def lowerAscii (text : Text) : Text := text.map Char.toLower

/-- ASCII letters in upper case; all else as it is. -/
def upperAscii (text : Text) : Text := text.map Char.toUpper

end Text

end DocumentLayout
