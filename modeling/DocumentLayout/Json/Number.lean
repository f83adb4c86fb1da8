import DocumentLayout.Metadata.Value

/-!
# Numbers of JSON

A number without fraction and exponent that fits into 64 bits is a whole number, minus zero apart.
Any other number is read in floating point: the digits that fit into 64 bits are rounded, and the
result is multiplied or divided by a power of ten and rounded again. So the last place may differ
from that of the nearest number.
-/

namespace DocumentLayout.Json

/-- The greatest natural number of 64 bits. -/
def maxDigits : Nat := twoPow 64 - 1

/-- Digits added to a number as long as the result fits into 64 bits, and the digits left over. -/
def takeDigits (n : Nat) : Text → Nat × Text
  | [] => (n, [])
  | c :: rest =>
    let next := 10 * n + (c.toNat - '0'.toNat)
    if maxDigits < next then (n, c :: rest) else takeDigits next rest

/-- The greatest power of ten of the format. -/
def maxPower : Nat := 308

/-- `10 ^ n` in the format. -/
def powerOfTen (n : Nat) : Binary64 := .ofDecimal false 1 n

/-- A number times a power of ten, in steps of powers that the format has; nothing when the result
is not finite. Four steps bring any number of 64 bits down to zero. -/
def scale? : Nat → Binary64 → Int → Option Binary64
  | 0, x, _ => some x
  | steps + 1, x, exponent =>
    if exponent.natAbs ≤ maxPower then
      if 0 ≤ exponent then (some (x.mul (powerOfTen exponent.natAbs))).filter Binary64.isFinite
      else some (x.div (powerOfTen exponent.natAbs))
    else if x.same (.zero false) then some x
    else if 0 ≤ exponent then none
    else scale? steps (x.div (powerOfTen maxPower)) (exponent + maxPower)

/-- The sign in front of a number that has none. -/
def withSign (negative : Bool) : Binary64 → Binary64
  | .finite _ mantissa exponent => .finite negative mantissa exponent
  | x => x

/-- A floating point number from its digits and the power of ten they are multiplied by. -/
def float? (negative : Bool) (digits : Nat) (exponent : Int) : Option Value :=
  (scale? 5 (.ofNat false digits) exponent).map fun x => .float (withSign negative x)

/-- The exponent at the start of a text, if one starts there, and the text after it. Its mark asks
for at least one digit. -/
def exponent? (text : Text) : Option (Option Int × Text) :=
  match text with
  | c :: rest =>
    if c == 'e' || c == 'E' then
      let (negative, rest) := match rest with
        | '-' :: rest => (true, rest)
        | '+' :: rest => (false, rest)
        | rest => (false, rest)
      let (digits, rest) := Decimal.cutDigits rest
      if digits = [] then none
      else
        let n : Int := Text.decimalValue digits
        some (some (if negative then -n else n), rest)
    else some (none, text)
  | [] => some (none, text)

/-- The number at the start of a text, and the text after it. -/
def number? (text : Text) : Option (Value × Text) :=
  let (negative, text) := match text with
    | '-' :: text => (true, text)
    | text => (false, text)
  let (whole, rest) := Decimal.cutDigits text
  if whole = [] ∨ (whole.head? = some '0' ∧ 1 < whole.length) then none
  else
    let (digits, excess) := takeDigits 0 whole
    match rest with
    | '.' :: rest =>
      let (fraction, rest) := Decimal.cutDigits rest
      if fraction = [] then none
      else
        let (digits, unread) := takeDigits digits fraction
        let places : Int := fraction.length - unread.length
        (exponent? rest).bind fun (exponent, rest) =>
          (float? negative digits (excess.length - places + exponent.getD 0)).map fun x => (x, rest)
    | rest =>
      (exponent? rest).bind fun (exponent, rest) =>
        match exponent, excess with
        | none, [] =>
          if !negative then some (.int digits, rest)
          else if digits ≠ 0 ∧ digits ≤ twoPow 63 then some (.int (-digits), rest)
          else some (.float (withSign true (.ofNat false digits)), rest)
        | exponent, excess =>
          (float? negative digits (excess.length + exponent.getD 0)).map fun x => (x, rest)

end DocumentLayout.Json
