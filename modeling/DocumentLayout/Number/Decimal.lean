import DocumentLayout.Number.Binary64
import DocumentLayout.Text.Basic

/-!
# Numbers in decimal

A floating point number is written with the fewest decimal digits that read back as the same
number, and with the nearest to it among those. How the digits are laid out is a record, one for
each format that is written. A decimal is read exactly and then rounded once.
-/

namespace DocumentLayout

/-- The number `digits * 10 ^ exponent`. -/
structure Decimal where
  digits : Nat
  exponent : Int
  deriving DecidableEq, Repr, Inhabited

namespace Decimal

/-! ## The shortest decimal -/

/-- The interval of reals that round to the finite number `mantissa * 2 ^ exponent`, in quarters
of its last place: the ends and whether they belong to it. A power of two has a neighbour below
that is only half as far away, the least exponent apart. -/
structure Interval where
  low : Nat
  high : Nat
  closed : Bool
  exponent : Int

/-- The interval that rounds to a positive number. -/
def Interval.of (mantissa : Nat) (exponent : Int) : Interval where
  low := if mantissa = twoPow 52 ∧ Binary64.minExponent < exponent then 4 * mantissa - 1
    else 4 * mantissa - 2
  high := 4 * mantissa + 2
  closed := mantissa % 2 = 0
  exponent := exponent - 2

/-- Whether a decimal lies in an interval, by comparing products of integers. -/
def Interval.holds (interval : Interval) (d : Decimal) : Bool :=
  let scale := tenPow d.exponent.toNat * twoPow (-interval.exponent).toNat
  let unit := tenPow (-d.exponent).toNat * twoPow interval.exponent.toNat
  let value := d.digits * scale
  let low := interval.low * unit
  let high := interval.high * unit
  if interval.closed then low ≤ value && value ≤ high else low < value && value < high

/-- The decimals next to the positive number `num / den` below and above among those with the
exponent `exponent`, and which of them is nearer: below, or at a tie the even one. -/
def neighbours (num den : Nat) (exponent : Int) : Nat × Nat × Nat :=
  let num := num * tenPow (-exponent).toNat
  let den := den * tenPow exponent.toNat
  (num / den, num / den + 1, Binary64.roundedQuotient num den)

/-- The greatest `e` with `10 ^ e ≤ num / den`, for positive arguments, found from the number of
digits of both. -/
def floorLog10 (num den : Nat) : Int :=
  let e : Int := (Nat.toDigits 10 num).length - (Nat.toDigits 10 den).length
  if num * tenPow (-e).toNat < den * tenPow e.toNat then e - 1 else e

/-- A decimal without zeros at the end of its digits. -/
def normalize (digits : Nat) (exponent : Int) : Nat → Decimal
  | 0 => ⟨digits, exponent⟩
  | fuel + 1 =>
    if digits % 10 = 0 ∧ digits ≠ 0 then normalize (digits / 10) (exponent + 1) fuel
    else ⟨digits, exponent⟩

/-- The best decimal with `count` digits or more, trying one digit more at a time. Seventeen
digits are always enough. -/
def search (interval : Interval) (num den : Nat) (top : Int) (count : Nat) : Nat → Decimal
  | 0 =>
    let exponent := top - count
    ⟨(neighbours num den exponent).2.2, exponent⟩
  | more + 1 =>
    let exponent := top - count
    let (below, above, near) := neighbours num den exponent
    if interval.holds ⟨near, exponent⟩ then ⟨near, exponent⟩
    else if interval.holds ⟨below, exponent⟩ then ⟨below, exponent⟩
    else if interval.holds ⟨above, exponent⟩ then ⟨above, exponent⟩
    else search interval num den top (count + 1) more

/-- The shortest decimal that reads back as the positive number `mantissa * 2 ^ exponent`. -/
def shortest (mantissa : Nat) (exponent : Int) : Decimal :=
  let (num, den) := Binary64.ratio mantissa exponent
  let top := floorLog10 num den + 1
  let best := search (Interval.of mantissa exponent) num den top 1 16
  normalize best.digits best.exponent 20

/-! ## Writing -/

/-- How a format lays out the digits of a number: the signs and spellings that differ. Every
format here writes the point positionally when the first digit stands for `10 ^ -5` to `10 ^ 15`,
and keeps `.0` on whole numbers. -/
structure Style where
  /-- The mark in front of an exponent that is not negative. -/
  exponentPlus : Text
  infinity : Text
  nan : Text

/-- `count` zeros. -/
def zeros (count : Nat) : Text := List.replicate count '0'

/-- The text of a positive decimal. -/
def layout (style : Style) (d : Decimal) : Text :=
  let digits := Text.ofNat d.digits
  let count : Int := digits.length
  let point := count + d.exponent
  if 0 < point ∧ point ≤ 16 then
    if count ≤ point then digits ++ zeros (point - count).toNat ++ ".0".toList
    else digits.take point.toNat ++ '.' :: digits.drop point.toNat
  else if -5 < point ∧ point ≤ 0 then "0.".toList ++ zeros (-point).toNat ++ digits
  else
    let fraction := if digits.length ≤ 1 then [] else '.' :: digits.drop 1
    let power := point - 1
    digits.take 1 ++ fraction ++ 'e' :: (if power < 0 then [] else style.exponentPlus) ++
      Text.ofInt power

/-- The text of a floating point number. -/
def write (style : Style) : Binary64 → Text
  | .nan => style.nan
  | .infinite negative => (if negative then ['-'] else []) ++ style.infinity
  | .finite negative mantissa exponent =>
    (if negative then ['-'] else []) ++
      if mantissa = 0 then "0.0".toList else layout style (shortest mantissa exponent)

/-! ## Reading -/

/-- The digits at the start of a text and the text after them. -/
def cutDigits (text : Text) : Text × Text :=
  (text.takeWhile Char.isDigit, text.dropWhile Char.isDigit)

/-- The exponent part of a decimal, which is `e` or `E`, a sign or none, and digits; zero when
there is none. -/
def readExponent? : Text → Option Int
  | [] => some 0
  | e :: rest =>
    if e == 'e' || e == 'E' then
      let (negative, digits) := match rest with
        | '-' :: digits => (true, digits)
        | '+' :: digits => (false, digits)
        | digits => (false, digits)
      if digits ≠ [] ∧ digits.all Char.isDigit then
        let n : Int := Text.decimalValue digits
        some (if negative then -n else n)
      else none
    else none

/-- A decimal without a sign: digits with a point among, before or after them, at least one digit,
and an exponent or none. -/
def read? (text : Text) : Option Decimal :=
  let (whole, rest) := cutDigits text
  let (fraction, rest) := match rest with
    | '.' :: rest => cutDigits rest
    | _ => ([], rest)
  if whole = [] ∧ fraction = [] then none
  else
    (readExponent? rest).map fun exponent =>
      ⟨Text.decimalValue (whole ++ fraction), exponent - fraction.length⟩

/-- The floating point number nearest to a decimal with the sign in front. -/
def toBinary64 (negative : Bool) (d : Decimal) : Binary64 :=
  Binary64.ofDecimal negative d.digits d.exponent

end Decimal

end DocumentLayout
