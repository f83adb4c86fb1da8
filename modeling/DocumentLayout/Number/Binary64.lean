import DocumentLayout.Number.Power

/-!
# Binary floating point numbers

The numbers of the IEEE 754 format with 64 bits, held as what they stand for: a mantissa of at
most 53 bits times a power of two, an infinity, or not a number. All arithmetic is on natural
numbers and exact; a result is rounded once, to the nearest number of the format and, between two
equally near ones, to the one with the even mantissa.
-/

namespace DocumentLayout

/-- A number of the format, or an infinity, or not a number. A finite number is
`mantissa * 2 ^ exponent` with the sign in front. -/
inductive Binary64 where
  | finite (negative : Bool) (mantissa : Nat) (exponent : Int)
  | infinite (negative : Bool)
  | nan
  deriving DecidableEq, Repr, Inhabited

namespace Binary64

/-- The least exponent; only numbers with this one may have a mantissa below `2 ^ 52`. -/
def minExponent : Int := -1074

/-- The greatest exponent of a finite number. -/
def maxExponent : Int := 971

/-- Zero with a sign. -/
def zero (negative : Bool) : Binary64 := .finite negative 0 minExponent

/-- Whether a number is neither infinite nor not a number. -/
def isFinite : Binary64 → Bool
  | .finite .. => true
  | _ => false

/-! ## Rounding -/

/-- The quotient rounded to the nearest natural number, a tie to the even one. -/
def roundedQuotient (num den : Nat) : Nat :=
  let quotient := num / den
  let twice := 2 * (num % den)
  if twice < den then quotient
  else if den < twice then quotient + 1
  else quotient + quotient % 2

/-- The greatest `e` with `2 ^ e ≤ num / den`, for positive arguments. -/
def floorLog2 (num den : Nat) : Int :=
  let e : Int := (Nat.log2 num : Int) - Nat.log2 den
  if num * twoPow (-e).toNat < den * twoPow e.toNat then e - 1 else e

/-- The number nearest to `num / den` with the sign in front. -/
def ofRatio (negative : Bool) (num den : Nat) : Binary64 :=
  if num = 0 then zero negative
  else
    let exponent := max (floorLog2 num den - 52) minExponent
    let mantissa :=
      roundedQuotient (num * twoPow (-exponent).toNat) (den * twoPow exponent.toNat)
    let (mantissa, exponent) :=
      if mantissa = twoPow 53 then (twoPow 52, exponent + 1) else (mantissa, exponent)
    if maxExponent < exponent then .infinite negative else .finite negative mantissa exponent

/-- The number nearest to a natural number. -/
def ofNat (negative : Bool) (n : Nat) : Binary64 := ofRatio negative n 1

/-- The number nearest to `digits * 10 ^ exponent`. Decimals far outside the range of the format
are settled by their size alone, so no huge power is ever formed. -/
def ofDecimal (negative : Bool) (digits : Nat) (exponent : Int) : Binary64 :=
  if digits = 0 then zero negative
  else
    let magnitude := (Nat.toDigits 10 digits).length + exponent
    if 400 < magnitude then .infinite negative
    else if magnitude < -400 then zero negative
    else ofRatio negative (digits * tenPow exponent.toNat) (tenPow (-exponent).toNat)

/-- A finite number without its sign as a quotient. -/
def ratio (mantissa : Nat) (exponent : Int) : Nat × Nat :=
  (mantissa * twoPow exponent.toNat, twoPow (-exponent).toNat)

/-- The product, for finite arguments. -/
def mul : Binary64 → Binary64 → Binary64
  | .finite s m e, .finite t n f =>
    let (a, b) := ratio m e
    let (c, d) := ratio n f
    ofRatio (s != t) (a * c) (b * d)
  | _, _ => .nan

/-- The quotient, for finite arguments of which the second is not zero. -/
def div : Binary64 → Binary64 → Binary64
  | .finite s m e, .finite t n f =>
    let (a, b) := ratio m e
    let (c, d) := ratio n f
    ofRatio (s != t) (a * d) (b * c)
  | _, _ => .nan

/-! ## Comparison and interchange -/

/-- The same number: both zeros are one number, and what is not a number is the same as itself. -/
def same : Binary64 → Binary64 → Bool
  | .finite s m e, .finite t n f => (m == n && e == f) && (s == t || m == 0)
  | .infinite s, .infinite t => s == t
  | .nan, .nan => true
  | _, _ => false

/-- The bits of a number in the interchange format; nothing for what is not a number, which has
no bits of its own. -/
def bits? : Binary64 → Option Nat
  | .finite negative mantissa exponent =>
    let sign := if negative then twoPow 63 else 0
    if mantissa < twoPow 52 then some (sign + mantissa)
    else some (sign + (exponent - minExponent + 1).toNat * twoPow 52 + (mantissa - twoPow 52))
  | .infinite negative => some ((if negative then twoPow 63 else 0) + 2047 * twoPow 52)
  | .nan => none

end Binary64

end DocumentLayout
