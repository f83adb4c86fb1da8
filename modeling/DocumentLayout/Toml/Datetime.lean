import DocumentLayout.Text.Basic

/-!
# Dates and times

A date, a time of day, or both with a time zone or without one. Seconds may be left out. What is
read is written anew in one form: a capital `T` between date and time and no zeros at the end of a
fraction of a second.
-/

namespace DocumentLayout.Toml

/-- A day of the calendar. -/
structure Date where
  year : Nat
  month : Nat
  day : Nat
  deriving DecidableEq, Repr, Inhabited

/-- A time of day. The fraction is of seconds, by its decimal digits. -/
structure Time where
  hour : Nat
  minute : Nat
  second : Option Nat
  fraction : Option Text
  deriving DecidableEq, Repr, Inhabited

/-- A time zone, as the distance from universal time in minutes. -/
inductive Zone where
  | universal
  | distance (west : Bool) (minutes : Nat)
  deriving DecidableEq, Repr, Inhabited

/-! ## Reading -/

/-- The number of `count` digits at the start of a text, no digit following them, and the text
after them. -/
def fixedDigits? (count : Nat) (text : Text) : Option (Nat × Text) :=
  let digits := text.takeWhile Char.isDigit
  if digits.length = count then some (Text.decimalValue digits, text.drop count) else none

/-- The days of a month. -/
def daysOfMonth (year month : Nat) : Nat :=
  if month = 2 then
    if year % 4 = 0 ∧ (year % 100 ≠ 0 ∨ year % 400 = 0) then 29 else 28
  else if month = 4 ∨ month = 6 ∨ month = 9 ∨ month = 11 then 30
  else 31

/-- The date at the start of a text, and the text after it. -/
def date? (text : Text) : Option (Date × Text) := do
  let (year, text) ← fixedDigits? 4 text
  let (month, text) ← fixedDigits? 2 (← Text.dropPrefix? ['-'] text)
  let (day, text) ← fixedDigits? 2 (← Text.dropPrefix? ['-'] text)
  if 1 ≤ month ∧ month ≤ 12 ∧ 1 ≤ day ∧ day ≤ daysOfMonth year month then
    some (⟨year, month, day⟩, text)
  else none

/-- The fraction of a second at the start of a text, if one starts there, and the text after it. -/
def fraction? (text : Text) : Option (Option Text × Text) :=
  match text with
  | '.' :: rest =>
    let digits := rest.takeWhile Char.isDigit
    if digits = [] then none else some (some digits, rest.drop digits.length)
  | text => some (none, text)

/-- The time of day at the start of a text, and the text after it. -/
def time? (text : Text) : Option (Time × Text) := do
  let (hour, text) ← fixedDigits? 2 text
  let (minute, text) ← fixedDigits? 2 (← Text.dropPrefix? [':'] text)
  let (second, fraction, text) ← match text with
    | ':' :: rest => do
      let (second, rest) ← fixedDigits? 2 rest
      let (fraction, rest) ← fraction? rest
      some (some second, fraction, rest)
    | text => some (none, none, text)
  if hour ≤ 23 ∧ minute ≤ 59 ∧ second.all (· ≤ 60) then
    some (⟨hour, minute, second, fraction⟩, text)
  else none

/-- The time zone that a text names; the empty text names none. -/
def zone? (text : Text) : Option (Option Zone) :=
  match text with
  | [] => some none
  | ['Z'] | ['z'] => some (some .universal)
  | sign :: rest => do
    let (hours, rest) ← fixedDigits? 2 rest
    let (minutes, rest) ← fixedDigits? 2 (← Text.dropPrefix? [':'] rest)
    if (sign = '+' ∨ sign = '-') ∧ hours ≤ 23 ∧ minutes ≤ 59 ∧ rest = [] then
      some (some (.distance (sign == '-') (60 * hours + minutes)))
    else none

/-! ## Writing -/

/-- A number with at least `width` digits. -/
def paddedNat (width n : Nat) : Text :=
  List.replicate (width - (Text.ofNat n).length) '0' ++ Text.ofNat n

/-- A date as text. -/
def Date.toText (date : Date) : Text :=
  paddedNat 4 date.year ++ '-' :: paddedNat 2 date.month ++ '-' :: paddedNat 2 date.day

/-- The digits of a fraction as they are kept: nine at most and no zeros at the end, but at least
one. -/
def keptFraction (digits : Text) : Text :=
  match ((digits.take 9).reverse.dropWhile (· == '0')).reverse with
  | [] => ['0']
  | kept => kept

/-- A time of day as text. -/
def Time.toText (time : Time) : Text :=
  let seconds := match time.second with
    | some second => ':' :: paddedNat 2 second
    | none => []
  let fraction := match time.fraction with
    | some digits => '.' :: keptFraction digits
    | none => []
  paddedNat 2 time.hour ++ ':' :: paddedNat 2 time.minute ++ seconds ++ fraction

/-- A time zone as text. -/
def Zone.toText : Zone → Text
  | .universal => ['Z']
  | .distance west minutes =>
    (if west ∧ minutes ≠ 0 then '-' else '+') :: paddedNat 2 (minutes / 60) ++
      ':' :: paddedNat 2 (minutes % 60)

/-- A date, a time, or both, as it is written anew; nothing for any other text. -/
def datetime? (text : Text) : Option Text :=
  match date? text with
  | some (date, []) => some date.toText
  | some (date, mark :: rest) =>
    if mark = 'T' ∨ mark = 't' ∨ mark = ' ' then do
      let (time, rest) ← time? rest
      let zone ← zone? rest
      some (date.toText ++ 'T' :: time.toText ++ (zone.map Zone.toText).getD [])
    else none
  | none =>
    match time? text with
    | some (time, []) => some time.toText
    | _ => none

end DocumentLayout.Toml
