import AskTable.Number.Reading
import AskTable.Text.Basic

/-!
Calendar dates of the years 1 to 9999, points in time with an optional distance to world time, and
their ISO texts.
-/
namespace AskTable

/-- Every fourth year is longer, save for centuries that four hundred does not divide. -/
def isLeapYear (year : Nat) : Bool :=
  year % 4 == 0 && (year % 100 != 0 || year % 400 == 0)

/-- How many days a month has; none where there is no such month. -/
def daysInMonth (year month : Nat) : Nat :=
  match month with
  | 2 => if isLeapYear year then 29 else 28
  | 4 | 6 | 9 | 11 => 30
  | 1 | 3 | 5 | 7 | 8 | 10 | 12 => 31
  | _ => 0

def isDayOfYear (year month day : Nat) : Bool :=
  1 ≤ day && day ≤ daysInMonth year month

structure Date where
  year : Nat
  month : Nat
  day : Nat
  year_pos : 1 ≤ year
  year_le : year ≤ 9999
  exists_day : isDayOfYear year month day = true
  deriving DecidableEq

namespace Date

def of? (year month day : Nat) : Option Date :=
  if h : (1 ≤ year ∧ year ≤ 9999) ∧ isDayOfYear year month day = true then
    some ⟨year, month, day, h.1.1, h.1.2, h.2⟩
  else none

/-- The place of a date in time: later dates have greater numbers. -/
def order (d : Date) : Nat :=
  (d.year * 12 + d.month) * 32 + d.day

/-- Year, month and day in four, two and two digits. -/
def iso (d : Date) : Text :=
  Text.padded 4 d.year ++ "-" ++ Text.padded 2 d.month ++ "-" ++ Text.padded 2 d.day

/-- The date that is `n` days after 30 December 1899, counted in years that begin in March. -/
def ofSerial? (n : Nat) : Option Date :=
  let days := n + 693899
  let era := days / 146097
  let dayOfEra := days % 146097
  let yearOfEra := (dayOfEra - dayOfEra / 1460 + dayOfEra / 36524 - dayOfEra / 146096) / 365
  let dayOfYear := dayOfEra - (365 * yearOfEra + yearOfEra / 4 - yearOfEra / 100)
  let fromMarch := (5 * dayOfYear + 2) / 153
  let day := dayOfYear - (153 * fromMarch + 2) / 5 + 1
  let month := if fromMarch < 10 then fromMarch + 3 else fromMarch - 9
  of? (yearOfEra + era * 400 + if month ≤ 2 then 1 else 0) month day

theorem of?_self (d : Date) : of? d.year d.month d.day = some d := by
  simp [of?, d.year_pos, d.year_le, d.exists_day]

def ofIso? (t : Text) : Option Date :=
  match Text.splitWhen (· == '-') t with
  | [year, month, day] =>
    if (year ++ month ++ day).all isAsciiDigit ∧ year.length = 4 ∧ month.length = 2 ∧ day.length = 2
    then of? (natOfDigits year) (natOfDigits month) (natOfDigits day)
    else none
  | _ => none

end Date

/-- A date with a time of day, and the distance to world time in seconds if it is known. -/
structure Moment where
  date : Date
  hour : Nat
  minute : Nat
  second : Nat
  microsecond : Nat
  offset : Option Int
  deriving DecidableEq

namespace Moment

/-- The time of day is midnight up to fractions of a second. -/
def isMidnight (m : Moment) : Bool :=
  m.hour == 0 && m.minute == 0 && m.second == 0

/-- A distance to world time: sign, hours and minutes, and seconds if there are any. -/
def offsetText (seconds : Int) : Text :=
  let size := seconds.natAbs
  let sign : Text := if seconds < 0 then "-" else "+"
  let rest : Text := if size % 60 = 0 then [] else ":" ++ Text.padded 2 (size % 60)
  sign ++ Text.padded 2 (size / 3600) ++ ":" ++ Text.padded 2 (size / 60 % 60) ++ rest

/-- Date and time with a mark between them; the fraction only if there is one. -/
def isoWith (mark : Char) (m : Moment) : Text :=
  let fraction : Text := if m.microsecond = 0 then [] else "." ++ Text.padded 6 m.microsecond
  let zone : Text := match m.offset with
    | some seconds => offsetText seconds
    | none => []
  m.date.iso ++ [mark] ++ Text.padded 2 m.hour ++ ":" ++ Text.padded 2 m.minute ++ ":" ++
    Text.padded 2 m.second ++ fraction ++ zone

def iso (m : Moment) : Text :=
  isoWith 'T' m

/-- Days since 1 March of the year 0, counted in years that begin in March. -/
def dayNumber (d : Date) : Int :=
  let year : Int := if d.month ≤ 2 then d.year - 1 else d.year
  let fromMarch : Int := if d.month ≤ 2 then d.month + 9 else d.month - 3
  365 * year + year / 4 - year / 100 + year / 400 + (153 * fromMarch + 2) / 5 + d.day - 1

/-- The second of world time at a known distance. -/
def instant (m : Moment) (offset : Int) : Int :=
  ((dayNumber m.date * 24 + m.hour) * 60 + m.minute) * 60 + m.second - offset

/-- Whether two moments are the same. Moments with a distance to world time are compared in world time,
and never equal one without. -/
def same (a b : Moment) : Bool :=
  match a.offset, b.offset with
  | some p, some q => a.instant p == b.instant q && a.microsecond == b.microsecond
  | none, none => a == b
  | _, _ => false

/-- The natural number of some ASCII digits. -/
def digitsOf? (t : Text) : Option Nat :=
  if t ≠ [] ∧ t.all isAsciiDigit then some (natOfDigits t) else none

/-- A distance to world time: nothing, the letter Z, or a sign and two or three parts. -/
def offsetOf? : Text → Option (Option Int)
  | [] => some none
  | ['Z'] => some (some 0)
  | c :: rest => do
    let parts ← (Text.splitWhen (· == ':') rest).mapM digitsOf?
    let size ← match parts with
      | [hours, minutes] => some (hours * 3600 + minutes * 60)
      | [hours, minutes, seconds] => some (hours * 3600 + minutes * 60 + seconds)
      | _ => none
    match c with
    | '+' => some (some size)
    | '-' => some (some (-(size : Int)))
    | _ => none

/-- The fraction of a second in up to six places, and what follows it. -/
def fractionOf : Text → Nat × Text
  | '.' :: rest =>
    let digits := (rest.takeWhile isAsciiDigit).take 6
    (natOfDigits digits * Nat.pow 10 (6 - digits.length), rest.dropWhile isAsciiDigit)
  | t => (0, t)

def ofIso? (t : Text) : Option Moment := do
  let date ← Date.ofIso? (t.take 10)
  match (t.drop 11).take 8 with
  | [h₁, h₂, ':', m₁, m₂, ':', s₁, s₂] =>
    let hour ← digitsOf? [h₁, h₂]
    let minute ← digitsOf? [m₁, m₂]
    let second ← digitsOf? [s₁, s₂]
    let (microsecond, zone) := fractionOf (t.drop 19)
    let offset ← offsetOf? zone
    return ⟨date, hour, minute, second, microsecond, offset⟩
  | _ => none

end Moment

inductive Dated where
  | day (d : Date)
  | moment (m : Moment)
  deriving DecidableEq

namespace Dated

def date : Dated → Date
  | day d => d
  | moment m => m.date

/-- The place among times of one kind. Moments with a known distance to world time are placed in world
time. -/
def position : Dated → Int
  | day d => d.order
  | moment m => m.instant (m.offset.getD 0) * 1000000 + m.microsecond

end Dated
end AskTable
