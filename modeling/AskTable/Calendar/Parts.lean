import AskTable.Calendar.Date
import AskTable.Calendar.Token

/-!
The numbers of a date in the order in which they are written, and which of them are the year, the month
and the day. A number with more than two digits is the year, a name is the month; size and place decide
about the others.
-/
namespace AskTable

/-- The year, the month and the day as far as they are written. -/
structure WrittenDate where
  year : Option Nat
  month : Option Nat
  day : Option Nat

/-- A year below a hundred lies within fifty years of the present. The present is the year 2026 of the clock, so that 76,
which is 26 and 50, is the first one to be counted from 1900. -/
def WrittenDate.expandYear (year : Nat) : Nat :=
  if year < 76 then 2000 + year else if year < 100 then 1900 + year else year

/-- The numbers of a date, and the places of those that are known to be the year or the month. `fullYear`
tells that the year is not short for one of a century. -/
structure DateParts where
  numbers : List Nat
  yearAt : Option Nat
  monthAt : Option Nat
  fullYear : Bool

namespace DateParts

def empty : DateParts :=
  ⟨[], none, none, false⟩

def addNumber (p : DateParts) (n : Nat) : DateParts :=
  { p with numbers := p.numbers ++ [n] }

/-- The parts with a year; there is only one. -/
def addYear (p : DateParts) (n : Nat) : Option DateParts :=
  if p.yearAt.isSome then none
  else some { p.addNumber n with yearAt := some p.numbers.length, fullYear := true }

/-- The parts with a month that has been named; there is only one. -/
def addMonth (p : DateParts) (n : Nat) : Option DateParts :=
  if p.monthAt.isSome then none else some { p.addNumber n with monthAt := some p.numbers.length }

/-- The parts with the number of some digits. More than two digits are a year. -/
def addDigits (p : DateParts) (digits : Text) : Option DateParts :=
  if 2 < digits.length then p.addYear (natOfDigits digits)
  else some (p.addNumber (natOfDigits digits))

/-- The parts with a number whose digits do not count, of which `bound` is the next whole number: `n` itself
unless there is a fraction. Above a hundred it is a year. -/
def addValue (p : DateParts) (n bound : Nat) : Option DateParts :=
  if 100 < bound then p.addYear n else some (p.addNumber n)

def addToken (p : DateParts) (token : DateToken) : Option DateParts :=
  match token.digits? with
  | some digits => p.addDigits digits
  | none => token.month?.bind p.addMonth

/-- The last day that a month may have as far as month and year are known. -/
def lastDay (p : DateParts) : Nat :=
  match p.monthAt with
  | none => 31
  | some i =>
    daysInMonth ((p.yearAt.map fun j => p.numbers.getD j 0).getD 2000) (p.numbers.getD i 0)

/-- Year, month and day of three numbers of which none has been named. A year may come first; else the
month does, or the day where the first number is no month. -/
def ofThree (a b c : Nat) (yearFirst : Bool) : WrittenDate :=
  if 31 < a || yearFirst then ⟨some a, some b, some c⟩
  else if 12 < a then ⟨some c, some b, some a⟩
  else ⟨some c, some a, some b⟩

/-- Year, month and day of the numbers; at most three can be told apart. -/
def resolve (p : DateParts) : Option WrittenDate :=
  match p.numbers, p.yearAt, p.monthAt with
  | [], _, _ => some ⟨none, none, none⟩
  | [_], none, some _ => some ⟨none, p.numbers.head?, none⟩
  | [a], some _, _ => some ⟨some a, none, none⟩
  | [a], none, none => some (if 31 < a then ⟨some a, none, none⟩ else ⟨none, none, some a⟩)
  | [a, b], some i, some _ =>
    some (if i = 0 then ⟨some a, some b, none⟩ else ⟨some b, some a, none⟩)
  | [a, b], none, some i =>
    let (month, other) := if i = 0 then (a, b) else (b, a)
    some (if 31 < other then ⟨some other, some month, none⟩ else ⟨none, some month, some other⟩)
  | [a, b], _, none =>
    some (if 31 < a then ⟨some a, some b, none⟩
      else if 31 < b then ⟨some b, some a, none⟩
      else ⟨none, some a, some b⟩)
  | [a, b, c], some i, some j =>
    let numbers := [a, b, c]
    some ⟨numbers[i]?, numbers[j]?, numbers[3 - i - j]?⟩
  | [a, b, c], none, some 0 =>
    some (if 31 < b then ⟨some b, some a, some c⟩ else ⟨some c, some a, some b⟩)
  | [a, b, c], none, some 1 =>
    some (if 31 < a then ⟨some a, some b, some c⟩ else ⟨some c, some b, some a⟩)
  | [a, b, c], none, some _ =>
    some (if 31 < b then ⟨some b, some c, some a⟩ else ⟨some a, some c, some b⟩)
  | [a, b, c], year, none => some (ofThree a b c (year == some 0))
  | _, _, _ => none

end DateParts
end AskTable
