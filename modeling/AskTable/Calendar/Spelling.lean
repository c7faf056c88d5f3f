import AskTable.Calendar.Draft
import AskTable.Calendar.Standard
import AskTable.Fault
import AskTable.Text.Case
import AskTable.Text.Pattern

/-!
Dates as people write them. A text with the look of a date is read in the standard form, as month, day
and year between single marks, as a year or a quarter, or freely; one that is none of these may still fit
one of six fixed forms.
-/
namespace AskTable
namespace Date

/-- Four digits in a row, or one or two, a separator, one or two, a separator and two. -/
def shape : Pattern :=
  let digit := Pattern.one isDigitChar
  let bar := Pattern.one fun c => ['/', '-', '.'].contains c
  .alt (.times 4 digit)
    (.between 1 1 digit >> bar >> .between 1 1 digit >> bar >> .times 2 digit)

/-- Whether a text is a plain number below a thousand that does not begin with zero. Such a text is no
date. -/
def isSmallNumber (t : Text) : Bool :=
  t.all (fun c => c.toNat < 128 && c != '_') && t.head? != some '0' &&
    (Number.ofText? t).any fun n => Number.below n (.int 1000)

/-- Month, day and year with single marks between them, or month and year, in ASCII digits. The day comes
first where the first number is no month. A text of this form that names no date is none at all. -/
def ofMarked? (t : Text) : Option (Option Date) :=
  let marks := [' ', '/', '-', '.']
  let isShort (t : Text) : Bool := (t.length == 1 || t.length == 2) && t.all isAsciiDigit
  let isYear (t : Text) : Bool := t.length == 4 && t.all isAsciiDigit && 1000 ≤ natOfDigits t
  match Text.splitWhen marks.contains t with
  | [a, b, c] =>
    if isShort a && isShort b && isYear c then
      let month := natOfDigits a
      let day := natOfDigits b
      some (if 12 < month then of? (natOfDigits c) day month else of? (natOfDigits c) month day)
    else none
  | [a, c] =>
    if isShort a && a.length == 2 && isYear c && !t.elem '.' then
      some (of? (natOfDigits c) (natOfDigits a) 1)
    else none
  | _ => none

/-- The first day of a year in four digits of any script, or of a quarter of a year: the letter Q stands
between the year and the number of the quarter, perhaps with a dash. -/
def ofPeriod? (t : Text) : Option (Option Date) :=
  let isYear (t : Text) : Bool := t.length == 4 && t.all isDigitChar
  let number (t : Text) : Nat := natOfDigits (t.map Decimal.plainDigit)
  let quarter (q : Char) (year : Text) : Option (Option Date) :=
    if isDigitChar q && isYear year then
      some (if 1 ≤ number [q] ∧ number [q] ≤ 4 then of? (number year) (number [q] * 3 - 2) 1 else none)
    else none
  match t.map Char.toUpper with
  | [q, 'Q', '-', y₁, y₂, y₃, y₄] | [q, 'Q', y₁, y₂, y₃, y₄] => quarter q [y₁, y₂, y₃, y₄]
  | [y₁, y₂, y₃, y₄, '-', 'Q', q] | [y₁, y₂, y₃, y₄, 'Q', q] => quarter q [y₁, y₂, y₃, y₄]
  | t => if isYear t then (of? (number t) 1 1).map some else none

/-- The date of a text that is not in the standard form. -/
def ofFreeForm? (t : Text) : Option Date :=
  if isSmallNumber t then none
  else
    match ofMarked? t <|> ofPeriod? t with
    | some date => date
    | none => (DateDraft.ofText? t).bind DateDraft.date?

/-- Whether a text is a minus sign before the standard form. -/
def isSigned : Text → Bool
  | '-' :: rest => (StandardForm.read? rest).isSome
  | _ => false

/-- The date of a free form in which a year of four digits, a month and a day are written. -/
def wholeOfFreeForm? (t : Text) : Option Date :=
  (DateDraft.ofText? t).bind fun draft =>
    if draft.parts.numbers.length = 3 then draft.date?.filter (1000 ≤ ·.year) else none

/-- The date of a text with the look of a date. In the standard form the year zero is a fault. A minus
sign in front of that form is passed over before a whole date, and else counts the years backwards. -/
def ofSpelling (t : Text) : Except Fault (Option Date) :=
  if !shape.occursIn t then .ok none
  else if isSigned t then
    match wholeOfFreeForm? t with
    | some d => .ok (some d)
    | none => .error .yearBeforeFirst
  else
    match StandardForm.read? t with
    | some (year, month, day) =>
      if year = 0 then .error .yearBeforeFirst else .ok (of? year month day)
    | none => .ok (ofFreeForm? t)

/-- The number of a month in one or two ASCII digits. -/
def fixedMonth? (t : Text) : Option Nat :=
  let n := natOfDigits t
  if t.all isAsciiDigit ∧ (t.length = 1 ∨ t.length = 2) ∧ 1 ≤ n ∧ n ≤ 12 then some n else none

/-- The number of a day in one or two places. The first may be a blank, and the second a digit of any
script after 1 or 2. -/
def fixedDay? : Text → Option Nat
  | [d] => if '1' ≤ d ∧ d ≤ '9' then some (natOfDigits [d]) else none
  | [' ', d] => if '1' ≤ d ∧ d ≤ '9' then some (natOfDigits [d]) else none
  | [c, d] =>
    if c = '1' ∨ c = '2' then (digitValue? d).map (10 * natOfDigits [c] + ·)
    else if (c = '3' ∧ (d = '0' ∨ d = '1')) ∨ (c = '0' ∧ '1' ≤ d ∧ d ≤ '9') then
      some (natOfDigits [c, d])
    else none
  | _ => none

/-- A year in four digits of any script. -/
def fixedYear? (t : Text) : Option Nat :=
  if t.length = 4 ∧ t.all isDigitChar then some (natOfDigits (t.map Decimal.plainDigit)) else none

def ofFixedParts? (year month day : Text) : Option Date := do
  of? (← fixedYear? year) (← fixedMonth? month) (← fixedDay? day)

/-- The fixed forms: month first, day first and year first, with bars and with dashes. -/
def ofFixedForm? (t : Text) : Option Date :=
  let parts (bar : Char) := Text.splitWhen (· == bar) t
  let monthFirst : List Text → Option Date
    | [month, day, year] => ofFixedParts? year month day
    | _ => none
  let dayFirst : List Text → Option Date
    | [day, month, year] => ofFixedParts? year month day
    | _ => none
  let yearFirst : List Text → Option Date
    | [year, month, day] => ofFixedParts? year month day
    | _ => none
  monthFirst (parts '/') <|> monthFirst (parts '-') <|> dayFirst (parts '/') <|>
    dayFirst (parts '-') <|> yearFirst (parts '/') <|> yearFirst (parts '-')

def ofText (t : Text) : Except Fault (Option Date) := do
  match ← ofSpelling t with
  | some d => return some d
  | none => return ofFixedForm? t

end Date
end AskTable
