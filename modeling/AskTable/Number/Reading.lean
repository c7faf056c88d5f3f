import AskTable.Number.Binary
import AskTable.Text.Basic
import AskTable.Text.Letter

/-!
Numbers written in text: an optional sign, digits of any script that a single underscore may part,
a fraction and a power of ten.
-/
namespace AskTable

def isAsciiDigit (c : Char) : Bool :=
  '0' ≤ c && c ≤ '9'

def natOfDigits (digits : Text) : Nat :=
  digits.foldl (fun n d => 10 * n + (d.toNat - 48)) 0

/-- A decimal number: `± digits · 10 ^ exponent`. -/
structure Decimal where
  negative : Bool
  digits : Nat
  exponent : Int
  deriving DecidableEq, Repr

namespace Decimal

/-- Blanks that may stand around a number: all but the four separators of files, groups, records and
units. -/
def isMargin (c : Char) : Bool :=
  isBlankChar c && !(28 ≤ c.toNat && c.toNat ≤ 31)

/-- A digit of any script as an ASCII digit; other characters stay. -/
def plainDigit (c : Char) : Char :=
  match digitValue? c with
  | some d => Char.ofNat (48 + d)
  | none => c

def splitSign : Text → Bool × Text
  | '-' :: rest => (true, rest)
  | '+' :: rest => (false, rest)
  | t => (false, t)

/-- The text without the underscores that part two digits; none if another underscore is left. -/
def withoutSeparators (afterDigit : Bool) : Text → Option Text
  | [] => some []
  | ['_'] => none
  | '_' :: d :: rest =>
    if afterDigit && isAsciiDigit d then (withoutSeparators true rest).map (d :: ·) else none
  | c :: rest => (withoutSeparators (isAsciiDigit c) rest).map (c :: ·)

/-- The power of ten at the end of a number: nothing, or a letter e and a signed integer. -/
def exponentOf : Text → Option Int
  | [] => some 0
  | c :: rest =>
    let (negative, digits) := splitSign rest
    if (c = 'e' ∨ c = 'E') ∧ digits ≠ [] ∧ digits.all isAsciiDigit then
      some (if negative then -(natOfDigits digits : Int) else natOfDigits digits)
    else none

/-- The number of digits, a point among or around them, and a power of ten. -/
def ofPlain (negative : Bool) (t : Text) : Option Decimal :=
  let whole := t.takeWhile isAsciiDigit
  let rest := t.dropWhile isAsciiDigit
  let (fraction, tail) :=
    match rest with
    | '.' :: after => (after.takeWhile isAsciiDigit, after.dropWhile isAsciiDigit)
    | _ => ([], rest)
  if whole.isEmpty && fraction.isEmpty then none
  else
    (exponentOf tail).map fun power =>
      ⟨negative, natOfDigits (whole ++ fraction), power - fraction.length⟩

def toBinary (d : Decimal) : Binary64 :=
  .ofDecimal d.negative d.digits d.exponent

end Decimal

namespace Binary64

/-- The words for values that have no digits. -/
def ofWord? (negative : Bool) (t : Text) : Option Binary64 :=
  let small := t.map Char.toLower
  if small = "inf" ∨ small = "infinity" then some (.infinite negative)
  else if small = "nan" then some .nan
  else none

/-- The value that a text writes, with blanks around it. -/
def ofText? (t : Text) : Option Binary64 :=
  let (negative, body) := Decimal.splitSign ((Text.trim Decimal.isMargin t).map Decimal.plainDigit)
  match ofWord? negative body with
  | some x => some x
  | none =>
    (Decimal.withoutSeparators false body).bind fun plain =>
      (Decimal.ofPlain negative plain).map Decimal.toBinary

end Binary64

namespace Number

/-- A sign and decimal digits of any script, and nothing else. -/
def isIntegral (t : Text) : Bool :=
  let (_, digits) := Decimal.splitSign t
  !digits.isEmpty && digits.all isDigitChar

/-- The number that a text writes. A text of digits alone gives an integer, read through the nearest
floating value; any other finite number stays a floating value. -/
def ofText? (t : Text) : Option Number :=
  match Binary64.ofText? t with
  | some x =>
    if x.isFinite then
      some (match x.toInt? with
        | some n => if isIntegral t then .int n else .float x
        | none => .float x)
    else none
  | none => none

end Number

def integerDigitLimit : Nat := 4300

/-- The integer that a text writes, with blanks around it; none if it has too many digits. -/
def intOfText? (t : Text) : Option Int :=
  let (negative, body) := Decimal.splitSign ((Text.trim Decimal.isMargin t).map Decimal.plainDigit)
  (Decimal.withoutSeparators false body).bind fun digits =>
    if digits ≠ [] ∧ digits.all isAsciiDigit ∧ digits.length ≤ integerDigitLimit then
      some (if negative then -(natOfDigits digits : Int) else natOfDigits digits)
    else none

end AskTable
