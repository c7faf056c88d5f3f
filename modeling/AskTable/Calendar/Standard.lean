import AskTable.Calendar.Date

/-!
Dates in the standard form: a year of four digits, then month and day with one mark or none between
them, then perhaps a time of day and a distance to world time. ASCII digits only.
-/
namespace AskTable
namespace StandardForm

/-- A number of one or two digits in front, and what follows it. Without a mark before it a number has
two digits. -/
def takePair (marked : Bool) : Text → Option (Nat × Text)
  | a :: b :: rest =>
    if isAsciiDigit a && isAsciiDigit b then some (natOfDigits [a, b], rest)
    else if isAsciiDigit a && marked then some (natOfDigits [a], b :: rest)
    else none
  | [a] => if isAsciiDigit a && marked then some (natOfDigits [a], []) else none
  | [] => none

/-- Whether a text is a distance to world time, or nothing. Blanks may stand around it. -/
def isZone (t : Text) : Bool :=
  match t.dropWhile isBlankChar with
  | [] => true
  | 'Z' :: rest => Text.isBlank rest
  | sign :: rest =>
    (sign == '+' || sign == '-') &&
      match takePair true rest with
      | none => false
      | some (hours, rest) =>
        hours < 24 &&
          match rest with
          | [] => true
          | ':' :: rest => isMinutes rest
          | c :: rest => if isAsciiDigit c then isMinutes (c :: rest) else Text.isBlank (c :: rest)
where
  /-- Minutes of a distance, and nothing but blanks after them. -/
  isMinutes (t : Text) : Bool :=
    (takePair true t).any fun (minutes, rest) => minutes < 60 && Text.isBlank rest

/-- Whether a text is a fraction of a second and a distance to world time, either of them perhaps
absent. -/
def isFractionAndZone : Text → Bool
  | '.' :: rest => isZone (rest.dropWhile isAsciiDigit)
  | t => isZone t

/-- What a clock has after a number: the next number, with or without a mark in front, or its end. -/
def isClockEnd (marked : Bool) (next last : Text → Bool) : Text → Bool
  | [] => true
  | c :: rest =>
    if marked && c == ':' then rest.head?.any isAsciiDigit && next rest
    else if !marked && isAsciiDigit c then next (c :: rest)
    else last (c :: rest)

/-- Whether a text is a time of day. Hours of one digit need minutes after a colon. -/
def isClock (t : Text) : Bool :=
  match takePair true t with
  | none => false
  | some (hour, rest) =>
    let twoDigits := t.length = rest.length + 2
    let marked := rest.head? == some ':'
    let below (next : Text → Bool) (t : Text) : Bool :=
      (takePair marked t).any fun (n, rest) => n < 60 && next rest
    let seconds := below isFractionAndZone
    let minutes := below (isClockEnd marked seconds isZone)
    hour < 24 && (twoDigits || marked) && isClockEnd marked minutes isZone rest

/-- Year, month and day of a text in the standard form. The year may be zero; the day exists. -/
def read? : Text → Option (Nat × Nat × Nat)
  | y₁ :: y₂ :: y₃ :: y₄ :: rest =>
    let digits := [y₁, y₂, y₃, y₄]
    let year := natOfDigits digits
    if !digits.all isAsciiDigit then none
    else
      match rest with
      | [] => some (year, 1, 1)
      | mark :: after =>
        if isAsciiDigit mark then (takePair false rest).bind fun (month, rest) =>
          if rest.isEmpty then none else readDay year month false rest
        else if ['-', '.', '/', '\\', ' '].contains mark then
          (takePair true after).bind fun (month, rest) =>
            match rest with
            | [] => if 1 ≤ month && month ≤ 12 then some (year, month, 1) else none
            | c :: rest => if c = mark then readDay year month true rest else none
        else none
  | _ => none
where
  /-- The day, and then nothing or a time of day. -/
  readDay (year month : Nat) (marked : Bool) (t : Text) : Option (Nat × Nat × Nat) :=
    (takePair marked t).bind fun (day, rest) =>
      let timed := match rest with
        | [] => true
        | c :: rest => (c == 'T' || c == ' ') && isClock rest
      if timed && isDayOfYear year month day then some (year, month, day) else none

end StandardForm
end AskTable
