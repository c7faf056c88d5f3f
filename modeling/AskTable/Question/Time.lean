import AskTable.Value

/-!
Dates, months and years that a question names. A written date is no month or year of its own.
-/
namespace AskTable.Question

def digit : Pattern :=
  .one isDigitChar

def shortNumber : Pattern :=
  Pattern.between 1 1 digit

/-- A slash or a dash. -/
def bar : Pattern :=
  .one fun c => c == '/' || c == '-'

def monthName : Pattern :=
  Pattern.anyWord ["january", "february", "march", "april", "may", "june", "july", "august",
    "september", "october", "november", "december"]

def ordinalWord : Pattern :=
  Pattern.anyWord ["st", "nd", "rd", "th"]

def maybeComma : Pattern :=
  Pattern.maybe (.one (· == ','))

/-- The shapes of a written date: year first, year last, month name first, and day first. -/
def datePatterns : List Pattern :=
  [.whole (.times 4 digit >> bar >> shortNumber >> bar >> shortNumber),
    .whole (shortNumber >> bar >> shortNumber >> bar >> .between 2 2 digit),
    .whole (monthName >> .gap >> shortNumber >> .maybe ordinalWord >> maybeComma >> .gap >>
      .times 4 digit),
    .whole (shortNumber >> .maybe ordinalWord >> .gap >> monthName >> maybeComma >> .gap >>
      .times 4 digit)]

/-- A digit before the ending of an ordinal number, and the length of both. -/
def ordinalAt (a : Cursor) : Option (Text × Nat) :=
  let ending := Pattern.anyOf ((["st", "nd", "rd", "th"] : List Text).map .exactly)
  ((digit >> ending >> .edge).end? a).map fun b => (a.after.take 1, a.distance b)

/-- A written date without ordinal endings and commas. -/
def plainDate (t : Text) : Text :=
  (Text.substitute ordinalAt t).filter (· != ',')

/-- The date of the first shape whose first occurrence is a date. -/
def date? (q : Text) : Except Fault (Option Date) :=
  go datePatterns
where
  /-- The date by the shapes that are left. -/
  go : List Pattern → Except Fault (Option Date)
    | [] => .ok none
    | shape :: rest => do
      match shape.find? q with
      | none => go rest
      | some (a, b) =>
        match ← (Value.text (plainDate (a.textTo b))).date? with
        | some d => return some d
        | none => go rest

/-- The question with a space in place of each written date. -/
def withoutDates (q : Text) : Text :=
  datePatterns.foldl (fun t shape => Text.replace shape " " t) q

def letterRuns (q : Text) : List Text :=
  (Text.splitWhen (fun c => !c.isLower) q).filter (!·.isEmpty)

/-- Whether a question asks for leave, so that "may" is no month. -/
def asksLeave (q : Text) : Bool :=
  Pattern.occursIn (.edge >> .exactly "may" >> .gap >>
    .anyOf [.exactly "i", .exactly "we", .exactly "you"] >> .edge) q

def month? (q : Text) : Option Nat :=
  let plain := (withoutDates q).lower
  (letterRuns plain).findSome? fun word =>
    if word == ("may" : Text) && asksLeave plain then none else Date.monthOfName? word

/-- A year of the twentieth or the twenty-first century. -/
def yearPattern : Pattern :=
  .anyOf [.exactly "19", .exactly "20"] >> .times 2 digit

def year? (q : Text) : Option Nat :=
  (Pattern.findPart? .edge yearPattern .edge (withoutDates q)).map fun t =>
    natOfDigits (t.map Decimal.plainDigit)

def isMonth (word : Text) : Bool :=
  (Date.monthOfName? word).isSome

def isYear (word : Text) : Bool :=
  word.length == 4 && (Pattern.whole yearPattern).occursIn word

end AskTable.Question
