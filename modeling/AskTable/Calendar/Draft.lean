import AskTable.Calendar.Parts

/-!
Free reading of a date text, piece by piece: numbers and months of a date, a time of day in any place, a
distance to world time, a weekday. A piece that is none of these and no filler makes the text unreadable.
-/
namespace AskTable

/-- What has been read of a date text. The offset is in seconds, without its direction. -/
structure DateDraft where
  parts : DateParts
  hour : Option Nat
  minute : Option Nat
  second : Option Nat
  zone : Option Text
  offset : Option Nat
  weekday : Bool

namespace DateDraft

def empty : DateDraft :=
  ⟨.empty, none, none, none, none, none, false⟩

def hourOf (hour : Nat) (afternoon : Bool) : Nat :=
  if afternoon && hour < 12 then hour + 12 else if !afternoon && hour == 12 then 0 else hour

/-- A fraction in whole sixtieths; none if it is zero. -/
def sixtieths (fraction : Option Text) : Option Nat :=
  fraction.bind fun digits =>
    if natOfDigits digits = 0 then none
    else some (60 * natOfDigits digits / Nat.pow 10 digits.length)

/-- The draft with a number that has been named as an hour, a minute or a second. The fraction of one
goes to the next. -/
def setUnit (d : DateDraft) (unit : Option ClockUnit) (n : Nat) (fraction : Option Text) : DateDraft :=
  match unit with
  | some .hour => { d with hour := some n, minute := sixtieths fraction <|> d.minute }
  | some .minute => { d with minute := some n, second := sixtieths fraction }
  | some .second => { d with second := some n }
  | none => d

/-- The unit that a number is named as, by a word behind it or by the one that the number before it had,
and how many pieces behind the number belong to that. -/
def unitOf? (before rest : List DateToken) : Option (Nat × Option ClockUnit) :=
  (rest.head?.bind DateToken.unit?).map (1, some ·) <|>
    (match rest with
      | .gap :: next :: _ => next.unit?.map (2, some ·)
      | _ => none) <|>
    (before.head?.bind DateToken.unit?).map (0, ·.next) <|>
    match before, rest with
    | .gap :: previous :: _, [] => previous.unit?.map (0, ·.next)
    | _, _ => none

/-- Minutes, and seconds if there are any, behind an hour and its colon. -/
def readClock (d : DateDraft) (hour : Nat) : List DateToken → Option (Nat × DateDraft)
  | .number m _ :: .mark ':' :: .number s _ :: _ =>
    some (4, { d with hour := some hour, minute := some (natOfDigits m), second := some (natOfDigits s) })
  | .number _ _ :: .mark ':' :: _ :: _ => none
  | .number m fraction :: _ =>
    some (2, { d with hour := some hour, minute := some (natOfDigits m), second := sixtieths fraction })
  | _ => none

/-- The parts of a date between bars, after the first number and its bar. -/
def readBars (p : DateParts) (bar : Char) : List DateToken → Option (Nat × DateParts)
  | [] => some (1, p)
  | next :: after =>
    if next.isFiller then some (1, p)
    else
      (p.addToken next).bind fun p =>
        match after with
        | .mark c :: rest =>
          if c = bar then rest.head?.bind fun third => (p.addToken third).map (4, ·) else some (2, p)
        | _ => some (2, p)

/-- A number with nothing of a date or of a unit in its digits: the hour of a clock, a part between bars,
an hour of a half of the day, or a part of the date. -/
def readPlain (d : DateDraft) (whole : Text) (fraction : Option Text) (rest : List DateToken) :
    Option (Nat × DateDraft) :=
  let n := natOfDigits whole
  let bound := if (sixtieths fraction).isSome then n + 1 else n
  let part (used : Nat) := (d.parts.addValue n bound).map fun p => (used, { d with parts := p })
  let unmarked (_ : Unit) :=
    match rest with
    | [] => part 1
    | next :: after =>
      if next.isFiller then
        match after.head?.bind DateToken.afternoon? with
        | some afternoon => some (2, { d with hour := some (hourOf n afternoon) })
        | none => part 1
      else
        match next.afternoon? with
        | some afternoon =>
          if n < 24 then some (1, { d with hour := some (hourOf n afternoon) })
          else none
        | none => if 1 ≤ n ∧ bound ≤ d.parts.lastDay then part 0 else none
  match rest with
  | .mark c :: after =>
    if c = ':' ∧ after ≠ [] then readClock d n after
    else if ['-', '/', '.'].contains c then
      if fraction.isSome then none
      else
        (d.parts.addDigits whole).bind fun p =>
          (readBars p c after).map fun (used, p) => (used, { d with parts := p })
    else unmarked ()
  | _ => unmarked ()

/-- Hours, minutes and seconds in digits without marks. -/
def setRun (d : DateDraft) (digits : Text) : DateDraft :=
  { d with
    hour := some (natOfDigits (digits.take 2))
    minute := if 2 < digits.length then some (natOfDigits ((digits.drop 2).take 2)) else d.minute
    second := if 4 < digits.length then some (natOfDigits (digits.drop 4)) else d.second }

/-- A number, and how many pieces behind it belong to it. After a whole date two or four digits are a
time; six digits are a date or a time, and eight, twelve or fourteen a date and then a time. -/
def readNumber (d : DateDraft) (before : List DateToken) (whole : Text) (fraction : Option Text)
    (rest : List DateToken) : Option (Nat × DateDraft) :=
  let length := whole.length + (fraction.map (·.length + 1)).getD 0
  let onClock := rest.head?.any fun next => next == .mark ':' || next.unit?.isSome
  if d.parts.numbers.length = 3 ∧ (length = 2 ∨ length = 4) ∧ d.hour.isNone ∧ !onClock then
    if fraction.isSome then none else some (0, d.setRun whole)
  else if whole.length = 6 then
    if d.parts.numbers.isEmpty && fraction.isNone then
      let parts := d.parts.addNumber (natOfDigits (whole.take 2)) |>.addNumber
        (natOfDigits ((whole.drop 2).take 2)) |>.addNumber (natOfDigits (whole.drop 4))
      some (0, { d with parts := parts })
    else some (0, d.setRun whole)
  else if length = 6 ∨ length = 8 ∨ length = 12 ∨ length = 14 then
    if fraction.isSome then none
    else
      (d.parts.addYear (natOfDigits (whole.take 4))).map fun p =>
        let p := p.addNumber (natOfDigits ((whole.drop 4).take 2)) |>.addNumber
          (natOfDigits ((whole.drop 6).take 2))
        let d := { d with parts := p }
        (0, if length = 8 then d else d.setRun (whole.drop 8))
  else
    match unitOf? before rest with
    | some (used, unit) => some (used, d.setUnit unit (natOfDigits whole) fraction)
    | none => d.readPlain whole fraction rest

/-- A month that has been named, and how many pieces behind it belong to it: numbers after bars, or the
year after "of". -/
def readMonth (d : DateDraft) (month : Nat) (rest : List DateToken) : Option (Nat × DateDraft) :=
  (d.parts.addMonth month).bind fun p =>
    let plain := some (0, { d with parts := p })
    match rest with
    | .mark bar :: after =>
      if bar = '-' ∨ bar = '/' then do
        let p ← p.addDigits (← after.head?.bind DateToken.digits?)
        match after.tail with
        | .mark c :: last =>
          if c = bar then
            let p ← p.addDigits (← last.head?.bind DateToken.digits?)
            return (4, { d with parts := p })
          else return (2, { d with parts := p })
        | _ => return (2, { d with parts := p })
      else plain
    | .gap :: joint :: .gap :: next :: _ =>
      if joint.isAmong ["of"] then
        match next.digits? with
        | some digits =>
          (p.addYear (WrittenDate.expandYear (natOfDigits digits))).map fun p =>
            (4, { d with parts := p })
        | none => some (4, { d with parts := p })
      else plain
    | _ => plain

def isWorldTime (t : Text) : Bool :=
  (["utc", "gmt", "z"] : List Text).contains (t.map Char.toLower)

/-- Whether a word can name the zone of a time that has been read: at most five capital letters. -/
def takesZone (d : DateDraft) (t : Text) : Bool :=
  d.hour.isSome && d.zone.isNone && t.length ≤ 5 &&
    (t.all (fun c => 'A' ≤ c && c ≤ 'Z') || t == ['z'])

/-- A word, and how many pieces behind it belong to it. -/
def readWord (d : DateDraft) (t : Text) (rest : List DateToken) : Option (Nat × DateDraft) :=
  let token := DateToken.word t
  if token.isWeekday then some (0, { d with weekday := true })
  else
    match token.month?, token.afternoon? with
    | some month, _ => d.readMonth month rest
    | none, some afternoon =>
      d.hour.bind fun hour =>
        if hour ≤ 12 then some (0, { d with hour := some (hourOf hour afternoon) }) else none
    | none, none =>
      if d.takesZone t && d.offset.isNone then
        let signed := rest.head?.any fun next => next == .mark '+' || next == .mark '-'
        some (0, { d with zone := if signed && isWorldTime t then none else some t })
      else if token.isFiller then some (0, d)
      else none

/-- A zone in brackets behind an offset: how many pieces it has, and the draft with it. -/
def readBracketed (d : DateDraft) : List DateToken → Nat × DateDraft
  | joint :: .mark '(' :: .word t :: .mark ')' :: _ =>
    if joint.isFiller && 3 ≤ t.length && d.takesZone t then (4, { d with zone := some t }) else (0, d)
  | _ => (0, d)

/-- The distance to world time behind its sign, in four digits, in hours, or in hours and minutes. -/
def readOffset (d : DateDraft) : List DateToken → Option (Nat × DateDraft)
  | .number h none :: rest =>
    let done (used hours minutes : Nat) (rest : List DateToken) :=
      let (more, d) := readBracketed { d with offset := some (hours * 3600 + minutes * 60) } rest
      some (used + more, d)
    if h.length = 4 then done 1 (natOfDigits (h.take 2)) (natOfDigits (h.drop 2)) rest
    else
      match rest with
      | .mark ':' :: .number m none :: after => done 3 (natOfDigits h) (natOfDigits m) after
      | .mark ':' :: _ => none
      | _ => if h.length ≤ 2 then done 1 (natOfDigits h) 0 rest else none
  | _ => none

/-- A piece, and how many of those behind it belong to it. -/
def readToken (d : DateDraft) (before : List DateToken) (token : DateToken) (rest : List DateToken) :
    Option (Nat × DateDraft) :=
  match token with
  | .number whole fraction => d.readNumber before whole fraction rest
  | .word t => d.readWord t rest
  | .mark c =>
    if d.hour.isSome && (c == '+' || c == '-') then d.readOffset rest
    else if token.isFiller then some (0, d)
    else none
  | .gap => some (0, d)

/-- The draft of the pieces after those that have been read, the nearest of which come first in
`before`; the next `skip` of them have been read already. -/
def read : Nat → List DateToken → List DateToken → DateDraft → Option DateDraft
  | _, _, [], d => some d
  | skip + 1, before, token :: rest, d => read skip (token :: before) rest d
  | 0, before, token :: rest, d =>
    (d.readToken before token rest).bind fun (used, d) => read used (token :: before) rest d

/-- Whether the time of day exists, as far as it has been read. -/
def hasClock (d : DateDraft) : Bool :=
  d.hour.all (· < 24) && d.minute.all (· < 60) && d.second.all (· < 60)

/-- Whether the zone is that of world time, or has an offset of less than a day. -/
def hasZone (d : DateDraft) : Bool :=
  match d.zone, d.offset with
  | none, none => true
  | none, some seconds => seconds < 86400
  | some name, some seconds => isWorldTime name || seconds < 86400
  | some name, none => isWorldTime name

/-- The date of the draft. What is missing is the first one; a weekday needs a day. -/
def date? (d : DateDraft) : Option Date :=
  d.parts.resolve.bind fun written =>
    let year := written.year.map fun y => if d.parts.fullYear then y else WrittenDate.expandYear y
    let isEmpty := d.parts.numbers.isEmpty && d.hour.isNone && d.minute.isNone && d.second.isNone
    if isEmpty || (d.weekday && written.day.isNone) || !d.hasClock || !d.hasZone then none
    else Date.of? (year.getD 1) (written.month.getD 1) (written.day.getD 1)

def ofText? (t : Text) : Option DateDraft :=
  read 0 [] (DateToken.ofText t) .empty

end DateDraft
end AskTable
