import AskTable.Calendar.Spelling
import AskTable.Number.Shortest
import AskTable.Text.Visible

/-!
Values: what a cell of a sheet holds, and what a filter or a model's reply is made of. Two texts of a
value: the shown form, and the quoted form that it has inside a list or a dictionary.
-/
namespace AskTable

/-- A value. The entries of a dictionary are ordered. -/
inductive Value where
  | null
  | bool (b : Bool)
  | int (n : Int)
  | float (x : Binary64)
  | text (t : Text)
  | date (d : Date)
  | moment (m : Moment)
  | list (items : List Value)
  | dict (entries : List (Value × Value))

instance : Inhabited Value := ⟨.null⟩

instance : Coe String Value := ⟨fun s => .text s.toList⟩

/-- The first member of a list of pairs with an equal key is replaced; a new key goes to the end. -/
def putEntry {α β : Type} [BEq α] (key : α) (value : β) : List (α × β) → List (α × β)
  | [] => [(key, value)]
  | (k, v) :: rest => if k == key then (k, value) :: rest else (k, v) :: putEntry key value rest

namespace Value

def ofNumber : Number → Value
  | .int n => .int n
  | .float x => .float x

def text? : Value → Option Text
  | .text t => some t
  | _ => none

def isText (v : Value) (t : Text) : Bool :=
  v.text? == some t

/-- Null, no, zero and whatever is empty count as false. -/
def isTrue : Value → Bool
  | .null => false
  | .bool b => b
  | .int n => n != 0
  | .float x => !(match x with | .finite _ m _ => m == 0 | _ => false)
  | .text t => !t.isEmpty
  | .date _ | .moment _ => true
  | .list items => !items.isEmpty
  | .dict entries => !entries.isEmpty

/-- A missing value: null, not-a-number, or a list with such a value as its only item. -/
def isMissing : Value → Bool
  | .null => true
  | .float x => x == .nan
  | .list [v] => v.isMissing
  | _ => false

/-- A value without content: missing, or a text of blanks. -/
def isBlank : Value → Bool
  | .text t => Text.isBlank t
  | v => v.isMissing

/-- The quote that stands around a text: the double one where only single quotes occur in it. -/
def quoteMark (t : Text) : Char :=
  if t.elem '\'' && !t.elem '"' then '"' else '\''

def hexDigits (width n : Nat) : Text :=
  let digits := Nat.toDigits 16 n
  List.replicate (width - digits.length) '0' ++ digits

/-- A character inside quotes: the quote, the backslash and what cannot be seen are escaped. -/
def quoteChar (mark c : Char) : Text :=
  if c = mark ∨ c = '\\' then ['\\', c]
  else if c = '\t' then "\\t"
  else if c = '\n' then "\\n"
  else if c = '\r' then "\\r"
  else if isVisible c then [c]
  else if c.toNat < 0x100 then "\\x" ++ hexDigits 2 c.toNat
  else if c.toNat < 0x10000 then "\\u" ++ hexDigits 4 c.toNat
  else "\\U" ++ hexDigits 8 c.toNat

def quoteText (t : Text) : Text :=
  let mark := quoteMark t
  [mark] ++ t.flatMap (quoteChar mark) ++ [mark]

def quoteDate (d : Date) : Text :=
  "datetime.date(" ++ Text.join ", " [Text.ofNat d.year, Text.ofNat d.month, Text.ofNat d.day] ++ ")"

/-- A distance to world time as whole days and the seconds beyond them. -/
def quoteOffset (seconds : Int) : Text :=
  let days := seconds / 86400
  let rest := seconds % 86400
  if seconds = 0 then "datetime.timezone.utc"
  else
    let parts : List Text :=
      (if days = 0 then [] else ["days=" ++ Text.ofInt days]) ++
        (if rest = 0 then [] else ["seconds=" ++ Text.ofInt rest])
    "datetime.timezone(datetime.timedelta(" ++ Text.join ", " parts ++ "))"

/-- The parts of a moment; seconds and their fraction are left out where they are zero. -/
def quoteMoment (m : Moment) : Text :=
  let clock : List Nat :=
    if m.microsecond ≠ 0 then [m.hour, m.minute, m.second, m.microsecond]
    else if m.second ≠ 0 then [m.hour, m.minute, m.second]
    else [m.hour, m.minute]
  let zone : List Text := match m.offset with
    | some seconds => ["tzinfo=" ++ quoteOffset seconds]
    | none => []
  "datetime.datetime(" ++
    Text.join ", " (([m.date.year, m.date.month, m.date.day] ++ clock).map Text.ofNat ++ zone) ++ ")"

mutual

/-- The form of a value inside a list or a dictionary. -/
def quoted : Value → Text
  | .null => "None"
  | .bool b => if b then "True" else "False"
  | .int n => Text.ofInt n
  | .float x => x.text
  | .text t => quoteText t
  | .date d => quoteDate d
  | .moment m => quoteMoment m
  | .list items => "[" ++ Text.join ", " (quotedItems items) ++ "]"
  | .dict entries => "\x7b" ++ Text.join ", " (quotedEntries entries) ++ "\x7d"

def quotedItems : List Value → List Text
  | [] => []
  | v :: rest => v.quoted :: quotedItems rest

def quotedEntries : List (Value × Value) → List Text
  | [] => []
  | (k, v) :: rest => (k.quoted ++ ": " ++ v.quoted) :: quotedEntries rest

end

/-- The form of a value that stands alone: texts and dates are not quoted. -/
def shown : Value → Text
  | .text t => t
  | .date d => d.iso
  | .moment m => m.isoWith ' '
  | v => v.quoted

/-- The text of a cell. Floating values that are integers lose their fraction, a moment at midnight
its time, and blanks at the ends are cut. -/
def cellText (v : Value) : Text :=
  if v.isBlank then []
  else
    match v with
    | .bool b => if b then "true" else "false"
    | .float x =>
      match x.toInt? with
      | some n => Text.ofInt n
      | none => x.text
    | .moment m => if m.isMidnight then m.date.iso else m.iso
    | v => v.shown.strip

/-- The number in a cell, if it is one. Commas are left out of texts; truth values are no numbers. -/
def number? (v : Value) : Except Fault (Option Number) :=
  match v with
  | .bool _ => .ok none
  | .int n =>
    if Binary64.overflowBound ≤ n.natAbs then .error .integerTooLarge else .ok (some (.int n))
  | .float x => .ok (if x.isFinite then some (.float x) else none)
  | v =>
    if v.isBlank then .ok none
    else .ok (Number.ofText? ((v.shown.strip).filter (· != ',')))

/-- Words of a text in small form, with one space between them and no punctuation. -/
def normalText (v : Value) : Text :=
  let plain : Text := v.cellText.lower.map fun c => if isWordChar c || isBlankChar c then c else ' '
  Text.join " " plain.words

/-- Serial day numbers of sheets that count as dates lie strictly between these. -/
def serialBounds : Nat × Nat := (25000, 50000)

def serialDate? (n : Number) : Option Date :=
  if Number.below (.int serialBounds.1) n && Number.below n (.int serialBounds.2) then
    Date.ofSerial? n.truncate.toNat
  else none

/-- The date in a cell, if it is one. Numbers are serial days, texts are read as dates. -/
def date? : Value → Except Fault (Option Date)
  | .date d => .ok (some d)
  | .moment m => .ok (some m.date)
  | .int n => .ok (serialDate? (.int n))
  | .float x => .ok (serialDate? (.float x))
  | .text t => Date.ofText t.strip
  | _ => .ok none

/-- Lists and dictionaries cannot be keys. -/
def isKey : Value → Bool
  | .list _ | .dict _ => false
  | _ => true

/-- The number that a key counts as when it is compared with another key. -/
def keyNumber? : Value → Option Number
  | .bool b => some (.int (if b then 1 else 0))
  | .int n => some (.int n)
  | .float x => some (.float x)
  | _ => none

/-- Whether two keys are the same. Numbers and truth values are compared by value. -/
def sameKey (a b : Value) : Bool :=
  match a, b with
  | .null, .null => true
  | .text s, .text t => s == t
  | .date d, .date e => d == e
  | .moment m, .moment n => m.same n
  | a, b =>
    match a.keyNumber?, b.keyNumber? with
    | some (.float (.infinite p)), some (.float (.infinite q)) => p == q
    | some p, some q =>
      match p.toRat?, q.toRat? with
      | some x, some y => x == y
      | _, _ => false
    | _, _ => false

def lookup? (entries : List (Value × Value)) (key : Value) : Option Value :=
  (entries.find? fun entry => entry.1.sameKey key).map (·.2)

/-- The entries with a key set: an equal key keeps its place and takes the new value. -/
def setKey (entries : List (Value × Value)) (key value : Value) : List (Value × Value) :=
  match entries with
  | [] => [(key, value)]
  | (k, v) :: rest => if k.sameKey key then (k, value) :: rest else (k, v) :: setKey rest key value

/-- The dictionary in which later entries with an equal key win. -/
def ofEntries (entries : List (Value × Value)) : Value :=
  .dict (entries.foldl (fun done entry => setKey done entry.1 entry.2) [])

def member? (entries : List (Value × Value)) (name : Text) : Option Value :=
  lookup? entries (.text name)

/-- The member of a dictionary, null where it has none. -/
def member (entries : List (Value × Value)) (name : Text) : Value :=
  (member? entries name).getD .null

end Value
end AskTable
