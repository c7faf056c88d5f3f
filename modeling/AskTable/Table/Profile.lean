import AskTable.Table.Loading

/-!
What is known of a column once its cells are loaded: the type of its cells, the different texts in it,
and whether its words can be searched for.
-/
namespace AskTable

/-- Words that are in no index. -/
def stopWords : List Text :=
  ["the", "a", "an", "and", "or", "but", "in", "on", "at", "to", "for", "of", "with", "by"]

/-- Words of a question that name nothing in the table. -/
def questionStopWords : List Text :=
  stopWords ++
    (["how", "many", "what", "which", "when", "where", "who", "why", "is", "are", "was", "were",
      "do", "does", "did", "show", "list", "give", "me", "find", "get", "display", "all"] : List Text) ++
    (["any", "there", "records", "record", "entries", "entry", "rows", "row", "data",
      "please", "can", "you", "tell", "about", "from", "have", "has", "been", "that", "this"] : List Text)

/-- The words of a text in small form: at least two characters long, and no stop words. -/
def tokens (stop : List Text) (t : Text) : List Text :=
  let plain : Text := t.lower.map fun c => if isWordChar c || isBlankChar c then c else ' '
  plain.words.filter fun w => 2 ≤ w.length && !stop.contains w

def cellTokens (v : Value) : List Text :=
  tokens stopWords v.cellText

def questionTokens (question : Text) : List Text :=
  tokens questionStopWords (Value.text question).cellText

inductive ColumnType where
  | string
  | number
  | date
  | boolean
  deriving DecidableEq, Repr

def ColumnType.name : ColumnType → Text
  | string => "string"
  | number => "number"
  | date => "date"
  | boolean => "boolean"

/-- How many cells of a date column are tried for a date. -/
def dateSample : Nat := 50

/-- A truth value, or the word for one. -/
def isTruthCell : Value → Bool
  | .bool _ => true
  | v => (["true", "false"] : List Text).contains v.shown.strip.lower

def columnType (name : Text) (values : List Value) : Except Fault ColumnType := do
  let filled := values.filter (!·.isBlank)
  if filled.isEmpty then return .string
  if ← filled.allM fun v => v.number?.map (·.isSome) then return .number
  if ColumnClass.ofName name = .date then
    if ← (filled.take dateSample).anyM fun v => v.date?.map (·.isSome) then return .date
  return if filled.all isTruthCell then .boolean else .string

/-- The cells with content, one for each text, in order of first occurrence. -/
def firstByText (values : List Value) : List (Text × Value) :=
  ((values.filter (!·.isBlank)).map fun v => (v.cellText, v)).eraseDupsBy fun a b => a.1 == b.1

def indexedHints : List Text :=
  ["description", "action", "location", "name", "title", "comment", "date", "time"]

def numericHints : List Text :=
  ["amount", "count", "number", "total", "sum", "average"]

def maxNumericUnique : Nat := 1000

def maxTextUnique : Nat := 500

/-- Whether the words of a column can be searched for. -/
def isSearchable (name : Text) (values : List Value) (type : ColumnType) : Bool :=
  let plain := name.lower
  let unique := (firstByText values).length
  if indexedHints.any plain.contains then true
  else if numericHints.any plain.contains || type == .number then unique ≤ maxNumericUnique
  else
    match values.find? (!·.isBlank) with
    | some (.text _) => unique ≤ maxTextUnique
    | _ => false

structure Profile where
  type : ColumnType
  searchable : Bool
  /-- The cells with content, one for each text. -/
  distinct : List (Text × Value)
  /-- The words that the column is found by. -/
  vocabulary : List Text

namespace Profile

def sampleCount : Nat := 5

def samples (p : Profile) : List Value :=
  (p.distinct.take sampleCount).map (·.2)

/-- The different texts in small form. -/
def uniqueValues (p : Profile) : List Text :=
  (p.distinct.map fun entry => entry.1.lower).eraseDups

def ofColumn (name : Text) (records : List Record) : Except Fault Profile := do
  let values := (records.map fun r => r.get name).filter (!·.isBlank)
  let type ← columnType name values
  let searchable := isSearchable name values type
  let distinct := firstByText values
  return {
    type
    searchable
    distinct
    vocabulary :=
      if searchable then (distinct.flatMap fun entry => cellTokens (.text entry.1)).eraseDups else [] }

end Profile
end AskTable
