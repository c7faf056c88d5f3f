import AskTable.Table.Profile

/-!
A loaded table with the profiles of its columns and the keyword index that they make up. A snapshot
never changes; a new load makes a new one.
-/
namespace AskTable

/-- A loaded table. There is one profile for each different column name. -/
structure Snapshot where
  name : Text
  columns : List Text
  records : List Record
  profiles : List (Text × Profile)

structure Dataset where
  header : List Value
  rows : List Value
  name : Text

namespace Snapshot

def ofRecords (name : Text) (columns : List Text) (records : List Record) : Except Fault Snapshot := do
  let profiles ← columns.eraseDups.mapM fun column => (Profile.ofColumn column records).map (column, ·)
  return ⟨name, columns, records, profiles⟩

def build (source : Dataset) : Except Fault Snapshot := do
  let table ← Table.load source.header source.rows
  ofRecords source.name table.columns table.records

def profile? (s : Snapshot) (column : Text) : Option Profile :=
  List.lookup column s.profiles

def isSearchable (s : Snapshot) (column : Text) : Bool :=
  (s.profile? column).any (·.searchable)

/-- The different texts of each searchable column, in small form. -/
def uniqueValues (s : Snapshot) : List (Text × List Text) :=
  (s.profiles.filter (·.2.searchable)).map fun (column, p) => (column, p.uniqueValues)

def isDateColumn (columns : List Text) (field : Text) : Bool :=
  columns.contains field && ColumnClass.ofName field = .date

def owners (s : Snapshot) (token : Text) : List Text :=
  (s.profiles.filter fun entry => entry.2.vocabulary.contains token).map (·.1)

/-- All words of the index with their columns. -/
def keywords (s : Snapshot) : List (Text × List Text) :=
  (s.profiles.flatMap fun entry => entry.2.vocabulary).eraseDups.map fun token =>
    (token, s.owners token)

/-- The words of a question that are in the index, with their columns, in order of first occurrence. -/
def lookup (s : Snapshot) (question : Text) : List (Text × List Text) :=
  ((questionTokens question).eraseDups.map fun token => (token, s.owners token)).filter
    fun hit => !hit.2.isEmpty

/-- A line for each column: name, type, number of different values and samples. -/
def schemaSummary (s : Snapshot) : Text :=
  let line (column : Text) : Text :=
    match s.profile? column with
    | some p =>
      Text.concat ["- ", column, " (", p.type.name, ", ", Text.ofNat p.distinct.length,
        " unique) e.g. ", Text.join ", " (p.samples.map Value.shown)]
    | none => []
  if s.columns.isEmpty then "(no columns)" else Text.join "\n" (s.columns.map line)

def suggestionsOf (column : Text) (p : Profile) : List Text :=
  match p.type with
  | .date => ["Show entries from " ++ column, "What happened in " ++ column ++ "?"]
  | .number =>
    let bound : Text := match p.samples with
      | v :: _ => v.shown
      | [] => "0"
    ["Show " ++ column ++ " greater than " ++ bound]
  | _ =>
    if p.searchable then ["Find entries with " ++ column, "Show all " ++ column ++ " values"] else []

def maxSuggestions : Nat := 10

/-- Example questions, those about columns first. -/
def suggestions (s : Snapshot) : List Text :=
  ((s.profiles.flatMap fun (column, p) => suggestionsOf column p) ++
    (["Show last 5 entries", "Show last 10 entries", "What are the latest records?"] : List Text)).take
    maxSuggestions

def describe (s : Snapshot) : Text :=
  let searchable := s.columns.filter s.isSearchable
  let fields := if searchable.isEmpty then s.columns else searchable
  let label : Text := if s.name.isEmpty then "your file" else s.name
  let shown : Text :=
    if fields.isEmpty then [] else " and fields like " ++ Text.join ", " (fields.take 3)
  let others : Text :=
    if fields.length ≤ 3 then [] else " and " ++ Text.ofNat (fields.length - 3) ++ " others"
  Text.concat ["I've loaded ", label, " with ", Text.ofNat s.records.length, " records", shown, others,
    ". Ask me anything about the data, e.g. counts by location or month, ",
    "or the latest action at a site."]

end Snapshot
end AskTable
