import AskTable.Value

/-!
Columns: their names, taken from a header, and the class that a name puts a column in.
-/
namespace AskTable

/-- What a column is about, judged by its name. -/
inductive ColumnClass where
  | date
  | identifier
  | freeText
  | other
  deriving DecidableEq, Repr

namespace ColumnClass

def name : ColumnClass → Text
  | date => "date"
  | identifier => "identifier"
  | freeText => "free_text"
  | other => "other"

/-- The parts of a name that put a column into a class; the first class that fits is taken. -/
def hints : List (ColumnClass × List Text) :=
  [(.date, ["date"]), (.identifier, ["mmt"]), (.freeText, ["location", "description", "action"])]

def ofName (name : Text) : ColumnClass :=
  let plain := name.strip.lower
  match hints.find? fun entry => entry.2.any plain.contains with
  | some entry => entry.1
  | none => .other

end ColumnClass

namespace Header

/-- The names of the cells of a header. A blank cell is named by its place. -/
def names (header : List Value) : List Text :=
  header.mapIdx fun i cell =>
    let name := cell.cellText
    if name.isEmpty then "Column " ++ Text.ofNat (i + 1) else name

/-- Names after those in `earlier`: one that has occurred takes the count of its occurrences with it. -/
def numberedAfter (earlier : List Text) : List Text → List Text
  | [] => []
  | name :: rest =>
    let count := earlier.count name
    (if count = 0 then name else name ++ "_" ++ Text.ofNat count) ::
      numberedAfter (name :: earlier) rest

def columns (header : List Value) : List Text :=
  numberedAfter [] (names header)

theorem length_numberedAfter (earlier names : List Text) :
    (numberedAfter earlier names).length = names.length := by
  induction names generalizing earlier with
  | nil => rfl
  | cons name rest ih => simp [numberedAfter, ih]

theorem length_columns (header : List Value) : (columns header).length = header.length := by
  simp only [columns, length_numberedAfter, names, List.length_mapIdx]

end Header
end AskTable
