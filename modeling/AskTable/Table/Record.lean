import AskTable.Table.Column

/-!
Records: the cells of a row by column, and beside them the fields that are derived from a cell for
searching. A derived field never takes the place of a column.
-/
namespace AskTable

/-- The fields of a row by name, in the order in which they were set. -/
abbrev Record := List (Text × Value)

namespace Record

def get? (r : Record) (name : Text) : Option Value :=
  List.lookup name r

/-- The field of a name, null where the record has none. -/
def get (r : Record) (name : Text) : Value :=
  (r.get? name).getD .null

def set (r : Record) (name : Text) (v : Value) : Record :=
  putEntry name v r

/-- The record with a derived field set, unless the name is that of a column. -/
def derive (columns : List Text) (r : Record) (name : Text) (v : Value) : Record :=
  if columns.contains name then r else r.set name v

end Record

inductive Shadow where
  | search
  | upper
  | normalized
  | parsed
  | month
  | year
  | formatted
  deriving DecidableEq, Repr

namespace Shadow

def suffix : Shadow → Text
  | search => "_search"
  | upper => "_upper"
  | normalized => "_normalized"
  | parsed => "_parsed"
  | month => "_month"
  | year => "_year"
  | formatted => "_formatted"

def field (s : Shadow) (column : Text) : Text :=
  column ++ s.suffix

end Shadow

/-- A cell of a date column: the date in it and the text that it is searched by. -/
structure DateReading where
  date : Option Date
  formatted : Text

namespace DateReading

def invalid : Text := "Invalid Date"

/-- The date in a cell. A blank cell has an empty text, a cell without a date a fixed one. -/
def ofCell (v : Value) : Except Fault DateReading :=
  if v.isBlank then .ok ⟨none, []⟩
  else
    v.date?.map fun
      | some d => ⟨some d, d.iso⟩
      | none => ⟨none, invalid⟩

def parsed (r : DateReading) : Value :=
  (r.date.map Value.date).getD .null

def month (r : DateReading) : Value :=
  (r.date.map fun d => Value.int d.month).getD .null

def year (r : DateReading) : Value :=
  (r.date.map fun d => Value.int d.year).getD .null

end DateReading

/-- The derived fields of a cell, by the class of its column. -/
def shadowsOf (kind : ColumnClass) (v : Value) : Except Fault (List (Shadow × Value)) :=
  let text := v.cellText
  match kind with
  | .date =>
    (DateReading.ofCell v).map fun r =>
      [(.search, .text text.lower), (.parsed, r.parsed), (.month, r.month), (.year, r.year),
        (.formatted, .text r.formatted)]
  | .identifier => .ok [(.search, .text text.lower)]
  | .freeText =>
    .ok [(.search, .text text.lower), (.upper, .text text.upper), (.normalized, .text v.normalText)]
  | .other => .ok []

end AskTable
