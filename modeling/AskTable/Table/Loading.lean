import AskTable.Table.Record

/-!
From a header and rows of cells to columns and records. Rows without content are dropped, texts are
trimmed, and a column of numbers written as text becomes a column of numbers.
-/
namespace AskTable

structure Table where
  columns : List Text
  records : List Record

namespace Table

def filledCell : Value → Value
  | .null => .text []
  | v => v

/-- Cells by place: as many as there are columns, empty texts for what is missing or null. -/
def placeCells (width : Nat) (cells : List Value) : List Value :=
  (cells.take width ++ List.replicate (width - cells.length) (Value.text [])).map filledCell

/-- The cells of a row. A dictionary is read by the cells of the header, a text gives its characters,
and whatever counts as false is an empty row. -/
def rowCells (header : List Value) (row : Value) : Except Fault (List Value) :=
  match row with
  | .dict entries =>
    header.mapM fun key =>
      if key.isKey then .ok ((Value.lookup? entries key).getD (.text [])) else .error .wrongKind
  | .list cells => .ok (placeCells header.length cells)
  | .text t => .ok (placeCells header.length (t.map fun c => .text [c]))
  | v => if v.isTrue then .error .wrongKind else .ok (placeCells header.length [])

/-- The rows that have content, as cells. -/
def body (header : List Value) (rows : List Value) : Except Fault (List (List Value)) :=
  (rows.mapM (rowCells header)).map fun all => all.filter fun cells => !cells.all Value.isBlank

/-- How many cells with content decide whether a column is one of numbers. -/
def numericSample : Nat := 50

/-- Whether the first cells with content are all numbers; without any the answer is no. -/
def isNumeric (cells : List Value) : Except Fault Bool :=
  let sample := (cells.filter (!·.isBlank)).take numericSample
  if sample.isEmpty then .ok false else sample.allM fun v => v.number?.map (·.isSome)

/-- The names of the columns of numbers. Only a column without a class of its own can be one. -/
def numericColumns (columns : List Text) (body : List (List Value)) : Except Fault (List Text) :=
  (selectM (fun (column, i) =>
      if ColumnClass.ofName column = .other then isNumeric (body.map fun cells => cells.getD i .null)
      else .ok false) columns.zipIdx).map fun chosen => chosen.map (·.1)

def trimCell : Value → Value
  | .text t => .text t.strip
  | v => v

/-- The record of a row before anything is derived. Of two columns with one name the later wins. -/
def plainRecord (columns : List Text) (cells : List Value) : Record :=
  (columns.zip cells).foldl (fun r (column, v) => r.set column (trimCell v)) []

/-- The record with the derived fields of one column, or with the number in it. -/
def deriveColumn (columns numeric : List Text) (r : Record) (column : Text) : Except Fault Record :=
  let v := r.get column
  match ColumnClass.ofName column with
  | .other =>
    if numeric.contains column && !v.isBlank then
      v.number?.map fun
        | some n => r.set column (.ofNumber n)
        | none => r
    else .ok r
  | kind =>
    (shadowsOf kind v).map fun shadows =>
      shadows.foldl (fun r (shadow, v) => r.derive columns (shadow.field column) v) r

def record (columns numeric : List Text) (cells : List Value) : Except Fault Record :=
  columns.foldlM (deriveColumn columns numeric) (plainRecord columns cells)

/-- The table of a header and rows. Without columns the rows are not looked at. -/
def load (header : List Value) (rows : List Value) : Except Fault Table :=
  let columns := Header.columns header
  if columns.isEmpty then .ok ⟨[], []⟩
  else do
    let body ← body header rows
    let numeric ← numericColumns columns body
    let records ← body.mapM (record columns numeric)
    return ⟨columns, records⟩

end Table

/-- A header and rows as a frame of cells gives them. -/
structure Sheet where
  header : List Value
  rows : List Value

/-- What a frame takes the names of its columns for, by the kinds of all of them. -/
inductive LabelKind where
  /-- Texts, some of which may be missing. -/
  | texts
  /-- Numbers, all of them floating values. -/
  | floats
  /-- Points in time, some of which may be missing. -/
  | moments
  /-- Anything else. -/
  | mixed
  deriving DecidableEq

namespace LabelKind

/-- Whether integers fit into one word of 64 bits, with or without a sign. -/
def fitWord (numbers : List Int) : Bool :=
  let below (bound : Int) : Bool := numbers.all (· < bound)
  let isPositive := numbers.all (0 ≤ ·)
  (below 9223372036854775808 && numbers.all (-9223372036854775808 ≤ ·)) ||
    (isPositive && below 18446744073709551616)

/-- The kind of some names. Missing names count as of any kind; integers become floating values if there
is such a value or a missing one among them. -/
def ofNames (names : List Value) : LabelKind :=
  let present := names.filter fun v => !isMissingLabel v
  let integers := present.filterMap fun
    | .int n => some n
    | _ => none
  let isFloat : Value → Bool
    | .float _ => true
    | _ => false
  if !present.isEmpty && present.all (·.text?.isSome) then texts
  else if !present.isEmpty && present.all isMoment then moments
  else if present.all (fun v => isFloat v || isInteger v) && fitWord integers &&
      (names.any isFloat || !integers.isEmpty && present.length < names.length) then floats
  else mixed
where
  /-- Null or not-a-number. -/
  isMissingLabel : Value → Bool
    | .null | .float .nan => true
    | _ => false
  /-- A point in time. -/
  isMoment : Value → Bool
    | .moment _ => true
    | _ => false
  /-- An integer. -/
  isInteger : Value → Bool
    | .int _ => true
    | _ => false

def label (kind : LabelKind) (v : Value) : Text :=
  match kind, v with
  | texts, .null | floats, .null => "nan"
  | moments, .null | moments, .float _ => "NaT"
  | floats, .int n => (Value.float (.ofDecimal (n < 0) n.natAbs 0)).shown
  | _, v => v.shown

end LabelKind

namespace Sheet

def plainCell : Value → Value
  | .float .nan => .null
  | v => v

/-- The cells of rows that are read by place: as many in each as in the longest, null for what is missing.
A text gives its characters and a dictionary its keys. -/
def placeRows (columns : List Value) (rows : List Value) : Except Fault (List (List Value)) := do
  let cells ← rows.mapM fun row =>
    match row with
    | .list cells => .ok cells
    | .text t => .ok (t.map fun c => .text [c])
    | .dict entries => .ok (entries.map (·.1))
    | _ => .error Fault.wrongKind
  let width := cells.foldl (fun width row => max width row.length) 0
  if width ≠ columns.length then .error (.widthMismatch columns.length width)
  else return cells.map fun row => row ++ List.replicate (width - row.length) Value.null

/-- The cells of rows that are dictionaries, by the names of the columns. -/
def namedRows (columns : List Value) (rows : List Value) : Except Fault (List (List Value)) :=
  rows.mapM fun row =>
    match row with
    | .dict entries => .ok (columns.map fun column => (Value.lookup? entries column).getD .null)
    | _ => .error Fault.wrongKind

/-- A frame with the names of its columns. The first row decides how rows are read. -/
def ofFrame (columns : List Value) (rows : List Value) : Except Fault Sheet := do
  let kind := LabelKind.ofNames columns
  let cells ← match rows with
    | [] => .ok []
    | .dict _ :: _ => namedRows columns rows
    | _ => placeRows columns rows
  return ⟨columns.map fun column => .text (kind.label column),
    if columns.isEmpty then [] else cells.map fun row => .list (row.map plainCell)⟩

def ofFrame? : Option (List Value) → List Value → Except Fault Sheet
  | some columns, rows => ofFrame columns rows
  | none, _ => .ok ⟨[], []⟩

end Sheet
end AskTable
