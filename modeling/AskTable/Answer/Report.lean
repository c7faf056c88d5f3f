import AskTable.Query.Execution

/-!
Answers made from a result without a language model: one line that counts, blocks that show records,
and lists of distinct values.
-/
namespace AskTable

/-- What an answer is made from. Parts may be missing or of any kind. -/
structure Report where
  records : List Record := []
  total : Option Value := none
  description : Value := .null
  intent : Option Intent := none
  /-- Whether conditions were applied. -/
  restricted : Bool := false
  dropped : Value := .null

def Result.report (r : Result) : Report :=
  { records := r.hits.map (·.1), total := some (.int r.total), description := .text r.description,
    intent := some r.intent, restricted := !r.applied.isEmpty,
    dropped := .list (r.dropped.map fun f => .dict f.members) }

/-- The columns that some names mean, or all if they mean none. -/
def Snapshot.columnsFor (s : Snapshot) (names : List Text) : List Text :=
  let meant := Field.resolveAll names s.columns
  if meant.isEmpty then s.columns else meant

namespace Report

/-- A cell as it is shown; a dash where there is no content. -/
def cell (r : Record) (column : Text) : Text :=
  let v := r.get column
  if v.isBlank then "-" else v.cellText

def block (index : Nat) (r : Record) (columns : List Text) : Text :=
  Text.join "\n" (("Record " ++ Text.ofNat index) ::
    columns.map fun column => Text.concat ["  ", column, ": ", cell r column])

/-- How many records are shown in full. -/
def maxBlocks : Nat := 10

/-- How many records are shown of more. -/
def previewBlocks : Nat := 5

/-- Records in blocks, with a line on those that are left out. -/
def blocks (records : List Record) (columns : List Text) : Text :=
  let shown := if records.length ≤ maxBlocks then records else records.take previewBlocks
  let rest := records.length - shown.length
  let more : List Text :=
    if rest = 0 then []
    else [Text.concat ["+", Text.ofNat rest, " more records not shown. ",
      "Add a filter (location, month, keyword) to narrow the list."]]
  Text.join "\n\n" (shown.mapIdx (fun i r => block (i + 1) r columns) ++ more)

def countLine (p : Report) : Text :=
  let total := p.total.getD (.int 0)
  let counted : Text := total.shown ++ if total.sameKey (.int 1) then " record" else " records"
  let described := p.description.isTrue && !p.description.isText Filter.noneDescription
  if p.restricted then Text.concat ["Found ", counted, " where ", p.description.shown, "."]
  else if described then Text.concat ["Found ", counted, ": ", p.description.shown, "."]
  else Text.concat ["The dataset has ", counted, " in total."]

/-- What to try where no record was found. -/
def emptyHint : Text :=
  "Try a broader question, check the spelling of locations or keywords, or ask by month or year."

def droppedLine (p : Report) : Except Fault (List Text) := do
  let filters ← (← p.dropped.elements).mapM Filter.read
  return if filters.isEmpty then []
    else [Text.concat ["Ignored fields not present in this file: ",
      Text.join ", " (filters.map fun f => f.field.shown), "."]]

/-- The answer where no record was found, with a few example questions. -/
def emptyAnswer (p : Report) (examples : List Text) : Except Fault Text :=
  let subject : Text := if p.description.isTrue then p.description.shown else "the question applies"
  p.droppedLine.map fun ignored =>
    Text.join "\n" ([Text.concat ["Found 0 records where ", subject, "."]] ++ ignored ++ [emptyHint] ++
      if examples.isEmpty then [] else ["For example: " ++ Text.join "; " examples])

/-- The action of a record, and its date if there is a column for it. -/
def actionLine (s : Snapshot) (r : Record) : List Text :=
  match (Field.resolve? "action" s.columns).filter fun column => !(r.get column).isBlank with
  | some column =>
    let date : Text := match Field.resolve? "date" s.columns with
      | some dateColumn => " on " ++ cell r dateColumn
      | none => []
    [Text.concat ["Last action: ", cell r column, date]]
  | none => []

def newestAnswer (p : Report) (s : Snapshot) (columns : List Text) (r : Record) : Text :=
  let restriction : Text := if p.restricted then " where " ++ p.description.shown else []
  let heading := Text.concat ["Most recent record", restriction, " (latest of ",
    (p.total.getD (.int 1)).shown, " matching):"]
  Text.join "\n" ([heading] ++ actionLine s r ++ [block 1 r columns])

def maxDistinct : Nat := 10

/-- The distinct values in a column, or how many there are. -/
def distinctLine (records : List Record) (column : Text) : Text :=
  let values := (firstByText (records.map fun r => r.get column)).map (·.1)
  let listed : Text := if values.isEmpty then "-" else Text.join ", " values
  if values.length ≤ maxDistinct then
    Text.concat [column, " (", Text.ofNat values.length, " distinct): ", listed]
  else Text.concat [column, " has ", Text.ofNat values.length, " distinct values."]

def distinctAnswer (p : Report) (columns : List Text) : Text :=
  Text.join "\n" (p.countLine :: columns.map (distinctLine p.records))

def listAnswer (p : Report) (columns : List Text) : Text :=
  p.countLine ++ "\n\n" ++ blocks p.records columns

/-- The answer by intent. The names of the fields that are to be shown matter only where columns are. -/
def answer (p : Report) (s : Snapshot) (names : Except Fault (List Text)) : Except Fault Text :=
  let columns := names.map s.columnsFor
  match p.records with
  | [] => p.emptyAnswer (s.suggestions.take 3)
  | r :: _ =>
    match p.intent with
    | some .count => .ok p.countLine
    | some .lastAction => columns.map fun columns => p.newestAnswer s columns r
    | some .uniqueValues => columns.map p.distinctAnswer
    | _ => columns.map p.listAnswer

/-- The answer without a table. What shows columns cannot be made. -/
def answerAlone (p : Report) : Except Fault Text :=
  if p.records.isEmpty then p.emptyAnswer []
  else if p.intent = some .count then .ok p.countLine
  else .error .noMembers

def noted (note t : Text) : Text :=
  if note.isEmpty then t else note ++ "\n\n" ++ t

/-- The note on answers that were made because the model could not be reached. -/
def unavailableNote : Text :=
  "(AI unavailable: this answer was produced by local search of your data.)"

end Report

/-- The answer to a plan's result, made without a model. -/
def Result.answer (r : Result) (s : Snapshot) (p : Plan) (note : Text) : Except Fault Text :=
  (r.report.answer s p.fieldNames).map (Report.noted note)

end AskTable
