import AskTable.Query.Field
import AskTable.Query.Matching

/-!
The order of records by date, newest first.
-/
namespace AskTable

/-- Why two times have no order, if they have none. -/
def Dated.clash? : Dated → Dated → Option Fault
  | .day _, .day _ => none
  | .moment a, .moment b => if a.offset.isSome == b.offset.isSome then none else some .unknownDistance
  | _, _ => some .dayAgainstMoment

/-- A record of a table with its place there, counted from zero. -/
abbrev Hit := Record × Nat

namespace Recency

/-- The column that tells how recent a record is: the one meant by "date" if it is one of dates, else
the first with that word in its name. -/
def column? (columns : List Text) : Option Text :=
  ((Field.resolve? "date" columns).filter fun column => Snapshot.isDateColumn columns column) <|>
    columns.find? fun column => column.lower.contains "date"

/-- Whether a time is at or after another. Any time is after none at all. -/
def isNotBefore : Option Dated → Option Dated → Bool
  | _, none => true
  | none, some _ => false
  | some a, some b => b.position ≤ a.position

/-- Newest first; hits without a time come last, and hits of one time keep their order. -/
def sortDated (dated : List (Hit × Option Dated)) : List Hit :=
  (dated.mergeSort fun a b => isNotBefore a.2 b.2).map (·.1)

/-- The first reason for which two neighbours have no order. -/
def clash? : List Dated → Option Fault
  | a :: b :: rest => a.clash? b <|> clash? (b :: rest)
  | _ => none

/-- The hits by recency. Without a column of dates their order is kept. Days and moments, and moments with
and without a distance to world time, have no order among them. -/
def sort (columns : List Text) (hits : List Hit) : Except Fault (List Hit) :=
  match column? columns with
  | none => .ok hits
  | some column => do
    let dated ← hits.mapM fun (hit : Hit) => (Record.timeAt columns hit.1 column).map (hit, ·)
    match clash? (dated.filterMap (·.2)).reverse with
    | some fault => .error fault
    | none => .ok (sortDated dated)

end Recency
end AskTable
