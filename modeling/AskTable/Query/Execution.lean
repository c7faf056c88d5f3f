import AskTable.Query.PlanDocument
import AskTable.Query.Recency

/-!
Carrying out a plan. Filters that name no column or no known operator are dropped and reported, and
records must satisfy all the others.
-/
namespace AskTable

structure Result where
  hits : List Hit
  /-- How many records satisfy the conditions. -/
  total : Nat
  description : Text
  intent : Intent
  applied : List Condition
  dropped : List Filter

namespace Filter

/-- The condition that a filter puts on records with these columns, if its parts are known. -/
def condition? (columns : List Text) (f : Filter) : Option Condition := do
  let column ← Field.resolve? f.field.fieldName columns
  let operator ← f.operator?
  return ⟨column, operator, f.operand⟩

end Filter

namespace Snapshot

def hits (s : Snapshot) : List Hit :=
  s.records.zipIdx

def select (s : Snapshot) (conditions : List Condition) : Except Fault (List Hit) :=
  selectM (fun hit => Condition.allHold s.columns conditions hit.1) s.hits

/-- The result of a plan. The intent for the last action keeps the newest record only. -/
def execute (s : Snapshot) (p : Plan) : Except Fault Result := do
  let applied := p.filters.filterMap (Filter.condition? s.columns)
  let dropped := p.filters.filter fun f => (f.condition? s.columns).isNone
  let selected ← s.select applied
  let hits ← if p.intent = .lastAction then (Recency.sort s.columns selected).map (·.take 1)
    else .ok selected
  return {
    hits, applied, dropped
    total := selected.length
    description := Condition.describeAll applied
    intent := p.intent }

end Snapshot
end AskTable
