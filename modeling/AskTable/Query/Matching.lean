import AskTable.Query.PlanDocument
import AskTable.Table.Snapshot

/-!
When a record satisfies a condition. A condition looks at one field of the record, and at the derived
fields of that field where its column is one of dates.
-/
namespace AskTable

namespace Number

def toInt? (n : Number) : Option Int :=
  match n with
  | .int n => some n
  | .float x => x.toInt?

end Number

namespace Value

/-- The number of a month, given as a number or by its English name. -/
def monthNumber? (v : Value) : Except Fault (Option Nat) :=
  v.number?.map fun
    | some n => (n.toInt?.filter fun i => 1 ≤ i ∧ i ≤ 12).map Int.toNat
    | none => Date.monthOfName? v.cellText.lower

end Value

namespace Record

/-- The texts that a field is searched by: its own, and the written date in a column of dates. -/
def textsAt (columns : List Text) (r : Record) (field : Text) : List Text :=
  let own := (r.get field).cellText.lower
  if Snapshot.isDateColumn columns field then
    match r.get (Shadow.formatted.field field) with
    | .text t => if t.isEmpty then [own] else [own, t.lower]
    | _ => [own]
  else [own]

/-- The time that a field tells. The derived date is taken if there is one, or the moment in a column in
its place; in a column of dates none is looked for again. -/
def timeAt (columns : List Text) (r : Record) (field : Text) : Except Fault (Option Dated) :=
  let ownDate := (r.get field).date?.map fun date => date.map Dated.day
  match r.get? (Shadow.parsed.field field) with
  | some (.date d) => .ok (some (.day d))
  | some (.moment m) => .ok (some (.moment m))
  | some _ => if Snapshot.isDateColumn columns field then .ok none else ownDate
  | none => ownDate

def dateAt (columns : List Text) (r : Record) (field : Text) : Except Fault (Option Date) :=
  (r.timeAt columns field).map fun time => time.map Dated.date

end Record

namespace Condition

/-- Whether one text stands to another as an operator on texts demands. -/
def compareTexts (operator : Operator) (t wanted : Text) : Bool :=
  match operator with
  | .contains => t.contains wanted
  | .equals => t == wanted
  | .startsWith => Text.startsWith t wanted
  | .endsWith => Text.endsWith t wanted
  | _ => false

/-- Whether both numbers are there and the first lies below the second. -/
def isBelow (a b : Option Number) : Bool :=
  match a, b with
  | some a, some b => a.below b
  | _, _ => false

def holds (columns : List Text) (c : Condition) (r : Record) : Except Fault Bool :=
  match c.operator with
  | .contains | .equals | .startsWith | .endsWith =>
    let wanted := c.operand.cellText.lower
    .ok ((r.textsAt columns c.field).any fun t => compareTexts c.operator t wanted)
  | .month => do
    match ← r.dateAt columns c.field with
    | some d => return (← c.operand.monthNumber?) == some d.month
    | none => return false
  | .year => do
    match ← r.dateAt columns c.field with
    | some d => return (← c.operand.number?).any fun n => n.truncate == (d.year : Int)
    | none => return false
  | .greaterThan => do
    let cell ← (r.get c.field).number?
    let bound ← c.operand.number?
    return isBelow bound cell
  | .lessThan => do
    let cell ← (r.get c.field).number?
    let bound ← c.operand.number?
    return isBelow cell bound
  | .isEmpty => .ok (r.get c.field).isBlank
  | .isNotEmpty => .ok !(r.get c.field).isBlank

/-- Whether a record satisfies all conditions. Those after the first that fails are not looked at. -/
def allHold (columns : List Text) (conditions : List Condition) (r : Record) : Except Fault Bool :=
  conditions.allM fun c => c.holds columns r

end Condition

namespace Filter

/-- Whether a record satisfies a filter whose field is the exact name of a field. An operator that is not
known is never satisfied, and a field that is no text is one that the record has not. -/
def admits (columns : List Text) (f : Filter) (r : Record) : Except Fault Bool := do
  let field ← Value.required f.members "field"
  let _ ← Value.required f.members "operator"
  match f.operator?, field with
  | none, _ => return false
  | some operator, .text name => Condition.holds columns ⟨name, operator, f.operand⟩ r
  | some operator, v =>
    if !v.isKey || operator = .month || operator = .year then .error .wrongKind
    else Condition.holds [] ⟨[], operator, f.operand⟩ []

end Filter
end AskTable
