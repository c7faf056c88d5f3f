import AskTable.Proofs.Walk
import AskTable.Query.Matching

/-! When what a condition looks at can be read: the number or the date in a cell and in an operand. -/
namespace AskTable

/-- Whether a text writes a date with the year zero or a year before it. -/
def Date.isBeforeFirst (t : Text) : Bool :=
  shape.occursIn t &&
    if isSigned t then (wholeOfFreeForm? t).isNone
    else (StandardForm.read? t).any fun parts => parts.1 = 0

theorem Date.succeeds_ofSpelling_iff {t : Text} :
    Succeeds (ofSpelling t) ↔ isBeforeFirst t = false := by
  unfold ofSpelling isBeforeFirst
  cases shape.occursIn t with
  | false => simp
  | true =>
    cases isSigned t with
    | true => cases wholeOfFreeForm? t <;> simp
    | false =>
      cases StandardForm.read? t with
      | none => simp
      | some parts =>
        obtain ⟨year, month, day⟩ := parts
        by_cases hyear : year = 0 <;> simp [hyear]

theorem Date.succeeds_ofText_iff {t : Text} : Succeeds (ofText t) ↔ isBeforeFirst t = false := by
  rw [← succeeds_ofSpelling_iff, ofText, Succeeds.bind_iff]
  refine exists_congr fun found => and_iff_left ?_
  cases found <;> exact ⟨_, rfl⟩

namespace Value

/-- Whether a value is an integer that no floating value is near to. -/
def isHuge : Value → Bool
  | .int n => Binary64.overflowBound ≤ n.natAbs
  | _ => false

def isBeforeFirst : Value → Bool
  | .text t => Date.isBeforeFirst t.strip
  | _ => false

variable {v : Value}

theorem succeeds_number?_iff : Succeeds v.number? ↔ v.isHuge = false := by
  cases v with
  | int n =>
    by_cases hn : Binary64.overflowBound ≤ n.natAbs <;> simp [number?, isHuge, hn]
  | null | bool b | float x | text t | date d | moment m | list items | dict entries =>
    unfold number? isHuge
    dsimp only
    try split_ifs
    all_goals simp

theorem succeeds_monthNumber?_iff : Succeeds v.monthNumber? ↔ v.isHuge = false := by
  rw [monthNumber?, Succeeds.map_iff, succeeds_number?_iff]

theorem succeeds_date?_iff : Succeeds v.date? ↔ v.isBeforeFirst = false := by
  cases v with
  | text t => exact Date.succeeds_ofText_iff
  | null | bool b | int n | float x | date d | moment m | list items | dict entries =>
    simp [date?, isBeforeFirst]

end Value

namespace Record

variable {columns : List Text} {r : Record} {field : Text}

/-- Whether the date of a field is looked for in the field itself, for want of a derived one. -/
def readsDate (columns : List Text) (r : Record) (field : Text) : Bool :=
  match r.get? (Shadow.parsed.field field) with
  | some (.date _) | some (.moment _) => false
  | some _ => !Snapshot.isDateColumn columns field
  | none => true

def hasReadableTime (columns : List Text) (r : Record) (field : Text) : Bool :=
  !(r.readsDate columns field && (r.get field).isBeforeFirst)

theorem succeeds_timeAt_iff :
    Succeeds (r.timeAt columns field) ↔ r.hasReadableTime columns field = true := by
  have hown := (r.get field).succeeds_date?_iff
  unfold timeAt hasReadableTime readsDate
  dsimp only
  cases hfound : r.get? (Shadow.parsed.field field) with
  | none => simp [hown]
  | some v =>
    cases hcolumn : Snapshot.isDateColumn columns field <;> cases v <;> simp [hown]

theorem succeeds_dateAt_iff :
    Succeeds (r.dateAt columns field) ↔ r.hasReadableTime columns field = true := by
  rw [dateAt, Succeeds.map_iff, succeeds_timeAt_iff]

end Record

namespace Condition

variable {columns : List Text} {c : Condition} {conditions : List Condition} {r : Record}

/-- Whether what an operator looks at in a record and in its operand can be read. The operand of a month or
a year is looked at where there is a date. -/
def IsReadable (columns : List Text) (c : Condition) (r : Record) : Prop :=
  match c.operator with
  | .month | .year => r.hasReadableTime columns c.field = true ∧
      (r.dateAt columns c.field ≠ .ok none → c.operand.isHuge = false)
  | .greaterThan | .lessThan => (r.get c.field).isHuge = false ∧ c.operand.isHuge = false
  | _ => True

theorem succeeds_holds_iff : Succeeds (c.holds columns r) ↔ c.IsReadable columns r := by
  unfold holds IsReadable
  cases c.operator with
  | contains | equals | startsWith | endsWith | isEmpty | isNotEmpty => simp
  | month =>
    dsimp only
    rw [← Record.succeeds_dateAt_iff, ← Value.succeeds_monthNumber?_iff]
    cases r.dateAt columns c.field with
    | error fault => simp
    | ok date => cases date <;> simp
  | year =>
    dsimp only
    rw [← Record.succeeds_dateAt_iff, ← Value.succeeds_number?_iff]
    cases r.dateAt columns c.field with
    | error fault => simp
    | ok date => cases date <;> simp
  | greaterThan | lessThan =>
    rw [← Value.succeeds_number?_iff, ← Value.succeeds_number?_iff]
    simp only [Succeeds.bind_iff, Succeeds.pure, and_true]
    exact exists_and_right

end Condition
end AskTable
