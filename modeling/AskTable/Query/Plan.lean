import AskTable.Value

/-!
Plans: what a question asks for. A plan holds filters that records must pass, the fields to show, and
an intent that says how the records are used.
-/
namespace AskTable

/-- What is done with the records that a plan selects. -/
inductive Intent where
  | count
  | list
  | listAll
  | lastAction
  | details
  | uniqueValues
  deriving DecidableEq, Repr

namespace Intent

def name : Intent → Text
  | count => "count"
  | list => "list"
  | listAll => "list_all"
  | lastAction => "last_action"
  | details => "details"
  | uniqueValues => "unique_values"

def all : List Intent :=
  [count, list, listAll, lastAction, details, uniqueValues]

def ofName? (name : Text) : Option Intent :=
  all.find? fun intent => intent.name == name

end Intent

/-- How a filter compares a cell with its value. -/
inductive Operator where
  | contains
  | equals
  | startsWith
  | endsWith
  | month
  | year
  | greaterThan
  | lessThan
  | isEmpty
  | isNotEmpty
  deriving DecidableEq, Repr

namespace Operator

def name : Operator → Text
  | contains => "contains"
  | equals => "equals"
  | startsWith => "starts_with"
  | endsWith => "ends_with"
  | month => "month"
  | year => "year"
  | greaterThan => "greater_than"
  | lessThan => "less_than"
  | isEmpty => "is_empty"
  | isNotEmpty => "is_not_empty"

def all : List Operator :=
  [contains, equals, startsWith, endsWith, month, year, greaterThan, lessThan, isEmpty, isNotEmpty]

def ofName? (name : Text) : Option Operator :=
  all.find? fun operator => operator.name == name

/-- How an operator reads in a description. -/
def phrase : Operator → Text
  | contains => "contains"
  | equals => "is"
  | startsWith => "starts with"
  | endsWith => "ends with"
  | month => "in month"
  | year => "in year"
  | greaterThan => ">"
  | lessThan => "<"
  | isEmpty => "is empty"
  | isNotEmpty => "is not empty"

/-- Whether an operator looks at the cell alone. -/
def ignoresOperand : Operator → Bool
  | isEmpty | isNotEmpty => true
  | _ => false

end Operator

/-- A filter as it was written. Its members may be missing or of any kind. -/
structure Filter where
  members : List (Value × Value)

namespace Filter

def field (f : Filter) : Value :=
  Value.member f.members "field"

def operator? (f : Filter) : Option Operator :=
  (Value.member f.members "operator").text?.bind Operator.ofName?

def operand (f : Filter) : Value :=
  Value.member f.members "value"

/-- A field, the phrase of an operator and the value that is compared with. Texts are put in quotes. -/
def wording (field phrase : Text) (operand : Value) : Text :=
  match operand with
  | .text t => Text.concat [field, " ", phrase, " \"", t, "\""]
  | v => Text.concat [field, " ", phrase, " ", v.shown]

/-- The filter in words. An operator that is not known is shown as it is; one that cannot be looked up is
a fault. -/
def describe (f : Filter) : Except Fault Text :=
  match f.operator? with
  | some operator =>
    .ok (if operator.ignoresOperand then Text.concat [f.field.shown, " ", operator.phrase]
      else wording f.field.shown operator.phrase f.operand)
  | none =>
    let operator := Value.member f.members "operator"
    if operator.isKey then .ok (wording f.field.shown operator.shown f.operand)
    else .error .wrongKind

def noneDescription : Text :=
  "all records"

def joinDescriptions (parts : List Text) : Text :=
  if parts.isEmpty then noneDescription else Text.join " AND " parts

end Filter

/-- A filter whose field and operator are known. -/
structure Condition where
  field : Text
  operator : Operator
  operand : Value

namespace Condition

def toFilter (c : Condition) : Filter :=
  ⟨[("field", .text c.field), ("operator", .text c.operator.name), ("value", c.operand)]⟩

def describe (c : Condition) : Text :=
  if c.operator.ignoresOperand then Text.concat [c.field, " ", c.operator.phrase]
  else Filter.wording c.field c.operator.phrase c.operand

def describeAll (conditions : List Condition) : Text :=
  Filter.joinDescriptions (conditions.map describe)

end Condition

/-- What a question asks for. The fields may be of any kind until they are looked at. -/
structure Plan where
  intent : Intent := .list
  filters : List Filter := []
  fields : Value := .list []

namespace Plan

/-- The plan that lists the records under some conditions. -/
def under (intent : Intent) (conditions : List Condition) : Plan :=
  { intent, filters := conditions.map Condition.toFilter }

def toValue (p : Plan) : Value :=
  .dict [("filters", .list (p.filters.map fun f => .dict f.members)),
    ("fields", p.fields), ("intent", .text p.intent.name)]

end Plan
end AskTable
