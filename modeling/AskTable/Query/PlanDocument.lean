import AskTable.Query.Plan

/-!
Plans as they come in from outside: the shape that a model's reply must have, the canonical form of
such a reply, and the lenient reading of a plan whose parts may be missing.
-/
namespace AskTable

namespace Value

/-- What a value gives when it is walked over: items, characters or keys. -/
def elements? : Value → Option (List Value)
  | .list items => some items
  | .text t => some (t.map fun c => .text [c])
  | .dict entries => some (entries.map (·.1))
  | _ => none

/-- What a value gives when it is walked over; nothing if it counts as false. -/
def elements (v : Value) : Except Fault (List Value) :=
  if v.isTrue then
    match v.elements? with
    | some items => .ok items
    | none => .error .wrongKind
  else .ok []

/-- The name that a value gives to a field. Whatever counts as false names none. -/
def fieldName (v : Value) : Text :=
  if v.isTrue then v.shown else []

/-- The member of a dictionary that must be there. -/
def required (entries : List (Value × Value)) (name : Text) : Except Fault Value :=
  match member? entries name with
  | some v => .ok v
  | none => .error (.missingMember name)

def isScalar : Value → Bool
  | .list _ | .dict _ => false
  | _ => true

end Value

namespace Filter

/-- A filter in the shape that is asked for: a named field, a known operator and no nested value. -/
def isShaped (v : Value) : Bool :=
  match v with
  | .dict entries =>
    let f : Filter := ⟨entries⟩
    (f.field.text?.any fun t => !t.isEmpty) && f.operator?.isSome && f.operand.isScalar
  | _ => false

/-- The filter with its three members only, and no blanks around the field's name. -/
def canonical (v : Value) : Except Fault Value :=
  match v with
  | .dict entries => do
    let field ← Value.required entries "field"
    let operator ← Value.required entries "operator"
    return .dict [("field", .text field.shown.strip), ("operator", operator),
      ("value", Value.member entries "value")]
  | _ => .error .wrongKind

def read (v : Value) : Except Fault Filter :=
  match v with
  | .dict entries => .ok ⟨entries⟩
  | _ => .error .noMembers

def describeIn (v : Value) : Except Fault Text := do
  let parts ← (← v.elements).mapM fun item => do describe (← read item)
  return joinDescriptions parts

end Filter

namespace Plan

def isShaped (entries : List (Value × Value)) : Bool :=
  let filters := match Value.member entries "filters" with
    | .list items => items.all Filter.isShaped
    | _ => false
  let fields := match Value.member? entries "fields" with
    | some (.list items) => items.all fun v => v.text?.isSome
    | some _ => false
    | none => true
  let intent := ((Value.member entries "intent").text?.bind Intent.ofName?).isSome
  filters && fields && intent

/-- The plan of a reply with all parts explicit: trimmed names, and no blank ones among the fields. -/
def canonical (entries : List (Value × Value)) : Except Fault Value := do
  let filters ← (← (Value.member entries "filters").elements).mapM Filter.canonical
  let names := (← (Value.member entries "fields").elements).map fun v => v.shown.strip
  let intent ← Value.required entries "intent"
  return .dict [("filters", .list filters),
    ("fields", .list ((names.filter fun name => !name.isEmpty).map .text)), ("intent", intent)]

def namesOf (fields : Value) : Except Fault (List Text) :=
  fields.elements.map fun items => items.map Value.fieldName

def fieldNames (p : Plan) : Except Fault (List Text) :=
  namesOf p.fields

/-- The names of the fields of a plan that is not read as a whole. -/
def fieldNamesIn (v : Value) : Except Fault (List Text) :=
  if v.isTrue then
    match v with
    | .dict entries => namesOf (Value.member entries "fields")
    | _ => .error .noMembers
  else .ok []

/-- The plan that a value is. Missing parts have their defaults, and an unknown intent lists. -/
def read (v : Value) : Except Fault Plan :=
  if v.isTrue then
    match v with
    | .dict entries => do
      let filters ← (← (Value.member entries "filters").elements).mapM Filter.read
      let intent := (Value.member entries "intent").text?.bind Intent.ofName?
      return ⟨intent.getD .list, filters, Value.member entries "fields"⟩
    | _ => .error .noMembers
  else .ok {}

end Plan

/-- The shape that an answering reply must have: an answer, a note on its source, and nothing else. -/
def isAnswerShaped (entries : List (Value × Value)) : Bool :=
  ((Value.member entries "answer").text?.any fun t => !t.isEmpty) &&
    (Value.member entries "source").text?.isSome &&
    entries.all fun (key, _) => key.isText "answer" || key.isText "source"

end AskTable
