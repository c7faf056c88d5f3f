import AskTable.Dialogue.Answering
import AskTable.Dialogue.Planning
import AskTable.Query.Search

/-!
Asking a question of a loaded table. A strict search comes first; without a hit the question is planned
and the plan carried out. Where the model cannot be reached, the answer is made from the table alone.
-/
namespace AskTable

inductive Stage where
  | planner
  | responder
  deriving DecidableEq, Repr

def Stage.instructions : Stage → Text
  | planner => Planning.instructions
  | responder => Answering.instructions

/-- The stage to which a call belongs, by what the model is told with it. -/
def Call.stage (c : Call) : Stage :=
  if c.system = Answering.instructions then .responder else .planner

inductive Route where
  | index
  | planner
  | localFallback
  | none
  deriving DecidableEq, Repr

def Route.name : Route → Text
  | index => "index"
  | planner => "planner"
  | localFallback => "local_fallback"
  | none => "none"

inductive Outcome where
  | success (message : Text) (route : Route)
  | failure (error : Text) (route : Route)
  deriving DecidableEq

namespace Outcome

def emptyQuestion : Outcome :=
  .failure "Please type a question about the loaded data." .none

def notUnderstood : Outcome :=
  .failure (Text.concat ["Sorry, I could not understand the question. ",
    "Try asking about a location, a month, ",
    "an MMT number or a keyword, e.g. \"How many records at A St in June?\""]) .planner

def noRecords : Outcome :=
  .success (Text.concat ["The loaded file has no data rows, so 0 records match. ",
    "Load a file with data to ask about it."]) .index

def noDataset : Outcome :=
  .failure Fault.noDatasetMessage .none

def ofFault (fault : Fault) : Outcome :=
  .failure ("Something went wrong while answering the question: " ++ fault.message) .none

/-- The outcome itself, or that of the fault in its place. -/
def orFault : Except Fault Outcome → Outcome
  | .ok outcome => outcome
  | .error fault => ofFault fault

/-- The outcome of an answer that was found by a route, if the model did not fail on the way. -/
def ofAnswered (route : Route) (a : Answered) : Outcome :=
  .success a.answer (if a.unreachable then .localFallback else route)

end Outcome

namespace Asking

/-- The answer from the table alone: by a rule that picks out records, by the words of the question, or
by the plan that is there. -/
def locally (s : Snapshot) (q : Text) (planned : Planned) : Except Fault Outcome :=
  let answered (p : Plan) (r : Result) : Except Fault Outcome :=
    (r.answer s p Report.unavailableNote).map fun answer => .success answer .localFallback
  let byPlan : Except Fault Outcome := (s.execute planned.plan).bind (answered planned.plan)
  if planned.rule.any (· ≠ .genericList) then byPlan
  else
    let found := s.searchLoose q
    if found.hits.isEmpty then byPlan else answered found.plan found.result

def byPlan (s : Snapshot) (q : Text) (model : Option Model) (limit : Int) (planned : Planned) :
    Dialogue (Except Fault Outcome) :=
  if planned.unreachable then .done (locally s q planned)
  else
    match s.execute planned.plan with
    | .error fault => .done (.error fault)
    | .ok result =>
      (Answering.answer s q planned.plan result model [] limit).bind fun answered =>
        .done (answered.map (.ofAnswered .planner))

/-- The answer by a plan that is still to be made. -/
def planned (s : Snapshot) (q : Text) (model : Option Model) (limit : Int) :
    Dialogue (Except Fault Outcome) :=
  (Planning.plan s q model).bind fun
    | .error _ => .done (.ok .notUnderstood)
    | .ok planned => byPlan s q model limit planned

/-- The answer to a trimmed question about a table with records. -/
def answer (s : Snapshot) (q : Text) (model : Option Model) (limit : Int) :
    Dialogue (Except Fault Outcome) :=
  match s.searchStrict q with
  | .error fault => .done (.error fault)
  | .ok found =>
    if found.hits.isEmpty then planned s q model limit
    else
      (Answering.answer s q found.plan found.result model [] limit).bind fun answered =>
        .done (answered.map (.ofAnswered .index))

def ask (s : Option Snapshot) (question : Text) (model : Option Model) (limit : Int) :
    Dialogue Outcome :=
  match s with
  | none => .done .noDataset
  | some s =>
    let q := question.strip
    if q.isEmpty then .done .emptyQuestion
    else if s.records.isEmpty then .done .noRecords
    else (answer s q model limit).bind fun outcome => .done (.orFault outcome)

end Asking
end AskTable
