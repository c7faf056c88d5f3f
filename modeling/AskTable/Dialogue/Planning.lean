import AskTable.Dialogue.Basic
import AskTable.Json.Repair
import AskTable.Query.PlanDocument
import AskTable.Question.Rules

/-!
Planning a question: a language model is asked for a plan, and the rules make one where there is no
model or its reply is of no use.
-/
namespace AskTable

inductive PlanSource where
  | model
  | rules
  | default
  deriving DecidableEq, Repr

def PlanSource.name : PlanSource → Text
  | model => "llm"
  | rules => "rules"
  | default => "default"

structure Planned where
  plan : Plan
  source : PlanSource
  rule : Option Rule
  /-- Whether the model could not be reached. -/
  unreachable : Bool

namespace Planning

def instructions : Text :=
  Text.join "\n" [
    "You convert questions about a spreadsheet into a filter plan.",
    "Reply with ONLY a valid JSON object (no markdown, no explanation) of the form:",
    "\x7b\"filters\": [\x7b\"field\": \"<column>\", \"operator\": \"<operator>\", \"value\": <value>\x7d], \"fields\": [\"<column>\"], \"intent\": \"<intent>\"\x7d",
    "",
    "Rules:",
    "- field must be one of the column names listed in the schema.",
    "- operator must be one of: " ++ Text.join ", " (Operator.all.map Operator.name),
    "- intent must be one of: " ++ Text.join ", " (Intent.all.map Intent.name),
    "  count = how many records match; list = show matching records; list_all = every value of a column;",
    "  last_action = most recent record (e.g. \"last action at X\"); details = one specific record (e.g. by MMT number);",
    "  unique_values = distinct values of a column.",
    "- month values are numbers 1-12; year values are 4-digit numbers; is_empty / is_not_empty take value null.",
    "- fields lists the columns the user wants to see ([] for all).",
    "- Filters are combined with AND. Use [] when the question does not restrict the records."]

/-- The question as it is put to the model, after what is known of the table. -/
def prompt (s : Snapshot) (q : Text) : Text :=
  let name : Text := if s.name.isEmpty then "uploaded file" else s.name
  Text.concat ["Dataset: ", name, " (", Text.ofNat s.records.length, " records)\n",
    "Columns (name, type, unique values, samples):\n", s.schemaSummary, "\n\n",
    "Question: ", q, "\n\nJSON:"]

def byRules (s : Snapshot) (q : Text) (unreachable : Bool) : Except Fault Planned :=
  (Rule.find? q (some s)).map fun
    | some (rule, plan) => ⟨plan, .rules, some rule, unreachable⟩
    | none => ⟨{}, .default, none, unreachable⟩

/-- The plan in a text, if it has the right shape. -/
def planOfText? (t : Text) : Option (List (Value × Value)) :=
  (Json.readShaped Plan.isShaped t).toOption

def ofReply (s : Snapshot) (q : Text) : Reply → Except Fault Planned
  | .error failure => byRules s q (failure.kind == .unavailable)
  | .ok t =>
    match planOfText? t with
    | some entries => do
      let plan ← Plan.read (← Plan.canonical entries)
      return ⟨plan, .model, none, false⟩
    | none => byRules s q false

/-- The plan of a question. A blank one asks for all records. -/
def plan (s : Snapshot) (question : Text) (model : Option Model) : Dialogue (Except Fault Planned) :=
  let q := question.strip
  if q.isEmpty then .done (.ok ⟨{}, .default, none, false⟩)
  else
    match model with
    | none => .done (byRules s q false)
    | some m => (Dialogue.askTwice (prompt s q) instructions m.alternate).bind fun reply =>
        .done (ofReply s q reply)

end Planning
end AskTable
