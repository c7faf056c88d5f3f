import AskTable.Answer.Report
import AskTable.Dialogue.Basic
import AskTable.Json.Repair
import AskTable.Json.Writer
import AskTable.Query.PlanDocument

/-!
Answering from a result: a language model words the answer from the records it is shown, and the answer
is made without it where there is no model or its reply is of no use.
-/
namespace AskTable

inductive AnswerSource where
  | model
  | manual
  deriving DecidableEq, Repr

def AnswerSource.name : AnswerSource → Text
  | model => "llm"
  | manual => "manual"

structure Answered where
  answer : Text
  source : AnswerSource
  /-- Whether the model could not be reached. -/
  unreachable : Bool
  deriving DecidableEq

namespace Answering

def instructions : Text :=
  Text.join "\n" [
    "You answer questions about spreadsheet records using ONLY the records provided.",
    "Reply with ONLY a JSON object with exactly two keys and nothing else:",
    "\x7b\"answer\": \"<the answer for the user>\", \"source\": \"<short note on which records the answer used>\"\x7d",
    "Rules:",
    "- Use the exact values from the records; never invent records or values.",
    "- total_count is the number of matching records even when fewer records are shown.",
    "- No markdown, no code fences, no extra keys, no text outside the JSON object."]

/-- The members at the front, up to a limit. A negative limit leaves that many out at the end. -/
def upTo {α : Type} (limit : Int) (members : List α) : List α :=
  if limit < 0 then members.take (members.length - limit.natAbs) else members.take limit.toNat

/-- The cells of a record as texts, by column. -/
def row (columns : List Text) (r : Record) : Value :=
  .dict (columns.foldl (fun entries column =>
    Value.setKey entries (.text column) (.text (r.get column).cellText)) [])

def payload (columns : List Text) (r : Result) (limit : Int) : Value :=
  let rows := (upTo limit r.hits).map fun hit => row columns hit.1
  .dict [("intent", .text r.intent.name), ("filters", .text r.description), ("total_count", .int r.total),
    ("records_shown", .int rows.length), ("records", .list rows)]

/-- The question as it is put to the model, with the columns of the records that are shown. -/
def prompt (columns : List Text) (question : Text) (r : Result) (limit : Int) : Text :=
  Text.concat ["Question: ", question, "\n\nMatching records (JSON):\n",
    Json.write (payload columns r limit), "\n\nJSON answer:"]

/-- The answer in a text, if it has the right shape. -/
def answerOfText? (t : Text) : Option Text :=
  (Json.readShaped isAnswerShaped t).toOption.bind fun entries => (Value.member entries "answer").text?

/-- An answer made without the model. -/
def manual (s : Snapshot) (p : Plan) (r : Result) (note : Text) (unreachable : Bool) :
    Except Fault Answered :=
  (r.answer s p note).map fun answer => ⟨answer, .manual, unreachable⟩

def ofReply (s : Snapshot) (p : Plan) (r : Result) : Reply → Except Fault Answered
  | .error failure =>
    if failure.kind = .unavailable then manual s p r Report.unavailableNote true
    else manual s p r [] false
  | .ok t =>
    match answerOfText? t with
    | some answer => .ok ⟨answer, .model, false⟩
    | none => manual s p r [] false

/-- The answer to a question. Without records, and with a note on the answer, the model is not asked; nor
is it where the columns to be shown cannot be told. -/
def answer (s : Snapshot) (question : Text) (p : Plan) (r : Result) (model : Option Model) (note : Text)
    (limit : Int) : Dialogue (Except Fault Answered) :=
  match model with
  | none => .done (manual s p r note false)
  | some m =>
    if !note.isEmpty || r.hits.isEmpty then .done (manual s p r note false)
    else
      match p.fieldNames with
      | .error _ => .done (manual s p r [] false)
      | .ok names =>
        let prompt := prompt (s.columnsFor names) question r limit
        (Dialogue.askTwice prompt instructions m.alternate).bind fun reply => .done (ofReply s p r reply)

end Answering
end AskTable
