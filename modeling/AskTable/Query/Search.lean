import AskTable.Query.Execution

/-!
Search without a plan. The strict search reads "last 5" and phrases such as "status is open" in a
question; the loose one ranks records by how many words of the question they hold.
-/
namespace AskTable

inductive SearchMode where
  | lastN
  | filters
  | ranked
  deriving DecidableEq, Repr

def SearchMode.name : SearchMode → Text
  | lastN => "last_n"
  | filters => "filters"
  | ranked => "ranked"

structure Finding where
  mode : Option SearchMode := none
  hits : List Hit := []
  conditions : List Condition := []
  description : Text := "no keyword match"

namespace Finding

/-- The plan with the conditions that were read in the question. -/
def plan (f : Finding) : Plan :=
  .under .list f.conditions

def result (f : Finding) : Result :=
  { hits := f.hits, total := f.hits.length, description := f.description, intent := .list,
    applied := f.conditions, dropped := [] }

end Finding

namespace Search

/-- The digits after "last", "recent" or "latest". -/
def lastDigits? (q : Text) : Option Text :=
  Pattern.findPart? (.edge >> .anyWord ["last", "recent", "latest"] >> .gap)
    (.atLeastOne isDigitChar) .edge q

def lastCount? (q : Text) : Except Fault (Option Nat) :=
  match lastDigits? q with
  | none => .ok none
  | some digits =>
    if integerDigitLimit < digits.length then .error (.tooManyDigits digits.length)
    else .ok (some (natOfDigits (digits.map Decimal.plainDigit)))

/-- The phrases after a column's name and what they ask for; longer phrases come first. -/
def operatorPhrases : List (Text × Operator) :=
  [("finishes with", .endsWith), ("starts with", .startsWith), ("begins with", .startsWith),
    ("ends with", .endsWith), ("contains", .contains), ("equals", .equals), ("with", .contains),
    ("has", .contains), ("is", .equals), ("=", .equals)]

def maybeQuote : Pattern :=
  Pattern.maybe (.one fun c => c == '\'' || c == '"')

/-- A column's name, an operator phrase and a value at a place of a text in small form: the operator,
the text up to the end of the sentence, and the length of the whole. -/
def columnPhraseAt (column : Text) (a : Cursor) : Option (Operator × Text × Nat) :=
  let closing := maybeQuote >> .space >>
    .alt (.one fun c => c == '?' || c == '.' || c == '!') .finish
  ((Pattern.edge >> .exactly column.lower >> .space).ends a).findSome? fun b =>
    operatorPhrases.findSome? fun (phrase, operator) =>
      (Pattern.partAt? (.exactly phrase >> .gap >> maybeQuote)
        (.one (· != '\n') >> .least (· != '\n')) closing b).map fun (t, length) =>
          (operator, t, a.distance b + length)

def beforeAnd (t : Text) : Text :=
  match Pattern.find? (.gap >> .exactly "and" >> .alt .gap .finish) t with
  | some (a, _) => a.before.reverse
  | none => t

/-- The condition of the first phrase about a column, and the text with spaces in its place. -/
def columnCondition? (column : Text) (t : Text) : Option (Condition × Text) :=
  (Cursor.all t).findSome? (fun a => (columnPhraseAt column a).map (a, ·)) |>.bind
    fun (a, operator, phrase, length) =>
      let operand := Text.strip (beforeAnd phrase)
      if operand.isEmpty then none
      else
        some (⟨column, operator, .text operand⟩,
          a.before.reverse ++ List.replicate length ' ' ++ a.after.drop length)

/-- The conditions that a text states about some columns; those that come first claim their text. -/
def conditionsOn : List Text → Text → List Condition
  | [], _ => []
  | column :: rest, t =>
    match columnCondition? column t with
    | some (condition, left) => condition :: conditionsOn rest left
    | none => conditionsOn rest t

/-- The conditions that a question states. Longer column names claim text first. -/
def conditions (columns : List Text) (q : Text) : List Condition :=
  conditionsOn (Field.byLength columns) q.lower

/-- How many words of a question a record holds, each in one of the columns given for it. -/
def score (found : List (Text × List Text)) (r : Record) : Nat :=
  found.countP fun (token, columns) =>
    columns.any fun column => (cellTokens (r.get column)).contains token

/-- The hits with words of the question, those with more of them first. -/
def rank (found : List (Text × List Text)) (hits : List Hit) : List Hit :=
  let scored := (hits.map fun hit => (hit, score found hit.1)).filter fun entry => entry.2 != 0
  (scored.mergeSort fun a b => b.2 ≤ a.2).map (·.1)

end Search

namespace Snapshot

def searchStrict (s : Snapshot) (q : Text) : Except Fault Finding := do
  match ← Search.lastCount? q with
  | some (n + 1) =>
    let newest ← Recency.sort s.columns s.hits
    return {
      mode := some .lastN
      hits := newest.take (n + 1)
      description := Text.concat ["the ", Text.ofNat (n + 1), " most recent records"] }
  | _ =>
    let conditions := Search.conditions s.columns q
    if conditions.isEmpty then return {}
    else
      let result ← s.execute (.under .list conditions)
      return { mode := some .filters, hits := result.hits, conditions, description := result.description }

def searchLoose (s : Snapshot) (q : Text) : Finding :=
  let found := s.lookup q
  if found.isEmpty then {}
  else
    { mode := some .ranked
      hits := Search.rank found s.hits
      description := "records mentioning " ++
        Text.join ", " (found.map fun (token, _) => "\"" ++ token ++ "\"") }

def search (s : Snapshot) (question : Text) (loose : Bool) : Except Fault Finding :=
  if loose then .ok (s.searchLoose question.strip) else s.searchStrict question.strip

end Snapshot
end AskTable
