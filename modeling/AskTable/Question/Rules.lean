import AskTable.Question.Subject

/-!
The rules that plan a question without a language model. They are tried in a fixed order, and the first
that applies makes the plan.
-/
namespace AskTable

/-- The kinds of question that are planned by rule. -/
inductive Rule where
  | identifierLookup
  | count
  | lastAction
  | columnDump
  | specificDate
  | specificKeyword
  | genericList
  deriving DecidableEq, Repr

namespace Question

/-- A phrase of words, whole words only. -/
def row (ws : List Text) : Pattern :=
  .whole (.inRow ws)

/-- Either of some words, then a blank and another phrase. -/
def led (ws : List Text) (p : Pattern) : Pattern :=
  .edge >> .anyWord ws >> .gap >> p

def someWord : Pattern :=
  Pattern.atLeastOne isWordChar

def countPhrases : List Pattern :=
  [row ["how", "many"], row ["count"], row ["number", "of"],
    led ["total"] (.anyWord ["number", "count"] >> .edge)]

def lastPhrases : List Pattern :=
  [.edge >> .anyOf [.word "last", .word "latest", .inRow ["most", "recent"], .word "recent"] >> .gap >>
      .anyOf [.anyWord ["action", "activity", "work", "job", "repair", "maintenance"],
        .inRow ["thing", "done"]] >> .edge,
    led ["what"] (.anyWord ["was", "is"] >> .gap >> .maybe (.word "the" >> .gap) >>
      .anyWord ["last", "latest"] >> .edge),
    led ["what"] (.word "happened" >> .gap >> .alt (.word "last") (.inRow ["most", "recently"]) >> .edge),
    led ["last", "latest"] (.anyWord ["done", "performed", "reported"] >> .edge)]

def dumpPhrases : List Pattern :=
  [led ["all"] (.maybe (.word "the" >> .gap) >> someWord), led ["every"] someWord,
    led ["list"] (.word "of" >> .gap >> .maybe (.word "all" >> .gap) >> someWord),
    led ["unique", "distinct", "different"] someWord]

def uniquePhrases : List Pattern :=
  [row ["unique"], row ["distinct"], row ["different"]]

def listPhrases : List Pattern :=
  (["show", "list", "display", "give", "find", "get", "what", "which"] : List Text).map fun w => row [w]

def hasAny (phrases : List Pattern) (q : Text) : Bool :=
  phrases.any (Pattern.occursIn · q)

def asksCount (q : Text) : Bool :=
  hasAny countPhrases q

def dateField : Text := "Date"

def locationField : Text := "Location"

def identifierField : Text := "identifier"

def placeConditions (q : Text) : List Condition :=
  ((location? q).map fun place => ⟨locationField, .contains, .text place⟩).toList

/-- Place, month and year of a question, as conditions. -/
def scope (q : Text) : List Condition :=
  placeConditions q ++
    ((month? q).map fun month => ⟨dateField, .month, .int month⟩).toList ++
    ((year? q).map fun year => ⟨dateField, .year, .int year⟩).toList

/-- An identifier as a condition. What stands before it in the cell is free. -/
def identifierCondition (identifier : Text) : Condition :=
  ⟨identifierField, .endsWith, .text identifier⟩

/-- How many records have no content in a column. -/
def blanks (s : Snapshot) (column : Text) : Nat :=
  s.records.countP fun r => (r.get column).isBlank

def firstLeast {α : Type} (measure : α → Nat) : List α → Option α
  | [] => none
  | a :: rest =>
    match firstLeast measure rest with
    | some b => if measure b < measure a then some b else some a
    | none => some a

def mostComplete? (s : Option Snapshot) : Option Text :=
  s.bind fun s => firstLeast (blanks s) s.columns

/-- The conditions of a counting question: place, month, year and identifier; without these a keyword;
and without that a column in which every counted record has content. -/
def countConditions (q : Text) (s : Option Snapshot) : List Condition :=
  let named := scope q ++ ((identifier? q).map identifierCondition).toList
  if !named.isEmpty then named
  else
    match keyword? q s with
    | some condition => [condition]
    | none => [⟨(mostComplete? s).getD identifierField, .isNotEmpty, .null⟩]

end Question

namespace Rule

open Question

def name : Rule → Text
  | identifierLookup => "identifier_lookup"
  | count => "count"
  | lastAction => "last_action"
  | columnDump => "column_dump"
  | specificDate => "specific_date"
  | specificKeyword => "specific_keyword"
  | genericList => "generic_list"

/-- All rules in the order in which they are tried. -/
def all : List Rule :=
  [identifierLookup, count, lastAction, columnDump, specificDate, specificKeyword, genericList]

def plan? (rule : Rule) (q : Text) (s : Option Snapshot) : Except Fault (Option Plan) :=
  match rule with
  | identifierLookup =>
    .ok <| if asksCount q then none
      else (identifier? q).map fun i => Plan.under .details [identifierCondition i]
  | count => .ok <| if asksCount q then some (Plan.under .count (countConditions q s)) else none
  | lastAction =>
    .ok <| if hasAny lastPhrases q then some (Plan.under .lastAction (placeConditions q)) else none
  | columnDump =>
    .ok <| if hasAny dumpPhrases q then
        (Question.column? q s).map fun column =>
          { intent := if hasAny uniquePhrases q then .uniqueValues else .listAll
            fields := .list [.text column] }
      else none
  | specificDate =>
    (date? q).map fun found => found.map fun d =>
      Plan.under .list (⟨dateField, .equals, .text d.iso⟩ :: placeConditions q)
  | specificKeyword => .ok <| (keyword? q s).map fun condition => Plan.under .list [condition]
  | genericList => .ok <| if hasAny listPhrases q then some (Plan.under .list (scope q)) else none

def firstOf (q : Text) (s : Option Snapshot) : List Rule → Except Fault (Option (Rule × Plan))
  | [] => .ok none
  | rule :: rest => do
    match ← rule.plan? q s with
    | some plan => return some (rule, plan)
    | none => firstOf q s rest

/-- The rule for a question and its plan. A blank question has none. -/
def find? (question : Text) (s : Option Snapshot) : Except Fault (Option (Rule × Plan)) :=
  let q := question.strip
  if q.isEmpty then .ok none else firstOf q s all

end Rule
end AskTable
