import AskTable.Text.Case
import AskTable.Text.Letter
import AskTable.Text.Similarity

/-!
Finding the column that a name in a question means. A name is matched by equality, then by what it
stands for or as a part of a column's name, and last by likeness.
-/
namespace AskTable

/-- What a column can be asked for without its exact name. -/
inductive SemanticField where
  | location
  | date
  | identifier
  | action
  | description
  deriving DecidableEq, Repr

namespace SemanticField

def name : SemanticField → Text
  | location => "location"
  | date => "date"
  | identifier => "identifier"
  | action => "action"
  | description => "description"

/-- Parts of column names that a field is found by; earlier ones are preferred. -/
def patterns : SemanticField → List Text
  | location => ["location", "address", "site", "functional location"]
  | date => ["date", "functional date", "report date", "created date"]
  | identifier => ["mmt", "mmt no", "mmt number", "ticket", "request no"]
  | action => ["action", "action taken", "work done", "resolution", "status"]
  | description =>
    ["description", "issue description", "problem description", "work description"]

def aliases : SemanticField → List Text
  | location => ["locations", "site"]
  | date => ["dates"]
  | identifier => ["mmt", "mmt no", "mmt number", "id", "ticket"]
  | action => ["actions"]
  | description => ["descriptions"]

def all : List SemanticField :=
  [location, date, identifier, action, description]

def ofWord? (word : Text) : Option SemanticField :=
  all.find? fun field => field.name == word || field.aliases.contains word

/-- The field that a name stands for, in any case and with blanks around it. -/
def ofName? (name : Text) : Option SemanticField :=
  ofWord? name.strip.lower

/-- The column found by the first pattern that occurs in the name of any column. -/
def column? (field : SemanticField) (columns : List Text) : Option Text :=
  field.patterns.findSome? fun pattern => columns.find? fun column => column.lower.contains pattern

end SemanticField

namespace Field

def plain (name : Text) : Text :=
  name.strip.lower

/-- The letters and digits of a name, for comparing names by likeness. -/
def skeleton (name : Text) : Text :=
  (plain name).filter fun c => c != ' ' && c != '_' && (isWordChar c || isBlankChar c)

def firstBest {α : Type} (score : α → Rat) (members : List α) : Option α :=
  members.foldl (fun best a =>
    match best with
    | none => some a
    | some b => if score b < score a then some a else some b) none

/-- The likeness from which a column is taken for the one that was named. -/
def threshold : Rat := 85

def closest? (wanted : Text) (columns : List Text) : Option Text :=
  let likeness (column : Text) := Text.similarity (skeleton wanted) (skeleton column)
  (firstBest likeness columns).filter fun column => threshold ≤ likeness column

/-- The column that a name means. A name for a semantic field is looked up by the patterns of the
field, any other name as a part of a column's name. -/
def resolve? (name : Text) (columns : List Text) : Option Text :=
  let wanted := plain name
  if wanted.isEmpty then none
  else
    columns.find? (fun column => plain column == wanted) <|>
    (match SemanticField.ofWord? wanted with
      | some field => field.column? columns
      | none => columns.find? fun column => column.lower.contains wanted) <|>
    closest? wanted columns

/-- The columns that some names mean, each once, in order of first mention. -/
def resolveAll (names columns : List Text) : List Text :=
  (names.filterMap (resolve? · columns)).eraseDups

def byLength (columns : List Text) : List Text :=
  columns.mergeSort fun a b => b.length ≤ a.length

end Field
end AskTable
