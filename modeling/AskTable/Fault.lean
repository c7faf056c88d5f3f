import AskTable.Text.Basic

/-!
The reasons for which work on a table can stop, and their wording.
-/
namespace AskTable

inductive Fault where
  /-- An integer has no floating value near it. -/
  | integerTooLarge
  /-- A date text names a year before the first one. -/
  | yearBeforeFirst
  /-- A value is of a kind that the operation cannot use. -/
  | wrongKind
  /-- A value has no members to look up. -/
  | noMembers
  /-- A day of the calendar is to be put in order with a point in time. -/
  | dayAgainstMoment
  /-- A point in time with a known distance to world time is to be put in order with one without. -/
  | unknownDistance
  /-- A required member is absent. -/
  | missingMember (name : Text)
  /-- An option that is set for a repeated call is given by the caller too. -/
  | repeatedOption (name : Text)
  /-- An integer is written with more digits than are read. -/
  | tooManyDigits (digits : Nat)
  /-- The rows of a frame are not as wide as its column list. -/
  | widthMismatch (columns width : Nat)
  /-- A question came before any table was loaded. -/
  | noDataset
  deriving DecidableEq, Repr

namespace Fault

def noDatasetMessage : Text :=
  "No spreadsheet data is loaded. Please load a file first, then ask your question."

def tooManyDigitsMessage (digits : Nat) : Text :=
  "Exceeds the limit (4300 digits) for integer string conversion: value has " ++
    Text.ofNat digits ++ " digits; use sys.set_int_max_str_digits() to increase the limit"

/-- The wording of a fault; some have none. -/
def message : Fault → Text
  | integerTooLarge => "int too large to convert to float"
  | yearBeforeFirst =>
    "date not yet supported on Timestamps which are outside the range of Python's standard library. "
  | wrongKind | noMembers => []
  | dayAgainstMoment => "can't compare datetime.datetime to datetime.date"
  | unknownDistance => "can't compare offset-naive and offset-aware datetimes"
  | missingMember name | repeatedOption name => "'" ++ name ++ "'"
  | tooManyDigits digits => tooManyDigitsMessage digits
  | widthMismatch columns width =>
    Text.ofNat columns ++ " columns passed, passed data had " ++ Text.ofNat width ++ " columns"
  | noDataset => noDatasetMessage

end Fault

/-- The members that a test accepts, in order. The first fault ends the walk. -/
def selectM {α : Type} (test : α → Except Fault Bool) : List α → Except Fault (List α)
  | [] => .ok []
  | a :: rest => do
    let keep ← test a
    let kept ← selectM test rest
    return if keep then a :: kept else kept

end AskTable
