import AskTable.Text.Basic

/-!
How alike two texts are, by the longest text that can be left of both after deleting characters.
-/
namespace AskTable.Text

/-- The next row of lengths. The row above belongs to the text read so far, without the character `c`;
each row has one entry for every place of the other text. -/
def nextRow (c : Char) (diagonal left : Nat) : Text → List Nat → List Nat
  | d :: rest, up :: above =>
    let here := if c = d then diagonal + 1 else max left up
    here :: nextRow c up here rest above
  | _, _ => []

/-- The length of the longest common subsequence. -/
def commonLength (a b : Text) : Nat :=
  ((a.foldl (fun row c => nextRow c 0 0 b row) (List.replicate b.length 0)).getLast?).getD 0

/-- Twice the common length for each hundred characters of both texts. Two empty texts are alike. -/
def similarity (a b : Text) : Rat :=
  if a.isEmpty && b.isEmpty then 100
  else (200 * commonLength a b : Nat) / (a.length + b.length : Nat)

end AskTable.Text
