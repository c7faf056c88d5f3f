/-!
Sets of code points as ascending half-open ranges.
-/
namespace AskTable

/-- Whether `n` lies in one of the ascending half-open ranges. -/
def inRanges (n : Nat) : List (Nat × Nat) → Bool
  | [] => false
  | (low, high) :: rest => low ≤ n && (n < high || inRanges n rest)

theorem inRanges_cons (n low high : Nat) (rest : List (Nat × Nat)) :
    inRanges n ((low, high) :: rest) = (decide (low ≤ n) && (decide (n < high) || inRanges n rest)) :=
  rfl

end AskTable
