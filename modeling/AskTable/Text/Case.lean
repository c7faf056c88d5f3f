import AskTable.Text.Basic
import AskTable.Text.CaseTable
import AskTable.Text.Ranges

/-!
Small and capital forms of a text by the full Unicode mappings. A capital sigma is the one letter
whose small form depends on its neighbours.
-/
namespace AskTable

/-- The small form of a character that stands alone. -/
def lowerChar (c : Char) : Text :=
  let n := c.toNat
  if n < 128 then [if 65 ≤ n && n < 91 then Char.ofNat (n + 32) else c]
  else if n = 0x130 then ['i', Char.ofNat 0x307]
  else [Char.ofNat (shiftCase lowerRuns n)]

def upperChar (c : Char) : Text :=
  let n := c.toNat
  if n < 128 then [if 97 ≤ n && n < 123 then Char.ofNat (n - 32) else c]
  else
    match upperExpansions.lookup n with
    | some expansion => expansion.map Char.ofNat
    | none => [Char.ofNat (shiftCase upperRuns n)]

/-- Characters that do not come between a sigma and its neighbour. -/
def isCaseSilent (c : Char) : Bool :=
  inRanges c.toNat caseSilentRanges

/-- Whether the nearest character that is not silent has case. -/
def meetsCased (t : Text) : Bool :=
  match t.dropWhile isCaseSilent with
  | [] => false
  | c :: _ => inRanges c.toNat casedRanges

namespace Text

/-- The small form of what follows `before`, which is read backwards. A sigma takes its final form
after a letter with case and before none. -/
def lowerAfter (before : Text) : Text → Text
  | [] => []
  | c :: rest =>
    let form :=
      if c = 'Σ' then [if meetsCased before && !meetsCased rest then 'ς' else 'σ'] else lowerChar c
    form ++ lowerAfter (c :: before) rest

def lower (t : Text) : Text :=
  lowerAfter [] t

def upper (t : Text) : Text :=
  t.flatMap upperChar

end Text
end AskTable
