import AskTable.Number.Binary
import AskTable.Text.Basic

/-!
The shortest decimal text of a binary floating value: the fewest digits that read back, and of those
the nearest to the value.
-/
namespace AskTable

/-- A positive value on a common scale, with the ends of the interval that rounds to it. All three are
divided by `scale`. -/
structure RoundingInterval where
  low : Nat
  value : Nat
  high : Nat
  scale : Nat
  closed : Bool

namespace RoundingInterval

/-- The interval of `mantissa · 2 ^ exponent`. Below a power of two the gap is half as wide. -/
def ofBinary (mantissa : Nat) (exponent : Int) : RoundingInterval :=
  let shift : Int := exponent - 2
  let up := Nat.pow 2 shift.toNat
  let narrow := mantissa = Nat.pow 2 52 ∧ exponent ≠ Binary64.minExponent
  { low := (4 * mantissa - if narrow then 1 else 2) * up
    value := 4 * mantissa * up
    high := (4 * mantissa + 2) * up
    scale := Nat.pow 2 (-shift).toNat
    closed := mantissa % 2 = 0 }

/-- How many places the value has before the decimal point; zero or negative below one tenth. -/
def pointPlace (i : RoundingInterval) : Int :=
  if i.scale ≤ i.value then (Nat.toDigits 10 (i.value / i.scale)).length
  else
    let zeros := (List.range 400).find? fun k => i.scale ≤ i.value * Nat.pow 10 (k + 1)
    Int.negOfNat (zeros.getD 0)

/-- Whether `count · 10 ^ unit` rounds to the value. -/
def admits (i : RoundingInterval) (count : Nat) (unit : Int) : Bool :=
  let point := count * Nat.pow 10 unit.toNat * i.scale
  let down := Nat.pow 10 (-unit).toNat
  if i.closed then i.low * down ≤ point && point ≤ i.high * down
  else i.low * down < point && point < i.high * down

/-- The better of the two neighbours of the value on the grid of `10 ^ unit`, if one reads back. The
nearer wins, and of two equally near the even one. -/
def onGrid? (i : RoundingInterval) (unit : Int) : Option Nat :=
  let num := i.value * Nat.pow 10 (-unit).toNat
  let den := i.scale * Nat.pow 10 unit.toNat
  let below := num / den
  let twice := 2 * (num % den)
  match i.admits below unit, i.admits (below + 1) unit with
  | true, true =>
    some (if twice < den ∨ (twice = den ∧ below % 2 = 0) then below else below + 1)
  | true, false => some below
  | false, true => some (below + 1)
  | false, false => none

/-- The digits on the coarsest grid that has a point reading back, and the place of the point. -/
def shortest (i : RoundingInterval) : Text × Int :=
  let place := i.pointPlace
  let found := ((List.range 17).map (· + 1)).findSome? fun (n : Nat) =>
    (i.onGrid? (place - n)).map fun count => (n, count)
  match found with
  | some (n, count) =>
    if count = Nat.pow 10 n then (['1'], place + 1) else (Text.ofNat count, place)
  | none => (['0'], place)

end RoundingInterval

namespace Binary64

/-- Positional digits with at least one place after the point. -/
def positional (digits : Text) (place : Int) : Text :=
  if place ≤ 0 then "0." ++ List.replicate (-place).toNat '0' ++ digits
  else if digits.length ≤ place then
    digits ++ List.replicate (place - digits.length).toNat '0' ++ ".0"
  else digits.take place.toNat ++ "." ++ digits.drop place.toNat

/-- One digit before the point and a signed power of ten of at least two digits. -/
def scientific (digits : Text) (place : Int) : Text :=
  let power := place - 1
  let sign : Char := if power < 0 then '-' else '+'
  let fraction : Text := if digits.length ≤ 1 then [] else '.' :: digits.drop 1
  digits.take 1 ++ fraction ++ ['e', sign] ++ Text.padded 2 power.natAbs

/-- The shortest text of a value. Powers of ten from -4 to 15 are written out. -/
def text : Binary64 → Text
  | .nan => "nan"
  | .infinite negative => if negative then "-inf" else "inf"
  | .finite negative m e =>
    let body : Text :=
      if m = 0 then "0.0"
      else
        let (digits, place) := (RoundingInterval.ofBinary m e).shortest
        if -4 < place ∧ place ≤ 16 then positional digits place else scientific digits place
    if negative then '-' :: body else body

end Binary64

def Number.text : Number → Text
  | .int n => Text.ofInt n
  | .float x => x.text

end AskTable
