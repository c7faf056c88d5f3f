/-!
Binary floating values of 53 significant bits: rounding to the nearest one, ties to even, and their
exact rational value. Every value has one representation.
-/
namespace AskTable

/-- The quotient rounded to the nearest natural number, a tie to the even one. -/
def divEven (num den : Nat) : Nat :=
  let q := num / den
  let r := num % den
  if den < 2 * r ∨ (2 * r = den ∧ q % 2 = 1) then q + 1 else q

/-- A binary floating value. A finite one is `± mantissa · 2 ^ exponent`. -/
inductive Binary64 where
  | finite (negative : Bool) (mantissa : Nat) (exponent : Int)
  | infinite (negative : Bool)
  | nan
  deriving DecidableEq, Repr

namespace Binary64

def minExponent : Int := -1074

def maxExponent : Int := 971

/-- The greatest power of two that a positive ratio reaches. -/
def floorLog2 (num den : Nat) : Int :=
  let t : Int := num.log2 - den.log2
  if num * Nat.pow 2 (-t).toNat < den * Nat.pow 2 t.toNat then t - 1 else t

/-- The value nearest to a ratio of natural numbers; infinite above the largest finite value. -/
def ofRatio (negative : Bool) (num den : Nat) : Binary64 :=
  if num = 0 then .finite negative 0 minExponent
  else
    let e := max (floorLog2 num den - 52) minExponent
    let m := divEven (num * Nat.pow 2 (-e).toNat) (den * Nat.pow 2 e.toNat)
    let carried := m = Nat.pow 2 53
    let e := if carried then e + 1 else e
    if maxExponent < e then .infinite negative
    else .finite negative (if carried then Nat.pow 2 52 else m) e

/-- The value nearest to `± digits · 10 ^ exponent`. Exponents far outside the range are decided by the
number of digits alone. -/
def ofDecimal (negative : Bool) (digits : Nat) (exponent : Int) : Binary64 :=
  let magnitude : Int := (Nat.toDigits 10 digits).length + exponent
  if digits = 0 ∨ magnitude < -330 then .finite negative 0 minExponent
  else if 310 < magnitude then .infinite negative
  else ofRatio negative (digits * Nat.pow 10 exponent.toNat) (Nat.pow 10 (-exponent).toNat)

/-- Integers of this size and beyond have no finite value near them. -/
def overflowBound : Nat := Nat.pow 2 1024 - Nat.pow 2 970

def toRat? : Binary64 → Option Rat
  | .finite negative m e =>
    let size := mkRat (m * Nat.pow 2 e.toNat) (Nat.pow 2 (-e).toNat)
    some (if negative then -size else size)
  | _ => none

def isFinite : Binary64 → Bool
  | .finite .. => true
  | _ => false

def toInt? (x : Binary64) : Option Int :=
  x.toRat?.bind fun r => if r.den = 1 then some r.num else none

/-- The integer next to the value on the side of zero; zero where there is none. -/
def truncate (x : Binary64) : Int :=
  match x.toRat? with
  | some r => r.num.tdiv r.den
  | none => 0

theorem isFinite_eq_true_iff (x : Binary64) : x.isFinite = true ↔ ∃ r, x.toRat? = some r := by
  cases x <;> simp [isFinite, toRat?]

end Binary64

/-- A number as a cell or a filter has it: an integer of any size or a binary floating value. -/
inductive Number where
  | int (n : Int)
  | float (x : Binary64)
  deriving DecidableEq, Repr

namespace Number

def toRat? : Number → Option Rat
  | .int n => some n
  | .float x => x.toRat?

def truncate : Number → Int
  | .int n => n
  | .float x => x.truncate

/-- Exact comparison of finite numbers. -/
def below (a b : Number) : Bool :=
  match a.toRat?, b.toRat? with
  | some p, some q => p < q
  | _, _ => false

end Number
end AskTable
