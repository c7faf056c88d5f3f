import AskTable.Proofs.Readable
import Mathlib.Algebra.Order.Field.Basic
import Mathlib.Algebra.Order.Field.Power
import Mathlib.Data.Rat.Cast.Order
import Mathlib.Tactic.Linarith
import Mathlib.Tactic.Ring

/-! How large the numbers are that texts write. What is read from a text is rounded, and a number that has been
rounded is never too large to be compared. -/
namespace AskTable

theorem divEven_le {num den bound : Nat} (h : num < bound * den) : divEven num den ≤ bound := by
  have hquotient : num / den < bound := Nat.div_lt_of_lt_mul (by rwa [Nat.mul_comm])
  unfold divEven
  dsimp only
  split_ifs <;> omega

def Decimal.ofText? (t : Text) : Option Decimal :=
  let signed := splitSign ((Text.trim isMargin t).map plainDigit)
  (withoutSeparators false signed.2).bind (ofPlain signed.1)

namespace Binary64

variable {num den : Nat} {negative : Bool} {x : Binary64}

/-- A comparison of naturals that are scaled by a power of two, as one of rationals. -/
theorem scaled_lt_iff (e : Int) :
    num * Nat.pow 2 (-e).toNat < den * Nat.pow 2 e.toNat ↔ (num : ℚ) < den * 2 ^ e := by
  obtain ⟨k, rfl | rfl⟩ := e.eq_nat_or_neg
  · have hneg : (-(k : Int)).toNat = 0 := by omega
    rw [hneg, Int.toNat_natCast, zpow_natCast]
    norm_cast
    simp
  · have hneg : (-(k : Int)).toNat = 0 := by omega
    have hpos : (0 : ℚ) < 2 ^ k := by positivity
    rw [hneg, neg_neg, Int.toNat_natCast, zpow_neg, zpow_natCast, ← div_eq_mul_inv, lt_div_iff₀ hpos]
    norm_cast
    simp

/-- A ratio lies below the power of two after the greatest that it reaches. -/
theorem lt_two_zpow_floorLog2 (hden : den ≠ 0) :
    (num : ℚ) < den * 2 ^ (floorLog2 num den + 1) := by
  unfold floorLog2
  dsimp only
  split_ifs with h
  · rw [sub_add_cancel]
    exact (scaled_lt_iff _).mp h
  · have hnum : (num : ℚ) < 2 ^ (num.log2 + 1) := by exact_mod_cast Nat.lt_log2_self
    have hpow : (2 : ℚ) ^ den.log2 ≤ den := by exact_mod_cast Nat.log2_self_le hden
    have hsplit : (2 : ℚ) ^ (num.log2 + 1) = 2 ^ den.log2 * 2 ^ ((num.log2 : Int) - den.log2 + 1) := by
      rw [← zpow_natCast, ← zpow_natCast, ← zpow_add₀ two_ne_zero]
      congr 1
      push_cast
      omega
    calc (num : ℚ) < 2 ^ (num.log2 + 1) := hnum
      _ = 2 ^ den.log2 * 2 ^ ((num.log2 : Int) - den.log2 + 1) := hsplit
      _ ≤ den * 2 ^ ((num.log2 : Int) - den.log2 + 1) :=
        mul_le_mul_of_nonneg_right hpow (by positivity)

/-- A value that rounding can give: a finite one has at most 53 bits and no exponent beyond the greatest. -/
def IsRounded : Binary64 → Prop
  | .finite _ m e => m < 2 ^ 53 ∧ e ≤ maxExponent
  | _ => True

theorem isRounded_ofRatio (hden : den ≠ 0) : (ofRatio negative num den).IsRounded := by
  unfold ofRatio
  dsimp only
  split_ifs with hzero hcarried hlarge hlarge
  · exact ⟨by decide, by decide⟩
  · trivial
  · exact ⟨by decide, not_lt.mp hlarge⟩
  · trivial
  · refine ⟨lt_of_le_of_ne (divEven_le ?_) hcarried, not_lt.mp hlarge⟩
    generalize he : max (floorLog2 num den - 52) minExponent = e
    have hfloor : floorLog2 num den + 1 ≤ e + 53 := by omega
    have hbound : (num : ℚ) < (2 ^ 53 * den : Nat) * 2 ^ e := by
      calc (num : ℚ) < den * 2 ^ (floorLog2 num den + 1) := lt_two_zpow_floorLog2 hden
        _ ≤ den * 2 ^ (e + 53) :=
          mul_le_mul_of_nonneg_left (zpow_le_zpow_right₀ one_le_two hfloor) (Nat.cast_nonneg _)
        _ = (2 ^ 53 * den : Nat) * 2 ^ e := by
          rw [zpow_add₀ two_ne_zero]
          push_cast
          ring
    have hscaled := (scaled_lt_iff e).mpr hbound
    rwa [Nat.mul_assoc] at hscaled

theorem isRounded_ofDecimal (negative : Bool) (digits : Nat) (exponent : Int) :
    (ofDecimal negative digits exponent).IsRounded := by
  unfold ofDecimal
  dsimp only
  split_ifs
  · exact ⟨by decide, by decide⟩
  · trivial
  · exact isRounded_ofRatio (Nat.pow_pos (by decide)).ne'

/-- A finite value is read from a decimal number. -/
theorem exists_decimal_of_ofText? {t : Text} (h : ofText? t = some x) (hx : x.isFinite = true) :
    ∃ d, Decimal.ofText? t = some d ∧ x = d.toBinary := by
  unfold ofText? at h
  dsimp only at h
  split at h
  · next y hword =>
    obtain rfl := Option.some.inj h
    unfold ofWord? at hword
    dsimp only at hword
    split_ifs at hword <;> obtain rfl := Option.some.inj hword <;> cases hx
  · obtain ⟨plain, hplain, h⟩ := Option.bind_eq_some_iff.mp h
    obtain ⟨d, hd, rfl⟩ := Option.map_eq_some_iff.mp h
    refine ⟨d, ?_, rfl⟩
    unfold Decimal.ofText?
    dsimp only
    rw [hplain, Option.bind_some, hd]

theorem isRounded_of_ofText? {t : Text} (h : ofText? t = some x) : x.IsRounded := by
  cases x with
  | nan | infinite negative => trivial
  | finite negative m e =>
    obtain ⟨d, -, heq⟩ := exists_decimal_of_ofText? h rfl
    rw [heq]
    exact isRounded_ofDecimal _ _ _

private theorem abs_le_of_toRat? {m : Nat} {e : Int} {r : ℚ} (h : (finite negative m e).toRat? = some r) :
    |r| ≤ (m * 2 ^ e.toNat : Nat) := by
  have habs : |r| = |mkRat (m * Nat.pow 2 e.toNat : Nat) (Nat.pow 2 (-e).toNat)| := by
    obtain rfl := Option.some.inj h
    cases negative <;> simp
  have hunit : (1 : ℚ) ≤ (Nat.pow 2 (-e).toNat : Nat) := by exact_mod_cast Nat.one_le_two_pow
  rw [habs, Rat.mkRat_eq_div, abs_div, Int.cast_natCast, Nat.abs_cast, Nat.abs_cast]
  exact div_le_self (Nat.cast_nonneg _) hunit

private theorem mul_two_pow_lt {m j k : Nat} (hm : m < 2 ^ 53) (hj : j ≤ k + 1) :
    m * 2 ^ j < 2 ^ 54 * 2 ^ k - 2 ^ k := by
  have hpow : 2 ^ j ≤ 2 * 2 ^ k := (Nat.pow_le_pow_right two_pos hj).trans_eq (pow_succ' 2 k)
  have hunit : 0 < 2 ^ k := Nat.two_pow_pos k
  calc m * 2 ^ j ≤ (2 ^ 53 - 1) * (2 * 2 ^ k) := Nat.mul_le_mul (by omega) hpow
    _ < 2 ^ 54 * 2 ^ k - 2 ^ k := by omega

/-- The exponent in the bound by a name, for the powers are too large to be written out. -/
theorem exists_overflowBound_eq : ∃ k, k = 970 ∧ overflowBound = 2 ^ 54 * 2 ^ k - 2 ^ k := by
  obtain ⟨k, hk⟩ : ∃ k : Nat, k = 970 := ⟨970, rfl⟩
  have hsum : 1024 = 54 + 970 := rfl
  refine ⟨k, hk, ?_⟩
  rw [overflowBound, hsum, ← hk, ← pow_add]
  rfl

/-- An integer that equals a rounded value is not too large to be compared. -/
theorem IsRounded.natAbs_lt {n : Int} (hx : x.IsRounded) (h : x.toInt? = some n) :
    n.natAbs < overflowBound := by
  obtain ⟨r, hr, hn⟩ := Option.bind_eq_some_iff.mp h
  split_ifs at hn with hden
  obtain rfl := Option.some.inj hn
  cases x with
  | nan | infinite negative => cases hr
  | finite negative m e =>
    obtain ⟨hm, he⟩ := hx
    have hnum : (r.num.natAbs : ℚ) = |r| := by
      rw [Nat.cast_natAbs, Int.cast_abs, (Rat.den_eq_one_iff r).mp hden]
    obtain ⟨k, hk, hbound⟩ := exists_overflowBound_eq
    have hexponent : e.toNat ≤ k + 1 := by
      unfold maxExponent at he
      omega
    rw [hbound]
    calc r.num.natAbs ≤ m * 2 ^ e.toNat := by exact_mod_cast hnum.trans_le (abs_le_of_toRat? hr)
      _ < 2 ^ 54 * 2 ^ k - 2 ^ k := mul_two_pow_lt hm hexponent

end Binary64

namespace Number

variable {t : Text} {n : Number}

/-- A number is read from a text by way of a finite value, which it is, or whose integer it is. -/
theorem exists_binary_of_ofText? (h : ofText? t = some n) :
    ∃ x, Binary64.ofText? t = some x ∧ x.isFinite = true ∧ (n = .float x ∨ ∃ k, x.toInt? = some k ∧ n = .int k) := by
  unfold ofText? at h
  split at h
  · next x hx =>
    by_cases hfinite : x.isFinite = true
    · rw [if_pos hfinite] at h
      have hn := Option.some.inj h
      refine ⟨x, hx, hfinite, ?_⟩
      split at hn
      · next k hk =>
        split_ifs at hn
        · exact .inr ⟨k, hk, hn.symm⟩
        · exact .inl hn.symm
      · exact .inl hn.symm
    · rw [if_neg hfinite] at h
      cases h
  · cases h

/-- A number that a text writes can be compared. -/
theorem isHuge_of_ofText? (h : ofText? t = some n) : (Value.ofNumber n).isHuge = false := by
  obtain ⟨x, hx, -, rfl | ⟨k, hk, rfl⟩⟩ := exists_binary_of_ofText? h
  · rfl
  · have hlt := (Binary64.isRounded_of_ofText? hx).natAbs_lt hk
    simpa [Value.ofNumber, Value.isHuge] using hlt

end Number
end AskTable
