import AskTable.Proofs.Magnitude

/-! The rounding of whole numbers. A natural number goes to the nearest one that has at most 53 significant
bits, a tie to the even one, and it is its own rounding exactly if it has no more bits itself. Up to the
greatest finite value, the value nearest to a whole number is this rounding. -/
namespace AskTable

variable {num den : Nat}

theorem divEven_one (num : Nat) : divEven num 1 = num := by
  simp [divEven, Nat.mod_one]

/-- A rounded quotient is wrong by one half at most. -/
theorem divEven_error (num : Nat) (hden : den ≠ 0) :
    2 * (divEven num den * den) ≤ 2 * num + den ∧ 2 * num ≤ 2 * (divEven num den * den) + den := by
  have hsum : den * (num / den) + num % den = num := Nat.div_add_mod num den
  have hrest : num % den < den := Nat.mod_lt num (Nat.pos_of_ne_zero hden)
  have hmul : num / den * den = den * (num / den) := Nat.mul_comm _ _
  have hnext : (num / den + 1) * den = den * (num / den) + den := by rw [Nat.succ_mul, hmul]
  unfold divEven
  dsimp only
  split_ifs with hup
  · rw [hnext]
    omega
  · rw [hmul]
    omega

/-- No multiple of the divisor is nearer than the one with the rounded quotient. -/
theorem divEven_nearest (hden : den ≠ 0) (q : Nat) :
    (((divEven num den * den : Nat) : Int) - num).natAbs ≤ (((q * den : Nat) : Int) - num).natAbs := by
  obtain ⟨hhigh, hlow⟩ := divEven_error num hden
  rcases lt_trichotomy q (divEven num den) with hlt | heq | hgt
  · have hstep : (q + 1) * den ≤ divEven num den * den := Nat.mul_le_mul_right den hlt
    rw [Nat.succ_mul] at hstep
    omega
  · rw [heq]
  · have hstep : (divEven num den + 1) * den ≤ q * den := Nat.mul_le_mul_right den hgt
    rw [Nat.succ_mul] at hstep
    omega

namespace Binary64

/-- A natural number of at most 53 significant bits. -/
def IsShort (n : Nat) : Prop :=
  ∃ m k, m < 2 ^ 53 ∧ n = m * 2 ^ k

def lastPlace (n : Nat) : Nat :=
  n.log2 - 52

def roundNat (n : Nat) : Nat :=
  divEven n (2 ^ lastPlace n) * 2 ^ lastPlace n

def roundInt (z : Int) : Int :=
  z.sign * roundNat z.natAbs

variable {n m k : Nat} {negative : Bool}

private theorem lt_two_pow_lastPlace (hn : 52 ≤ n.log2) : n < 2 ^ 53 * 2 ^ lastPlace n := by
  have hsum : n.log2 + 1 = 53 + lastPlace n := by
    unfold lastPlace
    omega
  calc n < 2 ^ (n.log2 + 1) := Nat.lt_log2_self
    _ = 2 ^ 53 * 2 ^ lastPlace n := by rw [hsum, pow_add]

theorem two_pow_lastPlace_le (hn : 52 ≤ n.log2) : 2 ^ 52 * 2 ^ lastPlace n ≤ n := by
  have hne : n ≠ 0 := by
    rintro rfl
    simp at hn
  have hsum : n.log2 = 52 + lastPlace n := by
    unfold lastPlace
    omega
  calc 2 ^ 52 * 2 ^ lastPlace n = 2 ^ n.log2 := by rw [hsum, pow_add]
    _ ≤ n := Nat.log2_self_le hne

private theorem lastPlace_of_lt (h : n < 2 ^ 53) : lastPlace n = 0 := by
  by_cases hn : n = 0
  · rw [hn]
    rfl
  have hlog : n.log2 < 53 := (Nat.log2_lt hn).mpr h
  unfold lastPlace
  omega

theorem le_log2 (h : 2 ^ 53 ≤ n) : 53 ≤ n.log2 := by
  apply (Nat.le_log2 _).mpr h
  omega

theorem roundNat_of_lt (h : n < 2 ^ 53) : roundNat n = n := by
  rw [roundNat, lastPlace_of_lt h, pow_zero, divEven_one, Nat.mul_one]

/-- The rounding of a number has at most 53 significant bits. -/
theorem isShort_roundNat (n : Nat) : IsShort (roundNat n) := by
  by_cases hsmall : n < 2 ^ 53
  · rw [roundNat_of_lt hsmall]
    exact ⟨n, 0, hsmall, (Nat.mul_one n).symm⟩
  have hlog : 53 ≤ n.log2 := le_log2 (Nat.not_lt.mp hsmall)
  have hle : divEven n (2 ^ lastPlace n) ≤ 2 ^ 53 := divEven_le (lt_two_pow_lastPlace (by omega))
  by_cases hcarried : divEven n (2 ^ lastPlace n) = 2 ^ 53
  · refine ⟨2 ^ 52, lastPlace n + 1, by decide, ?_⟩
    rw [roundNat, hcarried, pow_succ]
    ring
  · exact ⟨_, lastPlace n, lt_of_le_of_ne hle hcarried, rfl⟩

/-- No number of at most 53 significant bits is nearer to a number than its rounding. -/
theorem roundNat_nearest (n : Nat) (h : IsShort m) : ((roundNat n : Int) - n).natAbs ≤ ((m : Int) - n).natAbs := by
  obtain ⟨q, k, hq, rfl⟩ := h
  by_cases hsmall : n < 2 ^ 53
  · rw [roundNat_of_lt hsmall]
    simp
  have hlog : 53 ≤ n.log2 := le_log2 (Nat.not_lt.mp hsmall)
  have hunit : 2 ^ lastPlace n ≠ 0 := (Nat.two_pow_pos _).ne'
  by_cases hplace : lastPlace n ≤ k
  · have hmultiple : q * 2 ^ k = q * 2 ^ (k - lastPlace n) * 2 ^ lastPlace n := by
      rw [Nat.mul_assoc, ← pow_add, Nat.sub_add_cancel hplace]
    rw [hmultiple]
    exact divEven_nearest hunit _
  · -- A number with a smaller last place lies below the least one that has as many bits as `n`.
    have hleast : 2 ^ 52 * 2 ^ lastPlace n ≤ n := two_pow_lastPlace_le (by omega)
    have hbelow : q * 2 ^ k ≤ 2 ^ 52 * 2 ^ lastPlace n := by
      calc q * 2 ^ k ≤ 2 ^ 53 * 2 ^ (lastPlace n - 1) :=
            Nat.mul_le_mul hq.le (Nat.pow_le_pow_right two_pos (by omega))
        _ = 2 ^ 52 * 2 ^ (1 + (lastPlace n - 1)) := by
          rw [pow_add]
          ring
        _ = 2 ^ 52 * 2 ^ lastPlace n := by
          congr 2
          omega
    have hnear : ((roundNat n : Int) - n).natAbs ≤ (((2 ^ 52 * 2 ^ lastPlace n : Nat) : Int) - n).natAbs :=
      divEven_nearest hunit _
    omega

/-- A number is its own rounding exactly if it has at most 53 significant bits. -/
theorem roundNat_eq_self_iff : roundNat n = n ↔ IsShort n := by
  constructor
  · intro h
    exact h ▸ isShort_roundNat n
  · intro h
    have hnear := roundNat_nearest n h
    omega

theorem roundInt_eq_self_iff {z : Int} : roundInt z = z ↔ IsShort z.natAbs := by
  rw [← roundNat_eq_self_iff, roundInt]
  constructor
  · intro h
    by_cases hz : z = 0
    · rw [hz]
      rfl
    have hsize := congrArg Int.natAbs h
    rwa [Int.natAbs_mul, Int.natAbs_sign_of_ne_zero hz, Nat.one_mul, Int.natAbs_natCast] at hsize
  · intro h
    rw [h, Int.sign_mul_natAbs]

private theorem toInt?_finite_natCast (m k : Nat) (negative : Bool) :
    (finite negative m k).toInt? = some (if negative then -((m * 2 ^ k : Nat) : Int) else (m * 2 ^ k : Nat)) := by
  have hpos : ((k : Int)).toNat = k := Int.toNat_natCast k
  have hneg : (-(k : Int)).toNat = 0 := by omega
  have hsize : mkRat ((m : Nat) * (Nat.pow 2 k : Nat) : Int) (Nat.pow 2 0) = (m * 2 ^ k : Nat) := by
    have hone : (Nat.pow 2 0 : Nat) = 1 := rfl
    rw [hone, Rat.mkRat_one]
    push_cast
    simp
  rw [toInt?, toRat?, hpos, hneg]
  rw [hsize]
  generalize m * 2 ^ k = size
  cases negative <;> simp

/-- The leading bits of a number that is not too large to be compared stand at exponents in the range, also when
rounding makes them one more. -/
theorem lastPlace_le (hlog : 52 ≤ n.log2) (h : n < overflowBound) :
    lastPlace n ≤ 971 ∧ (divEven n (2 ^ lastPlace n) = 2 ^ 53 → lastPlace n ≤ 970) := by
  obtain ⟨k, hk, hbound⟩ := exists_overflowBound_eq
  have hsucc : 971 = 970 + 1 := rfl
  have hleast := two_pow_lastPlace_le hlog
  rw [hbound] at h
  have hle : lastPlace n ≤ k + 1 := by
    have hpow : 2 ^ (52 + lastPlace n) < 2 ^ (54 + k) := by
      rw [pow_add, pow_add]
      omega
    have hexponent := (Nat.pow_lt_pow_iff_right (by decide)).mp hpow
    omega
  rw [hsucc, ← hk]
  refine ⟨hle, fun hcarried => ?_⟩
  by_contra hlarge
  have htop : lastPlace n = k + 1 := by omega
  have herror := (divEven_error n (Nat.two_pow_pos (lastPlace n)).ne').1
  rw [hcarried, htop, pow_succ] at herror
  omega

theorem floorLog2_one (hnum : num ≠ 0) : floorLog2 num 1 = num.log2 := by
  have hlog : ((num.log2 : Int) - (1 : Nat).log2) = num.log2 := by simp [Nat.log2_def 1]
  have hreach : ¬ num * Nat.pow 2 (-(num.log2 : Int)).toNat < 1 * Nat.pow 2 (num.log2 : Int).toNat := by
    have hneg : (-(num.log2 : Int)).toNat = 0 := by omega
    rw [hneg, Int.toNat_natCast]
    simpa using Nat.log2_self_le hnum
  unfold floorLog2
  rw [hlog]
  exact if_neg hreach

theorem toInt?_zero (negative : Bool) (e : Int) : (finite negative 0 e).toInt? = some 0 := by
  cases negative <;> simp [toInt?, toRat?]

/-- A natural number of at most 53 bits is its own rounding. -/
theorem toInt?_ofRatio_one (h : num < 2 ^ 53) :
    (ofRatio negative num 1).toInt? = some (if negative then -(num : Int) else num) := by
  by_cases hnum : num = 0
  · have hzero : ofRatio negative 0 1 = .finite negative 0 minExponent := by simp [ofRatio]
    rw [hnum, hzero, toInt?_zero]
    simp
  have hlog : num.log2 < 53 := (Nat.log2_lt hnum).mpr h
  obtain ⟨k, hk⟩ : ∃ k, num.log2 + k = 52 := ⟨52 - num.log2, by omega⟩
  have hexponent : max (floorLog2 num 1 - 52) minExponent = -(k : Int) := by
    rw [floorLog2_one hnum, minExponent]
    omega
  have hpos : (- -(k : Int)).toNat = k := by omega
  have hneg : (-(k : Int)).toNat = 0 := by omega
  have hsmall : num * 2 ^ k < 2 ^ 53 := by
    calc num * 2 ^ k < 2 ^ (num.log2 + 1) * 2 ^ k := Nat.mul_lt_mul_of_pos_right Nat.lt_log2_self (Nat.two_pow_pos k)
      _ = 2 ^ 53 := by rw [← pow_add]; congr 1; omega
  have hvalue : ofRatio negative num 1 = .finite negative (num * 2 ^ k) (-k) := by
    have hmantissa : divEven (num * Nat.pow 2 k) (1 * Nat.pow 2 0) = num * 2 ^ k := divEven_one _
    have hcarried : num * 2 ^ k ≠ Nat.pow 2 53 := hsmall.ne
    have hrange : ¬ maxExponent < -(k : Int) := by
      rw [maxExponent]
      omega
    unfold ofRatio
    simp only [hnum, if_false, hexponent, hpos, hneg, hmantissa, hcarried, hrange]
  have hsize : mkRat ((num * 2 ^ k : Nat) * Nat.pow 2 0 : Int) (Nat.pow 2 k) = num := by
    have hunit : ((2 ^ k : Nat) : ℚ) ≠ 0 := by positivity
    have hone : ((num * 2 ^ k : Nat) * (Nat.pow 2 0 : Nat) : Int) = (num * 2 ^ k : Nat) := Int.mul_one _
    rw [hone, Rat.mkRat_eq_div, Int.cast_natCast, Nat.cast_mul, Nat.pow_eq, mul_div_assoc, div_self hunit, mul_one]
  rw [hvalue, toInt?, toRat?, hpos, hneg]
  rw [hsize]
  cases negative <;> simp

/-- Below the numbers that are too large to be compared, the value nearest to a whole number is its rounding. -/
theorem toInt?_ofRatio_whole (h : n < overflowBound) :
    (ofRatio negative n 1).toInt? = some (if negative then -(roundNat n : Int) else roundNat n) := by
  by_cases hsmall : n < 2 ^ 53
  · rw [toInt?_ofRatio_one hsmall, roundNat_of_lt hsmall]
  have hlog : 53 ≤ n.log2 := le_log2 (Nat.not_lt.mp hsmall)
  have hn : n ≠ 0 := by
    rintro rfl
    simp at hsmall
  have hexponent : max (floorLog2 n 1 - 52) minExponent = (lastPlace n : Nat) := by
    rw [floorLog2_one hn, minExponent, lastPlace]
    omega
  have hpos : ((lastPlace n : Nat) : Int).toNat = lastPlace n := Int.toNat_natCast _
  have hneg : (-((lastPlace n : Nat) : Int)).toNat = 0 := by omega
  have hmantissa : divEven (n * Nat.pow 2 0) (1 * Nat.pow 2 (lastPlace n)) = divEven n (2 ^ lastPlace n) := by
    rw [Nat.one_mul, Nat.pow_eq, Nat.pow_eq, pow_zero, Nat.mul_one]
  obtain ⟨hplace, hplaceCarried⟩ := lastPlace_le (by omega) h
  unfold ofRatio
  simp only [hn, if_false, hexponent, hpos, hneg, hmantissa]
  by_cases hcarried : divEven n (2 ^ lastPlace n) = Nat.pow 2 53
  · have hnext : ((lastPlace n : Nat) : Int) + 1 = (lastPlace n + 1 : Nat) := by omega
    have hrange : ¬ maxExponent < (lastPlace n + 1 : Nat) := by
      have hcarriedPlace := hplaceCarried hcarried
      unfold maxExponent
      omega
    have hvalue : Nat.pow 2 52 * 2 ^ (lastPlace n + 1) = roundNat n := by
      rw [roundNat, hcarried, Nat.pow_eq, Nat.pow_eq, pow_succ]
      ring
    rw [if_pos hcarried, if_pos hcarried, hnext, if_neg hrange, toInt?_finite_natCast, hvalue]
  · have hrange : ¬ maxExponent < (lastPlace n : Nat) := by
      unfold maxExponent
      omega
    rw [if_neg hcarried, if_neg hcarried, if_neg hrange, toInt?_finite_natCast, roundNat]

theorem length_toDigits_le (h : n < overflowBound) : (Nat.toDigits 10 n).length ≤ 309 := by
  rw [Nat.length_toDigits_le_iff (by decide) (by decide)]
  apply h.trans_le
  decide +kernel

theorem toInt?_ofDecimal_whole (h : n < overflowBound) :
    (ofDecimal negative n 0).toInt? = some (if negative then -(roundNat n : Int) else roundNat n) := by
  by_cases hn : n = 0
  · rw [hn]
    simp [ofDecimal, toInt?_zero, roundNat_of_lt]
  have hlength := length_toDigits_le h
  have hmin : ¬ (n = 0 ∨ ((Nat.toDigits 10 n).length : Int) + 0 < -330) := by omega
  have hmax : ¬ 310 < ((Nat.toDigits 10 n).length : Int) + 0 := by omega
  have hwhole : n * Nat.pow 10 (Int.toNat 0) = n := Nat.mul_one n
  unfold ofDecimal
  dsimp only
  rw [if_neg hmin, if_neg hmax, hwhole]
  exact toInt?_ofRatio_whole h

end Binary64
end AskTable
