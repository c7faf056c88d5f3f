import AskTable.Proofs.Entries
import AskTable.Proofs.Words

/-! Numbers in cells. Whatever a number is read from has a digit in it, and so has what a number is shown as;
neither is a word for a truth value. A number that is put in place of the cell it was read from leaves open
only how the cell was written. -/
namespace AskTable

namespace Text

variable {t w : Text}

def HasDigit (t : Text) : Prop :=
  ∃ c ∈ t, (digitValue? c).isSome = true

theorem HasDigit.mono (h : t.HasDigit) (hw : t ⊆ w) : w.HasDigit := by
  obtain ⟨c, hc, hdigit⟩ := h
  exact ⟨c, hw hc, hdigit⟩

/-- A digit stands in a row of ten. -/
theorem exists_zero_of_digitValue? {c : Char} {d : Nat} (h : digitValue? c = some d) :
    d < 10 ∧ ∃ first ∈ 48 :: digitZeros, c.toNat = first + d := by
  unfold digitValue? at h
  dsimp only at h
  by_cases hascii : c.toNat < 128
  · rw [if_pos hascii] at h
    split_ifs at h with hplain
    obtain rfl := Option.some.inj h
    simp only [Bool.and_eq_true, decide_eq_true_eq] at hplain
    exact ⟨by omega, 48, List.mem_cons_self, by omega⟩
  · rw [if_neg hascii] at h
    obtain ⟨first, hzero, rfl⟩ := Option.map_eq_some_iff.mp h
    have hrow := List.find?_some hzero
    simp only [Bool.and_eq_true, decide_eq_true_eq] at hrow
    exact ⟨by omega, first, List.mem_cons_of_mem _ (List.mem_of_find?_eq_some hzero), by omega⟩

/-- Each row of digits beyond ASCII begins behind the long s. No row meets the blanks behind it or a run of letters that
have a small form. -/
theorem apart_of_mem_zeros : ∀ first ∈ 48 :: digitZeros, (first = 48 ∨ 0x17F < first) ∧
    (first + 10 ≤ 0x1680 ∨ 0x1680 < first) ∧ (first + 10 ≤ 0x2000 ∨ 0x3000 < first) ∧
    ∀ run ∈ lowerRuns, run.last < first ∨ first + 10 ≤ run.first := by
  decide +kernel

theorem lowerChar_of_digit {c : Char} (h : (digitValue? c).isSome = true) : lowerChar c = [c] := by
  obtain ⟨d, hd⟩ := Option.isSome_iff_exists.mp h
  obtain ⟨hten, first, hfirst, hcode⟩ := exists_zero_of_digitValue? hd
  obtain ⟨hascii, -, -, hruns⟩ := apart_of_mem_zeros first hfirst
  have hnone : lowerRuns.find? (·.holds c.toNat) = none := by
    refine List.find?_eq_none.mpr fun run hrun hholds => ?_
    have hapart := hruns run hrun
    simp only [CaseRun.holds, Bool.and_eq_true, decide_eq_true_eq] at hholds
    omega
  have hcapital : ¬ (65 ≤ c.toNat ∧ c.toNat < 91) := by omega
  have hdotted : c.toNat ≠ 0x130 := by omega
  simp [lowerChar, hcapital, hdotted, shiftCase, hnone, Char.ofNat_toNat]

theorem HasDigit.lower (h : t.HasDigit) : t.lower.HasDigit := by
  obtain ⟨c, hc, hdigit⟩ := h
  exact ⟨c, mem_lower_of_lowerChar (lowerChar_of_digit hdigit) hc, hdigit⟩

theorem digitValue?_of_isAsciiDigit {c : Char} (h : isAsciiDigit c = true) :
    (digitValue? c).isSome = true := by
  simp only [isAsciiDigit, Bool.and_eq_true, decide_eq_true_eq] at h
  have hlow : 48 ≤ c.toNat := UInt32.le_iff_toNat_le.mp h.1
  have hhigh : c.toNat ≤ 57 := UInt32.le_iff_toNat_le.mp h.2
  have hascii : c.toNat < 128 := by omega
  have hplain : c.toNat < 58 := by omega
  simp [digitValue?, hascii, hlow, hplain]

def plainDigits : List Char :=
  ['0', '1', '2', '3', '4', '5', '6', '7', '8', '9']

theorem mem_plainDigits_of_isAsciiDigit {c : Char} (h : isAsciiDigit c = true) : c ∈ plainDigits := by
  simp only [isAsciiDigit, Bool.and_eq_true, decide_eq_true_eq] at h
  have hlow : 48 ≤ c.toNat := UInt32.le_iff_toNat_le.mp h.1
  have hhigh : c.toNat ≤ 57 := UInt32.le_iff_toNat_le.mp h.2
  have hall : ∀ k < 10, Char.ofNat (48 + k) ∈ plainDigits := by decide
  have hmem := hall (c.toNat - 48) (by omega)
  have hsum : 48 + (c.toNat - 48) = c.toNat := by omega
  rwa [hsum, Char.ofNat_toNat] at hmem

theorem isAsciiDigit_of_mem_ofNat {n : Nat} {c : Char} (hc : c ∈ ofNat n) : isAsciiDigit c = true := by
  have hdigit : c.isDigit = true := Nat.isDigit_of_mem_toDigits (by decide) (by decide) hc
  simp only [Char.isDigit, Bool.and_eq_true, decide_eq_true_eq] at hdigit
  simp only [isAsciiDigit, Bool.and_eq_true, decide_eq_true_eq]
  exact hdigit

theorem mem_plainDigits_of_mem_ofNat {n : Nat} {c : Char} (hc : c ∈ ofNat n) : c ∈ plainDigits :=
  mem_plainDigits_of_isAsciiDigit (isAsciiDigit_of_mem_ofNat hc)

theorem mem_ofInt {n : Int} {c : Char} (hc : c ∈ ofInt n) : c = '-' ∨ c ∈ plainDigits := by
  cases n with
  | ofNat n => exact .inr (mem_plainDigits_of_mem_ofNat hc)
  | negSucc n => exact (List.mem_cons.mp hc).imp_right mem_plainDigits_of_mem_ofNat

theorem exists_first_ofNat (n : Nat) : ∃ c rest, ofNat n = c :: rest ∧ isAsciiDigit c = true := by
  obtain ⟨c, rest, hdigits⟩ := List.exists_cons_of_ne_nil (l := ofNat n) Nat.toDigits_ne_nil
  exact ⟨c, rest, hdigits, isAsciiDigit_of_mem_ofNat (n := n) (hdigits ▸ List.mem_cons_self)⟩

theorem natOfDigits_ofNat (n : Nat) : natOfDigits (ofNat n) = n := by
  have hread : Nat.ofDigitChars 10 (ofNat n) 0 = n := by simp [ofNat]
  exact hread

/-- No zero stands before other digits. -/
theorem head?_ofNat {n : Nat} (h : n ≠ 0) : (ofNat n).head? ≠ some '0' := by
  induction n using Nat.strong_induction_on with
  | _ n ih =>
    by_cases hshort : n < 10
    · have hall : ∀ k < 10, k ≠ 0 → (Nat.digitChar k) ≠ '0' := by decide
      rw [ofNat, Nat.toDigits_of_lt_base hshort, List.head?_cons]
      exact fun heq => hall n hshort h (Option.some.inj heq)
    · have hfront : n / 10 ≠ 0 := by omega
      have hdigits : ofNat n = ofNat (n / 10) ++ [(n % 10).digitChar] :=
        Nat.toDigits_of_base_le (by decide) (by omega)
      obtain ⟨c, rest, hcons, -⟩ := exists_first_ofNat (n / 10)
      have hfirst := ih (n / 10) (by omega) hfront
      rw [hcons] at hfirst hdigits
      rw [hdigits]
      exact hfirst

theorem not_lt_length_ofNat {n : Nat} (h : n < 10 ^ integerDigitLimit) :
    ¬ integerDigitLimit < (ofNat n).length := by
  rw [Nat.not_lt]
  exact (Nat.length_toDigits_le_iff (by decide) (by decide)).mpr h

theorem lt_length_ofNat {n : Nat} (h : 10 ^ integerDigitLimit ≤ n) : integerDigitLimit < (ofNat n).length := by
  by_contra hshort
  have hlt : n < 10 ^ integerDigitLimit :=
    (Nat.length_toDigits_le_iff (by decide) (by decide)).mp (Nat.not_lt.mp hshort)
  omega

theorem hasDigit_ofNat (n : Nat) : (ofNat n).HasDigit := by
  obtain ⟨c, rest, hdigits, hc⟩ := exists_first_ofNat n
  exact ⟨c, hdigits ▸ List.mem_cons_self, digitValue?_of_isAsciiDigit hc⟩

theorem hasDigit_ofInt (n : Int) : (ofInt n).HasDigit := by
  cases n with
  | ofNat n => exact hasDigit_ofNat n
  | negSucc n => exact (hasDigit_ofNat (n + 1)).mono (List.subset_cons_self _ _)

theorem hasDigit_padded (width n : Nat) : (padded width n).HasDigit :=
  (hasDigit_ofNat n).mono (List.subset_append_right _ _)

end Text

open Text (HasDigit)

namespace Binary64

theorem hasDigit_shortest (i : RoundingInterval) : HasDigit i.shortest.1 := by
  have hone : HasDigit ['1'] := ⟨'1', by simp, by decide⟩
  have hzero : HasDigit ['0'] := ⟨'0', by simp, by decide⟩
  unfold RoundingInterval.shortest
  dsimp only
  split
  · split_ifs
    · exact hone
    · exact Text.hasDigit_ofNat _
  · exact hzero

theorem hasDigit_positional {digits : Text} (h : HasDigit digits) (place : Int) :
    HasDigit (positional digits place) := by
  unfold positional
  split_ifs
  · exact h.mono (List.subset_append_right _ _)
  · exact h.mono (List.Subset.trans (List.subset_append_left _ _) (List.subset_append_left _ _))
  · refine h.mono fun c hc => ?_
    rw [← List.take_append_drop place.toNat digits, List.mem_append] at hc
    simp only [List.mem_append]
    tauto

theorem hasDigit_scientific (digits : Text) (place : Int) : HasDigit (scientific digits place) :=
  (Text.hasDigit_padded 2 _).mono (List.subset_append_right _ _)

/-- A finite value is shown with a digit. -/
theorem hasDigit_text {x : Binary64} (h : x.isFinite = true) : HasDigit x.text := by
  have hbody (m : Nat) (e : Int) : HasDigit (text (.finite false m e)) := by
    have hzero : HasDigit "0.0" := ⟨'0', by simp, by decide⟩
    simp only [text, Bool.false_eq_true, if_false]
    split_ifs
    · exact hzero
    · exact hasDigit_positional (hasDigit_shortest _) _
    · exact hasDigit_scientific _ _
  cases x with
  | nan | infinite negative => cases h
  | finite negative m e =>
    cases negative with
    | false => exact hbody m e
    | true => exact (hbody m e).mono (List.subset_cons_self _ _)

end Binary64

namespace Decimal

theorem of_mem_plainDigits : ∀ c ∈ Text.plainDigits, isDigitChar c = true ∧ isMargin c = false ∧
    plainDigit c = c ∧ c ∉ ['-', '+', '_', ','] ∧ c.toLower ∉ ['i', 'n'] := by
  decide

theorem map_plainDigit_ofInt (n : Int) : (Text.ofInt n).map plainDigit = Text.ofInt n := by
  have hsame : ∀ c ∈ Text.ofInt n, plainDigit c = id c := by
    intro c hc
    rcases Text.mem_ofInt hc with rfl | hc
    · rfl
    · exact (of_mem_plainDigits c hc).2.2.1
  rw [List.map_congr_left hsame, List.map_id]

variable {t plain : Text} {negative afterDigit : Bool} {d : Decimal}

private theorem exists_digit_of_ofPlain (h : ofPlain negative t = some d) : ∃ c ∈ t, isAsciiDigit c = true := by
  have htake {w : Text} (hw : w ⊆ t) (hne : w.takeWhile isAsciiDigit ≠ []) : ∃ c ∈ t, isAsciiDigit c = true := by
    obtain ⟨c, hc⟩ := List.exists_mem_of_ne_nil _ hne
    exact ⟨c, hw (List.takeWhile_subset _ hc), List.mem_takeWhile_imp hc⟩
  have hrest : t.dropWhile isAsciiDigit ⊆ t := List.dropWhile_subset _
  unfold ofPlain at h
  dsimp only at h
  split at h
  · next after heq =>
    dsimp only at h
    split_ifs at h with hnone
    rw [Bool.and_eq_true, List.isEmpty_iff, List.isEmpty_iff, not_and_or] at hnone
    rcases hnone with hwhole | hfraction
    · exact htake (List.Subset.refl _) hwhole
    · exact htake (fun c hc => hrest (heq ▸ List.mem_cons_of_mem _ hc)) hfraction
  · dsimp only at h
    split_ifs at h with hnone
    rw [List.isEmpty_nil, Bool.and_true, List.isEmpty_iff] at hnone
    exact htake (List.Subset.refl _) hnone

private theorem subset_of_withoutSeparators (h : withoutSeparators afterDigit t = some plain) : plain ⊆ t := by
  fun_induction withoutSeparators afterDigit t generalizing plain with
  | case1 => simp_all
  | case2 => cases h
  | case3 afterDigit d rest hpart ih =>
    obtain ⟨kept, hkept, rfl⟩ := Option.map_eq_some_iff.mp h
    exact List.Subset.trans (List.cons_subset_cons _ (ih hkept)) (List.subset_cons_self _ _)
  | case4 => cases h
  | case5 afterDigit c rest _ _ ih =>
    obtain ⟨kept, hkept, rfl⟩ := Option.map_eq_some_iff.mp h
    exact List.cons_subset_cons _ (ih hkept)

private theorem digitValue?_of_isAsciiDigit_plainDigit {c : Char} (h : isAsciiDigit (plainDigit c) = true) :
    (digitValue? c).isSome = true := by
  unfold plainDigit at h
  cases hvalue : digitValue? c with
  | some value => rfl
  | none =>
    rw [hvalue] at h
    have hdigit := Text.digitValue?_of_isAsciiDigit h
    rw [hvalue] at hdigit
    cases hdigit

private theorem subset_of_splitSign (t : Text) : (splitSign t).2 ⊆ t := by
  unfold splitSign
  split
  · exact List.subset_cons_self _ _
  · exact List.subset_cons_self _ _
  · exact List.Subset.refl _

end Decimal

namespace Number

variable {t : Text} {n : Number}

theorem hasDigit_of_ofBinary {x : Binary64} (h : Binary64.ofText? t = some x) (hfinite : x.isFinite = true) :
    t.HasDigit := by
  obtain ⟨d, hd, -⟩ := Binary64.exists_decimal_of_ofText? h hfinite
  obtain ⟨plain, hplain, hd⟩ := Option.bind_eq_some_iff.mp hd
  obtain ⟨c, hc, hdigit⟩ := Decimal.exists_digit_of_ofPlain hd
  have hbody := Decimal.subset_of_splitSign _ (Decimal.subset_of_withoutSeparators hplain hc)
  obtain ⟨b, hb, rfl⟩ := List.mem_map.mp hbody
  have hsub : Text.trim Decimal.isMargin t ⊆ t := by
    rw [Text.trim_eq_rdropWhile]
    exact List.Subset.trans (List.rdropWhile_prefix _ _).subset (List.dropWhile_subset _)
  exact ⟨b, hsub hb, Decimal.digitValue?_of_isAsciiDigit_plainDigit hdigit⟩

/-- A number is written with a digit. -/
theorem hasDigit_of_ofText? (h : ofText? t = some n) : t.HasDigit := by
  obtain ⟨x, hx, hfinite, -⟩ := exists_binary_of_ofText? h
  exact hasDigit_of_ofBinary hx hfinite

end Number

namespace Value

variable {v w : Value} {n : Number}

private theorem isTruthCell_of_hasDigit (h : v.shown.strip.HasDigit) : isTruthCell v = false := by
  have hword : (["true", "false"] : List Text).contains v.shown.strip.lower = false := by
    obtain ⟨c, hc, hdigit⟩ := h.lower
    have hfree : ∀ word ∈ (["true", "false"] : List Text), word.any isDigitChar = false := by decide
    by_contra hmem
    rw [Bool.not_eq_false, List.contains_iff_mem] at hmem
    exact List.any_eq_false.mp (hfree _ hmem) c hc hdigit
  cases v with
  | bool b =>
    have hnone : ∀ b, (Value.bool b).shown.strip.any isDigitChar = false := by decide
    obtain ⟨c, hc, hdigit⟩ := h
    exact absurd hdigit (List.any_eq_false.mp (hnone b) c hc)
  | null | int n | float x | text t | date d | moment m | list items | dict entries => exact hword

/-- Reading the number in a cell once more gives the same number. -/
theorem number?_ofNumber (h : v.number? = .ok (some n)) : (ofNumber n).number? = .ok (some n) := by
  have hsmall := isHuge_of_number? h
  cases n with
  | int k =>
    have hbound : ¬ Binary64.overflowBound ≤ k.natAbs := by simpa [ofNumber, isHuge] using hsmall
    simp [ofNumber, number?, hbound]
  | float x =>
    have hread (t : Text) : Number.ofText? t = some (.float x) → x.isFinite = true := by
      intro ht
      obtain ⟨y, -, hfinite, heq | ⟨k, -, heq⟩⟩ := Number.exists_binary_of_ofText? ht
      · exact Number.float.inj heq ▸ hfinite
      · cases heq
    have hfinite : x.isFinite = true := by
      cases v with
      | bool b => cases h
      | int k =>
        unfold number? at h
        dsimp only at h
        split_ifs at h
        cases h
      | float y =>
        unfold number? at h
        dsimp only at h
        split_ifs at h with hy
        · exact Number.float.inj (Option.some.inj (Except.ok.inj h)) ▸ hy
        · cases h
      | null | text t | date d | moment m | list items | dict entries =>
        unfold number? at h
        dsimp only at h
        split_ifs at h
        · cases h
        · exact hread _ (Except.ok.inj h)
    simp [ofNumber, number?, hfinite]

/-- What a number is read from is shown with a digit. -/
theorem hasDigit_of_number? (h : v.number? = .ok (some n)) : v.shown.strip.HasDigit := by
  cases v with
  | bool b => cases h
  | int k =>
    have hshown : (Value.int k).shown = Text.ofInt k := by simp [shown, quoted]
    rw [hshown, (Text.isSolid_ofInt k).strip_eq]
    exact Text.hasDigit_ofInt k
  | float x =>
    have hshown : (Value.float x).shown = x.text := by simp [shown, quoted]
    rw [hshown, x.isSolid_text.strip_eq]
    unfold number? at h
    dsimp only at h
    split_ifs at h with hx
    · exact Binary64.hasDigit_text hx
    · cases h
  | null | text t | date d | moment m | list items | dict entries =>
    unfold number? at h
    dsimp only at h
    split_ifs at h
    · cases h
    · exact (Number.hasDigit_of_ofText? (Except.ok.inj h)).mono (List.filter_subset_self _)

/-- One cell may have been put in place of another because the number in that one has been read. -/
def ReadAs (v w : Value) : Prop :=
  w = v ∨ ∃ n, v.number? = .ok (some n) ∧ w = ofNumber n

namespace ReadAs

theorem number?_eq (h : v.ReadAs w) : w.number? = v.number? := by
  rcases h with rfl | ⟨n, hn, rfl⟩
  · rfl
  · rw [number?_ofNumber hn, hn]

theorem isBlank_eq (h : v.ReadAs w) : w.isBlank = v.isBlank := by
  have hfilled {u : Value} {n : Number} (hn : u.number? = .ok (some n)) : u.isBlank = false := by
    by_contra hblank
    rw [number?_of_isBlank (eq_true_of_ne_false hblank)] at hn
    cases hn
  rcases h with rfl | ⟨n, hn, rfl⟩
  · rfl
  · rw [hfilled hn, hfilled (number?_ofNumber hn)]

theorem isTruthCell_eq (h : v.ReadAs w) : isTruthCell w = isTruthCell v := by
  rcases h with rfl | ⟨n, hn, rfl⟩
  · rfl
  · rw [isTruthCell_of_hasDigit (hasDigit_of_number? hn),
      isTruthCell_of_hasDigit (hasDigit_of_number? (number?_ofNumber hn))]

end ReadAs
end Value
end AskTable
