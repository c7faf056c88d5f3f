import AskTable.Calendar.Date
import AskTable.Text.Case
import Mathlib.Data.List.DropRight
import Mathlib.Data.List.TakeWhile
import Mathlib.Tactic.Common

/-! Texts within texts, blanks at the ends of a text, and texts that are their own small form. -/
namespace AskTable

/-- The characters of a text are gone through one by one, not all characters there are. -/
instance (priority := high) decidableForallMem (p : Char → Prop) [DecidablePred p] (t : Text) :
    Decidable (∀ c ∈ t, p c) :=
  List.decidableBAll p t

namespace Text

variable {t w : Text} {c : Char}

theorem contains_eq_true_iff : t.contains w = true ↔ w <:+: t := by
  induction t with
  | nil => simp [contains]
  | cons c rest ih => simp [contains, ih, List.infix_cons_iff]

theorem startsWith_eq_true_iff : startsWith t w = true ↔ w <+: t := by
  simp [startsWith]

theorem endsWith_eq_true_iff : endsWith t w = true ↔ w <:+ t := by
  simp [endsWith]

theorem join_cons_cons (sep t u : Text) (rest : List Text) :
    join sep (t :: u :: rest) = t ++ sep ++ join sep (u :: rest) :=
  rfl

theorem strip_eq_nil_of_isBlank (h : t.isBlank = true) : t.strip = [] := by
  have hcut : t.dropWhile isBlankChar = [] := by
    exact List.dropWhile_eq_nil_iff.mpr (List.all_eq_true.mp h)
  simp [strip, trim, hcut]

theorem trim_eq_rdropWhile (cut : Char → Bool) (t : Text) :
    trim cut t = (t.dropWhile cut).rdropWhile cut := rfl

/-- A text with none of the characters that are cut is left as it is. -/
theorem trim_eq_self {cut : Char → Bool} (h : ∀ c ∈ t, cut c = false) : trim cut t = t := by
  have hfront : t.dropWhile cut = t := List.dropWhile_eq_self_iff.mpr fun hlong => by simp [h]
  rw [trim_eq_rdropWhile, hfront, List.rdropWhile_eq_self_iff]
  exact fun hne => by simp [h _ (List.getLast_mem hne)]

theorem trim_trim (cut : Char → Bool) (t : Text) : trim cut (trim cut t) = trim cut t := by
  have hfront : (trim cut t).dropWhile cut = trim cut t := by
    rw [List.dropWhile_eq_self_iff]
    intro hlong
    have hprefix : trim cut t <+: t.dropWhile cut := List.rdropWhile_prefix cut _
    have hdrop : 0 < (t.dropWhile cut).length := hlong.trans_le hprefix.length_le
    have hhead := List.dropWhile_get_zero_not cut t hdrop
    rwa [List.get_eq_getElem, ← hprefix.getElem hlong] at hhead
  rw [trim_eq_rdropWhile, hfront, trim_eq_rdropWhile, List.rdropWhile_idempotent]

@[simp] theorem strip_strip (t : Text) : t.strip.strip = t.strip :=
  trim_trim isBlankChar t

theorem lowerChar_of_ascii (hascii : c.toNat < 128) (hsmall : ¬ (65 ≤ c.toNat ∧ c.toNat < 91)) :
    lowerChar c = [c] := by
  simp [lowerChar, hascii]
  omega

theorem ne_sigma_of_lowerChar (h : lowerChar c = [c]) : c ≠ 'Σ' := by
  rintro rfl
  exact absurd h (by decide)

/-- Characters that are their own small form are so within a text. -/
theorem lowerAfter_of_lowerChar (h : ∀ c ∈ t, lowerChar c = [c]) (before : Text) : lowerAfter before t = t := by
  induction t generalizing before with
  | nil => rfl
  | cons c rest ih =>
    obtain ⟨hc, hrest⟩ := List.forall_mem_cons.mp h
    rw [lowerAfter, if_neg (ne_sigma_of_lowerChar hc), hc, ih hrest]
    rfl

theorem lower_of_lowerChar (h : ∀ c ∈ t, lowerChar c = [c]) : t.lower = t :=
  lowerAfter_of_lowerChar h []

/-- A text without capital letters and without characters beyond ASCII is its own small form. -/
theorem lower_eq_self (h : ∀ c ∈ t, c.toNat < 65) : t.lower = t := by
  refine lower_of_lowerChar fun c hc => ?_
  have hlow := h c hc
  exact lowerChar_of_ascii (by omega) (by omega)

end Text

namespace Date

private theorem toNat_lt_of_mem_padded {width n : Nat} {c : Char} (hc : c ∈ Text.padded width n) :
    c.toNat < 65 := by
  rcases List.mem_append.mp hc with hc | hc
  · obtain rfl := List.eq_of_mem_replicate hc
    decide
  · have hdigit : c.isDigit = true := Nat.isDigit_of_mem_toDigits (by decide) (by decide) hc
    have hle : c.toNat ≤ 57 := by
      simp only [Char.isDigit, Bool.and_eq_true, decide_eq_true_eq] at hdigit
      exact UInt32.le_iff_toNat_le.mp hdigit.2
    omega

@[simp] theorem lower_iso (d : Date) : d.iso.lower = d.iso := by
  refine Text.lower_eq_self fun c hc => ?_
  simp only [iso, List.mem_append] at hc
  have hdash : c ∈ ("-" : Text) → c.toNat < 65 := by
    intro h
    obtain rfl : c = '-' := by simpa using h
    decide
  rcases hc with ((((hc | hc) | hc) | hc) | hc)
  · exact toNat_lt_of_mem_padded hc
  · exact hdash hc
  · exact toNat_lt_of_mem_padded hc
  · exact hdash hc
  · exact toNat_lt_of_mem_padded hc

theorem iso_ne_nil (d : Date) : d.iso ≠ [] := by
  simp [iso]

end Date
end AskTable
