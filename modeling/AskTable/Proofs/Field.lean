import AskTable.Query.Field
import Mathlib.Algebra.Order.Ring.Rat
import Mathlib.Data.List.MinMax
import Mathlib.Tactic.Common

/-! What a name resolves to: always one of the columns. Which of two columns is the first to claim text. -/
namespace AskTable

section Extremes

variable {α β : Type} [DecidableEq α] [LinearOrder β] {f : α → β} {l : List α} {a : α}

/-- The first of the greatest members lies above all before it and below none after it. -/
theorem argmax_eq_some_iff_append : l.argmax f = some a ↔
    ∃ before after, l = before ++ a :: after ∧ (∀ b ∈ before, f b < f a) ∧ ∀ b ∈ after, f b ≤ f a := by
  rw [List.argmax_eq_some_iff]
  constructor
  · rintro ⟨ha, hle, hfirst⟩
    obtain ⟨before, after, rfl, hnew⟩ := List.eq_append_cons_of_mem ha
    refine ⟨before, after, rfl, fun b hb => lt_of_le_of_ne (hle b (by simp [hb])) fun hsame => ?_,
      fun b hb => hle b (by simp [hb])⟩
    have hplace := hfirst b (by simp [hb]) hsame.ge
    rw [List.idxOf_append_of_notMem hnew, List.idxOf_append_of_mem hb, List.idxOf_cons_self, Nat.add_zero] at hplace
    exact absurd (List.idxOf_lt_length_of_mem hb) (not_lt.mpr hplace)
  · rintro ⟨before, after, rfl, hbefore, hafter⟩
    have hle : ∀ b ∈ before ++ a :: after, f b ≤ f a := by
      simp only [List.forall_mem_append, List.forall_mem_cons]
      exact ⟨fun b hb => (hbefore b hb).le, le_rfl, hafter⟩
    have hnew (b : α) (hb : f a ≤ f b) : b ∉ before := fun hmem => absurd (hbefore b hmem) (not_lt.mpr hb)
    refine ⟨by simp, hle, fun b _ hb => ?_⟩
    rw [List.idxOf_append_of_notMem (hnew a le_rfl), List.idxOf_append_of_notMem (hnew b hb), List.idxOf_cons_self]
    exact Nat.add_le_add_left (Nat.zero_le _) _

theorem argmin_eq_some_iff_append : l.argmin f = some a ↔
    ∃ before after, l = before ++ a :: after ∧ (∀ b ∈ before, f a < f b) ∧ ∀ b ∈ after, f a ≤ f b :=
  argmax_eq_some_iff_append (β := βᵒᵈ)

end Extremes

namespace Field

open scoped List

variable {columns : List Text} {name column : Text}

theorem firstBest_eq_argmax {α : Type} (score : α → Rat) (members : List α) :
    firstBest score members = members.argmax score := by
  unfold firstBest List.argmax
  congr 1
  funext best a
  cases best <;> rfl

theorem mem_of_firstBest {α : Type} {score : α → Rat} {members : List α} {a : α}
    (h : firstBest score members = some a) : a ∈ members :=
  List.argmax_mem (firstBest_eq_argmax score members ▸ h)

private theorem mem_of_closest? (h : closest? name columns = some column) : column ∈ columns :=
  mem_of_firstBest (Option.filter_eq_some_iff.mp h).1

private theorem mem_of_semantic {field : SemanticField} (h : field.column? columns = some column) :
    column ∈ columns := by
  obtain ⟨pattern, -, hfind⟩ := List.exists_of_findSome?_eq_some h
  exact List.mem_of_find?_eq_some hfind

/-- A name resolves to a column of the table or to nothing. -/
theorem mem_of_resolve? (h : resolve? name columns = some column) : column ∈ columns := by
  unfold resolve? at h
  dsimp only at h
  split_ifs at h
  simp only [Option.orElse_eq_orElse, Option.orElse_eq_or] at h
  rcases Option.or_eq_some_iff.mp h with hexact | ⟨-, h⟩
  · exact List.mem_of_find?_eq_some hexact
  · rcases Option.or_eq_some_iff.mp h with hpart | ⟨-, hlike⟩
    · cases hfield : SemanticField.ofWord? (plain name) with
      | some field => exact mem_of_semantic (by simpa only [hfield] using hpart)
      | none =>
        simp only [hfield] at hpart
        exact List.mem_of_find?_eq_some hpart
    · exact mem_of_closest? hlike

/-- A column claims text before another one if its name is longer, or as long and further in front. -/
def ClaimsBefore (columns : List Text) (x y : Text) : Prop :=
  y.length < x.length ∨ y.length = x.length ∧ [x, y] <+ columns

instance (columns : List Text) (x y : Text) : Decidable (ClaimsBefore columns x y) :=
  inferInstanceAs (Decidable (_ ∨ _))

variable {x y : Text}

theorem pair_sublist_or {l : List Text} (hx : x ∈ l) (hy : y ∈ l) (hne : x ≠ y) : [x, y] <+ l ∨ [y, x] <+ l := by
  obtain ⟨front, back, rfl⟩ := List.append_of_mem hx
  rcases List.mem_append.mp hy with hy | hy
  · have hfirst : [x] <+ x :: back := List.singleton_sublist.mpr List.mem_cons_self
    exact .inr ((List.singleton_sublist.mpr hy).append hfirst)
  · have hlater := (List.mem_cons.mp hy).resolve_left hne.symm
    exact .inl ((List.cons_sublist_cons.mpr (List.singleton_sublist.mpr hlater)).trans (List.sublist_append_right _ _))

theorem claimsBefore_or (hx : x ∈ columns) (hy : y ∈ columns) (hne : x ≠ y) :
    ClaimsBefore columns x y ∨ ClaimsBefore columns y x := by
  unfold ClaimsBefore
  rcases pair_sublist_or hx hy hne with h | h
  · by_cases hlength : y.length ≤ x.length
    · exact .inl ((Nat.lt_or_eq_of_le hlength).imp_right fun heq => ⟨heq, h⟩)
    · exact .inr (.inl (by omega))
  · by_cases hlength : x.length ≤ y.length
    · exact .inr ((Nat.lt_or_eq_of_le hlength).imp_right fun heq => ⟨heq, h⟩)
    · exact .inl (.inl (by omega))

@[simp] theorem mem_byLength : x ∈ byLength columns ↔ x ∈ columns :=
  List.mem_mergeSort

theorem count_byLength (columns : List Text) (x : Text) : (byLength columns).count x = columns.count x :=
  (List.mergeSort_perm _ _).count_eq x

theorem pair_sublist_byLength (hx : x ∈ columns) (hy : y ∈ columns) (h : ClaimsBefore columns x y) :
    [x, y] <+ byLength columns := by
  have htrans : ∀ a b c : Text, decide (b.length ≤ a.length) → decide (c.length ≤ b.length) →
      decide (c.length ≤ a.length) := by
    simp only [decide_eq_true_eq]
    omega
  have htotal : ∀ a b : Text, (decide (b.length ≤ a.length) || decide (a.length ≤ b.length)) = true := by
    simp only [Bool.or_eq_true, decide_eq_true_eq]
    omega
  rcases h with hlonger | ⟨hlength, hsublist⟩
  · have hne : x ≠ y := fun heq => by simp [heq] at hlonger
    refine (pair_sublist_or (List.mem_mergeSort.mpr hx) (List.mem_mergeSort.mpr hy) hne).resolve_right fun hwrong => ?_
    have hsorted := (List.pairwise_mergeSort htrans htotal columns).sublist hwrong
    have hle : x.length ≤ y.length := by simpa using hsorted
    omega
  · exact List.pair_sublist_mergeSort htrans htotal (by simpa using Nat.le_of_eq hlength) hsublist

end Field
end AskTable
