import AskTable.Proofs.Walk

/-! Two runs side by side. What relates the data of both at the start, and is kept by every step, relates their
results, and where one run ends at a fault the other ends at the same. -/
namespace AskTable

/-- Two computations end at the same fault, or with results that a relation holds of. -/
inductive Parallel {ε α β : Type} (R : α → β → Prop) : Except ε α → Except ε β → Prop where
  | ok {a : α} {b : β} (h : R a b) : Parallel R (.ok a) (.ok b)
  | error (fault : ε) : Parallel R (.error fault) (.error fault)

namespace Parallel

variable {ε α α' β β' : Type} {R : α → α' → Prop} {S : β → β' → Prop}

theorem refl {R : α → α → Prop} (h : ∀ a, R a a) (x : Except ε α) : Parallel R x x := by
  cases x with
  | ok a => exact .ok (h a)
  | error fault => exact .error fault

theorem bind {x : Except ε α} {y : Except ε α'} {f : α → Except ε β} {g : α' → Except ε β'}
    (h : Parallel R x y) (hstep : ∀ a a', R a a' → Parallel S (f a) (g a')) :
    Parallel S (x >>= f) (y >>= g) := by
  cases h with
  | ok h => exact hstep _ _ h
  | error fault => exact .error fault

theorem map {x : Except ε α} {y : Except ε α'} {f : α → β} {g : α' → β'} (h : Parallel R x y)
    (hstep : ∀ a a', R a a' → S (f a) (g a')) : Parallel S (x.map f) (y.map g) := by
  cases h with
  | ok h => exact .ok (hstep _ _ h)
  | error fault => exact .error fault

/-- What both results are seen as, is the same. -/
theorem map_eq {γ : Type} {x : Except ε α} {y : Except ε α'} {f : α → γ} {g : α' → γ}
    (h : Parallel R x y) (hview : ∀ a a', R a a' → f a = g a') : x.map f = y.map g := by
  cases h with
  | ok h => exact congrArg Except.ok (hview _ _ h)
  | error fault => rfl

theorem mapM {f : α → Except ε β} {g : α' → Except ε β'} {l : List α} {l' : List α'}
    (h : List.Forall₂ R l l') (hstep : ∀ a a', R a a' → Parallel S (f a) (g a')) :
    Parallel (List.Forall₂ S) (l.mapM f) (l'.mapM g) := by
  induction h with
  | nil => exact .ok .nil
  | cons hhead _ ih =>
    rw [List.mapM_cons, List.mapM_cons]
    exact (hstep _ _ hhead).bind fun _ _ hb => ih.bind fun _ _ hbs => .ok (.cons hb hbs)

theorem foldlM {R : β → β' → Prop} {f : β → α → Except ε β} {g : β' → α → Except ε β'} {l : List α}
    {b : β} {b' : β'} (h : R b b') (hstep : ∀ a b b', R b b' → Parallel R (f b a) (g b' a)) :
    Parallel R (l.foldlM f b) (l.foldlM g b') := by
  induction l generalizing b b' with
  | nil => exact .ok h
  | cons a l ih =>
    rw [List.foldlM_cons, List.foldlM_cons]
    exact (hstep a b b' h).bind fun _ _ hb => ih hb

/-- Members that correspond are selected together. -/
theorem selectM {test : α → Except Fault Bool} {test' : α' → Except Fault Bool} {l : List α} {l' : List α'}
    (h : List.Forall₂ R l l') (htest : ∀ a a', R a a' → test a = test' a') :
    Parallel (List.Forall₂ R) (AskTable.selectM test l) (AskTable.selectM test' l') := by
  induction h with
  | nil => exact .ok .nil
  | @cons a a' _ _ hhead _ ih =>
    rw [AskTable.selectM, AskTable.selectM, htest a a' hhead]
    cases test' a' with
    | error fault => exact .error fault
    | ok keep =>
      refine ih.bind fun _ _ hkept => ?_
      cases keep with
      | false => exact .ok hkept
      | true => exact .ok (.cons hhead hkept)

end Parallel

variable {α β : Type} {R : α → β → Prop} {le : α → α → Bool} {le' : β → β → Bool} {l : List α} {l' : List β}

/-- Lists whose members correspond are sorted alike, if members that correspond have the same rank. -/
theorem forall₂_mergeSort (h : List.Forall₂ R l l')
    (hle : ∀ a a' b b', R a a' → R b b' → le a b = le' a' b') :
    List.Forall₂ R (l.mergeSort le) (l'.mergeSort le') := by
  obtain ⟨hlength, hmem⟩ := List.forall₂_iff_zip.mp h
  -- Both lists are images of the list of pairs, which is sorted once.
  have hfst : (l.zip l').map Prod.fst = l := List.map_fst_zip (Nat.le_of_eq hlength)
  have hsnd : (l.zip l').map Prod.snd = l' := List.map_snd_zip (Nat.le_of_eq hlength.symm)
  have hleft := List.map_mergeSort (f := Prod.fst) (l := l.zip l') (r := fun p q => le p.1 q.1) (s := le)
    fun _ _ _ _ => rfl
  have hright := List.map_mergeSort (f := Prod.snd) (l := l.zip l') (r := fun p q => le p.1 q.1) (s := le')
    fun p hp q hq => hle _ _ _ _ (hmem hp) (hmem hq)
  rw [hfst] at hleft
  rw [hsnd] at hright
  rw [← hleft, ← hright, List.forall₂_map_left_iff, List.forall₂_map_right_iff, List.forall₂_same]
  exact fun p hp => hmem (List.mem_mergeSort.mp hp)

end AskTable
