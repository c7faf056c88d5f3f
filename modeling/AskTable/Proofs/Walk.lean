import AskTable.Fault
import Mathlib.Data.List.Forall2
import Mathlib.Data.List.Perm.Basic
import Mathlib.Tactic.Common

/-! Walks over lists that end at the first fault: when a walk comes to its end, and what is then known of
the members and of the result. -/
namespace AskTable

variable {ε α β : Type}

theorem bind_eq_ok_iff {x : Except ε α} {f : α → Except ε β} {b : β} :
    x >>= f = .ok b ↔ ∃ a, x = .ok a ∧ f a = .ok b := by
  cases x <;> simp [bind, Except.bind]

theorem map_eq_ok_iff {x : Except ε α} {f : α → β} {b : β} :
    x.map f = .ok b ↔ ∃ a, x = .ok a ∧ f a = b := by
  cases x <;> simp [Except.map]

def Succeeds (x : Except ε α) : Prop :=
  ∃ a, x = .ok a

namespace Succeeds

variable {a : α} {e : ε} {x : Except ε α}

@[simp] theorem ok : Succeeds (.ok a : Except ε α) :=
  ⟨a, rfl⟩

@[simp] theorem not_error : ¬ Succeeds (.error e : Except ε α) := by
  simp [Succeeds]

@[simp] theorem map_iff {f : α → β} : Succeeds (x.map f) ↔ Succeeds x := by
  cases x <;> simp [Except.map]

theorem bind_iff {f : α → Except ε β} :
    Succeeds (x >>= f) ↔ ∃ a, x = .ok a ∧ Succeeds (f a) := by
  cases x <;> simp [bind, Except.bind]

@[simp] theorem ok_bind_iff {f : α → Except ε β} :
    Succeeds ((.ok a : Except ε α) >>= f) ↔ Succeeds (f a) := by
  simp [bind_iff]

@[simp] theorem not_error_bind {f : α → Except ε β} :
    ¬ Succeeds ((.error e : Except ε α) >>= f) := by
  simp [bind_iff]

@[simp] theorem pure {b : α} : Succeeds (pure b : Except ε α) :=
  ok

@[simp] theorem fmap_iff {f : α → β} : Succeeds (f <$> x) ↔ Succeeds x :=
  map_iff

end Succeeds

theorem mapM_eq_ok_iff {f : α → Except ε β} {l : List α} {bs : List β} :
    l.mapM f = .ok bs ↔ List.Forall₂ (fun a b => f a = .ok b) l bs := by
  induction l generalizing bs with
  | nil => simp [pure, Except.pure, eq_comm]
  | cons a l ih =>
    simp only [List.mapM_cons, bind_eq_ok_iff, ih, List.forall₂_cons_left_iff, pure, Except.pure,
      Except.ok.injEq]
    constructor
    · intro h
      obtain ⟨b, hb, rest, hrest, rfl⟩ := h
      exact ⟨b, rest, hb, hrest, rfl⟩
    · intro h
      obtain ⟨b, rest, hb, hrest, rfl⟩ := h
      exact ⟨b, hb, rest, hrest, rfl⟩

theorem exists_of_mem_of_mapM {f : α → Except ε β} {l : List α} {bs : List β}
    (h : l.mapM f = .ok bs) {b : β} (hb : b ∈ bs) : ∃ a ∈ l, f a = .ok b := by
  have hall := mapM_eq_ok_iff.mp h
  clear h
  induction hall with
  | nil => simp at hb
  | cons hab _ ih =>
    rcases List.mem_cons.mp hb with rfl | hb
    · exact ⟨_, List.mem_cons_self, hab⟩
    · obtain ⟨a, ha, hf⟩ := ih hb
      exact ⟨a, List.mem_cons_of_mem _ ha, hf⟩

theorem mem_iff_of_mapM {f : α → Except ε β} {l : List α} {bs : List β} (h : l.mapM f = .ok bs) {b : β} :
    b ∈ bs ↔ ∃ a ∈ l, f a = .ok b := by
  refine ⟨exists_of_mem_of_mapM h, fun hb => ?_⟩
  obtain ⟨a, ha, hb⟩ := hb
  obtain ⟨i, hi, rfl⟩ := List.mem_iff_getElem.mp ha
  have hall := mapM_eq_ok_iff.mp h
  have hi' : i < bs.length := hall.length_eq ▸ hi
  have hget := hall.get hi hi'
  simp only [List.get_eq_getElem] at hget
  exact Except.ok.inj (hb.symm.trans hget) ▸ List.getElem_mem hi'

/-- A walk to the end succeeds exactly if every member does. -/
theorem succeeds_mapM_iff {f : α → Except ε β} {l : List α} :
    Succeeds (l.mapM f) ↔ ∀ a ∈ l, Succeeds (f a) := by
  induction l with
  | nil => simp [pure, Except.pure]
  | cons a l ih =>
    simp only [List.mapM_cons, Succeeds.bind_iff, Succeeds.pure, and_true, List.forall_mem_cons, ← ih]
    exact exists_and_right

/-- What every step of a walk keeps is kept by the walk. -/
theorem foldlM_preserves {f : β → α → Except ε β} {P : β → Prop} {l : List α}
    (step : ∀ a ∈ l, ∀ b c, P b → f b a = .ok c → P c) {b c : β} (hb : P b)
    (h : l.foldlM f b = .ok c) : P c := by
  induction l generalizing b with
  | nil =>
    have hbc : b = c := by simpa [pure, Except.pure] using h
    exact hbc ▸ hb
  | cons a l ih =>
    rw [List.foldlM_cons, bind_eq_ok_iff] at h
    obtain ⟨d, hd, h⟩ := h
    exact ih (fun x hx => step x (List.mem_cons_of_mem _ hx))
      (step a List.mem_cons_self b d hb hd) h

/-- What the step of one member brings about, and every other step keeps, holds at the end of the walk. -/
theorem foldlM_establishes {f : β → α → Except ε β} {P : β → Prop} {l : List α} {a : α} (ha : a ∈ l)
    (start : ∀ b c, f b a = .ok c → P c)
    (step : ∀ x ∈ l, x ≠ a → ∀ b c, P b → f b x = .ok c → P c) {b c : β}
    (h : l.foldlM f b = .ok c) : P c := by
  obtain ⟨before, after, rfl⟩ := List.append_of_mem ha
  rw [List.foldlM_append, bind_eq_ok_iff] at h
  obtain ⟨d, -, h⟩ := h
  rw [List.foldlM_cons, bind_eq_ok_iff] at h
  obtain ⟨e, he, h⟩ := h
  refine foldlM_preserves (fun x hx b c hb hc => ?_) (start d e he) h
  by_cases hxa : x = a
  · exact start b c (hxa ▸ hc)
  · exact step x (by simp [hx]) hxa b c hb hc

/-- A member that is visited once finds what the other steps keep, and leaves what they keep. -/
theorem foldlM_turns {f : β → α → Except ε β} {P Q : β → Prop} {l : List α} {a : α} (ha : a ∈ l)
    (hnodup : l.Nodup) (turn : ∀ b c, P b → f b a = .ok c → Q c)
    (before : ∀ x ∈ l, x ≠ a → ∀ b c, P b → f b x = .ok c → P c)
    (after : ∀ x ∈ l, x ≠ a → ∀ b c, Q b → f b x = .ok c → Q c) {b c : β} (hb : P b)
    (h : l.foldlM f b = .ok c) : Q c := by
  obtain ⟨front, rest, rfl⟩ := List.append_of_mem ha
  obtain ⟨-, hrest, hapart⟩ := List.nodup_append.mp hnodup
  have hfront : ∀ x ∈ front, x ≠ a := fun x hx => hapart x hx a List.mem_cons_self
  have hlater : ∀ x ∈ rest, x ≠ a := fun x hx heq => (List.nodup_cons.mp hrest).1 (heq ▸ hx)
  rw [List.foldlM_append, bind_eq_ok_iff] at h
  obtain ⟨d, hd, h⟩ := h
  rw [List.foldlM_cons, bind_eq_ok_iff] at h
  obtain ⟨e, he, h⟩ := h
  have hP : P d := foldlM_preserves (fun x hx => before x (by simp [hx]) (hfront x hx)) hb hd
  exact foldlM_preserves (fun x hx => after x (by simp [hx]) (hlater x hx)) (turn d e hP he) h

/-- What two walks over the same members have in common at their start, and every step keeps, they have in
common at their end. -/
theorem foldlM_relates {f g : β → α → Except ε β} {R : β → β → Prop} {l : List α}
    (step : ∀ a ∈ l, ∀ b b' c c', R b b' → f b a = .ok c → g b' a = .ok c' → R c c') {b b' c c' : β}
    (hb : R b b') (h : l.foldlM f b = .ok c) (h' : l.foldlM g b' = .ok c') : R c c' := by
  induction l generalizing b b' with
  | nil =>
    obtain rfl := Except.ok.inj h
    obtain rfl := Except.ok.inj h'
    exact hb
  | cons a l ih =>
    rw [List.foldlM_cons, bind_eq_ok_iff] at h h'
    obtain ⟨d, hd, h⟩ := h
    obtain ⟨d', hd', h'⟩ := h'
    exact ih (fun x hx => step x (List.mem_cons_of_mem _ hx))
      (step a List.mem_cons_self b b' d d' hb hd hd') h h'

/-- A walk succeeds exactly if every step does, where this does not depend on what the steps before it made. -/
theorem succeeds_foldlM_iff {f : β → α → Except ε β} {P : β → Prop} {q : α → Prop} {l : List α}
    (step : ∀ a ∈ l, ∀ b c, P b → f b a = .ok c → P c)
    (hstep : ∀ a ∈ l, ∀ b, P b → (Succeeds (f b a) ↔ q a)) {b : β} (hb : P b) :
    Succeeds (l.foldlM f b) ↔ ∀ a ∈ l, q a := by
  induction l generalizing b with
  | nil => simp
  | cons a l ih =>
    have hrest (c : β) (hc : f b a = .ok c) : Succeeds (l.foldlM f c) ↔ ∀ x ∈ l, q x :=
      ih (fun x hx => step x (List.mem_cons_of_mem _ hx))
        (fun x hx => hstep x (List.mem_cons_of_mem _ hx)) (step a List.mem_cons_self b c hb hc)
    rw [List.foldlM_cons, Succeeds.bind_iff, List.forall_mem_cons,
      ← hstep a List.mem_cons_self b hb]
    constructor
    · intro h
      obtain ⟨c, hc, h⟩ := h
      exact ⟨⟨c, hc⟩, (hrest c hc).mp h⟩
    · intro h
      obtain ⟨⟨c, hc⟩, h⟩ := h
      exact ⟨c, hc, (hrest c hc).mpr h⟩

/-- Two walks over members that correspond bring results that correspond. -/
theorem forall₂_of_mapM {f g : α → Except ε β} {R : α → α → Prop} {S : β → β → Prop} {l l' : List α}
    {bs bs' : List β} (hl : List.Forall₂ R l l') (h : l.mapM f = .ok bs) (h' : l'.mapM g = .ok bs')
    (step : ∀ a a' b b', R a a' → f a = .ok b → g a' = .ok b' → S b b') : List.Forall₂ S bs bs' := by
  rw [mapM_eq_ok_iff] at h h'
  induction hl generalizing bs bs' with
  | nil =>
    cases h
    cases h'
    exact .nil
  | cons hR _ ih =>
    cases h with
    | cons hb h =>
      cases h' with
      | cons hb' h' => exact .cons (step _ _ _ _ hR hb hb') (ih h h')

/-- Walks over the same members in two orders bring the same results up to order, where they are seen alike. -/
theorem perm_map_of_mapM {γ : Type} {f g : α → Except ε β} {l l' : List α} {bs bs' : List β} (view : β → γ)
    (hl : l.Perm l') (h : l.mapM f = .ok bs) (h' : l'.mapM g = .ok bs')
    (hview : ∀ a ∈ l, ∀ b b', f a = .ok b → g a = .ok b' → view b = view b') :
    (bs.map view).Perm (bs'.map view) := by
  obtain ⟨cs, hcs, hperm⟩ := List.perm_comp_forall₂ hl (mapM_eq_ok_iff.mp h')
  have hmembers : List.Forall₂ (fun a a' => a = a' ∧ a ∈ l) l l :=
    List.forall₂_same.mpr fun a ha => ⟨rfl, ha⟩
  have hviews : List.Forall₂ (fun b c => view b = view c) bs cs := by
    refine forall₂_of_mapM hmembers h (mapM_eq_ok_iff.mpr hcs) ?_
    rintro a _ b c ⟨rfl, ha⟩ hb hc
    exact hview a ha b c hb hc
  have hsame : bs.map view = cs.map view := by
    rwa [← List.forall₂_eq_eq_eq, List.forall₂_map_left_iff, List.forall₂_map_right_iff]
  rw [hsame]
  exact hperm.map view

/-- A member is reached by a walk that goes on only past members that pass. -/
inductive Reached (passes : α → Prop) : List α → α → Prop where
  | here {a : α} {rest : List α} : Reached passes (a :: rest) a
  | later {x a : α} {rest : List α} (hx : passes x) (ha : Reached passes rest a) :
      Reached passes (x :: rest) a

theorem reached_cons_iff {passes : α → Prop} {x a : α} {rest : List α} :
    Reached passes (x :: rest) a ↔ a = x ∨ (passes x ∧ Reached passes rest a) := by
  constructor
  · intro h
    cases h with
    | here => exact .inl rfl
    | later hx ha => exact .inr ⟨hx, ha⟩
  · intro h
    rcases h with rfl | ⟨hx, ha⟩
    · exact .here
    · exact .later hx ha

theorem Reached.mem {passes : α → Prop} {l : List α} {a : α} (h : Reached passes l a) : a ∈ l := by
  induction h with
  | here => exact List.mem_cons_self
  | later _ _ ih => exact List.mem_cons_of_mem _ ih

/-- The search for a first find succeeds exactly if every member it comes to does. -/
theorem succeeds_findSomeM?_iff {f : α → Except ε (Option β)} {l : List α} :
    Succeeds (l.findSomeM? f) ↔ ∀ a, Reached (f · = .ok none) l a → Succeeds (f a) := by
  induction l with
  | nil =>
    refine iff_of_true ⟨none, rfl⟩ fun a ha => ?_
    cases ha
  | cons x l ih =>
    simp only [reached_cons_iff, forall_eq_or_imp, List.findSomeM?, Succeeds.bind_iff]
    cases hx : f x with
    | error e => simp
    | ok found => cases found <;> simp [ih, pure, Except.pure]

/-- The first find of a search is the find of a member that the search comes to. -/
theorem findSomeM?_eq_some_iff {f : α → Except ε (Option β)} {l : List α} {b : β} :
    l.findSomeM? f = .ok (some b) ↔ ∃ a, Reached (f · = .ok none) l a ∧ f a = .ok (some b) := by
  induction l with
  | nil =>
    refine iff_of_false nofun ?_
    rintro ⟨a, ha, -⟩
    cases ha
  | cons x l ih =>
    simp only [reached_cons_iff, List.findSomeM?]
    cases hx : f x with
    | error e =>
      refine iff_of_false nofun ?_
      rintro ⟨a, rfl | ⟨hpass, -⟩, ha⟩
      · cases hx.symm.trans ha
      · cases hpass
    | ok found =>
      cases found with
      | none =>
        refine ih.trans (exists_congr fun a => and_congr_left fun ha => ?_)
        constructor
        · exact fun h => .inr ⟨rfl, h⟩
        · rintro (rfl | ⟨-, h⟩)
          · cases hx.symm.trans ha
          · exact h
      | some b' =>
        constructor
        · intro h
          exact ⟨x, .inl rfl, hx.trans h⟩
        · rintro ⟨a, rfl | ⟨hpass, -⟩, ha⟩
          · exact hx.symm.trans ha
          · cases hpass

/-- A search finds nothing exactly if no member is a find. -/
theorem findSomeM?_eq_none_iff {f : α → Except ε (Option β)} {l : List α} :
    l.findSomeM? f = .ok none ↔ ∀ a ∈ l, f a = .ok none := by
  induction l with
  | nil => exact iff_of_true rfl (by simp)
  | cons x l ih =>
    simp only [List.forall_mem_cons, List.findSomeM?]
    cases hx : f x with
    | error e => exact iff_of_false nofun (by simp)
    | ok found =>
      cases found with
      | none => exact ih.trans (iff_and_self.mpr fun _ => rfl)
      | some b => exact iff_of_false nofun (by simp)

section Fault

variable {test : α → Except Fault Bool} {l : List α}

theorem selectM_congr {test' : α → Except Fault Bool} (h : ∀ a ∈ l, test a = test' a) :
    selectM test l = selectM test' l := by
  induction l with
  | nil => rfl
  | cons a l ih =>
    obtain ⟨hfirst, hrest⟩ := List.forall_mem_cons.mp h
    rw [selectM, selectM, hfirst, ih hrest]

theorem allM_map_eq {f : α → β} {test' : β → Except Fault Bool} (h : ∀ a ∈ l, test' (f a) = test a) :
    (l.map f).allM test' = l.allM test := by
  induction l with
  | nil => rfl
  | cons a l ih =>
    obtain ⟨hfirst, hrest⟩ := List.forall_mem_cons.mp h
    rw [List.map_cons, List.allM, List.allM, hfirst, ih hrest]

/-- The members that are selected are those that pass, in their order. -/
theorem selectM_eq_filter {kept : List α} {p : α → Bool} (h : selectM test l = .ok kept)
    (hp : ∀ a ∈ l, ∀ b, test a = .ok b → b = p a) : kept = l.filter p := by
  induction l generalizing kept with
  | nil => simpa [selectM, eq_comm] using h
  | cons a l ih =>
    simp only [selectM, bind_eq_ok_iff, pure, Except.pure, Except.ok.injEq] at h
    obtain ⟨keep, hkeep, rest, hrest, rfl⟩ := h
    have hrest := ih hrest fun x hx => hp x (List.mem_cons_of_mem _ hx)
    have hkeep := hp a List.mem_cons_self keep hkeep
    rw [hrest, hkeep, List.filter_cons]

theorem of_mem_selectM {kept : List α} {a : α} (h : selectM test l = .ok kept) (ha : a ∈ kept) :
    test a = .ok true := by
  induction l generalizing kept with
  | nil =>
    obtain rfl := Except.ok.inj h
    simp at ha
  | cons x l ih =>
    simp only [selectM, bind_eq_ok_iff] at h
    obtain ⟨keep, hkeep, rest, hrest, h⟩ := h
    obtain rfl := Except.ok.inj h
    split_ifs at ha with hpass
    · rcases List.mem_cons.mp ha with rfl | ha
      · rw [hkeep, hpass]
      · exact ih hrest ha
    · exact ih hrest ha

/-- What is selected are the members that pass. -/
theorem mem_selectM_iff {kept : List α} {a : α} (h : selectM test l = .ok kept) :
    a ∈ kept ↔ a ∈ l ∧ test a = .ok true := by
  have hkept : kept = l.filter fun a => test a == .ok true := by
    refine selectM_eq_filter h fun a _ b hb => ?_
    rw [hb]
    cases b <;> rfl
  simp [hkept]

theorem succeeds_selectM_iff : Succeeds (selectM test l) ↔ ∀ a ∈ l, Succeeds (test a) := by
  induction l with
  | nil => simp [selectM]
  | cons a l ih =>
    simp only [selectM, Succeeds.bind_iff, Succeeds.pure, and_true, List.forall_mem_cons, ← ih]
    exact exists_and_right

/-- A walk that ends has found whether all members pass, though it may not have seen all of them. -/
theorem allM_eq_all {b : Bool} {p : α → Bool} (h : l.allM test = .ok b)
    (hp : ∀ a ∈ l, ∀ b, test a = .ok b → b = p a) : b = l.all p := by
  induction l with
  | nil => simpa [List.allM, pure, Except.pure, eq_comm] using h
  | cons a l ih =>
    simp only [List.allM, bind_eq_ok_iff] at h
    obtain ⟨c, hc, h⟩ := h
    have hca := hp a List.mem_cons_self c hc
    cases c with
    | false =>
      have hb : b = false := by simpa [pure, Except.pure, eq_comm] using h
      simp [hb, ← hca]
    | true => simpa [← hca] using ih h fun x hx => hp x (List.mem_cons_of_mem _ hx)

/-- A walk that ends has found whether some member passes. -/
theorem anyM_eq_any {b : Bool} {p : α → Bool} (h : l.anyM test = .ok b)
    (hp : ∀ a ∈ l, ∀ b, test a = .ok b → b = p a) : b = l.any p := by
  induction l with
  | nil => simpa [List.anyM, pure, Except.pure, eq_comm] using h
  | cons a l ih =>
    simp only [List.anyM, bind_eq_ok_iff] at h
    obtain ⟨c, hc, h⟩ := h
    have hca := hp a List.mem_cons_self c hc
    cases c with
    | true =>
      have hb : b = true := by simpa [pure, Except.pure, eq_comm] using h
      simp [hb, ← hca]
    | false => simpa [← hca] using ih h fun x hx => hp x (List.mem_cons_of_mem _ hx)

theorem of_mem_of_allM {a : α} (h : l.allM test = .ok true) (ha : a ∈ l) : test a = .ok true := by
  induction l with
  | nil => simp at ha
  | cons x l ih =>
    simp only [List.allM, bind_eq_ok_iff] at h
    obtain ⟨passed, hpassed, h⟩ := h
    cases passed with
    | false => cases h
    | true =>
      rcases List.mem_cons.mp ha with rfl | ha
      · exact hpassed
      · exact ih h ha

theorem allM_eq_ok_true_iff : l.allM test = .ok true ↔ ∀ a ∈ l, test a = .ok true := by
  refine ⟨fun h a ha => of_mem_of_allM h ha, fun h => ?_⟩
  induction l with
  | nil => rfl
  | cons a l ih =>
    obtain ⟨hfirst, hrest⟩ := List.forall_mem_cons.mp h
    rw [List.allM, hfirst]
    exact ih hrest

/-- A walk that ends at the first failure succeeds exactly if every member it comes to does. -/
theorem succeeds_allM_iff :
    Succeeds (l.allM test) ↔ ∀ a, Reached (test · = .ok true) l a → Succeeds (test a) := by
  induction l with
  | nil =>
    refine iff_of_true ⟨true, rfl⟩ fun a ha => ?_
    cases ha
  | cons x l ih =>
    simp only [reached_cons_iff, forall_eq_or_imp, List.allM, Succeeds.bind_iff]
    cases hx : test x with
    | error e => simp
    | ok passed => cases passed <;> simp [ih, pure, Except.pure]

/-- A walk ends at a failure exactly if it comes to one. -/
theorem allM_eq_ok_false_iff :
    l.allM test = .ok false ↔ ∃ a, Reached (test · = .ok true) l a ∧ test a = .ok false := by
  induction l with
  | nil =>
    refine iff_of_false nofun ?_
    rintro ⟨a, ha, -⟩
    cases ha
  | cons x l ih =>
    simp only [reached_cons_iff, or_and_right, exists_or, exists_eq_left, and_assoc, exists_and_left, List.allM,
      bind_eq_ok_iff]
    cases hx : test x with
    | error e => simp
    | ok passed => cases passed <;> simp [ih, pure, Except.pure]

/-- A walk that ends at the first find succeeds exactly if every member it comes to does. -/
theorem succeeds_anyM_iff :
    Succeeds (l.anyM test) ↔ ∀ a, Reached (test · = .ok false) l a → Succeeds (test a) := by
  induction l with
  | nil =>
    refine iff_of_true ⟨false, rfl⟩ fun a ha => ?_
    cases ha
  | cons x l ih =>
    simp only [reached_cons_iff, forall_eq_or_imp, List.anyM, Succeeds.bind_iff]
    cases hx : test x with
    | error e => simp
    | ok passed => cases passed <;> simp [ih, pure, Except.pure]

end Fault

end AskTable
