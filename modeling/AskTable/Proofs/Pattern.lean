import AskTable.Text.Pattern
import Mathlib.Tactic.Common

/-! What a phrase takes of a text, and what is left of a text when its phrases are cut out. -/
namespace AskTable

/-- A place is reached from another one over characters of a class. -/
def Cursor.Reaches (test : Char → Prop) (a b : Cursor) : Prop :=
  ∃ w : Text, a.after = w ++ b.after ∧ b.before = w.reverse ++ a.before ∧ ∀ c ∈ w, test c

namespace Cursor.Reaches

variable {test : Char → Prop} {a b c : Cursor}

theorem refl (a : Cursor) : a.Reaches test a :=
  ⟨[], rfl, rfl, by simp⟩

theorem trans (hab : a.Reaches test b) (hbc : b.Reaches test c) : a.Reaches test c := by
  obtain ⟨v, hv, hvback, hvtest⟩ := hab
  obtain ⟨w, hw, hwback, hwtest⟩ := hbc
  refine ⟨v ++ w, by rw [hv, hw, List.append_assoc], ?_, ?_⟩
  · rw [hwback, hvback, List.reverse_append, List.append_assoc]
  · intro d hd
    rcases List.mem_append.mp hd with hd | hd
    · exact hvtest d hd
    · exact hwtest d hd

theorem length_le (h : a.Reaches test b) : a.before.length ≤ b.before.length := by
  obtain ⟨w, -, hback, -⟩ := h
  rw [hback, List.length_append]
  omega

end Cursor.Reaches

namespace Pattern

variable {test : Char → Prop} {p q : Pattern} {a b : Cursor}

def Within (test : Char → Prop) (p : Pattern) : Prop :=
  ∀ a, ∀ b ∈ p.ends a, a.Reaches test b

def Advances (p : Pattern) : Prop :=
  ∀ a, ∀ b ∈ p.ends a, a.before.length < b.before.length

def IsAnchored (p : Pattern) : Prop :=
  ∀ a : Cursor, a.before ≠ [] → p.ends a = []

theorem within_done : Within test .done := by
  intro a b hb
  obtain rfl := List.mem_singleton.mp hb
  exact .refl _

theorem mem_ends_one_iff {class? : Char → Bool} :
    b ∈ (one class?).ends a ↔
      ∃ c rest, a.after = c :: rest ∧ class? c = true ∧ b = ⟨c :: a.before, rest⟩ := by
  obtain ⟨before, after⟩ := a
  cases after with
  | nil => exact iff_of_false List.not_mem_nil (by simp)
  | cons c rest =>
    change b ∈ (if class? c then [⟨c :: before, rest⟩] else []) ↔ _
    by_cases hc : class? c = true <;> simp [hc]

theorem within_one {class? : Char → Bool} (h : ∀ c, class? c = true → test c) :
    Within test (one class?) := by
  intro a b hb
  obtain ⟨c, rest, hafter, hc, rfl⟩ := mem_ends_one_iff.mp hb
  exact ⟨[c], hafter, rfl, by simpa using h c hc⟩

theorem reaches_of_mem_overRun {class? : Char → Bool} (h : ∀ c, class? c = true → test c)
    {before after : Text} (hb : b ∈ Cursor.overRun class? before after) :
    Cursor.Reaches test ⟨before, after⟩ b := by
  induction after generalizing before with
  | nil =>
    obtain rfl := List.mem_singleton.mp hb
    exact .refl _
  | cons c rest ih =>
    rcases List.mem_cons.mp hb with rfl | hb
    · exact .refl _
    · split_ifs at hb with hc
      · have hfirst : Cursor.Reaches test ⟨before, c :: rest⟩ ⟨c :: before, rest⟩ :=
          ⟨[c], rfl, rfl, by simpa using h c hc⟩
        exact hfirst.trans (ih hb)
      · cases hb

theorem within_most {class? : Char → Bool} (h : ∀ c, class? c = true → test c) :
    Within test (most class?) := by
  intro a b hb
  exact reaches_of_mem_overRun h (List.mem_reverse.mp hb)

theorem within_least {class? : Char → Bool} (h : ∀ c, class? c = true → test c) :
    Within test (least class?) :=
  fun _ _ hb => reaches_of_mem_overRun h hb

theorem within_start : Within test .start := by
  intro a b hb
  change b ∈ (if a.before.isEmpty then [a] else []) at hb
  split_ifs at hb
  · obtain rfl := List.mem_singleton.mp hb
    exact .refl _
  · cases hb

theorem mem_ends_finish_iff : b ∈ finish.ends a ↔ (a.after = [] ∨ a.after = ['\n']) ∧ b = a := by
  change b ∈ (if a.after = [] ∨ a.after = ['\n'] then [a] else []) ↔ _
  split_ifs with h <;> simp [h]

theorem mem_ends_seq_iff : b ∈ (seq p q).ends a ↔ ∃ m ∈ p.ends a, b ∈ q.ends m :=
  List.mem_flatMap

theorem within_seq (hp : p.Within test) (hq : q.Within test) : Within test (seq p q) := by
  intro a b hb
  obtain ⟨m, hm, hb⟩ := mem_ends_seq_iff.mp hb
  exact (hp a m hm).trans (hq m b hb)

theorem within_alt (hp : p.Within test) (hq : q.Within test) : Within test (alt p q) := by
  intro a b hb
  rcases List.mem_append.mp hb with hb | hb
  · exact hp a b hb
  · exact hq a b hb

theorem within_maybe (hp : p.Within test) : Within test (maybe p) :=
  within_alt hp within_done

theorem within_exactly {t : Text} (h : ∀ c ∈ t, test c) : Within test (exactly t) := by
  induction t with
  | nil => exact within_done
  | cons c rest ih =>
    obtain ⟨hc, hrest⟩ := List.forall_mem_cons.mp h
    refine within_seq (within_one fun d hd => ?_) (ih hrest)
    have hdc : d = c := by simpa using hd
    exact hdc ▸ hc

theorem advances_one {class? : Char → Bool} : Advances (one class?) := by
  intro a b hb
  obtain ⟨c, rest, -, -, rfl⟩ := mem_ends_one_iff.mp hb
  simp

theorem advances_seq_left (hp : p.Advances) (hq : q.Within test) : Advances (seq p q) := by
  intro a b hb
  obtain ⟨m, hm, hb⟩ := mem_ends_seq_iff.mp hb
  have hfirst := hp a m hm
  have hsecond := (hq m b hb).length_le
  omega

theorem advances_seq_right (hp : p.Within test) (hq : q.Advances) : Advances (seq p q) := by
  intro a b hb
  obtain ⟨m, hm, hb⟩ := mem_ends_seq_iff.mp hb
  have hfirst := (hp a m hm).length_le
  have hsecond := hq m b hb
  omega

theorem advances_exactly {t : Text} (h : t ≠ []) : Advances (exactly t) := by
  cases t with
  | nil => exact absurd rfl h
  | cons c rest =>
    have hrest : Within (· ∈ rest) (exactly rest) := within_exactly fun _ hd => hd
    exact advances_seq_left advances_one hrest

theorem isAnchored_start : IsAnchored .start := by
  intro a ha
  exact if_neg (by simpa using ha)

theorem IsAnchored.seq (hp : p.IsAnchored) : IsAnchored (seq p q) := by
  intro a ha
  change (p.ends a).flatMap q.ends = []
  rw [hp a ha, List.flatMap_nil]

theorem ends_exactly (before t rest : Text) :
    (exactly t).ends ⟨before, t ++ rest⟩ = [⟨t.reverse ++ before, rest⟩] := by
  induction t generalizing before with
  | nil => rfl
  | cons c t ih =>
    have hone : (one (· == c)).ends ⟨before, c :: (t ++ rest)⟩ = [⟨c :: before, t ++ rest⟩] := by
      simp [ends]
    change ((one (· == c)).ends ⟨before, c :: (t ++ rest)⟩).flatMap (exactly t).ends = _
    rw [hone, List.flatMap_singleton, ih, List.reverse_cons, List.append_assoc]
    rfl

theorem mem_ends_exactly {t : Text} (h : b ∈ (exactly t).ends a) : a.after = t ++ b.after := by
  induction t generalizing a with
  | nil =>
    obtain rfl := List.mem_singleton.mp h
    rfl
  | cons c t ih =>
    obtain ⟨m, hm, hb⟩ := mem_ends_seq_iff.mp h
    obtain ⟨d, rest, hafter, hd, rfl⟩ := mem_ends_one_iff.mp hm
    rw [beq_iff_eq] at hd
    rw [hafter, hd, List.cons_append]
    exact congrArg _ (ih hb)

theorem mem_ends_start_iff : b ∈ start.ends a ↔ a.before = [] ∧ b = a := by
  change b ∈ (if a.before.isEmpty then [a] else []) ↔ _
  cases hbefore : a.before <;> simp

theorem mem_ends_edge_iff {a : Cursor} : b ∈ edge.ends a ↔ a.atWordEdge = true ∧ b = a := by
  change b ∈ (if a.atWordEdge then [a] else []) ↔ _
  split_ifs with h <;> simp [h]

theorem mem_overRun {test : Char → Bool} {w : Text} (hw : ∀ c ∈ w, test c = true) (before rest : Text) :
    ⟨w.reverse ++ before, rest⟩ ∈ Cursor.overRun test before (w ++ rest) := by
  induction w generalizing before with
  | nil => cases rest <;> simp [Cursor.overRun]
  | cons c w ih =>
    obtain ⟨hc, hw⟩ := List.forall_mem_cons.mp hw
    have hrest := ih hw (c :: before)
    rw [List.reverse_cons, List.append_assoc, List.cons_append, Cursor.overRun, if_pos hc]
    exact List.mem_cons_of_mem _ hrest

/-- A run of characters of a class goes on behind a text of them. -/
theorem exists_overRun_append {test : Char → Bool} {w : Text} (hw : ∀ c ∈ w, test c = true) (before rest : Text) :
    ∃ shorter, Cursor.overRun test before (w ++ rest) = shorter ++ Cursor.overRun test (w.reverse ++ before) rest := by
  induction w generalizing before with
  | nil => exact ⟨[], rfl⟩
  | cons c w ih =>
    obtain ⟨hc, hw⟩ := List.forall_mem_cons.mp hw
    obtain ⟨shorter, hshorter⟩ := ih hw (c :: before)
    refine ⟨⟨before, c :: (w ++ rest)⟩ :: shorter, ?_⟩
    simp [Cursor.overRun, hc, hshorter]

/-- A run of characters of a class ends where the class does. -/
theorem overRun_append {test : Char → Bool} {w rest : Text} (hw : ∀ c ∈ w, test c = true)
    (hrest : rest.head?.any test = false) (before : Text) :
    ∃ shorter, Cursor.overRun test before (w ++ rest) = shorter ++ [⟨w.reverse ++ before, rest⟩] := by
  obtain ⟨shorter, hrun⟩ := exists_overRun_append hw before rest
  refine ⟨shorter, ?_⟩
  rw [hrun]
  cases rest with
  | nil => rfl
  | cons c rest =>
    have hc : test c = false := by simpa using hrest
    simp [Cursor.overRun, hc]

theorem mem_ends_of_end? (h : p.end? a = some b) : b ∈ p.ends a :=
  List.mem_of_mem_head? h

variable {opening middle closing : Pattern} {c d : Cursor} {w rest : Text}

theorem end?_seq : (seq p q).end? a = (p.ends a).findSome? q.end? :=
  List.head?_flatMap

theorem end?_seq_of_end? (hp : p.end? a = some b) (hq : q.end? b = some c) : (seq p q).end? a = some c := by
  obtain ⟨later, hlater⟩ := List.head?_eq_some_iff.mp hp
  rw [end?_seq, hlater, List.findSome?_cons, hq]

theorem end?_maybe_of_ends_eq_nil (hp : p.ends a = []) : (maybe p).end? a = some a := by
  change (p.ends a ++ [a]).head? = some a
  rw [hp]
  rfl

theorem ends_anyOf_eq_nil {phrases : List Pattern} (h : ∀ p ∈ phrases, p.ends a = []) :
    (anyOf phrases).ends a = [] := by
  induction phrases using anyOf.induct with
  | case1 => cases hafter : a.after <;> simp [anyOf, ends, hafter]
  | case2 p => exact h p List.mem_cons_self
  | case3 p rest hrest ih =>
    obtain ⟨hp, hlater⟩ := List.forall_mem_cons.mp h
    rw [anyOf, ends, hp, ih hlater]
    · rfl
    · exact hrest

/-- A run of characters of a class is read up to where the class ends. -/
theorem end?_most_append {test : Char → Bool} (hw : ∀ c ∈ w, test c = true) (hrest : rest.head?.any test = false)
    (before : Text) : (most test).end? ⟨before, w ++ rest⟩ = some ⟨w.reverse ++ before, rest⟩ := by
  obtain ⟨shorter, hrun⟩ := overRun_append hw hrest before
  change (Cursor.overRun test before (w ++ rest)).reverse.head? = _
  rw [hrun, List.reverse_append]
  rfl

/-- A phrase in three parts is read by the preferred end of each. -/
theorem partAt?_of_end? (hopening : opening.end? a = some b) (hmiddle : middle.end? b = some c)
    (hclosing : closing.end? c = some d) :
    partAt? opening middle closing a = some (b.textTo c, a.distance d) := by
  obtain ⟨_, hb⟩ := List.head?_eq_some_iff.mp hopening
  obtain ⟨_, hc⟩ := List.head?_eq_some_iff.mp hmiddle
  rw [partAt?, hb, List.findSome?_cons, hc, List.findSome?_cons, hclosing]
  rfl

end Pattern

namespace Cursor

variable {β : Type} {f : Cursor → Option β}

@[simp] theorem textTo_append (before w x y : Text) : textTo ⟨before, x⟩ ⟨w.reverse ++ before, y⟩ = w := by
  have hlength : (w.reverse ++ before).length - before.length = w.reverse.length := by simp
  rw [textTo, hlength, List.take_left, List.reverse_reverse]

theorem textTo_eq {a b : Cursor} {w : Text} (h : b.before = w.reverse ++ a.before) : a.textTo b = w := by
  rw [textTo, h, List.length_append, Nat.add_sub_cancel, List.take_left, List.reverse_reverse]

theorem distance_eq {a b : Cursor} {w : Text} (h : b.before = w.reverse ++ a.before) : a.distance b = w.length := by
  rw [distance, h, List.length_append, Nat.add_sub_cancel, List.length_reverse]

theorem allFrom_eq_cons (before rest : Text) : ∃ later, allFrom before rest = ⟨before, rest⟩ :: later := by
  cases rest with
  | nil => exact ⟨[], rfl⟩
  | cons c rest => exact ⟨allFrom (c :: before) rest, rfl⟩

theorem mem_allFrom (before u v : Text) : ⟨u.reverse ++ before, v⟩ ∈ allFrom before (u ++ v) := by
  induction u generalizing before with
  | nil =>
    obtain ⟨later, hlater⟩ := allFrom_eq_cons before v
    rw [List.nil_append, hlater]
    exact List.mem_cons_self
  | cons c u ih =>
    have hrest := ih (c :: before)
    rw [List.reverse_cons, List.append_assoc]
    exact List.mem_cons_of_mem _ hrest

theorem mem_all (u v : Text) : ⟨u.reverse, v⟩ ∈ all (u ++ v) := by
  have hfrom := mem_allFrom [] u v
  rwa [List.append_nil] at hfrom

theorem exists_append_of_mem_allFrom {a : Cursor} {before t : Text} (h : a ∈ allFrom before t) :
    ∃ u v, t = u ++ v ∧ a = ⟨u.reverse ++ before, v⟩ := by
  induction t generalizing before with
  | nil => exact ⟨[], [], rfl, List.mem_singleton.mp h⟩
  | cons c rest ih =>
    rcases List.mem_cons.mp h with rfl | h
    · exact ⟨[], c :: rest, rfl, rfl⟩
    · obtain ⟨u, v, rfl, rfl⟩ := ih h
      exact ⟨c :: u, v, rfl, by simp⟩

theorem exists_append_of_mem_all {a : Cursor} {t : Text} (h : a ∈ all t) : ∃ u v, t = u ++ v ∧ a = ⟨u.reverse, v⟩ := by
  obtain ⟨u, v, rfl, rfl⟩ := exists_append_of_mem_allFrom h
  exact ⟨u, v, rfl, by rw [List.append_nil]⟩

/-- The first find in a text, where nothing is found at the places before. -/
theorem findSome?_allFrom {w rest : Text} {found : β} (before : Text)
    (h : ∀ u v, w = u ++ v → v ≠ [] → f ⟨u.reverse ++ before, v ++ rest⟩ = none)
    (hfound : f ⟨w.reverse ++ before, rest⟩ = some found) :
    (allFrom before (w ++ rest)).findSome? f = some found := by
  induction w generalizing before with
  | nil =>
    obtain ⟨later, hlater⟩ := allFrom_eq_cons before rest
    have hfirst : f ⟨before, rest⟩ = some found := hfound
    rw [List.nil_append, hlater, List.findSome?_cons, hfirst]
  | cons c w ih =>
    have hfirst : f ⟨before, c :: (w ++ rest)⟩ = none := h [] (c :: w) rfl (List.cons_ne_nil c w)
    have hlast : f ⟨w.reverse ++ c :: before, rest⟩ = some found := by
      rwa [List.reverse_cons, List.append_assoc] at hfound
    have hrest : (allFrom (c :: before) (w ++ rest)).findSome? f = some found := by
      refine ih (c :: before) (fun u v huv hv => ?_) hlast
      have hstep := h (c :: u) v (by rw [huv, List.cons_append]) hv
      rwa [List.reverse_cons, List.append_assoc] at hstep
    rw [List.cons_append, allFrom, List.findSome?_cons, hfirst]
    exact hrest

/-- What is found first in a text is found at a place before which nothing is found. -/
theorem exists_of_findSome?_allFrom {before t : Text} {found : β} (h : (allFrom before t).findSome? f = some found) :
    ∃ u v, t = u ++ v ∧ f ⟨u.reverse ++ before, v⟩ = some found ∧
      ∀ x y, t = x ++ y → x.length < u.length → f ⟨x.reverse ++ before, y⟩ = none := by
  induction t generalizing before with
  | nil =>
    obtain ⟨a, ha, hfound⟩ := List.exists_of_findSome?_eq_some h
    obtain rfl := List.mem_singleton.mp ha
    exact ⟨[], [], rfl, hfound, fun x y _ hx => absurd hx (Nat.not_lt_zero _)⟩
  | cons c t ih =>
    rw [allFrom, List.findSome?_cons] at h
    cases hfirst : f ⟨before, c :: t⟩ with
    | some other =>
      rw [hfirst] at h
      obtain rfl := Option.some.inj h
      exact ⟨[], c :: t, rfl, hfirst, fun x y _ hx => absurd hx (Nat.not_lt_zero _)⟩
    | none =>
      rw [hfirst] at h
      obtain ⟨u, v, rfl, hfound, hearlier⟩ := ih h
      refine ⟨c :: u, v, rfl, by simpa using hfound, fun x y hxy hx => ?_⟩
      cases x with
      | nil =>
        obtain rfl : c :: (u ++ v) = y := hxy
        exact hfirst
      | cons d x =>
        obtain ⟨rfl, hrest⟩ := List.cons.inj hxy
        simpa using hearlier x y hrest (Nat.lt_of_succ_lt_succ hx)

/-- There is no find in a text if there is none at any place. -/
theorem findSome?_all_eq_none {t : Text} (h : ∀ u v, t = u ++ v → f ⟨u.reverse, v⟩ = none) :
    (all t).findSome? f = none := by
  refine List.findSome?_eq_none_iff.mpr fun a ha => ?_
  obtain ⟨u, v, rfl, rfl⟩ := exists_append_of_mem_all ha
  exact h u v rfl

end Cursor

namespace Pattern

variable {test : Char → Prop} {p q : Pattern} {b : Cursor}

/-- A phrase that ends anywhere behind a place of a text occurs in the text. -/
theorem occursIn_of_mem_ends {u v : Text} (h : b ∈ p.ends ⟨u.reverse, v⟩) : p.occursIn (u ++ v) = true := by
  have hend : (p.end? ⟨u.reverse, v⟩).isSome = true := List.isSome_head?.mpr (List.ne_nil_of_mem h)
  exact List.findSome?_isSome_iff.mpr ⟨_, Cursor.mem_all u v, by rwa [Option.isSome_map]⟩

theorem occursIn_iff {t : Text} : p.occursIn t = true ↔ ∃ u v b, t = u ++ v ∧ b ∈ p.ends ⟨u.reverse, v⟩ := by
  constructor
  · intro h
    obtain ⟨a, ha, hend⟩ := List.findSome?_isSome_iff.mp h
    rw [Option.isSome_map] at hend
    obtain ⟨b, hb⟩ := Option.isSome_iff_exists.mp hend
    obtain ⟨u, v, rfl, rfl⟩ := Cursor.exists_append_of_mem_all ha
    exact ⟨u, v, b, rfl, mem_ends_of_end? hb⟩
  · rintro ⟨u, v, b, rfl, hb⟩
    exact occursIn_of_mem_ends hb

/-- Wherever a phrase ends, it is reached from where it begins. -/
theorem within_true (p : Pattern) : p.Within fun _ => True := by
  induction p with
  | done => exact within_done
  | one test => exact within_one fun _ _ => trivial
  | most test => exact within_most fun _ _ => trivial
  | least test => exact within_least fun _ _ => trivial
  | start => exact within_start
  | edge =>
    intro a b hb
    obtain ⟨-, rfl⟩ := mem_ends_edge_iff.mp hb
    exact .refl _
  | finish =>
    intro a b hb
    obtain ⟨-, rfl⟩ := mem_ends_finish_iff.mp hb
    exact .refl _
  | before phrase =>
    intro a b hb
    change b ∈ (if (phrase.ends a).isEmpty then [] else [a]) at hb
    split_ifs at hb
    · cases hb
    · obtain rfl := List.mem_singleton.mp hb
      exact .refl _
  | seq p q hp hq => exact within_seq hp hq
  | alt p q hp hq => exact within_alt hp hq

/-- The first phrase of a shape in a text: of the phrases at the leftmost place that has one, the preferred one. -/
structure IsFirst (p : Pattern) (t before w after : Text) : Prop where
  text_eq : t = before ++ w ++ after
  fits : p.end? ⟨before.reverse, w ++ after⟩ = some ⟨w.reverse ++ before.reverse, after⟩
  leftmost : ∀ x y, t = x ++ y → x.length < before.length → p.ends ⟨x.reverse, y⟩ = []

theorem find?_eq_some_iff {t : Text} {a : Cursor} : p.find? t = some (a, b) ↔ ∃ before w after,
    p.IsFirst t before w after ∧ a = ⟨before.reverse, w ++ after⟩ ∧ b = ⟨w.reverse ++ before.reverse, after⟩ := by
  constructor
  · intro h
    obtain ⟨before, rest, rfl, hend, hearlier⟩ := Cursor.exists_of_findSome?_allFrom h
    rw [List.append_nil] at hend
    obtain ⟨last, hlast, heq⟩ := Option.map_eq_some_iff.mp hend
    obtain ⟨rfl, rfl⟩ := Prod.mk.inj heq
    obtain ⟨w, hafter, hback, -⟩ := within_true p _ _ (mem_ends_of_end? hlast)
    obtain ⟨back, after⟩ := last
    obtain rfl : rest = w ++ after := hafter
    obtain rfl : back = w.reverse ++ before.reverse := hback
    refine ⟨before, w, after, ⟨(List.append_assoc _ _ _).symm, hlast, fun x y hxy hx => ?_⟩, rfl, rfl⟩
    have hnone := hearlier x y hxy hx
    rw [List.append_nil, Option.map_eq_none_iff] at hnone
    exact List.head?_eq_none_iff.mp hnone
  · rintro ⟨before, w, after, ⟨rfl, hfits, hleftmost⟩, rfl, rfl⟩
    rw [find?, List.append_assoc]
    refine Cursor.findSome?_allFrom [] (fun x y hxy hy => ?_) ?_
    · have hnone : p.ends ⟨x.reverse, y ++ (w ++ after)⟩ = [] := by
        refine hleftmost x _ (by rw [hxy, List.append_assoc, List.append_assoc]) ?_
        have hlength := List.length_pos_iff.mpr hy
        rw [hxy, List.length_append]
        omega
      rw [List.append_nil, end?, hnone]
      rfl
    · rw [List.append_nil, hfits]
      rfl

/-- Something is found in three parts exactly if the text has a phrase of them. -/
theorem findPart?_isSome_iff {opening middle closing : Pattern} {t : Text} :
    (findPart? opening middle closing t).isSome = true ↔ (seq opening (seq middle closing)).occursIn t = true := by
  rw [occursIn_iff]
  constructor
  · intro h
    obtain ⟨a, ha, hpart⟩ := List.findSome?_isSome_iff.mp h
    obtain ⟨part, hpart⟩ := Option.isSome_iff_exists.mp (by simpa using hpart)
    obtain ⟨b, hb, hpart⟩ := List.exists_of_findSome?_eq_some hpart
    obtain ⟨c, hc, hpart⟩ := List.exists_of_findSome?_eq_some hpart
    obtain ⟨d, hd, -⟩ := Option.map_eq_some_iff.mp hpart
    obtain ⟨u, v, rfl, rfl⟩ := Cursor.exists_append_of_mem_all ha
    exact ⟨u, v, d, rfl, mem_ends_seq_iff.mpr ⟨b, hb, mem_ends_seq_iff.mpr ⟨c, hc, mem_ends_of_end? hd⟩⟩⟩
  · rintro ⟨u, v, d, rfl, hd⟩
    obtain ⟨b, hb, hd⟩ := mem_ends_seq_iff.mp hd
    obtain ⟨c, hc, hd⟩ := mem_ends_seq_iff.mp hd
    refine List.findSome?_isSome_iff.mpr ⟨_, Cursor.mem_all u v, ?_⟩
    rw [Option.isSome_map]
    refine List.findSome?_isSome_iff.mpr ⟨b, hb, List.findSome?_isSome_iff.mpr ⟨c, hc, ?_⟩⟩
    rw [Option.isSome_map]
    exact List.isSome_head?.mpr (List.ne_nil_of_mem hd)

/-- What is found in the middle of a phrase is made of what the middle is made of. -/
theorem Within.forall_of_findPart? {opening middle closing : Pattern} {t part : Text} (hmiddle : middle.Within test)
    (h : findPart? opening middle closing t = some part) : ∀ c ∈ part, test c := by
  obtain ⟨a, -, hpart⟩ := List.exists_of_findSome?_eq_some h
  obtain ⟨found, hfound, rfl⟩ := Option.map_eq_some_iff.mp hpart
  obtain ⟨b, -, hfound⟩ := List.exists_of_findSome?_eq_some hfound
  obtain ⟨m, hm, hfound⟩ := List.exists_of_findSome?_eq_some hfound
  obtain ⟨d, -, rfl⟩ := Option.map_eq_some_iff.mp hfound
  obtain ⟨w, -, hbefore, hw⟩ := hmiddle b m hm
  rw [Cursor.textTo_eq hbefore]
  exact hw

theorem mem_ends_exactly_iff {t : Text} {a : Cursor} :
    b ∈ (exactly t).ends a ↔ a.after = t ++ b.after ∧ b.before = t.reverse ++ a.before := by
  constructor
  · intro h
    have hafter := mem_ends_exactly h
    obtain ⟨w, hpassed, hbefore, -⟩ := within_true _ a b h
    obtain rfl : w = t := List.append_cancel_right (hpassed.symm.trans hafter)
    exact ⟨hafter, hbefore⟩
  · obtain ⟨before, after⟩ := a
    obtain ⟨before', after'⟩ := b
    rintro ⟨hafter, hbefore⟩
    obtain rfl : after = t ++ after' := hafter
    obtain rfl : before' = t.reverse ++ before := hbefore
    rw [ends_exactly]
    exact List.mem_singleton_self _

def Holds (test : Char → Prop) (p : Pattern) : Prop :=
  ∀ a, ∀ b ∈ p.ends a, ∃ w, a.after = w ++ b.after ∧ ∃ c ∈ w, test c

theorem holds_one {class? : Char → Bool} (h : ∀ c, class? c = true → test c) : Holds test (one class?) := by
  intro a b hb
  obtain ⟨c, rest, hafter, hc, rfl⟩ := mem_ends_one_iff.mp hb
  exact ⟨[c], hafter, c, List.mem_singleton_self c, h c hc⟩

theorem Holds.seq_left (hp : p.Holds test) (q : Pattern) : Holds test (seq p q) := by
  intro a b hb
  obtain ⟨m, hm, hb⟩ := mem_ends_seq_iff.mp hb
  obtain ⟨w, hafter, c, hc, htest⟩ := hp a m hm
  obtain ⟨u, hlater, -⟩ := within_true q m b hb
  exact ⟨w ++ u, by rw [hafter, hlater, List.append_assoc], c, List.mem_append_left u hc, htest⟩

theorem Holds.seq_right (hq : q.Holds test) (p : Pattern) : Holds test (seq p q) := by
  intro a b hb
  obtain ⟨m, hm, hb⟩ := mem_ends_seq_iff.mp hb
  obtain ⟨w, hafter, c, hc, htest⟩ := hq m b hb
  obtain ⟨u, hearlier, -⟩ := within_true p a m hm
  exact ⟨u ++ w, by rw [hearlier, hafter, List.append_assoc], c, List.mem_append_right u hc, htest⟩

theorem Holds.exists_mem {t : Text} (hp : p.Holds test) (h : p.occursIn t = true) : ∃ c ∈ t, test c := by
  obtain ⟨u, v, b, rfl, hb⟩ := occursIn_iff.mp h
  obtain ⟨w, hafter, c, hc, htest⟩ := hp _ b hb
  change v = w ++ b.after at hafter
  exact ⟨c, by simp [hafter, hc], htest⟩

end Pattern

namespace Text

variable {α : Type} {step : Cursor → Option (α × Nat)}

theorem piecesFrom_of_none {before rest : Text} {c : Char} (h : step ⟨before, c :: rest⟩ = none) :
    piecesFrom step 0 before (c :: rest) = .inl c :: piecesFrom step 0 (c :: before) rest := by
  rw [piecesFrom, h]

theorem piecesFrom_of_some {before rest : Text} {c : Char} {phrase : α} {length : Nat}
    (h : step ⟨before, c :: rest⟩ = some (phrase, length)) :
    piecesFrom step 0 before (c :: rest) =
      .inr phrase :: piecesFrom step (length - 1) (c :: before) rest := by
  rw [piecesFrom, h]

theorem piecesFrom_skip (before w rest : Text) :
    piecesFrom step w.length before (w ++ rest) = piecesFrom step 0 (w.reverse ++ before) rest := by
  induction w generalizing before with
  | nil => rfl
  | cons c w ih =>
    change piecesFrom step w.length (c :: before) (w ++ rest) = _
    rw [ih, List.reverse_cons, List.append_assoc, List.singleton_append]

/-- Where no phrase begins, a text is taken over as it is. -/
theorem piecesFrom_append {before w rest : Text}
    (h : ∀ u v, w = u ++ v → v ≠ [] → step ⟨u.reverse ++ before, v ++ rest⟩ = none) :
    piecesFrom step 0 before (w ++ rest) =
      w.map .inl ++ piecesFrom step 0 (w.reverse ++ before) rest := by
  induction w generalizing before with
  | nil => rfl
  | cons c w ih =>
    have hfirst : step ⟨before, c :: (w ++ rest)⟩ = none := h [] (c :: w) rfl (by simp)
    have hrest : piecesFrom step 0 (c :: before) (w ++ rest) =
        w.map .inl ++ piecesFrom step 0 (w.reverse ++ c :: before) rest := by
      refine ih fun u v huv hv => ?_
      have hstep := h (c :: u) v (by rw [huv, List.cons_append]) hv
      rwa [List.reverse_cons, List.append_assoc] at hstep
    rw [List.cons_append, piecesFrom_of_none hfirst]
    simp only [hrest, List.map_cons, List.cons_append, List.reverse_cons, List.append_assoc,
      List.nil_append]

theorem flatMap_map_inl (w : Text) :
    (w.map Sum.inl).flatMap (fun piece : Char ⊕ Text => Sum.elim (fun c => [c]) id piece) = w := by
  rw [List.flatMap_map]
  exact List.flatMap_singleton' w

/-- Cutting phrases out of a text brings in no character. -/
theorem mem_of_mem_pieces {step : Cursor → Option (Text × Nat)} {n : Nat} {before t : Text} {c : Char}
    (hstep : ∀ a piece, step a = some piece → piece.1 = [])
    (hc : c ∈ (piecesFrom step n before t).flatMap fun piece => Sum.elim (fun c => [c]) id piece) :
    c ∈ t := by
  induction t generalizing n before with
  | nil => cases n <;> cases hc
  | cons d rest ih =>
    cases n with
    | succ n => exact List.mem_cons_of_mem _ (ih hc)
    | zero =>
      cases hfound : step ⟨before, d :: rest⟩ with
      | none =>
        simp only [piecesFrom_of_none hfound, List.flatMap_cons, Sum.elim_inl, List.singleton_append] at hc
        rcases List.mem_cons.mp hc with rfl | hc
        · exact List.mem_cons_self
        · exact List.mem_cons_of_mem _ (ih hc)
      | some piece =>
        obtain ⟨filler, length⟩ := piece
        obtain rfl : filler = [] := hstep _ _ hfound
        simp only [piecesFrom_of_some hfound, List.flatMap_cons, Sum.elim_inr, id_eq, List.nil_append] at hc
        exact List.mem_cons_of_mem _ (ih hc)

variable {p : Pattern} {t : Text}

/-- What is done at a place where a phrase may begin that is to be cut out. -/
def cutAt (p : Pattern) (a : Cursor) : Option (Text × Nat) :=
  (p.end? a).map fun b => ([], a.distance b)

theorem replace_eq_pieces (p : Pattern) (t : Text) : replace p [] t =
    (piecesFrom (cutAt p) 0 [] t).flatMap fun piece => Sum.elim (fun c => [c]) id piece := rfl

private theorem fst_of_cutAt {a : Cursor} {piece : Text × Nat} (h : cutAt p a = some piece) : piece.1 = [] := by
  obtain ⟨b, -, rfl⟩ := Option.map_eq_some_iff.mp h
  rfl

/-- Behind the beginning, nothing is cut out of a text if the phrase stands at the beginning only. -/
theorem piecesFrom_cutAt (hanchored : p.IsAnchored) {before : Text} (hbefore : before ≠ []) (after : Text) :
    piecesFrom (cutAt p) 0 before after = after.map .inl := by
  have hnone (u v : Text) : cutAt p ⟨u.reverse ++ before, v⟩ = none := by
    have hend : p.end? ⟨u.reverse ++ before, v⟩ = none := by
      rw [Pattern.end?, hanchored _ (by simp [hbefore])]
      rfl
    rw [cutAt, hend, Option.map_none]
  have hpieces : piecesFrom (cutAt p) 0 before (after ++ []) =
      after.map .inl ++ piecesFrom (cutAt p) 0 (after.reverse ++ before) [] :=
    piecesFrom_append fun u v _ _ => hnone u (v ++ [])
  rwa [List.append_nil, show piecesFrom (cutAt p) 0 (after.reverse ++ before) [] = [] from rfl,
    List.append_nil] at hpieces

/-- Cutting out a phrase that stands at the beginning only leaves the text behind it. -/
theorem replace_anchored {test : Char → Prop} (hanchored : p.IsAnchored) (hadvances : p.Advances)
    (hwithin : p.Within test) (t : Text) :
    ∃ cut rest, t = cut ++ rest ∧ replace p [] t = rest ∧ ∀ c ∈ cut, test c := by
  cases hend : p.end? ⟨[], t⟩ with
  | none =>
    have hfirst : cutAt p ⟨[], t⟩ = none := by rw [cutAt, hend, Option.map_none]
    refine ⟨[], t, rfl, ?_, by simp⟩
    rw [replace_eq_pieces]
    cases t with
    | nil => rfl
    | cons c rest =>
      rw [piecesFrom_of_none hfirst]
      simp only [piecesFrom_cutAt hanchored (List.cons_ne_nil c []), List.flatMap_cons, flatMap_map_inl]
      rfl
  | some b =>
    have hmem := Pattern.mem_ends_of_end? hend
    have hlong := hadvances _ b hmem
    obtain ⟨w, hafter, hbefore, hw⟩ := hwithin _ b hmem
    change t = w ++ b.after at hafter
    change b.before = w.reverse ++ [] at hbefore
    have hlength : b.before.length = w.length := by simp [hbefore]
    have hfirst : cutAt p ⟨[], t⟩ = some ([], w.length) := by
      simp only [cutAt, hend, Option.map_some, Cursor.distance, hlength, List.length_nil, Nat.sub_zero]
    refine ⟨w, b.after, hafter, ?_, hw⟩
    rw [replace_eq_pieces, hafter]
    rw [hafter] at hfirst
    cases w with
    | nil =>
      rw [hlength] at hlong
      exact absurd hlong (Nat.lt_irrefl _)
    | cons c w =>
      have hlater : w.reverse ++ [c] ≠ [] := by simp
      change cutAt p ⟨[], c :: (w ++ b.after)⟩ = some ([], w.length + 1) at hfirst
      rw [List.cons_append, piecesFrom_of_some hfirst]
      simp only [Nat.add_sub_cancel, piecesFrom_skip, piecesFrom_cutAt hanchored hlater,
        List.flatMap_cons, flatMap_map_inl]
      rfl

/-- Cutting phrases out of a text leaves its front as it is, if none begins there. -/
theorem replace_append {w rest : Text}
    (h : ∀ u v, w = u ++ v → v ≠ [] → p.end? ⟨u.reverse, v ++ rest⟩ = none) :
    ∃ kept, replace p [] (w ++ rest) = w ++ kept ∧ ∀ c ∈ kept, c ∈ rest := by
  have hpieces : piecesFrom (cutAt p) 0 [] (w ++ rest) =
      w.map .inl ++ piecesFrom (cutAt p) 0 (w.reverse ++ []) rest := by
    refine piecesFrom_append fun u v huv hv => ?_
    rw [List.append_nil, cutAt, h u v huv hv, Option.map_none]
  refine ⟨_, by rw [replace_eq_pieces, hpieces, List.flatMap_append, flatMap_map_inl], fun c hc => ?_⟩
  exact mem_of_mem_pieces (fun _ _ hpiece => fst_of_cutAt hpiece) hc

end Text
end AskTable
