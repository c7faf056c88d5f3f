import AskTable.Proofs.Pattern

/-! How long phrases are. What is put in place of phrases that are longer leaves a text shorter, so a text that stays as
it is has no such phrase; and what is read as the middle of a phrase is shorter than the text by the opening. -/
namespace AskTable

theorem Cursor.Reaches.length_add {test : Char → Prop} {a b : Cursor} (h : a.Reaches test b) :
    b.before.length + b.after.length = a.before.length + a.after.length := by
  obtain ⟨w, hafter, hbefore, -⟩ := h
  rw [hafter, hbefore]
  simp only [List.length_append, List.length_reverse]
  omega

namespace Pattern

variable {p opening middle closing : Pattern} {a b : Cursor}

/-- The number of characters that every phrase of a shape has at least. -/
def shortest : Pattern → Nat
  | one _ => 1
  | seq first second => first.shortest + second.shortest
  | alt first second => min first.shortest second.shortest
  | done | most _ | least _ | edge | start | finish | before _ => 0

theorem shortest_le (h : b ∈ p.ends a) : a.before.length + p.shortest ≤ b.before.length := by
  induction p generalizing a b with
  | one test =>
    obtain ⟨c, rest, -, -, rfl⟩ := mem_ends_one_iff.mp h
    exact Nat.le_refl _
  | seq p q hp hq =>
    obtain ⟨m, hm, hb⟩ := mem_ends_seq_iff.mp h
    have hfirst := hp hm
    have hsecond := hq hb
    simp only [shortest]
    omega
  | alt p q hp hq =>
    rcases List.mem_append.mp h with hb | hb
    · have hfirst := hp hb
      simp only [shortest]
      omega
    · have hsecond := hq hb
      simp only [shortest]
      omega
  | done | most | least | edge | start | finish | before =>
    exact (within_true _ _ _ h).length_le

/-- A phrase is at least as long as its shape demands, and no longer than what is left of the text. -/
theorem distance_of_mem_ends (h : b ∈ p.ends a) : p.shortest ≤ a.distance b ∧ a.distance b ≤ a.after.length := by
  have hlong := shortest_le h
  have hwhole := (within_true p a b h).length_add
  rw [Cursor.distance]
  omega

/-- What is read as the middle of a phrase is shorter than the rest of the text by the opening at least. -/
theorem length_of_partAt? {part : Text} {n : Nat} (h : partAt? opening middle closing a = some (part, n)) :
    opening.shortest + part.length ≤ a.after.length := by
  obtain ⟨b, hb, h⟩ := List.exists_of_findSome?_eq_some h
  obtain ⟨c, hc, h⟩ := List.exists_of_findSome?_eq_some h
  obtain ⟨d, -, h⟩ := Option.map_eq_some_iff.mp h
  obtain ⟨rfl, -⟩ := Prod.mk.inj h
  have hopening := shortest_le hb
  have hwhole := (within_true _ _ _ hb).length_add
  obtain ⟨w, hafter, hbefore, -⟩ := within_true _ _ _ hc
  rw [Cursor.textTo_eq hbefore]
  have hlength := congrArg List.length hafter
  rw [List.length_append] at hlength
  omega

end Pattern

namespace Text

/-- What is read of a phrase is no longer than the text, if it never is longer than the rest of it. -/
theorem length_le_of_mem_phrases {step : Cursor → Option (Text × Nat)} {extra : Nat}
    (hstep : ∀ a part n, step a = some (part, n) → extra + part.length ≤ a.after.length)
    {before t part : Text} {n : Nat} (h : part ∈ (piecesFrom step n before t).filterMap Sum.getRight?) :
    extra + part.length ≤ t.length := by
  induction t generalizing n before with
  | nil => cases n <;> cases h
  | cons c rest ih =>
    have hlater {n : Nat} {before : Text} (h : part ∈ (piecesFrom step n before rest).filterMap Sum.getRight?) :
        extra + part.length ≤ (c :: rest).length := Nat.le_succ_of_le (ih h)
    cases n with
    | succ n => exact hlater h
    | zero =>
      cases hfound : step ⟨before, c :: rest⟩ with
      | none =>
        rw [piecesFrom_of_none hfound, List.filterMap_cons] at h
        exact hlater h
      | some piece =>
        obtain ⟨first, m⟩ := piece
        rw [piecesFrom_of_some hfound, List.filterMap_cons] at h
        rcases List.mem_cons.mp h with rfl | h
        · exact hstep _ _ _ hfound
        · exact hlater h

variable {p : Pattern} {filler t : Text}

def fillAt (p : Pattern) (filler : Text) (a : Cursor) : Option (Text × Nat) :=
  (p.end? a).map fun b => (filler, a.distance b)

/-- The rest of a text with phrases replaced, where `n` characters of the phrase before are still to be passed. -/
def filledFrom (p : Pattern) (filler : Text) (n : Nat) (before t : Text) : Text :=
  (piecesFrom (fillAt p filler) n before t).flatMap fun piece => Sum.elim (fun c => [c]) id piece

theorem fillAt_eq_none_iff {a : Cursor} : fillAt p filler a = none ↔ p.end? a = none :=
  Option.map_eq_none_iff

theorem of_fillAt {a : Cursor} {part : Text} {n : Nat} (h : fillAt p filler a = some (part, n)) :
    part = filler ∧ p.shortest ≤ n ∧ n ≤ a.after.length := by
  obtain ⟨b, hb, h⟩ := Option.map_eq_some_iff.mp h
  obtain ⟨rfl, rfl⟩ := Prod.mk.inj h
  exact ⟨rfl, Pattern.distance_of_mem_ends (Pattern.mem_ends_of_end? hb)⟩

theorem filledFrom_of_none {before rest : Text} {c : Char} (h : fillAt p filler ⟨before, c :: rest⟩ = none) :
    filledFrom p filler 0 before (c :: rest) = c :: filledFrom p filler 0 (c :: before) rest := by
  rw [filledFrom, piecesFrom_of_none h]
  rfl

theorem filledFrom_of_some {before rest part : Text} {c : Char} {n : Nat}
    (h : fillAt p filler ⟨before, c :: rest⟩ = some (part, n)) :
    filledFrom p filler 0 before (c :: rest) = part ++ filledFrom p filler (n - 1) (c :: before) rest := by
  rw [filledFrom, piecesFrom_of_some h, List.flatMap_cons]
  rfl

theorem replace_eq_filledFrom (p : Pattern) (filler t : Text) : replace p filler t = filledFrom p filler 0 [] t := rfl

/-- A text without phrases stays as it is. -/
theorem replace_eq_self (h : p.occursIn t = false) (filler : Text) : replace p filler t = t := by
  have hpieces : piecesFrom (fillAt p filler) 0 [] (t ++ []) = t.map .inl ++ [] := by
    refine piecesFrom_append fun u v huv _ => fillAt_eq_none_iff.mpr ?_
    rw [List.append_nil, List.append_nil]
    by_contra hend
    obtain ⟨b, hb⟩ := Option.ne_none_iff_exists'.mp hend
    have hoccurs := Pattern.occursIn_of_mem_ends (Pattern.mem_ends_of_end? hb)
    rw [← huv, h] at hoccurs
    cases hoccurs
  rw [List.append_nil, List.append_nil] at hpieces
  rw [replace_eq_filledFrom, filledFrom, hpieces, flatMap_map_inl]

theorem length_filledFrom_le (hlong : filler.length < p.shortest) {n : Nat} (hn : n ≤ t.length) (before : Text) :
    (filledFrom p filler n before t).length + n ≤ t.length := by
  induction t generalizing n before with
  | nil =>
    obtain rfl : n = 0 := Nat.le_zero.mp hn
    exact Nat.le_refl 0
  | cons c rest ih =>
    rw [List.length_cons] at hn ⊢
    cases n with
    | succ n =>
      have hrest := ih (n := n) (by omega) (c :: before)
      rw [filledFrom, piecesFrom]
      exact Nat.succ_le_succ hrest
    | zero =>
      cases hfound : fillAt p filler ⟨before, c :: rest⟩ with
      | none =>
        have hrest := ih (Nat.zero_le _) (c :: before)
        rw [filledFrom_of_none hfound]
        exact Nat.succ_le_succ hrest
      | some piece =>
        obtain ⟨part, m⟩ := piece
        obtain ⟨rfl, hshort, hm⟩ := of_fillAt hfound
        rw [List.length_cons] at hm
        have hrest := ih (n := m - 1) (by omega) (c :: before)
        rw [filledFrom_of_some hfound, List.length_append]
        omega

/-- What is put in place of longer phrases makes a text shorter, if there is such a phrase. -/
theorem length_filledFrom_lt (hlong : filler.length < p.shortest) {before : Text} {a : Cursor}
    (ha : a ∈ Cursor.allFrom before t) (hphrase : p.end? a ≠ none) :
    (filledFrom p filler 0 before t).length < t.length := by
  induction t generalizing before with
  | nil =>
    obtain rfl := List.mem_singleton.mp ha
    obtain ⟨b, hb⟩ := Option.ne_none_iff_exists'.mp hphrase
    have hdistance := Pattern.distance_of_mem_ends (Pattern.mem_ends_of_end? hb)
    rw [List.length_nil] at hdistance
    omega
  | cons c rest ih =>
    rw [List.length_cons]
    cases hfound : fillAt p filler ⟨before, c :: rest⟩ with
    | none =>
      have hlater : a ∈ Cursor.allFrom (c :: before) rest := by
        refine (List.mem_cons.mp ha).resolve_left fun heq => hphrase ?_
        rw [heq]
        exact fillAt_eq_none_iff.mp hfound
      have hrest := ih hlater
      rw [filledFrom_of_none hfound]
      exact Nat.succ_lt_succ hrest
    | some piece =>
      obtain ⟨part, m⟩ := piece
      obtain ⟨rfl, hshort, hm⟩ := of_fillAt hfound
      rw [List.length_cons] at hm
      have hrest := length_filledFrom_le (n := m - 1) (t := rest) hlong (by omega) (c :: before)
      rw [filledFrom_of_some hfound, List.length_append]
      omega

/-- A text with a phrase that is longer than what is put in its place gets shorter. -/
theorem length_replace_lt (hlong : filler.length < p.shortest) (h : p.occursIn t = true) :
    (replace p filler t).length < t.length := by
  obtain ⟨a, ha, hend⟩ := List.findSome?_isSome_iff.mp h
  refine length_filledFrom_lt hlong ha ?_
  rw [Option.isSome_map] at hend
  exact Option.ne_none_iff_isSome.mpr hend

/-- Where some shapes are replaced one after another, a text with a phrase of one of them gets shorter, and any other
stays as it is. -/
theorem replaceAll_cases {shapes : List Pattern} (hlong : ∀ p ∈ shapes, filler.length < p.shortest) (t : Text) :
    (∀ p ∈ shapes, p.occursIn t = false) ∧ shapes.foldl (fun t p => replace p filler t) t = t ∨
      (∃ p ∈ shapes, p.occursIn t = true) ∧ (shapes.foldl (fun t p => replace p filler t) t).length < t.length := by
  induction shapes generalizing t with
  | nil => exact .inl ⟨by simp, rfl⟩
  | cons p rest ih =>
    obtain ⟨hp, hrest⟩ := List.forall_mem_cons.mp hlong
    rw [List.foldl_cons]
    cases hoccurs : p.occursIn t with
    | false =>
      rw [replace_eq_self hoccurs]
      refine (ih hrest t).imp (fun hnone => ?_) fun hsome => ?_
      · exact ⟨List.forall_mem_cons.mpr ⟨hoccurs, hnone.1⟩, hnone.2⟩
      · obtain ⟨⟨q, hq, hphrase⟩, hless⟩ := hsome
        exact ⟨⟨q, List.mem_cons_of_mem p hq, hphrase⟩, hless⟩
    | true =>
      have hshorter := length_replace_lt hp hoccurs
      refine .inr ⟨⟨p, List.mem_cons_self, hoccurs⟩, ?_⟩
      rcases ih hrest (replace p filler t) with ⟨-, hsame⟩ | ⟨-, hless⟩
      · rwa [hsame]
      · exact Nat.lt_trans hless hshorter

end Text
end AskTable
