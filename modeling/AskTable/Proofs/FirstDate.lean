import AskTable.Proofs.Pattern
import AskTable.Proofs.Rules

/-! Which date of a question is taken up. The shapes of written dates are tried one after another, each at its
first place in the question only; so the date that is taken is one of the question's, but not always the
leftmost. -/
namespace AskTable

namespace Question

variable {q before t after : Text} {d : Date}

/-- A text stands in a question in a shape of written dates, and is read as a date. -/
structure NamesDate (q before t after : Text) (d : Date) : Prop where
  question_eq : q = before ++ t ++ after
  shaped : ∃ shape ∈ datePatterns,
    ⟨t.reverse ++ before.reverse, after⟩ ∈ shape.ends ⟨before.reverse, t ++ after⟩
  read : (Value.text (plainDate t)).date? = .ok (some d)

/-- The date of a text in a question before which no text that is a date begins. -/
def IsFirstDate (q : Text) (d : Date) : Prop :=
  ∃ before t after, NamesDate q before t after d ∧
    ∀ before' t' after' d', NamesDate q before' t' after' d' → before.length ≤ before'.length

/-- The first date of a question is the one that is taken up, and there is none only if the question has none. -/
structure TakesFirstDate (q : Text) : Prop where
  takes : ∀ d, IsFirstDate q d → date? q = .ok (some d)
  none : (∀ before t after d, ¬ NamesDate q before t after d) → date? q = .ok none

private theorem NamesDate.exists_isFirstDate (h : NamesDate q before t after d) : ∃ first, IsFirstDate q first := by
  induction hlength : before.length using Nat.strongRecOn generalizing before t after d with
  | _ n ih =>
    by_cases hfirst : ∃ before' t' after' d', NamesDate q before' t' after' d' ∧ before'.length < before.length
    · obtain ⟨before', t', after', d', hother, hlt⟩ := hfirst
      exact ih _ (hlength ▸ hlt) hother rfl
    · refine ⟨d, before, t, after, h, fun before' t' after' d' hother => Nat.le_of_not_lt fun hlt => ?_⟩
      exact hfirst ⟨before', t', after', d', hother, hlt⟩

/-- The first text of a shape in a question is read as a date. -/
def DatesFirst (q : Text) (shape : Pattern) (d : Date) : Prop :=
  ∃ before t after, shape.IsFirst q before t after ∧ (Value.text (plainDate t)).date? = .ok (some d)

/-- The first text of a shape in a question, if there is one, is no date. -/
def IsPassedOver (q : Text) (shape : Pattern) : Prop :=
  ∀ before t after, shape.IsFirst q before t after → (Value.text (plainDate t)).date? = .ok none

theorem dateBy?_of_isFirst {shape : Pattern} (h : shape.IsFirst q before t after) :
    dateBy? q shape = (Value.text (plainDate t)).date? := by
  have hfind := Pattern.find?_eq_some_iff.mpr ⟨before, t, after, h, rfl, rfl⟩
  rw [dateBy?, hfind]
  dsimp only
  rw [Cursor.textTo_append]

theorem dateBy?_cases (q : Text) (shape : Pattern) :
    (∃ before t after, shape.IsFirst q before t after) ∨
      (∀ before t after, ¬ shape.IsFirst q before t after) ∧ dateBy? q shape = .ok none := by
  cases hfind : shape.find? q with
  | none =>
    refine .inr ⟨fun before t after h => ?_, by rw [dateBy?, hfind]⟩
    rw [Pattern.find?_eq_some_iff.mpr ⟨before, t, after, h, rfl, rfl⟩] at hfind
    cases hfind
  | some place =>
    obtain ⟨before, t, after, h, -, -⟩ := Pattern.find?_eq_some_iff.mp hfind
    exact .inl ⟨before, t, after, h⟩

theorem dateBy?_eq_some_iff {shape : Pattern} : dateBy? q shape = .ok (some d) ↔ DatesFirst q shape d := by
  constructor
  · intro h
    rcases dateBy?_cases q shape with ⟨before, t, after, hfirst⟩ | ⟨-, hnone⟩
    · exact ⟨before, t, after, hfirst, (dateBy?_of_isFirst hfirst).symm.trans h⟩
    · cases h.symm.trans hnone
  · rintro ⟨before, t, after, hfirst, hread⟩
    exact (dateBy?_of_isFirst hfirst).trans hread

theorem dateBy?_eq_none_iff {shape : Pattern} : dateBy? q shape = .ok none ↔ IsPassedOver q shape := by
  rcases dateBy?_cases q shape with ⟨before, t, after, hfirst⟩ | ⟨habsent, hnone⟩
  · exact ⟨fun h _ _ _ hother => (dateBy?_of_isFirst hother).symm.trans h,
      fun h => (dateBy?_of_isFirst hfirst).trans (h before t after hfirst)⟩
  · exact iff_of_true hnone fun before t after h => absurd h (habsent before t after)

/-- The date that is taken up is the one that the first shape in their order gives whose first text is a date. -/
theorem date?_eq_some_iff :
    date? q = .ok (some d) ↔ ∃ shape, Reached (IsPassedOver q) datePatterns shape ∧ DatesFirst q shape d := by
  have hpassed : (dateBy? q · = .ok none) = IsPassedOver q := funext fun _ => propext dateBy?_eq_none_iff
  rw [date?_eq_findSomeM?, findSomeM?_eq_some_iff, hpassed]
  simp only [dateBy?_eq_some_iff]

theorem date?_eq_none_iff : date? q = .ok none ↔ ∀ shape ∈ datePatterns, IsPassedOver q shape := by
  rw [date?_eq_findSomeM?, findSomeM?_eq_none_iff]
  simp only [dateBy?_eq_none_iff]

theorem DatesFirst.exists_namesDate {shape : Pattern} (hshape : shape ∈ datePatterns) (h : DatesFirst q shape d) :
    ∃ before t after, NamesDate q before t after d := by
  obtain ⟨before, t, after, hfirst, hread⟩ := h
  exact ⟨before, t, after, hfirst.text_eq, ⟨shape, hshape, Pattern.mem_ends_of_end? hfirst.fits⟩, hread⟩

/-- The date that is taken up is one that the question names. -/
theorem exists_namesDate (h : date? q = .ok (some d)) : ∃ before t after, NamesDate q before t after d := by
  obtain ⟨shape, hreached, hdates⟩ := date?_eq_some_iff.mp h
  exact hdates.exists_namesDate hreached.mem

/-- In a question that names no date, a shape is passed over exactly if its first text has no year zero. -/
theorem isPassedOver_iff {shape : Pattern} (hshape : shape ∈ datePatterns)
    (hnone : ∀ before t after d, ¬ NamesDate q before t after d) : IsPassedOver q shape ↔
      ∀ before t after, shape.IsFirst q before t after → (Value.text (plainDate t)).isBeforeFirst = false := by
  refine forall_congr' fun before => forall_congr' fun t => forall₂_congr fun after hfirst => ?_
  rw [← Value.succeeds_date?_iff]
  constructor
  · exact fun h => ⟨none, h⟩
  · rintro ⟨found, hfound⟩
    cases found with
    | none => exact hfound
    | some d =>
      obtain ⟨before', t', after', hnames⟩ := DatesFirst.exists_namesDate hshape ⟨before, t, after, hfirst, hfound⟩
      exact absurd hnames (hnone before' t' after' d)

/-- The date that is taken up is one of the question. It is the leftmost one exactly if that is the first text of
the first shape, in their order, whose first text is a date; and a question without dates gives none exactly if
no first text of a shape has the year zero. -/
theorem takes_first_date_iff (q : Text) :
    (∀ d, date? q = .ok (some d) → ∃ before t after, NamesDate q before t after d) ∧
      (TakesFirstDate q ↔
        (∀ d, IsFirstDate q d → ∃ shape, Reached (IsPassedOver q) datePatterns shape ∧ DatesFirst q shape d) ∧
        ((∀ before t after d, ¬ NamesDate q before t after d) → ∀ shape ∈ datePatterns, ∀ before t after,
          shape.IsFirst q before t after → (Value.text (plainDate t)).isBeforeFirst = false)) := by
  refine ⟨fun d h => exists_namesDate h, ?_⟩
  have hread (hnone : ∀ before t after d, ¬ NamesDate q before t after d) : date? q = .ok none ↔
      ∀ shape ∈ datePatterns, ∀ before t after,
        shape.IsFirst q before t after → (Value.text (plainDate t)).isBeforeFirst = false := by
    rw [date?_eq_none_iff]
    exact forall₂_congr fun shape hshape => isPassedOver_iff hshape hnone
  constructor
  · rintro ⟨htakes, hnone⟩
    exact ⟨fun d hd => date?_eq_some_iff.mp (htakes d hd), fun h => (hread h).mp (hnone h)⟩
  · rintro ⟨htakes, hnone⟩
    exact ⟨fun d hd => date?_eq_some_iff.mpr (htakes d hd), fun h => (hread h).mpr (hnone h)⟩

/-- A date with the year last is passed over for a later one with the year first. -/
theorem earlier_date_lost : ∃ d d', IsFirstDate "1/2/2024 or 2023-05-06" d ∧ d.iso = ("2024-01-02" : Text) ∧
    date? "1/2/2024 or 2023-05-06" = .ok (some d') ∧ d'.iso = ("2023-05-06" : Text) ∧
    ¬ TakesFirstDate "1/2/2024 or 2023-05-06" := by
  have hread : (Value.text (plainDate "1/2/2024")).date?.map (fun found => found.map Date.iso) =
      .ok (some "2024-01-02") := by decide +kernel
  have htaken : (date? "1/2/2024 or 2023-05-06").map (fun found => found.map Date.iso) =
      .ok (some "2023-05-06") := by decide +kernel
  obtain ⟨found, hfound, hiso⟩ := map_eq_ok_iff.mp hread
  obtain ⟨d, rfl, hd⟩ := Option.map_eq_some_iff.mp hiso
  obtain ⟨other, hother, hiso'⟩ := map_eq_ok_iff.mp htaken
  obtain ⟨d', rfl, hd'⟩ := Option.map_eq_some_iff.mp hiso'
  have hnames : NamesDate "1/2/2024 or 2023-05-06" [] "1/2/2024" " or 2023-05-06" d :=
    ⟨by decide, ⟨_, List.mem_cons_of_mem _ List.mem_cons_self, by decide +kernel⟩, hfound⟩
  have hfirst : IsFirstDate "1/2/2024 or 2023-05-06" d := ⟨[], _, _, hnames, fun _ _ _ _ _ => Nat.zero_le _⟩
  refine ⟨d, d', hfirst, hd, hother, hd', fun htakes => ?_⟩
  obtain rfl := Option.some.inj (Except.ok.inj ((htakes.takes d hfirst).symm.trans hother))
  exact absurd (hd.symm.trans hd') (by decide)

/-- A text that is no date hides a date of its shape behind it. -/
theorem later_date_hidden : ∃ d, NamesDate "13/45/2025 or 1/2/2024" "13/45/2025 or " "1/2/2024" [] d ∧
    date? "13/45/2025 or 1/2/2024" = .ok none ∧ ¬ TakesFirstDate "13/45/2025 or 1/2/2024" := by
  have hread : (Value.text (plainDate "1/2/2024")).date?.map Option.isSome = .ok true := by decide +kernel
  have hnone : date? "13/45/2025 or 1/2/2024" = .ok none := by decide +kernel
  obtain ⟨found, hfound, hsome⟩ := map_eq_ok_iff.mp hread
  obtain ⟨d, rfl⟩ := Option.isSome_iff_exists.mp hsome
  have hnames : NamesDate "13/45/2025 or 1/2/2024" "13/45/2025 or " "1/2/2024" [] d :=
    ⟨by decide, ⟨_, List.mem_cons_of_mem _ List.mem_cons_self, by decide +kernel⟩, hfound⟩
  refine ⟨d, hnames, hnone, fun htakes => ?_⟩
  obtain ⟨first, hfirst⟩ := hnames.exists_isFirstDate
  cases (htakes.takes first hfirst).symm.trans hnone

end Question
end AskTable
