import AskTable.Proofs.Planned

/-! What a rule takes up of a question. A question may name a day, a month, a year and a place; each rule turns
some of these into filters, and the records that its plan selects lie within them. -/
namespace AskTable

inductive Question.Aspect where
  | day
  | month
  | year
  | place
  deriving DecidableEq

open Question (Aspect)

def Question.Aspect.condition? (aspect : Aspect) (q : Text) : Except Fault (Option Condition) :=
  match aspect with
  | day => (date? q).map fun found => found.map fun d => ⟨dateField, .equals, .text d.iso⟩
  | month => .ok ((month? q).map fun (month : Nat) => ⟨dateField, .month, .int month⟩)
  | year => .ok ((year? q).map fun (year : Nat) => ⟨dateField, .year, .int year⟩)
  | place => .ok ((location? q).map fun place => ⟨locationField, .contains, .text place⟩)

/-- Whether a rule takes up the restrictions of a kind. Those by a day never come as far as the rules for
keywords and for lists. -/
def Rule.takesUp : Rule → Aspect → Bool
  | count, aspect => aspect != .day
  | lastAction, aspect => aspect == .place
  | specificDate, aspect => aspect == .day || aspect == .place
  | specificKeyword, aspect => aspect == .day
  | genericList, _ => true
  | identifierLookup, _ | columnDump, _ => false

namespace Question

variable {q : Text} {s : Option Snapshot} {aspect : Aspect} {c : Condition}

theorem mem_placeConditions_of_place (hc : Aspect.place.condition? q = .ok (some c)) :
    c ∈ placeConditions q :=
  Option.mem_toList.mpr (Except.ok.inj hc)

private theorem mem_scope_of_aspect (haspect : aspect ≠ .day) (hc : aspect.condition? q = .ok (some c)) :
    c ∈ scope q := by
  cases aspect with
  | day => exact absurd rfl haspect
  | month =>
    obtain ⟨month, hmonth, rfl⟩ := Option.map_eq_some_iff.mp (Except.ok.inj hc)
    exact mem_scope_iff.mpr (.inr (.inl ⟨month, hmonth, rfl⟩))
  | year =>
    obtain ⟨year, hyear, rfl⟩ := Option.map_eq_some_iff.mp (Except.ok.inj hc)
    exact mem_scope_iff.mpr (.inr (.inr ⟨year, hyear, rfl⟩))
  | place =>
    exact List.mem_append_left _ (List.mem_append_left _ (mem_placeConditions_of_place hc))

private theorem mem_countConditions_of_mem_scope (hc : c ∈ scope q) : c ∈ countConditions q s := by
  have hmem : c ∈ scope q ++ ((identifier? q).map identifierCondition).toList :=
    List.mem_append_left _ hc
  unfold countConditions
  dsimp only
  rw [if_pos]
  · exact hmem
  · simpa using List.ne_nil_of_mem hmem

end Question

namespace Rule

variable {q question : Text} {s : Option Snapshot} {rule : Rule} {p : Plan} {aspect : Aspect}
  {c : Condition}

theorem toFilter_mem_under {conditions : List Condition} (intent : Intent) (h : c ∈ conditions) :
    c.toFilter ∈ (Plan.under intent conditions).filters :=
  List.mem_map_of_mem h

private theorem ne_day_of_later (hdate : specificDate.plan? q s = .ok none)
    (hc : aspect.condition? q = .ok (some c)) : aspect ≠ .day := by
  rintro rfl
  obtain ⟨found, hfound, hc⟩ := map_eq_ok_iff.mp hc
  obtain ⟨d, rfl, -⟩ := Option.map_eq_some_iff.mp hc
  obtain ⟨other, hother, hnone⟩ := map_eq_ok_iff.mp hdate
  obtain rfl := Except.ok.inj (hfound.symm.trans hother)
  cases hnone

/-- The filters of a plan include all restrictions that its rule takes up. -/
theorem toFilter_mem_filters (h : find? question s = .ok (some (rule, p)))
    (hrule : rule.takesUp aspect = true) (hc : aspect.condition? question.strip = .ok (some c)) :
    c.toFilter ∈ p.filters := by
  obtain ⟨hplan, hearlier⟩ := plan?_of_find? h
  cases makes_of_plan? hplan with
  | identifierLookup | columnDump => cases hrule
  | count =>
    have hscope := Question.mem_scope_of_aspect (by simpa [takesUp] using hrule) hc
    exact toFilter_mem_under _ (Question.mem_countConditions_of_mem_scope hscope)
  | lastAction =>
    obtain rfl : aspect = .place := by simpa [takesUp] using hrule
    exact toFilter_mem_under _ (Question.mem_placeConditions_of_place hc)
  | @specificDate d hfound =>
    refine toFilter_mem_under _ ?_
    obtain rfl | rfl : aspect = .day ∨ aspect = .place := by simpa [takesUp] using hrule
    · obtain ⟨found, hother, hc⟩ := map_eq_ok_iff.mp hc
      obtain rfl := Except.ok.inj (hfound.symm.trans hother)
      obtain rfl := Option.some.inj hc
      exact List.mem_cons_self
    · exact List.mem_cons_of_mem _ (Question.mem_placeConditions_of_place hc)
  | specificKeyword =>
    -- The rule on dates comes first and would have made the plan.
    have hday : aspect = .day := by simpa [takesUp] using hrule
    exact absurd hday (ne_day_of_later (hearlier specificDate (by decide)) hc)
  | genericList =>
    have hday := ne_day_of_later (hearlier specificDate (by decide)) hc
    exact toFilter_mem_under _ (Question.mem_scope_of_aspect hday hc)

end Rule

theorem Value.fieldName_text (t : Text) : (Value.text t).fieldName = t := by
  unfold fieldName
  by_cases h : t = []
  · subst h
    rfl
  · rw [if_pos (by simp [isTrue, h]), shown]

/-- A filter that is written from a condition puts that condition on the column that is meant. -/
theorem Condition.mem_conditions_of_toFilter {p : Plan} {c : Condition} {columns : List Text}
    {column : Text} (h : c.toFilter ∈ p.filters) (hcolumn : Field.resolve? c.field columns = some column) :
    { c with field := column } ∈ p.conditions columns := by
  refine List.mem_filterMap.mpr ⟨c.toFilter, h, Filter.condition?_eq_some_iff.mpr ⟨?_, ?_, rfl⟩⟩
  · have hfield : c.toFilter.field.fieldName = c.field := Value.fieldName_text c.field
    rw [hfield, hcolumn]
  · exact c.operator?_toFilter

namespace Snapshot

variable {s : Snapshot} {p : Plan} {result : Result} {c : Condition} {hit : Hit}

/-- What a plan selects satisfies all its conditions. -/
theorem holds_of_mem_hits (h : s.execute p = .ok result) (hc : c ∈ p.conditions s.columns)
    (hhit : hit ∈ result.hits) : c.holds s.columns hit.1 = .ok true := by
  obtain ⟨selected, hits, hselected, hkeep, rfl⟩ := execute_eq_ok_iff.mp h
  have hmem : hit ∈ selected := by
    unfold keep at hkeep
    split_ifs at hkeep
    · obtain ⟨sorted, hsorted, rfl⟩ := map_eq_ok_iff.mp hkeep
      exact Recency.mem_of_mem_sort hsorted (List.mem_of_mem_take hhit)
    · exact Except.ok.inj hkeep ▸ hhit
  unfold select at hselected
  have hall := of_mem_selectM hselected hmem
  unfold Condition.allHold at hall
  have hholds := of_mem_of_allM hall hc
  exact hholds

end Snapshot

namespace Rule

variable {question : Text} {s : Option Snapshot} {rule : Rule} {p : Plan} {aspect : Aspect} {c : Condition}

/-- What a rule takes up of a question is in its plan, and whatever the plan selects lies within it. -/
theorem find?_keeps_scope (h : find? question s = .ok (some (rule, p)))
    (hrule : rule.takesUp aspect = true) (hc : aspect.condition? question.strip = .ok (some c)) :
    c.toFilter ∈ p.filters ∧
    ∀ (loaded : Snapshot) (result : Result) (column : Text), loaded.execute p = .ok result →
      Field.resolve? c.field loaded.columns = some column →
      ∀ hit ∈ result.hits, { c with field := column }.holds loaded.columns hit.1 = .ok true := by
  have hfilter := toFilter_mem_filters h hrule hc
  refine ⟨hfilter, fun loaded result column hresult hcolumn hit hhit => ?_⟩
  exact loaded.holds_of_mem_hits hresult (Condition.mem_conditions_of_toFilter hfilter hcolumn) hhit

def repairs : Dataset where
  header := ["Date", "Location", "Action"]
  rows := [.list ["2025-07-09", "B St", "leak fixed"]]
  name := []

theorem count_keeps_month : ∃ s p c result column, Snapshot.build repairs = .ok s ∧
    find? "count at B St, July" (some s) = .ok (some (.count, p)) ∧
    Aspect.month.condition? (Text.strip "count at B St, July") = .ok (some c) ∧
    c.toFilter ∈ p.filters ∧ s.execute p = .ok result ∧ result.hits.length = 1 ∧
    Field.resolve? c.field s.columns = some column ∧
    ∀ hit ∈ result.hits, { c with field := column }.holds s.columns hit.1 = .ok true := by
  have hrun : (Snapshot.build repairs >>= fun s => find? "count at B St, July" (some s) >>=
      fun found => (s.execute ((found.map Prod.snd).getD {})).map fun result =>
        (found.map Prod.fst == some Rule.count) && result.hits.length == 1 &&
          Field.resolve? Question.dateField s.columns == some "Date") = .ok true := by
    decide +kernel
  obtain ⟨s, hs, hrun⟩ := bind_eq_ok_iff.mp hrun
  obtain ⟨found, hfound, hrun⟩ := bind_eq_ok_iff.mp hrun
  obtain ⟨result, hresult, hfacts⟩ := map_eq_ok_iff.mp hrun
  simp only [Bool.and_eq_true, beq_iff_eq] at hfacts
  obtain ⟨⟨hrule, hone⟩, hcolumn⟩ := hfacts
  obtain ⟨⟨rule, p⟩, rfl, rfl⟩ := Option.map_eq_some_iff.mp hrule
  have hmonth : Aspect.month.condition? (Text.strip "count at B St, July") =
      .ok (some ⟨Question.dateField, .month, .int 7⟩) := by
    have hnamed : Question.month? (Text.strip "count at B St, July") = some 7 := by
      decide +kernel
    simp only [Aspect.condition?, hnamed]
    rfl
  obtain ⟨hfilter, hwithin⟩ := find?_keeps_scope hfound rfl hmonth
  exact ⟨s, p, _, result, "Date", hs, hfound, hmonth, hfilter, hresult, hone,
    hcolumn, hwithin s result "Date" hresult hcolumn⟩

/-- The plan that a rule makes of a question admits a record that lies outside a restriction in it. -/
structure Strays (s : Snapshot) (q : Text) (rule : Rule) (aspect : Aspect) (p : Plan) (c : Condition)
    (r : Record) : Prop where
  found : find? q (some s) = .ok (some (rule, p))
  named : aspect.condition? q.strip = .ok (some c)
  mem : r ∈ s.records
  admitted : Condition.allHold s.columns (p.conditions s.columns) r = .ok true
  outside : ∃ column, Field.resolve? c.field s.columns = some column ∧
    { c with field := column }.holds s.columns r = .ok false

private theorem Strays.toFilter_not_mem {s : Snapshot} {q : Text} {r : Record}
    (h : Strays s q rule aspect p c r) : c.toFilter ∉ p.filters := by
  intro hfilter
  obtain ⟨column, hcolumn, houtside⟩ := h.outside
  have hadmitted := h.admitted
  unfold Condition.allHold at hadmitted
  have hholds := of_mem_of_allM hadmitted (Condition.mem_conditions_of_toFilter hfilter hcolumn)
  rw [houtside] at hholds
  cases hholds

def strays (s : Snapshot) (q : Text) (rule : Rule) (aspect : Aspect) : Except Fault Bool := do
  let found ← find? q (some s)
  let named ← aspect.condition? q.strip
  match found, named with
  | some (other, p), some c =>
    match Field.resolve? c.field s.columns with
    | some column =>
      return other == rule && s.records.any fun r =>
        Condition.allHold s.columns (p.conditions s.columns) r == Except.ok true &&
          { c with field := column }.holds s.columns r == Except.ok false
    | none => return false
  | _, _ => return false

theorem exists_strays {s : Snapshot} {q : Text} (h : strays s q rule aspect = .ok true) :
    ∃ p c r, Strays s q rule aspect p c r := by
  unfold strays at h
  obtain ⟨found, hfound, h⟩ := bind_eq_ok_iff.mp h
  obtain ⟨named, hnamed, h⟩ := bind_eq_ok_iff.mp h
  match found, named with
  | some (other, p), some c =>
    cases hcolumn : Field.resolve? c.field s.columns with
    | none => simp [hcolumn, pure, Except.pure] at h
    | some column =>
      simp only [hcolumn, pure, Except.pure, Except.ok.injEq, Bool.and_eq_true, beq_iff_eq,
        List.any_eq_true] at h
      obtain ⟨rfl, r, hr, hadmitted, houtside⟩ := h
      exact ⟨p, c, r, hfound, hnamed, hr, hadmitted, column, hcolumn, houtside⟩
  | none, _ => cases h
  | some _, none => cases h

/-- Questions with what their rules do not take up: a rule, a kind of restriction, and a question. -/
def straying : List (Rule × Aspect × Text) :=
  [(count, .day, "count 1/2/2024"), (lastAction, .day, "last job 1/2/2024"),
    (lastAction, .month, "last job in June"), (lastAction, .year, "last job in 2024"),
    (specificDate, .month, "7/9/2025 or June"), (specificDate, .year, "7/9/2025 or 2024"),
    (specificKeyword, .month, "about leak, June"), (specificKeyword, .year, "about leak, 2024"),
    (specificKeyword, .place, "about leak at A St")]

private theorem exists_mem_straying (hrule : rule ≠ identifierLookup ∧ rule ≠ columnDump)
    (h : rule.takesUp aspect = false) : ∃ q, (rule, aspect, q) ∈ straying := by
  cases rule with
  | identifierLookup => exact absurd rfl hrule.1
  | columnDump => exact absurd rfl hrule.2
  | genericList => cases h
  | count | lastAction | specificDate | specificKeyword =>
    cases aspect <;> simp [takesUp, straying] at h ⊢

theorem exists_strays_straying : ∃ s, Snapshot.build repairs = .ok s ∧
    ∀ rule aspect q, (rule, aspect, q) ∈ straying → ∃ p c r, Strays s q rule aspect p c r := by
  have hrun : (Snapshot.build repairs >>= fun s =>
      straying.allM fun sample => strays s sample.2.2 sample.1 sample.2.1) = .ok true := by
    decide +kernel
  obtain ⟨s, hs, hrun⟩ := bind_eq_ok_iff.mp hrun
  refine ⟨s, hs, fun rule aspect q hq => ?_⟩
  have hstrays := of_mem_of_allM hrun hq
  exact exists_strays hstrays

/-- The plans for these questions have no filter for what is named, and admit records outside it. -/
theorem straying_drops_filters : ∃ s, Snapshot.build repairs = .ok s ∧
    ∀ rule aspect q, (rule, aspect, q) ∈ straying →
      ∃ p c r, Strays s q rule aspect p c r ∧ c.toFilter ∉ p.filters := by
  obtain ⟨s, hs, hstrays⟩ := exists_strays_straying
  refine ⟨s, hs, fun rule aspect q hq => ?_⟩
  obtain ⟨p, c, r, hstrays⟩ := hstrays rule aspect q hq
  exact ⟨p, c, r, hstrays, hstrays.toFilter_not_mem⟩

/-- What a rule does not take up of its questions is disregarded for one of them. -/
theorem exists_strays_of_takesUp_eq_false (hrule : rule ≠ identifierLookup ∧ rule ≠ columnDump)
    (h : rule.takesUp aspect = false) : ∃ s q p c r, Strays s q rule aspect p c r := by
  obtain ⟨q, hq⟩ := exists_mem_straying hrule h
  obtain ⟨s, -, hstrays⟩ := exists_strays_straying
  obtain ⟨p, c, r, hstrays⟩ := hstrays rule aspect q hq
  exact ⟨s, q, p, c, r, hstrays⟩

end Rule
end AskTable
