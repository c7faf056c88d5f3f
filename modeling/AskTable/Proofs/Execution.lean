import AskTable.Proofs.Cell
import AskTable.Proofs.Field
import AskTable.Query.Execution

/-! What a plan selects. Execution and the meaning of conditions on cells agree: the records that are
found are those whose cells are accepted by every filter that could be applied. -/
namespace AskTable

namespace Filter

variable {columns : List Text} {f : Filter} {c : Condition}

def isKnown (columns : List Text) (f : Filter) : Bool :=
  (Field.resolve? f.field.fieldName columns).isSome && f.operator?.isSome

/-- The condition is the filter with its field replaced by the column that was meant. -/
structure IsResolvedTo (columns : List Text) (f : Filter) (c : Condition) : Prop where
  field : Field.resolve? f.field.fieldName columns = some c.field
  operator : f.operator? = some c.operator
  operand : f.operand = c.operand

theorem condition?_eq_some_iff : f.condition? columns = some c ↔ f.IsResolvedTo columns c := by
  obtain ⟨field, operator, operand⟩ := c
  unfold condition?
  constructor
  · intro h
    obtain ⟨column, hcolumn, h⟩ := Option.bind_eq_some_iff.mp h
    obtain ⟨found, hfound, h⟩ := Option.bind_eq_some_iff.mp h
    obtain ⟨rfl, rfl, rfl⟩ := Condition.mk.inj (Option.some.inj h)
    exact ⟨hcolumn, hfound, rfl⟩
  · intro h
    obtain ⟨hfield, hoperator, rfl⟩ := h
    simp [hfield, hoperator]

theorem isSome_condition? : (f.condition? columns).isSome = f.isKnown columns := by
  unfold condition? isKnown
  cases Field.resolve? f.field.fieldName columns <;> cases f.operator? <;> rfl

/-- The filters that are applied are the known ones, in their order. -/
theorem forall₂_filterMap_condition? (filters : List Filter) :
    List.Forall₂ (IsResolvedTo columns) (filters.filter (isKnown columns))
      (filters.filterMap (condition? columns)) := by
  induction filters with
  | nil => exact .nil
  | cons f rest ih =>
    have hknown : (f.condition? columns).isSome = f.isKnown columns := f.isSome_condition?
    cases hf : f.condition? columns with
    | none =>
      rw [hf] at hknown
      rwa [List.filter_cons_of_neg (by simp [← hknown]), List.filterMap_cons_none hf]
    | some c =>
      rw [hf] at hknown
      rw [List.filter_cons_of_pos hknown.symm, List.filterMap_cons_some hf]
      exact .cons (condition?_eq_some_iff.mp hf) ih

end Filter

def Plan.conditions (p : Plan) (columns : List Text) : List Condition :=
  p.filters.filterMap (Filter.condition? columns)

theorem Plan.mem_columns_of_mem_conditions {p : Plan} {columns : List Text} {c : Condition}
    (hc : c ∈ p.conditions columns) : c.field ∈ columns := by
  obtain ⟨f, -, hf⟩ := List.mem_filterMap.mp hc
  exact Field.mem_of_resolve? (Filter.condition?_eq_some_iff.mp hf).field

namespace Snapshot

variable {source : Dataset} {s : Snapshot} {p : Plan} {result : Result}

def keep (s : Snapshot) (intent : Intent) (selected : List Hit) : Except Fault (List Hit) :=
  if intent = .lastAction then (Recency.sort s.columns selected).map (·.take 1) else .ok selected

theorem execute_eq_ok_iff : s.execute p = .ok result ↔
    ∃ selected hits, s.select (p.conditions s.columns) = .ok selected ∧
      s.keep p.intent selected = .ok hits ∧
      result = {
        hits
        applied := p.conditions s.columns
        dropped := p.filters.filter fun f => (f.condition? s.columns).isNone
        total := selected.length
        description := Condition.describeAll (p.conditions s.columns)
        intent := p.intent } := by
  unfold execute keep
  simp only [bind_eq_ok_iff]
  constructor
  · intro h
    obtain ⟨selected, hselected, h⟩ := h
    by_cases hintent : p.intent = .lastAction
    · rw [if_pos hintent] at h
      obtain ⟨hits, hhits, h⟩ := bind_eq_ok_iff.mp h
      exact ⟨selected, hits, hselected, (if_pos hintent).trans hhits, (Except.ok.inj h).symm⟩
    · rw [if_neg hintent] at h
      exact ⟨selected, selected, hselected, if_neg hintent, (Except.ok.inj h).symm⟩
  · intro h
    obtain ⟨selected, hits, hselected, hhits, rfl⟩ := h
    refine ⟨selected, hselected, ?_⟩
    by_cases hintent : p.intent = .lastAction
    · rw [if_pos hintent] at hhits ⊢
      exact bind_eq_ok_iff.mpr ⟨hits, hhits, rfl⟩
    · rw [if_neg hintent] at hhits ⊢
      obtain rfl := Except.ok.inj hhits
      rfl

/-- No column is named as the derived date or the derived text of another one is. -/
def IsUnshadowed (columns : List Text) : Prop :=
  ∀ column ∈ columns, Shadow.parsed.field column ∉ columns ∧ Shadow.formatted.field column ∉ columns

instance (columns : List Text) : Decidable (IsUnshadowed columns) :=
  inferInstanceAs (Decidable (∀ column ∈ columns, _))

def accepted (s : Snapshot) (conditions : List Condition) : List Hit :=
  s.hits.filter fun hit => ∀ c ∈ conditions, c.Accepts hit.1

theorem length_accepted (conditions : List Condition) :
    (s.accepted conditions).length = s.records.countP fun r => ∀ c ∈ conditions, c.Accepts r := by
  rw [accepted, ← List.countP_eq_length_filter, hits]
  have hfst : s.records.countP (fun r => decide (∀ c ∈ conditions, c.Accepts r)) =
      (s.records.zipIdx.map Prod.fst).countP fun r => decide (∀ c ∈ conditions, c.Accepts r) := by
    rw [List.zipIdx_map_fst]
  rw [hfst, List.countP_map]
  rfl

theorem select_eq_accepted (hs : build source = .ok s) (hfree : IsUnshadowed s.columns)
    {conditions : List Condition} (hfields : ∀ c ∈ conditions, c.field ∈ s.columns)
    {selected : List Hit} (h : s.select conditions = .ok selected) :
    selected = s.accepted conditions := by
  refine selectM_eq_filter h fun hit hhit b hb => ?_
  have hloaded : hit.1.IsLoaded s.columns :=
    isLoaded_of_build hs (List.fst_mem_of_mem_zipIdx hhit)
  have hall := allM_eq_all hb fun c hc b hcb =>
    have hcolumn := hfields c hc
    Condition.holds_eq_accepts hloaded hcolumn (hfree _ hcolumn).1 (hfree _ hcolumn).2 hcb
  rw [hall, Bool.eq_iff_iff]
  simp

/-- A plan that is carried out selects what its known filters accept; the others are reported. -/
theorem execute_selects_accepted (hs : build source = .ok s) (hfree : IsUnshadowed s.columns)
    (h : s.execute p = .ok result) :
    List.Forall₂ (Filter.IsResolvedTo s.columns) (p.filters.filter (Filter.isKnown s.columns))
      result.applied ∧
    (∀ c ∈ result.applied, c.field ∈ s.columns) ∧
    result.dropped = p.filters.filter (fun f => !f.isKnown s.columns) ∧
    result.total = s.records.countP (fun r => ∀ c ∈ result.applied, c.Accepts r) ∧
    (p.intent ≠ .lastAction → result.hits = s.accepted result.applied) := by
  obtain ⟨selected, hits, hselected, hhits, rfl⟩ := execute_eq_ok_iff.mp h
  have hfields : ∀ c ∈ p.conditions s.columns, c.field ∈ s.columns :=
    fun _ hc => Plan.mem_columns_of_mem_conditions hc
  have haccepted := select_eq_accepted hs hfree hfields hselected
  refine ⟨Filter.forall₂_filterMap_condition? _, hfields, ?_, ?_, ?_⟩
  · refine List.filter_congr fun f _ => ?_
    rw [← Filter.isSome_condition?, Option.not_isSome]
  · rw [haccepted, length_accepted]
  · intro hintent
    rw [keep, if_neg hintent] at hhits
    rw [← haccepted, Except.ok.inj hhits]

def visits : Dataset where
  header := ["Date", "Site", "Cost"]
  rows := [.list ["2024-03-05", "North", "12"], .list ["soon", "South", "7"]]
  name := "visits"

def marchVisits : Plan where
  filters := [Condition.toFilter ⟨"date", .month, "March"⟩, ⟨[("field", "site"), ("value", "N")]⟩]

theorem marchVisits_selects_accepted : ∃ s result, build visits = .ok s ∧ IsUnshadowed s.columns ∧
    s.execute marchVisits = .ok result ∧ result.total = 1 ∧ result.hits = s.accepted result.applied := by
  have hrun : (do
      let s ← build visits
      let result ← s.execute marchVisits
      return decide (IsUnshadowed s.columns) && result.total == 1) = .ok true := by
    decide +kernel
  obtain ⟨s, hs, hrun⟩ := bind_eq_ok_iff.mp hrun
  obtain ⟨result, hresult, hrun⟩ := bind_eq_ok_iff.mp hrun
  have hfacts := Except.ok.inj hrun
  simp only [Bool.and_eq_true, decide_eq_true_eq, beq_iff_eq] at hfacts
  obtain ⟨hfree, htotal⟩ := hfacts
  have hselects := execute_selects_accepted hs hfree hresult
  exact ⟨s, result, hs, hfree, hresult, htotal, hselects.2.2.2.2 (by decide)⟩

end Snapshot
end AskTable
