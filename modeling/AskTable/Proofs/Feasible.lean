import AskTable.Proofs.Execution
import AskTable.Proofs.Recency
import AskTable.Query.Search

/-! When plans can be carried out and searches made: every condition that is looked at can be read, and
records that are asked for by date have an order. -/
namespace AskTable

namespace Operator

/-- Whether an operator can be decided on any cell and any operand. -/
def isTotal : Operator → Bool
  | .month | .year | .greaterThan | .lessThan => false
  | _ => true

theorem ofName?_name (operator : Operator) : ofName? operator.name = some operator := by
  cases operator <;> decide

end Operator

namespace Condition

variable {columns : List Text} {c : Condition} {conditions : List Condition} {r : Record}

private theorem isReadable_of_isTotal (h : c.operator.isTotal = true) : c.IsReadable columns r := by
  unfold IsReadable
  cases hc : c.operator <;> simp_all [Operator.isTotal]

/-- A record is tested by some conditions as far as they hold. -/
theorem succeeds_allHold_iff : Succeeds (allHold columns conditions r) ↔
    ∀ c, Reached (fun x => x.holds columns r = .ok true) conditions c → c.IsReadable columns r := by
  simp only [allHold, succeeds_allM_iff, succeeds_holds_iff]

theorem operator?_toFilter (c : Condition) : c.toFilter.operator? = some c.operator :=
  c.operator.ofName?_name

/-- The filter that a condition is written as says what the condition says. -/
theorem admits_toFilter (c : Condition) : c.toFilter.admits columns r = c.holds columns r := by
  unfold Filter.admits
  rw [operator?_toFilter]
  rfl

/-- The conditions of a plan under some conditions have the operators of these. -/
theorem exists_operator_eq {intent : Intent}
    (hc : c ∈ (Plan.under intent conditions).conditions columns) :
    ∃ x ∈ conditions, x.operator = c.operator := by
  obtain ⟨f, hf, hresolved⟩ := List.mem_filterMap.mp hc
  obtain ⟨x, hx, rfl⟩ := List.mem_map.mp hf
  have hoperator := (Filter.condition?_eq_some_iff.mp hresolved).operator
  rw [operator?_toFilter] at hoperator
  exact ⟨x, hx, Option.some.inj hoperator⟩

end Condition

namespace Snapshot

variable {s : Snapshot} {p : Plan} {q : Text} {conditions : List Condition}

def CanSelect (s : Snapshot) (conditions : List Condition) : Prop :=
  ∀ r ∈ s.records, ∀ c, Reached (fun x => x.holds s.columns r = .ok true) conditions c →
    c.IsReadable s.columns r

theorem succeeds_select_iff : Succeeds (s.select conditions) ↔ s.CanSelect conditions := by
  unfold select CanSelect
  rw [succeeds_selectM_iff]
  simp only [Condition.succeeds_allHold_iff]
  have hmem : ∀ r, r ∈ s.records ↔ ∃ hit ∈ s.hits, hit.1 = r := by
    intro r
    rw [← List.mem_map, hits, List.zipIdx_map_fst]
  simp only [hmem]
  constructor
  · intro h r hr
    obtain ⟨hit, hhit, rfl⟩ := hr
    exact h hit hhit
  · intro h hit hhit
    exact h hit.1 ⟨hit, hhit, rfl⟩

theorem canSelect_of_isTotal (h : ∀ c ∈ conditions, c.operator.isTotal = true) :
    s.CanSelect conditions := by
  intro r _ c hreached
  exact Condition.isReadable_of_isTotal (h c hreached.mem)

structure CanExecute (s : Snapshot) (p : Plan) : Prop where
  select : s.CanSelect (p.conditions s.columns)
  sort : p.intent = .lastAction → ∀ selected, s.select (p.conditions s.columns) = .ok selected →
    Recency.IsSortable s.columns selected

theorem succeeds_keep_iff {intent : Intent} {selected : List Hit} :
    Succeeds (s.keep intent selected) ↔
      (intent = .lastAction → Recency.IsSortable s.columns selected) := by
  unfold keep
  split_ifs with hintent
  · rw [Succeeds.map_iff, Recency.succeeds_sort_iff]
    exact ⟨fun h _ => h, fun h => h hintent⟩
  · exact iff_of_true .ok fun h => absurd h hintent

theorem succeeds_execute_iff : Succeeds (s.execute p) ↔ s.CanExecute p := by
  constructor
  · intro h
    obtain ⟨result, h⟩ := h
    obtain ⟨selected, hits, hselected, hhits, -⟩ := execute_eq_ok_iff.mp h
    refine ⟨succeeds_select_iff.mp ⟨selected, hselected⟩, fun hintent other hother => ?_⟩
    obtain rfl := Except.ok.inj (hselected.symm.trans hother)
    exact succeeds_keep_iff.mp ⟨hits, hhits⟩ hintent
  · intro h
    obtain ⟨hselect, hsort⟩ := h
    obtain ⟨selected, hselected⟩ := succeeds_select_iff.mpr hselect
    obtain ⟨hits, hhits⟩ := succeeds_keep_iff.mpr fun hintent => hsort hintent selected hselected
    exact ⟨_, execute_eq_ok_iff.mpr ⟨selected, hits, hselected, hhits, rfl⟩⟩

/-- A plan with one condition that needs no reading of its operand keeps the records that satisfy it. -/
theorem exists_execute_of_isTotal {c : Condition} (hp : p.conditions s.columns = [c]) (htotal : c.operator.isTotal = true)
    (hintent : p.intent ≠ .lastAction) :
    ∃ result, s.execute p = .ok result ∧
      result.hits = s.hits.filter (fun hit => c.holds s.columns hit.1 == .ok true) ∧
      result.total = result.hits.length := by
  have hselect : Succeeds (s.select (p.conditions s.columns)) := by
    refine succeeds_select_iff.mpr (canSelect_of_isTotal fun x hx => ?_)
    rw [hp] at hx
    rw [List.mem_singleton.mp hx, htotal]
  obtain ⟨selected, hselected⟩ := hselect
  refine ⟨_, execute_eq_ok_iff.mpr ⟨selected, selected, hselected, if_neg hintent, rfl⟩, ?_, rfl⟩
  rw [hp] at hselected
  refine selectM_eq_filter hselected fun hit _ b hb => ?_
  obtain ⟨passed, hpassed, hb⟩ := bind_eq_ok_iff.mp hb
  have hpassed : c.holds s.columns hit.1 = .ok passed := hpassed
  rw [hpassed]
  cases passed <;> exact (Except.ok.inj hb).symm

end Snapshot

namespace Search

theorem isTotal_of_mem_operatorPhrases {phrase : Text × Operator} (h : phrase ∈ operatorPhrases) :
    phrase.2.isTotal = true := by
  revert h phrase
  decide

theorem isTotal_of_columnPhraseAt {column t : Text} {a : Cursor} {operator : Operator} {n : Nat}
    (h : columnPhraseAt column a = some (operator, t, n)) : operator.isTotal = true := by
  obtain ⟨b, -, h⟩ := List.exists_of_findSome?_eq_some h
  obtain ⟨phrase, hphrase, h⟩ := List.exists_of_findSome?_eq_some h
  obtain ⟨found, -, heq⟩ := Option.map_eq_some_iff.mp h
  obtain rfl : phrase.2 = operator := congrArg Prod.fst heq
  exact isTotal_of_mem_operatorPhrases hphrase

theorem isTotal_of_columnCondition? {column t left : Text} {c : Condition}
    (h : columnCondition? column t = some (c, left)) : c.operator.isTotal = true := by
  obtain ⟨⟨a, operator, phrase, n⟩, hfound, h⟩ := Option.bind_eq_some_iff.mp h
  obtain ⟨b, -, hphrase⟩ := List.exists_of_findSome?_eq_some hfound
  obtain ⟨found, hphrase, heq⟩ := Option.map_eq_some_iff.mp hphrase
  obtain ⟨rfl, rfl⟩ := Prod.mk.inj heq
  dsimp only at h
  split_ifs at h
  obtain ⟨rfl, -⟩ := Prod.mk.inj (Option.some.inj h)
  exact isTotal_of_columnPhraseAt hphrase

/-- Conditions in a question can be decided on any record. -/
theorem isTotal_of_mem_conditionsOn {columns : List Text} {t : Text} {c : Condition}
    (h : c ∈ conditionsOn columns t) : c.operator.isTotal = true := by
  induction columns generalizing t with
  | nil => simp [conditionsOn] at h
  | cons column rest ih =>
    unfold conditionsOn at h
    cases hfound : columnCondition? column t with
    | none => exact ih (by simpa only [hfound] using h)
    | some found =>
      simp only [hfound, List.mem_cons] at h
      rcases h with rfl | h
      · exact isTotal_of_columnCondition? hfound
      · exact ih h

def asksNewest (q : Text) : Bool :=
  (lastDigits? q).any fun digits => natOfDigits (digits.map Decimal.plainDigit) ≠ 0

variable {q : Text}

theorem succeeds_lastCount?_iff :
    Succeeds (lastCount? q) ↔ ∀ digits ∈ lastDigits? q, digits.length ≤ integerDigitLimit := by
  unfold lastCount?
  cases lastDigits? q with
  | none => simp
  | some digits =>
    by_cases hlong : integerDigitLimit < digits.length
    · simp [hlong]
    · simp [hlong, Nat.not_lt.mp hlong]

theorem asksNewest_iff {count : Option Nat} (h : lastCount? q = .ok count) :
    asksNewest q = true ↔ ∃ n, count = some (n + 1) := by
  unfold lastCount? at h
  unfold asksNewest
  cases hdigits : lastDigits? q with
  | none =>
    rw [hdigits] at h
    obtain rfl := Except.ok.inj h
    simp
  | some digits =>
    simp only [hdigits] at h
    split_ifs at h
    obtain rfl := Except.ok.inj h
    simp [Nat.exists_eq_add_one, Nat.pos_iff_ne_zero]

end Search

namespace Snapshot

variable {s : Snapshot} {q : Text}

structure CanSearch (s : Snapshot) (q : Text) : Prop where
  count : ∀ digits ∈ Search.lastDigits? q, digits.length ≤ integerDigitLimit
  order : Search.asksNewest q = true → Recency.IsSortable s.columns s.hits

private theorem canExecute_conditions : s.CanExecute (.under .list (Search.conditions s.columns q)) := by
  refine ⟨canSelect_of_isTotal fun c hc => ?_, by simp [Plan.under]⟩
  obtain ⟨x, hx, hoperator⟩ := Condition.exists_operator_eq hc
  rw [← hoperator]
  exact Search.isTotal_of_mem_conditionsOn hx

/-- The strict search fails only on the number or on the order of the records that are asked for. -/
theorem succeeds_searchStrict_iff : Succeeds (s.searchStrict q) ↔ s.CanSearch q := by
  unfold searchStrict
  rw [Succeeds.bind_iff]
  constructor
  · intro h
    obtain ⟨count, hcount, hsearch⟩ := h
    refine ⟨Search.succeeds_lastCount?_iff.mp ⟨count, hcount⟩, fun hasks => ?_⟩
    obtain ⟨n, rfl⟩ := (Search.asksNewest_iff hcount).mp hasks
    apply Recency.succeeds_sort_iff.mp
    simpa using hsearch
  · intro h
    obtain ⟨count, hcount⟩ := Search.succeeds_lastCount?_iff.mpr h.count
    refine ⟨count, hcount, ?_⟩
    split
    · have hasks := (Search.asksNewest_iff hcount).mpr ⟨_, rfl⟩
      simpa using Recency.succeeds_sort_iff.mpr (h.order hasks)
    · dsimp only
      split_ifs
      · exact .pure
      · simpa using succeeds_execute_iff.mpr canExecute_conditions

end Snapshot
end AskTable
