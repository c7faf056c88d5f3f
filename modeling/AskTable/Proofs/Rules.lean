import AskTable.Proofs.Readable
import AskTable.Question.Rules

/-! When the rules can plan a question: they find a plan or none unless they come to a date before the first
year. -/
namespace AskTable

namespace Question

variable {q : Text}

/-- The date of the first place at which a question has a shape. -/
def dateBy? (q : Text) (shape : Pattern) : Except Fault (Option Date) :=
  match shape.find? q with
  | none => .ok none
  | some (a, b) => (Value.text (plainDate (a.textTo b))).date?

theorem date?_eq_findSomeM? : date? q = datePatterns.findSomeM? (dateBy? q) := by
  unfold date?
  generalize datePatterns = shapes
  induction shapes with
  | nil => rfl
  | cons shape rest ih =>
    rw [date?.go, List.findSomeM?_cons, dateBy?, ← ih]
    cases shape.find? q with
    | none => rfl
    | some place =>
      obtain ⟨a, b⟩ := place
      dsimp only
      cases (Value.text (plainDate (a.textTo b))).date? with
      | error fault => rfl
      | ok found => cases found <;> rfl

/-- Whether the written dates of a question can be read, as far as they are looked at. -/
def CanReadDates (q : Text) : Prop :=
  ∀ shape, Reached (dateBy? q · = .ok none) datePatterns shape →
    ∀ a b, shape.find? q = some (a, b) → (Value.text (plainDate (a.textTo b))).isBeforeFirst = false

theorem succeeds_date?_iff : Succeeds (date? q) ↔ CanReadDates q := by
  rw [date?_eq_findSomeM?, succeeds_findSomeM?_iff]
  refine forall₂_congr fun shape _ => ?_
  unfold dateBy?
  cases shape.find? q with
  | none => simp
  | some place =>
    obtain ⟨a, b⟩ := place
    simp only [Value.succeeds_date?_iff, Option.some.injEq, Prod.mk.injEq]
    constructor
    · intro h _ _ heq
      obtain ⟨rfl, rfl⟩ := heq
      exact h
    · intro h
      exact h a b ⟨rfl, rfl⟩

end Question

namespace Rule

open Question

variable {q : Text} {s : Option Snapshot}

theorem firstOf_eq_findSomeM? (rules : List Rule) : firstOf q s rules =
    rules.findSomeM? fun rule => (rule.plan? q s).map fun found => found.map (rule, ·) := by
  induction rules with
  | nil => rfl
  | cons rule rest ih =>
    rw [firstOf, List.findSomeM?_cons, ← ih]
    cases rule.plan? q s with
    | error fault => rfl
    | ok found => cases found <;> rfl

/-- Whether the written dates of a question can be read, should the rules come to the one on dates. -/
def CanPlan (q : Text) (s : Option Snapshot) : Prop :=
  Reached (fun rule => rule.plan? q s = .ok none) all specificDate → Question.CanReadDates q

theorem succeeds_plan?_iff {rule : Rule} :
    Succeeds (rule.plan? q s) ↔ (rule = specificDate → Question.CanReadDates q) := by
  cases rule with
  | specificDate => simp [plan?, Question.succeeds_date?_iff]
  | identifierLookup | count | lastAction | columnDump | specificKeyword | genericList =>
    simp [plan?]

theorem succeeds_firstOf_iff : Succeeds (firstOf q s all) ↔ CanPlan q s := by
  have hnone (rule : Rule) :
      ((rule.plan? q s).map fun found => found.map fun plan => (rule, plan)) = .ok none ↔
        rule.plan? q s = .ok none := by
    rw [map_eq_ok_iff]
    simp
  rw [firstOf_eq_findSomeM?, succeeds_findSomeM?_iff]
  simp only [hnone, Succeeds.map_iff, succeeds_plan?_iff]
  constructor
  · intro h hreached
    exact h specificDate hreached rfl
  · intro h rule hreached hrule
    subst hrule
    exact h hreached

theorem succeeds_find?_iff (hq : q.strip ≠ []) : Succeeds (find? q s) ↔ CanPlan q.strip s := by
  rw [← succeeds_firstOf_iff, find?]
  simp [hq]

/-- The plans that the rules make of a question, each with what it takes for the rule to apply. -/
inductive Makes (q : Text) (s : Option Snapshot) : Rule → Plan → Prop where
  | identifierLookup {i : Text} (hcount : asksCount q = false) (hfound : identifier? q = some i) :
      Makes q s identifierLookup (Plan.under .details [identifierCondition i])
  | count (hasks : asksCount q = true) :
      Makes q s count (Plan.under .count (countConditions q s))
  | lastAction (hasks : hasAny lastPhrases q = true) :
      Makes q s lastAction (Plan.under .lastAction (placeConditions q))
  | columnDump {column : Text} (hasks : hasAny dumpPhrases q = true)
      (hfound : column? q s = some column) :
      Makes q s columnDump {
        intent := if hasAny uniquePhrases q then .uniqueValues else .listAll
        fields := .list [.text column] }
  | specificDate {d : Date} (hfound : date? q = .ok (some d)) :
      Makes q s specificDate
        (Plan.under .list (⟨dateField, .equals, .text d.iso⟩ :: placeConditions q))
  | specificKeyword {c : Condition} (hfound : keyword? q s = some c) :
      Makes q s specificKeyword (Plan.under .list [c])
  | genericList (hasks : hasAny listPhrases q = true) :
      Makes q s genericList (Plan.under .list (scope q))

theorem makes_of_plan? {rule : Rule} {p : Plan} (h : rule.plan? q s = .ok (some p)) :
    Makes q s rule p := by
  cases rule with
  | identifierLookup =>
    have h := Except.ok.inj h
    split_ifs at h with hcount
    obtain ⟨i, hfound, rfl⟩ := Option.map_eq_some_iff.mp h
    exact .identifierLookup (Bool.eq_false_iff.mpr hcount) hfound
  | count =>
    have h := Except.ok.inj h
    split_ifs at h with hasks
    obtain rfl := Option.some.inj h
    exact .count hasks
  | lastAction =>
    have h := Except.ok.inj h
    split_ifs at h with hasks
    obtain rfl := Option.some.inj h
    exact .lastAction hasks
  | columnDump =>
    have h : (if hasAny dumpPhrases q then _ else none) = some p := Except.ok.inj h
    by_cases hasks : hasAny dumpPhrases q = true
    · rw [if_pos hasks] at h
      obtain ⟨column, hfound, rfl⟩ := Option.map_eq_some_iff.mp h
      exact .columnDump hasks hfound
    · rw [if_neg hasks] at h
      cases h
  | specificDate =>
    obtain ⟨found, hfound, hp⟩ := map_eq_ok_iff.mp h
    obtain ⟨d, rfl, rfl⟩ := Option.map_eq_some_iff.mp hp
    exact .specificDate hfound
  | specificKeyword =>
    obtain ⟨c, hfound, rfl⟩ := Option.map_eq_some_iff.mp (Except.ok.inj h)
    exact .specificKeyword hfound
  | genericList =>
    have h := Except.ok.inj h
    split_ifs at h with hasks
    obtain rfl := Option.some.inj h
    exact .genericList hasks

/-- The rule that is found applies, and none of those before it does. -/
theorem plan?_of_firstOf {rules : List Rule} {rule : Rule} {p : Plan}
    (h : firstOf q s rules = .ok (some (rule, p))) : rule.plan? q s = .ok (some p) ∧
      ∀ earlier ∈ rules.takeWhile (· ≠ rule), earlier.plan? q s = .ok none := by
  induction rules with
  | nil => cases h
  | cons first rest ih =>
    obtain ⟨found, hfound, hrest⟩ := bind_eq_ok_iff.mp h
    cases found with
    | none =>
      obtain ⟨hplan, hearlier⟩ := ih hrest
      -- A rule that does not apply is not the one that is found.
      have hne : first ≠ rule := by
        rintro rfl
        rw [hplan] at hfound
        cases hfound
      rw [List.takeWhile_cons_of_pos (by simpa using hne)]
      exact ⟨hplan, List.forall_mem_cons.mpr ⟨hfound, hearlier⟩⟩
    | some plan =>
      obtain ⟨rfl, rfl⟩ := Prod.mk.inj (Option.some.inj (Except.ok.inj hrest))
      exact ⟨hfound, by simp⟩

theorem plan?_of_find? {rule : Rule} {p : Plan} (h : find? q s = .ok (some (rule, p))) :
    rule.plan? q.strip s = .ok (some p) ∧
      ∀ earlier ∈ all.takeWhile (· ≠ rule), earlier.plan? q.strip s = .ok none := by
  unfold find? at h
  dsimp only at h
  split_ifs at h with hblank
  · cases h
  · exact plan?_of_firstOf h

theorem exists_fields_of_find? {rule : Rule} {p : Plan} (h : find? q s = .ok (some (rule, p))) :
    ∃ items, p.fields = .list items := by
  cases makes_of_plan? (plan?_of_find? h).1 <;> exact ⟨_, rfl⟩

end Rule

end AskTable
