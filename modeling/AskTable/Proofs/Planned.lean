import AskTable.Proofs.Protocol

/-! What planning comes to. Whoever replies, the plan is well-formed; it is the canonical form of the last reply
if that has the shape of a plan, and otherwise what the rules make of the question. -/
namespace AskTable

namespace Condition

variable {conditions : List Condition}

/-- A condition whose field has no blanks at its ends, and whose operand is not nested. -/
structure IsWellFormed (c : Condition) : Prop where
  field : c.field.strip = c.field
  operand : c.operand.isScalar = true

theorem IsWellFormed.toFilter {c : Condition} (h : c.IsWellFormed) : c.toFilter.IsWellFormed where
  field := ⟨c.field, rfl, h.field⟩
  operator := by rw [operator?_toFilter, Option.isSome_some]
  operand := h.operand

theorem isWellFormed_under (h : ∀ c ∈ conditions, c.IsWellFormed) (intent : Intent) :
    (Plan.under intent conditions).IsWellFormed where
  intent := Plan.intent_mem_all _
  filters f hf := by
    obtain ⟨c, hc, rfl⟩ := List.mem_map.mp hf
    exact (h c hc).toFilter
  fields := ⟨[], rfl, by simp⟩

end Condition

namespace Question

variable {q : Text} {s : Option Snapshot} {c : Condition}

theorem isName_dateField : dateField.IsName := ⟨by decide, by decide⟩

theorem isName_locationField : locationField.IsName := ⟨by decide, by decide⟩

theorem isName_identifierField : identifierField.IsName := ⟨by decide, by decide⟩

theorem isName_actionField : actionField.IsName := ⟨by decide, by decide⟩

theorem mem_scope_iff : c ∈ scope q ↔
    (∃ place, location? q = some place ∧ ⟨locationField, .contains, .text place⟩ = c) ∨
    (∃ month, month? q = some month ∧ ⟨dateField, .month, .int month⟩ = c) ∨
    ∃ year, year? q = some year ∧ ⟨dateField, .year, .int year⟩ = c := by
  simp only [scope, placeConditions, List.mem_append, Option.mem_toList,
    Option.map_eq_some_iff, or_assoc]

theorem isName_of_mem_scope (h : c ∈ scope q) : c.field.IsName := by
  obtain ⟨place, -, rfl⟩ | ⟨month, -, rfl⟩ | ⟨year, -, rfl⟩ := mem_scope_iff.mp h
  · exact isName_locationField
  · exact isName_dateField
  · exact isName_dateField

theorem isWellFormed_of_mem_scope (h : c ∈ scope q) : c.IsWellFormed where
  field := (isName_of_mem_scope h).strip_eq
  operand := by obtain ⟨place, -, rfl⟩ | ⟨month, -, rfl⟩ | ⟨year, -, rfl⟩ := mem_scope_iff.mp h <;> rfl

theorem isWellFormed_of_mem_placeConditions (h : c ∈ placeConditions q) : c.IsWellFormed :=
  isWellFormed_of_mem_scope (List.mem_append_left _ (List.mem_append_left _ h))

theorem isWellFormed_identifierCondition (identifier : Text) :
    (identifierCondition identifier).IsWellFormed :=
  ⟨isName_identifierField.strip_eq, rfl⟩

theorem isName_getD {found : Option Text} {other : Text} (hfound : ∀ column ∈ found, column.IsName)
    (hother : other.IsName) : (found.getD other).IsName := by
  cases found with
  | none => exact hother
  | some column => exact hfound column rfl

theorem firstLeast_eq_argmin {α : Type} (measure : α → Nat) (members : List α) :
    firstLeast measure members = members.argmin measure := by
  induction members with
  | nil => rfl
  | cons first rest ih =>
    rw [firstLeast, ih, List.argmin_cons]
    cases rest.argmin measure <;> rfl

theorem mem_of_firstLeast {α : Type} {measure : α → Nat} {members : List α} {a : α}
    (h : firstLeast measure members = some a) : a ∈ members :=
  List.argmin_mem (firstLeast_eq_argmin measure members ▸ h)

theorem eq_of_keyword? (h : keyword? q s = some c) :
    ∃ token keyword, c = ⟨keywordColumn token s, .contains, .text keyword⟩ := by
  unfold keyword? at h
  dsimp only at h
  split at h
  · exact ⟨_, _, (Option.some.inj h).symm⟩
  · obtain ⟨token, -, rfl⟩ := Option.map_eq_some_iff.mp h
    exact ⟨token, token, rfl⟩

/-- What a counting question asks for: what it names, a keyword, or content in a column. -/
theorem cases_of_mem_countConditions (h : c ∈ countConditions q s) : c ∈ scope q ∨
    (∃ identifier, c = identifierCondition identifier) ∨ keyword? q s = some c ∨
      c = ⟨(mostComplete? s).getD identifierField, .isNotEmpty, .null⟩ := by
  unfold countConditions at h
  dsimp only at h
  split_ifs at h
  · rcases List.mem_append.mp h with hscope | hidentifier
    · exact .inl hscope
    · obtain ⟨identifier, -, rfl⟩ := Option.map_eq_some_iff.mp (Option.mem_toList.mp hidentifier)
      exact .inr (.inl ⟨identifier, rfl⟩)
  · split at h
    · rename_i condition hkeyword
      exact .inr (.inr (.inl (List.mem_singleton.mp h ▸ hkeyword)))
    · exact .inr (.inr (.inr (List.mem_singleton.mp h)))

theorem countConditions_ne_nil (q : Text) (s : Option Snapshot) : countConditions q s ≠ [] := by
  unfold countConditions
  dsimp only
  split_ifs with hnamed
  · simpa using hnamed
  · split <;> exact List.cons_ne_nil _ _

section Names

variable (hs : ∀ loaded ∈ s, ∀ column ∈ loaded.columns, column.IsName)
include hs

theorem isName_of_column? {column : Text} (h : column? q s = some column) : column.IsName := by
  obtain ⟨loaded, hloaded, h⟩ := Option.bind_eq_some_iff.mp h
  refine hs loaded hloaded column ?_
  rw [Option.orElse_eq_orElse, Option.orElse_eq_or] at h
  rcases Option.or_eq_some_iff.mp h with hnamed | ⟨-, hmeant⟩
  · exact List.mem_mergeSort.mp (List.mem_of_find?_eq_some hnamed)
  · obtain ⟨label, -, hresolved⟩ := List.exists_of_findSome?_eq_some hmeant
    split_ifs at hresolved
    exact Field.mem_of_resolve? hresolved

theorem isName_keywordColumn (token : Text) : (keywordColumn token s).IsName := by
  refine isName_getD (fun column hcolumn => ?_) isName_actionField
  obtain ⟨loaded, hloaded, hcolumn⟩ := Option.bind_eq_some_iff.mp hcolumn
  refine hs loaded hloaded column ?_
  rw [Option.orElse_eq_orElse, Option.orElse_eq_or] at hcolumn
  rcases Option.or_eq_some_iff.mp hcolumn with hpreferred | ⟨-, howner⟩
  · exact List.mem_of_find?_eq_some hpreferred
  · exact List.mem_of_find?_eq_some howner

theorem isName_of_keyword? (h : keyword? q s = some c) : c.field.IsName := by
  obtain ⟨token, keyword, rfl⟩ := eq_of_keyword? h
  exact isName_keywordColumn hs token

theorem isWellFormed_of_keyword? (h : keyword? q s = some c) : c.IsWellFormed where
  field := (isName_of_keyword? hs h).strip_eq
  operand := by
    obtain ⟨token, keyword, rfl⟩ := eq_of_keyword? h
    rfl

theorem isName_mostComplete? : ((mostComplete? s).getD identifierField).IsName := by
  refine isName_getD (fun column hcolumn => ?_) isName_identifierField
  obtain ⟨loaded, hloaded, hcolumn⟩ := Option.bind_eq_some_iff.mp hcolumn
  exact hs loaded hloaded column (mem_of_firstLeast hcolumn)

theorem isName_of_mem_countConditions (h : c ∈ countConditions q s) : c.field.IsName := by
  obtain hscope | ⟨identifier, rfl⟩ | hkeyword | rfl := cases_of_mem_countConditions h
  · exact isName_of_mem_scope hscope
  · exact isName_identifierField
  · exact isName_of_keyword? hs hkeyword
  · exact isName_mostComplete? hs

theorem isWellFormed_of_mem_countConditions (h : c ∈ countConditions q s) : c.IsWellFormed := by
  obtain hscope | ⟨identifier, rfl⟩ | hkeyword | rfl := cases_of_mem_countConditions h
  · exact isWellFormed_of_mem_scope hscope
  · exact isWellFormed_identifierCondition identifier
  · exact isWellFormed_of_keyword? hs hkeyword
  · exact ⟨(isName_mostComplete? hs).strip_eq, rfl⟩

end Names

end Question

namespace Rule

variable {q : Text} {s : Option Snapshot} {rule : Rule} {p : Plan}

/-- Whatever rule makes a plan, it is well-formed if the columns have names. -/
theorem Makes.isWellFormed (hs : ∀ loaded ∈ s, ∀ column ∈ loaded.columns, column.IsName)
    (h : Makes q s rule p) : p.IsWellFormed := by
  cases h with
  | identifierLookup =>
    exact Condition.isWellFormed_under (by simp [Question.isWellFormed_identifierCondition]) _
  | count =>
    exact Condition.isWellFormed_under
      (fun c hc => Question.isWellFormed_of_mem_countConditions hs hc) _
  | lastAction =>
    exact Condition.isWellFormed_under
      (fun c hc => Question.isWellFormed_of_mem_placeConditions hc) _
  | @columnDump column hasks hfound =>
    have hname := Question.isName_of_column? hs hfound
    exact ⟨Plan.intent_mem_all _, by simp, [column], rfl, by simpa using hname⟩
  | specificDate =>
    refine Condition.isWellFormed_under (List.forall_mem_cons.mpr ⟨?_, fun c hc => ?_⟩) _
    · exact ⟨Question.isName_dateField.strip_eq, rfl⟩
    · exact Question.isWellFormed_of_mem_placeConditions hc
  | specificKeyword hfound =>
    have hwell := Question.isWellFormed_of_keyword? hs hfound
    exact Condition.isWellFormed_under (by simpa using hwell) _
  | genericList =>
    exact Condition.isWellFormed_under (fun c hc => Question.isWellFormed_of_mem_scope hc) _

theorem isWellFormed_of_find? {found : Option (Rule × Plan)}
    (hs : ∀ loaded ∈ s, ∀ column ∈ loaded.columns, column.IsName) (h : find? q s = .ok found) :
    ((found.map Prod.snd).getD {}).IsWellFormed := by
  cases found with
  | none => exact Plan.isWellFormed_default
  | some found => exact (makes_of_plan? (plan?_of_find? h).1).isWellFormed hs

end Rule

/-- How a plan came about, by the last reply that came, if any came. -/
structure Planned.IsMadeFrom (s : Snapshot) (question : Text) (last : Option Reply)
    (planned : Planned) : Prop where
  byModel : ∀ t entries, last = some (.ok t) → Json.readShaped Plan.isShaped t = .ok entries →
    planned.source = .model ∧ planned.rule = none ∧ planned.unreachable = false ∧
      Plan.canonical entries = .ok planned.plan.toValue
  byRules : question.strip ≠ [] →
    (∀ t entries, last = some (.ok t) → Json.readShaped Plan.isShaped t ≠ .ok entries) →
    ∃ found, Rule.find? question.strip (some s) = .ok found ∧
      planned.rule = found.map Prod.fst ∧ planned.plan = (found.map Prod.snd).getD {} ∧
      planned.source = (if found.isSome then .rules else .default) ∧
      (planned.unreachable = true ↔
        ∃ failure, last = some (.error failure) ∧ failure.kind = .unavailable)

namespace Planning

variable {source : Dataset} {s : Snapshot} {question : Text} {model : Option Model} {planned : Planned}
  {log : List Exchange} {last : Option Reply}

theorem planOfText?_eq_some_iff {t : Text} {entries : List (Value × Value)} :
    planOfText? t = some entries ↔ Json.readShaped Plan.isShaped t = .ok entries := by
  unfold planOfText?
  cases Json.readShaped Plan.isShaped t <;> simp [Except.toOption]

theorem isMadeFrom_of_byRules {unreachable : Bool} (hplan : byRules s question.strip unreachable = .ok planned)
    (hlast : ∀ t entries, last = some (.ok t) → Json.readShaped Plan.isShaped t ≠ .ok entries)
    (hreach : unreachable = true ↔
      ∃ failure, last = some (.error failure) ∧ failure.kind = .unavailable) :
    planned.IsMadeFrom s question last where
  byModel t entries ht hentries := absurd hentries (hlast t entries ht)
  byRules _ _ := by
    obtain ⟨found, hfound, rfl⟩ := byRules_eq_ok_iff.mp hplan
    exact ⟨found, hfound, rfl, rfl, rfl, hreach⟩

theorem isMadeFrom_of_ofReply {reply : Reply} (h : ofReply s question.strip reply = .ok planned) :
    planned.IsMadeFrom s question (some reply) := by
  cases htaken : isTakenUp (some reply) with
  | false =>
    refine isMadeFrom_of_byRules ((ofReply_eq_byRules htaken).symm.trans h) ?_ ?_
    · intro t entries ht hentries
      obtain rfl := Option.some.inj ht
      simp [isTakenUp, planOfText?_eq_some_iff.mpr hentries] at htaken
    · cases reply <;> simp [Dialogue.isUnavailable]
  | true =>
    obtain ⟨t, entries, p, rfl, hplan, hcanonical, -, hreply⟩ := exists_plan_of_isTakenUp htaken
    obtain rfl := Except.ok.inj (hreply.symm.trans h)
    constructor
    · intro text found ht hfound
      obtain rfl := Except.ok.inj (Option.some.inj ht)
      obtain rfl := Option.some.inj (hplan.symm.trans (planOfText?_eq_some_iff.mpr hfound))
      exact ⟨rfl, rfl, rfl, hcanonical⟩
    · intro _ hlast
      exact absurd (planOfText?_eq_some_iff.mp hplan) (hlast t entries rfl)

theorem isWellFormed_of_byRules (hs : Snapshot.build source = .ok s) {q : Text} {unreachable : Bool}
    (h : byRules s q unreachable = .ok planned) : planned.plan.IsWellFormed := by
  have hnames : ∀ loaded ∈ some s, ∀ column ∈ loaded.columns, column.IsName := by
    intro loaded hloaded column hcolumn
    obtain rfl := Option.some.inj hloaded
    exact Snapshot.isName_of_build hs hcolumn
  obtain ⟨found, hfound, rfl⟩ := byRules_eq_ok_iff.mp h
  exact Rule.isWellFormed_of_find? hnames hfound

theorem isWellFormed_of_ofReply (hs : Snapshot.build source = .ok s) {q : Text} {reply : Reply}
    (h : ofReply s q reply = .ok planned) : planned.plan.IsWellFormed := by
  cases htaken : isTakenUp (some reply) with
  | false => exact isWellFormed_of_byRules hs ((ofReply_eq_byRules htaken).symm.trans h)
  | true =>
    obtain ⟨_, _, p, -, -, -, hwell, hreply⟩ := exists_plan_of_isTakenUp htaken
    obtain rfl := Except.ok.inj (hreply.symm.trans h)
    exact hwell

/-- Whoever replies, the plan of a question is well-formed and made from the last reply to one stage of
calls. -/
theorem plan_isWellFormed {σ : Type} (hs : Snapshot.build source = .ok s) (question : Text)
    (model : Option Model) (reply : σ → Reply × σ) (state : σ)
    (h : ((plan s question model).runWith reply state).1 = .ok planned) :
    let log := (plan s question model).exchanges reply state
    Asking.IsStage .planner model log ∧ planned.plan.IsWellFormed ∧
      planned.IsMadeFrom s question (log.getLast?.map Prod.snd) := by
  intro log
  have hrun : (plan s question model).Runs log (.ok planned) := by
    rw [← h]
    exact Dialogue.runs_exchanges reply _ state
  by_cases hq : question.strip = []
  · -- A blank question is planned without a call.
    unfold plan at hrun
    dsimp only at hrun
    rw [if_pos (by simpa using hq)] at hrun
    obtain ⟨hlog, hplanned⟩ := Dialogue.runs_done_iff.mp hrun
    obtain rfl := Except.ok.inj hplanned
    rw [hlog]
    refine ⟨.inl rfl, Plan.isWellFormed_default, by simp, fun hfilled => absurd hq hfilled⟩
  · obtain ⟨-, hlog, hplan⟩ | ⟨m, last, hmodel, hcalls, hplan⟩ := runs_plan_cases hq hrun
    · rw [hlog]
      refine ⟨.inl rfl, isWellFormed_of_byRules hs hplan.symm, ?_⟩
      exact isMadeFrom_of_byRules hplan.symm (by simp) (by simp)
    · obtain ⟨before, c, hlog, -⟩ := hcalls.exists_last
      have hlast : log.getLast?.map Prod.snd = some last := by
        rw [hlog, List.getLast?_concat]
        rfl
      rw [hlast]
      exact ⟨.inr ⟨m, _, last, hmodel, hcalls⟩, isWellFormed_of_ofReply hs hplan.symm,
        isMadeFrom_of_ofReply hplan.symm⟩

/-- A model that is busy at first, and then names a field with blanks around it. -/
def delayedReply : List Reply :=
  [.error ⟨.overloaded, "busy"⟩,
    .ok "\x7b\"filters\": [\x7b\"field\": \" Note \", \"operator\": \"contains\"\x7d], \"intent\": \"list\"\x7d"]

theorem plan_of_delayedReply_isWellFormed : ∃ s planned,
    Snapshot.build ⟨["Note"], [.list ["x"]], []⟩ = .ok s ∧
    ((plan s "compare" (some ⟨none⟩)).runWith Dialogue.nextReply delayedReply).1 = .ok planned ∧
    planned.source = .model ∧ planned.plan.filters.length = 1 ∧ planned.plan.IsWellFormed ∧
    planned.IsMadeFrom s "compare" delayedReply.getLast? := by
  have hrun : (Snapshot.build ⟨["Note"], [.list ["x"]], []⟩ >>= fun s =>
      ((plan s "compare" (some ⟨none⟩)).runWith Dialogue.nextReply delayedReply).1.map fun planned =>
        planned.source == PlanSource.model && planned.plan.filters.length == 1 &&
        ((plan s "compare" (some ⟨none⟩)).exchanges Dialogue.nextReply delayedReply).map Prod.snd ==
          delayedReply) = .ok true := by
    decide +kernel
  obtain ⟨s, hs, hrun⟩ := bind_eq_ok_iff.mp hrun
  obtain ⟨planned, hplanned, hfacts⟩ := map_eq_ok_iff.mp hrun
  simp only [Bool.and_eq_true, beq_iff_eq] at hfacts
  obtain ⟨⟨hsource, hone⟩, hreplies⟩ := hfacts
  obtain ⟨-, hwell, hmade⟩ := plan_isWellFormed hs "compare" (some ⟨none⟩) Dialogue.nextReply
    delayedReply hplanned
  rw [← List.getLast?_map, hreplies] at hmade
  exact ⟨s, planned, hs, hplanned, hsource, hone, hwell, hmade⟩

end Planning
end AskTable
