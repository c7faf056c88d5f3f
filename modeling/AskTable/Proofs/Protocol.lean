import AskTable.Proofs.Answerable

/-! The calls that are made for a question. There is at most one stage that plans and, after it, at most one
that answers; each is one call, or two where the first finds the model busy. -/
namespace AskTable

open Dialogue (Attempt isUnavailable)

namespace Planning

variable {s : Snapshot} {question q : Text} {model : Option Model} {log : List Exchange}

theorem unreachable_of_byRules {unreachable : Bool} {planned : Planned}
    (h : byRules s q unreachable = .ok planned) : planned.unreachable = unreachable := by
  obtain ⟨found, -, rfl⟩ := byRules_eq_ok_iff.mp h
  rfl

theorem unreachable_of_ofReply {reply : Reply} {planned : Planned}
    (h : ofReply s q reply = .ok planned) : planned.unreachable = isUnavailable reply := by
  cases htaken : isTakenUp (some reply) with
  | false => exact unreachable_of_byRules ((ofReply_eq_byRules htaken).symm.trans h)
  | true =>
    obtain ⟨t, entries, p, rfl, -, -, -, hreply⟩ := exists_plan_of_isTakenUp htaken
    obtain rfl := Except.ok.inj (hreply.symm.trans h)
    rfl

/-- Planning makes no call without a model, and one stage of calls with one. -/
theorem runs_plan_cases {outcome : Except Fault Planned} (hq : question.strip ≠ [])
    (hrun : (plan s question model).Runs log outcome) :
    (model = none ∧ log = [] ∧ outcome = byRules s question.strip false) ∨
    ∃ m reply, model = some m ∧
      Attempt (prompt s question.strip) instructions m.alternate log reply ∧
      outcome = ofReply s question.strip reply := by
  unfold plan at hrun
  dsimp only at hrun
  rw [if_neg (by simpa using hq)] at hrun
  cases model with
  | none =>
    obtain ⟨rfl, rfl⟩ := Dialogue.runs_done_iff.mp hrun
    exact .inl ⟨rfl, rfl, rfl⟩
  | some m =>
    obtain ⟨reply, hcalls, rfl⟩ := Dialogue.runs_bind_done_iff.mp hrun
    exact .inr ⟨m, reply, rfl, Dialogue.attempt_of_runs hcalls, rfl⟩

end Planning

namespace Answering

variable {s : Snapshot} {question : Text} {p : Plan} {r : Result} {model : Option Model} {note : Text}
  {limit : Int} {log : List Exchange}

/-- Answering makes no call, or one stage of calls, and that exactly if there is a model, no note was given, and
there are records to answer from whose columns can be told. -/
theorem runs_answer_cases {outcome : Except Fault Answered}
    (hrun : (answer s question p r model note limit).Runs log outcome) :
    (log = [] ∧ outcome = manual s p r note false ∧
      ¬ (model.isSome = true ∧ note = [] ∧ r.hits ≠ [] ∧ Succeeds p.fieldNames)) ∨
    ∃ m prompt last, model = some m ∧ note = [] ∧ r.hits ≠ [] ∧ Succeeds p.fieldNames ∧
      Attempt prompt instructions m.alternate log last ∧ outcome = ofReply s p r last := by
  unfold answer at hrun
  cases model with
  | none =>
    obtain ⟨rfl, rfl⟩ := Dialogue.runs_done_iff.mp hrun
    exact .inl ⟨rfl, rfl, by simp⟩
  | some m =>
    dsimp only at hrun
    split_ifs at hrun with hskip
    · obtain ⟨rfl, rfl⟩ := Dialogue.runs_done_iff.mp hrun
      refine .inl ⟨rfl, rfl, fun h => ?_⟩
      simp [h.2.1, h.2.2.1] at hskip
    · obtain ⟨hnote, hhits⟩ : note = [] ∧ r.hits ≠ [] := by simpa using hskip
      subst hnote
      cases hnames : p.fieldNames with
      | error fault =>
        rw [hnames] at hrun
        obtain ⟨rfl, rfl⟩ := Dialogue.runs_done_iff.mp hrun
        exact .inl ⟨rfl, rfl, fun h => Succeeds.not_error h.2.2.2⟩
      | ok names =>
        rw [hnames] at hrun
        obtain ⟨last, hcalls, rfl⟩ := Dialogue.runs_bind_done_iff.mp hrun
        exact .inr ⟨m, _, last, rfl, rfl, hhits, .ok, Dialogue.attempt_of_runs hcalls, rfl⟩

end Answering

namespace Asking

variable {s : Snapshot} {question q : Text} {model : Option Model} {limit : Int}
  {planning answering : List Exchange} {outcome : Except Fault Outcome}

/-- The ways that a trimmed question about records goes: the exchanges of planning, those of answering, and
what it comes to. -/
inductive Course (s : Snapshot) (q : Text) (model : Option Model) (limit : Int) :
    List Exchange → List Exchange → Except Fault Outcome → Prop where
  | unsearched {fault : Fault} (hsearch : s.searchStrict q = .error fault) :
      Course s q model limit [] [] (.error fault)
  | found {found : Finding} {answering : List Exchange} {answered : Except Fault Answered}
      (hsearch : s.searchStrict q = .ok found) (hhits : found.hits ≠ [])
      (hrun : (Answering.answer s q found.plan found.result model [] limit).Runs answering answered) :
      Course s q model limit [] answering (answered.map (.ofAnswered .index))
  | unplanned {fault : Fault} {planning : List Exchange} (hnone : FindsNothing s q)
      (hplan : (Planning.plan s q model).Runs planning (.error fault)) :
      Course s q model limit planning [] (.ok .notUnderstood)
  | cutOff {planned : Planned} {planning : List Exchange} (hnone : FindsNothing s q)
      (hplan : (Planning.plan s q model).Runs planning (.ok planned))
      (hreach : planned.unreachable = true) :
      Course s q model limit planning [] (locally s q planned)
  | unexecuted {planned : Planned} {planning : List Exchange} {fault : Fault}
      (hnone : FindsNothing s q) (hplan : (Planning.plan s q model).Runs planning (.ok planned))
      (hreach : planned.unreachable = false) (hresult : s.execute planned.plan = .error fault) :
      Course s q model limit planning [] (.error fault)
  | executed {planned : Planned} {planning answering : List Exchange} {result : Result}
      {answered : Except Fault Answered} (hnone : FindsNothing s q)
      (hplan : (Planning.plan s q model).Runs planning (.ok planned))
      (hreach : planned.unreachable = false) (hresult : s.execute planned.plan = .ok result)
      (hrun : (Answering.answer s q planned.plan result model [] limit).Runs answering answered) :
      Course s q model limit planning answering (answered.map (.ofAnswered .planner))

theorem course_of_runs_planned {log : List Exchange} (hnone : FindsNothing s q)
    (hrun : (planned s q model limit).Runs log outcome) :
    ∃ planning answering, log = planning ++ answering ∧
      Course s q model limit planning answering outcome := by
  obtain ⟨planning, rest, made, rfl, hplan, hrest⟩ := Dialogue.runs_bind_iff.mp hrun
  cases made with
  | error fault =>
    obtain ⟨rfl, rfl⟩ := Dialogue.runs_done_iff.mp hrest
    exact ⟨planning, [], rfl, .unplanned hnone hplan⟩
  | ok planned =>
    unfold byPlan at hrest
    dsimp only at hrest
    split_ifs at hrest with hreach
    · obtain ⟨rfl, rfl⟩ := Dialogue.runs_done_iff.mp hrest
      exact ⟨planning, [], rfl, .cutOff hnone hplan hreach⟩
    · rw [Bool.not_eq_true] at hreach
      cases hresult : s.execute planned.plan with
      | error fault =>
        rw [hresult] at hrest
        obtain ⟨rfl, rfl⟩ := Dialogue.runs_done_iff.mp hrest
        exact ⟨planning, [], rfl, .unexecuted hnone hplan hreach hresult⟩
      | ok result =>
        rw [hresult] at hrest
        obtain ⟨answered, hanswer, rfl⟩ := Dialogue.runs_bind_done_iff.mp hrest
        exact ⟨planning, rest, rfl, .executed hnone hplan hreach hresult hanswer⟩

/-- A question about records goes one of these ways, whoever replies. -/
theorem course_of_runs {log : List Exchange} (hrun : (answer s q model limit).Runs log outcome) :
    ∃ planning answering, log = planning ++ answering ∧
      Course s q model limit planning answering outcome := by
  unfold answer at hrun
  cases hsearch : s.searchStrict q with
  | error fault =>
    rw [hsearch] at hrun
    obtain ⟨rfl, rfl⟩ := Dialogue.runs_done_iff.mp hrun
    exact ⟨[], [], rfl, .unsearched hsearch⟩
  | ok found =>
    rw [hsearch] at hrun
    dsimp only at hrun
    split_ifs at hrun with hhits
    · exact course_of_runs_planned ⟨found, hsearch, by simpa using hhits⟩ hrun
    · obtain ⟨answered, hanswer, rfl⟩ := Dialogue.runs_bind_done_iff.mp hrun
      exact ⟨[], log, rfl, .found hsearch (by simpa using hhits) hanswer⟩

/-- Whether the exchanges are those of one stage with a model, or there are none. -/
def IsStage (stage : Stage) (model : Option Model) (log : List Exchange) : Prop :=
  log = [] ∨ ∃ m prompt reply, model = some m ∧ Attempt prompt stage.instructions m.alternate log reply

theorem IsStage.length_le {stage : Stage} {log : List Exchange} (h : IsStage stage model log) :
    log.length ≤ 2 := by
  obtain rfl | ⟨m, prompt, reply, -, hcalls⟩ := h
  · simp
  · exact hcalls.length_le

private theorem IsStage.eq_nil_of_none {stage : Stage} {log : List Exchange} (h : IsStage stage none log) :
    log = [] := by
  obtain h | ⟨m, -, -, hmodel, -⟩ := h
  · exact h
  · cases hmodel

theorem IsStage.system_eq {stage : Stage} {log : List Exchange} (h : IsStage stage model log) :
    ∀ exchange ∈ log, exchange.1.system = stage.instructions := by
  obtain rfl | ⟨m, prompt, reply, -, hcalls⟩ := h
  · simp
  · exact hcalls.system_eq

private theorem isStage_of_runs_plan {made : Except Fault Planned} (hq : q.strip ≠ [])
    (hrun : (Planning.plan s q model).Runs planning made) : IsStage .planner model planning := by
  obtain ⟨-, rfl, -⟩ | ⟨m, reply, hmodel, hcalls, -⟩ := Planning.runs_plan_cases hq hrun
  · exact .inl rfl
  · exact .inr ⟨m, _, reply, hmodel, hcalls⟩

private theorem ne_nil_iff_of_runs_plan {made : Except Fault Planned} (hq : q.strip ≠ [])
    (hrun : (Planning.plan s q model).Runs planning made) : planning ≠ [] ↔ model ≠ none := by
  obtain ⟨rfl, rfl, -⟩ | ⟨m, reply, rfl, hcalls, -⟩ := Planning.runs_plan_cases hq hrun
  · simp
  · exact iff_of_true hcalls.ne_nil (by simp)

private theorem isStage_of_runs_answer {p : Plan} {r : Result} {made : Except Fault Answered}
    (hrun : (Answering.answer s q p r model [] limit).Runs answering made) :
    IsStage .responder model answering := by
  obtain ⟨rfl, -⟩ | ⟨m, prompt, reply, hmodel, -, -, -, hcalls, -⟩ := Answering.runs_answer_cases hrun
  · exact .inl rfl
  · exact .inr ⟨m, prompt, reply, hmodel, hcalls⟩

private theorem eq_nil_of_runs_answer {p : Plan} {r : Result} {made : Except Fault Answered}
    (hhits : r.hits = []) (hrun : (Answering.answer s q p r model [] limit).Runs answering made) :
    answering = [] := by
  obtain ⟨rfl, -⟩ | ⟨m, prompt, reply, -, -, hsome, -⟩ := Answering.runs_answer_cases hrun
  · rfl
  · exact absurd hhits hsome

namespace Course

/-- There is planning exactly where the strict search finds nothing. -/
theorem planning_cases (h : Course s q model limit planning answering outcome) :
    (planning = [] ∧ ¬ FindsNothing s q) ∨
    (FindsNothing s q ∧ ∃ made, (Planning.plan s q model).Runs planning made) := by
  cases h with
  | unsearched hsearch => exact .inl ⟨rfl, by simp [FindsNothing, hsearch]⟩
  | found hsearch hhits => exact .inl ⟨rfl, by simpa [FindsNothing, hsearch] using hhits⟩
  | unplanned hnone hplan => exact .inr ⟨hnone, _, hplan⟩
  | cutOff hnone hplan => exact .inr ⟨hnone, _, hplan⟩
  | unexecuted hnone hplan => exact .inr ⟨hnone, _, hplan⟩
  | executed hnone hplan => exact .inr ⟨hnone, _, hplan⟩

theorem isStage_planner (hq : q.strip ≠ []) (h : Course s q model limit planning answering outcome) :
    IsStage .planner model planning := by
  obtain ⟨rfl, -⟩ | ⟨-, made, hplan⟩ := h.planning_cases
  · exact .inl rfl
  · exact isStage_of_runs_plan hq hplan

theorem planning_ne_nil_iff (hq : q.strip ≠ [])
    (h : Course s q model limit planning answering outcome) :
    planning ≠ [] ↔ model ≠ none ∧ FindsNothing s q := by
  obtain ⟨rfl, hsome⟩ | ⟨hnone, made, hplan⟩ := h.planning_cases
  · simp [hsome]
  · rw [ne_nil_iff_of_runs_plan hq hplan]
    simp [hnone]

theorem isStage_responder (h : Course s q model limit planning answering outcome) :
    IsStage .responder model answering := by
  cases h with
  | unsearched | unplanned | cutOff | unexecuted => exact .inl rfl
  | found _ _ hrun => exact isStage_of_runs_answer hrun
  | executed _ _ _ _ hrun => exact isStage_of_runs_answer hrun

/-- Planning that ends without a connection is not followed by answering. -/
theorem answering_eq_nil_of_isUnavailable (hq : q.strip ≠ [])
    (h : Course s q model limit planning answering outcome) {failing : Exchange}
    (hlast : planning.getLast? = some failing) (hfailing : isUnavailable failing.2 = true) :
    answering = [] := by
  cases h with
  | unsearched | unplanned | cutOff | unexecuted => rfl
  | found => simp at hlast
  | executed _ hplan hreach =>
    obtain ⟨-, rfl, -⟩ | ⟨m, reply, -, hcalls, hmade⟩ := Planning.runs_plan_cases hq hplan
    · simp at hlast
    · obtain ⟨before, c, rfl, -⟩ := hcalls.exists_last
      have hreply : failing.2 = reply := by
        rw [List.getLast?_concat] at hlast
        exact congrArg Prod.snd (Option.some.inj hlast).symm
      rw [Planning.unreachable_of_ofReply hmade.symm, ← hreply, hfailing] at hreach
      cases hreach

/-- A plan that selects no record is not followed by answering. -/
theorem answering_eq_nil_of_hits (h : Course s q model limit planning answering outcome)
    (hnone : FindsNothing s q) {planned : Planned} {result : Result}
    (hplan : (Planning.plan s q model).Runs planning (.ok planned))
    (hresult : s.execute planned.plan = .ok result) (hhits : result.hits = []) : answering = [] := by
  cases h with
  | unsearched | unplanned | cutOff | unexecuted => rfl
  | found hsearch hsome =>
    obtain ⟨found, hfound, hempty⟩ := hnone
    obtain rfl := Except.ok.inj (hsearch.symm.trans hfound)
    exact absurd hempty hsome
  | executed _ hmade _ hfound hrun =>
    obtain rfl := Except.ok.inj (hmade.unique hplan)
    obtain rfl := Except.ok.inj (hfound.symm.trans hresult)
    exact eq_nil_of_runs_answer hhits hrun

end Course

/-- The rules for the calls that a question makes, by the exchanges of planning and those of answering. -/
structure KeepsProtocol (s : Option Snapshot) (question : Text) (model : Option Model)
    (planning answering : List Exchange) : Prop where
  planner : IsStage .planner model planning
  responder : IsStage .responder model answering
  plannerSystem : ∀ exchange ∈ planning, exchange.1.system = Planning.instructions
  responderSystem : ∀ exchange ∈ answering, exchange.1.system = Answering.instructions
  length_le : (planning ++ answering).length ≤ 4
  silent : s = none ∨ question.strip = [] ∨ (∃ loaded, s = some loaded ∧ loaded.records = []) ∨
    model = none → planning ++ answering = []
  plans_iff : planning ≠ [] ↔ model ≠ none ∧ question.strip ≠ [] ∧
    ∃ loaded, s = some loaded ∧ loaded.records ≠ [] ∧ FindsNothing loaded question.strip
  cutOff : ∀ failing, planning.getLast? = some failing → isUnavailable failing.2 = true →
    answering = []
  fruitless : ∀ loaded planned result, s = some loaded → FindsNothing loaded question.strip →
    (Planning.plan loaded question.strip model).Runs planning (.ok planned) →
    loaded.execute planned.plan = .ok result → result.hits = [] → answering = []

theorem keepsProtocol_nil {s : Option Snapshot}
    (h : s = none ∨ question.strip = [] ∨ ∃ loaded, s = some loaded ∧ loaded.records = []) :
    KeepsProtocol s question model [] [] where
  planner := .inl rfl
  responder := .inl rfl
  plannerSystem := by simp
  responderSystem := by simp
  length_le := by simp
  silent _ := rfl
  plans_iff := by
    refine iff_of_false (by simp) fun hplans => ?_
    obtain ⟨-, hq, loaded, hloaded, hrecords, -⟩ := hplans
    rcases h with rfl | hblank | ⟨other, hother, hempty⟩
    · cases hloaded
    · exact hq hblank
    · obtain rfl := Option.some.inj (hloaded.symm.trans hother)
      exact hrecords hempty
  cutOff _ _ _ := rfl
  fruitless _ _ _ _ _ _ _ _ := rfl

theorem Course.keepsProtocol (hrecords : s.records ≠ []) (hq : question.strip ≠ [])
    (h : Course s question.strip model limit planning answering outcome) :
    KeepsProtocol (some s) question model planning answering := by
  have hstrip : question.strip.strip ≠ [] := by rwa [Text.strip_strip]
  have hplanner := h.isStage_planner hstrip
  have hresponder := h.isStage_responder
  refine ⟨hplanner, hresponder, hplanner.system_eq, hresponder.system_eq, ?_, ?_, ?_, ?_, ?_⟩
  · have hfirst := hplanner.length_le
    have hsecond := hresponder.length_le
    rw [List.length_append]
    omega
  · intro hsilent
    rcases hsilent with hnone | hblank | ⟨loaded, hloaded, hempty⟩ | rfl
    · cases hnone
    · exact absurd hblank hq
    · obtain rfl := Option.some.inj hloaded
      exact absurd hempty hrecords
    · rw [hplanner.eq_nil_of_none, hresponder.eq_nil_of_none, List.nil_append]
  · rw [h.planning_ne_nil_iff hstrip]
    simp [hq, hrecords]
  · intro failing hlast hfailing
    exact h.answering_eq_nil_of_isUnavailable hstrip hlast hfailing
  · intro loaded planned result hloaded hnone hplan hresult hhits
    obtain rfl := Option.some.inj hloaded
    exact h.answering_eq_nil_of_hits hnone hplan hresult hhits

theorem keepsProtocol_of_runs {s : Option Snapshot} {log : List Exchange} {outcome : Outcome}
    (hrun : (ask s question model limit).Runs log outcome) :
    ∃ planning answering, log = planning ++ answering ∧
      KeepsProtocol s question model planning answering := by
  unfold ask at hrun
  cases s with
  | none =>
    obtain ⟨rfl, -⟩ := Dialogue.runs_done_iff.mp hrun
    exact ⟨[], [], rfl, keepsProtocol_nil (.inl rfl)⟩
  | some s =>
    dsimp only at hrun
    split_ifs at hrun with hblank hempty
    · obtain ⟨rfl, -⟩ := Dialogue.runs_done_iff.mp hrun
      exact ⟨[], [], rfl, keepsProtocol_nil (.inr (.inl (by simpa using hblank)))⟩
    · obtain ⟨rfl, -⟩ := Dialogue.runs_done_iff.mp hrun
      exact ⟨[], [], rfl, keepsProtocol_nil (.inr (.inr ⟨s, rfl, by simpa using hempty⟩))⟩
    · obtain ⟨made, hanswer, rfl⟩ := Dialogue.runs_bind_done_iff.mp hrun
      obtain ⟨planning, answering, hlog, hcourse⟩ := course_of_runs hanswer
      exact ⟨planning, answering, hlog,
        hcourse.keepsProtocol (by simpa using hempty) (by simpa using hblank)⟩

end Asking

namespace Session

/-- The calls for a question are those of planning and then those of answering, and keep to the rules. -/
theorem ask_keepsProtocol (s : Session) (question : Text) (model : Option Model) (limit : Int)
    (turns : List Turn) : ∃ planning answering,
      s.exchanges question model limit turns = planning ++ answering ∧
      (s.ask question model limit turns).2.1 = (planning ++ answering).map (·.1) ∧
      Asking.KeepsProtocol s.current question model planning answering := by
  obtain ⟨planning, answering, hlog, hkeeps⟩ :=
    Asking.keepsProtocol_of_runs (s.runs_ask question model limit turns)
  exact ⟨planning, answering, hlog, by rw [← hlog, map_fst_exchanges], hkeeps⟩

/-- A model that is busy whenever it is asked first is asked twice for a plan and twice for an answer. -/
example : (after? (load {} ⟨["Note"], [.list ["x"]], []⟩)).map (fun s =>
    let busy : Turn := ⟨[], .error ⟨.overloaded, []⟩⟩
    let idle : Turn := ⟨[], .ok "?"⟩
    let calls := (s.ask "how many" (some ⟨some "other"⟩) 50 [busy, idle, busy, idle]).2.1
    calls.map fun (c : Call) => (c.stage, c.model)) =
    .ok [(Stage.planner, none), (Stage.planner, some "other"), (Stage.responder, none),
      (Stage.responder, some "other")] := by
  decide +kernel

end Session
end AskTable
