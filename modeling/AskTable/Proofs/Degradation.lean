import AskTable.Proofs.Questioning

/-! A model that is of no use. Where no reply of the model can be taken up and the model can be reached,
a question comes to what it comes to without a model. -/
namespace AskTable

/-- Whether a reply gives nothing that its stage could take up, without telling that there is no model. -/
def Exchange.isUseless (exchange : Exchange) : Bool :=
  match exchange.2, exchange.1.stage with
  | .error failure, _ => failure.kind ≠ .unavailable
  | .ok t, .planner => (Planning.planOfText? t).isNone
  | .ok t, .responder => (Answering.answerOfText? t).isNone

variable {s : Snapshot} {question q : Text} {m : Model} {limit : Int} {log : List Exchange}

namespace Planning

theorem ofReply_of_isUseless {c : Call} {r : Reply} (hstage : c.stage = .planner)
    (h : Exchange.isUseless (c, r) = true) : ofReply s q r = byRules s q false := by
  unfold Exchange.isUseless at h
  cases r with
  | error failure =>
    have hkind : failure.kind ≠ .unavailable := by simpa using h
    rw [ofReply, beq_eq_false_iff_ne.mpr hkind]
  | ok t =>
    rw [hstage] at h
    simp only [ofReply, Option.isNone_iff_eq_none.mp h]

theorem plan_of_isUseless {outcome : Except Fault Planned}
    (hrun : (plan s question (some m)).Runs log outcome)
    (h : ∀ exchange ∈ log, exchange.isUseless = true) : plan s question none = .done outcome := by
  unfold plan at hrun ⊢
  dsimp only at hrun ⊢
  split_ifs at hrun ⊢ with hblank
  · obtain ⟨-, rfl⟩ := Dialogue.runs_done_iff.mp hrun
    rfl
  · obtain ⟨r, hcalls, rfl⟩ := Dialogue.runs_bind_done_iff.mp hrun
    have hcalls := Dialogue.attempt_of_runs hcalls
    have hstage := hcalls.stage_eq .planner
    obtain ⟨before, c, rfl, -⟩ := hcalls.exists_last
    rw [ofReply_of_isUseless (hstage (c, r) (by simp)) (h (c, r) (by simp))]

end Planning

namespace Answering

theorem ofReply_of_isUseless {p : Plan} {result : Result} {c : Call} {r : Reply}
    (hstage : c.stage = .responder) (h : Exchange.isUseless (c, r) = true) :
    ofReply s p result r = manual s p result [] false := by
  unfold Exchange.isUseless at h
  cases r with
  | error failure =>
    have hkind : failure.kind ≠ .unavailable := by simpa using h
    simp [ofReply, hkind]
  | ok t =>
    rw [hstage] at h
    simp only [ofReply, Option.isNone_iff_eq_none.mp h]

theorem answer_of_isUseless {p : Plan} {result : Result} {note : Text}
    {outcome : Except Fault Answered}
    (hrun : (answer s question p result (some m) note limit).Runs log outcome)
    (h : ∀ exchange ∈ log, exchange.isUseless = true) :
    answer s question p result none note limit = .done outcome := by
  unfold answer at hrun ⊢
  dsimp only at hrun ⊢
  split_ifs at hrun with hskip
  · obtain ⟨-, rfl⟩ := Dialogue.runs_done_iff.mp hrun
    rfl
  · have hnote : note = [] := by
      cases note with
      | nil => rfl
      | cons c rest => simp at hskip
    subst hnote
    split at hrun
    · obtain ⟨-, rfl⟩ := Dialogue.runs_done_iff.mp hrun
      rfl
    · obtain ⟨first, second, r, rfl, hcalls, hdone⟩ := Dialogue.runs_bind_iff.mp hrun
      obtain ⟨rfl, rfl⟩ := Dialogue.runs_done_iff.mp hdone
      have hcalls := Dialogue.attempt_of_runs hcalls
      have hstage := hcalls.stage_eq .responder
      obtain ⟨before, c, rfl, -⟩ := hcalls.exists_last
      rw [ofReply_of_isUseless (hstage (c, r) (by simp)) (h (c, r) (by simp))]

end Answering

namespace Asking

variable {outcome : Except Fault Outcome}

theorem byPlan_of_isUseless {planned : Planned}
    (hrun : (byPlan s q (some m) limit planned).Runs log outcome)
    (h : ∀ exchange ∈ log, exchange.isUseless = true) :
    byPlan s q none limit planned = .done outcome := by
  unfold byPlan at hrun ⊢
  split_ifs at hrun ⊢ with hreach
  · obtain ⟨-, rfl⟩ := Dialogue.runs_done_iff.mp hrun
    rfl
  · cases hresult : s.execute planned.plan with
    | error fault =>
      rw [hresult] at hrun
      obtain ⟨-, rfl⟩ := Dialogue.runs_done_iff.mp hrun
      rfl
    | ok result =>
      rw [hresult] at hrun
      obtain ⟨answered, hanswer, rfl⟩ := Dialogue.runs_bind_done_iff.mp hrun
      dsimp only
      rw [Answering.answer_of_isUseless hanswer h]
      rfl

theorem planned_of_isUseless (hrun : (planned s q (some m) limit).Runs log outcome)
    (h : ∀ exchange ∈ log, exchange.isUseless = true) : planned s q none limit = .done outcome := by
  unfold planned at hrun ⊢
  obtain ⟨first, second, made, rfl, hplan, hrest⟩ := Dialogue.runs_bind_iff.mp hrun
  rw [Planning.plan_of_isUseless hplan fun e he => h e (List.mem_append_left _ he),
    Dialogue.bind_done]
  cases made with
  | error fault =>
    obtain ⟨-, rfl⟩ := Dialogue.runs_done_iff.mp hrest
    rfl
  | ok made => exact byPlan_of_isUseless hrest fun e he => h e (List.mem_append_right _ he)

theorem answer_of_isUseless (hrun : (answer s q (some m) limit).Runs log outcome)
    (h : ∀ exchange ∈ log, exchange.isUseless = true) : answer s q none limit = .done outcome := by
  unfold answer at hrun ⊢
  cases hfound : s.searchStrict q with
  | error fault =>
    rw [hfound] at hrun
    obtain ⟨-, rfl⟩ := Dialogue.runs_done_iff.mp hrun
    rfl
  | ok found =>
    rw [hfound] at hrun
    dsimp only at hrun ⊢
    split_ifs at hrun ⊢ with hnone
    · exact planned_of_isUseless hrun h
    · obtain ⟨answered, hanswer, rfl⟩ := Dialogue.runs_bind_done_iff.mp hrun
      rw [Answering.answer_of_isUseless hanswer h]
      rfl

/-- With a useless model, a question comes to what it comes to without one. -/
theorem outcome_of_isUseless {s : Option Snapshot} {outcome : Outcome}
    (hrun : (ask s question (some m) limit).Runs log outcome)
    (h : ∀ exchange ∈ log, exchange.isUseless = true) :
    ask s question none limit = .done outcome := by
  unfold ask at hrun ⊢
  cases s with
  | none =>
    obtain ⟨-, rfl⟩ := Dialogue.runs_done_iff.mp hrun
    rfl
  | some s =>
    dsimp only at hrun ⊢
    split_ifs at hrun ⊢ with hblank hempty
    · obtain ⟨-, rfl⟩ := Dialogue.runs_done_iff.mp hrun
      rfl
    · obtain ⟨-, rfl⟩ := Dialogue.runs_done_iff.mp hrun
      rfl
    · obtain ⟨made, hanswer, rfl⟩ := Dialogue.runs_bind_done_iff.mp hrun
      rw [answer_of_isUseless hanswer h]
      rfl

end Asking

namespace Session

/-- With a useless model, the outcome of a question is the one without a model. -/
theorem ask_of_isUseless (s : Session) (question : Text) (m : Model) (limit : Int) (turns : List Turn)
    (h : ∀ exchange ∈ (Asking.ask s.current question (some m) limit).exchanges takeTurn (turns, s),
      exchange.isUseless = true) :
    (s.ask question (some m) limit turns).1 = (s.ask question none limit []).1 := by
  have hask := Asking.outcome_of_isUseless (s.runs_ask question (some m) limit turns) h
  rw [s.ask_eq question none, hask, Dialogue.runWith]

/-- A model that is busy, then talks, and then is turned down. -/
def uselessTurns : List Turn :=
  [⟨[], .error ⟨.overloaded, "busy"⟩⟩, ⟨[], .ok "Let me think."⟩, ⟨[], .error ⟨.refused, "no"⟩⟩]

theorem ask_with_uselessTurns : ∃ s, load {} ⟨["Note"], [.list ["x"]], []⟩ = (.ok (), s) ∧
    (s.ask "show all" (some ⟨none⟩) 50 uselessTurns).2.1.length = 3 ∧
    (s.ask "show all" (some ⟨none⟩) 50 uselessTurns).1 = (s.ask "show all" none 50 []).1 := by
  obtain ⟨s, hs, hfacts⟩ := exists_load_of_run ⟨["Note"], [.list ["x"]], []⟩
    (fun s =>
      let calls := (s.ask "show all" (some ⟨none⟩) 50 uselessTurns).2.1
      calls.length == 3 && (calls.zip (uselessTurns.map Turn.reply)).all Exchange.isUseless) (by decide +kernel)
  rw [Bool.and_eq_true, beq_iff_eq] at hfacts
  obtain ⟨hlength, huseless⟩ := hfacts
  have huntouched : ∀ turn ∈ uselessTurns, turn.changes = [] := by simp [uselessTurns]
  have hexchanges := exchanges_eq_zip huntouched (Nat.le_of_eq hlength)
  rw [← hexchanges, List.all_eq_true] at huseless
  exact ⟨s, hs, hlength, ask_of_isUseless s _ _ _ _ huseless⟩

end Session
end AskTable
