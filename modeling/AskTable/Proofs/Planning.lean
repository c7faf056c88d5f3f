import AskTable.Proofs.Dialogue
import AskTable.Proofs.PlanDocument
import AskTable.Proofs.Rules

/-! Planning with and without a model. A reply of the right shape always makes a plan, and any other reply
leaves the question to the rules. -/
namespace AskTable

namespace Planning

variable {s : Snapshot} {question q : Text} {reply : Option Reply} {log : List Exchange}

/-- The last reply that came to a planning call. -/
def lastReply? (log : List Exchange) : Option Reply :=
  (log.filter fun exchange => exchange.1.stage = .planner).getLast?.map (·.2)

def isTakenUp : Option Reply → Bool
  | some (.ok t) => (planOfText? t).isSome
  | _ => false

/-- What planning comes to after a reply, or without any. -/
def made (s : Snapshot) (q : Text) : Option Reply → Except Fault Planned
  | none => byRules s q false
  | some r => ofReply s q r

theorem isShaped_of_planOfText? {t : Text} {entries : List (Value × Value)}
    (h : planOfText? t = some entries) : Plan.isShaped entries = true := by
  unfold planOfText? Json.readShaped at h
  cases hreply : Json.readReply t with
  | error fault => simp [hreply, Except.toOption] at h
  | ok found =>
    simp only [hreply] at h
    split_ifs at h with hshape
    · obtain rfl := Option.some.inj h
      exact hshape
    · cases h

/-- A reply that is taken up makes the plan of its canonical form. -/
theorem exists_plan_of_isTakenUp {r : Reply} (h : isTakenUp (some r) = true) :
    ∃ t entries, ∃ p : Plan, r = .ok t ∧ planOfText? t = some entries ∧
      Plan.canonical entries = .ok p.toValue ∧ p.IsWellFormed ∧
      ofReply s q r = .ok ⟨p, .model, none, false⟩ := by
  cases r with
  | error failure => cases h
  | ok t =>
    obtain ⟨entries, hplan⟩ := Option.isSome_iff_exists.mp h
    obtain ⟨p, hcanonical, hwell⟩ := Plan.canonical_of_isShaped (isShaped_of_planOfText? hplan)
    refine ⟨t, entries, p, rfl, hplan, hcanonical, hwell, ?_⟩
    simp only [ofReply, hplan, hcanonical]
    exact bind_eq_ok_iff.mpr ⟨_, rfl, bind_eq_ok_iff.mpr ⟨p, p.read_toValue, rfl⟩⟩

/-- Any other reply leaves the question to the rules. -/
theorem ofReply_eq_byRules {r : Reply} (h : isTakenUp (some r) = false) :
    ofReply s q r = byRules s q (Dialogue.isUnavailable r) := by
  cases r with
  | error failure => rfl
  | ok t =>
    have hplan : planOfText? t = none := by simpa [isTakenUp] using h
    simp only [ofReply, hplan, Dialogue.isUnavailable]

theorem succeeds_byRules_iff {unreachable : Bool} (hq : q.strip ≠ []) :
    Succeeds (byRules s q unreachable) ↔ Rule.CanPlan q.strip (some s) := by
  rw [byRules, Succeeds.map_iff, Rule.succeeds_find?_iff hq]

theorem succeeds_made_iff (hq : q.strip ≠ []) : Succeeds (made s q reply) ↔
    (isTakenUp reply = false → Rule.CanPlan q.strip (some s)) := by
  cases reply with
  | none => simp [made, isTakenUp, succeeds_byRules_iff hq]
  | some r =>
    cases htaken : isTakenUp (some r) with
    | false => simp [made, ofReply_eq_byRules htaken, succeeds_byRules_iff hq]
    | true =>
      obtain ⟨_, _, p, -, -, -, -, hreply⟩ := exists_plan_of_isTakenUp (s := s) (q := q) htaken
      simp [made, hreply]

theorem byRules_eq_ok_iff {unreachable : Bool} {planned : Planned} :
    byRules s q unreachable = .ok planned ↔ ∃ found, Rule.find? q (some s) = .ok found ∧
      planned = {
        plan := (found.map Prod.snd).getD {}
        source := if found.isSome then .rules else .default
        rule := found.map Prod.fst
        unreachable } := by
  rw [byRules, map_eq_ok_iff]
  refine exists_congr fun found => and_congr_right fun _ => ?_
  cases found <;> exact eq_comm

private theorem exists_fields_of_byRules {unreachable : Bool} {planned : Planned}
    (h : byRules s q unreachable = .ok planned) : ∃ items, planned.plan.fields = .list items := by
  obtain ⟨found, hfound, rfl⟩ := byRules_eq_ok_iff.mp h
  cases found with
  | none => exact ⟨[], rfl⟩
  | some found => exact Rule.exists_fields_of_find? hfound

/-- The fields of a plan that was made are a list. -/
theorem exists_fields_of_made {planned : Planned} (h : made s q reply = .ok planned) :
    ∃ items, planned.plan.fields = .list items := by
  cases reply with
  | none => exact exists_fields_of_byRules h
  | some r =>
    cases htaken : isTakenUp (some r) with
    | false => exact exists_fields_of_byRules ((ofReply_eq_byRules htaken).symm.trans h)
    | true =>
      obtain ⟨_, _, p, -, -, -, hwell, hreply⟩ := exists_plan_of_isTakenUp htaken
      obtain ⟨names, hfields, -⟩ := hwell.fields
      obtain rfl := Except.ok.inj (hreply.symm.trans h)
      exact ⟨names.map .text, hfields⟩

private theorem lastReply?_concat {before : List Exchange} {c : Call} {r : Reply}
    (h : ∀ exchange ∈ before ++ [(c, r)], exchange.1.stage = .planner) :
    lastReply? (before ++ [(c, r)]) = some r := by
  have hall : (before ++ [(c, r)]).filter (fun exchange => exchange.1.stage = .planner) =
      before ++ [(c, r)] := by
    rw [List.filter_eq_self]
    simpa using h
  rw [lastReply?, hall]
  simp

/-- What a run of planning comes to is made from the last reply. -/
theorem made_of_runs {outcome : Except Fault Planned} {model : Option Model} (hq : question.strip ≠ [])
    (hrun : (plan s question model).Runs log outcome) :
    outcome = made s question.strip (lastReply? log) ∧
      ∀ exchange ∈ log, exchange.1.stage = .planner := by
  unfold plan at hrun
  dsimp only at hrun
  rw [if_neg (by simpa using hq)] at hrun
  cases model with
  | none =>
    obtain ⟨rfl, rfl⟩ := Dialogue.runs_done_iff.mp hrun
    exact ⟨rfl, by simp⟩
  | some m =>
    obtain ⟨r, hcalls, rfl⟩ := Dialogue.runs_bind_done_iff.mp hrun
    have hcalls := Dialogue.attempt_of_runs hcalls
    have hstage := hcalls.stage_eq .planner
    obtain ⟨before, c, rfl, -⟩ := hcalls.exists_last
    rw [lastReply?_concat hstage]
    exact ⟨rfl, hstage⟩

end Planning
end AskTable
