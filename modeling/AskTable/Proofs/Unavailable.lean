import AskTable.Proofs.Protocol

/-! Questions for which the model could not be reached. They are answered from the table alone, the answer
says so, and where the records do not depend on the model it is otherwise the one without a model. -/
namespace AskTable

open Dialogue (isUnavailable)

/-- Exchanges that end with a reply that the model cannot be reached, the first of that kind. -/
structure Dialogue.BreaksOff (log before : List Exchange) (failing : Exchange) : Prop where
  log_eq : log = before ++ [failing]
  reachable : ∀ exchange ∈ before, isUnavailable exchange.2 = false
  failing : isUnavailable failing.2 = true

namespace Dialogue

variable {prompt system : Text} {alternate : Option Text} {log before : List Exchange}
  {failing : Exchange} {reply : Reply}

theorem Attempt.all_reachable (h : Attempt prompt system alternate log reply)
    (hreply : isUnavailable reply = false) : ∀ exchange ∈ log, isUnavailable exchange.2 = false := by
  obtain ⟨before, c, rfl, hbefore⟩ := h.exists_last
  intro exchange hexchange
  rcases List.mem_append.mp hexchange with hexchange | hexchange
  · exact hbefore exchange hexchange
  · obtain rfl := List.mem_singleton.mp hexchange
    exact hreply

theorem Attempt.breaksOff (stage : Stage) (h : Attempt prompt stage.instructions alternate log reply)
    (hreply : isUnavailable reply = true) :
    ∃ before failing, BreaksOff log before failing ∧ failing.1.stage = stage := by
  obtain ⟨before, c, hlog, hbefore⟩ := h.exists_last
  refine ⟨before, (c, reply), ⟨hlog, hbefore, hreply⟩, h.stage_eq stage (c, reply) ?_⟩
  simp [hlog]

theorem BreaksOff.append (h : BreaksOff log before failing) {first : List Exchange}
    (hfirst : ∀ exchange ∈ first, isUnavailable exchange.2 = false) :
    BreaksOff (first ++ log) (first ++ before) failing where
  log_eq := by rw [h.log_eq, List.append_assoc]
  reachable exchange hexchange :=
    (List.mem_append.mp hexchange).elim (hfirst exchange) (h.reachable exchange)
  failing := h.failing

/-- Where the exchanges break off is the only place at which the model is not reached. -/
theorem BreaksOff.unique (h : BreaksOff log before failing) {first rest : List Exchange}
    {other : Exchange} (hlog : log = first ++ other :: rest) (hother : isUnavailable other.2 = true) :
    other = failing ∧ rest = [] := by
  have heq : before ++ [failing] = first ++ other :: rest := h.log_eq.symm.trans hlog
  -- With anything after it, the exchange would be one of those before the last.
  rcases List.eq_nil_or_concat' rest with rfl | ⟨front, last, rfl⟩
  · have hlast := congrArg List.getLast? heq
    simp only [List.getLast?_concat, Option.some.injEq] at hlast
    exact ⟨hlast.symm, rfl⟩
  · have hbefore := congrArg List.dropLast heq
    rw [List.dropLast_concat, ← List.cons_append, ← List.append_assoc, List.dropLast_concat] at hbefore
    have hmem : other ∈ before := by simp [hbefore]
    rw [h.reachable other hmem] at hother
    cases hother

end Dialogue

open Dialogue (BreaksOff)

namespace Result

variable {s : Snapshot} {p : Plan} {r : Result} {note t : Text}

/-- A note changes nothing of an answer but stands before it. -/
theorem answer_eq_ok_iff : r.answer s p note = .ok t ↔
    ∃ plain, r.answer s p [] = .ok plain ∧ t = Report.noted note plain := by
  have hplain (plain : Text) : Report.noted [] plain = plain := rfl
  simp only [answer, map_eq_ok_iff, hplain]
  constructor
  · intro h
    obtain ⟨plain, hplain, rfl⟩ := h
    exact ⟨plain, ⟨plain, hplain, rfl⟩, rfl⟩
  · intro h
    obtain ⟨plain, ⟨_, hplain, rfl⟩, rfl⟩ := h
    exact ⟨_, hplain, rfl⟩

end Result

namespace Answering

variable {s : Snapshot} {question : Text} {p : Plan} {r : Result} {model : Option Model} {limit : Int}
  {log : List Exchange} {reply : Reply} {a : Answered}

theorem manual_eq_ok_iff {note : Text} {unreachable : Bool} :
    manual s p r note unreachable = .ok a ↔
      ∃ plain, r.answer s p [] = .ok plain ∧
        a = ⟨Report.noted note plain, .manual, unreachable⟩ := by
  rw [manual, map_eq_ok_iff]
  constructor
  · intro h
    obtain ⟨t, ht, rfl⟩ := h
    obtain ⟨plain, hplain, rfl⟩ := Result.answer_eq_ok_iff.mp ht
    exact ⟨plain, hplain, rfl⟩
  · intro h
    obtain ⟨plain, hplain, rfl⟩ := h
    exact ⟨_, Result.answer_eq_ok_iff.mpr ⟨plain, hplain, rfl⟩, rfl⟩

theorem unreachable_of_ofReply (h : ofReply s p r reply = .ok a) :
    a.unreachable = isUnavailable reply := by
  cases reply with
  | error failure =>
    unfold ofReply at h
    dsimp only at h
    split_ifs at h with hkind
    · obtain ⟨plain, -, rfl⟩ := manual_eq_ok_iff.mp h
      simp [isUnavailable, hkind]
    · obtain ⟨plain, -, rfl⟩ := manual_eq_ok_iff.mp h
      simp [isUnavailable, hkind]
  | ok t =>
    unfold ofReply at h
    dsimp only at h
    cases hanswer : answerOfText? t with
    | none =>
      rw [hanswer] at h
      obtain ⟨plain, -, rfl⟩ := manual_eq_ok_iff.mp h
      rfl
    | some answer =>
      rw [hanswer] at h
      obtain rfl := Except.ok.inj h
      rfl

theorem answer_of_isUnavailable (hreply : isUnavailable reply = true)
    (h : ofReply s p r reply = .ok a) :
    ∃ plain, r.answer s p [] = .ok plain ∧ a.answer = Report.noted Report.unavailableNote plain := by
  cases reply with
  | ok t => cases hreply
  | error failure =>
    have hkind : failure.kind = .unavailable := by simpa [isUnavailable] using hreply
    rw [ofReply, if_pos hkind] at h
    obtain ⟨plain, hplain, rfl⟩ := manual_eq_ok_iff.mp h
    exact ⟨plain, hplain, rfl⟩

/-- An answer was made with the model in reach all the time, or is the plain one after the note. -/
theorem runs_answer_ok (hrun : (answer s question p r model [] limit).Runs log (.ok a)) :
    (a.unreachable = false ∧ ∀ exchange ∈ log, isUnavailable exchange.2 = false) ∨
    (a.unreachable = true ∧ ∃ before failing plain, BreaksOff log before failing ∧
      failing.1.stage = .responder ∧ r.answer s p [] = .ok plain ∧
      a.answer = Report.noted Report.unavailableNote plain) := by
  obtain ⟨rfl, hmanual, -⟩ | ⟨m, prompt, reply, -, -, -, -, hcalls, hreply⟩ := runs_answer_cases hrun
  · obtain ⟨plain, -, rfl⟩ := manual_eq_ok_iff.mp hmanual.symm
    exact .inl ⟨rfl, by simp⟩
  · have hreach := unreachable_of_ofReply hreply.symm
    cases hlost : isUnavailable reply with
    | false => exact .inl ⟨hreach.trans hlost, hcalls.all_reachable hlost⟩
    | true =>
      obtain ⟨before, failing, hbreaks, hstage⟩ := hcalls.breaksOff .responder hlost
      obtain ⟨plain, hplain, hanswer⟩ := answer_of_isUnavailable hlost hreply.symm
      exact .inr ⟨hreach.trans hlost, before, failing, plain, hbreaks, hstage, hplain, hanswer⟩

end Answering

namespace Asking

variable {s : Snapshot} {question q message : Text} {model : Option Model} {limit : Int} {route : Route}
  {planning answering : List Exchange} {outcome : Except Fault Outcome} {planned : Planned}

theorem locally_eq_ok (h : locally s q planned = .ok (.success message route)) :
    route = .localFallback ∧ ∃ p r plain, r.answer s p [] = .ok plain ∧
      message = Report.noted Report.unavailableNote plain ∧
      (planned.rule.any (· ≠ .genericList) = true → s.execute planned.plan = .ok r ∧ p = planned.plan) := by
  have hanswered {p : Plan} {r : Result}
      (h : (r.answer s p Report.unavailableNote).map (fun t => Outcome.success t .localFallback) =
        .ok (.success message route)) :
      route = .localFallback ∧ ∃ plain, r.answer s p [] = .ok plain ∧
        message = Report.noted Report.unavailableNote plain := by
    obtain ⟨t, ht, heq⟩ := map_eq_ok_iff.mp h
    obtain ⟨rfl, rfl⟩ := Outcome.success.inj heq
    exact ⟨rfl, Result.answer_eq_ok_iff.mp ht⟩
  unfold locally at h
  dsimp only at h
  split_ifs at h with hrule hnone
  · obtain ⟨r, hr, h⟩ := bind_eq_ok_iff.mp h
    obtain ⟨hroute, plain, hplain, hmessage⟩ := hanswered h
    exact ⟨hroute, _, r, plain, hplain, hmessage, fun _ => ⟨hr, rfl⟩⟩
  · obtain ⟨r, hr, h⟩ := bind_eq_ok_iff.mp h
    obtain ⟨hroute, plain, hplain, hmessage⟩ := hanswered h
    exact ⟨hroute, _, r, plain, hplain, hmessage, fun hany => absurd hany hrule⟩
  · obtain ⟨hroute, plain, hplain, hmessage⟩ := hanswered h
    exact ⟨hroute, _, _, plain, hplain, hmessage, fun hany => absurd hany hrule⟩

/-- Whether the records for the answer are picked out without the model, although a call failed: by the
strict search, or by a rule of its own for the question. -/
def PicksAlone (s : Snapshot) (q : Text) (failing : Exchange) : Prop :=
  (∃ found, s.searchStrict q = .ok found ∧ found.hits ≠ []) ∨
  (failing.1.stage = .planner ∧
    ∃ rule p, Rule.find? q (some s) = .ok (some (rule, p)) ∧ rule ≠ .genericList)

/-- Without a model, what the strict search finds is answered in plain words. -/
theorem answer_none_of_found {found : Finding} {plain : Text} (hsearch : s.searchStrict q = .ok found)
    (hhits : found.hits ≠ []) (hplain : found.result.answer s found.plan [] = .ok plain) :
    answer s q none limit = .done (.ok (.success plain .index)) := by
  have hmanual : Answering.manual s found.plan found.result [] false = .ok ⟨plain, .manual, false⟩ :=
    Answering.manual_eq_ok_iff.mpr ⟨plain, hplain, rfl⟩
  unfold answer
  rw [hsearch]
  dsimp only
  rw [if_neg (by simpa using hhits), Answering.answer, hmanual]
  rfl

/-- Without a model, the plan of a rule is carried out and answered in plain words. -/
theorem answer_none_of_rule {found : Option (Rule × Plan)} {p : Plan} {r : Result} {plain : Text}
    (hq : q.strip ≠ []) (hnone : FindsNothing s q) (hrule : Rule.find? q.strip (some s) = .ok found)
    (hp : (found.map (·.2)).getD {} = p) (hresult : s.execute p = .ok r)
    (hplain : r.answer s p [] = .ok plain) :
    answer s q none limit = .done (.ok (.success plain .planner)) := by
  obtain ⟨finding, hsearch, hempty⟩ := hnone
  have hmade : ∃ source rule, Planning.byRules s q.strip false = .ok ⟨p, source, rule, false⟩ :=
    ⟨_, _, Planning.byRules_eq_ok_iff.mpr ⟨found, hrule, by rw [← hp]⟩⟩
  obtain ⟨source, rule, hmade⟩ := hmade
  have hplan : Planning.plan s q none = .done (.ok ⟨p, source, rule, false⟩) := by
    unfold Planning.plan
    dsimp only
    rw [if_neg (by simpa using hq), hmade]
  have hmanual : Answering.manual s p r [] false = .ok ⟨plain, .manual, false⟩ :=
    Answering.manual_eq_ok_iff.mpr ⟨plain, hplain, rfl⟩
  unfold answer
  rw [hsearch]
  dsimp only
  rw [if_pos (by simpa using hempty), Asking.planned, hplan, Dialogue.bind_done]
  dsimp only
  rw [byPlan, if_neg (by simp)]
  dsimp only
  rw [hresult]
  dsimp only
  rw [Answering.answer, hmanual]
  rfl

/-- What becomes of a question that is answered although the model was lost: the answer is the plain one
after the note, and the plain one is that without a model where the records are picked alone. -/
structure IsAnsweredAlone (s : Snapshot) (q : Text) (limit : Int) (log : List Exchange)
    (message : Text) (route : Route) (before : List Exchange) (failing : Exchange) (plain : Text) :
    Prop where
  breaksOff : BreaksOff log before failing
  route_eq : route = .localFallback
  message_eq : message = Report.noted Report.unavailableNote plain
  picked : PicksAlone s q failing →
    ∃ other, answer s q none limit = .done (.ok (.success plain other))

theorem not_hits_of_findsNothing (hnone : FindsNothing s q) :
    ¬ ∃ found, s.searchStrict q = .ok found ∧ found.hits ≠ [] := by
  obtain ⟨finding, hsearch, hempty⟩ := hnone
  intro h
  obtain ⟨found, hfound, hhits⟩ := h
  obtain rfl := Except.ok.inj (hsearch.symm.trans hfound)
  exact hhits hempty

theorem isAnsweredAlone_of_locally (hq : q.strip ≠ []) (hnone : FindsNothing s q)
    (hplan : (Planning.plan s q model).Runs planning (.ok planned))
    (hreach : planned.unreachable = true)
    (h : locally s q planned = .ok (.success message route)) :
    ∃ before failing plain, IsAnsweredAlone s q limit planning message route before failing plain := by
  obtain ⟨-, -, hmade⟩ | ⟨m, reply, -, hcalls, hmade⟩ := Planning.runs_plan_cases hq hplan
  · rw [Planning.unreachable_of_byRules hmade.symm] at hreach
    cases hreach
  · rw [Planning.unreachable_of_ofReply hmade.symm] at hreach
    obtain ⟨before, failing, hbreaks, -⟩ := hcalls.breaksOff .planner hreach
    obtain ⟨hroute, p, r, plain, hplain, hmessage, hexecute⟩ := locally_eq_ok h
    refine ⟨before, failing, plain, hbreaks, hroute, hmessage, fun hpicks => ?_⟩
    obtain hhits | ⟨-, rule, p', hrule, hspecific⟩ := hpicks
    · exact absurd hhits (not_hits_of_findsNothing hnone)
    · have hfind : Rule.find? q.strip (some s) = .ok (some (rule, p')) := by
        rw [← hrule, Rule.find?, Text.strip_strip, Rule.find?]
      cases reply with
      | ok t => cases hreach
      | error failure =>
        rw [Planning.ofReply, Planning.byRules, hfind] at hmade
        obtain rfl := Except.ok.inj hmade
        obtain ⟨hresult, rfl⟩ := hexecute (by simpa using hspecific)
        exact ⟨.planner, answer_none_of_rule hq hnone hfind rfl hresult hplain⟩

/-- A question that is answered was answered with the model in reach all the time, or alone. -/
theorem Course.success_cases (hq : q.strip ≠ [])
    (h : Course s q model limit planning answering (.ok (.success message route))) :
    (route ≠ .localFallback ∧
      ∀ exchange ∈ planning ++ answering, isUnavailable exchange.2 = false) ∨
    ∃ before failing plain, IsAnsweredAlone s q limit (planning ++ answering) message route before
      failing plain := by
  generalize houtcome : Except.ok (Outcome.success message route) = outcome at h
  cases h with
  | unsearched | unexecuted => cases houtcome
  | unplanned => cases houtcome
  | found hsearch hhits hrun =>
    obtain ⟨a, rfl, heq⟩ := map_eq_ok_iff.mp houtcome.symm
    obtain ⟨rfl, rfl⟩ := Outcome.success.inj heq
    obtain ⟨hreach, hall⟩ | ⟨hreach, before, failing, plain, hbreaks, -, hplain, hanswer⟩ :=
      Answering.runs_answer_ok hrun
    · exact .inl ⟨by simp [hreach], hall⟩
    · exact .inr ⟨before, failing, plain, hbreaks, by simp [hreach], hanswer,
        fun _ => ⟨.index, answer_none_of_found hsearch hhits hplain⟩⟩
  | cutOff hnone hplan hreach =>
    rw [List.append_nil]
    exact .inr (isAnsweredAlone_of_locally hq hnone hplan hreach houtcome.symm)
  | executed hnone hplan hkept hresult hrun =>
    obtain ⟨a, rfl, heq⟩ := map_eq_ok_iff.mp houtcome.symm
    obtain ⟨rfl, rfl⟩ := Outcome.success.inj heq
    have hplanning : ∀ exchange ∈ planning, isUnavailable exchange.2 = false := by
      obtain ⟨-, rfl, -⟩ | ⟨m, reply, -, hcalls, hmade⟩ := Planning.runs_plan_cases hq hplan
      · simp
      · rw [Planning.unreachable_of_ofReply hmade.symm] at hkept
        exact hcalls.all_reachable hkept
    obtain ⟨hreach, hall⟩ | ⟨hreach, before, failing, plain, hbreaks, hstage, -, hanswer⟩ :=
      Answering.runs_answer_ok hrun
    · refine .inl ⟨by simp [hreach], fun exchange hexchange => ?_⟩
      exact (List.mem_append.mp hexchange).elim (hplanning exchange) (hall exchange)
    · refine .inr ⟨_, failing, plain, hbreaks.append hplanning, by simp [hreach], hanswer, ?_⟩
      intro hpicks
      obtain hhits | ⟨hplanner, -⟩ := hpicks
      · exact absurd hhits (not_hits_of_findsNothing hnone)
      · rw [hstage] at hplanner
        cases hplanner

theorem isAnsweredAlone_of_runs {log : List Exchange} (hrecords : s.records ≠ [])
    (hq : question.strip ≠ [])
    (hrun : (ask (some s) question model limit).Runs log (.success message route)) :
    (route ≠ .localFallback ∧ ∀ exchange ∈ log, isUnavailable exchange.2 = false) ∨
    ∃ before failing plain,
      IsAnsweredAlone s question.strip limit log message route before failing plain := by
  unfold ask at hrun
  dsimp only at hrun
  rw [if_neg (by simpa using hq), if_neg (by simpa using hrecords)] at hrun
  obtain ⟨made, hanswer, hmade⟩ := Dialogue.runs_bind_done_iff.mp hrun
  cases made with
  | error fault => cases hmade
  | ok outcome =>
    obtain rfl : Outcome.success message route = outcome := hmade
    obtain ⟨planning, answering, rfl, hcourse⟩ := course_of_runs hanswer
    exact hcourse.success_cases (by rwa [Text.strip_strip])

end Asking

namespace Session

/-- A question that is answered goes to the table alone exactly if the model was lost. No call follows that
loss, the answer begins with a note of it, and if the records were picked alone the rest is the answer
without a model. -/
theorem ask_without_connection {s : Session} {loaded : Snapshot} {question message : Text}
    {route : Route} (hs : s.current = some loaded) (hrecords : loaded.records ≠ [])
    (hq : question.strip ≠ []) (model : Option Model) (limit : Int) (turns : List Turn)
    (hsuccess : (s.ask question model limit turns).1 = .success message route) :
    (route = .localFallback ↔
      ∃ exchange ∈ s.exchanges question model limit turns, isUnavailable exchange.2 = true) ∧
    ∀ before failing after,
      s.exchanges question model limit turns = before ++ failing :: after →
      isUnavailable failing.2 = true →
      after = [] ∧ Report.unavailableNote <+: message ∧
      (Asking.PicksAlone loaded question.strip failing →
        ∃ plain other, (s.ask question none limit turns).1 = .success plain other ∧
          message = Report.unavailableNote ++ "\n\n" ++ plain) := by
  have hrun := s.runs_ask question model limit turns
  rw [hsuccess, hs] at hrun
  obtain ⟨hroute, hall⟩ | ⟨first, lost, plain, halone⟩ :=
    Asking.isAnsweredAlone_of_runs hrecords hq hrun
  · constructor
    · refine iff_of_false hroute fun hlost => ?_
      obtain ⟨exchange, hexchange, hlost⟩ := hlost
      rw [hall exchange hexchange] at hlost
      cases hlost
    · intro before failing after hlog hfailing
      have hmem : failing ∈ s.exchanges question model limit turns := by simp [hlog]
      rw [hall failing hmem] at hfailing
      cases hfailing
  · have hbreaks := halone.breaksOff
    have hmessage : message = Report.unavailableNote ++ "\n\n" ++ plain := halone.message_eq
    constructor
    · refine iff_of_true halone.route_eq ⟨lost, ?_, hbreaks.failing⟩
      simp [hbreaks.log_eq]
    · intro before failing after hlog hfailing
      obtain ⟨rfl, rfl⟩ := hbreaks.unique hlog hfailing
      refine ⟨rfl, ?_, fun hpicks => ?_⟩
      · rw [hmessage, List.append_assoc]
        exact List.prefix_append _ _
      · obtain ⟨other, hother⟩ := halone.picked hpicks
        refine ⟨plain, other, ?_, hmessage⟩
        have hask : Asking.ask s.current question none limit = .done (.success plain other) := by
          rw [hs, Asking.ask, if_neg (by simpa using hq), if_neg (by simpa using hrecords), hother]
          rfl
        rw [ask_eq, hask]
        rfl

def lostTurns : List Turn :=
  [⟨[], .error ⟨.overloaded, "busy"⟩⟩, ⟨[], .error ⟨.unavailable, "no route"⟩⟩]

theorem ask_with_lostTurns : ∃ s loaded message, load {} ⟨["Note"], [.list ["x"]], []⟩ = (.ok (), s) ∧
    s.current = some loaded ∧ loaded.records ≠ [] ∧ Text.strip "how many" ≠ [] ∧
    (s.ask "how many" (some ⟨none⟩) 50 lostTurns).1 = .success message .localFallback ∧
    ∃ plain other, (s.ask "how many" none 50 lostTurns).1 = .success plain other ∧
      message = Report.unavailableNote ++ "\n\n" ++ plain := by
  obtain ⟨s, hs, hrun⟩ := exists_load_of_run ⟨["Note"], [.list ["x"]], []⟩
    (fun s => s.current.any fun loaded =>
      !loaded.records.isEmpty &&
      (s.ask "how many" (some ⟨none⟩) 50 lostTurns).1 == Outcome.success (Text.concat
        [Report.unavailableNote, "\n\n", "Found 1 record where Note is not empty."])
        Route.localFallback &&
      (s.ask "how many" (some ⟨none⟩) 50 lostTurns).2.1.all (fun c => c.stage == Stage.planner) &&
      (Rule.find? (Text.strip "how many") (some loaded)).map (fun found =>
        found.any fun picked => picked.1 != Rule.genericList) == Except.ok true) (by decide +kernel)
  obtain ⟨loaded, hloaded, hfacts⟩ := (Option.any_eq_true _ _).mp hrun
  simp only [Bool.and_eq_true, beq_iff_eq] at hfacts
  obtain ⟨⟨⟨hrecords, hsuccess⟩, hplanner⟩, hpicked⟩ := hfacts
  obtain ⟨found, hfound, hrule⟩ := map_eq_ok_iff.mp hpicked
  obtain ⟨⟨rule, p⟩, rfl, hspecific⟩ := (Option.any_eq_true _ _).mp hrule
  have hrecords : loaded.records ≠ [] := by simpa using hrecords
  have hq : Text.strip "how many" ≠ [] := by decide
  obtain ⟨hlost, hnoted⟩ := ask_without_connection hloaded hrecords hq _ _ _ hsuccess
  obtain ⟨failing, hfailing, hunavailable⟩ := hlost.mp rfl
  obtain ⟨before, after, hlog⟩ := List.append_of_mem hfailing
  have hstage : failing.1.stage = .planner := by
    have hcall : failing.1 ∈ (s.exchanges "how many" (some ⟨none⟩) 50 lostTurns).map (·.1) :=
      List.mem_map_of_mem hfailing
    rw [map_fst_exchanges] at hcall
    simpa using List.all_eq_true.mp hplanner failing.1 hcall
  obtain ⟨plain, other, hplain, hmessage⟩ := (hnoted before failing after hlog hunavailable).2.2
    (.inr ⟨hstage, rule, p, hfound, by simpa using hspecific⟩)
  exact ⟨s, loaded, _, hs, hloaded, hrecords, hq, hsuccess, plain, other, hplain, hmessage⟩

end Session
end AskTable
