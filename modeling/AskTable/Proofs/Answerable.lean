import AskTable.Proofs.Feasible
import AskTable.Proofs.Planning
import AskTable.Proofs.Questioning

/-! When a question about loaded records has an answer. An answer is made from any result; what can fail is
the reading of a number, a date or an order that the question, the plan or the records lead to. -/
namespace AskTable

def Outcome.isSuccess : Outcome → Bool
  | .success .. => true
  | .failure .. => false

theorem Outcome.isSuccess_orFault_map {α : Type} {x : Except Fault α} {f : α → Outcome}
    (hf : ∀ a, (f a).isSuccess = true) : (orFault (x.map f)).isSuccess = true ↔ Succeeds x := by
  cases x with
  | error fault => simp [Except.map, orFault, ofFault, isSuccess]
  | ok a => simp [Except.map, orFault, hf]

theorem Snapshot.mem_columns_of_mem_columnsFor {s : Snapshot} {names : List Text} {column : Text}
    (h : column ∈ s.columnsFor names) : column ∈ s.columns := by
  unfold columnsFor at h
  dsimp only at h
  split_ifs at h with hnone
  · exact h
  · obtain ⟨name, -, hmeant⟩ := List.mem_filterMap.mp (List.mem_eraseDups.mp h)
    exact Field.mem_of_resolve? hmeant

namespace Result

variable {s : Snapshot} {p : Plan} {r : Result} {note : Text}

theorem succeeds_droppedLine (r : Result) : Succeeds r.report.droppedLine := by
  have hread : Succeeds ((r.dropped.map fun f => Value.dict f.members).mapM Filter.read) := by
    refine succeeds_mapM_iff.mpr fun v hv => ?_
    obtain ⟨f, -, rfl⟩ := List.mem_map.mp hv
    exact .ok
  have helements : r.report.dropped.elements = .ok (r.dropped.map fun f => .dict f.members) :=
    Value.elements_list _
  obtain ⟨filters, hfilters⟩ := hread
  exact Succeeds.bind_iff.mpr ⟨_, helements, Succeeds.bind_iff.mpr ⟨filters, hfilters, .pure⟩⟩

/-- From any result an answer can be made, whatever list of fields is to be shown. -/
theorem succeeds_answer (h : ∃ items, p.fields = .list items) : Succeeds (r.answer s p note) := by
  obtain ⟨items, hitems⟩ := h
  have hnames : Succeeds p.fieldNames := by
    rw [Plan.fieldNames, Plan.namesOf, hitems, Value.elements_list]
    exact .ok
  rw [answer, Succeeds.map_iff]
  unfold Report.answer
  dsimp only
  split
  · exact Succeeds.map_iff.mpr r.succeeds_droppedLine
  · split
    · exact .ok
    · exact Succeeds.map_iff.mpr (Succeeds.map_iff.mpr hnames)
    · exact Succeeds.map_iff.mpr (Succeeds.map_iff.mpr hnames)
    · exact Succeeds.map_iff.mpr (Succeeds.map_iff.mpr hnames)

end Result

namespace Answering

variable {s : Snapshot} {question : Text} {p : Plan} {r : Result} {model : Option Model} {note : Text}
  {limit : Int} {log : List Exchange}

theorem succeeds_manual {unreachable : Bool} (h : ∃ items, p.fields = .list items) :
    Succeeds (manual s p r note unreachable) :=
  Succeeds.map_iff.mpr (Result.succeeds_answer h)

theorem succeeds_ofReply {reply : Reply} (h : ∃ items, p.fields = .list items) :
    Succeeds (ofReply s p r reply) := by
  cases reply with
  | error failure =>
    unfold ofReply
    dsimp only
    split_ifs
    · exact succeeds_manual h
    · exact succeeds_manual h
  | ok t =>
    unfold ofReply
    dsimp only
    cases answerOfText? t with
    | none => exact succeeds_manual h
    | some answer => exact .ok

/-- Whatever the model replies, there is an answer. -/
theorem succeeds_of_runs {outcome : Except Fault Answered} (h : ∃ items, p.fields = .list items)
    (hrun : (answer s question p r model note limit).Runs log outcome) :
    Succeeds outcome ∧ ∀ exchange ∈ log, exchange.1.stage = .responder := by
  unfold answer at hrun
  cases model with
  | none =>
    obtain ⟨rfl, rfl⟩ := Dialogue.runs_done_iff.mp hrun
    exact ⟨succeeds_manual h, by simp⟩
  | some m =>
    dsimp only at hrun
    split_ifs at hrun
    · obtain ⟨rfl, rfl⟩ := Dialogue.runs_done_iff.mp hrun
      exact ⟨succeeds_manual h, by simp⟩
    · split at hrun
      · obtain ⟨rfl, rfl⟩ := Dialogue.runs_done_iff.mp hrun
        exact ⟨succeeds_manual h, by simp⟩
      · obtain ⟨reply, hcalls, rfl⟩ := Dialogue.runs_bind_done_iff.mp hrun
        exact ⟨succeeds_ofReply h, (Dialogue.attempt_of_runs hcalls).stage_eq .responder⟩

end Answering

namespace Asking

variable {s : Snapshot} {question q : Text} {model : Option Model} {limit : Int} {log : List Exchange}
  {planned : Planned} {outcome : Except Fault Outcome}

/-- Whether the plan that was made is carried out: not where the model could not be reached and the words
of the question find records. -/
def needsPlan (s : Snapshot) (q : Text) (planned : Planned) : Bool :=
  !planned.unreachable || planned.rule.any (· ≠ .genericList) || (s.searchLoose q).hits.isEmpty

theorem isSuccess_locally_iff (h : ∃ items, planned.plan.fields = .list items)
    (hreach : planned.unreachable = true) :
    (Outcome.orFault (locally s q planned)).isSuccess = true ↔
      (needsPlan s q planned = true → s.CanExecute planned.plan) := by
  have hplanned : (Outcome.orFault ((s.execute planned.plan).bind fun r =>
      (r.answer s planned.plan Report.unavailableNote).map (.success · .localFallback))).isSuccess =
        true ↔ s.CanExecute planned.plan := by
    rw [← Snapshot.succeeds_execute_iff]
    cases s.execute planned.plan with
    | error fault => simp [Except.bind, Outcome.orFault, Outcome.ofFault, Outcome.isSuccess]
    | ok r =>
      refine iff_of_true ?_ .ok
      exact (Outcome.isSuccess_orFault_map fun _ => rfl).mpr (Result.succeeds_answer h)
  unfold locally
  dsimp only
  split_ifs with hrule hnone
  · have hneeds : needsPlan s q planned = true := by simp only [needsPlan, hrule, Bool.or_true, Bool.true_or]
    simpa only [hneeds, forall_const] using hplanned
  · have hneeds : needsPlan s q planned = true := by simp only [needsPlan, hnone, Bool.or_true]
    simpa only [hneeds, forall_const] using hplanned
  · rw [Bool.not_eq_true] at hrule hnone
    have hneeds : needsPlan s q planned = false := by
      simp only [needsPlan, hreach, hrule, hnone, Bool.not_true, Bool.or_false]
    refine iff_of_true ?_ (by simp [hneeds])
    exact (Outcome.isSuccess_orFault_map fun _ => rfl).mpr (Result.succeeds_answer ⟨[], rfl⟩)

theorem isSuccess_byPlan_iff (h : ∃ items, planned.plan.fields = .list items)
    (hrun : (byPlan s q model limit planned).Runs log outcome) :
    ((Outcome.orFault outcome).isSuccess = true ↔
      (needsPlan s q planned = true → s.CanExecute planned.plan)) ∧
    ∀ exchange ∈ log, exchange.1.stage = .responder := by
  unfold byPlan at hrun
  split_ifs at hrun with hreach
  · obtain ⟨rfl, rfl⟩ := Dialogue.runs_done_iff.mp hrun
    exact ⟨isSuccess_locally_iff h hreach, by simp⟩
  · have hneeds : needsPlan s q planned = true := by simp [needsPlan, hreach]
    simp only [hneeds, forall_const, ← Snapshot.succeeds_execute_iff]
    cases hresult : s.execute planned.plan with
    | error fault =>
      rw [hresult] at hrun
      obtain ⟨rfl, rfl⟩ := Dialogue.runs_done_iff.mp hrun
      simp [Outcome.orFault, Outcome.ofFault, Outcome.isSuccess]
    | ok result =>
      rw [hresult] at hrun
      obtain ⟨answered, hanswer, rfl⟩ := Dialogue.runs_bind_done_iff.mp hrun
      obtain ⟨hanswered, hstage⟩ := Answering.succeeds_of_runs h hanswer
      refine ⟨iff_of_true ?_ .ok, hstage⟩
      exact (Outcome.isSuccess_orFault_map fun _ => rfl).mpr hanswered

/-- Whether the strict search can be made and finds no record. -/
def FindsNothing (s : Snapshot) (q : Text) : Prop :=
  ∃ found, s.searchStrict q = .ok found ∧ found.hits = []

end Asking

/-- Whether a question about records has an answer, given the last reply to a planning call: the strict
search can be made, and where it finds nothing, a plan can be made and, if it is needed, carried out. -/
structure Snapshot.CanAnswer (s : Snapshot) (q : Text) (reply : Option Reply) : Prop where
  search : s.CanSearch q
  plan : Asking.FindsNothing s q → Planning.isTakenUp reply = false → Rule.CanPlan q (some s)
  execute : Asking.FindsNothing s q → ∀ planned, Planning.made s q reply = .ok planned →
    Asking.needsPlan s q planned = true → s.CanExecute planned.plan

namespace Planning

private theorem lastReply?_append {first second : List Exchange}
    (h : ∀ exchange ∈ second, exchange.1.stage = .responder) :
    lastReply? (first ++ second) = lastReply? first := by
  have hnone : second.filter (fun exchange => exchange.1.stage = .planner) = [] := by
    rw [List.filter_eq_nil_iff]
    intro exchange hexchange
    simp [h exchange hexchange]
  rw [lastReply?, List.filter_append, hnone, List.append_nil, lastReply?]

end Planning

namespace Asking

variable {s : Snapshot} {question q : Text} {model : Option Model} {limit : Int} {log : List Exchange}

theorem isSuccess_planned_iff {outcome : Except Fault Outcome} (hstrip : q.strip = q) (hq : q ≠ [])
    (hrun : (planned s q model limit).Runs log outcome) :
    (Outcome.orFault outcome).isSuccess = true ↔
      (Planning.isTakenUp (Planning.lastReply? log) = false → Rule.CanPlan q (some s)) ∧
      ∀ planned, Planning.made s q (Planning.lastReply? log) = .ok planned →
        needsPlan s q planned = true → s.CanExecute planned.plan := by
  obtain ⟨first, second, made, rfl, hplan, hrest⟩ := Dialogue.runs_bind_iff.mp hrun
  have hmade := (Planning.made_of_runs (by rwa [hstrip]) hplan).1
  have hmakes : Succeeds (Planning.made s q.strip (Planning.lastReply? first)) ↔
      (Planning.isTakenUp (Planning.lastReply? first) = false → Rule.CanPlan q.strip.strip (some s)) :=
    Planning.succeeds_made_iff (by rwa [hstrip, hstrip])
  rw [hstrip] at hmade
  rw [hstrip, hstrip, ← hmade] at hmakes
  cases made with
  | error fault =>
    obtain ⟨rfl, rfl⟩ := Dialogue.runs_done_iff.mp hrest
    rw [List.append_nil, ← hmade, ← hmakes]
    refine iff_of_false ?_ fun h => absurd h.1 Succeeds.not_error
    simp [Outcome.orFault, Outcome.notUnderstood, Outcome.isSuccess]
  | ok planned =>
    obtain ⟨hsuccess, hstage⟩ := isSuccess_byPlan_iff (Planning.exists_fields_of_made hmade.symm) hrest
    rw [hsuccess, Planning.lastReply?_append hstage, ← hmade, ← hmakes]
    simp

/-- A trimmed question is answered exactly if it can be, whoever replies. -/
theorem isSuccess_answer_iff {outcome : Except Fault Outcome} (hstrip : q.strip = q) (hq : q ≠ [])
    (hrun : (answer s q model limit).Runs log outcome) :
    (Outcome.orFault outcome).isSuccess = true ↔ s.CanAnswer q (Planning.lastReply? log) := by
  unfold answer at hrun
  cases hfound : s.searchStrict q with
  | error fault =>
    rw [hfound] at hrun
    obtain ⟨rfl, rfl⟩ := Dialogue.runs_done_iff.mp hrun
    refine iff_of_false (by simp [Outcome.orFault, Outcome.ofFault, Outcome.isSuccess]) fun h => ?_
    have hsearch := Snapshot.succeeds_searchStrict_iff.mpr h.search
    simp [hfound] at hsearch
  | ok found =>
    have hsearch : s.CanSearch q := Snapshot.succeeds_searchStrict_iff.mp ⟨found, hfound⟩
    have hnothing : FindsNothing s q ↔ found.hits = [] := by simp [FindsNothing, hfound]
    rw [hfound] at hrun
    dsimp only at hrun
    split_ifs at hrun with hnone
    · have hnone : FindsNothing s q := hnothing.mpr (by simpa using hnone)
      rw [isSuccess_planned_iff hstrip hq hrun]
      constructor
      · intro h
        exact ⟨hsearch, fun _ => h.1, fun _ => h.2⟩
      · intro h
        exact ⟨h.plan hnone, h.execute hnone⟩
    · have hsome : ¬ FindsNothing s q := fun h => hnone (by simpa using hnothing.mp h)
      obtain ⟨answered, hreplies, rfl⟩ := Dialogue.runs_bind_done_iff.mp hrun
      have hanswered := (Answering.succeeds_of_runs ⟨[], rfl⟩ hreplies).1
      refine iff_of_true ?_ ⟨hsearch, fun h => absurd h hsome, fun h => absurd h hsome⟩
      exact (Outcome.isSuccess_orFault_map fun _ => rfl).mpr hanswered

/-- The same of any question with words, put to records. -/
theorem isSuccess_ask_iff {outcome : Outcome} (hrecords : s.records ≠ []) (hq : question.strip ≠ [])
    (hrun : (ask (some s) question model limit).Runs log outcome) :
    outcome.isSuccess = true ↔ s.CanAnswer question.strip (Planning.lastReply? log) := by
  unfold ask at hrun
  dsimp only at hrun
  rw [if_neg (by simpa using hq), if_neg (by simpa using hrecords)] at hrun
  obtain ⟨made, hanswer, rfl⟩ := Dialogue.runs_bind_done_iff.mp hrun
  exact isSuccess_answer_iff (Text.strip_strip _) hq hanswer

end Asking

namespace Session

/-- A question about loaded records succeeds exactly if it has an answer, whatever the model replies. -/
theorem ask_succeeds_iff {s : Session} {loaded : Snapshot} {question : Text}
    (hs : s.current = some loaded) (hrecords : loaded.records ≠ []) (hq : question.strip ≠ [])
    (model : Option Model) (limit : Int) (turns : List Turn) :
    (s.ask question model limit turns).1.isSuccess = true ↔
      loaded.CanAnswer question.strip (Planning.lastReply?
        ((Asking.ask (some loaded) question model limit).exchanges takeTurn (turns, s))) := by
  have hrun := s.runs_ask question model limit turns
  rw [exchanges, hs] at hrun
  exact Asking.isSuccess_ask_iff hrecords hq hrun

def notes : Dataset :=
  ⟨["Note"], [.list ["x"]], []⟩

private theorem exists_loaded_notes (test : Session → Bool)
    (h : (after? (load {} notes)).map (fun s => s.current.any (fun t => !t.records.isEmpty) && test s) = .ok true) :
    ∃ s loaded, load {} notes = (.ok (), s) ∧ s.current = some loaded ∧ loaded.records ≠ [] ∧ test s = true := by
  obtain ⟨s, hs, hfacts⟩ := exists_load_of_run notes _ h
  rw [Bool.and_eq_true] at hfacts
  obtain ⟨loaded, hloaded, hrecords⟩ := (Option.any_eq_true _ _).mp hfacts.1
  exact ⟨s, loaded, hs, hloaded, by simpa using hrecords, hfacts.2⟩

theorem canAnswer_notes : ∃ s loaded, load {} notes = (.ok (), s) ∧ s.current = some loaded ∧
    loaded.CanAnswer (Text.strip "show all") (Planning.lastReply?
      ((Asking.ask (some loaded) "show all" none 50).exchanges takeTurn ([], s))) := by
  obtain ⟨s, loaded, hload, hs, hrecords, hsuccess⟩ :=
    exists_loaded_notes (fun s => (s.ask "show all" none 50 []).1.isSuccess)
      (by decide +kernel)
  exact ⟨s, loaded, hload, hs, (ask_succeeds_iff hs hrecords (by decide) none 50 []).mp hsuccess⟩

/-- A question that names a day of the year zero fails. -/
theorem yearZero_fails : ∃ s loaded, load {} notes = (.ok (), s) ∧ s.current = some loaded ∧
    loaded.records ≠ [] ∧ Text.strip "0000-01-01" ≠ [] ∧
    (s.ask "0000-01-01" none 50 []).1.isSuccess = false := by
  obtain ⟨s, loaded, hload, hs, hrecords, hfails⟩ :=
    exists_loaded_notes (fun s => !(s.ask "0000-01-01" none 50 []).1.isSuccess)
      (by decide +kernel)
  exact ⟨s, loaded, hload, hs, hrecords, by decide, by simpa using hfails⟩

end Session
end AskTable
