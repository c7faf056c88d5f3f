import AskTable.Proofs.Dialogue
import AskTable.Proofs.Walk
import AskTable.Session

/-! Loads of a session and questions to it. A load is made as a whole or not at all, and a question runs as the
dialogue about the table that is loaded when it is asked. -/
namespace AskTable
namespace Session

variable {s : Session} {source : Dataset} {table : Snapshot} {fault : Fault}

theorem load_of_ok (h : Snapshot.build source = .ok table) : s.load source = (.ok (), ⟨some table⟩) := by
  rw [load, h]

/-- A load that fails leaves the session as it is. -/
theorem load_of_error (h : Snapshot.build source = .error fault) : s.load source = (.error fault, s) := by
  rw [load, h]

/-- The session after something that was done to it, unless it failed. -/
def after? : Except Fault Unit × Session → Except Fault Session
  | (.ok (), s) => .ok s
  | (.error fault, _) => .error fault

theorem after?_eq_ok_iff {done : Except Fault Unit × Session} : after? done = .ok s ↔ done = (.ok (), s) := by
  obtain ⟨x, other⟩ := done
  cases x <;> simp [after?]

theorem after?_load (s : Session) (source : Dataset) :
    after? (s.load source) = (Snapshot.build source).map fun table => ⟨some table⟩ := by
  rw [load]
  cases Snapshot.build source <;> rfl

theorem exists_load_of_run (source : Dataset) (test : Session → Bool)
    (h : (after? (load {} source)).map test = .ok true) : ∃ s, load {} source = (.ok (), s) ∧ test s = true := by
  obtain ⟨s, hs, htest⟩ := map_eq_ok_iff.mp h
  exact ⟨s, after?_eq_ok_iff.mp hs, htest⟩

theorem run_ofDialogue {α : Type} (d : Dialogue α) (state : List Turn × Session) :
    run (.ofDialogue d) state = d.runWith takeTurn state := by
  induction d generalizing state with
  | done a => rfl
  | call c next ih => simp only [Script.ofDialogue, run, Dialogue.runWith, ih]

theorem ask_eq (s : Session) (question : Text) (model : Option Model) (limit : Int) (turns : List Turn) :
    s.ask question model limit turns =
      let (outcome, calls, _, after) := (Asking.ask s.current question model limit).runWith takeTurn (turns, s)
      (outcome, calls, after) := by
  rw [ask, asking, run, run_ofDialogue]

def exchanges (s : Session) (question : Text) (model : Option Model) (limit : Int) (turns : List Turn) : List Exchange :=
  (Asking.ask s.current question model limit).exchanges takeTurn (turns, s)

theorem runs_ask (s : Session) (question : Text) (model : Option Model) (limit : Int) (turns : List Turn) :
    (Asking.ask s.current question model limit).Runs (s.exchanges question model limit turns)
      (s.ask question model limit turns).1 := by
  rw [ask_eq]
  exact Dialogue.runs_exchanges takeTurn _ (turns, s)

theorem map_fst_exchanges (s : Session) (question : Text) (model : Option Model) (limit : Int) (turns : List Turn) :
    (s.exchanges question model limit turns).map (·.1) = (s.ask question model limit turns).2.1 := by
  rw [exchanges, Dialogue.map_fst_exchanges, ask_eq]

/-- Turns without changes do nothing but reply. -/
theorem exchanges_takeTurn {α : Type} (d : Dialogue α) {turns : List Turn} (h : ∀ turn ∈ turns, turn.changes = [])
    (hlength : (d.runWith takeTurn (turns, s)).2.1.length ≤ turns.length) :
    d.exchanges takeTurn (turns, s) = (d.runWith takeTurn (turns, s)).2.1.zip (turns.map Turn.reply) := by
  induction d generalizing turns with
  | done a => rfl
  | call c next ih =>
    cases turns with
    | nil => simp [Dialogue.runWith] at hlength
    | cons turn turns =>
      have hturn : takeTurn (turn :: turns, s) = (turn.reply, turns, s) := by
        simp only [takeTurn, h turn List.mem_cons_self, changeAll]
      simp only [Dialogue.runWith, Dialogue.exchanges, hturn, List.map_cons, List.zip_cons_cons,
        List.length_cons, Nat.add_le_add_iff_right] at hlength ⊢
      rw [ih turn.reply (fun other hother => h other (List.mem_cons_of_mem _ hother)) hlength]

theorem exchanges_eq_zip {question : Text} {model : Option Model} {limit : Int} {turns : List Turn}
    (h : ∀ turn ∈ turns, turn.changes = [])
    (hlength : (s.ask question model limit turns).2.1.length ≤ turns.length) :
    s.exchanges question model limit turns =
      (s.ask question model limit turns).2.1.zip (turns.map Turn.reply) := by
  rw [ask_eq] at hlength ⊢
  exact exchanges_takeTurn _ h hlength

end Session
end AskTable
