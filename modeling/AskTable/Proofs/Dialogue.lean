import AskTable.Dialogue.Asking
import Mathlib.Tactic.Common

/-! Runs of dialogues: the calls that are made and the replies that come, whoever it is that replies. -/
namespace AskTable

private theorem Call.stage_of_system {c : Call} {stage : Stage} (h : c.system = stage.instructions) :
    c.stage = stage := by
  have hother : Planning.instructions ≠ Answering.instructions := by decide +kernel
  cases stage with
  | planner => exact if_neg (h.trans_ne hother)
  | responder => exact if_pos h

/-- A call with the reply that came. -/
abbrev Exchange := Call × Reply

namespace Dialogue

variable {α β σ : Type} {d : Dialogue α} {log : List Exchange}

def isUnavailable : Reply → Bool
  | .error failure => failure.kind == .unavailable
  | .ok _ => false

/-- A dialogue ends with a value after some exchanges. -/
inductive Runs : Dialogue α → List Exchange → α → Prop where
  | done (a : α) : Runs (.done a) [] a
  | call {c : Call} {next : Reply → Dialogue α} {reply : Reply} {log : List Exchange} {a : α}
      (rest : Runs (next reply) log a) : Runs (.call c next) ((c, reply) :: log) a

def exchanges (reply : σ → Reply × σ) : Dialogue α → σ → List Exchange
  | .done _, _ => []
  | .call c next, state => (c, (reply state).1) :: (next (reply state).1).exchanges reply (reply state).2

theorem map_fst_exchanges (reply : σ → Reply × σ) (d : Dialogue α) (state : σ) :
    (d.exchanges reply state).map (·.1) = (d.runWith reply state).2.1 := by
  induction d generalizing state with
  | done a => rfl
  | call c next ih => simp [exchanges, runWith, ih]

/-- What a dialogue comes to with one who replies is what it comes to after these exchanges. -/
theorem runs_exchanges (reply : σ → Reply × σ) (d : Dialogue α) (state : σ) :
    d.Runs (d.exchanges reply state) (d.runWith reply state).1 := by
  induction d generalizing state with
  | done a => exact .done a
  | call c next ih => exact .call (ih _ _)

@[simp] theorem runs_done_iff {a b : α} : (done a).Runs log b ↔ log = [] ∧ b = a := by
  constructor
  · intro h
    cases h
    exact ⟨rfl, rfl⟩
  · intro h
    obtain ⟨rfl, rfl⟩ := h
    exact .done b

theorem runs_call_iff {c : Call} {next : Reply → Dialogue α} {a : α} :
    (call c next).Runs log a ↔ ∃ reply rest, log = (c, reply) :: rest ∧ (next reply).Runs rest a := by
  constructor
  · intro h
    cases h with
    | call rest => exact ⟨_, _, rfl, rest⟩
  · intro h
    obtain ⟨reply, rest, rfl, hrest⟩ := h
    exact .call hrest

theorem runs_bind_iff {f : α → Dialogue β} {b : β} :
    (d.bind f).Runs log b ↔
      ∃ first second a, log = first ++ second ∧ d.Runs first a ∧ (f a).Runs second b := by
  induction d generalizing log with
  | done a =>
    constructor
    · intro h
      exact ⟨[], log, a, rfl, .done a, h⟩
    · intro h
      obtain ⟨first, second, a', rfl, hfirst, hsecond⟩ := h
      obtain ⟨rfl, rfl⟩ := runs_done_iff.mp hfirst
      exact hsecond
  | call c next ih =>
    rw [bind_call, runs_call_iff]
    constructor
    · intro h
      obtain ⟨reply, rest, rfl, hrest⟩ := h
      obtain ⟨first, second, a, rfl, hfirst, hsecond⟩ := (ih reply).mp hrest
      exact ⟨(c, reply) :: first, second, a, rfl, .call hfirst, hsecond⟩
    · intro h
      obtain ⟨first, second, a, rfl, hfirst, hsecond⟩ := h
      obtain ⟨reply, rest, rfl, hrest⟩ := runs_call_iff.mp hfirst
      exact ⟨reply, rest ++ second, rfl, (ih reply).mpr ⟨rest, second, a, rfl, hrest, hsecond⟩⟩

theorem runs_bind_done_iff {f : α → β} {b : β} :
    (d.bind fun a => done (f a)).Runs log b ↔ ∃ a, d.Runs log a ∧ b = f a := by
  rw [runs_bind_iff]
  constructor
  · intro h
    obtain ⟨first, second, a, rfl, hfirst, hsecond⟩ := h
    obtain ⟨rfl, rfl⟩ := runs_done_iff.mp hsecond
    exact ⟨a, by rwa [List.append_nil], rfl⟩
  · intro h
    obtain ⟨a, hrun, rfl⟩ := h
    exact ⟨log, [], a, (List.append_nil log).symm, hrun, .done _⟩

/-- The exchanges of a dialogue determine what it comes to. -/
theorem Runs.unique {a b : α} (ha : d.Runs log a) (hb : d.Runs log b) : a = b := by
  induction ha with
  | done a => exact (runs_done_iff.mp hb).2.symm
  | call rest ih =>
    obtain ⟨reply, log, heq, hb⟩ := runs_call_iff.mp hb
    obtain ⟨hexchange, rfl⟩ := List.cons.inj heq
    obtain rfl := congrArg Prod.snd hexchange
    exact ih hb

section Attempts

variable {prompt system : Text} {alternate : Option Text} {reply : Reply}

/-- The exchanges of a stage and the reply that it ends with: one call, or the same call once more, put to
the other model, where the first one finds the model busy. -/
inductive Attempt (prompt system : Text) (alternate : Option Text) : List Exchange → Reply → Prop where
  | once {reply : Reply} (h : isOverloaded reply = false) :
      Attempt prompt system alternate [(⟨prompt, system, none⟩, reply)] reply
  | twice {first second : Reply} (h : isOverloaded first = true) :
      Attempt prompt system alternate
        [(⟨prompt, system, none⟩, first), (⟨prompt, system, alternate⟩, second)] second

theorem attempt_of_runs (h : (askTwice prompt system alternate).Runs log reply) :
    Attempt prompt system alternate log reply := by
  obtain ⟨first, rest, rfl, hrest⟩ := runs_call_iff.mp h
  split_ifs at hrest with hbusy
  · obtain ⟨second, last, rfl, hlast⟩ := runs_call_iff.mp hrest
    obtain ⟨rfl, rfl⟩ := runs_done_iff.mp hlast
    exact .twice hbusy
  · obtain ⟨rfl, rfl⟩ := runs_done_iff.mp hrest
    exact .once (Bool.eq_false_iff.mpr hbusy)

private theorem isUnavailable_eq_false_of_isOverloaded (h : isOverloaded reply = true) :
    isUnavailable reply = false := by
  cases reply with
  | ok t => rfl
  | error failure =>
    have hkind : failure.kind = .overloaded := by simpa [isOverloaded] using h
    simp [isUnavailable, hkind]

namespace Attempt

theorem ne_nil (h : Attempt prompt system alternate log reply) : log ≠ [] := by
  cases h <;> simp

theorem length_le (h : Attempt prompt system alternate log reply) : log.length ≤ 2 := by
  cases h <;> simp

/-- All calls of a stage come with the same words. -/
theorem system_eq (h : Attempt prompt system alternate log reply) :
    ∀ exchange ∈ log, exchange.1.system = system := by
  cases h <;> simp

theorem stage_eq (stage : Stage) (h : Attempt prompt stage.instructions alternate log reply) :
    ∀ exchange ∈ log, exchange.1.stage = stage :=
  fun exchange hexchange => Call.stage_of_system (h.system_eq exchange hexchange)

theorem exists_last (h : Attempt prompt system alternate log reply) :
    ∃ before c, log = before ++ [(c, reply)] ∧
      ∀ exchange ∈ before, isUnavailable exchange.2 = false := by
  cases h with
  | once hbusy => exact ⟨[], _, rfl, by simp⟩
  | twice hbusy =>
    refine ⟨[_], _, rfl, ?_⟩
    simpa using isUnavailable_eq_false_of_isOverloaded hbusy

end Attempt
end Attempts

end Dialogue
end AskTable
