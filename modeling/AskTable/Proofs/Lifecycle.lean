import AskTable.Proofs.Isolation
import Mathlib.Data.List.Induction

/-! The life of a session. After any steps it holds what the last successful load since the last clear has built,
and nothing if there is none; failed loads and questions leave it as it was. -/
namespace AskTable

namespace Step

/-- A step whose calls, if it makes any, are replied to without a change of what is loaded. -/
def IsQuiet : Step → Prop
  | .ask _ _ _ turns => ∀ turn ∈ turns, turn.changes = []
  | _ => True

/-- A step loads a table if a snapshot can be built of what it gives. -/
inductive Loads : Step → Snapshot → Prop where
  | load {source : Dataset} {t : Snapshot} (built : Snapshot.build source = .ok t) :
      Loads (.load source) t
  | loadFrame {columns : Option (List Value)} {rows : List Value} {name : Text} {sheet : Sheet}
      {t : Snapshot} (taken : Sheet.ofFrame? columns rows = .ok sheet)
      (built : Snapshot.build ⟨sheet.header, sheet.rows, name⟩ = .ok t) :
      Loads (.loadFrame columns rows name) t

theorem Loads.unique {step : Step} {t u : Snapshot} (ht : step.Loads t) (hu : step.Loads u) : t = u := by
  cases ht with
  | load built =>
    cases hu with
    | load other => exact Except.ok.inj (built.symm.trans other)
  | loadFrame taken built =>
    cases hu with
    | loadFrame taken' other =>
      obtain rfl := Except.ok.inj (taken.symm.trans taken')
      exact Except.ok.inj (built.symm.trans other)

structure Passes (step : Step) : Prop where
  not_clear : step ≠ .clear
  not_loads : ∀ t, ¬ step.Loads t

/-- The last table that was loaded by some steps, with no clear after it. -/
def LastLoaded (steps : List Step) (t : Snapshot) : Prop :=
  ∃ before step after, steps = before ++ step :: after ∧ step.Loads t ∧ ∀ later ∈ after, later.Passes

private theorem not_lastLoaded_nil {t : Snapshot} : ¬ LastLoaded [] t := by
  intro h
  obtain ⟨before, step, after, hsteps, -⟩ := h
  simp at hsteps

theorem lastLoaded_concat_iff {steps : List Step} {step : Step} {t : Snapshot} :
    LastLoaded (steps ++ [step]) t ↔ step.Loads t ∨ (step.Passes ∧ LastLoaded steps t) := by
  constructor
  · intro h
    obtain ⟨before, loading, after, hsteps, hloads, hafter⟩ := h
    rcases List.eq_nil_or_concat after with rfl | ⟨front, last, rfl⟩
    · obtain ⟨-, heq⟩ := List.append_inj' hsteps rfl
      obtain rfl := List.singleton_inj.mp heq
      exact .inl hloads
    · have hsplit : steps ++ [step] = (before ++ loading :: front) ++ [last] := by simp [hsteps]
      obtain ⟨rfl, heq⟩ := List.append_inj' hsplit rfl
      obtain rfl := List.singleton_inj.mp heq
      refine .inr ⟨hafter step (by simp), before, loading, front, rfl, hloads, fun later hlater => ?_⟩
      exact hafter later (by simp [hlater])
  · intro h
    rcases h with hloads | ⟨hpasses, before, loading, after, rfl, hloads, hafter⟩
    · exact ⟨steps, step, [], rfl, hloads, by simp⟩
    · refine ⟨before, loading, after ++ [step], by simp, hloads, fun later hlater => ?_⟩
      rcases List.mem_append.mp hlater with hlater | hlater
      · exact hafter later hlater
      · exact List.mem_singleton.mp hlater ▸ hpasses

end Step

namespace Session

variable {s : Session} {step : Step}

/-- A question that is replied to without changes leaves the session as it is. -/
theorem ask_quiet {turns : List Turn} (question : Text) (model : Option Model) (limit : Int)
    (h : ∀ turn ∈ turns, turn.changes = []) : (s.ask question model limit turns).2.2 = s := by
  have hturns (n : Nat) : ∀ turn ∈ turns.take n, turn.changes = [] :=
    fun turn hturn => h turn (List.mem_of_mem_take hturn)
  have hchanges (n : Nat) : ∀ turn ∈ turns.take n, ∀ c ∈ turn.changes, c.left?.isSome = true :=
    fun turn hturn c hc => by simp [hturns n turn hturn] at hc
  have hrun := (run_of_looksFirst (asking_looksFirst question model limit) s (hchanges _)).2.2
  rw [List.flatMap_eq_nil_iff.mpr (hturns _), afterChanges_nil] at hrun
  exact hrun

/-- A load puts its table in place of the one before, or fails and changes nothing. -/
theorem perform_load_cases (s : Session) (source : Dataset) :
    (∃ t, (Step.load source).Loads t ∧ s.perform (.load source) = (.done, ⟨some t⟩)) ∨
    ((∀ t, ¬ (Step.load source).Loads t) ∧ (s.perform (.load source)).2 = s) := by
  cases hbuild : Snapshot.build source with
  | ok t => exact .inl ⟨t, .load hbuild, by rw [perform, load_of_ok hbuild]; rfl⟩
  | error fault =>
    refine .inr ⟨fun t ht => ?_, by rw [perform, load_of_error hbuild]; rfl⟩
    cases ht with
    | load built =>
      rw [hbuild] at built
      cases built

theorem perform_loadFrame_of_ok {columns : Option (List Value)} {rows : List Value} {sheet : Sheet} (name : Text)
    (h : Sheet.ofFrame? columns rows = .ok sheet) :
    s.perform (.loadFrame columns rows name) = s.perform (.load ⟨sheet.header, sheet.rows, name⟩) := by
  simp only [perform, loadFrame, h]

theorem loads_loadFrame_iff {columns : Option (List Value)} {rows : List Value} {name : Text} {sheet : Sheet}
    {t : Snapshot} (h : Sheet.ofFrame? columns rows = .ok sheet) :
    (Step.loadFrame columns rows name).Loads t ↔ (Step.load ⟨sheet.header, sheet.rows, name⟩).Loads t := by
  constructor
  · intro ht
    cases ht with
    | loadFrame taken built =>
      obtain rfl := Except.ok.inj (h.symm.trans taken)
      exact .load built
  · intro ht
    cases ht with
    | load built => exact .loadFrame h built

theorem not_loads_loadFrame {columns : Option (List Value)} {rows : List Value} {name : Text} {fault : Fault}
    (h : Sheet.ofFrame? columns rows = .error fault) (t : Snapshot) : ¬ (Step.loadFrame columns rows name).Loads t := by
  intro ht
  cases ht with
  | loadFrame taken built =>
    rw [h] at taken
    cases taken

theorem perform_loadFrame_cases (s : Session) (columns : Option (List Value)) (rows : List Value) (name : Text) :
    (∃ t, (Step.loadFrame columns rows name).Loads t ∧ s.perform (.loadFrame columns rows name) = (.done, ⟨some t⟩)) ∨
    ((∀ t, ¬ (Step.loadFrame columns rows name).Loads t) ∧ (s.perform (.loadFrame columns rows name)).2 = s) := by
  cases hframe : Sheet.ofFrame? columns rows with
  | ok sheet =>
    simp only [perform_loadFrame_of_ok name hframe, loads_loadFrame_iff hframe]
    exact s.perform_load_cases _
  | error fault => exact .inr ⟨not_loads_loadFrame hframe, by simp only [perform, loadFrame, hframe, Prod.map_snd, id]⟩

/-- What a step comes to: it clears the session, loads a table, or leaves the session as it is. -/
theorem perform_cases (s : Session) (h : step.IsQuiet) :
    (step = .clear ∧ s.perform step = (.done, ⟨none⟩)) ∨
    (∃ t, step.Loads t ∧ s.perform step = (.done, ⟨some t⟩)) ∨
    (step.Passes ∧ (s.perform step).2 = s) := by
  cases step with
  | load source =>
    rcases s.perform_load_cases source with hloaded | ⟨hnot, hkept⟩
    · exact .inr (.inl hloaded)
    · exact .inr (.inr ⟨⟨nofun, hnot⟩, hkept⟩)
  | loadFrame columns rows name =>
    rcases s.perform_loadFrame_cases columns rows name with hloaded | ⟨hnot, hkept⟩
    · exact .inr (.inl hloaded)
    · exact .inr (.inr ⟨⟨nofun, hnot⟩, hkept⟩)
  | clear => exact .inl ⟨rfl, rfl⟩
  | ask question model limit turns =>
    exact .inr (.inr ⟨⟨nofun, nofun⟩, ask_quiet question model limit h⟩)

/-- Whether a step only asks, or fails in this session. -/
def IsIdle (s : Session) (step : Step) : Prop :=
  (∃ question model limit turns, step = .ask question model limit turns) ∨
    ∃ fault, (s.perform step).1 = .failed fault

theorem perform_snd_of_isIdle (h : step.IsQuiet) (hidle : s.IsIdle step) : (s.perform step).2 = s := by
  rcases s.perform_cases h with ⟨rfl, hclear⟩ | ⟨t, hloads, hloaded⟩ | ⟨-, hkept⟩
  · obtain ⟨question, model, limit, turns, hask⟩ | ⟨fault, hfailed⟩ := hidle
    · cases hask
    · simp [hclear] at hfailed
  · obtain ⟨question, model, limit, turns, rfl⟩ | ⟨fault, hfailed⟩ := hidle
    · cases hloads
    · simp [hloaded] at hfailed
  · exact hkept

theorem performAll_append (s : Session) (before after : List Step) :
    s.performAll (before ++ after) =
      ((s.performAll before).1 ++ ((s.performAll before).2.performAll after).1,
        ((s.performAll before).2.performAll after).2) := by
  induction before generalizing s with
  | nil => rfl
  | cons step rest ih => simp [performAll, ih]

theorem length_performAll (s : Session) (steps : List Step) :
    (s.performAll steps).1.length = steps.length := by
  induction steps generalizing s with
  | nil => rfl
  | cons step rest ih => simp [performAll, ih]

/-- After any steps on a new session, it holds the table that was loaded last. -/
theorem current_performAll_iff {steps : List Step} (h : ∀ step ∈ steps, step.IsQuiet) {t : Snapshot} :
    (performAll {} steps).2.current = some t ↔ Step.LastLoaded steps t := by
  induction steps using List.reverseRecOn with
  | nil => exact iff_of_false nofun Step.not_lastLoaded_nil
  | append_singleton steps step ih =>
    have hbefore := ih fun other hother => h other (by simp [hother])
    have hlast : (performAll {} (steps ++ [step])).2 = ((performAll {} steps).2.perform step).2 := by
      rw [performAll_append]
      rfl
    rw [hlast, Step.lastLoaded_concat_iff, ← hbefore]
    rcases (performAll {} steps).2.perform_cases (h step (by simp)) with
      ⟨rfl, hclear⟩ | ⟨u, hloads, hloaded⟩ | ⟨hpasses, hkept⟩
    · rw [hclear]
      refine iff_of_false nofun ?_
      rintro (hloads | ⟨hpasses, -⟩)
      · cases hloads
      · exact hpasses.not_clear rfl
    · rw [hloaded]
      constructor
      · intro heq
        exact .inl (Option.some.inj heq ▸ hloads)
      · rintro (hother | ⟨hpasses, -⟩)
        · rw [hloads.unique hother]
        · exact absurd hloads (hpasses.not_loads u)
    · rw [hkept]
      exact ⟨fun hcurrent => .inr ⟨hpasses, hcurrent⟩,
        fun hcurrent => hcurrent.elim (fun hloads => absurd hloads (hpasses.not_loads t)) And.right⟩

/-- A session holds the table of the last successful load since the last clear. A question or a failed load
could be left out: the session and what comes of all other steps would be the same. -/
theorem performAll_holds_lastLoaded {steps : List Step} (h : ∀ step ∈ steps, step.IsQuiet) :
    (∀ t, (performAll {} steps).2.current = some t ↔ Step.LastLoaded steps t) ∧
    ∀ before step after, steps = before ++ step :: after →
      (performAll {} before).2.IsIdle step →
      ((performAll {} before).2.perform step).2 = (performAll {} before).2 ∧
      (performAll {} steps).1.eraseIdx before.length = (performAll {} (before ++ after)).1 ∧
      (performAll {} steps).2 = (performAll {} (before ++ after)).2 := by
  refine ⟨fun t => current_performAll_iff h, ?_⟩
  rintro before step after rfl hidle
  have hkept := perform_snd_of_isIdle (h step (by simp)) hidle
  have hlength := length_performAll {} before
  rw [performAll_append, performAll_append]
  simp only [performAll, hkept]
  refine ⟨trivial, ?_, trivial⟩
  rw [← hlength, List.eraseIdx_append_of_length_le (Nat.le_refl _)]
  simp

def memos : Dataset where
  header := ["Memo"]
  rows := [.list ["x"]]
  name := "memos"

/-- A sheet with a day before the first year. -/
def undated : Dataset where
  header := ["Date"]
  rows := [.list ["0000-01-01"]]
  name := []

/-- A frame whose only row is narrower than its header. -/
def narrowFrame : Step :=
  .loadFrame (some ["a", "b"]) [.list ["1"]] []

def mishaps : List Step :=
  [.load memos, narrowFrame, .load undated, .ask "how many" none 50 []]

theorem performAll_mishaps_holds_memos : ∃ t, Snapshot.build memos = .ok t ∧
    (∀ step ∈ mishaps, step.IsQuiet) ∧ (performAll {} mishaps).2.current = some t ∧
    (performAll {} (mishaps.take 1)).2.IsIdle narrowFrame ∧
    (performAll {} mishaps).1.eraseIdx 1 = (performAll {} (mishaps.eraseIdx 1)).1 := by
  have hquiet : ∀ step ∈ mishaps, step.IsQuiet := by simp [mishaps, narrowFrame, Step.IsQuiet]
  have hrun : (Snapshot.build memos).map (fun t => t.records.length) = .ok 1 := by decide +kernel
  obtain ⟨t, hmemos, -⟩ := map_eq_ok_iff.mp hrun
  have hframe : Sheet.ofFrame? (some ["a", "b"]) [.list ["1"]] = .error (.widthMismatch 2 1) := rfl
  have hday : (Snapshot.build undated).map (fun t => t.records.length) = .error .yearBeforeFirst := by
    decide +kernel
  have hlast : Step.LastLoaded mishaps t := by
    refine ⟨[], .load memos, _, rfl, .load hmemos, fun later hlater => ?_⟩
    simp only [List.mem_cons, List.not_mem_nil, or_false] at hlater
    rcases hlater with rfl | rfl | rfl
    · exact ⟨nofun, not_loads_loadFrame hframe⟩
    · refine ⟨nofun, fun u hu => ?_⟩
      cases hu with
      | load built =>
        rw [built] at hday
        cases hday
    · exact ⟨nofun, nofun⟩
  have hidle : (performAll {} (mishaps.take 1)).2.IsIdle narrowFrame := by
    refine .inr ⟨.widthMismatch 2 1, ?_⟩
    simp only [narrowFrame, perform, loadFrame, hframe, reaction, Prod.map_fst]
  obtain ⟨hcurrent, hleft⟩ := performAll_holds_lastLoaded hquiet
  exact ⟨t, hmemos, hquiet, (hcurrent t).mpr hlast, hidle, (hleft _ _ _ rfl hidle).2.1⟩

end Session
end AskTable
