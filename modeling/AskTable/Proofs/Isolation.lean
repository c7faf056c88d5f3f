import AskTable.Proofs.Questioning

/-! Changes of what is loaded while a question waits for the model. They come to count after the question,
and for the question itself it is as if they had not been made. -/
namespace AskTable

/-- The session that a change leaves, if it can be made. -/
def Change.left? : Change → Option Session
  | .load source => (Snapshot.build source).toOption.map fun table => ⟨some table⟩
  | .clear => some ⟨none⟩

def Turn.quiet (turn : Turn) : Turn :=
  ⟨[], turn.reply⟩

namespace Script

variable {α : Type}

inductive IsBlind : Script α → Prop where
  | done (a : α) : IsBlind (.done a)
  | call {c : Call} {next : Reply → Script α} (rest : ∀ reply, IsBlind (next reply)) : IsBlind (.call c next)

theorem isBlind_ofDialogue (d : Dialogue α) : (ofDialogue d).IsBlind := by
  induction d with
  | done a => exact .done a
  | call c next ih => exact .call ih

/-- A script that looks once, and that before its first call. -/
inductive LooksFirst : Script α → Prop where
  | look {next : Option Snapshot → Script α} (rest : ∀ loaded, (next loaded).IsBlind) : LooksFirst (.look next)

end Script

namespace Session

variable {s s' : Session} {c : Change} {changes : List Change} {turns : List Turn}

/-- What the last of some changes leaves, or the session itself if there are none. -/
def afterChanges (s : Session) (changes : List Change) : Session :=
  (changes.getLast?.bind Change.left?).getD s

@[simp] theorem afterChanges_nil : s.afterChanges [] = s := rfl

theorem change_eq_ok (h : c.left? = some s') : s.change c = (.ok (), s') := by
  cases c with
  | load source =>
    cases hbuild : Snapshot.build source with
    | error fault => simp [Change.left?, hbuild, Except.toOption] at h
    | ok table =>
      have hleft : ⟨some table⟩ = s' := by simpa [Change.left?, hbuild, Except.toOption] using h
      rw [change, load_of_ok hbuild, hleft]
  | clear =>
    obtain rfl := Option.some.inj h
    rfl

theorem afterChanges_cons (h : c.left? = some s')
    (hrest : ∀ c ∈ changes, c.left?.isSome = true) :
    s.afterChanges (c :: changes) = s'.afterChanges changes := by
  unfold afterChanges
  cases hlast : changes.getLast? with
  | none =>
    obtain rfl := List.getLast?_eq_none_iff.mp hlast
    simp [h]
  | some last =>
    obtain ⟨left, hleft⟩ := Option.isSome_iff_exists.mp (hrest last (List.mem_of_getLast? hlast))
    simp [List.getLast?_cons, hlast, hleft]

theorem afterChanges_append {more : List Change} (h : ∀ c ∈ changes, c.left?.isSome = true)
    (hmore : ∀ c ∈ more, c.left?.isSome = true) :
    s.afterChanges (changes ++ more) = (s.afterChanges changes).afterChanges more := by
  induction changes generalizing s with
  | nil => rfl
  | cons c rest ih =>
    obtain ⟨left, hleft⟩ := Option.isSome_iff_exists.mp (h c List.mem_cons_self)
    have hrest : ∀ c ∈ rest, c.left?.isSome = true := fun c hc => h c (List.mem_cons_of_mem _ hc)
    have hall : ∀ c ∈ rest ++ more, c.left?.isSome = true := by
      intro c hc
      exact (List.mem_append.mp hc).elim (hrest c) (hmore c)
    rw [List.cons_append, afterChanges_cons hleft hall, ih hrest, afterChanges_cons hleft hrest]

/-- Changes that can all be made leave what the last one leaves. -/
theorem changeAll_eq (h : ∀ c ∈ changes, c.left?.isSome = true) :
    s.changeAll changes = (.ok (), s.afterChanges changes) := by
  induction changes generalizing s with
  | nil => rfl
  | cons c rest ih =>
    obtain ⟨left, hleft⟩ := Option.isSome_iff_exists.mp (h c List.mem_cons_self)
    have hrest : ∀ c ∈ rest, c.left?.isSome = true := fun c hc => h c (List.mem_cons_of_mem _ hc)
    simp only [changeAll, change_eq_ok hleft, ih hrest, afterChanges_cons hleft hrest]

/-- A turn whose changes can be made gives its reply, as it does without the changes. -/
theorem takeTurn_cons (turn : Turn) (h : ∀ c ∈ turn.changes, c.left?.isSome = true) :
    takeTurn (turn :: turns, s) = (turn.reply, turns, s.afterChanges turn.changes) := by
  simp only [takeTurn, changeAll_eq h]

/-- A script that never looks runs as it does without the changes, and leaves what they leave. -/
theorem run_of_isBlind {α : Type} {p : Script α} (hp : p.IsBlind) (s s' : Session)
    (h : ∀ turn ∈ turns.take (run p (turns, s)).2.1.length, ∀ c ∈ turn.changes, c.left?.isSome = true) :
    (run p (turns, s)).1 = (run p (turns.map Turn.quiet, s')).1 ∧
    (run p (turns, s)).2.1 = (run p (turns.map Turn.quiet, s')).2.1 ∧
    (run p (turns, s)).2.2.2 = s.afterChanges
      ((turns.take (run p (turns, s)).2.1.length).flatMap Turn.changes) := by
  induction hp generalizing turns s s' with
  | done a => simp [run]
  | call _ ih =>
    cases turns with
    | nil =>
      have hrest := @ih (.ok []) [] s s' (by simp)
      simpa [run, takeTurn] using hrest
    | cons turn turns =>
      have hturn : ∀ c ∈ turn.changes, c.left?.isSome = true := h turn (by simp [run])
      have hquiet : takeTurn ((turn :: turns).map Turn.quiet, s') =
          (turn.reply, turns.map Turn.quiet, s') :=
        takeTurn_cons turn.quiet (by simp [Turn.quiet])
      simp only [run, takeTurn_cons turn hturn, hquiet, List.length_cons,
        List.take_succ_cons, List.mem_cons, forall_eq_or_imp, List.flatMap_cons] at h ⊢
      obtain ⟨houtcome, hcalls, hafter⟩ := ih turn.reply _ s' h.2
      refine ⟨houtcome, by rw [hcalls], ?_⟩
      rw [hafter, afterChanges_append hturn]
      intro c hc
      obtain ⟨other, hother, hc⟩ := List.mem_flatMap.mp hc
      exact h.2 other hother c hc

/-- A script that looks once, before its first call, sees none of the changes. -/
theorem run_of_looksFirst {α : Type} {p : Script α} (hp : p.LooksFirst) (s : Session)
    (h : ∀ turn ∈ turns.take (run p (turns, s)).2.1.length, ∀ c ∈ turn.changes, c.left?.isSome = true) :
    (run p (turns, s)).1 = (run p (turns.map Turn.quiet, s)).1 ∧
    (run p (turns, s)).2.1 = (run p (turns.map Turn.quiet, s)).2.1 ∧
    (run p (turns, s)).2.2.2 = s.afterChanges
      ((turns.take (run p (turns, s)).2.1.length).flatMap Turn.changes) := by
  cases hp with
  | look rest => exact run_of_isBlind (rest s.current) s s h

/-- A script that looks again after a call sees what has been loaded while it waited. -/
example : (run (.call ⟨[], [], none⟩ fun _ => .look fun loaded => .done loaded.isSome)
    ([⟨[.load ⟨["Note"], [], []⟩], .ok []⟩], {})).1 = true := by
  decide +kernel

/-- A question looks at what is loaded once, before the model is called. -/
theorem asking_looksFirst (question : Text) (model : Option Model) (limit : Int) :
    (asking question model limit).LooksFirst :=
  .look fun loaded => Script.isBlind_ofDialogue (Asking.ask loaded question model limit)

/-- Loads and clears while a question waits for the model change neither its outcome nor its calls, and the
last of them is what is left. -/
theorem ask_isolated (s : Session) (question : Text) (model : Option Model) (limit : Int)
    (turns : List Turn)
    (h : ∀ turn ∈ turns.take (s.ask question model limit turns).2.1.length,
      ∀ c ∈ turn.changes, c.left?.isSome = true) :
    (s.ask question model limit turns).1 =
      (s.ask question model limit (turns.map Turn.quiet)).1 ∧
    (s.ask question model limit turns).2.1 =
      (s.ask question model limit (turns.map Turn.quiet)).2.1 ∧
    (s.ask question model limit turns).2.2 = s.afterChanges
      ((turns.take (s.ask question model limit turns).2.1.length).flatMap Turn.changes) :=
  run_of_looksFirst (asking_looksFirst question model limit) s h

/-- A busy model, with a load while it is asked, and then one that plans, with a clear and another load. -/
def changingTurns : List Turn :=
  [⟨[.load ⟨["Site"], [], []⟩], .error ⟨.overloaded, []⟩⟩,
    ⟨[.clear, .load ⟨["Cost"], [.list [.int 3]], "costs"⟩],
      .ok "\x7b\"filters\": [], \"intent\": \"count\"\x7d"⟩]

theorem ask_with_changingTurns : ∃ s, load {} ⟨["Note"], [.list ["x"]], []⟩ = (.ok (), s) ∧
    (s.ask "how many" (some ⟨none⟩) 50 changingTurns).1 =
      (s.ask "how many" (some ⟨none⟩) 50 (changingTurns.map Turn.quiet)).1 ∧
    (s.ask "how many" (some ⟨none⟩) 50 changingTurns).2.2 =
      s.afterChanges (changingTurns.flatMap Turn.changes) := by
  obtain ⟨s, hs, hlength⟩ := exists_load_of_run ⟨["Note"], [.list ["x"]], []⟩
    (fun s => (s.ask "how many" (some ⟨none⟩) 50 changingTurns).2.1.length == 3) (by decide +kernel)
  rw [beq_iff_eq] at hlength
  have hchanges : ∀ turn ∈ changingTurns, ∀ c ∈ turn.changes, c.left?.isSome = true := by
    decide +kernel
  have hisolated := ask_isolated s "how many" (some ⟨none⟩) 50 changingTurns fun turn hturn =>
    hchanges turn (List.mem_of_mem_take hturn)
  rw [hlength] at hisolated
  exact ⟨s, hs, hisolated.1, hisolated.2.2⟩

end Session
end AskTable
