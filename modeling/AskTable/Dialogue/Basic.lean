import AskTable.Text.Basic

/-!
Talking to a language model. A dialogue is a computation that makes calls and goes on with the replies;
it says nothing about how a reply comes about.
-/
namespace AskTable

inductive FailureKind where
  /-- The model could not be reached. -/
  | unavailable
  /-- The model is busy for now. -/
  | overloaded
  /-- The model turned the call down. -/
  | refused
  /-- Anything else. -/
  | other
  deriving DecidableEq, Repr

structure Failure where
  kind : FailureKind
  message : Text
  deriving DecidableEq

abbrev Reply := Except Failure Text

structure Call where
  prompt : Text
  /-- What the model is told before the prompt. -/
  system : Text
  /-- The model asked for in place of the usual one. -/
  model : Option Text
  deriving DecidableEq

/-- A computation that may call the model. -/
inductive Dialogue (α : Type) where
  | done (a : α)
  | call (c : Call) (next : Reply → Dialogue α)

namespace Dialogue

variable {α β : Type}

def bind : Dialogue α → (α → Dialogue β) → Dialogue β
  | .done a, f => f a
  | .call c next, f => .call c fun reply => (next reply).bind f

instance : Monad Dialogue where
  pure := .done
  bind := bind

def ask (c : Call) : Dialogue Reply :=
  .call c .done

def isOverloaded : Reply → Bool
  | .error failure => failure.kind == .overloaded
  | .ok _ => false

/-- A call that is made once more, with the other model, if the first finds the model busy. -/
def askTwice (prompt system : Text) (alternate : Option Text) : Dialogue Reply :=
  .call ⟨prompt, system, none⟩ fun reply =>
    if isOverloaded reply then ask ⟨prompt, system, alternate⟩ else .done reply

/-- The outcome and the calls of a dialogue, and the state in which it leaves the one who replies. -/
def runWith {σ : Type} (reply : σ → Reply × σ) : Dialogue α → σ → α × List Call × σ
  | .done a, state => (a, [], state)
  | .call c next, state =>
    let (r, after) := reply state
    let (a, calls, last) := (next r).runWith reply after
    (a, c :: calls, last)

/-- The next of some replies, and those after it. When they have run out, further replies are empty. -/
def nextReply (replies : List Reply) : Reply × List Reply :=
  (replies.headD (.ok []), replies.tail)

/-- The outcome and the calls of a dialogue in which the replies are given one after another. -/
def run (d : Dialogue α) (replies : List Reply) : α × List Call :=
  let (a, calls, _) := d.runWith nextReply replies
  (a, calls)

@[simp] theorem bind_done (a : α) (f : α → Dialogue β) : (done a).bind f = f a := rfl

@[simp] theorem bind_call (c : Call) (next : Reply → Dialogue α) (f : α → Dialogue β) :
    (call c next).bind f = call c fun reply => (next reply).bind f := rfl

end Dialogue

/-- A language model, as far as a question needs to know it. -/
structure Model where
  /-- The model to turn to when the usual one is busy. -/
  alternate : Option Text

end AskTable
