import AskTable.Dialogue.Asking

/-!
A session holds at most one loaded table. A load takes its place as a whole or, if it fails, leaves it;
a question is answered from the table that was there when it was asked.
-/
namespace AskTable

structure Session where
  current : Option Snapshot := none

inductive Change where
  | load (source : Dataset)
  | clear

/-- A reply of the model, and the changes that are made before it comes. -/
structure Turn where
  changes : List Change
  reply : Reply

inductive Step where
  | load (source : Dataset)
  | loadFrame (columns : Option (List Value)) (rows : List Value) (name : Text)
  | clear
  | ask (question : Text) (model : Option Model) (limit : Int) (turns : List Turn)

inductive Reaction where
  | done
  | failed (fault : Fault)
  | answered (outcome : Outcome) (calls : List Call)

/-- A computation that may look at what is loaded and may call the model. -/
inductive Script (α : Type) where
  | done (a : α)
  | look (next : Option Snapshot → Script α)
  | call (c : Call) (next : Reply → Script α)

/-- A dialogue is a script that never looks. -/
def Script.ofDialogue {α : Type} : Dialogue α → Script α
  | .done a => .done a
  | .call c next => .call c fun reply => ofDialogue (next reply)

namespace Session

/-- Loads a table in place of the one that is there. -/
def load (s : Session) (source : Dataset) : Except Fault Unit × Session :=
  match Snapshot.build source with
  | .ok table => (.ok (), { s with current := some table })
  | .error fault => (.error fault, s)

def loadFrame (s : Session) (columns : Option (List Value)) (rows : List Value) (name : Text) :
    Except Fault Unit × Session :=
  match Sheet.ofFrame? columns rows with
  | .ok sheet => s.load ⟨sheet.header, sheet.rows, name⟩
  | .error fault => (.error fault, s)

def clear (s : Session) : Session :=
  { s with current := none }

def change (s : Session) : Change → Except Fault Unit × Session
  | .load source => s.load source
  | .clear => (.ok (), s.clear)

/-- Makes some changes. The first that fails is the last tried. -/
def changeAll (s : Session) : List Change → Except Fault Unit × Session
  | [] => (.ok (), s)
  | c :: rest =>
    match s.change c with
    | (.ok (), after) => after.changeAll rest
    | (.error fault, after) => (.error fault, after)

/-- The reply of the next turn, after its changes. A change that fails makes the call fail. -/
def takeTurn (state : List Turn × Session) : Reply × List Turn × Session :=
  match state with
  | ([], s) => (.ok [], [], s)
  | (turn :: rest, s) =>
    match s.changeAll turn.changes with
    | (.ok (), after) => (turn.reply, rest, after)
    | (.error _, after) => (.error ⟨.other, []⟩, rest, after)

/-- What a script comes to, its calls, and the turns and the session that are left. A look shows what is
loaded at that moment, after the changes of all turns before it. -/
def run {α : Type} : Script α → List Turn × Session → α × List Call × List Turn × Session
  | .done a, state => (a, [], state)
  | .look next, state => run (next state.2.current) state
  | .call c next, state =>
    let (reply, after) := takeTurn state
    let (a, calls, last) := run (next reply) after
    (a, c :: calls, last)

/-- A question is answered from what is loaded when it is asked. -/
def asking (question : Text) (model : Option Model) (limit : Int) : Script Outcome :=
  .look fun loaded => .ofDialogue (Asking.ask loaded question model limit)

/-- The outcome of a question, the calls that were made for it, and the session after it. -/
def ask (s : Session) (question : Text) (model : Option Model) (limit : Int) (turns : List Turn) :
    Outcome × List Call × Session :=
  let (outcome, calls, _, after) := run (asking question model limit) (turns, s)
  (outcome, calls, after)

def reaction : Except Fault Unit → Reaction
  | .ok () => .done
  | .error fault => .failed fault

def perform (s : Session) : Step → Reaction × Session
  | .load source => (s.load source).map reaction id
  | .loadFrame columns rows name => (s.loadFrame columns rows name).map reaction id
  | .clear => (.done, s.clear)
  | .ask question model limit turns =>
    let (outcome, calls, after) := s.ask question model limit turns
    (.answered outcome calls, after)

/-- What comes of some steps, one after another, and the session after them. -/
def performAll (s : Session) : List Step → List Reaction × Session
  | [] => ([], s)
  | step :: rest =>
    let (reaction, after) := s.perform step
    let (reactions, last) := after.performAll rest
    (reaction :: reactions, last)

def suggestions (s : Session) : List Text :=
  (s.current.map Snapshot.suggestions).getD []

def summary (s : Session) : Text :=
  (s.current.map Snapshot.describe).getD Fault.noDatasetMessage

end Session
end AskTable
