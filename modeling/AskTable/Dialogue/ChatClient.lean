import AskTable.Dialogue.Basic
import AskTable.Settings
import AskTable.Value

/-!
Calls to a chat service: the request that is sent for a prompt, and what each answer of the service, or
the lack of one, means for the call.
-/
namespace AskTable

structure ChatOptions where
  /-- The model asked for; the usual one if it is empty. -/
  model : Option Value := none
  temperature : Value := .int 0
  maxTokens : Value := .int 1024

/-- A message of a chat: who speaks, and the text. -/
structure ChatMessage where
  role : Text
  content : Text

structure ChatRequest where
  model : Value
  messages : List ChatMessage
  temperature : Value
  maxTokens : Value

inductive ChatEvent where
  | content (t : Option Text)
  /-- There was no connection. -/
  | disconnected (message : Text)
  | timedOut
  /-- Calls came too fast. -/
  | limited (message : Text)
  /-- A status that tells of an error. -/
  | status (code : Int) (message : Text)
  /-- An error of the client itself. -/
  | clientError (message : Text)
  | broken (message : Text)

namespace ChatOptions

/-- The options that a dictionary names. Others are not known. -/
def read (entries : List (Value × Value)) : Except Fault ChatOptions :=
  entries.foldlM (fun options (key, v) =>
    if key.isText "model" then .ok { options with model := some v }
    else if key.isText "temperature" then .ok { options with temperature := v }
    else if key.isText "max_tokens" then .ok { options with maxTokens := v }
    else .error .wrongKind) {}

end ChatOptions

namespace ChatEvent

def busyCodes : List Int :=
  [429, 503, 529]

def isBusy (code : Int) (message : Text) : Bool :=
  busyCodes.contains code || message.lower.contains "overloaded"

def reply : ChatEvent → Reply
  | content t => .ok (t.getD []).strip
  | disconnected message => .error ⟨.unavailable, "language model unreachable: " ++ message⟩
  | timedOut => .error ⟨.unavailable, "language model unreachable: Request timed out."⟩
  | limited message => .error ⟨.overloaded, "language model rate limited: " ++ message⟩
  | status code message =>
    if isBusy code message then .error ⟨.overloaded, "language model overloaded: " ++ message⟩
    else
      .error ⟨.refused,
        Text.concat ["language model error (", Text.ofInt code, "): ", message]⟩
  | clientError message => .error ⟨.refused, "language model error: " ++ message⟩
  | broken message => .error ⟨.other, message⟩

end ChatEvent

structure ChatCall where
  prompt : Text
  system : Text
  options : ChatOptions

namespace ChatCall

/-- The request of a call. An empty system text is left out. -/
def request (names : ModelNames) (c : ChatCall) : ChatRequest where
  model := ((c.options.model.filter Value.isTrue).getD (.text names.model))
  messages := (if c.system.isEmpty then [] else [⟨"system", c.system⟩]) ++ [⟨"user", c.prompt⟩]
  temperature := c.options.temperature
  maxTokens := c.options.maxTokens

/-- The reply to a call and the requests that were sent for it. -/
def complete (names : ModelNames) (c : ChatCall) (events : List ChatEvent) :
    Reply × List ChatRequest :=
  ((events.headD (.content none)).reply, [c.request names])

/-- The reply to a call that turns to the other model once if the first is busy. A call that names a
model itself cannot. -/
def completeTwice (names : ModelNames) (c : ChatCall) (events : List ChatEvent) :
    Except Fault Reply × List ChatRequest :=
  let (reply, requests) := c.complete names events
  if Dialogue.isOverloaded reply then
    if c.options.model.isSome then (.error (.repeatedOption "model"), requests)
    else
      let again : ChatCall := { c with options.model := some (.text names.fallbackModel) }
      let (second, more) := again.complete names events.tail
      (.ok second, requests ++ more)
  else (.ok reply, requests)

end ChatCall
end AskTable
