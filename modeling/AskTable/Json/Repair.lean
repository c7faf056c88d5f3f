import AskTable.Json.Reader

/-!
Recovering one JSON object from the reply of a language model: fences around it and prose before and
after it are cut, and if it is not JSON its bare names and values are quoted, single quotes become
double ones, and commas before a closing bracket are dropped.
-/
namespace AskTable.Json

def openingFence : Pattern :=
  .start >> .exactly "```" >> Pattern.maybe (.alt (.exactly "json") (.exactly "JSON")) >> Pattern.space

def closingFence : Pattern :=
  Pattern.space >> .exactly "```" >> .finish

/-- The content of a fenced block, or the text itself. -/
def stripFences (t : Text) : Text :=
  let content := t.strip
  if Text.startsWith content "```" then
    Text.strip (Text.replace closingFence [] (Text.replace openingFence [] content))
  else content

/-- The text from the first opening brace to the last closing one; empty if there is no such pair. -/
def objectSpan (t : Text) : Text :=
  let fromOpen := t.dropWhile (· != '{')
  (fromOpen.reverse.dropWhile (· != '}')).reverse

def isNameStart (c : Char) : Bool :=
  c.isAlpha || c == '_'

/-- A name without quotes after a brace or a comma, up to the colon. -/
def quoteName (a : Cursor) : Option (Text × Nat) :=
  let opening := Pattern.one (fun c => c == '{' || c == ',') >> Pattern.space
  let name := Pattern.one isNameStart >> Pattern.least fun c => c.isAlphanum || c == '_' || c == ' '
  let closing := Pattern.space >> Pattern.one (· == ':')
  (opening.ends a).findSome? fun b =>
    (name.ends b).findSome? fun c =>
      (closing.end? c).map fun d =>
        (a.textTo b ++ "\"" ++ Text.strip (b.textTo c) ++ "\"" ++ c.textTo d, a.distance d)

def isLiteral (t : Text) : Bool :=
  (["true", "false", "null"] : List Text).contains t

/-- A value without quotes after a colon, up to a comma or a closing bracket. -/
def quoteValue (a : Cursor) : Option (Text × Nat) :=
  let opening := Pattern.one (· == ':') >> Pattern.space
  let content := Pattern.one isNameStart >>
    Pattern.least fun c => c != ',' && c != '}' && c != ']' && c != '"' && c != '\n'
  let closing := Pattern.space >> Pattern.one fun c => c == ',' || c == '}' || c == ']'
  (opening.ends a).findSome? fun b =>
    (content.ends b).findSome? fun c =>
      (closing.end? c).map fun d =>
        let v := Text.strip (b.textTo c)
        (if isLiteral v then a.textTo d else a.textTo b ++ "\"" ++ v ++ "\"" ++ c.textTo d,
          a.distance d)

/-- A comma before a closing bracket gives way to the bracket. -/
def dropComma (a : Cursor) : Option (Text × Nat) :=
  let comma := Pattern.one (· == ',') >> Pattern.space
  let bracket := Pattern.one fun c => c == '}' || c == ']'
  (comma.ends a).findSome? fun b =>
    (bracket.end? b).map fun c => (b.textTo c, a.distance c)

/-- How many characters a string literal has, counted from its opening quote on. A backslash takes the
next character with it, which may not be a line break. -/
def literalLength : Text → Option Nat
  | '"' :: rest => (body rest).map (· + 1)
  | _ => none
where
  /-- How many characters there are up to the closing quote, itself included. -/
  body : Text → Option Nat
    | [] => none
    | '"' :: _ => some 1
    | ['\\'] => none
    | '\\' :: c :: rest => if c = '\n' then none else (body rest).map (· + 2)
    | _ :: rest => (body rest).map (· + 1)

def literalAt (a : Cursor) : Option (Text × Nat) :=
  (literalLength a.after).map fun n => (a.after.take n, n)

/-- A text outside of string literals, mended. -/
def mendGap (t : Text) : Text :=
  Text.substitute dropComma (Text.substitute quoteValue (Text.substitute quoteName t))

/-- The pieces of a text put together again, with what lies between the literals mended. -/
def mendAround (gap : Text) : List (Char ⊕ Text) → Text
  | [] => mendGap gap.reverse
  | .inl c :: rest => mendAround (c :: gap) rest
  | .inr literal :: rest => mendGap gap.reverse ++ literal ++ mendAround [] rest

/-- The repaired text. Single quotes become double ones only in a text that has no double one. -/
def repair (t : Text) : Text :=
  let quoted := if t.elem '\'' && !t.elem '"' then t.map fun c => if c = '\'' then '"' else c else t
  mendAround [] (Text.pieces literalAt quoted)

inductive ReplyFault where
  | noObject
  | unreadable (text : Text) (kind : Defect) (rest : Text)
  | tooManyDigits (digits : Nat)
  | tooDeep
  | notAnObject
  | wrongShape
  deriving DecidableEq

def ReplyFault.message : ReplyFault → Text
  | noObject => "no JSON object in model output"
  | unreadable text kind rest => "unparsable JSON after repair: " ++ describe text kind rest
  | tooManyDigits digits => Fault.tooManyDigitsMessage digits
  | tooDeep => "too many brackets inside one another"
  | notAnObject => "model output JSON is not an object"
  | wrongShape => "model output does not match schema"

/-- The value of a text, repaired once if it has a defect. -/
def readRepaired (t : Text) : Except ReplyFault Value :=
  match read t with
  | .ok v => .ok v
  | .error (.tooManyDigits digits) => .error (.tooManyDigits digits)
  | .error .tooDeep => .error .tooDeep
  | .error (.defect ..) =>
    let repaired := repair t
    match read repaired with
    | .ok v => .ok v
    | .error (.tooManyDigits digits) => .error (.tooManyDigits digits)
    | .error .tooDeep => .error .tooDeep
    | .error (.defect kind rest) => .error (.unreadable repaired kind rest)

def readReply (t : Text) : Except ReplyFault (List (Value × Value)) :=
  match objectSpan (stripFences t) with
  | [] => .error .noObject
  | span =>
    match readRepaired span with
    | .ok (.dict entries) => .ok entries
    | .ok _ => .error .notAnObject
    | .error fault => .error fault

/-- The members of the object in a reply, if they have the wanted shape. -/
def readShaped (shape : List (Value × Value) → Bool) (t : Text) :
    Except ReplyFault (List (Value × Value)) :=
  match readReply t with
  | .ok entries => if shape entries then .ok entries else .error .wrongShape
  | .error fault => .error fault

end AskTable.Json
