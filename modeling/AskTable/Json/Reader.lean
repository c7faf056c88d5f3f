import AskTable.Value

/-!
Reading JSON text. The reader also takes the words for not-a-number and infinity, and of two members
with one name it keeps the later. A fault is told with its place in the text.
-/
namespace AskTable.Json

inductive Defect where
  | noValue
  | noComma
  | noColon
  | noName
  | controlCharacter
  | badEscape
  | badCodeEscape
  | openString
  | extraData
  deriving DecidableEq, Repr

def Defect.message : Defect → Text
  | noValue => "Expecting value"
  | noComma => "Expecting ',' delimiter"
  | noColon => "Expecting ':' delimiter"
  | noName => "Expecting property name enclosed in double quotes"
  | controlCharacter => "Invalid control character at"
  | badEscape => "Invalid \\escape"
  | badCodeEscape => "Invalid \\uXXXX escape"
  | openString => "Unterminated string starting at"
  | extraData => "Extra data"

/-- Why a text is not read: a defect and the text from its place on, an integer that is too long, or too
many brackets inside one another. -/
inductive Problem where
  | defect (kind : Defect) (rest : Text)
  | tooManyDigits (digits : Nat)
  | tooDeep
  deriving DecidableEq

def isJsonBlank (c : Char) : Bool :=
  c == ' ' || c == '\t' || c == '\n' || c == '\r'

/-- The text from the next token on. -/
def skipBlanks (t : Text) : Text :=
  t.dropWhile isJsonBlank

/-- The character that a letter after a backslash stands for. -/
def simpleEscape? : Char → Option Char
  | '"' => some '"'
  | '\\' => some '\\'
  | '/' => some '/'
  | 'b' => some (Char.ofNat 8)
  | 'f' => some (Char.ofNat 12)
  | 'n' => some '\n'
  | 'r' => some '\r'
  | 't' => some '\t'
  | _ => none

def hexValue? (c : Char) : Option Nat :=
  let n := c.toNat
  if 48 ≤ n ∧ n < 58 then some (n - 48)
  else if 65 ≤ n ∧ n < 71 then some (n - 55)
  else if 97 ≤ n ∧ n < 103 then some (n - 87)
  else none

def codeUnit? (t : Text) : Option Nat :=
  if (t.take 4).length = 4 then
    ((t.take 4).mapM hexValue?).map fun digits => digits.foldl (fun n d => 16 * n + d) 0
  else none

/-- The code point of two halves of a pair. -/
def joinPair (high low : Nat) : Nat :=
  0x10000 + (high - 0xD800) * 0x400 + (low - 0xDC00)

/-- A code point that is no half of a pair; a lone half is shown as the replacement character. -/
def charOfCode (n : Nat) : Char :=
  if 0xD800 ≤ n ∧ n < 0xE000 then Char.ofNat 0xFFFD else Char.ofNat n

/-- The character of an escape by code, given what follows the letter u, and how many characters of that
it takes. A high half joins a low half that is escaped right after it, if the text goes on after both. -/
def codeEscape (t : Text) : Except Problem (Char × Nat) :=
  let fault (rest : Text) : Except Problem (Char × Nat) :=
    .error (.defect .badCodeEscape ('u' :: rest))
  match codeUnit? t, t.drop 4 with
  | none, _ | some _, [] => fault t
  | some high, after =>
    match after with
    | '\\' :: 'u' :: more =>
      if 0xD800 ≤ high ∧ high < 0xDC00 ∧ 4 < more.length then
        match codeUnit? more with
        | none => fault more
        | some low =>
          if 0xDC00 ≤ low ∧ low < 0xE000 then .ok (charOfCode (joinPair high low), 10)
          else .ok (charOfCode high, 4)
      else .ok (charOfCode high, 4)
    | _ => .ok (charOfCode high, 4)

/-- The character of an escape, given what follows the backslash, and how many characters it takes. -/
def escape (opening : Text) : Text → Except Problem (Char × Nat)
  | [] => .error (.defect .openString opening)
  | 'u' :: rest => (codeEscape rest).map fun (c, n) => (c, n + 1)
  | e :: rest =>
    match simpleEscape? e with
    | some c => .ok (c, 1)
    | none => .error (.defect .badEscape ('\\' :: e :: rest))

/-- The content of a string up to its closing quote, and the text after that. `opening` is the text from
the opening quote on; `skip` characters of an escape are still to be passed. -/
def stringBody (opening : Text) : Nat → Text → Except Problem (Text × Text)
  | _, [] => .error (.defect .openString opening)
  | skip + 1, _ :: rest => stringBody opening skip rest
  | 0, c :: rest =>
    if c = '"' then .ok ([], rest)
    else if c = '\\' then
      match escape opening rest with
      | .error problem => .error problem
      | .ok (e, n) => (stringBody opening n rest).map fun (t, tail) => (e :: t, tail)
    else if c.toNat < 32 then .error (.defect .controlCharacter (c :: rest))
    else (stringBody opening 0 rest).map fun (t, tail) => (c :: t, tail)

/-- The digits of a whole part: a zero alone, or digits that begin with another one. -/
def wholePart (t : Text) : Text :=
  match t with
  | '0' :: _ => ['0']
  | _ => t.takeWhile isAsciiDigit

/-- The digits after a point, if a digit follows it. -/
def fractionPart : Text → Text
  | '.' :: rest => rest.takeWhile isAsciiDigit
  | _ => []

/-- The power of ten and how many characters it takes, if digits follow the letter. -/
def exponentPart : Text → Option (Int × Nat)
  | c :: rest =>
    let (negative, body) := Decimal.splitSign rest
    let digits := body.takeWhile isAsciiDigit
    if (c = 'e' ∨ c = 'E') ∧ digits ≠ [] then
      let power : Int := natOfDigits digits
      some (if negative then -power else power, 1 + (rest.length - body.length) + digits.length)
    else none
  | [] => none

/-- A number and the text after it. Without fraction and power of ten it is an integer. -/
def number (t : Text) : Except Problem (Value × Text) :=
  let negative := t.head? = some '-'
  let body := if negative then t.drop 1 else t
  let whole := wholePart body
  let afterWhole := body.drop whole.length
  let fraction := fractionPart afterWhole
  let afterFraction := if fraction.isEmpty then afterWhole else afterWhole.drop (fraction.length + 1)
  if whole.isEmpty then .error (.defect .noValue t)
  else
    match fraction, exponentPart afterFraction with
    | [], none =>
      if integerDigitLimit < whole.length then .error (.tooManyDigits whole.length)
      else
        let n : Int := natOfDigits whole
        .ok (.int (if negative then -n else n), afterWhole)
    | _, power =>
      let (shift, length) := power.getD (0, 0)
      let x := Decimal.toBinary ⟨negative, natOfDigits (whole ++ fraction), shift - fraction.length⟩
      .ok (.float x, afterFraction.drop length)

def literals : List (Text × Value) :=
  [("null", .null), ("true", .bool true), ("false", .bool false), ("NaN", .float .nan),
    ("Infinity", .float (.infinite false)), ("-Infinity", .float (.infinite true))]

def scalar (t : Text) : Except Problem (Value × Text) :=
  match literals.find? fun entry => entry.1.isPrefixOf t with
  | some (word, v) => .ok (v, t.drop word.length)
  | none => number t

/-- How many brackets may stand inside one another. The number is the environment's and not the format's: it is the room
that a limit of one thousand frames of recursion leaves at the depth from which a reply is read. -/
def nestingLimit : Nat := 985

mutual

/-- A value and the text after it. A bracket takes two units of fuel, and each further item one; `depth`
more brackets may be opened. -/
def value : Nat → Nat → Text → Except Problem (Value × Text)
  | 0, _, t => .error (.defect .noValue t)
  | fuel + 1, depth, t =>
    match t with
    | '"' :: rest => (stringBody t 0 rest).map fun (s, tail) => (.text s, tail)
    | '{' :: rest =>
      match depth, skipBlanks rest with
      | 0, _ => .error .tooDeep
      | _ + 1, '}' :: tail => .ok (.dict [], tail)
      | depth + 1, inside =>
        (members fuel depth [] inside).map fun (entries, tail) => (.dict entries, tail)
    | '[' :: rest =>
      match depth, skipBlanks rest with
      | 0, _ => .error .tooDeep
      | _ + 1, ']' :: tail => .ok (.list [], tail)
      | depth + 1, inside =>
        (elements fuel depth inside).map fun (items, tail) => (.list items, tail)
    | _ => scalar t

/-- The members of an object from a name on, added to those before it, and the text after the object. -/
def members : Nat → Nat → List (Value × Value) → Text →
    Except Problem (List (Value × Value) × Text)
  | 0, _, _, t => .error (.defect .noName t)
  | fuel + 1, depth, done, t =>
    match t with
    | '"' :: rest => do
      let (name, afterName) ← stringBody t 0 rest
      match skipBlanks afterName with
      | ':' :: afterColon =>
        let (v, afterValue) ← value fuel depth (skipBlanks afterColon)
        let entries := Value.setKey done (.text name) v
        match skipBlanks afterValue with
        | '}' :: tail => .ok (entries, tail)
        | ',' :: more => members fuel depth entries (skipBlanks more)
        | other => .error (.defect .noComma other)
      | other => .error (.defect .noColon other)
    | _ => .error (.defect .noName t)

/-- The items of a list from an item on, and the text after the list. -/
def elements : Nat → Nat → Text → Except Problem (List Value × Text)
  | 0, _, t => .error (.defect .noValue t)
  | fuel + 1, depth, t => do
    let (v, afterValue) ← value fuel depth t
    match skipBlanks afterValue with
    | ']' :: tail => .ok ([v], tail)
    | ',' :: more => (elements fuel depth (skipBlanks more)).map fun (items, tail) => (v :: items, tail)
    | other => .error (.defect .noComma other)

end

def read (t : Text) : Except Problem Value := do
  let (v, rest) ← value (2 * t.length + 2) nestingLimit (skipBlanks t)
  match skipBlanks rest with
  | [] => .ok v
  | extra => .error (.defect .extraData extra)

/-- A defect with its line, its column and the number of characters before it. -/
def describe (t : Text) (kind : Defect) (rest : Text) : Text :=
  let before := t.take (t.length - rest.length)
  let line := before.count '\n' + 1
  let column := (before.reverse.takeWhile (· != '\n')).length + 1
  kind.message ++ ": line " ++ Text.ofNat line ++ " column " ++ Text.ofNat column ++ " (char " ++
    Text.ofNat before.length ++ ")"

end AskTable.Json
