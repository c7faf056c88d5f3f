import AskTable.Number.Reading

/-!
The pieces of a date text: numbers, words, marks and blanks, and what the words mean in a date. A chain
of numbers and words with points among them is one piece only if it is a number with a fraction.
-/
namespace AskTable

inductive DateToken where
  /-- Digits, and those after a point or a comma if there are any. -/
  | number (whole : Text) (fraction : Option Text)
  | word (t : Text)
  | mark (c : Char)
  | gap
  deriving DecidableEq

inductive ClockUnit where
  | hour
  | minute
  | second
  deriving DecidableEq

def ClockUnit.next : ClockUnit → Option ClockUnit
  | hour => some minute
  | minute => some second
  | second => none

namespace Date

/-- The number of the month with an English name, written out or in its first letters. -/
def monthOfName? (word : Text) : Option Nat :=
  ([(["january", "jan"], 1), (["february", "feb"], 2), (["march", "mar"], 3), (["april", "apr"], 4),
    (["may"], 5), (["june", "jun"], 6), (["july", "jul"], 7), (["august", "aug"], 8),
    (["september", "sept", "sep"], 9), (["october", "oct"], 10), (["november", "nov"], 11),
    (["december", "dec"], 12)] : List (List Text × Nat)).findSome? fun (names, number) =>
      if names.contains word then some number else none

def weekdayNames : List Text :=
  ["monday", "mon", "tuesday", "tue", "wednesday", "wed", "thursday", "thu", "friday", "fri",
    "saturday", "sat", "sunday", "sun"]

/-- Words without a meaning of their own beside the parts of a date. -/
def fillers : List Text :=
  ["at", "on", "and", "ad", "m", "t", "of", "st", "nd", "rd", "th"]

end Date

namespace DateToken

def smallWord? : DateToken → Option Text
  | word t => some (t.map Char.toLower)
  | _ => none

/-- Whether a piece is one of some words, in any case. -/
def isAmong (token : DateToken) (words : List Text) : Bool :=
  token.smallWord?.any words.contains

def month? (token : DateToken) : Option Nat :=
  token.smallWord?.bind Date.monthOfName?

def isWeekday (token : DateToken) : Bool :=
  token.isAmong Date.weekdayNames

/-- The half of the day that a piece names: whether it is the second one. -/
def afternoon? (token : DateToken) : Option Bool :=
  if token.isAmong ["am", "a"] then some false
  else if token.isAmong ["pm", "p"] then some true
  else none

def unit? (token : DateToken) : Option ClockUnit :=
  if token.isAmong ["h", "hour", "hours"] then some .hour
  else if token.isAmong ["m", "minute", "minutes"] then some .minute
  else if token.isAmong ["s", "second", "seconds"] then some .second
  else none

/-- Whether a piece is passed over where nothing else is made of it. -/
def isFiller : DateToken → Bool
  | gap => true
  | mark c => ['.', ',', ';', '-', '/', '\''].contains c
  | token => token.isAmong Date.fillers

/-- The digits of a number without a fraction. -/
def digits? : DateToken → Option Text
  | number whole none => some whole
  | _ => none

/-- Letters of words. Digits of another kind than decimal ones count as letters. -/
def isWordLetter (c : Char) : Bool :=
  isLetterOrDigit c && !isDigitChar c

/-- The pieces with a character in front of them; digits and letters grow together. -/
def push (c : Char) (tokens : List DateToken) : List DateToken :=
  if isDigitChar c then
    match tokens with
    | .number t none :: rest => .number (Decimal.plainDigit c :: t) none :: rest
    | _ => .number [Decimal.plainDigit c] none :: tokens
  else if isWordLetter c then
    match tokens with
    | .word t :: rest => .word (c :: t) :: rest
    | _ => .word [c] :: tokens
  else .mark c :: tokens

end DateToken

/-- Characters read so far that may belong to one piece, the latest first: whether the latest run is
one of letters, and whether a point or a comma has been read. -/
structure DateChain where
  letters : Bool
  dotted : Bool
  held : Text

namespace DateChain

/-- The chain with a character more, if it goes on with it. Letters and digits follow each other only
after a point; a comma follows two digits at least. -/
def grow (chain : DateChain) (c : Char) : Option DateChain :=
  let afterPoint := chain.dotted && chain.held.head? == some '.'
  if c = '.' then some ⟨chain.letters, true, c :: chain.held⟩
  else if DateToken.isWordLetter c then
    if chain.letters || afterPoint then some ⟨true, chain.dotted, c :: chain.held⟩ else none
  else if isDigitChar c then
    if !chain.letters || afterPoint then some ⟨false, chain.dotted, c :: chain.held⟩ else none
  else if c = ',' ∧ !chain.letters ∧ !chain.dotted ∧ 2 ≤ chain.held.length then
    some ⟨false, true, c :: chain.held⟩
  else none

/-- The pieces of a chain. With letters, with two points or with a mark at its end it falls apart; else a
point or a comma parts a number from its fraction, and a chain with both of them is a word without a
meaning. A letter at the very end of the text is not looked at. -/
def tokens (chain : DateChain) (atEnd : Bool) : List DateToken :=
  let t := chain.held.reverse
  let hasLetters := (if atEnd then chain.held.tail else chain.held).any DateToken.isWordLetter
  let endsInMark := chain.held.head?.any fun c => c == '.' || c == ','
  if !chain.dotted || hasLetters || 1 < t.count '.' || endsInMark then t.foldr DateToken.push []
  else if chain.letters || (t.elem '.' && t.elem ',') then [.word t]
  else
    let plain := t.map Decimal.plainDigit
    [.number (plain.takeWhile isAsciiDigit) (some (plain.dropWhile isAsciiDigit).tail)]

end DateChain

namespace DateToken

/-- What a character begins: a chain, or a piece of its own. -/
def start (c : Char) : DateToken ⊕ DateChain :=
  if isBlankChar c then .inl .gap
  else if isWordLetter c then .inr ⟨true, false, [c]⟩
  else if isDigitChar c then .inr ⟨false, false, [c]⟩
  else .inl (.mark c)

def scan : Option DateChain → Text → List DateToken
  | none, [] => []
  | some chain, [] => chain.tokens true
  | none, c :: rest =>
    match start c with
    | .inl token => token :: scan none rest
    | .inr chain => scan (some chain) rest
  | some chain, c :: rest =>
    match chain.grow c with
    | some longer => scan (some longer) rest
    | none =>
      chain.tokens false ++
        match start c with
        | .inl token => token :: scan none rest
        | .inr next => scan (some next) rest

def ofText (t : Text) : List DateToken :=
  scan none t

end DateToken
end AskTable
