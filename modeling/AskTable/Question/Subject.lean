import AskTable.Query.Field
import AskTable.Query.Plan
import AskTable.Question.Time
import AskTable.Table.Snapshot

/-!
What a question is about: an identifier, a place, a column of the table, or a keyword.
-/
namespace AskTable.Question

/-- Words after "at", "in", "for" or "from" that begin no place. -/
def genericWords : List Text :=
  ["the", "all", "total", "this", "that", "these", "those", "my", "our", "data", "file", "dataset",
    "sheet", "spreadsheet", "records", "record", "entries", "each", "every", "general", "last",
    "latest", "recent", "year", "month", "week", "today", "yesterday", "detail", "details"]

def isIdentifierChar (c : Char) : Bool :=
  c.isAlphanum || c == '-' || Pattern.sameLetter 'i' c || Pattern.sameLetter 's' c ||
    Pattern.sameLetter 'k' c

/-- The identifier after the letters MMT. It has a digit, and no dash at its ends. -/
def identifier? (q : Text) : Option Text :=
  let label := Pattern.word "mmt" >> .space >>
    .maybe (.anyOf [.word "no" >> .maybe (.exactly "."), .word "number", .exactly "#"]) >> .space >>
    .maybe (.one fun c => c == ':' || c == '#') >> .space
  let body := Pattern.most isIdentifierChar >> digit >> .most isIdentifierChar
  (Pattern.findPart? (.edge >> label) body .done q).map (Text.trim (· == '-'))

/-- A place in a question: the words after a preposition, up to the next one, to a punctuation mark or
to the end. -/
def placeAt (a : Cursor) : Option (Text × Nat) :=
  let closing := Pattern.alt
    (.gap >> .anyWord ["in", "at", "on", "during", "for", "from", "since", "between", "with"] >> .edge)
    (.alt (.one fun c => ['?', '.', '!', ',', ';'].elem c) .finish)
  Pattern.partAt? (.edge >> .anyWord ["at", "in", "for", "from"] >> .gap)
    (.one (· != '\n') >> .least (· != '\n')) (.before closing) a

/-- A place without a leading word that says no more than that it is one. -/
def trimPlace (t : Text) : Text :=
  let leading := Pattern.start >> .anyWord ["the", "location", "site", "address"] >> .gap
  Text.trim (fun c => c == ' ' || c == '\'' || c == '"') (Text.replace leading [] t.strip)

/-- Whether words can name a place: the first is no generic one, and not all are months or numbers. -/
def isPlace (t : Text) : Bool :=
  let words := t.lower.words
  match words with
  | [] => false
  | first :: _ =>
    !genericWords.contains first && !words.all fun w => isMonth w || isYear w || w.all isDigitSign

def location? (q : Text) : Option Text :=
  ((Text.phrases placeAt (withoutDates q)).map trimPlace).find? isPlace

/-- A word of a question with "no" after it if it has that. -/
def labelAt (a : Cursor) : Option (Text × Nat) :=
  let label := Pattern.atLeastOne Char.isLower >> .maybe (.gap >> .exactly "no")
  (label.end? a).map fun b => (a.textTo b, a.distance b)

/-- The column that a question names itself, in the singular or the plural. -/
def namedColumn? (q : Text) (columns : List Text) : Option Text :=
  (Field.byLength columns).find? fun column =>
    Pattern.occursIn (.whole (.exactly column.lower >> .maybe (.exactly "s"))) q.lower

/-- The column that a question names by what it holds. -/
def meantColumn? (q : Text) (columns : List Text) : Option Text :=
  (Text.phrases labelAt q.lower).findSome? fun label =>
    if (SemanticField.ofName? label).isSome then Field.resolve? label columns else none

def column? (q : Text) (s : Option Snapshot) : Option Text :=
  s.bind fun s => namedColumn? q s.columns <|> meantColumn? q s.columns

/-- The field that is asked for where no column is known to hold a keyword. -/
def actionField : Text := "Action"

/-- The column that holds a keyword: one of actions or descriptions is preferred. -/
def keywordColumn (token : Text) (s : Option Snapshot) : Text :=
  let preferred := SemanticField.patterns .action ++ SemanticField.patterns .description
  let found := s.bind fun s =>
    let owners := s.owners token.lower
    (s.columns.find? fun column => owners.contains column && preferred.any column.lower.contains) <|>
      s.columns.find? owners.contains
  found.getD actionField

def quoted? (q : Text) : Option Text :=
  let isQuote (c : Char) : Bool := c == '"' || c == '\''
  let ending := Pattern.alt (.one fun c => isBlankChar c || ['?', '.', '!', ','].elem c) .finish
  (Pattern.findPart? (.alt .start (.one isBlankChar) >> .one isQuote)
    (.times 2 (.one (!isQuote ·)) >> .most (!isQuote ·)) (.one isQuote >> .before ending) q).map
    Text.strip

def cues : List Pattern :=
  let plural (t : Text) : Pattern := .word t >> .maybe (.word "s")
  [.edge >> .alt (.anyWord ["mentioning", "mentions", "containing", "contains", "about", "involving",
      "regarding"]) (.alt (.inRow ["related", "to"]) (.word "with")),
    .edge >> .anyOf [plural "issue", plural "problem", plural "record", .word "entries", plural "job"] >>
      .gap >> .anyWord ["of", "for"]]

/-- The keyword after a cue, if it is no generic word. -/
def cued? (q : Text) (cue : Pattern) : Option Text :=
  let isKeywordChar (c : Char) : Bool := isWordChar c || c == '-'
  (Pattern.findPart? (cue >> .gap >> .maybe (.one fun c => c == '\'' || c == '"'))
    (.times 2 (.one isKeywordChar) >> .most isKeywordChar) .done q).filter fun t =>
      !genericWords.contains t.lower

/-- The first word of a question that the index finds in a column of free text. Months, years and parts
of the place that is named do not count. -/
def indexed? (q : Text) (s : Snapshot) : Option Text :=
  let place : Text := ((location? q).getD []).lower
  ((s.lookup q).find? fun (token, owners) =>
    !(place.contains token || isMonth token || isYear token) &&
      owners.any fun column => ColumnClass.ofName column == .freeText).map (·.1)

/-- The keyword of a question, as a text that a column contains. -/
def keyword? (q : Text) (s : Option Snapshot) : Option Condition :=
  let within (token keyword : Text) : Condition :=
    ⟨keywordColumn token s, .contains, .text keyword⟩
  match quoted? q with
  | some t => some (within (t.words.headD t) t)
  | none => ((cues.findSome? (cued? q)) <|> s.bind (indexed? q)).map fun t => within t t

end AskTable.Question
