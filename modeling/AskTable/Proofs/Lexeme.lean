import AskTable.Proofs.Mending
import Mathlib.Data.List.Chain

/-! Texts of JSON as rows of lexemes, with or without quotes around names and values, and what the repair makes
of such a row. -/
namespace AskTable.Json

inductive Bracket where
  | brace
  | square
  deriving DecidableEq

namespace Bracket

def opening : Bracket → Char
  | brace => '{'
  | square => '['

def closing : Bracket → Char
  | brace => '}'
  | square => ']'

end Bracket

inductive Lexeme where
  | opening (b : Bracket)
  | closing (b : Bracket)
  | comma
  /-- A comma behind the last item. -/
  | extra
  | colon
  /-- The name of a member, without quotes. -/
  | name (t : Text)
  /-- A value that is a word, without quotes. -/
  | word (t : Text)
  | number (t : Text)
  /-- What stands between two quotes. -/
  | quote (t : Text)
  deriving DecidableEq

namespace Lexeme

def text : Lexeme → Text
  | opening b => [b.opening]
  | closing b => [b.closing]
  | comma | extra => [',']
  | colon => [':']
  | name t | word t | number t => t
  | quote t => '"' :: t ++ ['"']

@[simp] theorem text_colon : colon.text = [':'] := rfl

@[simp] theorem text_name (t : Text) : (name t).text = t := rfl

@[simp] theorem text_word (t : Text) : (word t).text = t := rfl

@[simp] theorem text_quote (t : Text) : (quote t).text = '"' :: (t ++ ['"']) := rfl

def sign? : Lexeme → Option Char
  | opening b => some b.opening
  | closing b => some b.closing
  | comma | extra => some ','
  | colon => some ':'
  | name _ | word _ | number _ => none
  | quote _ => some '"'

def named : Lexeme → Lexeme
  | name t => quote t
  | x => x

@[simp] theorem named_name (t : Text) : (name t).named = quote t := rfl

@[simp] theorem named_colon : colon.named = colon := rfl

def valued : Lexeme → Lexeme
  | word t => if isLiteral t then word t else quote t
  | x => x

/-- Whether a value can begin with it, in a list too. -/
def startsValue : Lexeme → Bool
  | word t => isLiteral t
  | opening _ | number _ | quote _ => true
  | _ => false

def endsItem : Lexeme → Bool
  | closing _ | comma | extra => true
  | _ => false

/-- Whether a lexeme can come right after another one. -/
def precedes : Lexeme → Lexeme → Bool
  | opening _, closing _ => true
  | opening b, name _ => b = .brace
  | opening _, y => y.startsValue
  | comma, name _ => true
  | comma, y => y.startsValue
  | colon, word _ => true
  | colon, y => y.startsValue
  | name _, y => y = colon
  | quote _, y => y = colon || y.endsItem
  | extra, closing _ => true
  | extra, _ => false
  | word _, y | number _, y | closing _, y => y.endsItem

/-- Whether a row of lexemes between two quotes, or at an end of the text, can end with it. -/
def canBeLast : Lexeme → Bool
  | name _ | word _ | number _ | extra => false
  | _ => true

/-- A name, or a word that is no literal: what is not JSON without quotes. -/
def isBare : Lexeme → Bool
  | name _ => true
  | word t => !isLiteral t
  | _ => false

theorem text_of_sign? {x : Lexeme} {c : Char} (h : x.sign? = some c) : c ∈ signs ∧ ∃ rest, x.text = c :: rest := by
  cases x with
  | opening b =>
    obtain rfl := Option.some.inj h
    cases b <;> exact ⟨by decide, _, rfl⟩
  | closing b =>
    obtain rfl := Option.some.inj h
    cases b <;> exact ⟨by decide, _, rfl⟩
  | comma | extra | colon | quote t =>
    obtain rfl := Option.some.inj h
    exact ⟨by decide, _, rfl⟩
  | name t | word t | number t => cases h

theorem sign?_eq_colon_iff {x : Lexeme} : x.sign? = some ':' ↔ x = colon := by
  cases x with
  | opening b | closing b => cases b <;> simp [sign?, Bracket.opening, Bracket.closing]
  | comma | extra | colon | name t | word t | number t | quote t => simp [sign?]

theorem sign?_eq_comma_iff {x : Lexeme} : x.sign? = some ',' ↔ x = comma ∨ x = extra := by
  cases x with
  | opening b | closing b => cases b <;> simp [sign?, Bracket.opening, Bracket.closing]
  | comma | extra | colon | name t | word t | number t | quote t => simp [sign?]

/-- What stands between quotes, if the lexeme is a string literal. -/
def quote? : Lexeme → Option Text
  | quote t => some t
  | _ => none

theorem eq_quote_of_quote? {x : Lexeme} {t : Text} (h : x.quote? = some t) : x = quote t := by
  cases x with
  | quote u => rw [Option.some.inj h]
  | _ => cases h

theorem quote?_ne_none_of_sign? {x : Lexeme} (h : x.sign? = some '"') : x.quote? ≠ none := by
  cases x with
  | opening b | closing b => cases b <;> simp [sign?, Bracket.opening, Bracket.closing] at h
  | comma | extra | colon | name t | word t | number t => simp [sign?] at h
  | quote t => simp [quote?]

theorem sign?_ne_apostrophe (x : Lexeme) : x.sign? ≠ some '\'' := by
  cases x with
  | opening b | closing b => cases b <;> simp [sign?, Bracket.opening, Bracket.closing]
  | comma | extra | colon | name t | word t | number t | quote t => simp [sign?]

theorem text_of_endsItem {x : Lexeme} (h : x.endsItem = true) : ∃ c, x.text = [c] ∧ isStop c = true := by
  cases x with
  | closing b => cases b <;> exact ⟨_, rfl, rfl⟩
  | comma | extra => exact ⟨_, rfl, rfl⟩
  | opening b | colon | name t | word t | number t | quote t => cases h

theorem named_of_ne {x : Lexeme} (h : ∀ t, x ≠ name t) : x.named = x := by
  cases x with
  | name t => exact absurd rfl (h t)
  | _ => rfl

theorem valued_of_ne {x : Lexeme} (h : ∀ t, x ≠ word t) : x.valued = x := by
  cases x with
  | word t => exact absurd rfl (h t)
  | _ => rfl

theorem text_valued_word (t : Text) : (word t).valued.text = if isLiteral t then t else '"' :: t ++ ['"'] := by
  cases hliteral : isLiteral t <;> simp [valued, hliteral]

@[simp] theorem valued_colon : colon.valued = colon := rfl

/-- A word that is no literal stands behind a colon only. -/
theorem valued_of_precedes {x y : Lexeme} (h : x.precedes y = true) (hx : x ≠ colon) : y.valued = y := by
  cases y with
  | word t =>
    have hliteral : isLiteral t = true := by
      cases x <;> simp_all [precedes, startsValue, endsItem]
    simp [valued, hliteral]
  | _ => rfl

theorem precedes_named {x y : Lexeme} (h : x.precedes y = true) : x.named.precedes y.named = true := by
  cases x <;> cases y <;> simp_all [precedes, named, startsValue, endsItem]

theorem precedes_valued {x y : Lexeme} (h : x.precedes y = true) : x.valued.precedes y.valued = true := by
  have hafter : ∀ t, y.endsItem = true → (word t).valued.precedes y.valued = true := by
    intro t hy
    have hself : y.valued = y := valued_of_ne fun u hu => by simp [hu, endsItem] at hy
    rw [hself]
    cases hliteral : isLiteral t <;> simp [valued, hliteral, precedes, hy]
  cases x with
  | word t => exact hafter t h
  | colon =>
    cases y with
    | word t => cases hliteral : isLiteral t <;> simp [valued, hliteral, precedes, startsValue]
    | _ => exact h
  | _ =>
    have hself := valued_of_precedes h (by simp)
    rw [hself]
    exact h

theorem canBeLast_named {x : Lexeme} (h : x.canBeLast = true) : x.named.canBeLast = true := by
  cases x <;> first | exact h | rfl

theorem canBeLast_valued {x : Lexeme} (h : x.canBeLast = true) : x.valued.canBeLast = true := by
  cases x with
  | word t => cases h
  | _ => exact h

theorem canBeLast_of_precedes_quote {x : Lexeme} {t : Text} (h : x.precedes (quote t) = true) :
    x.canBeLast = true := by
  cases x with
  | name u | word u | number u | extra => cases h
  | _ => rfl

theorem not_isBare_of_precedes {x : Lexeme} {t : Text} (h : (quote t).precedes x = true) : x.isBare = false := by
  cases x with
  | name u | word u => cases h
  | _ => rfl

/-- Only braces and commas stand before names. -/
theorem text_of_precedes_name {x : Lexeme} {t : Text} (h : x.precedes (name t) = true) :
    ∃ m, (m = '{' ∨ m = ',') ∧ x.text = [m] ∧ ∀ u, x ≠ name u := by
  cases x with
  | opening b =>
    cases b with
    | brace => exact ⟨'{', .inl rfl, rfl, by simp⟩
    | square => cases h
  | comma => exact ⟨',', .inr rfl, rfl, by simp⟩
  | closing b | extra | colon | name u | word u | number u | quote u => simp [precedes, startsValue, endsItem] at h

theorem text_of_mark {x : Lexeme} {m : Char} (h : x.sign? = some m) (hm : m = '{' ∨ m = ',') :
    x.text = [m] ∧ x.precedes colon = false := by
  rcases hm with rfl | rfl
  · cases x with
    | opening b => cases b <;> simp_all [sign?, text, precedes, startsValue, Bracket.opening]
    | closing b => cases b <;> simp [sign?, Bracket.closing] at h
    | comma | extra | colon | name u | word u | number u | quote u => simp [sign?] at h
  · cases x with
    | opening b | closing b => cases b <;> simp [sign?, Bracket.opening, Bracket.closing] at h
    | comma | extra => exact ⟨rfl, rfl⟩
    | colon | name u | word u | number u | quote u => simp [sign?] at h

def endsValue : Lexeme → Bool
  | closing _ | word _ | number _ | quote _ => true
  | _ => false

theorem precedes_of_endsValue {x y : Lexeme} (hx : x.endsValue = true) (hy : y.endsItem = true) :
    x.precedes y = true := by
  cases x <;> simp_all [endsValue, precedes]

end Lexeme

def numeralChars : List Char :=
  ['0', '1', '2', '3', '4', '5', '6', '7', '8', '9', '+', '-', '.', 'e', 'E']

/-- Texts with the characters of a number that do not begin with a letter. -/
structure IsNumeral (t : Text) : Prop where
  ne_nil : t ≠ []
  starts : t.head?.any isNameStart = false
  chars : ∀ c ∈ t, c ∈ numeralChars

def IsContent (t : Text) : Prop :=
  ∀ rest, literalLength.body (t ++ '"' :: rest) = some (t.length + 1)

structure Token where
  lexeme : Lexeme
  blanks : Text

namespace Token

def text (x : Token) : Text :=
  x.lexeme.text ++ x.blanks

def map (f : Lexeme → Lexeme) (x : Token) : Token :=
  ⟨f x.lexeme, x.blanks⟩

end Token

def spell (ts : List Token) : Text :=
  ts.flatMap Token.text

@[simp] theorem spell_nil : spell [] = [] := rfl

@[simp] theorem spell_cons (x : Token) (ts : List Token) :
    spell (x :: ts) = x.lexeme.text ++ (x.blanks ++ spell ts) := by
  simp [spell, Token.text]

@[simp] theorem spell_append (ts us : List Token) : spell (ts ++ us) = spell ts ++ spell us :=
  List.flatMap_append

def IsOrderly (ts : List Token) : Prop :=
  ts.IsChain fun x y => x.lexeme.precedes y.lexeme = true

/-- Tokens between two string literals; what is put between quotes there is a name or a word. -/
def Token.IsTame (x : Token) : Prop :=
  (match x.lexeme with
    | .name t | .word t | .quote t => IsIdentifier t
    | .number t => IsNumeral t
    | _ => True) ∧
  ∀ c ∈ x.blanks, isBlankChar c = true

theorem IsNumeral.isInner {t : Text} (h : IsNumeral t) : ∀ c ∈ t, IsInner c := by
  intro c hc
  have hall : ∀ c ∈ numeralChars, isBlankChar c = false ∧ c ∉ signs := by decide
  exact hall c (h.chars c hc)

namespace Token.IsTame

variable {x : Token} {c : Char}

theorem map_named (h : x.IsTame) : (x.map Lexeme.named).IsTame := by
  obtain ⟨lexeme, blanks⟩ := x
  obtain ⟨hlexeme, hblanks⟩ := h
  refine ⟨?_, hblanks⟩
  cases lexeme <;> exact hlexeme

theorem map_valued (h : x.IsTame) : (x.map Lexeme.valued).IsTame := by
  obtain ⟨lexeme, blanks⟩ := x
  obtain ⟨hlexeme, hblanks⟩ := h
  refine ⟨?_, hblanks⟩
  cases lexeme with
  | word t =>
    cases hliteral : isLiteral t <;> simpa [Token.map, Lexeme.valued, hliteral] using hlexeme
  | _ => exact hlexeme

/-- In the text of a lexeme there is no sign but the one it begins with. -/
theorem sign?_eq (h : x.IsTame) (hc : c ∈ x.lexeme.text) (hsign : c ∈ signs) : x.lexeme.sign? = some c := by
  obtain ⟨lexeme, blanks⟩ := x
  obtain ⟨hlexeme, -⟩ := h
  cases lexeme with
  | opening b | closing b => simpa [Lexeme.text, Lexeme.sign?, eq_comm] using hc
  | comma | extra | colon => simpa [Lexeme.text, Lexeme.sign?, eq_comm] using hc
  | name t | word t => exact absurd hsign (IsIdentifier.isInner hlexeme c hc).2
  | number t => exact absurd hsign (IsNumeral.isInner hlexeme c hc).2
  | quote t =>
    simp only [Lexeme.text, List.cons_append, List.mem_cons, List.mem_append, List.not_mem_nil, or_false] at hc
    rcases hc with rfl | hc | rfl
    · rfl
    · exact absurd hsign (IsIdentifier.isInner hlexeme c hc).2
    · rfl

theorem blank_not_mem_signs (h : x.IsTame) (hc : c ∈ x.blanks) : c ∉ signs :=
  not_mem_signs_of_isBlankChar (h.2 c hc)

end Token.IsTame

end AskTable.Json
