import AskTable.Text.Letter
import AskTable.Text.Basic

/-!
Shapes of phrases and where they stand in a text. A pattern read at a place of a text has a list of
ends, the preferred one first; the search for a phrase takes the leftmost place that has an end.
-/
namespace AskTable

/-- A place in a text: what lies before it, nearest character first, and what follows. -/
structure Cursor where
  before : Text
  after : Text
  deriving DecidableEq

namespace Cursor

def allFrom (before : Text) : Text → List Cursor
  | [] => [⟨before, []⟩]
  | c :: rest => ⟨before, c :: rest⟩ :: allFrom (c :: before) rest

/-- All places of a text, the one after its last character included. -/
def all (t : Text) : List Cursor :=
  allFrom [] t

def textTo (a b : Cursor) : Text :=
  (b.before.take (b.before.length - a.before.length)).reverse

def distance (a b : Cursor) : Nat :=
  b.before.length - a.before.length

/-- Exactly one of the two neighbours is a word character. -/
def atWordEdge (a : Cursor) : Bool :=
  a.before.head?.any isWordChar != a.after.head?.any isWordChar

/-- The places reached over a run of characters of a class, the nearest first. -/
def overRun (test : Char → Bool) (before : Text) : Text → List Cursor
  | [] => [⟨before, []⟩]
  | c :: rest =>
    ⟨before, c :: rest⟩ :: if test c then overRun test (c :: before) rest else []

end Cursor

inductive Pattern where
  /-- The empty phrase. -/
  | done
  /-- One character of a class. -/
  | one (test : Char → Bool)
  /-- A run of characters of a class, as long as the rest allows. -/
  | most (test : Char → Bool)
  /-- A run of characters of a class, as short as the rest allows. -/
  | least (test : Char → Bool)
  /-- The place between a word character and another one, or an end of the text. -/
  | edge
  /-- The place before the first character. -/
  | start
  /-- The place after the last character, or before a line break that is the last character. -/
  | finish
  /-- The place before such a phrase. -/
  | before (phrase : Pattern)
  /-- One phrase and then the other. -/
  | seq (first second : Pattern)
  /-- Either phrase; the first is preferred. -/
  | alt (first second : Pattern)

namespace Pattern

instance : AndThen Pattern := ⟨fun p q => .seq p (q ())⟩

instance : OrElse Pattern := ⟨fun p q => .alt p (q ())⟩

/-- The ends of a phrase that begins at a place, the preferred one first. -/
def ends : Pattern → Cursor → List Cursor
  | .done, a => [a]
  | .one test, a =>
    match a.after with
    | [] => []
    | c :: rest => if test c then [⟨c :: a.before, rest⟩] else []
  | .most test, a => (Cursor.overRun test a.before a.after).reverse
  | .least test, a => Cursor.overRun test a.before a.after
  | .edge, a => if a.atWordEdge then [a] else []
  | .start, a => if a.before.isEmpty then [a] else []
  | .finish, a => if a.after = [] ∨ a.after = ['\n'] then [a] else []
  | .before phrase, a => if (phrase.ends a).isEmpty then [] else [a]
  | .seq first second, a => (first.ends a).flatMap second.ends
  | .alt first second, a => first.ends a ++ second.ends a

/-- The phrase, or nothing; the phrase is preferred. -/
def maybe (p : Pattern) : Pattern :=
  .alt p .done

def atLeastOne (test : Char → Bool) : Pattern :=
  .seq (.one test) (.most test)

def times (n : Nat) (p : Pattern) : Pattern :=
  match n with
  | 0 => .done
  | n + 1 => .seq p (times n p)

/-- At least `low` and at most `extra` more phrases in a row, as many as the rest allows. -/
def between (low extra : Nat) (p : Pattern) : Pattern :=
  match extra with
  | 0 => times low p
  | extra + 1 => .alt (times (low + extra + 1) p) (between low extra p)

/-- Any of the phrases; earlier ones are preferred. -/
def anyOf : List Pattern → Pattern
  | [] => .one fun _ => false
  | [p] => p
  | p :: rest => .alt p (anyOf rest)

def exactly (t : Text) : Pattern :=
  t.foldr (fun c p => .seq (.one (· == c)) p) .done

/-- Whether a character is the letter `small` in either case. The dotted and the dotless i, the long s
and the kelvin sign count as the letters they stand for. -/
def sameLetter (small c : Char) : Bool :=
  c == small || (65 ≤ c.toNat && c.toNat < 91 && c.toNat + 32 == small.toNat) ||
    (small == 'i' && (c.toNat == 0x130 || c.toNat == 0x131)) ||
    (small == 's' && c.toNat == 0x17F) || (small == 'k' && c.toNat == 0x212A)

/-- The letters of a word in small form, each in either case. -/
def word (t : Text) : Pattern :=
  t.foldr (fun c p => .seq (.one (sameLetter c)) p) .done

def anyWord (ws : List Text) : Pattern :=
  anyOf (ws.map word)

/-- Blanks, at least one. -/
def gap : Pattern :=
  atLeastOne isBlankChar

/-- Blanks, or none. -/
def space : Pattern :=
  .most isBlankChar

def inRow : List Text → Pattern
  | [] => .done
  | [t] => word t
  | t :: rest => .seq (word t) (.seq gap (inRow rest))

/-- A phrase that neither begins nor ends within a word. -/
def whole (p : Pattern) : Pattern :=
  .seq .edge (.seq p .edge)

def end? (p : Pattern) (a : Cursor) : Option Cursor :=
  (p.ends a).head?

/-- The first phrase of a text: where it begins and where it ends. -/
def find? (p : Pattern) (t : Text) : Option (Cursor × Cursor) :=
  (Cursor.all t).findSome? fun a => (p.end? a).map (a, ·)

def occursIn (p : Pattern) (t : Text) : Bool :=
  (p.find? t).isSome

/-- A phrase in three parts at a place: the text of its middle part and the length of the whole. -/
def partAt? (opening middle closing : Pattern) (a : Cursor) : Option (Text × Nat) :=
  (opening.ends a).findSome? fun b =>
    (middle.ends b).findSome? fun c =>
      (closing.end? c).map fun d => (b.textTo c, a.distance d)

def findPart? (opening middle closing : Pattern) (t : Text) : Option Text :=
  (Cursor.all t).findSome? fun a => (partAt? opening middle closing a).map (·.1)

end Pattern

namespace Text

/-- A text cut into single characters and phrases. `step` reads a phrase at a place and tells how many
characters it has; `skip` characters of the phrase before are still to be passed. -/
def piecesFrom {α : Type} (step : Cursor → Option (α × Nat)) :
    Nat → Text → Text → List (Char ⊕ α)
  | _, _, [] => []
  | skip + 1, before, c :: rest => piecesFrom step skip (c :: before) rest
  | 0, before, c :: rest =>
    match step ⟨before, c :: rest⟩ with
    | some (phrase, length) => .inr phrase :: piecesFrom step (length - 1) (c :: before) rest
    | none => .inl c :: piecesFrom step 0 (c :: before) rest

/-- A text cut into its phrases, leftmost first and without overlap, and the characters between. -/
def pieces {α : Type} (step : Cursor → Option (α × Nat)) (t : Text) : List (Char ⊕ α) :=
  piecesFrom step 0 [] t

/-- What the phrases of a text are read as, in order. -/
def phrases {α : Type} (step : Cursor → Option (α × Nat)) (t : Text) : List α :=
  (pieces step t).filterMap Sum.getRight?

def substitute (step : Cursor → Option (Text × Nat)) (t : Text) : Text :=
  (pieces step t).flatMap fun piece => Sum.elim (fun c => [c]) id piece

def replace (p : Pattern) (filler : Text) (t : Text) : Text :=
  substitute (fun a => (p.end? a).map fun b => (filler, a.distance b)) t

end Text
end AskTable
