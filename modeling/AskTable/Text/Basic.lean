/-!
Text as a list of characters, with the operations that every later rule is written in: cutting
blank ends off, splitting into words, and looking for one text inside another.
-/
namespace AskTable

/-- Text is the list of its code points. -/
abbrev Text := List Char

instance : Coe String Text := ⟨String.toList⟩

/-- The spaces of Unicode and the control characters that separate lines, records and fields. -/
def isBlankChar (c : Char) : Bool :=
  let n := c.toNat
  (9 ≤ n && n ≤ 13) || (28 ≤ n && n ≤ 32) || n == 0x85 || n == 0xA0 || n == 0x1680 ||
    (0x2000 ≤ n && n ≤ 0x200A) || n == 0x2028 || n == 0x2029 || n == 0x202F || n == 0x205F ||
    n == 0x3000

namespace Text

/-- The text without the characters of a class at either end. -/
def trim (cut : Char → Bool) (t : Text) : Text :=
  ((t.dropWhile cut).reverse.dropWhile cut).reverse

def strip (t : Text) : Text :=
  trim isBlankChar t

def isBlank (t : Text) : Bool :=
  t.all isBlankChar

/-- The parts between the characters of a class, empty parts included. -/
def splitWhen (sep : Char → Bool) : Text → List Text
  | [] => [[]]
  | c :: rest =>
    if sep c then [] :: splitWhen sep rest
    else
      match splitWhen sep rest with
      | [] => [[c]]
      | part :: parts => (c :: part) :: parts

/-- The maximal runs without blanks, in order. -/
def words (t : Text) : List Text :=
  (splitWhen isBlankChar t).filter (!·.isEmpty)

def startsWith (t w : Text) : Bool :=
  w.isPrefixOf t

def endsWith (t w : Text) : Bool :=
  w.isSuffixOf t

def contains (t w : Text) : Bool :=
  match t with
  | [] => w.isEmpty
  | c :: rest => w.isPrefixOf (c :: rest) || contains rest w

def concat (parts : List Text) : Text :=
  parts.flatten

/-- The texts one after another with `sep` between neighbours. -/
def join (sep : Text) : List Text → Text
  | [] => []
  | [t] => t
  | t :: rest => t ++ sep ++ join sep rest

def ofNat (n : Nat) : Text :=
  Nat.toDigits 10 n

def ofInt : Int → Text
  | .ofNat n => ofNat n
  | .negSucc n => '-' :: ofNat (n + 1)

/-- A number in at least `width` digits, with zeros in front. -/
def padded (width n : Nat) : Text :=
  let digits := ofNat n
  List.replicate (width - digits.length) '0' ++ digits

theorem splitWhen_ne_nil (sep : Char → Bool) (t : Text) : splitWhen sep t ≠ [] := by
  cases t with
  | nil => simp [splitWhen]
  | cons c rest =>
    simp only [splitWhen]
    split
    · simp
    · split <;> simp

end Text
end AskTable
