import AskTable.Value

/-!
Writing JSON text in ASCII, with a space after each comma and each colon.
-/
namespace AskTable.Json

def escapeUnit (n : Nat) : Text :=
  "\\u" ++ Value.hexDigits 4 n

/-- A character inside a JSON string. What is not printable ASCII is escaped, in two halves above the
first plane. -/
def writeChar (c : Char) : Text :=
  let n := c.toNat
  match c with
  | '"' => "\\\""
  | '\\' => "\\\\"
  | '\n' => "\\n"
  | '\r' => "\\r"
  | '\t' => "\\t"
  | _ =>
    if n = 8 then "\\b"
    else if n = 12 then "\\f"
    else if 32 ≤ n ∧ n < 127 then [c]
    else if n < 0x10000 then escapeUnit n
    else escapeUnit (0xD800 + (n - 0x10000) / 0x400) ++ escapeUnit (0xDC00 + (n - 0x10000) % 0x400)

def writeText (t : Text) : Text :=
  ['"'] ++ t.flatMap writeChar ++ ['"']

/-- A floating value; the three without digits are written as words. -/
def writeFloat : Binary64 → Text
  | .nan => "NaN"
  | .infinite negative => if negative then "-Infinity" else "Infinity"
  | x => x.text

mutual

/-- A value as JSON; dates are written as texts. -/
def write : Value → Text
  | .null => "null"
  | .bool b => if b then "true" else "false"
  | .int n => Text.ofInt n
  | .float x => writeFloat x
  | .text t => writeText t
  | .date d => writeText d.iso
  | .moment m => writeText (m.isoWith ' ')
  | .list items => "[" ++ Text.join ", " (writeItems items) ++ "]"
  | .dict entries => "\x7b" ++ Text.join ", " (writeEntries entries) ++ "\x7d"

def writeItems : List Value → List Text
  | [] => []
  | v :: rest => write v :: writeItems rest

def writeEntries : List (Value × Value) → List Text
  | [] => []
  | (k, v) :: rest => (writeText k.shown ++ ": " ++ write v) :: writeEntries rest

end

end AskTable.Json
