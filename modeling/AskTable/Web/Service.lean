import AskTable.Json.Reader
import AskTable.Session

/-!
The session as a web service: four paths, the methods they know, and the shape of the bodies they take.
-/
namespace AskTable

inductive Body where
  | none
  | value (v : Value)
  /-- Text that is still to be read as JSON. -/
  | raw (t : Text)

structure Request where
  method : Text
  /-- The path, perhaps with a query and a fragment. -/
  target : Text
  body : Body

/-- What is sent back: a body, or a status that tells of an error. -/
inductive Response where
  | ok (body : Value)
  | status (code : Nat)

abbrev Service := Session

namespace Service

/-- What a request asks for, if it is well-formed. -/
inductive Order where
  | greet
  | load (source : Dataset)
  | clear
  | ask (question : Text)
  | suggest

/-- A text without the mark of its encoding in front. -/
def withoutMark : Text → Text
  | c :: rest => if c.toNat = 0xFEFF then rest else c :: rest
  | [] => []

/-- The value of a body, or the status for one that cannot be read. -/
def bodyValue : Body → Except Nat Value
  | .none => .error 422
  | .value v => .ok v
  | .raw t =>
    match Json.read (withoutMark t) with
    | .ok v => .ok v
    | .error (.defect ..) => .error 422
    | .error (.tooManyDigits _) | .error .tooDeep => .error 400

def isRow : Value → Bool
  | .list _ | .dict _ => true
  | _ => false

/-- The table that a body sends. Rows and name may be left out, and the name may be null. -/
def datasetOf? (entries : List (Value × Value)) : Option Dataset := do
  let header ← match Value.member entries "header" with
    | .list header => some header
    | _ => none
  let rows ← match Value.member? entries "rows" with
    | some (.list rows) => if rows.all isRow then some rows else none
    | some _ => none
    | none => some []
  let name ← match Value.member entries "name" with
    | .text t => some t
    | .null => some []
    | _ => none
  return ⟨header, rows, name⟩

def questionOf? (entries : List (Value × Value)) : Option Text :=
  (Value.member entries "question").text?

/-- What the members of a body are read as, or the status for a body of another shape. -/
def fromBody {α : Type} (read? : List (Value × Value) → Option α) (b : Body) : Except Nat α :=
  match bodyValue b with
  | .ok (.dict entries) =>
    match read? entries with
    | some a => .ok a
    | none => .error 422
  | .ok _ => .error 422
  | .error code => .error code

inductive Endpoint where
  | root
  | suggestions
  | ask
  | dataset
  deriving DecidableEq, Repr

namespace Endpoint

def paths : List (Text × Endpoint) :=
  [("/", root), ("/suggestions", suggestions), ("/ask", ask), ("/dataset", dataset)]

/-- A target without its query, its fragment and the name of a host. -/
def localPart (target : Text) : Text :=
  match target.takeWhile fun c => c != '?' && c != '#' with
  | '/' :: '/' :: rest => rest.dropWhile (· != '/')
  | path => path

/-- The parts of a path without those that stand for the same place or for the one above. -/
def withoutDots (parts : List Text) : List Text :=
  parts.foldl (fun done part =>
    if part = ['.'] then done
    else if part = ['.', '.'] then (if done = [[]] then done else done.dropLast)
    else done ++ [part]) []

/-- A text with the characters that its percent codes stand for, as far as they are ASCII. -/
def decodePercent : Text → Text
  | '%' :: a :: b :: rest =>
    match Json.hexValue? a, Json.hexValue? b with
    | some x, some y =>
      if 16 * x + y < 128 then Char.ofNat (16 * x + y) :: decodePercent rest
      else '%' :: a :: b :: decodePercent rest
    | _, _ => '%' :: decodePercent (a :: b :: rest)
  | c :: rest => c :: decodePercent rest
  | [] => []

/-- The path that a target names. It begins with one slash, and percent codes are read twice. -/
def pathOf (target : Text) : Text :=
  let parts := Text.splitWhen (· == '/') ((localPart target).dropWhile (· == '/'))
  let path := Text.join "/" (withoutDots ([] :: parts))
  if path.isEmpty then ['/'] else decodePercent (decodePercent path)

/-- The endpoint of a target. Slashes at the end of its path do not count. -/
def ofTarget? (target : Text) : Option Endpoint :=
  let path := pathOf target
  List.lookup path paths <|> List.lookup (path.reverse.dropWhile (· == '/')).reverse paths

end Endpoint

inductive Method where
  | get
  | post
  | delete
  deriving DecidableEq, Repr

def Method.ofName? (name : Text) : Option Method :=
  List.lookup name.upper ([("GET", get), ("POST", post), ("DELETE", delete)] : List (Text × Method))

def order (r : Request) : Except Nat Order :=
  match Endpoint.ofTarget? r.target with
  | none => .error 404
  | some endpoint =>
    match endpoint, Method.ofName? r.method with
    | .root, some .get => .ok .greet
    | .suggestions, some .get => .ok .suggest
    | .ask, some .post => (fromBody questionOf? r.body).map .ask
    | .dataset, some .post => (fromBody datasetOf? r.body).map .load
    | .dataset, some .delete => .ok .clear
    | _, _ => .error 405

def stats (s : Session) : Value :=
  match s.current with
  | none => .dict [("loaded", .bool false)]
  | some table => .dict [("loaded", .bool true), ("name", .text table.name),
      ("records", .int table.records.length), ("columns", .list (table.columns.map .text))]

def outcome : Outcome → Value
  | .success message route =>
    .dict [("success", .bool true), ("message", .text message), ("route", .text route.name)]
  | .failure error route =>
    .dict [("success", .bool false), ("error", .text error), ("route", .text route.name)]

/-- The response to a request and the session after it. A load that fails has neither. -/
def respond (s : Session) (model : Option Model) (limit : Int) (turns : List Turn) (r : Request) :
    Except Fault (Response × Session) :=
  match order r with
  | .error code => .ok (.status code, s)
  | .ok .greet =>
    .ok (.ok (.dict [("status", "ok"), ("message", "Sheet Assistant API"), ("dataset", stats s)]), s)
  | .ok .suggest => .ok (.ok (.dict [("suggestions", .list (s.suggestions.map .text))]), s)
  | .ok .clear => .ok (.ok (.dict [("dataset", stats s.clear)]), s.clear)
  | .ok (.load source) =>
    match s.load source with
    | (.ok (), after) =>
      .ok (.ok (.dict [("dataset", stats after), ("summary", .text after.summary)]), after)
    | (.error fault, _) => .error fault
  | .ok (.ask question) =>
    let (result, _, after) := s.ask question model limit turns
    .ok (.ok (outcome result), after)

end Service
end AskTable
