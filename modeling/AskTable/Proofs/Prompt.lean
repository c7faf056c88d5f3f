import AskTable.Proofs.Answerable
import AskTable.Proofs.Index
import AskTable.Proofs.WrittenJson

/-! What the model is shown of a result: how many records, which of their cells, and how many records there are. -/
namespace AskTable

namespace Value

/-- A key that has the value already keeps it. -/
theorem setKey_map_of_mem {names : List Text} {name : Text} (f : Text → Value) (h : name ∈ names) :
    setKey (names.map fun n => (.text n, f n)) (.text name) (f name) = names.map fun n => (.text n, f n) := by
  induction names with
  | nil => cases h
  | cons first names ih =>
    rw [List.map_cons, setKey]
    split_ifs with hsame
    · obtain rfl := Value.text.inj (sameKey_text_iff.mp hsame)
      rfl
    · have hne : name ≠ first := by
        rintro rfl
        exact hsame (sameKey_text_iff.mpr rfl)
      rw [ih ((List.mem_cons.mp h).resolve_left hne)]

/-- Set one after another, different names stand in the order in which each came first. -/
theorem foldl_setKey (f : Text → Value) (names : List Text) :
    names.foldl (fun entries name => setKey entries (.text name) (f name)) [] =
      names.eraseDups.map fun name => (.text name, f name) := by
  induction names using List.reverseRecOn with
  | nil => rfl
  | append_singleton names name ih =>
    rw [List.foldl_concat, ih, List.eraseDups_append]
    by_cases hseen : name ∈ names
    · rw [setKey_map_of_mem f (List.mem_eraseDups.mpr hseen)]
      simp [List.removeAll, hseen]
    · have hnew : Value.text name ∉ (names.eraseDups.map fun name => (Value.text name, f name)).map Prod.fst := by
        simpa using hseen
      rw [setKey_of_not_mem hnew]
      simp [List.removeAll, hseen, List.eraseDups_cons]

end Value

namespace Answering

variable {α : Type} {columns names : List Text} {limit : Int} {n : Nat}

def shownCount (limit : Int) (n : Nat) : Nat :=
  if limit < 0 then n - limit.natAbs else min n limit.toNat

private theorem upTo_eq_take (limit : Int) (members : List α) :
    upTo limit members = members.take (shownCount limit members.length) := by
  unfold upTo shownCount
  split_ifs
  · rfl
  · rw [List.take_eq_take_iff]
    omega

/-- A limit that is not negative is kept to. A negative one is taken for none only as long as it leaves out all there
is. -/
theorem shownCount_eq_min_iff :
    (shownCount limit n : Int) = min (n : Int) (max limit 0) ↔ 0 ≤ limit ∨ (n : Int) ≤ -limit := by
  unfold shownCount
  split_ifs with hnegative <;> omega

/-- A row has the cells of a record as texts, by the names of columns, each once. -/
def IsRowOf (columns : List Text) (r : Record) (row : Value) : Prop :=
  ∃ entries : List (Value × Value), row = .dict entries ∧ (entries.map Prod.fst).Nodup ∧
    ∀ key v, (key, v) ∈ entries ↔ ∃ column ∈ columns, key = .text column ∧ v = .text (r.get column).cellText

private theorem row_eq (columns : List Text) (r : Record) : row columns r =
    .dict (columns.eraseDups.map fun column => (.text column, .text (r.get column).cellText)) := by
  rw [row, Value.foldl_setKey]

theorem isRowOf_row (columns : List Text) (r : Record) : IsRowOf columns r (row columns r) := by
  refine ⟨_, row_eq columns r, ?_, fun key v => ?_⟩
  · rw [List.map_map]
    exact (nodup_eraseDups columns).map fun _ _ heq => Value.text.inj heq
  · simp [eq_comm]

def shownResult (r : Result) (count : Nat) (rows : List Value) : Value :=
  .dict [("intent", .text r.intent.name), ("filters", .text r.description), ("total_count", .int r.total),
    ("records_shown", .int count), ("records", .list rows)]

theorem shownCount_le (limit : Int) (n : Nat) : shownCount limit n ≤ n := by
  unfold shownCount
  split_ifs <;> omega

theorem payload_eq (columns : List Text) (r : Result) (limit : Int) :
    payload columns r limit = shownResult r (shownCount limit r.hits.length)
      ((r.hits.take (shownCount limit r.hits.length)).map fun hit => row columns hit.1) := by
  have hlength := shownCount_le limit r.hits.length
  simp only [payload, shownResult, upTo_eq_take, List.length_map, List.length_take, Nat.min_eq_left hlength]

/-- A row has its own form in JSON, and no brackets inside its own. -/
theorem hasForm_row (columns : List Text) (r : Record) :
    Json.HasForm (row columns r) ∧ ∀ depth, Json.Fits (depth + 1) (row columns r) := by
  obtain ⟨entries, hrow, hnodup, hentries⟩ := isRowOf_row columns r
  have htexts : ∀ entry ∈ entries, ∃ name t, entry = (.text name, .text t) := by
    intro entry hentry
    obtain ⟨column, -, hkey, hcell⟩ := (hentries entry.1 entry.2).mp hentry
    exact ⟨column, _, Prod.ext hkey hcell⟩
  rw [hrow]
  refine ⟨.dict (fun entry hentry => ?_) (fun entry hentry => ?_) hnodup, fun depth => .dict fun entry hentry => ?_⟩
  · obtain ⟨name, t, rfl⟩ := htexts entry hentry
    exact .text t
  · obtain ⟨name, t, rfl⟩ := htexts entry hentry
    exact ⟨name, rfl⟩
  · obtain ⟨name, t, rfl⟩ := htexts entry hentry
    exact .text depth t

/-- What is written of a result is read back, unless there are more records than an integer can be read for. -/
theorem read_write_payload {r : Result} (htotal : r.total < 10 ^ integerDigitLimit)
    (hhits : r.hits.length < 10 ^ integerDigitLimit) :
    Json.read (Json.write (payload columns r limit)) = .ok (payload columns r limit) := by
  have hrows : ∀ v ∈ (r.hits.take (shownCount limit r.hits.length)).map (fun hit => row columns hit.1),
      Json.HasForm v ∧ ∀ depth, Json.Fits (depth + 1) v := by
    intro v hv
    obtain ⟨hit, -, rfl⟩ := List.mem_map.mp hv
    exact hasForm_row columns hit.1
  have hcount : shownCount limit r.hits.length < 10 ^ integerDigitLimit := (shownCount_le limit _).trans_lt hhits
  rw [payload_eq]
  apply Json.read_write
  · refine .dict ?_ ?_ (by simp)
    · simp only [List.forall_mem_cons, List.not_mem_nil, false_imp_iff, implies_true, and_true]
      exact ⟨.text _, .text _, .int _, .int _, .list fun v hv => (hrows v hv).1⟩
    · simp only [List.forall_mem_cons, List.not_mem_nil, false_imp_iff, implies_true, and_true]
      exact ⟨⟨_, rfl⟩, ⟨_, rfl⟩, ⟨_, rfl⟩, ⟨_, rfl⟩, ⟨_, rfl⟩⟩
  · refine .dict ?_
    simp only [List.forall_mem_cons, List.not_mem_nil, false_imp_iff, implies_true, and_true]
    exact ⟨.text _ _, .text _ _, .int _ htotal, .int _ hcount, .list fun v hv => (hrows v hv).2 _⟩

/-- A value that tells how many records a result has, how many of them are shown, and the cells of these. -/
def Tells (columns : List Text) (r : Result) (count : Nat) (v : Value) : Prop :=
  ∃ rows, v = shownResult r count rows ∧
    List.Forall₂ (fun (hit : Hit) row => IsRowOf columns hit.1 row) (r.hits.take count) rows

theorem tells_payload (columns : List Text) (r : Result) (limit : Int) :
    Tells columns r (shownCount limit r.hits.length) (payload columns r limit) := by
  refine ⟨_, payload_eq columns r limit, ?_⟩
  rw [List.forall₂_map_right_iff, List.forall₂_same]
  exact fun hit _ => isRowOf_row columns hit.1

/-- What the model is shown of a result: the number of all records, and of the first records, up to the limit, the
cells in the columns that were asked for. A limit below zero, though, leaves that many out at the end. -/
theorem prompt_shows (s : Snapshot) (names : List Text) (question : Text) (r : Result) (limit : Int) :
    (∃ v, prompt (s.columnsFor names) question r limit = Text.concat ["Question: ", question,
        "\n\nMatching records (JSON):\n", Json.write v, "\n\nJSON answer:"] ∧
      Tells (s.columnsFor names) r (shownCount limit r.hits.length) v ∧
      (r.total < 10 ^ integerDigitLimit → r.hits.length < 10 ^ integerDigitLimit →
        Json.read (Json.write v) = .ok v)) ∧
    (∀ column ∈ s.columnsFor names, column ∈ s.columns) ∧
    ((shownCount limit r.hits.length : Int) = min (r.hits.length : Int) (max limit 0) ↔
      0 ≤ limit ∨ (r.hits.length : Int) ≤ -limit) := by
  have htells := tells_payload (s.columnsFor names) r limit
  refine ⟨⟨_, rfl, htells, fun htotal hhits => ?_⟩, fun _ => Snapshot.mem_columns_of_mem_columnsFor,
    shownCount_eq_min_iff⟩
  exact read_write_payload htotal hhits

def furniture : Dataset where
  header := ["Item"]
  rows := [.list ["lamp"], .list ["desk"]]
  name := "Items"

theorem prompt_shows_furniture : ∃ s r v, Snapshot.build furniture = .ok s ∧ s.execute {} = .ok r ∧
    r.total = 2 ∧ r.hits.length = 2 ∧
    prompt (s.columnsFor []) "What is there?" r 1 = Text.concat ["Question: ", "What is there?",
      "\n\nMatching records (JSON):\n", Json.write v, "\n\nJSON answer:"] ∧
    Tells (s.columnsFor []) r 1 v ∧ Json.read (Json.write v) = .ok v := by
  have hrun : (do
      let s ← Snapshot.build furniture
      let r ← s.execute {}
      return (r.total, r.hits.length)) = .ok (2, 2) := by
    decide +kernel
  obtain ⟨s, hs, hrun⟩ := bind_eq_ok_iff.mp hrun
  obtain ⟨r, hr, hrun⟩ := bind_eq_ok_iff.mp hrun
  obtain ⟨htotal, hlength⟩ := Prod.mk.inj (Except.ok.inj hrun)
  have hfew : 2 < 10 ^ integerDigitLimit :=
    Nat.lt_of_lt_of_le (by decide : 2 < 10 ^ 1) (Nat.pow_le_pow_right (by decide) (by decide))
  obtain ⟨⟨v, hprompt, htells, hread⟩, -, -⟩ := prompt_shows s [] "What is there?" r 1
  rw [hlength] at htells
  exact ⟨s, r, v, hs, hr, htotal, hlength, hprompt, htells, hread (htotal ▸ hfew) (hlength ▸ hfew)⟩

/-- With a limit of minus one there is still a record that is shown. -/
theorem prompt_of_negative_limit : ∃ s r, Snapshot.build furniture = .ok s ∧ s.execute {} = .ok r ∧
    prompt (s.columnsFor []) "What is there?" r (-1) = Text.concat ["Question: What is there?",
      "\n\nMatching records (JSON):\n\x7b\"intent\": \"list\", \"filters\": \"all records\", \"total_count\": 2, ",
      "\"records_shown\": 1, \"records\": [\x7b\"Item\": \"lamp\"\x7d]\x7d\n\nJSON answer:"] ∧
    (1 : Int) ≠ min (r.hits.length : Int) (max (-1) 0) := by
  have hrun : (do
      let s ← Snapshot.build furniture
      let r ← s.execute {}
      return (prompt (s.columnsFor []) "What is there?" r (-1), r.hits.length)) =
        .ok (Text.concat ["Question: What is there?",
          "\n\nMatching records (JSON):\n\x7b\"intent\": \"list\", \"filters\": \"all records\", \"total_count\": 2, ",
          "\"records_shown\": 1, \"records\": [\x7b\"Item\": \"lamp\"\x7d]\x7d\n\nJSON answer:"], 2) := by
    decide +kernel
  obtain ⟨s, hs, hrun⟩ := bind_eq_ok_iff.mp hrun
  obtain ⟨r, hr, hrun⟩ := bind_eq_ok_iff.mp hrun
  obtain ⟨hprompt, hlength⟩ := Prod.mk.inj (Except.ok.inj hrun)
  refine ⟨s, r, hs, hr, hprompt, ?_⟩
  rw [hlength]
  decide

end Answering
end AskTable
