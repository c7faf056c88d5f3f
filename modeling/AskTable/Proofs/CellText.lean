import AskTable.Proofs.Feasible
import AskTable.Proofs.WholeNumber

/-! Finding a record by the text that one of its cells had in the file. In a column of numbers the number that a text
writes takes its place, so the text is found there if it is the one that the number is shown by; a whole number of at
most 53 bits in the usual notation is. -/
namespace AskTable

/-- The text, if it writes a number, is the one that the number is shown by, blanks at its ends and case apart. -/
def Text.IsKept (t : Text) : Prop :=
  ∀ n, (Value.text t).numeral? = some n → (Value.ofNumber n).cellText.lower = t.strip.lower

/-- A whole number of at most 53 bits in the usual notation is kept. -/
theorem Text.isKept_of_strip_eq_ofInt {t : Text} {n : Int} (hn : n.natAbs < 2 ^ 53) (ht : t.strip = ofInt n) :
    t.IsKept := by
  intro m hm
  have hsize : (WholeText.ofInt n).size < 2 ^ 53 := by rwa [WholeText.size_ofInt]
  have hkept : Binary64.roundInt (WholeText.ofInt n).value = (WholeText.ofInt n).value :=
    WholeText.roundInt_value_eq_iff.mpr ⟨_, 0, hsize, (Nat.mul_one _).symm⟩
  have hread : (Value.text t).number? = .ok (some (.int n)) := by
    rw [WholeText.number?_of_strip_eq (ht.trans (WholeText.text_ofInt n).symm)
      (WholeText.lt_overflowBound (hsize.trans (by decide +kernel))), hkept, WholeText.value_ofInt]
  rw [Value.numeral?, hread] at hm
  obtain rfl := Option.some.inj hm
  have hsolid : (ofInt n).strip = ofInt n := by rw [← ht, strip_strip]
  rw [ht]
  change (strip (ofInt n)).lower = _
  rw [hsolid]

namespace Table

/-- What a text becomes has the text for its own exactly if it is not taken for a number, or kept as one. -/
theorem lower_cellText_entryOf_iff {isNumbers : Bool} {t : Text} :
    (entryOf isNumbers (.text t)).cellText.lower = t.strip.lower ↔ (isNumbers = true → t.IsKept) := by
  have htrim : (trimCell (.text t)).cellText.lower = t.strip.lower := by
    rw [trimCell, Value.cellText_text, Text.strip_strip]
  cases isNumbers with
  | false => simp [entryOf, htrim]
  | true =>
    unfold entryOf Text.IsKept
    cases (Value.text t).numeral? with
    | none => simp [htrim]
    | some n => simp

private theorem isDateColumn_of_isNumberColumn {header rows : List Value} {columns : List Text} {column : Text}
    {i : Nat} (hcolumn : (Header.columns header)[i]? = some column) (h : isNumberColumn header rows i = true) :
    Snapshot.isDateColumn columns column = false := by
  simp [Snapshot.isDateColumn, ofName_of_isNumberColumn hcolumn h]

end Table

namespace Snapshot

variable {source : Dataset} {s : Snapshot}

theorem admits_equals (columns : List Text) (column t : Text) (r : Record) :
    (Condition.toFilter ⟨column, .equals, .text t⟩).admits columns r =
      .ok ((r.textsAt columns column).any (· == t.strip.lower)) := by
  rw [Condition.admits_toFilter, ← Value.cellText_text]
  rfl

/-- Under different column names, each record is found by the text that a cell of its row had in the file, unless the
column is one of numbers and the text is not the one that its number is shown by. -/
theorem equals_finds_text_iff (hs : build source = .ok s) (hnodup : (Header.columns source.header).Nodup)
    (hrows : ∀ row ∈ source.rows, row.isPositional = true) :
    List.Forall₂ (fun row r => ∀ i column t, (Header.columns source.header)[i]? = some column →
      row.cellAt i = .text t →
        ∃ found, (Condition.toFilter ⟨column, .equals, .text t⟩).admits s.columns r = .ok found ∧
          (found = true ↔ (Table.isNumberColumn source.header source.rows i = true → t.IsKept)) ∧
          ∀ n : Int, n.natAbs < 2 ^ 53 → t.strip = Text.ofInt n → found = true)
      (source.rows.filter (Table.hasContent source.header)) s.records := by
  obtain ⟨table, htable, -, hrecords⟩ := load_of_build hs
  rw [hrecords]
  refine (Table.isRecordOf_of_load hnodup hrows htable).imp fun row r hrecord i column t hcolumn hcell => ?_
  have hown : (r.get column).cellText.lower = t.strip.lower ↔
      (Table.isNumberColumn source.header source.rows i = true → t.IsKept) := by
    rw [Record.get, hrecord.entry i column hcolumn, hcell]
    exact Table.lower_cellText_entryOf_iff
  have hfound : (r.textsAt s.columns column).any (· == t.strip.lower) = true ↔
      (Table.isNumberColumn source.header source.rows i = true → t.IsKept) := by
    rw [Record.textsAt_eq_cons, List.any_cons, Bool.or_eq_true, beq_iff_eq, hown]
    refine or_iff_left_of_imp fun hdate hnumbers => ?_
    rw [Record.tail_textsAt_eq_nil (Table.isDateColumn_of_isNumberColumn hcolumn hnumbers)] at hdate
    cases hdate
  exact ⟨_, admits_equals _ _ _ _, hfound, fun n hn ht => hfound.mpr fun _ => Text.isKept_of_strip_eq_ofInt hn ht⟩

/-- A tool under a number with a zero in front, at a price with a comma. -/
def priceList : Dataset where
  header := ["Tool", "Code", "Price"]
  rows := [.list [" Saw ", "007", "1,200"], .list ["Drill", "n/a", "250"]]
  name := []

theorem columns_priceList : Header.columns priceList.header = ["Tool", "Code", "Price"] := by
  decide +kernel

theorem equals_finds_saw : ∃ s r r', build priceList = .ok s ∧ s.records = [r, r'] ∧
    (Condition.toFilter ⟨"Tool", .equals, .text " Saw "⟩).admits s.columns r = .ok true ∧
    (Condition.toFilter ⟨"Code", .equals, .text "007"⟩).admits s.columns r = .ok true ∧
    (Condition.toFilter ⟨"Price", .equals, .text "250"⟩).admits s.columns r' = .ok true := by
  have hbuilt : (build priceList).map (·.columns.length) = .ok 3 := by decide +kernel
  obtain ⟨s, hs, -⟩ := map_eq_ok_iff.mp hbuilt
  have hall := equals_finds_text_iff hs (by rw [columns_priceList]; decide) (by decide)
  have hfilled : priceList.rows.filter (Table.hasContent priceList.header) = priceList.rows := by rfl
  rw [hfilled] at hall
  obtain ⟨r, rest, hr, hrest, hrecords⟩ := List.forall₂_cons_left_iff.mp hall
  obtain ⟨r', none, hr', hnone, rfl⟩ := List.forall₂_cons_left_iff.mp hrest
  obtain rfl := List.forall₂_nil_left_iff.mp hnone
  have htexts : ∀ i < 2, Table.isNumberColumn priceList.header priceList.rows i = false := by decide +kernel
  obtain ⟨tool, htool, hsaw, -⟩ := hr 0 "Tool" " Saw " (by rw [columns_priceList]; rfl) rfl
  obtain ⟨code, hcode, hseven, -⟩ := hr 1 "Code" "007" (by rw [columns_priceList]; rfl) rfl
  obtain ⟨price, hprice, -, hwhole⟩ := hr' 2 "Price" "250" (by rw [columns_priceList]; rfl) rfl
  refine ⟨s, r, r', hs, hrecords, ?_, ?_, ?_⟩
  · rw [htool, hsaw.mpr (by simp [htexts])]
  · rw [hcode, hseven.mpr (by simp [htexts])]
  · rw [hprice, hwhole 250 (by decide) (by decide)]

/-- The price with a comma is not found by its text, for it is taken for a number. -/
theorem price_not_found : ∃ s r r', build priceList = .ok s ∧ s.records = [r, r'] ∧
    (Header.columns priceList.header).Nodup ∧ (∀ row ∈ priceList.rows, row.isPositional = true) ∧
    priceList.rows.map (·.cellAt 2) = [.text "1,200", .text "250"] ∧
    (Condition.toFilter ⟨"Price", .equals, .text "1,200"⟩).admits s.columns r = .ok false := by
  have hrun : (build priceList).map (fun s => s.records.map fun r =>
      (Condition.toFilter ⟨"Price", .equals, .text "1,200"⟩).admits s.columns r) =
        .ok [.ok false, .ok false] := by
    decide +kernel
  obtain ⟨s, hs, hanswers⟩ := map_eq_ok_iff.mp hrun
  obtain ⟨r, rest, hrecords, hr, hrest⟩ := List.map_eq_cons_iff.mp hanswers
  obtain ⟨r', none, rfl, -, hnone⟩ := List.map_eq_cons_iff.mp hrest
  obtain rfl := List.map_eq_nil_iff.mp hnone
  exact ⟨s, r, r', hs, hrecords, by rw [columns_priceList]; decide, by decide, rfl, hr⟩

end Snapshot
end AskTable
