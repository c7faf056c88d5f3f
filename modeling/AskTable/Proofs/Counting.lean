import AskTable.Proofs.Header
import AskTable.Proofs.Scope

/-! Counting without a restriction. The plan counts the records with content in one column; that is all of them
exactly if a column without blanks is there and its name means it. -/
namespace AskTable

theorem Text.lower_ne_nil {t : Text} (h : t ≠ []) : t.lower ≠ [] := by
  cases t with
  | nil => exact absurd rfl h
  | cons c rest =>
    have hchar : lowerChar c ≠ [] := by
      unfold lowerChar
      dsimp only
      split_ifs <;> simp
    unfold lower lowerAfter
    dsimp only
    split_ifs <;> simp [hchar]

namespace Field

variable {columns : List Text} {column : Text}

/-- The name of a column means the first column of that name in any case. -/
theorem resolve?_of_mem (hname : column.IsName) (hcolumn : column ∈ columns) :
    resolve? column columns = columns.find? fun other => plain other == plain column := by
  have hplain : plain column ≠ [] := by
    rw [plain, hname.strip_eq]
    exact Text.lower_ne_nil hname.ne_nil
  have hfound : (columns.find? fun other => plain other == plain column).isSome = true :=
    List.find?_isSome.mpr ⟨column, hcolumn, by simp⟩
  obtain ⟨found, hfound⟩ := Option.isSome_iff_exists.mp hfound
  unfold resolve?
  dsimp only
  rw [if_neg (by simpa using hplain), hfound]
  rfl

end Field

theorem Filter.condition?_toFilter {columns : List Text} (c : Condition) :
    c.toFilter.condition? columns =
      (Field.resolve? c.field columns).map fun column => { c with field := column } := by
  have hfield : c.toFilter.field.fieldName = c.field := Value.fieldName_text c.field
  unfold condition?
  rw [hfield, c.operator?_toFilter]
  cases Field.resolve? c.field columns <;> rfl

namespace Question

/-- A question that names no place, month, year, day, identifier or keyword. -/
structure IsUnrestricted (q : Text) (s : Snapshot) : Prop where
  place : location? q = none
  month : month? q = none
  year : year? q = none
  day : date? q = .ok none
  identifier : identifier? q = none
  keyword : keyword? q (some s) = none

theorem countConditions_of_isUnrestricted {q column : Text} {s : Snapshot} (h : IsUnrestricted q s)
    (hcolumn : mostComplete? (some s) = some column) :
    countConditions q (some s) = [⟨column, .isNotEmpty, .null⟩] := by
  simp [countConditions, scope, placeConditions, h.place, h.month, h.year, h.identifier, h.keyword,
    hcolumn]

end Question

open Question (blanks)

namespace Snapshot

variable {source : Dataset} {s : Snapshot} {column : Text} {p : Plan}

/-- Whether there is a column without blanks, and before the first such column none that has its name in
another case. -/
def HasFullColumn (s : Snapshot) : Prop :=
  ∃ before column after, s.columns = before ++ column :: after ∧ blanks s column = 0 ∧
    ∀ other ∈ before, blanks s other ≠ 0 ∧ Field.plain other ≠ Field.plain column

/-- The records with content in a column are counted, and those without are left out. -/
theorem total_add_blanks (hp : p.conditions s.columns = [⟨column, .isNotEmpty, .null⟩])
    (hintent : p.intent ≠ .lastAction) :
    ∃ result, s.execute p = .ok result ∧ result.total + blanks s column = s.records.length := by
  obtain ⟨result, hresult, hhits, htotal⟩ := exists_execute_of_isTotal hp rfl hintent
  refine ⟨result, hresult, ?_⟩
  have hholds : ∀ hit ∈ s.hits, (Condition.holds s.columns ⟨column, .isNotEmpty, .null⟩ hit.1 == .ok true) =
      !(hit.1.get column).isBlank := by
    intro hit _
    change (Except.ok (!(hit.1.get column).isBlank) == Except.ok true) = _
    cases (hit.1.get column).isBlank <;> rfl
  have hcount : result.total = s.records.countP fun r => !(r.get column).isBlank := by
    have hrecords : s.records = s.hits.map Prod.fst := (List.zipIdx_map_fst _ _).symm
    rw [htotal, hhits, List.filter_congr hholds, ← List.countP_eq_length_filter, hrecords, List.countP_map]
    rfl
  have hall := List.length_eq_countP_add_countP (l := s.records) fun r => !(r.get column).isBlank
  rw [hcount, hall, blanks]
  simp

theorem columns_ne_nil (hs : build source = .ok s) (hrecords : s.records ≠ []) : s.columns ≠ [] := by
  obtain ⟨table, htable, hcolumns, htaken⟩ := load_of_build hs
  rcases Table.load_cases htable with ⟨-, rfl⟩ | ⟨hsome, body, numeric, records, -, -, -, rfl⟩
  · exact absurd htaken hrecords
  · rwa [hcolumns]

/-- The column with the fewest blanks has a name that means a full column exactly if there is one to be
meant. -/
theorem blanks_resolved_eq_zero_iff {chosen : Text} (hnames : ∀ column ∈ s.columns, column.IsName)
    (hchosen : Question.mostComplete? (some s) = some chosen)
    (hcolumn : Field.resolve? chosen s.columns = some column) :
    blanks s column = 0 ↔ s.HasFullColumn := by
  have hleast : s.columns.argmin (blanks s) = some chosen :=
    (Question.firstLeast_eq_argmin (blanks s) s.columns).symm.trans hchosen
  obtain ⟨before, after, hsplit, hbefore, -⟩ := argmin_eq_some_iff_append.mp hleast
  have hmem : chosen ∈ s.columns := by simp [hsplit]
  rw [Field.resolve?_of_mem (hnames chosen hmem) hmem] at hcolumn
  constructor
  · intro hfull
    -- Nothing before the chosen column is full, so its name means the column itself.
    have hnone : before.find? (fun other => Field.plain other == Field.plain chosen) = none := by
      cases hfound : before.find? fun other => Field.plain other == Field.plain chosen with
      | none => rfl
      | some other =>
        rw [hsplit, List.find?_append, hfound] at hcolumn
        obtain rfl : other = column := Option.some.inj hcolumn
        have hless := hbefore other (List.mem_of_find?_eq_some hfound)
        omega
    rw [hsplit, List.find?_append, hnone] at hcolumn
    obtain rfl : chosen = column := by simpa using hcolumn
    refine ⟨before, chosen, after, hsplit, hfull, fun other hother => ⟨?_, ?_⟩⟩
    · have hless := hbefore other hother
      omega
    · simpa using List.find?_eq_none.mp hnone other hother
  · intro hfull
    obtain ⟨front, full, rest, hfront, hzero, hearlier⟩ := hfull
    have hless : blanks s chosen ≤ blanks s full := List.le_of_mem_argmin (by simp [hfront]) hleast
    -- Both are the first column without blanks.
    have hfirst : s.columns.find? (fun c => blanks s c == 0) = some chosen := by
      refine List.find?_eq_some_iff_append.mpr ⟨by simp; omega, before, after, hsplit, ?_⟩
      intro other hother
      have hmore := hbefore other hother
      simp
      omega
    have hfound : s.columns.find? (fun c => blanks s c == 0) = some full := by
      refine List.find?_eq_some_iff_append.mpr ⟨by simp [hzero], front, rest, hfront, ?_⟩
      intro other hother
      simpa using (hearlier other hother).1
    obtain rfl : chosen = full := Option.some.inj (hfirst.symm.trans hfound)
    have hmeant : s.columns.find? (fun other => Field.plain other == Field.plain chosen) =
        some chosen := by
      refine List.find?_eq_some_iff_append.mpr ⟨by simp, front, rest, hfront, ?_⟩
      intro other hother
      simpa using (hearlier other hother).2
    obtain rfl := Option.some.inj (hmeant.symm.trans hcolumn)
    exact hzero

end Snapshot

namespace Rule

variable {source : Dataset} {s : Snapshot} {question : Text} {p : Plan}

/-- A counting question that restricts nothing is always answered. It counts all records exactly if the table
has a full column; otherwise it leaves out those that are blank in the column it counts by. -/
theorem count_is_total_iff (hs : Snapshot.build source = .ok s) (hrecords : s.records ≠ [])
    (h : find? question (some s) = .ok (some (.count, p)))
    (hfree : Question.IsUnrestricted question.strip s) :
    ∃ result column, s.execute p = .ok result ∧ column ∈ s.columns ∧
      result.total + blanks s column = s.records.length ∧
      (result.total = s.records.length ↔ s.HasFullColumn) := by
  have hnames : ∀ column ∈ s.columns, column.IsName := fun _ => Snapshot.isName_of_build hs
  have hnonempty := Snapshot.columns_ne_nil hs hrecords
  obtain ⟨chosen, hchosen⟩ : ∃ chosen, Question.mostComplete? (some s) = some chosen := by
    refine Option.ne_none_iff_exists'.mp fun hnone => hnonempty ?_
    exact List.argmin_eq_none.mp ((Question.firstLeast_eq_argmin (blanks s) s.columns).symm.trans hnone)
  have hmem : chosen ∈ s.columns := Question.mem_of_firstLeast hchosen
  obtain ⟨column, hcolumn⟩ : ∃ column, Field.resolve? chosen s.columns = some column := by
    rw [Field.resolve?_of_mem (hnames chosen hmem) hmem]
    exact Option.isSome_iff_exists.mp (List.find?_isSome.mpr ⟨chosen, hmem, by simp⟩)
  obtain rfl : p = Plan.under .count [⟨chosen, .isNotEmpty, .null⟩] := by
    rw [← Question.countConditions_of_isUnrestricted hfree hchosen]
    cases makes_of_plan? (plan?_of_find? h).1
    rfl
  have hconditions : (Plan.under .count [⟨chosen, .isNotEmpty, .null⟩]).conditions s.columns =
      [⟨column, .isNotEmpty, .null⟩] := by
    simp [Plan.conditions, Plan.under, Filter.condition?_toFilter, hcolumn]
  obtain ⟨result, hresult, htotal⟩ := Snapshot.total_add_blanks hconditions (by simp [Plan.under])
  refine ⟨result, column, hresult, Field.mem_of_resolve? hcolumn, htotal, ?_⟩
  rw [← Snapshot.blanks_resolved_eq_zero_iff hnames hchosen hcolumn]
  omega

/-- Whatever else a question says, one that asks how many is planned as a count. -/
theorem find?_of_asksCount {s : Option Snapshot} (hcount : Question.asksCount question.strip = true)
    (hblank : question.strip ≠ []) :
    find? question s =
      .ok (some (.count, Plan.under .count (Question.countConditions question.strip s))) := by
  unfold find?
  dsimp only
  rw [if_neg (by simpa using hblank)]
  simp only [all, firstOf, plan?, hcount, if_true]
  rfl

def plainQuestion : Text := "How many records?"

theorem isUnrestricted_plainQuestion (s : Snapshot) :
    Question.IsUnrestricted plainQuestion.strip s where
  place := by decide +kernel
  month := by decide +kernel
  year := by decide +kernel
  day := by decide +kernel
  identifier := by decide +kernel
  keyword := by
    have hquoted : Question.quoted? plainQuestion.strip = none := by decide +kernel
    have hcued : Question.cues.findSome? (Question.cued? plainQuestion.strip) = none := by
      decide +kernel
    have htokens : questionTokens plainQuestion.strip = [] := by decide +kernel
    simp [Question.keyword?, hquoted, hcued, Question.indexed?, Snapshot.lookup, htokens]

theorem find?_plainQuestion (s : Snapshot) : find? plainQuestion (some s) =
    .ok (some (.count, Plan.under .count (Question.countConditions plainQuestion.strip (some s)))) :=
  find?_of_asksCount (by decide +kernel) (by decide)

/-- Two tools, one of them without a number. -/
def tools : Dataset where
  header := ["Number", "Tool"]
  rows := [.list ["", "saw"], .list ["7", "drill"]]
  name := "tools"

theorem count_tools_is_total : ∃ s p result, Snapshot.build tools = .ok s ∧ s.records ≠ [] ∧
    find? plainQuestion (some s) = .ok (some (.count, p)) ∧
    Question.IsUnrestricted plainQuestion.strip s ∧ s.HasFullColumn ∧ s.execute p = .ok result ∧
    result.total = s.records.length := by
  have hrun : (Snapshot.build tools).map (fun s => (s.columns, s.records.length,
      blanks s "Number", blanks s "Tool")) = .ok (["Number", "Tool"], 2, 1, 0) := by
    decide +kernel
  obtain ⟨s, hs, hfacts⟩ := map_eq_ok_iff.mp hrun
  simp only [Prod.mk.injEq] at hfacts
  obtain ⟨hcolumns, hlength, hnumber, htool⟩ := hfacts
  have hrecords : s.records ≠ [] := by
    intro hnone
    simp [hnone] at hlength
  have hfull : s.HasFullColumn := by
    refine ⟨["Number"], "Tool", [], hcolumns, htool, fun other hother => ?_⟩
    obtain rfl := List.mem_singleton.mp hother
    exact ⟨by omega, by decide +kernel⟩
  obtain ⟨result, column, hresult, -, -, htotal⟩ :=
    count_is_total_iff hs hrecords (find?_plainQuestion s) (isUnrestricted_plainQuestion s)
  exact ⟨s, _, result, hs, hrecords, find?_plainQuestion s, isUnrestricted_plainQuestion s, hfull,
    hresult, htotal.mpr hfull⟩

def LeavesOut (source : Dataset) : Prop :=
  ∃ s p result, Snapshot.build source = .ok s ∧ s.records ≠ [] ∧
    find? plainQuestion (some s) = .ok (some (.count, p)) ∧
    Question.IsUnrestricted plainQuestion.strip s ∧ s.execute p = .ok result ∧
    result.total < s.records.length

private theorem leavesOut_of_run {source : Dataset} {n total : Nat} (hfewer : total < n)
    (h : (Snapshot.build source >>= fun s =>
      (s.execute (Plan.under .count (Question.countConditions plainQuestion.strip (some s)))).map
        fun result => (s.records.length, result.total)) = .ok (n, total)) : LeavesOut source := by
  obtain ⟨s, hs, hcounts⟩ := bind_eq_ok_iff.mp h
  obtain ⟨result, hresult, heq⟩ := map_eq_ok_iff.mp hcounts
  obtain ⟨rfl, rfl⟩ := Prod.mk.inj heq
  have hrecords : s.records ≠ [] := List.length_pos_iff.mp (Nat.zero_lt_of_lt hfewer)
  exact ⟨s, _, result, hs, hrecords, find?_plainQuestion s, isUnrestricted_plainQuestion s, hresult,
    hfewer⟩

/-- Two tools, with a blank in each column. -/
def spareTools : Dataset where
  header := ["Tool", "Spare"]
  rows := [.list ["saw", ""], .list ["", "drill"]]
  name := []

/-- Two tools, in a column whose name stands before it in another case. -/
def twiceNamedTools : Dataset where
  header := ["tool", "Tool"]
  rows := [.list ["", "saw"], .list ["", "drill"]]
  name := []

/-- Of the first tools one is counted, and of the others none. -/
theorem leavesOut_tools : LeavesOut spareTools ∧ LeavesOut twiceNamedTools := by
  constructor
  · exact leavesOut_of_run (by decide : 1 < 2) (by decide +kernel)
  · exact leavesOut_of_run (by decide : 0 < 2) (by decide +kernel)

end Rule
end AskTable
