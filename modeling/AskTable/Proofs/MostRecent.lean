import AskTable.Answer.Report
import AskTable.Proofs.Newest

/-! Whether the record that is shown as the newest one is so by the date that is shown with it. It is where the column
of that date has the word in its name; a column that is only taken for one of dates by likeness orders nothing, and the
first match is shown. -/
namespace AskTable

namespace Recency

variable {columns : List Text} {given sorted rest : List Hit} {hit : Hit} {column : Text}

/-- No hit has a later date than this one, and if there is none in its cell, there is none in any. -/
def IsMostRecent (column : Text) (given : List Hit) (hit : Hit) : Prop :=
  ∀ other ∈ given, ∀ d ∈ other.1.dateIn? column, ∃ e ∈ hit.1.dateIn? column, ¬ e.IsBefore d

instance (column : Text) (given : List Hit) (hit : Hit) : Decidable (IsMostRecent column given hit) :=
  inferInstanceAs (Decidable (∀ other ∈ given, ∀ d ∈ other.1.dateIn? column, ∃ e ∈ hit.1.dateIn? column, _))

private theorem isMostRecent_head (h : IsNewestFirst column given (hit :: rest)) : IsMostRecent column given hit := by
  intro other hother d hd
  rcases List.mem_cons.mp (h.perm.mem_iff.mpr hother) with rfl | hlater
  · exact isNotOlder_iff.mp (isNotOlder_of_eq rfl) d hd
  · exact (List.pairwise_cons.mp h.ordered).1 other hlater d hd

/-- The column that the word "date" means has the word in its name, and is the one that orders records; or no column
has it, and none orders them. -/
theorem of_resolve?_date (hnames : ∀ column ∈ columns, column.IsName)
    (h : Field.resolve? "date" columns = some column) :
    (column.lower.contains "date" = true ∧ dateColumn? columns = some column) ∨
      (column.lower.contains "date" = false ∧ dateColumn? columns = none) := by
  rw [Field.resolve?_eq_resolveUnder, resolveUnder_date _ hnames, Option.orElse_eq_orElse, Option.orElse_eq_or,
    Option.or_eq_some_iff] at h
  rcases h with hdate | ⟨hnone, hlike⟩
  · exact .inl ⟨(of_dateColumn? hdate).2, hdate⟩
  · have hmem : column ∈ columns := by
      obtain ⟨hbest, -⟩ := Option.filter_eq_some_iff.mp hlike
      exact Field.mem_of_firstBest hbest
    have hpart : (columns.find? fun column => column.lower.contains "date") = none := by
      have hneither := hnone
      rw [dateColumn?, Option.orElse_eq_orElse, Option.orElse_eq_or, Option.or_eq_none_iff] at hneither
      exact hneither.2
    have hword := List.find?_eq_none.mp hpart column hmem
    exact .inr ⟨Bool.eq_false_iff.mpr hword, hnone⟩

end Recency

namespace Snapshot

variable {source : Dataset} {s : Snapshot} {p : Plan} {column : Text} {names : List Text} {selected : List Hit}

/-- What is kept of the matches for the last action, by the column that the word "date" means. -/
theorem exists_keep_lastAction (hs : build source = .ok s) (hselected : ∀ other ∈ selected, other.1 ∈ s.records)
    (hsome : selected ≠ []) (hcolumn : Field.resolve? "date" s.columns = some column)
    (hfree : Shadow.parsed.field column ∉ s.columns) :
    ∃ hit, s.keep .lastAction selected = .ok [hit] ∧ hit ∈ selected ∧
      ((column.lower.contains "date" = true ∧
          (∀ other ∈ selected, (other.1.get column).date? = .ok (other.1.dateIn? column)) ∧
          Recency.IsMostRecent column selected hit) ∨
        (column.lower.contains "date" = false ∧ selected.head? = some hit)) := by
  have hcase := Recency.of_resolve?_date (fun _ => isName_of_build hs) hcolumn
  have hparsed : ∀ other ∈ Recency.dateColumn? s.columns, Shadow.parsed.field other ∉ s.columns := by
    intro other hother
    rcases hcase with ⟨-, hdate⟩ | ⟨-, hnone⟩
    · obtain rfl := Option.some.inj (hdate.symm.trans hother)
      exact hfree
    · rw [hnone] at hother
      cases hother
  have hsorted := sort_eq_newestFirst hs hparsed hselected
  have hne : Recency.newestFirst s.columns selected ≠ [] := by
    rw [← List.length_pos_iff, Recency.length_sort hsorted, List.length_pos_iff]
    exact hsome
  obtain ⟨hit, later, hnewest⟩ := List.exists_cons_of_ne_nil hne
  refine ⟨hit, ?_, Recency.mem_of_mem_sort hsorted (by simp [hnewest]), ?_⟩
  · rw [keep, if_pos rfl, hsorted, hnewest]
    rfl
  · rcases hcase with ⟨hword, hdate⟩ | ⟨hword, hnone⟩
    · refine .inl ⟨hword, fun other hother => ?_, ?_⟩
      · obtain ⟨hmem, hclass⟩ := class_of_dateColumn? hs hdate
        exact Record.date?_eq_dateIn? (isLoaded_of_build hs (hselected other hother)) hmem hclass
      · have horder := Recency.isOrder_newestFirst s.columns selected
        rw [Recency.IsOrder, hdate, hnewest] at horder
        exact Recency.isMostRecent_head horder
    · refine .inr ⟨hword, ?_⟩
      have hkept : Recency.newestFirst s.columns selected = selected := by rw [Recency.newestFirst, hnone]
      rw [← hkept, hnewest, List.head?_cons]

/-- The line on the last action shows the date in the column that the word "date" means. -/
theorem actionLine_eq {r : Record} {actionColumn : Text} (hcolumn : Field.resolve? "date" s.columns = some column)
    (haction : Field.resolve? "action" s.columns = some actionColumn)
    (hfilled : (r.get actionColumn).isBlank = false) :
    Report.actionLine s r =
      [Text.concat ["Last action: ", (r.get actionColumn).cellText, " on ", Report.cell r column]] := by
  have haction : (Field.resolve? "action" s.columns).filter (fun column => !(r.get column).isBlank) =
      some actionColumn := by
    rw [haction, Option.filter_some, if_pos (by simp [hfilled])]
  rw [Report.actionLine, haction, hcolumn]
  simp [Report.cell, hfilled, Text.concat]

/-- A plan for the last action shows one of its matches. Where the column of the date that is shown has the word in its
name, no match has a later date there; in any other case the first match is shown, whatever its date. -/
theorem last_action_shown (hs : build source = .ok s) (hintent : p.intent = .lastAction)
    (hselected : s.select (p.conditions s.columns) = .ok selected) (hsome : selected ≠ [])
    (hnames : p.fieldNames = .ok names) (hcolumn : Field.resolve? "date" s.columns = some column)
    (hfree : Shadow.parsed.field column ∉ s.columns) (note : Text) :
    ∃ result hit, s.execute p = .ok result ∧ result.hits = [hit] ∧ hit ∈ selected ∧
      (∃ heading, result.answer s p note = .ok (Report.noted note (Text.join "\n"
        ([heading] ++ Report.actionLine s hit.1 ++ [Report.block 1 hit.1 (s.columnsFor names)])))) ∧
      (∀ actionColumn, Field.resolve? "action" s.columns = some actionColumn →
        (hit.1.get actionColumn).isBlank = false → Report.actionLine s hit.1 =
          [Text.concat ["Last action: ", (hit.1.get actionColumn).cellText, " on ", Report.cell hit.1 column]]) ∧
      ((column.lower.contains "date" = true ∧
          (∀ other ∈ selected, (other.1.get column).date? = .ok (other.1.dateIn? column)) ∧
          Recency.IsMostRecent column selected hit) ∨
        (column.lower.contains "date" = false ∧ selected.head? = some hit)) := by
  have hrecords : ∀ other ∈ selected, other.1 ∈ s.records := fun other hother =>
    fst_mem_of_mem_hits (List.mem_of_mem_filter (select_eq_filter hselected ▸ hother))
  obtain ⟨hit, hkept, hhit, hrecent⟩ := exists_keep_lastAction hs hrecords hsome hcolumn hfree
  rw [← hintent] at hkept
  have hresult := execute_eq_ok_iff.mpr ⟨selected, [hit], hselected, hkept, rfl⟩
  refine ⟨_, hit, hresult, rfl, hhit, ?_, fun _ haction hfilled => actionLine_eq hcolumn haction hfilled, hrecent⟩
  unfold Result.answer Report.answer
  simp only [Result.report, hintent, hnames, List.map_cons]
  exact ⟨_, rfl⟩

/-- Two repairs, the later one second. -/
def repairsBy (column : Text) : Dataset where
  header := ["Action", .text column]
  rows := [.list ["patched", "2024-01-01"], .list ["replaced", "2024-05-05"]]
  name := "Repairs"

def lastOfAll : Plan := { intent := .lastAction }

theorem last_action_shown_dated : ∃ s result hit selected, build (repairsBy "Date") = .ok s ∧
    s.execute lastOfAll = .ok result ∧ result.hits = [hit] ∧
    s.select (lastOfAll.conditions s.columns) = .ok selected ∧ hit ∈ selected ∧
    Recency.IsMostRecent "Date" selected hit := by
  have hrun : (do
      let s ← build (repairsBy "Date")
      let selected ← s.select (lastOfAll.conditions s.columns)
      return Field.resolve? "date" s.columns == some "Date" && decide (Shadow.parsed.field "Date" ∉ s.columns) &&
        !selected.isEmpty) = .ok true := by
    decide +kernel
  obtain ⟨s, hs, hrun⟩ := bind_eq_ok_iff.mp hrun
  obtain ⟨selected, hselected, hrun⟩ := bind_eq_ok_iff.mp hrun
  have hfacts := Except.ok.inj hrun
  simp only [Bool.and_eq_true, beq_iff_eq, decide_eq_true_eq, Bool.not_eq_true', List.isEmpty_eq_false_iff] at hfacts
  obtain ⟨⟨hcolumn, hfree⟩, hsome⟩ := hfacts
  obtain ⟨result, hit, hresult, hhits, hhit, -, -, ⟨-, -, hrecent⟩ | ⟨hother, -⟩⟩ :=
    last_action_shown hs rfl hselected hsome rfl hcolumn hfree []
  · exact ⟨s, result, hit, selected, hs, hresult, hhits, hselected, hhit, hrecent⟩
  · exact absurd hother (by decide)

/-- A column that is only like the word is shown for the date but orders nothing, so an older record is shown. -/
theorem last_action_of_likeness_is_older : ∃ s result hit selected, build (repairsBy "Dte") = .ok s ∧
    s.execute lastOfAll = .ok result ∧ Field.resolve? "date" s.columns = some "Dte" ∧
    Shadow.parsed.field "Dte" ∉ s.columns ∧ result.hits = [hit] ∧
    s.select (lastOfAll.conditions s.columns) = .ok selected ∧
    Report.actionLine s hit.1 = ["Last action: patched on 2024-01-01"] ∧
    ¬ Recency.IsMostRecent "Dte" selected hit := by
  have hrun : (do
      let s ← build (repairsBy "Dte")
      let result ← s.execute lastOfAll
      let selected ← s.select (lastOfAll.conditions s.columns)
      return Field.resolve? "date" s.columns == some "Dte" && decide (Shadow.parsed.field "Dte" ∉ s.columns) &&
        result.hits.length == 1 && result.hits.all fun hit =>
          Report.actionLine s hit.1 == ["Last action: patched on 2024-01-01"] &&
            !Recency.IsMostRecent "Dte" selected hit) = .ok true := by
    decide +kernel
  obtain ⟨s, hs, hrun⟩ := bind_eq_ok_iff.mp hrun
  obtain ⟨result, hresult, hrun⟩ := bind_eq_ok_iff.mp hrun
  obtain ⟨selected, hselected, hrun⟩ := bind_eq_ok_iff.mp hrun
  have hfacts := Except.ok.inj hrun
  simp only [Bool.and_eq_true, beq_iff_eq, decide_eq_true_eq] at hfacts
  obtain ⟨⟨⟨hcolumn, hfree⟩, hlength⟩, hall⟩ := hfacts
  obtain ⟨hit, hhits⟩ := List.length_eq_one_iff.mp hlength
  rw [hhits, List.all_cons, List.all_nil, Bool.and_true] at hall
  simp only [Bool.and_eq_true, beq_iff_eq, Bool.not_eq_true', decide_eq_false_iff_not] at hall
  exact ⟨s, result, hit, selected, hs, hresult, hcolumn, hfree, hhits, hselected, hall.1, hall.2⟩

end Snapshot
end AskTable
