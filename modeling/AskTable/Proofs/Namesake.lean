import AskTable.Proofs.Counting
import Mathlib.Data.List.Find

/-! The name of a column in a filter or among the fields to show. It means the first column of that name in any case:
the column itself, unless one before it has its name in another case. -/
namespace AskTable

namespace Field

variable {columns before after : List Text} {column meant : Text}

private theorem plain_of_isName (h : column.IsName) : plain column = column.lower := by
  rw [plain, h.strip_eq]

def firstNamed? (columns : List Text) (name : Text) : Option Text :=
  columns.find? fun column => column.lower == name.lower

theorem resolve?_eq_firstNamed? (hnames : ∀ column ∈ columns, column.IsName) (hcolumn : column ∈ columns) :
    resolve? column columns = firstNamed? columns column := by
  rw [resolve?_of_mem (hnames column hcolumn) hcolumn, plain_of_isName (hnames column hcolumn)]
  refine List.find?_congr fun other hother => ?_
  rw [plain_of_isName (hnames other hother)]

theorem exists_firstNamed? (hcolumn : column ∈ columns) : ∃ meant, firstNamed? columns column = some meant :=
  Option.isSome_iff_exists.mp (List.find?_isSome.mpr ⟨column, hcolumn, by simp⟩)

/-- A column is the first of its name if no column before it has its name in another case. -/
theorem firstNamed?_eq_self_iff (hdistinct : (before ++ column :: after).Nodup) :
    firstNamed? (before ++ column :: after) column = some column ↔
      ∀ other ∈ before, other.lower ≠ column.lower := by
  have hself : (column :: after).find? (fun other => other.lower == column.lower) = some column := by simp
  rw [firstNamed?, List.find?_append, hself]
  cases hfound : before.find? fun other => other.lower == column.lower with
  | none =>
    have hnone := List.find?_eq_none.mp hfound
    exact iff_of_true rfl fun other hother => by simpa using hnone other hother
  | some other =>
    have hmem : other ∈ before := List.mem_of_find?_eq_some hfound
    have hlower : other.lower = column.lower := by simpa using List.find?_some hfound
    refine iff_of_false (fun heq => ?_) fun hnone => hnone other hmem hlower
    obtain rfl : other = column := Option.some.inj heq
    exact (List.nodup_append.mp hdistinct).2.2 other hmem other List.mem_cons_self rfl

private theorem mem_resolveAll {names : List Text} {name : Text} (hname : name ∈ names)
    (hmeant : resolve? name columns = some meant) : meant ∈ resolveAll names columns :=
  List.mem_eraseDups.mpr (List.mem_filterMap.mpr ⟨name, hname, hmeant⟩)

end Field

private theorem Filter.condition?_of_resolve? {columns : List Text} {f : Filter} {meant : Text}
    (hmeant : Field.resolve? f.field.fieldName columns = some meant) :
    f.condition? columns = f.operator?.map fun operator => ⟨meant, operator, f.operand⟩ := by
  unfold condition?
  rw [hmeant]
  cases f.operator? <;> rfl

namespace Table

open AskTable.Field (firstNamed?)

variable {header rows : List Value} {table : Table} {before after : List Text} {column : Text}

/-- A filter or a field that names a column is applied to the first column of that name in any case. That is the column
itself exactly if no column before it has its name in another case. -/
theorem column_name_means_first (h : load header rows = .ok table) (hdistinct : table.columns.Nodup)
    (hsplit : table.columns = before ++ column :: after) :
    ∃ meant, firstNamed? table.columns column = some meant ∧ Field.resolve? column table.columns = some meant ∧
      (meant = column ↔ ∀ other ∈ before, other.lower ≠ column.lower) ∧
      (∀ f : Filter, f.field.fieldName = column →
        f.condition? table.columns = f.operator?.map fun operator => ⟨meant, operator, f.operand⟩) ∧
      ∀ names, column ∈ names → meant ∈ Field.resolveAll names table.columns := by
  have hcolumn : column ∈ table.columns := by simp [hsplit]
  obtain ⟨meant, hmeant⟩ := Field.exists_firstNamed? hcolumn
  have hresolve : Field.resolve? column table.columns = some meant := by
    rw [Field.resolve?_eq_firstNamed? (fun _ => isName_of_load h) hcolumn, hmeant]
  refine ⟨meant, hmeant, hresolve, ?_, fun f hf => ?_, fun names hnames => Field.mem_resolveAll hnames hresolve⟩
  · rw [hsplit] at hdistinct hmeant
    rw [← Field.firstNamed?_eq_self_iff hdistinct, hmeant, Option.some_inj]
  · exact Filter.condition?_of_resolve? (by rw [hf, hresolve])

def dates : List Value :=
  ["Date", "Site", "date"]

/-- A column whose name no other one has in another case is meant by its name. -/
theorem site_means_itself : ∃ table, load dates [.list ["2024-03-05", "North", "2024-04-06"]] = .ok table ∧
    table.columns.Nodup ∧ table.columns = ["Date"] ++ "Site" :: ["date"] ∧
      Field.resolve? "Site" table.columns = some "Site".toList := by
  have hrun : (load dates [.list ["2024-03-05", "North", "2024-04-06"]]).map (·.columns) =
      .ok ["Date", "Site", "date"] := by decide +kernel
  obtain ⟨table, htable, hcolumns⟩ := map_eq_ok_iff.mp hrun
  have hdistinct : table.columns.Nodup := by
    rw [hcolumns]
    decide
  have hsplit : table.columns = ["Date".toList] ++ "Site".toList :: ["date".toList] := hcolumns
  obtain ⟨meant, -, hmeant, hself, -⟩ := column_name_means_first htable hdistinct hsplit
  rw [hself.mpr (by decide)] at hmeant
  exact ⟨table, htable, hdistinct, hcolumns, hmeant⟩

/-- The name of the later date means the earlier one, though the columns have distinct names. -/
theorem date_means_other : ∃ table, load dates [.list ["2024-03-05", "North", "2024-04-06"]] = .ok table ∧
    table.columns.Nodup ∧ "date".toList ∈ table.columns ∧
      Field.resolve? "date" table.columns = some "Date".toList := by
  have hrun : (load dates [.list ["2024-03-05", "North", "2024-04-06"]]).map (·.columns) =
      .ok ["Date", "Site", "date"] := by decide +kernel
  obtain ⟨table, htable, hcolumns⟩ := map_eq_ok_iff.mp hrun
  refine ⟨table, htable, ?_⟩
  rw [hcolumns]
  exact ⟨by decide, by decide, by decide +kernel⟩

end Table
end AskTable
