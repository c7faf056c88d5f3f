import AskTable.Proofs.Locality
import AskTable.Proofs.Magnitude
import AskTable.Proofs.PlanDocument

/-! When a table can be loaded. The only cells of text that keep it from being loaded are those of date columns
in which the year zero or one before it is written. -/
namespace AskTable

namespace Value

variable {v : Value}

@[simp] theorem isHuge_trimCell : (Table.trimCell v).isHuge = v.isHuge := by
  cases v <;> rfl

private theorem isBlank_trimCell (h : v.isBlank = true) : (Table.trimCell v).isBlank = true := by
  cases v with
  | text t =>
    have ht : t.strip = [] := Text.strip_eq_nil_of_isBlank h
    simp only [Table.trimCell, ht]
    rfl
  | null | bool b | int n | float x | date d | moment m | list items | dict entries => exact h

theorem isBeforeFirst_of_isBlank (h : v.isBlank = true) : v.isBeforeFirst = false :=
  succeeds_date?_iff.mp ⟨none, date?_of_isBlank h⟩

/-- The number in a cell can be compared, so it can be read again. -/
theorem isHuge_of_number? {n : Number} (h : v.number? = .ok (some n)) : (ofNumber n).isHuge = false := by
  have hread (t : Text) : Number.ofText? t = some n → (ofNumber n).isHuge = false :=
    Number.isHuge_of_ofText?
  cases v with
  | bool b => cases h
  | int k =>
    have hhuge : (Value.int k).isHuge = false := succeeds_number?_iff.mp ⟨_, h⟩
    unfold number? at h
    dsimp only at h
    split_ifs at h
    obtain rfl := Option.some.inj (Except.ok.inj h)
    exact hhuge
  | float x =>
    unfold number? at h
    dsimp only at h
    split_ifs at h
    · obtain rfl := Option.some.inj (Except.ok.inj h)
      rfl
    · cases h
  | null | text t | date d | moment m | list items | dict entries =>
    unfold number? at h
    dsimp only at h
    split_ifs at h
    · cases h
    · exact hread _ (Except.ok.inj h)

end Value

theorem succeeds_ofCell_iff {v : Value} : Succeeds (DateReading.ofCell v) ↔ v.isBeforeFirst = false := by
  unfold DateReading.ofCell
  split_ifs with hblank
  · simp [Value.isBeforeFirst_of_isBlank hblank]
  · rw [Succeeds.map_iff, Value.succeeds_date?_iff]

namespace Table

variable {columns numeric : List Text} {cells : List Value} {r : Record} {column name : Text}

/-- What a record has in a column before anything is derived is a cell of its row, if it is anything. -/
theorem get_plainRecord (columns : List Text) (cells : List Value) (name : Text) :
    (plainRecord columns cells).get name = .null ∨
      ∃ v ∈ cells, (plainRecord columns cells).get name = trimCell v := by
  unfold plainRecord
  refine List.foldlRecOn
    (motive := fun r => Record.get r name = .null ∨ ∃ v ∈ cells, Record.get r name = trimCell v)
    _ _ (.inl rfl) ?_
  intro r hr entry hentry
  obtain ⟨column, v⟩ := entry
  by_cases hname : name = column
  · subst hname
    refine .inr ⟨v, (List.of_mem_zip hentry).2, ?_⟩
    rw [Record.get, Record.get?_set_self, Option.getD_some]
  · have hsame : Record.get (r.set column (trimCell v)) name = r.get name :=
      Record.get_congr (Record.get?_set_of_ne hname)
    rwa [hsame]

/-- No cell of a row in a column of dates writes a year before the first. -/
def HasReadableDates (columns : List Text) (cells : List Value) : Prop :=
  ∀ column ∈ columns, ColumnClass.ofName column = .date →
    ((plainRecord columns cells).get column).isBeforeFirst = false

private theorem hasReadableDates_of_isBlank (h : cells.all Value.isBlank = true) :
    HasReadableDates columns cells := by
  intro column _ _
  rcases get_plainRecord columns cells column with hnone | ⟨v, hv, hcell⟩
  · rw [hnone]
    rfl
  · rw [hcell]
    exact Value.isBeforeFirst_of_isBlank (Value.isBlank_trimCell (List.all_eq_true.mp h v hv))

/-- What the record of a row keeps while fields are derived: numbers stay small enough, and the cells of date
columns stay as they are. -/
structure Derivable (columns : List Text) (cells : List Value) (r : Record) : Prop where
  number : ∀ column ∈ columns, (r.get column).isHuge = false
  date : ∀ column ∈ columns, ColumnClass.ofName column = .date →
    r.get column = (plainRecord columns cells).get column

theorem derivable_plainRecord (h : ∀ v ∈ cells, v.isHuge = false) :
    Derivable columns cells (plainRecord columns cells) where
  number column _ := by
    rcases get_plainRecord columns cells column with hnone | ⟨v, hv, hcell⟩
    · rw [hnone]
      rfl
    · rw [hcell, Value.isHuge_trimCell, h v hv]
  date _ _ _ := rfl

theorem deriveColumn_of_other {r' : Record} (hkind : ColumnClass.ofName column = .other)
    (h : deriveColumn columns numeric r column = .ok r') :
    r' = r ∨ ∃ n, (r.get column).number? = .ok (some n) ∧ r' = r.set column (.ofNumber n) := by
  unfold deriveColumn at h
  simp only [hkind] at h
  split_ifs at h with hnumber
  · obtain ⟨n, hn, rfl⟩ := map_eq_ok_iff.mp h
    cases n with
    | none => exact .inl rfl
    | some n => exact .inr ⟨n, hn, rfl⟩
  · exact .inl (Except.ok.inj h).symm

theorem Derivable.set (hr : Derivable columns cells r) (hkind : ColumnClass.ofName column = .other) {v : Value}
    (hv : v.isHuge = false) : Derivable columns cells (r.set column v) where
  number name hname := by
    by_cases heq : name = column
    · rw [heq, Record.get, Record.get?_set_self, Option.getD_some, hv]
    · rw [Record.get_congr (Record.get?_set_of_ne heq), hr.number name hname]
  date name hname hdate := by
    have hne : name ≠ column := by
      rintro rfl
      rw [hkind] at hdate
      cases hdate
    rw [Record.get_congr (Record.get?_set_of_ne hne), hr.date name hname hdate]

theorem Derivable.deriveColumn {r' : Record} (hr : Derivable columns cells r)
    (h : deriveColumn columns numeric r column = .ok r') : Derivable columns cells r' := by
  by_cases hkind : ColumnClass.ofName column = .other
  · rcases deriveColumn_of_other hkind h with rfl | ⟨n, hn, rfl⟩
    · exact hr
    · exact hr.set hkind (Value.isHuge_of_number? hn)
  · have hsame : ∀ name ∈ columns, r'.get name = r.get name := fun name hname =>
      Record.get_congr (get?_deriveColumn_of_mem h hname (.inr hkind))
    constructor
    · intro name hname
      rw [hsame name hname, hr.number name hname]
    · intro name hname hdate
      rw [hsame name hname, hr.date name hname hdate]

theorem Derivable.succeeds_deriveColumn_iff (hr : Derivable columns cells r) (hcolumn : column ∈ columns) :
    Succeeds (Table.deriveColumn columns numeric r column) ↔
      (ColumnClass.ofName column = .date →
        ((plainRecord columns cells).get column).isBeforeFirst = false) := by
  unfold Table.deriveColumn
  cases hkind : ColumnClass.ofName column with
  | date =>
    dsimp only
    rw [Succeeds.map_iff, shadowsOf, Succeeds.map_iff, succeeds_ofCell_iff, hr.date column hcolumn hkind]
    simp
  | identifier | freeText => simp [shadowsOf]
  | other =>
    have hnumber : Succeeds (r.get column).number? :=
      Value.succeeds_number?_iff.mpr (hr.number column hcolumn)
    dsimp only
    split_ifs <;> simp [hnumber]

/-- A row without integers of overflow size becomes a record exactly if its dates can be read. -/
theorem succeeds_record_iff (h : ∀ v ∈ cells, v.isHuge = false) :
    Succeeds (record columns numeric cells) ↔ HasReadableDates columns cells := by
  have hkept : ∀ column ∈ columns, ∀ r r', Derivable columns cells r →
      deriveColumn columns numeric r column = .ok r' → Derivable columns cells r' :=
    fun _ _ _ _ hr hstep => hr.deriveColumn hstep
  have hstep : ∀ column ∈ columns, ∀ r, Derivable columns cells r →
      (Succeeds (deriveColumn columns numeric r column) ↔ (ColumnClass.ofName column = .date →
        ((plainRecord columns cells).get column).isBeforeFirst = false)) :=
    fun _ hcolumn _ hr => hr.succeeds_deriveColumn_iff hcolumn
  exact succeeds_foldlM_iff hkept hstep (derivable_plainRecord h)

theorem derivable_of_record (h : ∀ v ∈ cells, v.isHuge = false)
    (hr : record columns numeric cells = .ok r) : Derivable columns cells r :=
  foldlM_preserves (P := Derivable columns cells) (fun _ _ _ _ hr hstep => hr.deriveColumn hstep)
    (derivable_plainRecord h) hr

variable {header rows : List Value} {row : Value} {body : List (List Value)}

/-- A row that gives cells, none of which is an integer of overflow size. -/
def IsReadableRow (header : List Value) (row : Value) : Prop :=
  ∃ cells, rowCells header row = .ok cells ∧ ∀ v ∈ cells, v.isHuge = false

theorem succeeds_isNumeric {cells : List Value} (h : ∀ v ∈ cells, v.isHuge = false) :
    Succeeds (isNumeric cells) := by
  unfold isNumeric
  dsimp only
  split_ifs
  · exact .ok
  · refine succeeds_allM_iff.mpr fun v hv => ?_
    have hcell : v ∈ cells := List.mem_of_mem_filter (List.mem_of_mem_take hv.mem)
    rw [Succeeds.map_iff, Value.succeeds_number?_iff, h v hcell]

theorem succeeds_numericColumns (h : ∀ cells ∈ body, ∀ v ∈ cells, v.isHuge = false) :
    Succeeds (numericColumns columns body) := by
  unfold numericColumns
  rw [Succeeds.map_iff, succeeds_selectM_iff]
  intro entry _
  obtain ⟨column, i⟩ := entry
  dsimp only
  split_ifs
  · refine succeeds_isNumeric fun v hv => ?_
    obtain ⟨cells, hcells, rfl⟩ := List.mem_map.mp hv
    cases hcell : cells[i]? with
    | none => simp [List.getD, hcell, Value.isHuge]
    | some v =>
      rw [List.getD_eq_getElem?_getD, hcell, Option.getD_some]
      exact h cells hcells v (List.mem_of_getElem? hcell)
  · exact .ok

theorem isHuge_of_mem_body (h : ∀ row ∈ rows, IsReadableRow header row)
    (hbody : Table.body header rows = .ok body) {cells : List Value} (hcells : cells ∈ body) {v : Value}
    (hv : v ∈ cells) : v.isHuge = false := by
  obtain ⟨all, hall, rfl⟩ := map_eq_ok_iff.mp hbody
  obtain ⟨row, hrow, hread⟩ := exists_of_mem_of_mapM hall (List.mem_of_mem_filter hcells)
  obtain ⟨cells', hcells', hsmall⟩ := h row hrow
  obtain rfl := Except.ok.inj (hread.symm.trans hcells')
  exact hsmall v hv

/-- The rows that have content can be read if those of all rows can. -/
theorem forall_mem_body_iff (hbody : Table.body header rows = .ok body) :
    (∀ cells ∈ body, HasReadableDates columns cells) ↔
      ∀ row ∈ rows, ∀ cells, rowCells header row = .ok cells → HasReadableDates columns cells := by
  obtain ⟨all, hall, rfl⟩ := map_eq_ok_iff.mp hbody
  constructor
  · intro h row hrow cells hcells
    by_cases hblank : cells.all Value.isBlank = true
    · exact hasReadableDates_of_isBlank hblank
    · have hmem : cells ∈ all := (mem_iff_of_mapM hall).mpr ⟨row, hrow, hcells⟩
      exact h cells (List.mem_filter.mpr ⟨hmem, by simpa using hblank⟩)
  · intro h cells hcells
    obtain ⟨row, hrow, hread⟩ := exists_of_mem_of_mapM hall (List.mem_of_mem_filter hcells)
    exact h row hrow cells hread

/-- Rows without integers of overflow size can be loaded exactly if no cell of a date column writes a year
before the first. -/
theorem succeeds_load_iff (h : ∀ row ∈ rows, IsReadableRow header row) :
    Succeeds (load header rows) ↔ ∀ row ∈ rows, ∀ cells, rowCells header row = .ok cells →
      HasReadableDates (Header.columns header) cells := by
  unfold load
  dsimp only
  split_ifs with hnone
  · have hcolumns : Header.columns header = [] := List.isEmpty_iff.mp hnone
    simp [hcolumns, HasReadableDates]
  have hread : Succeeds (Table.body header rows) := by
    rw [Table.body, Succeeds.map_iff, succeeds_mapM_iff]
    exact fun row hrow => (h row hrow).imp fun _ hcells => hcells.1
  obtain ⟨body, hbody⟩ := hread
  have hsmall : ∀ cells ∈ body, ∀ v ∈ cells, v.isHuge = false :=
    fun _ hcells _ hv => isHuge_of_mem_body h hbody hcells hv
  have hnumbers : Succeeds (numericColumns (Header.columns header) body) := succeeds_numericColumns hsmall
  obtain ⟨numeric, hnumeric⟩ := hnumbers
  have hrecords : Succeeds (body.mapM (record (Header.columns header) numeric)) ↔
      ∀ cells ∈ body, HasReadableDates (Header.columns header) cells := by
    rw [succeeds_mapM_iff]
    exact forall₂_congr fun cells hcells => succeeds_record_iff (hsmall cells hcells)
  rw [← forall_mem_body_iff hbody, ← hrecords]
  simp only [hbody, hnumeric, Succeeds.bind_iff, Succeeds.pure, and_true, Except.ok.injEq, exists_eq_left']
  rfl

theorem isHuge_of_load {table : Table} (h : ∀ row ∈ rows, IsReadableRow header row)
    (hload : load header rows = .ok table) (hr : r ∈ table.records) (hcolumn : column ∈ table.columns) :
    (r.get column).isHuge = false := by
  rcases load_cases hload with ⟨-, rfl⟩ | ⟨-, body, numeric, records, hbody, -, hrecords, rfl⟩
  · cases hr
  · obtain ⟨cells, hcells, hrecord⟩ := exists_of_mem_of_mapM hrecords hr
    have hsmall : ∀ v ∈ cells, v.isHuge = false := fun _ hv => isHuge_of_mem_body h hbody hcells hv
    exact (derivable_of_record hsmall hrecord).number column hcolumn

end Table

namespace Profile

variable {records : List Record} {name : Text} {values : List Value}

/-- Whether the type of cells with content can be told: as far as they are looked at, their numbers can be read and,
in a column of dates with a cell that is no number, their dates. -/
structure IsTypable (name : Text) (filled : List Value) : Prop where
  numbers : ∀ v, Reached (fun w => w.number?.map (·.isSome) = .ok true) filled v → v.isHuge = false
  dates : ColumnClass.ofName name = .date →
    (∃ v, Reached (fun w => w.number?.map (·.isSome) = .ok true) filled v ∧
      v.number?.map (·.isSome) = .ok false) →
    ∀ v, Reached (fun w => w.date?.map (·.isSome) = .ok false) (filled.take dateSample) v → v.isBeforeFirst = false

theorem succeeds_columnType_iff :
    Succeeds (columnType name values) ↔ IsTypable name (values.filter (!·.isBlank)) := by
  unfold columnType
  dsimp only
  generalize values.filter (!·.isBlank) = filled
  have hnumbers : Succeeds (filled.allM fun v => v.number?.map (·.isSome)) ↔
      ∀ v, Reached (fun w => w.number?.map (·.isSome) = .ok true) filled v → v.isHuge = false := by
    simp only [succeeds_allM_iff, Succeeds.map_iff, Value.succeeds_number?_iff]
  have hdates : Succeeds ((filled.take dateSample).anyM fun v => v.date?.map (·.isSome)) ↔
      ∀ v, Reached (fun w => w.date?.map (·.isSome) = .ok false) (filled.take dateSample) v →
        v.isBeforeFirst = false := by
    simp only [succeeds_anyM_iff, Succeeds.map_iff, Value.succeeds_date?_iff]
  by_cases hnone : filled.isEmpty = true
  · rw [if_pos hnone]
    obtain rfl := List.isEmpty_iff.mp hnone
    refine iff_of_true .pure ⟨fun v hv => absurd hv.mem List.not_mem_nil, fun _ _ v hv => ?_⟩
    exact absurd (List.mem_of_mem_take hv.mem) List.not_mem_nil
  · rw [if_neg hnone]
    constructor
    · rintro ⟨type, htype⟩
      obtain ⟨areNumbers, hall, htype⟩ := bind_eq_ok_iff.mp htype
      refine ⟨hnumbers.mp ⟨_, hall⟩, fun hkind hother => hdates.mp ?_⟩
      obtain rfl := Except.ok.inj (hall.symm.trans (allM_eq_ok_false_iff.mpr hother))
      rw [if_neg Bool.false_ne_true, if_pos hkind] at htype
      obtain ⟨areDates, hany, -⟩ := bind_eq_ok_iff.mp htype
      exact ⟨_, hany⟩
    · intro h
      obtain ⟨areNumbers, hall⟩ := hnumbers.mpr h.numbers
      rw [hall, Succeeds.ok_bind_iff]
      cases areNumbers with
      | true => exact .pure
      | false =>
        by_cases hkind : ColumnClass.ofName name = .date
        · obtain ⟨areDates, hany⟩ := hdates.mpr (h.dates hkind (allM_eq_ok_false_iff.mp hall))
          simp only [hkind, hany]
          cases areDates <;> exact .pure
        · simp [hkind]

theorem succeeds_ofColumn_iff :
    Succeeds (ofColumn name records) ↔ IsTypable name ((records.map fun r => r.get name).filter (!·.isBlank)) := by
  have hsame := List.filter_filter (p := fun v : Value => !v.isBlank) (q := fun v => !v.isBlank)
    (l := records.map fun r => r.get name)
  simp only [Bool.and_self] at hsame
  rw [← hsame, ← succeeds_columnType_iff]
  constructor
  · rintro ⟨p, hp⟩
    obtain ⟨type, htype, -⟩ := bind_eq_ok_iff.mp hp
    exact ⟨type, htype⟩
  · rintro ⟨type, htype⟩
    unfold ofColumn
    dsimp only
    rw [htype]
    exact .pure

theorem succeeds_ofColumn (hnumber : ∀ r ∈ records, (r.get name).isHuge = false)
    (hdate : ColumnClass.ofName name = .date → ∀ r ∈ records, (r.get name).isBeforeFirst = false) :
    Succeeds (ofColumn name records) := by
  have hread : ∀ v ∈ (records.map fun r => r.get name).filter (!·.isBlank), ∃ r ∈ records, r.get name = v :=
    fun v hv => List.mem_map.mp (List.mem_of_mem_filter hv)
  refine succeeds_ofColumn_iff.mpr ⟨fun v hv => ?_, fun hkind _ v hv => ?_⟩
  · obtain ⟨r, hr, rfl⟩ := hread v hv.mem
    exact hnumber r hr
  · obtain ⟨r, hr, rfl⟩ := hread v (List.mem_of_mem_take hv.mem)
    exact hdate hkind r hr

end Profile

namespace Snapshot

open Table (HasReadableDates IsReadableRow)

variable {source : Dataset} {s : Snapshot}

theorem succeeds_build_iff (h : ∀ row ∈ source.rows, IsReadableRow source.header row) :
    Succeeds (build source) ↔ ∀ row ∈ source.rows, ∀ cells,
      Table.rowCells source.header row = .ok cells →
        HasReadableDates (Header.columns source.header) cells := by
  rw [← Table.succeeds_load_iff h]
  constructor
  · intro hbuild
    obtain ⟨s, hs⟩ := hbuild
    obtain ⟨table, htable, -⟩ := load_of_build hs
    exact ⟨table, htable⟩
  · intro hload
    obtain ⟨table, htable⟩ := hload
    have hprofiles : Succeeds (table.columns.eraseDups.mapM fun column =>
        (Profile.ofColumn column table.records).map (column, ·)) := by
      refine succeeds_mapM_iff.mpr fun column hcolumn => ?_
      have hmem : column ∈ table.columns := List.mem_eraseDups.mp hcolumn
      rw [Succeeds.map_iff]
      refine Profile.succeeds_ofColumn (fun r hr => Table.isHuge_of_load h htable hr hmem)
        fun hkind r hr => ?_
      obtain ⟨reading, hreading, -⟩ :=
        Record.exists_reading (Record.isLoaded_of_load htable hr) hmem hkind
      exact succeeds_ofCell_iff.mp ⟨reading, hreading⟩
    obtain ⟨profiles, hprofiles⟩ := hprofiles
    rw [build, htable, Succeeds.ok_bind_iff, ofRecords, hprofiles]
    exact .pure

end Snapshot

/-- Whether a row is one of texts: a list of them, a dictionary of them, a text, or no row at all. -/
def Value.isTextRow : Value → Bool
  | .list cells => cells.all (·.text?.isSome)
  | .dict entries => entries.all (·.2.text?.isSome)
  | .text _ => true
  | row => !row.isTrue

structure Dataset.IsTextual (source : Dataset) : Prop where
  header : ∀ cell ∈ source.header, cell.text?.isSome = true
  rows : ∀ row ∈ source.rows, row.isTextRow = true

namespace Table

variable {header : List Value} {row : Value}

private theorem isHuge_of_isSome_text? {v : Value} (h : v.text?.isSome = true) : v.isHuge = false := by
  cases v with
  | text t => rfl
  | null | bool b | int n | float x | date d | moment m | list items | dict entries => cases h

private theorem isKey_of_isSome_text? {v : Value} (h : v.text?.isSome = true) : v.isKey = true := by
  cases v with
  | list items | dict entries => cases h
  | null | bool b | int n | float x | text t | date d | moment m => rfl

private theorem isHuge_of_mem_placeCells {width : Nat} {cells : List Value} (h : ∀ v ∈ cells, v.isHuge = false)
    {v : Value} (hv : v ∈ placeCells width cells) : v.isHuge = false := by
  obtain ⟨cell, hcell, rfl⟩ := List.mem_map.mp hv
  have hsmall : cell.isHuge = false := by
    rcases List.mem_append.mp hcell with hcell | hcell
    · exact h cell (List.mem_of_mem_take hcell)
    · obtain rfl := List.eq_of_mem_replicate hcell
      rfl
  cases cell with
  | null => rfl
  | bool b | int n | float x | text t | date d | moment m | list items | dict entries => exact hsmall

/-- A row by name can be read under a header of keys. -/
theorem isReadableRow_dict {entries : List (Value × Value)} (hkeys : ∀ key ∈ header, key.isKey = true)
    (hsmall : ∀ entry ∈ entries, entry.2.isHuge = false) : IsReadableRow header (.dict entries) := by
  have hread : Succeeds (rowCells header (.dict entries)) := by
    refine succeeds_mapM_iff.mpr fun key hkey => ?_
    rw [if_pos (hkeys key hkey)]
    exact .ok
  obtain ⟨cells, hcells⟩ := hread
  refine ⟨cells, hcells, fun v hv => ?_⟩
  obtain ⟨key, hkey, hv⟩ := exists_of_mem_of_mapM hcells hv
  rw [if_pos (hkeys key hkey)] at hv
  obtain rfl := Except.ok.inj hv
  cases hfound : Value.lookup? entries key with
  | none => rfl
  | some v =>
    obtain ⟨entry, hentry, rfl⟩ := Option.map_eq_some_iff.mp hfound
    exact hsmall entry (List.mem_of_find?_eq_some hentry)

theorem isReadableRow_of_isTextRow (hheader : ∀ cell ∈ header, cell.text?.isSome = true)
    (hrow : row.isTextRow = true) : IsReadableRow header row := by
  cases row with
  | list cells =>
    have hcells : ∀ v ∈ cells, v.isHuge = false :=
      fun v hv => isHuge_of_isSome_text? (List.all_eq_true.mp hrow v hv)
    exact ⟨_, rfl, fun _ hv => isHuge_of_mem_placeCells hcells hv⟩
  | text t =>
    refine ⟨_, rfl, fun _ hv => isHuge_of_mem_placeCells (fun v hv => ?_) hv⟩
    obtain ⟨c, -, rfl⟩ := List.mem_map.mp hv
    rfl
  | dict entries =>
    exact isReadableRow_dict (fun key hkey => isKey_of_isSome_text? (hheader key hkey))
      fun entry hentry => isHuge_of_isSome_text? (List.all_eq_true.mp hrow entry hentry)
  | null | bool b | int n | float x | date d | moment m =>
    refine ⟨placeCells header.length [], ?_, fun _ hv => isHuge_of_mem_placeCells (by simp) hv⟩
    simp only [Value.isTextRow, Bool.not_eq_true'] at hrow
    simp [rowCells, hrow]

end Table

namespace Snapshot

variable {source : Dataset}

/-- A table of texts becomes a snapshot exactly if no cell of a date column writes a year before the first. In
a snapshot, a cell of a date column that has content but no date is marked as an invalid date. -/
theorem build_of_isTextual (h : source.IsTextual) :
    (Succeeds (build source) ↔ ∀ row ∈ source.rows, ∀ cells,
      Table.rowCells source.header row = .ok cells →
        Table.HasReadableDates (Header.columns source.header) cells) ∧
    ∀ s, build source = .ok s → ∀ r ∈ s.records, ∀ column ∈ s.columns,
      ColumnClass.ofName column = .date → Shadow.formatted.field column ∉ s.columns →
      (r.get column).isBlank = false → (r.get column).date? = .ok none →
      r.get? (Shadow.formatted.field column) = some (.text DateReading.invalid) := by
  refine ⟨succeeds_build_iff fun row hrow =>
    Table.isReadableRow_of_isTextRow h.header (h.rows row hrow), ?_⟩
  intro s hs r hr column hcolumn hkind hfree hfilled hnone
  obtain ⟨reading, hreading, -, hformatted⟩ :=
    Record.exists_reading (isLoaded_of_build hs hr) hcolumn hkind
  have hinvalid : reading = ⟨none, DateReading.invalid⟩ := by
    rw [DateReading.ofCell, hnone, if_neg (by simp [hfilled])] at hreading
    exact (Except.ok.inj hreading).symm
  rw [hformatted hfree, hinvalid]

def daybook : Dataset where
  header := ["Date", "Site"]
  rows := [.list ["2024-03-05", "North"], .dict [("Date", "soon"), ("Site", "South")]]
  name := "daybook"

theorem build_of_isTextual_daybook : ∃ s r, build daybook = .ok s ∧ r ∈ s.records ∧ r.get "Date" = .text "soon" ∧
    r.get? (Shadow.formatted.field "Date") = some (.text "Invalid Date") := by
  have htextual : daybook.IsTextual := ⟨by decide, by decide⟩
  have hrun : (build daybook).map (fun s => (s.columns, s.records.any fun r => (r.get "Date").isText "soon")) =
      .ok (["Date", "Site"], true) := by
    decide +kernel
  obtain ⟨s, hs, hrun⟩ := map_eq_ok_iff.mp hrun
  obtain ⟨hcolumns, hfound⟩ := Prod.mk.inj hrun
  obtain ⟨r, hr, hsoon⟩ := List.any_eq_true.mp hfound
  have hcell : r.get "Date" = .text "soon" := Value.eq_text_of_text? (beq_iff_eq.mp hsoon)
  have hinvalid := (build_of_isTextual htextual).2 s hs r hr "Date" (by simp [hcolumns]) (by decide)
    (by rw [hcolumns]; decide) (by rw [hcell]; decide) (by rw [hcell]; decide)
  exact ⟨s, r, hs, hr, hcell, hinvalid⟩

def yearZero : Dataset where
  header := ["Date"]
  rows := [.list ["0000-01-01"]]
  name := []

/-- A table of texts with a day of the year zero is not loaded at all. -/
theorem build_yearZero_fails : yearZero.IsTextual ∧ ¬ Succeeds (build yearZero) := by
  have hrun : (build yearZero).map (fun _ => ()) = .error .yearBeforeFirst := by decide +kernel
  refine ⟨⟨by decide, by decide⟩, ?_⟩
  rw [← Succeeds.map_iff (f := fun _ => ()), hrun]
  exact Succeeds.not_error

end Snapshot
end AskTable
