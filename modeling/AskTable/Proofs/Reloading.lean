import AskTable.Proofs.Entries
import AskTable.Proofs.Numeral

/-! Loading a table once more. The columns and the cells that a load has made are loaded as they are, and the
derived fields come out the same. -/
namespace AskTable

private theorem Record.eq_of_keys_eq {r r' : Record} (hkeys : r.keys = r'.keys) (hnodup : r.keys.Nodup)
    (hget : ∀ name ∈ r.keys, r.get? name = r'.get? name) : r = r' := by
  have hspell {s : Record} (hs : s.keys.Nodup) : s.map some = s.keys.map fun name => (s.get? name).map (name, ·) := by
    rw [keys, List.map_map]
    refine List.map_congr_left fun entry hentry => ?_
    have hfound : s.get? entry.1 = some entry.2 := (get?_eq_some_iff_mem hs).mpr hentry
    rw [Function.comp_apply, hfound, Option.map_some]
  have hsame : r.map some = r'.map some := by
    rw [hspell hnodup, hspell (hkeys ▸ hnodup), ← hkeys]
    refine List.map_congr_left fun name hname => ?_
    rw [hget name hname]
  exact List.map_injective_iff.mpr (Option.some_injective _) hsame

namespace Header

variable {names : List Text}

theorem names_map_text (h : ∀ name ∈ names, name.IsName) : Header.names (names.map .text) = names := by
  have hcell : ∀ name ∈ names, (Value.text name).cellText = name := by
    intro name hname
    rw [Value.cellText_text]
    exact (h name hname).strip_eq
  have hlength : (Header.names (names.map .text)).length = names.length := by
    rw [Header.names, List.length_mapIdx, List.length_map]
  refine List.ext_getElem hlength fun i hi hi' => ?_
  have hmem : names[i] ∈ names := List.getElem_mem hi'
  have hfilled : ¬ names[i].isEmpty = true := by
    rw [List.isEmpty_iff]
    exact (h _ hmem).ne_nil
  simp only [Header.names, List.getElem_mapIdx, List.getElem_map, hcell _ hmem, if_neg hfilled]

/-- Different names are not numbered. -/
theorem numberedAfter_of_nodup {earlier : List Text} (h : (earlier ++ names).Nodup) :
    numberedAfter earlier names = names := by
  induction names generalizing earlier with
  | nil => rfl
  | cons name rest ih =>
    have hnew : name ∉ earlier := by
      intro hmem
      exact (List.nodup_append.mp h).2.2 name hmem name List.mem_cons_self rfl
    have hrest : (name :: earlier ++ rest).Nodup := (List.perm_middle.nodup_iff).mp h
    have hcount : earlier.count name = 0 := List.count_eq_zero.mpr hnew
    rw [numberedAfter]
    simp only [hcount, if_true, ih hrest]

theorem columns_map_text {header : List Value} (h : (columns header).Nodup) :
    columns ((columns header).map .text) = columns header := by
  have hnames : Header.names ((columns header).map .text) = columns header :=
    names_map_text fun _ hname => isName_of_mem_columns hname
  have hall : ([] ++ columns header).Nodup := h
  rw [columns, hnames, numberedAfter_of_nodup hall]

end Header

namespace Table

section Cells

variable {v : Value} {isNumbers : Bool}

theorem isBlank_trimCell_eq (v : Value) : (trimCell v).isBlank = v.isBlank := by
  cases v with
  | text t => exact Text.isBlank_strip t
  | null | bool b | int n | float x | date d | moment m | list items | dict entries => rfl

@[simp] theorem trimCell_trimCell (v : Value) : trimCell (trimCell v) = trimCell v := by
  cases v with
  | text t => simp [trimCell]
  | null | bool b | int n | float x | date d | moment m | list items | dict entries => rfl

theorem readAs_entryOf (isNumbers : Bool) (v : Value) : (trimCell v).ReadAs (entryOf isNumbers v) := by
  cases isNumbers with
  | false => exact .inl rfl
  | true =>
    cases hnumeral : v.numeral? with
    | none => exact .inl (entryOf_of_numeral?_eq_none hnumeral true)
    | some n =>
      have hnumber : v.number? = .ok (some n) := by
        unfold Value.numeral? at hnumeral
        split at hnumeral
        · next found hfound => rw [hfound, hnumeral]
        · cases hnumeral
      have hentry : entryOf true v = .ofNumber n := by simp [entryOf, hnumeral]
      exact .inr ⟨n, by rw [Value.number?_trimCell, hnumber], hentry⟩

theorem number?_entryOf (isNumbers : Bool) (v : Value) : (entryOf isNumbers v).number? = v.number? := by
  rw [(readAs_entryOf isNumbers v).number?_eq, Value.number?_trimCell]

theorem isBlank_entryOf (isNumbers : Bool) (v : Value) : (entryOf isNumbers v).isBlank = v.isBlank := by
  rw [(readAs_entryOf isNumbers v).isBlank_eq, isBlank_trimCell_eq]

@[simp] theorem trimCell_entryOf (isNumbers : Bool) (v : Value) :
    trimCell (entryOf isNumbers v) = entryOf isNumbers v := by
  rcases readAs_entryOf isNumbers v with heq | ⟨n, -, heq⟩
  · rw [heq, trimCell_trimCell]
  · rw [heq]
    cases n <;> rfl

/-- The number in an entry has been put in its place already. -/
theorem entryOf_entryOf (isNumbers : Bool) (v : Value) :
    entryOf isNumbers (entryOf isNumbers v) = entryOf isNumbers v := by
  have hnumeral : (entryOf isNumbers v).numeral? = v.numeral? := by
    rw [Value.numeral?, number?_entryOf, Value.numeral?]
  cases isNumbers with
  | false => exact trimCell_trimCell v
  | true =>
    cases hv : v.numeral? with
    | none => rw [entryOf_of_numeral?_eq_none (hnumeral.trans hv), trimCell_entryOf]
    | some n =>
      have hentry : entryOf true v = .ofNumber n := by simp [entryOf, hv]
      rw [hv, hentry] at hnumeral
      rw [hentry]
      simp [entryOf, hnumeral]

private theorem filledCell_entryOf (hv : filledCell v = v) :
    filledCell (entryOf isNumbers v) = entryOf isNumbers v := by
  rcases readAs_entryOf isNumbers v with heq | ⟨n, -, heq⟩
  · rw [heq]
    cases v with
    | null => cases hv
    | text t | bool b | int n | float x | date d | moment m | list items | dict entries => rfl
  · rw [heq]
    cases n <;> rfl

end Cells

variable {columns numeric : List Text} {cells : List Value} {r : Record} {column : Text}

def rowOf (columns : List Text) (r : Record) : List Value :=
  columns.map r.get

def rows (table : Table) : List Value :=
  table.records.map fun r => .list (rowOf table.columns r)

def isNumberEntry (numeric : List Text) (column : Text) : Bool :=
  decide (ColumnClass.ofName column = .other) && numeric.contains column

theorem get_record (hnodup : columns.Nodup) (hlength : cells.length = columns.length)
    (h : record columns numeric cells = .ok r) (hcolumn : column ∈ columns) :
    ∃ v ∈ cells, r.get? column = some (entryOf (isNumberEntry numeric column) v) := by
  obtain ⟨i, hi, rfl⟩ := List.getElem_of_mem hcolumn
  have hi' : i < cells.length := by omega
  have hentry := get?_record hnodup (List.getElem?_eq_getElem hi) (List.getElem?_eq_getElem hi') h
  exact ⟨cells[i], List.getElem_mem hi', hentry⟩

theorem rowOf_eq_zipWith (hnodup : columns.Nodup) (hlength : cells.length = columns.length)
    (h : record columns numeric cells = .ok r) :
    rowOf columns r = List.zipWith (fun column v => entryOf (isNumberEntry numeric column) v) columns cells := by
  refine List.ext_getElem (by simp [rowOf, hlength]) fun i hi hi' => ?_
  have hcolumn : i < columns.length := by simpa [rowOf] using hi
  have hcell : i < cells.length := by omega
  have hentry := get?_record hnodup (List.getElem?_eq_getElem hcolumn) (List.getElem?_eq_getElem hcell) h
  simp only [rowOf, List.getElem_map, List.getElem_zipWith, Record.get, hentry, Option.getD_some]
  rfl

/-- What was looked for in a cell is found again in its entry. -/
theorem succeeds_number?_of_record (hnodup : columns.Nodup) (hlength : cells.length = columns.length)
    (h : record columns numeric cells = .ok r) (hcolumn : column ∈ columns)
    (hentry : isNumberEntry numeric column = true) : Succeeds (r.get column).number? := by
  obtain ⟨hkind, hnumeric⟩ := Bool.and_eq_true_iff.mp hentry
  rw [decide_eq_true_eq] at hkind
  obtain ⟨i, hi, rfl⟩ := List.getElem_of_mem hcolumn
  have hi' : i < cells.length := by omega
  have hplace := List.getElem?_eq_getElem hi
  have hcell := List.getElem?_eq_getElem hi'
  have hkeep : ∀ x ∈ columns, x ≠ columns[i] → ∀ s t : Record, s.get? columns[i] = some (trimCell cells[i]) →
      deriveColumn columns numeric s x = .ok t → t.get? columns[i] = some (trimCell cells[i]) := by
    intro x _ hne s t hs hstep
    rw [get?_deriveColumn_of_mem hstep hcolumn (.inl hne.symm), hs]
  have hturn : ∀ s t : Record, s.get? columns[i] = some (trimCell cells[i]) →
      deriveColumn columns numeric s columns[i] = .ok t → Succeeds cells[i].number? := by
    intro s t hs hstep
    have hget : s.get columns[i] = trimCell cells[i] := by rw [Record.get, hs, Option.getD_some]
    unfold deriveColumn at hstep
    simp only [hkind, hnumeric, hget, Value.number?_trimCell, Bool.true_and] at hstep
    by_cases hblank : (trimCell cells[i]).isBlank = true
    · rw [← Value.number?_trimCell, Value.number?_of_isBlank hblank]
      exact .ok
    · rw [Bool.not_eq_true] at hblank
      rw [hblank] at hstep
      exact Succeeds.map_iff.mp ⟨t, hstep⟩
  have hfound : Succeeds cells[i].number? :=
    foldlM_turns hcolumn hnodup hturn hkeep (fun _ _ _ _ _ hfound _ => hfound)
      (get?_plainRecord hnodup hplace hcell) h
  have hget := get?_record hnodup hplace hcell h
  rw [Record.get, hget, Option.getD_some, number?_entryOf]
  exact hfound

/-- The columns of a record hold what they hold in a finished one. -/
def HoldsEntries (columns : List Text) (r t : Record) : Prop :=
  ∀ column ∈ columns, t.get? column = some (r.get column)

section Again

variable {t t' : Record}

theorem HoldsEntries.get_eq (ht : HoldsEntries columns r t) (hcolumn : column ∈ columns) :
    t.get column = r.get column := by
  rw [Record.get, ht column hcolumn, Option.getD_some]

variable (hnodup : columns.Nodup) (hlength : cells.length = columns.length)
  (h : record columns numeric cells = .ok r)

include hnodup hlength h

private theorem holdsEntries_self : HoldsEntries columns r r := by
  intro column hcolumn
  obtain ⟨v, -, hv⟩ := get_record hnodup hlength h hcolumn
  rw [Record.get, hv, Option.getD_some]

theorem entryOf_get (hcolumn : column ∈ columns) :
    entryOf (isNumberEntry numeric column) (r.get column) = r.get column := by
  obtain ⟨v, -, hv⟩ := get_record hnodup hlength h hcolumn
  have hget : r.get column = entryOf (isNumberEntry numeric column) v := by
    rw [Record.get, hv, Option.getD_some]
  rw [hget, entryOf_entryOf]

theorem trimCell_get (hcolumn : column ∈ columns) : trimCell (r.get column) = r.get column := by
  rw [← entryOf_get hnodup hlength h hcolumn, trimCell_entryOf]

private theorem holdsEntries_plainRecord : HoldsEntries columns r (plainRecord columns (rowOf columns r)) := by
  intro column hcolumn
  obtain ⟨i, hi, rfl⟩ := List.getElem_of_mem hcolumn
  have hcell : (rowOf columns r)[i]? = some (r.get columns[i]) := by simp [rowOf, hi]
  rw [get?_plainRecord hnodup (List.getElem?_eq_getElem hi) hcell, trimCell_get hnodup hlength h hcolumn]

theorem HoldsEntries.deriveColumn {x : Text} (ht : HoldsEntries columns r t)
    (hstep : deriveColumn columns numeric t x = .ok t') : HoldsEntries columns r t' := by
  intro column hcolumn
  by_cases heq : column = x
  · subst heq
    have hcell : t.get? column = some (trimCell (r.get column)) := by
      rw [ht column hcolumn, trimCell_get hnodup hlength h hcolumn]
    have hturn := get?_deriveColumn_self hcell hcolumn hstep
    have hentry := entryOf_get hnodup hlength h hcolumn
    rw [hturn]
    exact congrArg some hentry
  · rw [get?_deriveColumn_of_mem hstep hcolumn (.inl heq), ht column hcolumn]

theorem HoldsEntries.succeeds_deriveColumn (ht : HoldsEntries columns r t) (hcolumn : column ∈ columns) :
    Succeeds (Table.deriveColumn columns numeric t column) := by
  have hget := ht.get_eq hcolumn
  unfold Table.deriveColumn
  cases hkind : ColumnClass.ofName column with
  | other =>
    dsimp only
    split_ifs with hnumber
    · have hnumeric : isNumberEntry numeric column = true := by
        have hmem := (Bool.and_eq_true_iff.mp hnumber).1
        simp [isNumberEntry, hkind, List.contains_iff_mem.mp hmem]
      rw [Succeeds.map_iff, hget]
      exact succeeds_number?_of_record hnodup hlength h hcolumn hnumeric
    · exact .ok
  | date | identifier | freeText =>
    obtain ⟨entries, hentries, -⟩ := derived_of_record h hcolumn
    rw [hkind] at hentries
    dsimp only
    rw [Succeeds.map_iff, hget]
    exact ⟨entries, hentries⟩

/-- The record of a row is the record of its own cells as well. -/
theorem record_rowOf : record columns numeric (rowOf columns r) = .ok r := by
  have hplain := holdsEntries_plainRecord hnodup hlength h
  have hkeep : ∀ x ∈ columns, ∀ t t' : Record, HoldsEntries columns r t →
      Table.deriveColumn columns numeric t x = .ok t' → HoldsEntries columns r t' :=
    fun _ _ _ _ ht hstep => ht.deriveColumn hnodup hlength h hstep
  have hstep : ∀ x ∈ columns, ∀ t : Record, HoldsEntries columns r t →
      (Succeeds (Table.deriveColumn columns numeric t x) ↔ True) :=
    fun _ hx _ ht => iff_true_intro (ht.succeeds_deriveColumn hnodup hlength h hx)
  have hall : Succeeds (record columns numeric (rowOf columns r)) :=
    (succeeds_foldlM_iff hkeep hstep hplain).mpr fun _ _ => trivial
  obtain ⟨r', hr'⟩ := hall
  have hlast : HoldsEntries columns r r' := foldlM_preserves hkeep hplain hr'
  have hkeys' := keys_record hnodup (by simp [rowOf]) hr'
  have hkeys := keys_record hnodup hlength h
  have hsame : r' = r := by
    apply Record.eq_of_keys_eq (hkeys'.trans hkeys.symm) (nodup_keys_record hr')
    intro name hname
    rw [hkeys', List.mem_append, mem_derivedFields_iff] at hname
    rcases hname with hcolumn | ⟨hfree, column, hcolumn, s, hs, rfl⟩
    · rw [hlast name hcolumn, holdsEntries_self hnodup hlength h name hcolumn]
    · have hfield := shadow?_of_derived (derived_of_record h hcolumn) hs hfree
      have hfield' := shadow?_of_derived (derived_of_record hr' hcolumn) hs hfree
      rw [hfield', hfield, hlast.get_eq hcolumn]
  rw [hr', hsame]

end Again

/-- A column of numbers is one whatever has been read in its cells. -/
theorem isNumeric_congr {f : Value → Value} {values : List Value}
    (h : ∀ v ∈ values, (f v).isBlank = v.isBlank ∧ (f v).number? = v.number?) :
    isNumeric (values.map f) = isNumeric values := by
  have hfilled : (values.map f).filter (!·.isBlank) = (values.filter (!·.isBlank)).map f := by
    rw [List.filter_map]
    refine congrArg _ (List.filter_congr fun v hv => ?_)
    rw [Function.comp_apply, (h v hv).1]
  have hsample : ∀ v ∈ (values.filter (!·.isBlank)).take numericSample, (f v).number? = v.number? := by
    intro v hv
    exact (h v (List.mem_of_mem_filter (List.mem_of_mem_take hv))).2
  unfold isNumeric
  dsimp only
  rw [hfilled, ← List.map_take, List.isEmpty_map]
  congr 1
  apply allM_map_eq
  intro v hv
  rw [hsample v hv]

variable {header rows : List Value} {body : List (List Value)} {records : List Record} {table : Table}

theorem numericColumns_rowOf (hnodup : columns.Nodup) (hlength : ∀ cells ∈ body, cells.length = columns.length)
    (hrecords : body.mapM (record columns numeric) = .ok records) :
    numericColumns columns (records.map (rowOf columns)) = numericColumns columns body := by
  have hcolumn : ∀ column i, columns[i]? = some column →
      isNumeric ((records.map (rowOf columns)).map fun cells => cells.getD i .null) =
        isNumeric (body.map fun cells => cells.getD i .null) := by
    intro column i hi
    have hcells : (records.map (rowOf columns)).map (fun cells => cells.getD i .null) =
        (body.map fun cells => cells.getD i .null).map (entryOf (isNumberEntry numeric column)) := by
      rw [List.map_map, List.map_map, ← List.forall₂_eq_eq_eq, List.forall₂_map_left_iff,
        List.forall₂_map_right_iff]
      have hboth := (List.forall₂_and_left _ _).mpr ⟨hlength, mapM_eq_ok_iff.mp hrecords⟩
      refine (hboth.imp fun cells r hrow => ?_).flip
      change _ = _
      obtain ⟨hwidth, hrecord⟩ := hrow
      obtain ⟨hplace, rfl⟩ := List.getElem?_eq_some_iff.mp hi
      have hcell : i < cells.length := by omega
      rw [Function.comp_apply, Function.comp_apply, rowOf_eq_zipWith hnodup hwidth hrecord]
      simp [List.getD_eq_getElem?_getD, hplace, hcell]
    rw [hcells, isNumeric_congr]
    intro v _
    exact ⟨isBlank_entryOf _ v, number?_entryOf _ v⟩
  unfold numericColumns
  congr 1
  apply selectM_congr
  intro entry hentry
  dsimp only
  rw [hcolumn _ _ (List.mem_zipIdx_iff_getElem?.mp hentry)]

private theorem filledCell_of_mem_body (hrows : ∀ row ∈ rows, row.isPositional = true)
    (hbody : Table.body header rows = .ok body) {v : Value} (hcells : cells ∈ body) (hv : v ∈ cells) :
    filledCell v = v := by
  rw [body_of_isPositional hrows hbody] at hcells
  obtain ⟨row, -, rfl⟩ := List.mem_map.mp hcells
  obtain ⟨i, -, rfl⟩ := List.mem_map.mp hv
  unfold Value.cellAt
  cases row.members.getD i (.text []) <;> rfl

/-- The row of a record has as many cells as there are columns, none of them null, and content in one of them. -/
theorem placeCells_rowOf (hnodup : columns.Nodup) (hlength : cells.length = columns.length)
    (hfilled : ∀ v ∈ cells, filledCell v = v) (h : record columns numeric cells = .ok r) :
    placeCells columns.length (rowOf columns r) = rowOf columns r ∧
      (rowOf columns r).all Value.isBlank = cells.all Value.isBlank := by
  constructor
  · have hwidth : (rowOf columns r).length = columns.length := by simp [rowOf]
    have hcell : ∀ v ∈ rowOf columns r, filledCell v = v := by
      intro v hv
      obtain ⟨column, hcolumn, rfl⟩ := List.mem_map.mp hv
      obtain ⟨w, hw, hentry⟩ := get_record hnodup hlength h hcolumn
      rw [Record.get, hentry, Option.getD_some]
      exact filledCell_entryOf (hfilled w hw)
    have htake : (rowOf columns r).take columns.length = rowOf columns r := by
      rw [← hwidth, List.take_length]
    rw [placeCells, htake, hwidth, Nat.sub_self, List.replicate_zero, List.append_nil]
    exact (List.map_congr_left hcell).trans (List.map_id _)
  · rw [rowOf_eq_zipWith hnodup hlength h]
    clear h hfilled hnodup
    induction columns generalizing cells with
    | nil =>
      rw [List.eq_nil_of_length_eq_zero hlength]
      rfl
    | cons column rest ih =>
      obtain ⟨v, cells, rfl⟩ := List.exists_cons_of_length_eq_add_one hlength
      rw [List.zipWith_cons_cons, List.all_cons, List.all_cons, isBlank_entryOf, ih (by simpa using hlength)]

section Rows

variable (hnodup : columns.Nodup) (hlength : ∀ cells ∈ body, cells.length = columns.length)
  (hrecords : body.mapM (record columns numeric) = .ok records)

include hnodup hlength hrecords

/-- Every row of the table has content, so all of them are read again. -/
theorem body_rows (hfilled : ∀ cells ∈ body, (∀ v ∈ cells, filledCell v = v) ∧ cells.all Value.isBlank = false) :
    Table.body (columns.map .text) (Table.rows ⟨columns, records⟩) = .ok (records.map (rowOf columns)) := by
  have hplace : ∀ r ∈ records, placeCells columns.length (rowOf columns r) = rowOf columns r ∧
      (rowOf columns r).all Value.isBlank = false := by
    intro r hr
    obtain ⟨cells, hmem, hrecord⟩ := exists_of_mem_of_mapM hrecords hr
    obtain ⟨hcells, hcontent⟩ := hfilled cells hmem
    obtain ⟨hrow, hblank⟩ := placeCells_rowOf hnodup (hlength cells hmem) hcells hrecord
    exact ⟨hrow, hblank.trans hcontent⟩
  have hisFilled : ∀ row ∈ records.map (rowOf columns), IsFilled (columns.map .text) row := by
    intro row hrow
    obtain ⟨r, hr, rfl⟩ := List.mem_map.mp hrow
    obtain ⟨hsame, hcontent⟩ := hplace r hr
    rwa [IsFilled, List.length_map, hsame]
  have hread := body_of_isFilled hisFilled
  rw [List.map_map, List.map_map] at hread
  refine hread.trans (congrArg _ (List.map_congr_left fun r hr => ?_))
  rw [Function.comp_apply, List.length_map, (hplace r hr).1]

theorem mapM_record_rowOf : (records.map (rowOf columns)).mapM (record columns numeric) = .ok records := by
  rw [mapM_eq_ok_iff, List.forall₂_map_left_iff]
  refine List.forall₂_same.mpr fun r hr => ?_
  obtain ⟨cells, hmem, hrecord⟩ := exists_of_mem_of_mapM hrecords hr
  exact record_rowOf hnodup (hlength cells hmem) hrecord

end Rows

/-- What a load has made of rows that are read by place is loaded as it is: under different column names, the
same columns come out, and the same records with all their derived fields. -/
theorem load_rows (hrows : ∀ row ∈ rows, row.isPositional = true) (h : load header rows = .ok table)
    (hnodup : table.columns.Nodup) : load (table.columns.map .text) table.rows = .ok table := by
  rcases load_cases h with ⟨-, rfl⟩ | ⟨hcolumns, body, numeric, records, hbody, hnumeric, hrecords, rfl⟩
  · rfl
  · have hheader : Header.columns ((Header.columns header).map .text) = Header.columns header :=
      Header.columns_map_text hnodup
    have hlength : ∀ cells ∈ body, cells.length = (Header.columns header).length := by
      intro cells hcells
      rw [body_of_isPositional hrows hbody] at hcells
      obtain ⟨row, -, rfl⟩ := List.mem_map.mp hcells
      simp [Header.length_columns]
    have hfilled : ∀ cells ∈ body, (∀ v ∈ cells, filledCell v = v) ∧ cells.all Value.isBlank = false := by
      intro cells hcells
      have hcontent : cells.all Value.isBlank = false := by
        obtain ⟨all, -, rfl⟩ := map_eq_ok_iff.mp hbody
        simpa using List.of_mem_filter hcells
      exact ⟨fun v hv => filledCell_of_mem_body hrows hbody hcells hv, hcontent⟩
    have hbody' := body_rows hnodup hlength hrecords hfilled
    have hnumeric' := (numericColumns_rowOf hnodup hlength hrecords).trans hnumeric
    have hrecords' := mapM_record_rowOf hnodup hlength hrecords
    unfold load
    simp only [hheader, List.isEmpty_iff, hcolumns, if_false, hbody', hnumeric', hrecords', bind, Except.bind]
    rfl

def inspectedCells : List (List Text) :=
  [["2024-03-05", "A St", "kept", "1200"], ["soon", "B St", "", ""]]

theorem load_rows_inspections : ∃ table, load inspections.header inspections.rows = .ok table ∧
    table.columns.Nodup ∧ table.rows.map (fun row => row.members.map Value.cellText) = inspectedCells ∧
    load (table.columns.map .text) table.rows = .ok table := by
  have hrun : (load inspections.header inspections.rows).map (fun table =>
      decide table.columns.Nodup &&
        table.rows.map (fun row => row.members.map Value.cellText) == inspectedCells) = .ok true := by
    decide +kernel
  obtain ⟨table, htable, hfacts⟩ := map_eq_ok_iff.mp hrun
  simp only [Bool.and_eq_true, decide_eq_true_eq, beq_iff_eq] at hfacts
  obtain ⟨hnodup, hcells⟩ := hfacts
  exact ⟨table, htable, hnodup, hcells, load_rows (by decide) htable hnodup⟩

end Table
end AskTable
