import AskTable.Proofs.Index
import AskTable.Proofs.TextTable
import Mathlib.Data.List.GetD
import Mathlib.Data.List.Nodup

/-! What the record of a row holds. Under different column names, its fields are the columns and the fields that
are derived from them, each cell of the row is found under the name of its column, and a derived field is
computed from the entry of its own column. -/
namespace AskTable

namespace Record

variable {columns : List Text} {r : Record} {name : Text} {v : Value}

def keys (r : Record) : List Text :=
  r.map (·.1)

theorem set_of_not_mem (h : name ∉ r.keys) : r.set name v = r ++ [(name, v)] := by
  induction r with
  | nil => rfl
  | cons entry rest ih =>
    obtain ⟨key, w⟩ := entry
    have hne : key ≠ name := fun heq => h (heq ▸ List.mem_cons_self)
    have hrest : name ∉ keys rest := fun hmem => h (List.mem_cons_of_mem _ hmem)
    have hstep : set ((key, w) :: rest) name v = (key, w) :: set rest name v := by
      simp [set, putEntry, hne]
    rw [hstep, ih hrest, List.cons_append]

theorem keys_set_of_mem (h : name ∈ r.keys) : (r.set name v).keys = r.keys := by
  induction r with
  | nil => cases h
  | cons entry rest ih =>
    obtain ⟨key, w⟩ := entry
    by_cases hkey : key = name
    · simp [keys, set, putEntry, hkey]
    · have hrest : name ∈ keys rest := by
        rcases List.mem_cons.mp h with heq | hmem
        · exact absurd heq.symm hkey
        · exact hmem
      have hstep : set ((key, w) :: rest) name v = (key, w) :: set rest name v := by
        simp [set, putEntry, hkey]
      have hkeys : keys (set rest name v) = keys rest := ih hrest
      rw [hstep]
      exact congrArg (key :: ·) hkeys

theorem keys_set_of_not_mem (h : name ∉ r.keys) : (r.set name v).keys = r.keys ++ [name] := by
  rw [set_of_not_mem h, keys, List.map_append]
  rfl

theorem nodup_keys_set (h : r.keys.Nodup) : (r.set name v).keys.Nodup := by
  by_cases hname : name ∈ r.keys
  · rwa [keys_set_of_mem hname]
  · rw [keys_set_of_not_mem hname]
    exact List.nodup_append.mpr ⟨h, List.nodup_singleton _, fun key hkey other hother heq => by
      obtain rfl := List.mem_singleton.mp hother
      exact hname (heq ▸ hkey)⟩

theorem nodup_keys_derive (h : r.keys.Nodup) : (r.derive columns name v).keys.Nodup := by
  unfold derive
  split_ifs
  · exact h
  · exact nodup_keys_set h

theorem get?_eq_some_iff_mem (hnodup : r.keys.Nodup) : r.get? name = some v ↔ (name, v) ∈ r := by
  refine lookup_eq_some_iff_mem fun w hw hv => ?_
  have hsame := List.inj_on_of_nodup_map hnodup hw hv rfl
  exact (Prod.mk.inj hsame).2

end Record

namespace Table

variable {columns numeric done rest : List Text} {cells : List Value} {r r' : Record} {column : Text}

/-- Under different names, a row is laid out as its cells with their names. -/
theorem plainRecord_eq_zip (h : columns.Nodup) :
    plainRecord columns cells = columns.zip (cells.map trimCell) := by
  have hlay {r : Record} (hnodup : columns.Nodup) (hfree : ∀ column ∈ columns, column ∉ r.keys) :
      (columns.zip cells).foldl (fun r entry => r.set entry.1 (trimCell entry.2)) r =
        r ++ columns.zip (cells.map trimCell) := by
    clear h
    induction columns generalizing cells r with
    | nil => simp
    | cons column rest ih =>
      cases cells with
      | nil => simp
      | cons v cells =>
        obtain ⟨hcolumn, hrest⟩ := List.nodup_cons.mp hnodup
        obtain ⟨hfirst, hlater⟩ := List.forall_mem_cons.mp hfree
        have hstill : ∀ other ∈ rest, other ∉ (r.set column (trimCell v)).keys := by
          intro other hother
          rw [Record.keys_set_of_not_mem hfirst, List.mem_append, List.mem_singleton, not_or]
          exact ⟨hlater other hother, fun heq => hcolumn (heq ▸ hother)⟩
        rw [List.zip_cons_cons, List.foldl_cons, ih hrest hstill, Record.set_of_not_mem hfirst]
        simp
  exact hlay h fun _ _ => List.not_mem_nil

theorem nodup_keys_plainRecord (columns : List Text) (cells : List Value) :
    (plainRecord columns cells).keys.Nodup := by
  unfold plainRecord
  exact List.foldlRecOn (motive := fun r => Record.keys r |>.Nodup) _ _ List.nodup_nil
    fun _ hr _ _ => Record.nodup_keys_set hr

def derivedFields (columns some : List Text) : List Text :=
  (some.flatMap fun column => (ColumnClass.ofName column).shadows.map (·.field column)).filter
    (!columns.contains ·)

theorem mem_derivedFields_iff {name : Text} : name ∈ derivedFields columns done ↔ name ∉ columns ∧
    ∃ column ∈ done, ∃ s ∈ (ColumnClass.ofName column).shadows, name = s.field column := by
  simp only [derivedFields, List.mem_filter, List.mem_flatMap, List.mem_map, Bool.not_eq_true',
    List.contains_eq_mem, decide_eq_false_iff_not]
  rw [and_comm]
  simp only [eq_comm]

private theorem derivedFields_concat (columns done : List Text) (column : Text) :
    derivedFields columns (done ++ [column]) = derivedFields columns done ++
      ((ColumnClass.ofName column).shadows.map (·.field column)).filter (!columns.contains ·) := by
  simp [derivedFields]

theorem keys_withShadows {entries : List (Shadow × Value)} (hnodup : (entries.map (·.1)).Nodup)
    (hfree : ∀ s ∈ entries.map (·.1), s.field column ∉ columns → s.field column ∉ r.keys) :
    (withShadows columns column r entries).keys =
      r.keys ++ ((entries.map (·.1)).map (·.field column)).filter (!columns.contains ·) := by
  induction entries generalizing r with
  | nil => simp [withShadows]
  | cons entry rest ih =>
    obtain ⟨s, v⟩ := entry
    obtain ⟨hs, hrest⟩ := List.nodup_cons.mp hnodup
    obtain ⟨hfirst, hlater⟩ := List.forall_mem_cons.mp hfree
    by_cases hcolumn : s.field column ∈ columns
    · have hsame : r.derive columns (s.field column) v = r := by simp [Record.derive, hcolumn]
      rw [withShadows_cons, hsame, ih hrest hlater]
      simp [hcolumn]
    · have hset : r.derive columns (s.field column) v = r.set (s.field column) v := by
        simp [Record.derive, hcolumn]
      have hkeys := Record.keys_set_of_not_mem (v := v) (hfirst hcolumn)
      have hstill : ∀ t ∈ rest.map (·.1), t.field column ∉ columns →
          t.field column ∉ (r.set (s.field column) v).keys := by
        intro t ht hnew
        rw [hkeys, List.mem_append, List.mem_singleton, not_or]
        exact ⟨hlater t ht hnew, fun heq => hs ((Shadow.field_inj.mp heq).1 ▸ ht)⟩
      rw [withShadows_cons, hset, ih hrest hstill, hkeys]
      simp [hcolumn]

theorem keys_deriveColumn (hcolumn : column ∈ r.keys)
    (hfree : ∀ s : Shadow, s.field column ∉ columns → s.field column ∉ r.keys)
    (h : deriveColumn columns numeric r column = .ok r') :
    r'.keys = r.keys ++
      ((ColumnClass.ofName column).shadows.map (·.field column)).filter (!columns.contains ·) := by
  rcases deriveColumn_cases h with ⟨hkind, v, rfl | rfl⟩ | ⟨-, entries, hentries, rfl⟩
  · simp [hkind, ColumnClass.shadows]
  · rw [Record.keys_set_of_mem hcolumn]
    simp [hkind, ColumnClass.shadows]
  · have hshadows := shadowsOf_map_fst hentries
    have hnodup : (entries.map (·.1)).Nodup := hshadows ▸ ColumnClass.nodup_shadows _
    rw [keys_withShadows hnodup fun s _ => hfree s, hshadows]

/-- Where the walk has come past some columns, the fields of those have been derived. -/
theorem keys_foldlM_deriveColumn (hnodup : (done ++ rest).Nodup)
    (hcolumns : ∀ column ∈ done ++ rest, column ∈ columns)
    (hkeys : r.keys = columns ++ derivedFields columns done)
    (h : rest.foldlM (deriveColumn columns numeric) r = .ok r') :
    r'.keys = columns ++ derivedFields columns (done ++ rest) := by
  induction rest generalizing done r with
  | nil =>
    obtain rfl := Except.ok.inj h
    rwa [List.append_nil]
  | cons column rest ih =>
    rw [List.foldlM_cons, bind_eq_ok_iff] at h
    obtain ⟨t, ht, h⟩ := h
    have hcolumn : column ∈ columns := hcolumns column (by simp)
    have hlate : column ∉ done := fun hmem =>
      (List.nodup_append.mp hnodup).2.2 column hmem column List.mem_cons_self rfl
    have hfree : ∀ s : Shadow, s.field column ∉ columns → s.field column ∉ r.keys := by
      intro s hnew hmem
      rw [hkeys, List.mem_append, mem_derivedFields_iff] at hmem
      obtain ⟨-, other, hother, t, -, heq⟩ := hmem.resolve_left hnew
      exact hlate ((Shadow.field_inj.mp heq).2 ▸ hother)
    have hstep := keys_deriveColumn (by simp [hkeys, hcolumn]) hfree ht
    have hdone : t.keys = columns ++ derivedFields columns (done ++ [column]) := by
      rw [hstep, hkeys, derivedFields_concat, List.append_assoc]
    have hsplit : done ++ [column] ++ rest = done ++ column :: rest := by simp
    have hlater := ih (hsplit ▸ hnodup) (hsplit ▸ hcolumns) hdone h
    rwa [hsplit] at hlater

/-- Under different names, a record has its columns and the fields derived from them, and nothing else. -/
theorem keys_record (hnodup : columns.Nodup) (hlength : cells.length = columns.length)
    (h : record columns numeric cells = .ok r) : r.keys = columns ++ derivedFields columns columns := by
  have hplain : (plainRecord columns cells).keys = columns := by
    rw [plainRecord_eq_zip hnodup, Record.keys]
    exact List.map_fst_zip (by simp [hlength])
  have hnone : (plainRecord columns cells).keys = columns ++ derivedFields columns [] := by
    rw [hplain]
    simp [derivedFields]
  have hall : ([] ++ columns).Nodup := hnodup
  exact keys_foldlM_deriveColumn hall (fun _ hmem => hmem) hnone h

theorem nodup_keys_record (h : record columns numeric cells = .ok r) : r.keys.Nodup := by
  refine foldlM_preserves (P := fun r => r.keys.Nodup) ?_ (nodup_keys_plainRecord columns cells) h
  intro column _ s t hs hstep
  rcases deriveColumn_cases hstep with ⟨-, v, rfl | rfl⟩ | ⟨-, entries, -, rfl⟩
  · exact hs
  · exact Record.nodup_keys_set hs
  · exact List.foldlRecOn (motive := fun r : Record => r.keys.Nodup) entries _ hs
      fun _ hr _ _ => Record.nodup_keys_derive hr

end Table

theorem Text.isBlank_of_strip_eq_nil {t : Text} (h : t.strip = []) : t.isBlank = true := by
  have hall : ∀ c ∈ t.dropWhile isBlankChar, isBlankChar c = true := by
    rwa [strip, trim_eq_rdropWhile, List.rdropWhile_eq_nil_iff] at h
  have hnone : t.dropWhile isBlankChar = [] := by
    by_contra hne
    have hhead := List.head_dropWhile_not isBlankChar hne
    rw [hall _ (List.head_mem hne)] at hhead
    cases hhead
  exact List.all_eq_true.mpr (List.dropWhile_eq_nil_iff.mp hnone)

theorem Text.isBlank_strip (t : Text) : t.strip.isBlank = t.isBlank := by
  rw [Bool.eq_iff_iff]
  constructor
  · intro h
    have hempty := strip_eq_nil_of_isBlank h
    rw [strip_strip] at hempty
    exact isBlank_of_strip_eq_nil hempty
  · intro h
    rw [strip_eq_nil_of_isBlank h]
    rfl

namespace Value

def numeral? (v : Value) : Option Number :=
  match v.number? with
  | .ok n => n
  | .error _ => none

theorem number?_of_isBlank {v : Value} (h : v.isBlank = true) : v.number? = .ok none := by
  cases v with
  | bool b | int n => cases h
  | float x =>
    have hnan : x = .nan := by simpa [isBlank, isMissing] using h
    rw [hnan]
    rfl
  | null | text t | date d | moment m | list items | dict entries =>
    unfold number?
    dsimp only
    rw [if_pos h]

theorem number?_trimCell (v : Value) : (Table.trimCell v).number? = v.number? := by
  cases v with
  | text t =>
    have hblank : (Value.text t.strip).isBlank = (Value.text t).isBlank := Text.isBlank_strip t
    simp only [Table.trimCell, number?, hblank, shown, Text.strip_strip]
  | null | bool b | int n | float x | date d | moment m | list items | dict entries => rfl

end Value

namespace Table

variable {columns numeric : List Text} {cells : List Value} {r r' : Record} {column : Text} {v : Value}

/-- The entry of a cell: in a column of numbers the number that can be read in it, else the cell itself. -/
def entryOf (isNumbers : Bool) (v : Value) : Value :=
  if isNumbers then (v.numeral?.map .ofNumber).getD (trimCell v) else trimCell v

theorem get?_plainRecord {i : Nat} (hnodup : columns.Nodup) (hcolumn : columns[i]? = some column)
    (hcell : cells[i]? = some v) : (plainRecord columns cells).get? column = some (trimCell v) := by
  rw [Record.get?_eq_some_iff_mem (nodup_keys_plainRecord columns cells), plainRecord_eq_zip hnodup]
  refine List.mem_of_getElem? (i := i) ?_
  rw [List.getElem?_zip_eq_some, List.getElem?_map, hcell]
  exact ⟨hcolumn, rfl⟩

theorem get?_deriveColumn_self (hcell : r.get? column = some (trimCell v)) (hcolumn : column ∈ columns)
    (h : deriveColumn columns numeric r column = .ok r') : r'.get? column =
      some (entryOf (decide (ColumnClass.ofName column = .other) && numeric.contains column) v) := by
  by_cases hkind : ColumnClass.ofName column = .other
  · have hget : r.get column = trimCell v := by rw [Record.get, hcell, Option.getD_some]
    unfold deriveColumn at h
    simp only [hkind, hget, Value.number?_trimCell] at h
    simp only [hkind, decide_true, Bool.true_and]
    split_ifs at h with hnumber
    · obtain ⟨hnumeric, -⟩ := Bool.and_eq_true_iff.mp hnumber
      obtain ⟨n, hn, rfl⟩ := map_eq_ok_iff.mp h
      cases n with
      | none =>
        have hentry : entryOf true v = trimCell v := by simp [entryOf, Value.numeral?, hn]
        rw [hnumeric, hentry]
        exact hcell
      | some n =>
        have hentry : entryOf true v = .ofNumber n := by simp [entryOf, Value.numeral?, hn]
        rw [hnumeric, hentry]
        exact Record.get?_set_self
    · obtain rfl := Except.ok.inj h
      have hentry : entryOf (numeric.contains column) v = trimCell v := by
        by_cases hnumeric : numeric.contains column = true
        · have hblank : (trimCell v).isBlank = true := by
            rw [hnumeric, Bool.true_and, Bool.not_eq_true', Bool.not_eq_false] at hnumber
            exact hnumber
          have hnone : v.number? = .ok none := by
            rw [← Value.number?_trimCell, Value.number?_of_isBlank hblank]
          simp [entryOf, Value.numeral?, hnone]
        · rw [eq_false_of_ne_true hnumeric]
          rfl
      rw [hcell, hentry]
  · rw [get?_deriveColumn_of_mem h hcolumn (.inr hkind), hcell]
    simp [entryOf, hkind]

/-- Under different names, each cell of a row is found under the name of its column. -/
theorem get?_record {i : Nat} (hnodup : columns.Nodup) (hcolumn : columns[i]? = some column)
    (hcell : cells[i]? = some v) (h : record columns numeric cells = .ok r) : r.get? column =
      some (entryOf (decide (ColumnClass.ofName column = .other) && numeric.contains column) v) := by
  have hmem : column ∈ columns := List.mem_of_getElem? hcolumn
  have hkeep {w : Value} : ∀ x ∈ columns, x ≠ column → ∀ s t : Record, s.get? column = some w →
      deriveColumn columns numeric s x = .ok t → t.get? column = some w := by
    intro x _ hne s t hs hstep
    rw [get?_deriveColumn_of_mem hstep hmem (.inl hne.symm), hs]
  exact foldlM_turns hmem hnodup (fun _ _ hs hstep => get?_deriveColumn_self hs hmem hstep) hkeep hkeep
    (get?_plainRecord hnodup hcolumn hcell) h

theorem isNumeric_eq_ok_true_iff {values : List Value} : isNumeric values = .ok true ↔
    (values.filter (!·.isBlank)).take numericSample ≠ [] ∧
      ∀ v ∈ (values.filter (!·.isBlank)).take numericSample, v.numeral?.isSome = true := by
  have hcell (v : Value) : v.number?.map (·.isSome) = .ok true ↔ v.numeral?.isSome = true := by
    unfold Value.numeral?
    cases v.number? with
    | error fault => simp [Except.map]
    | ok n => simp [Except.map]
  unfold isNumeric
  dsimp only
  split_ifs with hempty
  · simp [List.isEmpty_iff.mp hempty]
  · have hne : (values.filter (!·.isBlank)).take numericSample ≠ [] := fun heq => hempty (by rw [heq]; rfl)
    rw [allM_eq_ok_true_iff]
    simp only [hcell, hne, ne_eq, not_false_eq_true, true_and]

end Table

/-- The cells of a row that is read by place: those of a list, the characters of a text, and none otherwise. -/
def Value.members : Value → List Value
  | .list cells => cells
  | .text t => t.map fun c => .text [c]
  | _ => []

/-- The cell of a row at a place; what is missing or null is an empty text. -/
def Value.cellAt (row : Value) (i : Nat) : Value :=
  Table.filledCell (row.members.getD i (.text []))

def Value.isPositional : Value → Bool
  | .dict _ => false
  | _ => true

/-- What a derived field of a column of a class holds, by the entry of the column. -/
def ColumnClass.shadow? (kind : ColumnClass) (s : Shadow) (entry : Value) : Option Value :=
  match shadowsOf kind entry with
  | .ok entries => List.lookup s entries
  | .error _ => none

namespace Table

variable {header rows : List Value} {row : Value} {cells : List Value} {r : Record}

def hasContent (header : List Value) (row : Value) : Bool :=
  (List.range header.length).any fun i => !(row.cellAt i).isBlank

/-- Whether the column at a place has no class of its own, and the first of its cells with content are numbers. -/
def isNumberColumn (header rows : List Value) (i : Nat) : Bool :=
  ColumnClass.ofName ((Header.columns header).getD i []) == .other &&
    (((rows.map (·.cellAt i)).filter (!·.isBlank)).take numericSample).all (·.numeral?.isSome)

/-- What the record of a row is made of. -/
structure IsRecordOf (header rows : List Value) (row : Value) (r : Record) : Prop where
  keys : r.keys = Header.columns header ++ derivedFields (Header.columns header) (Header.columns header)
  entry : ∀ i column, (Header.columns header)[i]? = some column →
    r.get? column = some (entryOf (isNumberColumn header rows i) (row.cellAt i))
  shadow : ∀ column ∈ Header.columns header, ∀ s ∈ (ColumnClass.ofName column).shadows,
    s.field column ∉ Header.columns header →
      r.get? (s.field column) = (ColumnClass.ofName column).shadow? s (r.get column)

private theorem placeCells_eq_map_range (width : Nat) (row : Value) :
    placeCells width row.members = (List.range width).map row.cellAt := by
  refine List.ext_getElem (by simp [length_placeCells]) fun i hi hi' => ?_
  have hwidth : i < width := by simpa using hi'
  simp only [placeCells, List.getElem_map, List.getElem_range, Value.cellAt]
  congr 1
  by_cases hmember : i < row.members.length
  · rw [List.getElem_append_left (by simp [hwidth, hmember]), List.getElem_take,
      List.getD_eq_getElem _ _ hmember]
  · rw [List.getElem_append_right (by simp; omega), List.getElem_replicate,
      List.getD_eq_default _ _ (Nat.not_lt.mp hmember)]

theorem rowCells_of_isPositional (hrow : row.isPositional = true) (h : rowCells header row = .ok cells) :
    cells = (List.range header.length).map row.cellAt := by
  rw [← placeCells_eq_map_range]
  unfold rowCells at h
  cases row with
  | dict entries => cases hrow
  | list items | text t => exact (Except.ok.inj h).symm
  | null | bool b | int n | float x | date d | moment m =>
    dsimp only at h
    split_ifs at h
    exact (Except.ok.inj h).symm

private theorem all_isBlank_cellAt (header : List Value) (row : Value) :
    (((List.range header.length).map row.cellAt).all Value.isBlank) = !hasContent header row := by
  rw [hasContent, List.all_map, List.not_any_eq_all_not]
  simp [Function.comp_def]

theorem body_of_isPositional {body : List (List Value)} (hrows : ∀ row ∈ rows, row.isPositional = true)
    (h : Table.body header rows = .ok body) :
    body = (rows.filter (hasContent header)).map fun row => (List.range header.length).map row.cellAt := by
  obtain ⟨all, hall, rfl⟩ := map_eq_ok_iff.mp h
  have hcells : all = rows.map fun row => (List.range header.length).map row.cellAt := by
    rw [← List.forall₂_eq_eq_eq, List.forall₂_map_right_iff]
    have hboth := (List.forall₂_and_left _ _).mpr ⟨hrows, mapM_eq_ok_iff.mp hall⟩
    refine (hboth.imp fun row cells hrow => ?_).flip
    exact rowCells_of_isPositional hrow.1 hrow.2
  rw [hcells, List.filter_map]
  refine congrArg _ (List.filter_congr fun row _ => ?_)
  rw [Function.comp_apply, all_isBlank_cellAt, Bool.not_not]

theorem entryOf_of_numeral?_eq_none {v : Value} (h : v.numeral? = none) (isNumbers : Bool) :
    entryOf isNumbers v = trimCell v := by
  cases isNumbers <;> simp [entryOf, h]

/-- The cells with content in a column are those of the rows with content. -/
theorem filter_map_cellAt {i : Nat} (hi : i < header.length) :
    ((rows.filter (hasContent header)).map (·.cellAt i)).filter (!·.isBlank) =
      (rows.map (·.cellAt i)).filter (!·.isBlank) := by
  rw [List.filter_map, List.filter_map, List.filter_filter]
  refine congrArg _ (List.filter_congr fun row _ => ?_)
  have hrow : (!(row.cellAt i).isBlank) = true → hasContent header row = true :=
    fun hfilled => List.any_eq_true.mpr ⟨i, List.mem_range.mpr hi, hfilled⟩
  rw [Function.comp_apply]
  cases hblank : !(row.cellAt i).isBlank with
  | false => rfl
  | true => rw [hrow hblank, Bool.true_and]

variable {body : List (List Value)} {numeric : List Text} {column : Text} {i : Nat}

theorem contains_numeric_iff (hnodup : (Header.columns header).Nodup)
    (hcolumn : (Header.columns header)[i]? = some column) (hrows : ∀ row ∈ rows, row.isPositional = true)
    (hbody : Table.body header rows = .ok body)
    (hnumeric : numericColumns (Header.columns header) body = .ok numeric) :
    column ∈ numeric ↔ isNumberColumn header rows i = true ∧
      (rows.map (·.cellAt i)).filter (!·.isBlank) ≠ [] := by
  have hi : i < header.length := by
    rw [← Header.length_columns header]
    exact (List.getElem?_eq_some_iff.mp hcolumn).1
  have hname : (Header.columns header).getD i [] = column := by
    rw [List.getD_eq_getElem?_getD, hcolumn, Option.getD_some]
  have honly : ∀ j, (Header.columns header)[j]? = some column → j = i := by
    intro j hj
    exact (List.getElem?_inj (List.getElem?_eq_some_iff.mp hj).1 hnodup).mp (hj.trans hcolumn.symm)
  have hcells : (body.map fun cells => cells.getD i .null) =
      (rows.filter (hasContent header)).map (·.cellAt i) := by
    rw [body_of_isPositional hrows hbody, List.map_map]
    refine List.map_congr_left fun row _ => ?_
    simp [hi]
  have hplace : (∃ j, (Header.columns header)[j]? = some column ∧
        isNumeric (body.map fun cells => cells.getD j .null) = .ok true) ↔
      isNumeric (body.map fun cells => cells.getD i .null) = .ok true := by
    constructor
    · rintro ⟨j, hj, hnumbers⟩
      rwa [honly j hj] at hnumbers
    · exact fun hnumbers => ⟨i, hcolumn, hnumbers⟩
  have hsample : numericSample ≠ 0 := by decide
  rw [mem_numericColumns_iff hnumeric, hplace, hcells, isNumeric_eq_ok_true_iff, filter_map_cellAt hi,
    isNumberColumn, hname, Bool.and_eq_true, beq_iff_eq, List.all_eq_true, ne_eq, List.take_eq_nil_iff,
    not_or]
  tauto

theorem ofName_of_isNumberColumn (hcolumn : (Header.columns header)[i]? = some column)
    (h : isNumberColumn header rows i = true) : ColumnClass.ofName column = .other := by
  have hclass := (Bool.and_eq_true_iff.mp h).1
  rw [List.getD_eq_getElem?_getD, hcolumn, Option.getD_some] at hclass
  exact eq_of_beq hclass

theorem entryOf_cellAt (hnodup : (Header.columns header).Nodup)
    (hcolumn : (Header.columns header)[i]? = some column) (hrows : ∀ row ∈ rows, row.isPositional = true)
    (hbody : Table.body header rows = .ok body)
    (hnumeric : numericColumns (Header.columns header) body = .ok numeric) (hrow : row ∈ rows) :
    entryOf (decide (ColumnClass.ofName column = .other) && numeric.contains column) (row.cellAt i) =
      entryOf (isNumberColumn header rows i) (row.cellAt i) := by
  have hiff := contains_numeric_iff hnodup hcolumn hrows hbody hnumeric
  by_cases hfilled : (rows.map (·.cellAt i)).filter (!·.isBlank) = []
  · -- A column without content has no numbers, whatever it is taken for.
    have hblank : (row.cellAt i).isBlank = true := by
      have hall := List.filter_eq_nil_iff.mp hfilled _ (List.mem_map_of_mem hrow)
      simpa using hall
    have hnone : (row.cellAt i).numeral? = none := by rw [Value.numeral?, Value.number?_of_isBlank hblank]
    rw [entryOf_of_numeral?_eq_none hnone, entryOf_of_numeral?_eq_none hnone]
  · have hkind : isNumberColumn header rows i = true → ColumnClass.ofName column = .other :=
      ofName_of_isNumberColumn hcolumn
    congr 1
    rw [Bool.eq_iff_iff, Bool.and_eq_true, decide_eq_true_eq, List.contains_iff_mem, hiff]
    tauto

theorem shadow?_of_derived {columns : List Text} {s : Shadow} (h : Derived columns column r)
    (hs : s ∈ (ColumnClass.ofName column).shadows) (hfree : s.field column ∉ columns) :
    r.get? (s.field column) = (ColumnClass.ofName column).shadow? s (r.get column) := by
  obtain ⟨entries, hentries, hfields⟩ := h
  rw [← shadowsOf_map_fst hentries] at hs
  obtain ⟨⟨s, v⟩, hmem, rfl⟩ := List.mem_map.mp hs
  have hnodup : (entries.map (·.1)).Nodup := shadowsOf_map_fst hentries ▸ ColumnClass.nodup_shadows _
  have hlookup : List.lookup s entries = some v := by
    refine (lookup_eq_some_iff_mem fun w hw hv => ?_).mpr hmem
    exact (Prod.mk.inj (List.inj_on_of_nodup_map hnodup hw hv rfl)).2
  rw [hfields s v hmem hfree, ColumnClass.shadow?, hentries]
  exact hlookup.symm

theorem isRecordOf_of_load {table : Table} (hnodup : (Header.columns header).Nodup)
    (hrows : ∀ row ∈ rows, row.isPositional = true) (h : load header rows = .ok table) :
    List.Forall₂ (IsRecordOf header rows) (rows.filter (hasContent header)) table.records := by
  rcases load_cases h with ⟨hnone, rfl⟩ | ⟨-, body, numeric, records, hbody, hnumeric, hrecords, rfl⟩
  · have hheader : header.length = 0 := by rw [← Header.length_columns, hnone, List.length_nil]
    have hempty : rows.filter (hasContent header) = [] := by simp [hasContent, hheader]
    rw [hempty]
    exact .nil
  · rw [mapM_eq_ok_iff, body_of_isPositional hrows hbody, List.forall₂_map_left_iff] at hrecords
    have hmem : ∀ row ∈ rows.filter (hasContent header), row ∈ rows := fun _ hrow => List.mem_of_mem_filter hrow
    refine ((List.forall₂_and_left _ _).mpr ⟨hmem, hrecords⟩).imp fun row r hrow => ?_
    obtain ⟨hrow, hrecord⟩ := hrow
    constructor
    · exact keys_record hnodup (by simp [Header.length_columns]) hrecord
    · intro i column hcolumn
      have hi : i < header.length := by
        rw [← Header.length_columns header]
        exact (List.getElem?_eq_some_iff.mp hcolumn).1
      have hcell : ((List.range header.length).map row.cellAt)[i]? = some (row.cellAt i) := by simp [hi]
      rw [get?_record hnodup hcolumn hcell hrecord,
        entryOf_cellAt hnodup hcolumn hrows hbody hnumeric hrow]
    · exact fun column hcolumn s hs hfree => shadow?_of_derived (derived_of_record hrecord hcolumn) hs hfree

/-- Under different column names, each row with content becomes a record: its fields are the columns and the fields
derived from them, each cell is an entry of its own, and a derived field depends on the entry of its column. -/
theorem load_of_isPositional {table : Table} (hnodup : (Header.columns header).Nodup)
    (hrows : ∀ row ∈ rows, row.isPositional = true) (h : load header rows = .ok table) :
    table.columns = Header.columns header ∧
    List.Forall₂ (IsRecordOf header rows) (rows.filter (hasContent header)) table.records ∧
    ∀ (s t : Shadow) (a b : Text), a ≠ b → s.field a ≠ t.field b :=
  ⟨columns_of_load h, isRecordOf_of_load hnodup hrows h,
    fun _ _ _ _ hab heq => hab (Shadow.field_inj.mp heq).2⟩

/-- Two visits under a column that is named like a derived field, and a row without content between them. -/
def inspections : Dataset where
  header := ["Date", "Location", "Location_search", "Cost"]
  rows := [.list ["2024-03-05", " A St ", "kept", "1,200", "beyond"], .list [.null, "  "], .list ["soon", "B St"]]
  name := "inspections"

theorem load_of_isPositional_inspections : ∃ table r r', load inspections.header inspections.rows = .ok table ∧
    table.records = [r, r'] ∧ r.keys = ["Date", "Location", "Location_search", "Cost", "Date_search",
      "Date_parsed", "Date_month", "Date_year", "Date_formatted", "Location_upper", "Location_normalized",
      "Location_search_search", "Location_search_upper", "Location_search_normalized"] ∧
    r.get? "Location" = some (.text "A St") ∧ r.get? "Cost" = some (.int 1200) ∧
    r'.get? "Cost" = some (.text []) ∧ r'.get? "Date_formatted" = some (.text "Invalid Date") := by
  have hcolumns : Header.columns inspections.header = ["Date", "Location", "Location_search", "Cost"] := by
    decide +kernel
  have hloads : (load inspections.header inspections.rows).map (·.columns.length) = .ok 4 := by decide +kernel
  obtain ⟨table, htable, -⟩ := map_eq_ok_iff.mp hloads
  have hdistinct : (Header.columns inspections.header).Nodup := by
    rw [hcolumns]
    decide
  have hall := (load_of_isPositional hdistinct (by decide) htable).2.1
  have hfilled : inspections.rows.filter (hasContent inspections.header) =
      [.list ["2024-03-05", " A St ", "kept", "1,200", "beyond"], .list ["soon", "B St"]] := by
    rfl
  rw [hfilled] at hall
  obtain ⟨r, rest, hr, hrest, hrecords⟩ := List.forall₂_cons_left_iff.mp hall
  obtain ⟨r', none, hr', hnone, rfl⟩ := List.forall₂_cons_left_iff.mp hrest
  obtain rfl := List.forall₂_nil_left_iff.mp hnone
  refine ⟨table, r, r', htable, hrecords, ?_, ?_, ?_, ?_, ?_⟩
  · rw [hr.keys, hcolumns]
    decide +kernel
  · rw [hr.entry 1 "Location" (by rw [hcolumns]; rfl)]
    rfl
  · rw [hr.entry 3 "Cost" (by rw [hcolumns]; rfl)]
    rfl
  · rw [hr'.entry 3 "Cost" (by rw [hcolumns]; rfl)]
    rfl
  · have hentry : r'.get "Date" = .text "soon" := by
      rw [Record.get, hr'.entry 0 "Date" (by rw [hcolumns]; rfl)]
      rfl
    have hshadow := hr'.shadow "Date" (by simp [hcolumns]) .formatted (by decide +kernel) (by rw [hcolumns]; decide)
    rw [hentry] at hshadow
    exact hshadow.trans rfl

end Table
end AskTable
