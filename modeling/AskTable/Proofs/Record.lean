import AskTable.Proofs.Walk
import AskTable.Table.Snapshot

/-! What loading makes of a row: the fields that are derived from a cell are those of the class of its
column, they are computed from that very cell, and they are found beside it in the finished record. -/
namespace AskTable

section PutEntry

variable {α β : Type} [BEq α] [LawfulBEq α]

@[simp] theorem lookup_putEntry_self (key : α) (value : β) (entries : List (α × β)) :
    List.lookup key (putEntry key value entries) = some value := by
  induction entries with
  | nil => simp [putEntry]
  | cons entry rest ih =>
    obtain ⟨k, v⟩ := entry
    by_cases h : k = key
    · simp [putEntry, h]
    · have hk : (key == k) = false := by simpa using Ne.symm h
      simp [putEntry, h, List.lookup_cons, hk, ih]

private theorem lookup_putEntry_of_ne {key other : α} (h : other ≠ key) (value : β)
    (entries : List (α × β)) :
    List.lookup other (putEntry key value entries) = List.lookup other entries := by
  have ho : (other == key) = false := by simpa using h
  induction entries with
  | nil => simp [putEntry, List.lookup_cons, ho]
  | cons entry rest ih =>
    obtain ⟨k, v⟩ := entry
    by_cases hk : k = key
    · simp [putEntry, hk, List.lookup_cons, ho]
    · simp [putEntry, hk, List.lookup_cons, ih]

end PutEntry

namespace Record

variable {columns : List Text} {r : Record} {name other : Text} {v : Value}

@[simp] theorem get?_set_self : (r.set name v).get? name = some v :=
  lookup_putEntry_self name v r

theorem get?_set_of_ne (h : other ≠ name) : (r.set name v).get? other = r.get? other :=
  lookup_putEntry_of_ne h v r

theorem get?_derive_self (h : name ∉ columns) : (r.derive columns name v).get? name = some v := by
  simp [derive, h]

/-- A derived field changes neither a column nor any other field. -/
theorem get?_derive_of_ne (h : other ∈ columns ∨ other ≠ name) :
    (r.derive columns name v).get? other = r.get? other := by
  unfold derive
  split_ifs with hname
  · rfl
  · refine get?_set_of_ne ?_
    intro heq
    subst heq
    rcases h with h | h
    · exact hname (by simpa using h)
    · exact h rfl

theorem get_congr {r' : Record} (h : r'.get? name = r.get? name) : r'.get name = r.get name := by
  unfold get
  rw [h]

end Record

namespace Shadow

/-- The last letters of a suffix tell which it is. -/
private theorem suffix_end_injective {s t : Shadow}
    (h : s.suffix.reverse.take 3 = t.suffix.reverse.take 3) : s = t := by
  revert h
  cases s <;> cases t <;> decide

/-- A derived field belongs to one column, and is one of its derived fields. -/
theorem field_inj {s t : Shadow} {a b : Text} : s.field a = t.field b ↔ s = t ∧ a = b := by
  constructor
  · intro h
    have hend (u : Shadow) (c : Text) : (u.field c).reverse.take 3 = u.suffix.reverse.take 3 := by
      have hlong : 3 ≤ u.suffix.reverse.length := by cases u <;> decide
      rw [field, List.reverse_append, List.take_append_of_le_length hlong]
    obtain rfl : s = t := suffix_end_injective (by rw [← hend s a, ← hend t b, h])
    exact ⟨rfl, List.append_cancel_right h⟩
  · intro h
    obtain ⟨rfl, rfl⟩ := h
    rfl

end Shadow

def ColumnClass.shadows : ColumnClass → List Shadow
  | .date => [.search, .parsed, .month, .year, .formatted]
  | .identifier => [.search]
  | .freeText => [.search, .upper, .normalized]
  | .other => []

theorem ColumnClass.nodup_shadows (kind : ColumnClass) : kind.shadows.Nodup := by
  cases kind <;> decide

theorem shadowsOf_map_fst {kind : ColumnClass} {v : Value} {entries : List (Shadow × Value)}
    (h : shadowsOf kind v = .ok entries) : entries.map (·.1) = kind.shadows := by
  cases kind with
  | date =>
    obtain ⟨reading, -, rfl⟩ := map_eq_ok_iff.mp h
    rfl
  | identifier | freeText | other =>
    obtain rfl := Except.ok.inj h
    rfl

namespace Table

variable {columns numeric : List Text} {r r' : Record} {column name : Text}

def withShadows (columns : List Text) (column : Text) (r : Record) (entries : List (Shadow × Value)) :
    Record :=
  entries.foldl (fun r (shadow, v) => r.derive columns (shadow.field column) v) r

@[simp] theorem withShadows_cons (entry : Shadow × Value) (entries : List (Shadow × Value)) :
    withShadows columns column r (entry :: entries) =
      withShadows columns column (r.derive columns (entry.1.field column) entry.2) entries := rfl

theorem get?_withShadows_of_ne {entries : List (Shadow × Value)}
    (h : name ∈ columns ∨ ∀ s ∈ entries.map (·.1), name ≠ s.field column) :
    (withShadows columns column r entries).get? name = r.get? name := by
  induction entries generalizing r with
  | nil => rfl
  | cons entry rest ih =>
    have hrest : name ∈ columns ∨ ∀ s ∈ rest.map (·.1), name ≠ s.field column :=
      h.imp_right fun h s hs => h s (List.mem_cons_of_mem _ hs)
    have hentry : name ∈ columns ∨ name ≠ entry.1.field column :=
      h.imp_right fun h => h entry.1 List.mem_cons_self
    rw [withShadows_cons, ih hrest, Record.get?_derive_of_ne hentry]

theorem get?_withShadows {entries : List (Shadow × Value)} (hnodup : (entries.map (·.1)).Nodup)
    {s : Shadow} {v : Value} (hmem : (s, v) ∈ entries) (hs : s.field column ∉ columns) :
    (withShadows columns column r entries).get? (s.field column) = some v := by
  induction entries generalizing r with
  | nil => simp at hmem
  | cons entry rest ih =>
    rw [List.map_cons, List.nodup_cons] at hnodup
    rw [withShadows_cons]
    rcases List.mem_cons.mp hmem with rfl | hmem
    · have hrest : ∀ t ∈ rest.map (·.1), s.field column ≠ t.field column := by
        intro t ht heq
        exact hnodup.1 ((Shadow.field_inj.mp heq).1 ▸ ht)
      rw [get?_withShadows_of_ne (.inr hrest), Record.get?_derive_self hs]
    · exact ih hnodup.2 hmem

/-- A column without a class is left as it is or gets a number in place of its text; in any other column
the derived fields of the cell are set. -/
theorem deriveColumn_cases (h : deriveColumn columns numeric r column = .ok r') :
    (ColumnClass.ofName column = .other ∧ ∃ v, r' = r ∨ r' = r.set column v) ∨
    (ColumnClass.ofName column ≠ .other ∧
      ∃ entries, shadowsOf (ColumnClass.ofName column) (r.get column) = .ok entries ∧
        r' = withShadows columns column r entries) := by
  unfold deriveColumn at h
  cases hkind : ColumnClass.ofName column with
  | other =>
    refine .inl ⟨rfl, ?_⟩
    simp only [hkind] at h
    split_ifs at h with hnumber
    · obtain ⟨n, -, hr⟩ := map_eq_ok_iff.mp h
      cases n with
      | none => exact ⟨.null, .inl hr.symm⟩
      | some n => exact ⟨.ofNumber n, .inr hr.symm⟩
    · exact ⟨.null, .inl (Except.ok.inj h).symm⟩
  | date | identifier | freeText =>
    refine .inr ⟨by simp, ?_⟩
    simp only [hkind] at h
    obtain ⟨entries, hentries, hr⟩ := map_eq_ok_iff.mp h
    exact ⟨entries, hentries, hr.symm⟩

/-- What is derived from one column changes no field but its own. -/
theorem get?_deriveColumn_of_ne (h : deriveColumn columns numeric r column = .ok r')
    (hname : name ≠ column)
    (hs : name ∈ columns ∨ ∀ s ∈ (ColumnClass.ofName column).shadows, name ≠ s.field column) :
    r'.get? name = r.get? name := by
  rcases deriveColumn_cases h with ⟨-, v, rfl | rfl⟩ | ⟨-, entries, hentries, rfl⟩
  · rfl
  · exact Record.get?_set_of_ne hname
  · exact get?_withShadows_of_ne (by rwa [shadowsOf_map_fst hentries])

/-- The derived fields of a column are those of the cell that the record has in it. -/
def Derived (columns : List Text) (column : Text) (r : Record) : Prop :=
  ∃ entries, shadowsOf (ColumnClass.ofName column) (r.get column) = .ok entries ∧
    ∀ s v, (s, v) ∈ entries → s.field column ∉ columns → r.get? (s.field column) = some v

theorem derived_deriveColumn (hcolumn : column ∈ columns)
    (h : deriveColumn columns numeric r column = .ok r') : Derived columns column r' := by
  rcases deriveColumn_cases h with ⟨hkind, -⟩ | ⟨-, entries, hentries, rfl⟩
  · exact ⟨[], by rw [hkind]; rfl, by simp⟩
  · refine ⟨entries, ?_, fun s v hmem hs => ?_⟩
    · rw [Record.get_congr (get?_withShadows_of_ne (.inl hcolumn)), hentries]
    · refine get?_withShadows ?_ hmem hs
      rw [shadowsOf_map_fst hentries]
      exact ColumnClass.nodup_shadows _

theorem derived_deriveColumn_of_ne {x : Text} (hcolumn : column ∈ columns) (hx : x ∈ columns)
    (hne : x ≠ column) (hr : Derived columns column r)
    (h : deriveColumn columns numeric r x = .ok r') : Derived columns column r' := by
  obtain ⟨entries, hentries, hfields⟩ := hr
  have hcell : r'.get column = r.get column :=
    Record.get_congr (get?_deriveColumn_of_ne h hne.symm (.inl hcolumn))
  refine ⟨entries, by rw [hcell, hentries], fun s v hmem hs => ?_⟩
  rw [← hfields s v hmem hs]
  refine get?_deriveColumn_of_ne h ?_ (.inr fun t _ heq => hne (Shadow.field_inj.mp heq).2.symm)
  intro heq
  exact hs (heq ▸ hx)

/-- In the record of a row, the derived fields of every column are those of its cell. -/
theorem derived_of_record {cells : List Value} (h : record columns numeric cells = .ok r)
    (hcolumn : column ∈ columns) : Derived columns column r :=
  foldlM_establishes hcolumn (fun _ _ hstep => derived_deriveColumn hcolumn hstep)
    (fun _ hx hne _ _ hr hstep => derived_deriveColumn_of_ne hcolumn hx hne hr hstep) h

theorem get?_plainRecord_of_not_mem {cells : List Value} (hname : name ∉ columns) :
    (plainRecord columns cells).get? name = none := by
  unfold plainRecord
  refine List.foldlRecOn (motive := fun r => Record.get? r name = none) _ _ rfl ?_
  intro r hr entry hentry
  obtain ⟨column, v⟩ := entry
  have hne : name ≠ column := by
    intro heq
    exact hname (heq ▸ (List.of_mem_zip hentry).1)
  rw [Record.get?_set_of_ne hne, hr]

/-- A record has no fields but its columns and their derived fields. -/
theorem get?_record_eq_none {cells : List Value} (h : record columns numeric cells = .ok r)
    (hname : name ∉ columns)
    (hs : ∀ column ∈ columns, ∀ s ∈ (ColumnClass.ofName column).shadows, name ≠ s.field column) :
    r.get? name = none := by
  have hstep : ∀ column ∈ columns, ∀ r r' : Record, r.get? name = none →
      deriveColumn columns numeric r column = .ok r' → r'.get? name = none := by
    intro column hcolumn r r' hr hstep
    have hne : name ≠ column := fun heq => hname (heq ▸ hcolumn)
    rw [get?_deriveColumn_of_ne hstep hne (.inr (hs column hcolumn)), hr]
  exact foldlM_preserves hstep (get?_plainRecord_of_not_mem hname) h

end Table

structure Record.IsLoaded (columns : List Text) (r : Record) : Prop where
  derived : ∀ column ∈ columns, Table.Derived columns column r
  absent : ∀ name ∉ columns,
    (∀ column ∈ columns, ∀ s ∈ (ColumnClass.ofName column).shadows, name ≠ s.field column) →
      r.get? name = none

theorem Record.isLoaded_of_record {columns numeric : List Text} {cells : List Value} {r : Record}
    (h : Table.record columns numeric cells = .ok r) : r.IsLoaded columns where
  derived _ hcolumn := Table.derived_of_record h hcolumn
  absent _ hname hs := Table.get?_record_eq_none h hname hs

/-- What is loaded: nothing under an empty header, and otherwise a record for each row with content. -/
theorem Table.load_cases {header rows : List Value} {table : Table}
    (h : load header rows = .ok table) :
    (Header.columns header = [] ∧ table = ⟨[], []⟩) ∨
    (Header.columns header ≠ [] ∧ ∃ cells numeric records, body header rows = .ok cells ∧
      numericColumns (Header.columns header) cells = .ok numeric ∧
      cells.mapM (record (Header.columns header) numeric) = .ok records ∧
      table = ⟨Header.columns header, records⟩) := by
  unfold load at h
  dsimp only at h
  split_ifs at h with hempty
  · exact .inl ⟨List.isEmpty_iff.mp hempty, (Except.ok.inj h).symm⟩
  · simp only [bind_eq_ok_iff, pure, Except.pure, Except.ok.injEq] at h
    obtain ⟨cells, hcells, numeric, hnumeric, records, hrecords, rfl⟩ := h
    exact .inr ⟨fun hnone => hempty (List.isEmpty_iff.mpr hnone), cells, numeric, records, hcells,
      hnumeric, hrecords, rfl⟩

theorem Table.columns_of_load {header rows : List Value} {table : Table}
    (h : load header rows = .ok table) : table.columns = Header.columns header := by
  rcases load_cases h with ⟨hnone, rfl⟩ | ⟨-, cells, numeric, records, -, -, -, rfl⟩
  · exact hnone.symm
  · rfl

theorem Record.isLoaded_of_load {header rows : List Value} {table : Table}
    (h : Table.load header rows = .ok table) {r : Record} (hr : r ∈ table.records) :
    r.IsLoaded table.columns := by
  rcases Table.load_cases h with ⟨-, rfl⟩ | ⟨-, body, numeric, records, -, -, hrecords, rfl⟩
  · simp at hr
  · obtain ⟨cells, -, hcells⟩ := exists_of_mem_of_mapM hrecords hr
    exact isLoaded_of_record hcells

namespace Snapshot

variable {source : Dataset} {s : Snapshot} {name : Text} {columns : List Text} {records : List Record}

/-- The profiles of a snapshot are those of its columns, made from its records. -/
def IsProfiled (s : Snapshot) : Prop :=
  s.columns.eraseDups.mapM (fun column => (Profile.ofColumn column s.records).map (column, ·)) = .ok s.profiles

theorem ofRecords_eq_ok_iff : ofRecords name columns records = .ok s ↔
    s.name = name ∧ s.columns = columns ∧ s.records = records ∧ s.IsProfiled := by
  rw [ofRecords, bind_eq_ok_iff]
  constructor
  · rintro ⟨profiles, hprofiles, h⟩
    obtain rfl := Except.ok.inj h
    exact ⟨rfl, rfl, rfl, hprofiles⟩
  · rintro ⟨rfl, rfl, rfl, h⟩
    exact ⟨s.profiles, h, rfl⟩

theorem build_eq_ok_iff : build source = .ok s ↔ ∃ table, Table.load source.header source.rows = .ok table ∧
    s.name = source.name ∧ s.columns = table.columns ∧ s.records = table.records ∧ s.IsProfiled := by
  simp only [build, bind_eq_ok_iff, ofRecords_eq_ok_iff]

theorem load_of_build (h : build source = .ok s) :
    ∃ table, Table.load source.header source.rows = .ok table ∧ s.columns = table.columns ∧
      s.records = table.records := by
  obtain ⟨table, htable, -, hcolumns, hrecords, -⟩ := build_eq_ok_iff.mp h
  exact ⟨table, htable, hcolumns, hrecords⟩

theorem profiles_of_build (h : build source = .ok s) : s.IsProfiled := by
  obtain ⟨-, -, -, -, -, hprofiled⟩ := build_eq_ok_iff.mp h
  exact hprofiled

theorem columns_of_build (h : build source = .ok s) : s.columns = Header.columns source.header := by
  obtain ⟨table, htable, hcolumns, -⟩ := load_of_build h
  rw [hcolumns, Table.columns_of_load htable]

theorem isLoaded_of_build (h : build source = .ok s) {r : Record} (hr : r ∈ s.records) :
    r.IsLoaded s.columns := by
  obtain ⟨table, htable, hcolumns, hrecords⟩ := load_of_build h
  rw [hcolumns]
  exact Record.isLoaded_of_load htable (hrecords ▸ hr)

end Snapshot
end AskTable
