import AskTable.Proofs.Cell

/-! What a filter depends on. It gives the same answers for tables with the same cells in the columns that it
reads, whatever stands in the others. Beside its own column it may read one that happens to have the name of a
field derived from it. -/
namespace AskTable

namespace Record

/-- Two records have the same field of a name, or both have none. -/
def Agree (name : Text) (r r' : Record) : Prop :=
  r.get? name = r'.get? name

variable {columns : List Text} {name column : Text} {r r' : Record}

theorem Agree.get_eq (h : r.Agree name r') : r.get name = r'.get name :=
  get_congr h

theorem Agree.set (h : r.Agree name r') (other : Text) {v v' : Value} (hv : other = name → v = v') :
    (r.set other v).Agree name (r'.set other v') := by
  unfold Agree
  by_cases hname : other = name
  · subst hname
    rw [get?_set_self, get?_set_self, hv rfl]
  · rwa [get?_set_of_ne (Ne.symm hname), get?_set_of_ne (Ne.symm hname)]

/-- The derived fields of a cell are the same in all loaded records with that cell. -/
theorem IsLoaded.agree_shadow (hr : r.IsLoaded columns) (hr' : r'.IsLoaded columns)
    (hcolumn : column ∈ columns) (s : Shadow) (hfree : s.field column ∉ columns)
    (h : r.Agree column r') : r.Agree (s.field column) r' := by
  by_cases hs : s ∈ (ColumnClass.ofName column).shadows
  · obtain ⟨entries, hentries, hfields⟩ := hr.derived column hcolumn
    obtain ⟨entries', hentries', hfields'⟩ := hr'.derived column hcolumn
    rw [h.get_eq, hentries'] at hentries
    obtain rfl := Except.ok.inj hentries
    rw [← shadowsOf_map_fst hentries'] at hs
    obtain ⟨⟨s, v⟩, hentry, rfl⟩ := List.mem_map.mp hs
    exact (hfields s v hentry hfree).trans (hfields' s v hentry hfree).symm
  · -- A field that is not derived in this column is not derived in another one either.
    have hnone : ∀ other ∈ columns, ∀ t ∈ (ColumnClass.ofName other).shadows,
        s.field column ≠ t.field other := by
      intro other _ t ht heq
      obtain ⟨rfl, rfl⟩ := Shadow.field_inj.mp heq
      exact hs ht
    exact (hr.absent _ hfree hnone).trans (hr'.absent _ hfree hnone).symm

end Record

def Operator.reads (operator : Operator) (column : Text) : List Text :=
  match operator with
  | .contains | .equals | .startsWith | .endsWith =>
    if ColumnClass.ofName column = .date then [column, Shadow.formatted.field column] else [column]
  | .month | .year => [column, Shadow.parsed.field column]
  | .greaterThan | .lessThan | .isEmpty | .isNotEmpty => [column]

def Filter.reads (f : Filter) (column : Text) : List Text :=
  match f.operator? with
  | some operator => operator.reads column
  | none => [column]

namespace Operator

variable {operator : Operator} {column name : Text}

theorem mem_reads_self (operator : Operator) (column : Text) : column ∈ operator.reads column := by
  cases operator <;> simp [reads] <;> split_ifs <;> simp

theorem eq_or_of_mem_reads (h : name ∈ operator.reads column) :
    name = column ∨ ∃ s : Shadow, name = s.field column := by
  cases operator with
  | contains | equals | startsWith | endsWith =>
    simp only [reads] at h
    split_ifs at h
    · rcases List.mem_pair.mp h with rfl | rfl
      · exact .inl rfl
      · exact .inr ⟨.formatted, rfl⟩
    · exact .inl (List.mem_singleton.mp h)
  | month | year =>
    rcases List.mem_pair.mp h with rfl | rfl
    · exact .inl rfl
    · exact .inr ⟨.parsed, rfl⟩
  | greaterThan | lessThan | isEmpty | isNotEmpty => exact .inl (List.mem_singleton.mp h)

end Operator

namespace Filter

variable {f : Filter} {column name : Text}

theorem mem_reads_self (f : Filter) (column : Text) : column ∈ f.reads column := by
  unfold reads
  cases f.operator? with
  | none => exact List.mem_singleton.mpr rfl
  | some operator => exact operator.mem_reads_self column

theorem eq_or_of_mem_reads (h : name ∈ f.reads column) :
    name = column ∨ ∃ s : Shadow, name = s.field column := by
  unfold reads at h
  cases hoperator : f.operator? with
  | none => exact .inl (List.mem_singleton.mp (by simpa only [hoperator] using h))
  | some operator => exact Operator.eq_or_of_mem_reads (by simpa only [hoperator] using h)

end Filter

namespace Record

variable {columns : List Text} {field : Text} {r r' : Record}

theorem textsAt_congr (h : r.Agree field r')
    (hformatted : ColumnClass.ofName field = .date → r.Agree (Shadow.formatted.field field) r') :
    r.textsAt columns field = r'.textsAt columns field := by
  unfold textsAt
  dsimp only
  rw [h.get_eq]
  split_ifs with hdate
  · have hkind : ColumnClass.ofName field = .date := by
      simp only [Snapshot.isDateColumn, Bool.and_eq_true, decide_eq_true_eq] at hdate
      exact hdate.2
    rw [(hformatted hkind).get_eq]
  · rfl

theorem dateAt_congr (h : r.Agree field r') (hparsed : r.Agree (Shadow.parsed.field field) r') :
    r.dateAt columns field = r'.dateAt columns field := by
  unfold dateAt timeAt
  dsimp only
  rw [h.get_eq, hparsed]

end Record

theorem Condition.holds_congr {columns : List Text} {c : Condition} {r r' : Record}
    (h : ∀ name ∈ c.operator.reads c.field, r.Agree name r') :
    c.holds columns r = c.holds columns r' := by
  have hown : r.Agree c.field r' := h _ (Operator.mem_reads_self _ _)
  obtain ⟨field, operator, operand⟩ := c
  unfold holds
  cases operator with
  | contains | equals | startsWith | endsWith =>
    dsimp only
    rw [Record.textsAt_congr hown fun hdate => h _ (by simp [Operator.reads, hdate])]
  | month | year =>
    dsimp only
    rw [Record.dateAt_congr hown (h _ (by simp [Operator.reads]))]
  | greaterThan | lessThan | isEmpty | isNotEmpty =>
    dsimp only
    rw [hown.get_eq]

theorem Filter.admits_congr {columns : List Text} {f : Filter} {column : Text} {r r' : Record}
    (hf : f.field = .text column) (h : ∀ name ∈ f.reads column, r.Agree name r') :
    f.admits columns r = f.admits columns r' := by
  unfold admits
  have hfield : Value.required f.members "field" = .ok (.text column) := by
    unfold field Value.member at hf
    unfold Value.required
    cases hmember : Value.member? f.members "field" with
    | none =>
      rw [hmember] at hf
      cases hf
    | some v =>
      rw [hmember] at hf
      exact congrArg _ hf
  rw [hfield]
  refine congrArg (Value.required f.members "operator" >>= ·) (funext fun _ => ?_)
  unfold reads at h
  cases hoperator : f.operator? with
  | none => rfl
  | some operator =>
    simp only [hoperator] at h
    exact Condition.holds_congr (c := ⟨column, operator, f.operand⟩) h

namespace Table

def SameAt (columns : List Text) (name : Text) (a b : List Value) : Prop :=
  ∀ i : Nat, columns[i]? = some name → a[i]? = b[i]?

variable {columns : List Text} {name : Text} {a b : List Value}

theorem agree_foldl_set {r r' : Record} (hlength : a.length = b.length) (h : SameAt columns name a b)
    (hr : r.Agree name r') :
    Record.Agree name
      ((columns.zip a).foldl (fun r (column, v) => r.set column (trimCell v)) r)
      ((columns.zip b).foldl (fun r (column, v) => r.set column (trimCell v)) r') := by
  induction columns generalizing a b r r' with
  | nil => exact hr
  | cons column rest ih =>
    match a, b, hlength with
    | [], [], _ => exact hr
    | v :: a, w :: b, hlength =>
      refine ih (by simpa using hlength) (fun i hi => h (i + 1) hi) (hr.set column fun hcolumn => ?_)
      have hfirst : v = w := Option.some.inj (h 0 (congrArg some hcolumn))
      rw [hfirst]

theorem agree_plainRecord (hlength : a.length = b.length) (h : SameAt columns name a b) :
    (plainRecord columns a).Agree name (plainRecord columns b) :=
  agree_foldl_set hlength h rfl

variable {numeric numeric' : List Text} {column : Text} {r r' t t' : Record}

/-- A column is changed at most by its own turn, and only if it can be one of numbers. -/
theorem get?_deriveColumn_of_mem (h : deriveColumn columns numeric r column = .ok t)
    (hname : name ∈ columns) (hne : name ≠ column ∨ ColumnClass.ofName column ≠ .other) :
    t.get? name = r.get? name := by
  rcases deriveColumn_cases h with ⟨hkind, -⟩ | ⟨-, entries, -, rfl⟩
  · exact get?_deriveColumn_of_ne h (hne.resolve_right fun hclass => hclass hkind) (.inl hname)
  · exact get?_withShadows_of_ne (.inl hname)

theorem agree_deriveColumn (hname : name ∈ columns) (hnumeric : name ∈ numeric ↔ name ∈ numeric')
    (hr : r.Agree name r') (h : deriveColumn columns numeric r column = .ok t)
    (h' : deriveColumn columns numeric' r' column = .ok t') : t.Agree name t' := by
  by_cases hown : name = column ∧ ColumnClass.ofName column = .other
  · obtain ⟨rfl, hkind⟩ := hown
    have hcontains : numeric.contains name = numeric'.contains name := by
      rw [Bool.eq_iff_iff, List.contains_iff_mem, List.contains_iff_mem, hnumeric]
    -- Both runs see the same cell, and both or neither look for a number in it.
    unfold deriveColumn at h h'
    simp only [hkind, hr.get_eq, hcontains] at h h'
    split_ifs at h h'
    · obtain ⟨n, hn, rfl⟩ := map_eq_ok_iff.mp h
      obtain ⟨n', hn', rfl⟩ := map_eq_ok_iff.mp h'
      obtain rfl := Except.ok.inj (hn.symm.trans hn')
      cases n with
      | none => exact hr
      | some n => exact hr.set name fun _ => rfl
    · obtain rfl := Except.ok.inj h
      obtain rfl := Except.ok.inj h'
      exact hr
  · rw [not_and_or] at hown
    exact ((get?_deriveColumn_of_mem h hname hown).trans hr).trans
      (get?_deriveColumn_of_mem h' hname hown).symm

/-- A column of the record of a row depends on its cells and on whether it is one of numbers. -/
theorem agree_record (hname : name ∈ columns) (hnumeric : name ∈ numeric ↔ name ∈ numeric')
    (hlength : a.length = b.length) (hsame : SameAt columns name a b)
    (h : record columns numeric a = .ok r) (h' : record columns numeric' b = .ok r') :
    r.Agree name r' := by
  refine foldlM_relates (R := Record.Agree name) ?_ (agree_plainRecord hlength hsame) h h'
  intro column _ s s' t t' hs hstep hstep'
  exact agree_deriveColumn hname hnumeric hs hstep hstep'

theorem mem_numericColumns_iff {body : List (List Value)} (h : numericColumns columns body = .ok numeric) :
    name ∈ numeric ↔ ColumnClass.ofName name = .other ∧ ∃ i, columns[i]? = some name ∧
      isNumeric (body.map fun cells => cells.getD i .null) = .ok true := by
  obtain ⟨chosen, hchosen, rfl⟩ := map_eq_ok_iff.mp h
  simp only [List.mem_map, mem_selectM_iff hchosen, List.mem_zipIdx_iff_getElem?, Prod.exists,
    exists_and_right, exists_eq_right]
  constructor
  · rintro ⟨i, hi, hnumber⟩
    split_ifs at hnumber with hkind
    · exact ⟨hkind, i, hi, hnumber⟩
    · cases hnumber
  · rintro ⟨hkind, i, hi, hnumber⟩
    exact ⟨i, hi, by rwa [if_pos hkind]⟩

theorem mem_numericColumns_congr {body body' : List (List Value)}
    (hsame : List.Forall₂ (SameAt columns name) body body')
    (h : numericColumns columns body = .ok numeric) (h' : numericColumns columns body' = .ok numeric') :
    name ∈ numeric ↔ name ∈ numeric' := by
  have hcells (i : Nat) (hi : columns[i]? = some name) :
      (body.map fun cells => cells.getD i .null) = body'.map fun cells => cells.getD i .null := by
    clear h h'
    induction hsame with
    | nil => rfl
    | cons hcell _ ih =>
      rw [List.map_cons, List.map_cons, ih, List.getD_eq_getElem?_getD, hcell i hi,
        List.getD_eq_getElem?_getD]
  rw [mem_numericColumns_iff h, mem_numericColumns_iff h']
  refine and_congr_right fun _ => exists_congr fun i => and_congr_right fun hi => ?_
  rw [hcells i hi]

theorem length_placeCells (width : Nat) (cells : List Value) :
    (placeCells width cells).length = width := by
  simp only [placeCells, List.length_map, List.length_append, List.length_take, List.length_replicate]
  omega

variable {header : List Value}

def IsFilled (header row : List Value) : Prop :=
  (placeCells header.length row).all Value.isBlank = false

instance (header row : List Value) : Decidable (IsFilled header row) :=
  inferInstanceAs (Decidable (_ = false))

theorem body_of_isFilled {rows : List (List Value)} (h : ∀ row ∈ rows, IsFilled header row) :
    body header (rows.map .list) = .ok (rows.map (placeCells header.length)) := by
  have hcells : (rows.map Value.list).mapM (rowCells header) =
      .ok (rows.map (placeCells header.length)) := by
    rw [mapM_eq_ok_iff, List.forall₂_map_left_iff, List.forall₂_map_right_iff]
    exact List.forall₂_same.mpr fun _ _ => rfl
  rw [body, hcells]
  refine congrArg _ (List.filter_eq_self.mpr fun cells hcells => ?_)
  obtain ⟨row, hrow, rfl⟩ := List.mem_map.mp hcells
  exact Bool.not_eq_true' _ ▸ h row hrow

def SameCells (header : List Value) (name : Text) (row row' : List Value) : Prop :=
  SameAt (Header.columns header) name (placeCells header.length row) (placeCells header.length row')

variable {rows rows' : List (List Value)} {table table' : Table}

/-- Of a table with columns, each row with content becomes a record. -/
theorem records_of_isFilled (h : load header (rows.map .list) = .ok table)
    (hfilled : ∀ row ∈ rows, IsFilled header row) (hcolumn : column ∈ Header.columns header) :
    ∃ numeric, numericColumns (Header.columns header) (rows.map (placeCells header.length)) = .ok numeric ∧
      rows.mapM (fun row => record (Header.columns header) numeric (placeCells header.length row)) =
        .ok table.records := by
  rcases load_cases h with ⟨hnone, -⟩ | ⟨-, cells, numeric, records, hcells, hnumeric, hrecords, rfl⟩
  · rw [hnone] at hcolumn
    cases hcolumn
  · obtain rfl := Except.ok.inj ((body_of_isFilled hfilled).symm.trans hcells)
    refine ⟨numeric, hnumeric, ?_⟩
    rw [mapM_eq_ok_iff] at hrecords ⊢
    exact List.forall₂_map_left_iff.mp hrecords

/-- A filter on a column gives the same answers for the records of two tables with the same cells in that
column, as long as they have the same cells in columns named like a derived field that the filter reads. -/
theorem admits_local {f : Filter} (h : load header (rows.map .list) = .ok table)
    (h' : load header (rows'.map .list) = .ok table') (hfilled : ∀ row ∈ rows, IsFilled header row)
    (hfilled' : ∀ row ∈ rows', IsFilled header row) (hcolumn : column ∈ Header.columns header)
    (hf : f.field = .text column)
    (hsame : List.Forall₂ (fun row row' => ∀ name ∈ f.reads column, SameCells header name row row')
      rows rows') :
    table.records.length = rows.length ∧
    List.Forall₂ (fun r r' => f.admits table.columns r = f.admits table'.columns r')
      table.records table'.records := by
  obtain ⟨numeric, hnumeric, hrecords⟩ := records_of_isFilled h hfilled hcolumn
  obtain ⟨numeric', hnumeric', hrecords'⟩ := records_of_isFilled h' hfilled' hcolumn
  refine ⟨(mapM_eq_ok_iff.mp hrecords).length_eq.symm, ?_⟩
  rw [columns_of_load h, columns_of_load h']
  refine forall₂_of_mapM hsame hrecords hrecords' fun row row' r r' hrows hr hr' => ?_
  have hagree (name : Text) (hread : name ∈ f.reads column) (hname : name ∈ Header.columns header) :
      r.Agree name r' := by
    have hboth := hsame.imp fun _ _ hrow => hrow name hread
    have hnumbers := mem_numericColumns_congr
      (List.forall₂_map_left_iff.mpr (List.forall₂_map_right_iff.mpr hboth)) hnumeric hnumeric'
    refine agree_record hname hnumbers ?_ (hrows name hread) hr hr'
    rw [length_placeCells, length_placeCells]
  refine Filter.admits_congr hf fun name hread => ?_
  by_cases hname : name ∈ Header.columns header
  · exact hagree name hread hname
  · -- What is read and is no column can only be derived from the filter's own column.
    obtain ⟨s, rfl⟩ := (Filter.eq_or_of_mem_reads hread).resolve_left fun heq => hname (heq ▸ hcolumn)
    exact (Record.isLoaded_of_record hr).agree_shadow (Record.isLoaded_of_record hr') hcolumn s hname
      (hagree column (f.mem_reads_self column) hcolumn)

end Table

open Table

/-- A condition on one column of two, and two rows that differ only in the other. -/
structure Twins where
  condition : Condition
  /-- The name of the other column. -/
  other : Text
  /-- The cell of both rows in the column of the condition. -/
  cell : Value
  left : Value
  right : Value

namespace Twins

variable {w : Twins}

def header (w : Twins) : List Value :=
  [.text w.condition.field, .text w.other]

def row (w : Twins) (v : Value) : List Value :=
  [w.cell, v]

theorem sameCells (hcolumns : Header.columns w.header = [w.condition.field, w.other]) {name : Text}
    (hname : w.other ≠ name) : SameCells w.header name (w.row w.left) (w.row w.right) := by
  intro i hi
  rw [hcolumns] at hi
  match i with
  | 0 => rfl
  | 1 => exact absurd (Option.some.inj hi) hname
  | i + 2 => cases hi

def march : Twins where
  condition := ⟨"Date", .month, .int 3⟩
  other := "Note"
  cell := "2024-03-05"
  left := "north"
  right := "south"

theorem admits_local_march : ∃ table table',
    load march.header ([march.row march.left].map .list) = .ok table ∧
    load march.header ([march.row march.right].map .list) = .ok table' ∧ table.records.length = 1 ∧
    List.Forall₂ (fun r r' => march.condition.toFilter.admits table.columns r =
      march.condition.toFilter.admits table'.columns r') table.records table'.records := by
  have hloads : ∀ v ∈ [march.left, march.right],
      (load march.header ([march.row v].map .list)).map (·.records.length) = .ok 1 := by
    decide +kernel
  have hfilled : ∀ v ∈ [march.left, march.right], ∀ row ∈ [march.row v], IsFilled march.header row := by
    decide +kernel
  have hcolumns : Header.columns march.header = [march.condition.field, march.other] := by
    decide +kernel
  have hreads : ∀ name ∈ march.condition.toFilter.reads march.condition.field, march.other ≠ name := by
    decide +kernel
  obtain ⟨table, htable, -⟩ := map_eq_ok_iff.mp (hloads march.left (by simp))
  obtain ⟨table', htable', -⟩ := map_eq_ok_iff.mp (hloads march.right (by simp))
  obtain ⟨hlength, hanswers⟩ := admits_local htable htable' (hfilled _ (by simp)) (hfilled _ (by simp))
    (hcolumns ▸ List.mem_cons_self) rfl
    (.cons (fun name hname => sameCells hcolumns (hreads name hname)) .nil)
  exact ⟨table, table', htable, htable', hlength, hanswers⟩

/-- A condition holds of one row and not of the other, though their cells in its column are the same. -/
def TellsApart (w : Twins) : Prop :=
  ∃ table table' r r', load w.header ([w.row w.left].map .list) = .ok table ∧
    load w.header ([w.row w.right].map .list) = .ok table' ∧
    IsFilled w.header (w.row w.left) ∧ IsFilled w.header (w.row w.right) ∧
    w.condition.field ∈ Header.columns w.header ∧
    SameCells w.header w.condition.field (w.row w.left) (w.row w.right) ∧
    table.records = [r] ∧ table'.records = [r'] ∧
    w.condition.toFilter.admits table.columns r = .ok true ∧
    w.condition.toFilter.admits table'.columns r' = .ok false

def answers (w : Twins) (v : Value) : Except Fault (List Bool) := do
  let table ← load w.header ([w.row v].map .list)
  table.records.mapM (w.condition.toFilter.admits table.columns)

private theorem exists_of_answers {v : Value} {b : Bool} (h : w.answers v = .ok [b]) :
    ∃ table r, load w.header ([w.row v].map .list) = .ok table ∧ table.records = [r] ∧
      w.condition.toFilter.admits table.columns r = .ok b := by
  obtain ⟨table, htable, hanswers⟩ := bind_eq_ok_iff.mp h
  obtain ⟨r, rest, hr, hrest, hrecords⟩ := List.forall₂_cons_right_iff.mp (mapM_eq_ok_iff.mp hanswers)
  cases hrest
  exact ⟨table, r, htable, hrecords, hr⟩

private theorem tellsApart_of_answers (hcolumns : Header.columns w.header = [w.condition.field, w.other])
    (hother : w.other ≠ w.condition.field)
    (hfilled : IsFilled w.header (w.row w.left) ∧ IsFilled w.header (w.row w.right))
    (h : w.answers w.left = .ok [true] ∧ w.answers w.right = .ok [false]) : w.TellsApart := by
  obtain ⟨table, r, htable, hr, hholds⟩ := exists_of_answers h.1
  obtain ⟨table', r', htable', hr', hfails⟩ := exists_of_answers h.2
  exact ⟨table, table', r, r', htable, htable', hfilled.1, hfilled.2,
    hcolumns ▸ List.mem_cons_self, sameCells hcolumns hother, hr, hr', hholds, hfails⟩

/-- A text on a column of dates, beside a column named like its written date. -/
def besideFormatted : Twins where
  condition := ⟨"Date", .contains, "north"⟩
  other := "Date_formatted"
  cell := "2024-03-05"
  left := "north"
  right := "south"

/-- A month on a column of dates, beside a column named like its date. -/
def besideParsed : Twins where
  condition := ⟨"Date", .month, .int 3⟩
  other := "Date_parsed"
  cell := "soon"
  left := .date ⟨2024, 3, 5, by decide, by decide, by decide⟩
  right := ""

/-- A month on a column that has no derived date, beside a column named like one. -/
def besideUndated : Twins where
  condition := ⟨"Site", .month, .int 3⟩
  other := "Site_parsed"
  cell := "north"
  left := .date ⟨2024, 3, 5, by decide, by decide, by decide⟩
  right := ""

/-- A column named like a derived field takes its place, and a condition on another column tells its cells apart. -/
theorem tellsApart_besideNamesakes :
    besideFormatted.TellsApart ∧ besideParsed.TellsApart ∧ besideUndated.TellsApart := by
  refine ⟨?_, ?_, ?_⟩ <;>
    exact tellsApart_of_answers (by decide +kernel) (by decide +kernel) (by decide +kernel)
      (by decide +kernel)

end Twins
end AskTable
