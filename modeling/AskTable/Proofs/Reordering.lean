import AskTable.Proofs.Keyword
import AskTable.Proofs.Numeral

/-! The rows of a table in another order. Whether a column is one of numbers and whether it is one of dates is
judged by its first cells, so both may change with the order; where they stay the same, so do the types of
the columns and the words that they are found by. -/
namespace AskTable

section Lists

variable {α : Type} [BEq α] [LawfulBEq α] {l l' : List α}

theorem perm_eraseDups (h : ∀ a, a ∈ l ↔ a ∈ l') : l.eraseDups.Perm l'.eraseDups := by
  rw [List.perm_ext_iff_of_nodup (nodup_eraseDups l) (nodup_eraseDups l')]
  simpa only [List.mem_eraseDups] using h

end Lists

namespace Table

variable {header rows rows' : List Value} {columns numeric numeric' : List Text} {cells : List Value}
  {r r' : Record} {column : Text} {table table' : Table}

/-- A cell is left as it is, or the number in it is put in its place. -/
theorem readAs_record (hcolumn : column ∈ columns) (h : record columns numeric cells = .ok r) :
    ((plainRecord columns cells).get column).ReadAs (r.get column) := by
  refine foldlM_preserves (P := fun r => ((plainRecord columns cells).get column).ReadAs (r.get column))
    ?_ (.inl rfl) h
  intro x _ s t hs hstep
  by_cases hown : x = column ∧ ColumnClass.ofName x = .other
  · obtain ⟨rfl, hkind⟩ := hown
    rcases deriveColumn_of_other hkind hstep with rfl | ⟨n, hn, rfl⟩
    · exact hs
    · refine .inr ⟨n, by rw [← hs.number?_eq, hn], ?_⟩
      rw [Record.get, Record.get?_set_self, Option.getD_some]
  · have hne : column ≠ x ∨ ColumnClass.ofName x ≠ .other := by
      rw [not_and_or] at hown
      exact hown.imp_left fun hne heq => hne heq.symm
    rwa [Record.get_congr (get?_deriveColumn_of_mem hstep hcolumn hne)]

theorem perm_body {body body' : List (List Value)} (hrows : rows.Perm rows')
    (h : Table.body header rows = .ok body) (h' : Table.body header rows' = .ok body') : body.Perm body' := by
  obtain ⟨all, hall, rfl⟩ := map_eq_ok_iff.mp h
  obtain ⟨all', hall', rfl⟩ := map_eq_ok_iff.mp h'
  have hperm := perm_map_of_mapM id hrows hall hall' fun _ _ b b' hb hb' =>
    Except.ok.inj (hb.symm.trans hb')
  rw [List.map_id, List.map_id] at hperm
  exact hperm.filter _

theorem length_body_le {body : List (List Value)} (h : Table.body header rows = .ok body) :
    body.length ≤ rows.length := by
  obtain ⟨all, hall, rfl⟩ := map_eq_ok_iff.mp h
  rw [(mapM_eq_ok_iff.mp hall).length_eq]
  exact List.length_filter_le _ _

/-- Of a sample that takes in all cells, the order does not matter. -/
theorem isNumeric_of_perm {values values' : List Value} (hperm : values.Perm values')
    (hlength : values.length ≤ numericSample) : isNumeric values = .ok true ↔ isNumeric values' = .ok true := by
  have hfilled := hperm.filter (!·.isBlank)
  have hshort : (values.filter (!·.isBlank)).length ≤ numericSample := (List.length_filter_le _ _).trans hlength
  rw [isNumeric_eq_ok_true_iff, isNumeric_eq_ok_true_iff, List.take_of_length_le hshort,
    List.take_of_length_le (hfilled.length_eq ▸ hshort)]
  simp only [ne_eq, List.eq_nil_iff_forall_not_mem, hfilled.mem_iff]

def numbersOf (header rows : List Value) : Except Fault (List Text) := do
  let body ← body header rows
  numericColumns (Header.columns header) body

def TakesForNumbers (header rows : List Value) (column : Text) : Prop :=
  ∃ numeric, numbersOf header rows = .ok numeric ∧ column ∈ numeric

theorem takesForNumbers_iff (h : numbersOf header rows = .ok numeric) :
    TakesForNumbers header rows column ↔ column ∈ numeric := by
  constructor
  · rintro ⟨other, hother, hmem⟩
    rwa [Except.ok.inj (h.symm.trans hother)]
  · exact fun hmem => ⟨numeric, h, hmem⟩

def ShowsAsWritten (header rows : List Value) (column : Text) : Prop :=
  ∀ row ∈ rows, ∀ cells n, rowCells header row = .ok cells →
    ((plainRecord (Header.columns header) cells).get column).number? = .ok (some n) →
      (Value.ofNumber n).cellText = ((plainRecord (Header.columns header) cells).get column).cellText

/-- Records of the same rows, loaded in two orders. -/
theorem perm_records {γ : Type} (view : Record → γ) (hrows : rows.Perm rows')
    (h : load header rows = .ok table) (h' : load header rows' = .ok table')
    (hview : ∀ row ∈ rows, ∀ cells numeric numeric' r r', rowCells header row = .ok cells →
      numbersOf header rows = .ok numeric → numbersOf header rows' = .ok numeric' →
      record (Header.columns header) numeric cells = .ok r →
      record (Header.columns header) numeric' cells = .ok r' → view r = view r') :
    (table.records.map view).Perm (table'.records.map view) := by
  rcases load_cases h with ⟨hnone, rfl⟩ | ⟨hsome, body, numeric, records, hbody, hnumeric, hrecords, rfl⟩
  · rcases load_cases h' with ⟨-, rfl⟩ | ⟨hsome, -⟩
    · exact .refl _
    · exact absurd hnone hsome
  · rcases load_cases h' with ⟨hnone, -⟩ | ⟨-, body', numeric', records', hbody', hnumeric', hrecords', rfl⟩
    · exact absurd hnone hsome
    · have hnumbers : numbersOf header rows = .ok numeric := bind_eq_ok_iff.mpr ⟨body, hbody, hnumeric⟩
      have hnumbers' : numbersOf header rows' = .ok numeric' := bind_eq_ok_iff.mpr ⟨body', hbody', hnumeric'⟩
      refine perm_map_of_mapM view (perm_body hrows hbody hbody') hrecords hrecords' fun cells hcells r r' hr hr' => ?_
      obtain ⟨all, hall, rfl⟩ := map_eq_ok_iff.mp hbody
      obtain ⟨row, hrow, hread⟩ := exists_of_mem_of_mapM hall (List.mem_of_mem_filter hcells)
      exact hview row hrow cells numeric numeric' r r' hread hnumbers hnumbers' hr hr'

/-- A column that is taken for numbers in both orders or in neither has the same cells in both. -/
theorem get_eq_of_takesForNumbers (hcolumn : column ∈ columns)
    (hboth : column ∈ numeric ↔ column ∈ numeric') (h : record columns numeric cells = .ok r)
    (h' : record columns numeric' cells = .ok r') : r.get column = r'.get column :=
  (agree_record hcolumn hboth rfl (fun _ _ => rfl) h h').get_eq

end Table

def Value.hasDate (v : Value) : Bool :=
  match v.date? with
  | .ok d => d.isSome
  | .error _ => false

/-- The type of cells with content, where it is known whether they are taken for dates. -/
def ColumnType.ofCells (isDated : Bool) (values : List Value) : ColumnType :=
  if values.isEmpty then .string
  else if values.all (·.numeral?.isSome) then .number
  else if isDated then .date
  else if values.all isTruthCell then .boolean
  else .string

theorem ColumnType.ofCells_congr {isDated : Bool} {values values' : List Value}
    (h : ∀ q : Value → Bool, (∀ v w, v.ReadAs w → q w = q v) → values'.all q = values.all q) :
    ofCells isDated values' = ofCells isDated values := by
  have hempty : values'.isEmpty = values.isEmpty := by
    have hnone := h (fun _ => false) fun _ _ _ => rfl
    cases values <;> cases values' <;> simp_all
  have hnumbers := h (·.numeral?.isSome) fun v w hread => by rw [Value.numeral?, Value.numeral?, hread.number?_eq]
  have htruth := h isTruthCell fun v w hread => hread.isTruthCell_eq
  rw [ofCells, ofCells, hempty, hnumbers, htruth]

theorem ColumnType.ofCells_eq_number_iff {isDated : Bool} {values : List Value} :
    ofCells isDated values = .number ↔ values.isEmpty = false ∧ values.all (·.numeral?.isSome) = true := by
  unfold ofCells
  split_ifs <;> simp_all

theorem columnType_eq {name : Text} {values : List Value} {type : ColumnType}
    (hfilled : ∀ v ∈ values, v.isBlank = false) (h : columnType name values = .ok type) :
    type = .ofCells (ColumnClass.ofName name = .date && (values.take dateSample).any (·.hasDate)) values := by
  have hsame : values.filter (!·.isBlank) = values :=
    List.filter_eq_self.mpr fun v hv => by simp [hfilled v hv]
  have hnumber (v : Value) (b : Bool) (hb : v.number?.map (·.isSome) = .ok b) : b = v.numeral?.isSome := by
    obtain ⟨n, hn, rfl⟩ := map_eq_ok_iff.mp hb
    rw [Value.numeral?, hn]
  have hdate (v : Value) (b : Bool) (hb : v.date?.map (·.isSome) = .ok b) : b = v.hasDate := by
    obtain ⟨d, hd, rfl⟩ := map_eq_ok_iff.mp hb
    rw [Value.hasDate, hd]
  unfold columnType at h
  dsimp only at h
  rw [hsame] at h
  unfold ColumnType.ofCells
  by_cases hnone : values.isEmpty = true
  · rw [if_pos hnone] at h ⊢
    exact (Except.ok.inj h).symm
  · rw [if_neg hnone] at h ⊢
    obtain ⟨areNumbers, hnumbers, h⟩ := bind_eq_ok_iff.mp h
    rw [← allM_eq_all hnumbers fun v _ => hnumber v]
    cases areNumbers with
    | true => exact (Except.ok.inj h).symm
    | false =>
      by_cases hkind : ColumnClass.ofName name = .date
      · rw [if_neg Bool.false_ne_true, if_pos hkind] at h
        obtain ⟨isDated, hdates, h⟩ := bind_eq_ok_iff.mp h
        rw [← anyM_eq_any hdates fun v _ => hdate v]
        cases isDated with
        | true =>
          obtain rfl : ColumnType.date = type := Except.ok.inj h
          simp [hkind]
        | false =>
          obtain rfl : (if values.all isTruthCell then ColumnType.boolean else .string) = type := Except.ok.inj h
          simp
      · rw [if_neg Bool.false_ne_true, if_neg hkind] at h
        obtain rfl : (if values.all isTruthCell then ColumnType.boolean else .string) = type := Except.ok.inj h
        simp [hkind]

namespace Snapshot

variable {header rows rows' : List Value} {name column token : Text} {s s' : Snapshot} {p p' : Profile}

def filled (s : Snapshot) (column : Text) : List Value :=
  (s.records.map fun r => r.get column).filter (!·.isBlank)

theorem filter_filled (s : Snapshot) (column : Text) :
    (s.filled column).filter (!·.isBlank) = s.filled column := by
  rw [filled, List.filter_filter]
  simp

/-- Whether there is a date among the first of these cells. -/
def showsDate (s : Snapshot) (column : Text) : Bool :=
  ((s.filled column).take dateSample).any (·.hasDate)

def startsWithText (s : Snapshot) (column : Text) : Bool :=
  match (s.filled column).head? with
  | some (.text _) => true
  | _ => false

def type? (s : Snapshot) (column : Text) : Option ColumnType :=
  (s.profile? column).map (·.type)

theorem profile_eq (h : Profile.ofColumn column s.records = .ok p) :
    p.type = .ofCells (ColumnClass.ofName column = .date && s.showsDate column) (s.filled column) ∧
    p.searchable = AskTable.isSearchable column (s.filled column) p.type := by
  obtain ⟨type, htype, h⟩ := bind_eq_ok_iff.mp h
  obtain rfl := Except.ok.inj h
  refine ⟨columnType_eq (fun v hv => ?_) htype, rfl⟩
  simpa using List.of_mem_filter hv

theorem exists_profile (hs : build ⟨header, rows, name⟩ = .ok s) (hcolumn : column ∈ s.columns) :
    ∃ p, s.profile? column = some p ∧ Profile.ofColumn column s.records = .ok p :=
  (profiles_of_build hs).exists_profile hcolumn

private theorem exists_numbers (hs : build ⟨header, rows, name⟩ = .ok s) (hcolumn : column ∈ Header.columns header) :
    ∃ body numeric, Table.body header rows = .ok body ∧
      Table.numericColumns (Header.columns header) body = .ok numeric := by
  obtain ⟨table, htable, -⟩ := load_of_build hs
  rcases Table.load_cases htable with ⟨hnone, -⟩ | ⟨-, body, numeric, -, hbody, hnumeric, -⟩
  · rw [hnone] at hcolumn
    cases hcolumn
  · exact ⟨body, numeric, hbody, hnumeric⟩

theorem length_records_le (hs : build ⟨header, rows, name⟩ = .ok s) : s.records.length ≤ rows.length := by
  obtain ⟨table, htable, -, hrecords⟩ := load_of_build hs
  rw [hrecords]
  rcases Table.load_cases htable with ⟨-, rfl⟩ | ⟨-, body, numeric, records, hbody, -, hall, rfl⟩
  · exact Nat.zero_le _
  · rw [← (mapM_eq_ok_iff.mp hall).length_eq]
    exact Table.length_body_le hbody

/-- What is seen alike in cells that numbers were read from holds of all cells of a column in both orders. -/
theorem all_filled_eq (hrows : rows.Perm rows') (hs : build ⟨header, rows, name⟩ = .ok s)
    (hs' : build ⟨header, rows', name⟩ = .ok s') (hcolumn : column ∈ s.columns) {q : Value → Bool}
    (hq : ∀ v w, v.ReadAs w → q w = q v) : (s'.filled column).all q = (s.filled column).all q := by
  obtain ⟨table, htable, hcolumns, hrecords⟩ := load_of_build hs
  obtain ⟨table', htable', -, hrecords'⟩ := load_of_build hs'
  have hheader : column ∈ Header.columns header := Table.columns_of_load htable ▸ hcolumns ▸ hcolumn
  have hview {v w : Value} (hread : v.ReadAs w) : (w.isBlank || q w) = (v.isBlank || q v) := by
    rw [hread.isBlank_eq, hq v w hread]
  have hperm := Table.perm_records (fun r => (r.get column).isBlank || q (r.get column))
    hrows htable htable' fun _ _ _ _ _ _ _ _ _ _ hr hr' =>
      (hview (Table.readAs_record hheader hr)).trans (hview (Table.readAs_record hheader hr')).symm
  have hall (s : Snapshot) : (s.filled column).all q =
      (s.records.map fun r => (r.get column).isBlank || q (r.get column)).all id := by
    rw [filled, List.all_filter, List.all_map, List.all_map]
    simp [Function.comp_def]
  rw [hall, hall, hrecords, hrecords']
  exact (hperm.all_eq).symm

private theorem type?_eq (hrows : rows.Perm rows') (hs : build ⟨header, rows, name⟩ = .ok s)
    (hs' : build ⟨header, rows', name⟩ = .ok s') (hcolumn : column ∈ s.columns)
    (hdate : ColumnClass.ofName column = .date → s.showsDate column = s'.showsDate column) :
    s'.type? column = s.type? column := by
  have hcolumn' : column ∈ s'.columns := by rwa [columns_of_build hs', ← columns_of_build hs]
  obtain ⟨p, hp, hprofile⟩ := exists_profile hs hcolumn
  obtain ⟨p', hp', hprofile'⟩ := exists_profile hs' hcolumn'
  have hdated : (ColumnClass.ofName column = .date && s.showsDate column) =
      (decide (ColumnClass.ofName column = .date) && s'.showsDate column) := by
    by_cases hkind : ColumnClass.ofName column = .date
    · rw [hdate hkind]
    · simp [hkind]
  have htype : p'.type = p.type := by
    rw [(profile_eq hprofile').1, (profile_eq hprofile).1, hdated]
    exact ColumnType.ofCells_congr fun q hq => all_filled_eq hrows hs hs' hcolumn hq
  rw [type?, type?, hp, hp', Option.map_some, Option.map_some, htype]

theorem type_eq_number_iff (hrows : rows.Perm rows') (hs : build ⟨header, rows, name⟩ = .ok s)
    (hs' : build ⟨header, rows', name⟩ = .ok s') (hcolumn : column ∈ s.columns)
    (hp : Profile.ofColumn column s.records = .ok p) (hp' : Profile.ofColumn column s'.records = .ok p') :
    p'.type = .number ↔ p.type = .number := by
  rw [(profile_eq hp).1, (profile_eq hp').1,
    ColumnType.ofCells_congr fun q hq => all_filled_eq hrows hs hs' hcolumn hq,
    ColumnType.ofCells_eq_number_iff, ColumnType.ofCells_eq_number_iff]

theorem perm_filled (hrows : rows.Perm rows') (hs : build ⟨header, rows, name⟩ = .ok s)
    (hs' : build ⟨header, rows', name⟩ = .ok s') (hcolumn : column ∈ s.columns)
    (hboth : Table.TakesForNumbers header rows column ↔ Table.TakesForNumbers header rows' column) :
    (s.filled column).Perm (s'.filled column) := by
  obtain ⟨table, htable, hcolumns, hrecords⟩ := load_of_build hs
  obtain ⟨table', htable', -, hrecords'⟩ := load_of_build hs'
  have hheader : column ∈ Header.columns header := Table.columns_of_load htable ▸ hcolumns ▸ hcolumn
  have hperm := Table.perm_records (fun r => r.get column) hrows htable htable'
    fun row _ cells numeric numeric' r r' _ hnumbers hnumbers' hr hr' => by
      rw [Table.takesForNumbers_iff hnumbers, Table.takesForNumbers_iff hnumbers'] at hboth
      exact Table.get_eq_of_takesForNumbers hheader hboth hr hr'
  rw [filled, filled, hrecords, hrecords']
  exact hperm.filter _

/-- The numbers in a column are read alike in both orders, or show no difference when they are. -/
def ReadsAlike (header rows rows' : List Value) (column : Text) : Prop :=
  (Table.TakesForNumbers header rows column ↔ Table.TakesForNumbers header rows' column) ∨
    Table.ShowsAsWritten header rows column

theorem perm_texts (hrows : rows.Perm rows') (hs : build ⟨header, rows, name⟩ = .ok s)
    (hs' : build ⟨header, rows', name⟩ = .ok s') (hcolumn : column ∈ s.columns)
    (halike : ReadsAlike header rows rows' column) :
    ((s.filled column).map Value.cellText).Perm ((s'.filled column).map Value.cellText) := by
  rcases halike with hboth | hshown
  · exact (perm_filled hrows hs hs' hcolumn hboth).map _
  · obtain ⟨table, htable, hcolumns, hrecords⟩ := load_of_build hs
    obtain ⟨table', htable', -, hrecords'⟩ := load_of_build hs'
    have hheader : column ∈ Header.columns header := Table.columns_of_load htable ▸ hcolumns ▸ hcolumn
    -- What is read from a cell has the blanks and the text of the cell, in whichever order it is read.
    have hperm := Table.perm_records (fun r => ((r.get column).isBlank, (r.get column).cellText))
      hrows htable htable' fun row hrow cells numeric numeric' r r' hcells _ _ hr hr' => by
        have hread {w : Value} (hread : ((Table.plainRecord (Header.columns header) cells).get column).ReadAs w) :
            (w.isBlank, w.cellText) = (((Table.plainRecord (Header.columns header) cells).get column).isBlank,
              ((Table.plainRecord (Header.columns header) cells).get column).cellText) := by
          rw [hread.isBlank_eq]
          rcases hread with rfl | ⟨n, hn, rfl⟩
          · rfl
          · rw [hshown row hrow cells n hcells hn]
        exact (hread (Table.readAs_record hheader hr)).trans (hread (Table.readAs_record hheader hr')).symm
    have htexts (s : Snapshot) : (s.filled column).map Value.cellText =
        ((s.records.map fun r => ((r.get column).isBlank, (r.get column).cellText)).filter (!·.1)).map (·.2) := by
      rw [filled, List.filter_map, List.filter_map, List.map_map, List.map_map]
      rfl
    rw [htexts, htexts, hrecords, hrecords']
    exact (hperm.filter _).map _

def distinctCount (s : Snapshot) (column : Text) : Nat :=
  ((s.filled column).map Value.cellText).eraseDups.length

private theorem isSearchable_eq (s : Snapshot) (column : Text) (type : ColumnType) :
    AskTable.isSearchable column (s.filled column) type =
      if indexedHints.any column.lower.contains then true
      else if numericHints.any column.lower.contains || type == .number then
        decide (s.distinctCount column ≤ maxNumericUnique)
      else s.startsWithText column && decide (s.distinctCount column ≤ maxTextUnique) := by
  have hcount : (firstByText (s.filled column)).length = s.distinctCount column := by
    have hmap := congrArg List.length (firstByText_map_fst (s.filled column))
    rwa [List.length_map, filter_filled] at hmap
  unfold AskTable.isSearchable startsWithText
  dsimp only
  rw [hcount, ← List.head?_filter, filter_filled]
  cases (s.filled column).head? with
  | none => simp
  | some v => cases v <;> simp

/-- Whether a column can be searched is settled by its name or by its type, or it starts alike in both orders. -/
def StartsAlike (s s' : Snapshot) (column : Text) : Prop :=
  indexedHints.any column.lower.contains = true ∨ numericHints.any column.lower.contains = true ∨
    s.type? column = some .number ∨ s.startsWithText column = s'.startsWithText column

theorem isSearchable_of_perm (hrows : rows.Perm rows') (hs : build ⟨header, rows, name⟩ = .ok s)
    (hs' : build ⟨header, rows', name⟩ = .ok s') (hcolumn : column ∈ s.columns)
    (halike : ReadsAlike header rows rows' column) (hstart : StartsAlike s s' column) :
    s'.isSearchable column = s.isSearchable column := by
  have hcolumn' : column ∈ s'.columns := by rwa [columns_of_build hs', ← columns_of_build hs]
  obtain ⟨p, hp, hprofile⟩ := exists_profile hs hcolumn
  obtain ⟨p', hp', hprofile'⟩ := exists_profile hs' hcolumn'
  have hcount : s'.distinctCount column = s.distinctCount column :=
    (perm_eraseDups fun _ => (perm_texts hrows hs hs' hcolumn halike).mem_iff).length_eq.symm
  have hnumber : (p'.type == .number) = (p.type == .number) := by
    rw [Bool.eq_iff_iff, beq_iff_eq, beq_iff_eq, type_eq_number_iff hrows hs hs' hcolumn hprofile hprofile']
  rw [isSearchable, isSearchable, hp, hp', Option.any_some, Option.any_some, (profile_eq hprofile).2,
    (profile_eq hprofile').2, isSearchable_eq, isSearchable_eq, hcount, hnumber]
  rcases hstart with hname | hname | htype | htext
  · simp [hname]
  · simp [hname]
  · have hp : p.type = .number := by simpa [type?, hp] using htype
    simp [hp]
  · rw [htext]

theorem exists_token_iff (s : Snapshot) (column token : Text) :
    (∃ r ∈ s.records, token ∈ cellTokens (r.get column)) ↔
      ∃ t ∈ (s.filled column).map Value.cellText, token ∈ tokens stopWords t := by
  simp only [filled, List.mem_map, List.mem_filter]
  constructor
  · rintro ⟨r, hr, htoken⟩
    exact ⟨_, ⟨r.get column, ⟨⟨r, hr, rfl⟩, by simp [isBlank_of_mem_cellTokens htoken]⟩, rfl⟩, htoken⟩
  · rintro ⟨_, ⟨_, ⟨⟨r, hr, rfl⟩, -⟩, rfl⟩, htoken⟩
    exact ⟨r, hr, htoken⟩

theorem mem_owners_of_perm (hrows : rows.Perm rows') (hs : build ⟨header, rows, name⟩ = .ok s)
    (hs' : build ⟨header, rows', name⟩ = .ok s') (hcolumn : column ∈ s.columns)
    (halike : ReadsAlike header rows rows' column) (hstart : StartsAlike s s' column) :
    column ∈ s'.owners token ↔ column ∈ s.owners token := by
  have htexts (t : Text) := (perm_texts hrows hs hs' hcolumn halike).mem_iff (a := t)
  rw [mem_owners_iff hs, mem_owners_iff hs', isSearchable_of_perm hrows hs hs' hcolumn halike hstart,
    exists_token_iff, exists_token_iff, columns_of_build hs', ← columns_of_build hs]
  simp only [htexts]

private theorem owners_eq_filter (hs : build ⟨header, rows, name⟩ = .ok s) (token : Text) :
    s.owners token = s.columns.eraseDups.filter (decide <| · ∈ s.owners token) := by
  rw [← (profiles_of_build hs).map_fst_profiles, List.filter_map]
  conv_lhs => rw [owners]
  refine congrArg _ (List.filter_congr fun entry hentry => ?_)
  obtain ⟨column, p⟩ := entry
  have hmem : column ∈ s.owners token ↔ token ∈ p.vocabulary := by
    simp only [owners, List.mem_map, List.mem_filter, List.contains_iff_mem]
    constructor
    · rintro ⟨⟨_, p'⟩, ⟨hp', htoken⟩, rfl⟩
      have hsame := ((mem_profiles_iff hs).mp hp').2.symm.trans ((mem_profiles_iff hs).mp hentry).2
      rwa [← Except.ok.inj hsame]
    · exact fun htoken => ⟨(column, p), ⟨hentry, htoken⟩, rfl⟩
  rw [Bool.eq_iff_iff, List.contains_iff_mem, Function.comp_apply, decide_eq_true_eq, hmem]

theorem perm_keywords (hs : build ⟨header, rows, name⟩ = .ok s) (hs' : build ⟨header, rows', name⟩ = .ok s')
    (howners : ∀ column ∈ s.columns, ∀ token, column ∈ s'.owners token ↔ column ∈ s.owners token) :
    s'.keywords.Perm s.keywords := by
  have hsame (token : Text) : s'.owners token = s.owners token := by
    rw [owners_eq_filter hs', owners_eq_filter hs, columns_of_build hs', ← columns_of_build hs]
    refine List.filter_congr fun column hcolumn => ?_
    rw [decide_eq_decide, howners column (List.mem_eraseDups.mp hcolumn)]
  have hwords (token : Text) :
      token ∈ s'.profiles.flatMap (·.2.vocabulary) ↔ token ∈ s.profiles.flatMap (·.2.vocabulary) := by
    have hword (s : Snapshot) : token ∈ s.profiles.flatMap (·.2.vocabulary) ↔ s.owners token ≠ [] := by
      rw [← mem_keywords_iff, keywords]
      simp [Function.comp_def]
    rw [hword, hword, hsame]
  unfold keywords
  simp only [hsame]
  exact (perm_eraseDups hwords).map _

private theorem not_takesForNumbers_of_ne_other (hclass : ColumnClass.ofName column ≠ .other) :
    ¬ Table.TakesForNumbers header rows column := by
  rintro ⟨numeric, hnumbers, hmem⟩
  obtain ⟨body, -, hnumeric⟩ := bind_eq_ok_iff.mp hnumbers
  exact hclass ((Table.mem_numericColumns_iff hnumeric).mp hmem).1

/-- Where the sample takes in all rows, their order does not matter for what is taken for numbers. -/
theorem takesForNumbers_of_perm (hrows : rows.Perm rows') (hlength : rows.length ≤ Table.numericSample)
    (hs : build ⟨header, rows, name⟩ = .ok s) (hs' : build ⟨header, rows', name⟩ = .ok s')
    (hcolumn : column ∈ s.columns) :
    Table.TakesForNumbers header rows column ↔ Table.TakesForNumbers header rows' column := by
  rw [columns_of_build hs] at hcolumn
  obtain ⟨body, numeric, hbody, hnumeric⟩ := exists_numbers hs hcolumn
  obtain ⟨body', numeric', hbody', hnumeric'⟩ := exists_numbers hs' hcolumn
  have hnumbers : Table.numbersOf header rows = .ok numeric := bind_eq_ok_iff.mpr ⟨body, hbody, hnumeric⟩
  have hnumbers' : Table.numbersOf header rows' = .ok numeric' := bind_eq_ok_iff.mpr ⟨body', hbody', hnumeric'⟩
  have hbodies := Table.perm_body hrows hbody hbody'
  have hshort : body.length ≤ Table.numericSample := (Table.length_body_le hbody).trans hlength
  rw [Table.takesForNumbers_iff hnumbers, Table.takesForNumbers_iff hnumbers',
    Table.mem_numericColumns_iff hnumeric, Table.mem_numericColumns_iff hnumeric']
  refine and_congr_right fun _ => exists_congr fun i => and_congr_right fun _ => ?_
  exact Table.isNumeric_of_perm (hbodies.map _) (by rwa [List.length_map])

theorem showsDate_of_perm (hrows : rows.Perm rows') (hlength : rows.length ≤ dateSample)
    (hs : build ⟨header, rows, name⟩ = .ok s) (hs' : build ⟨header, rows', name⟩ = .ok s')
    (hcolumn : column ∈ s.columns) (hclass : ColumnClass.ofName column ≠ .other) :
    s.showsDate column = s'.showsDate column := by
  have hrecords : s.records.length ≤ rows.length := length_records_le hs
  have hperm := perm_filled hrows hs hs' hcolumn
    (iff_of_false (not_takesForNumbers_of_ne_other hclass) (not_takesForNumbers_of_ne_other hclass))
  have hshort : (s.filled column).length ≤ dateSample := by
    refine (List.length_filter_le _ _).trans ?_
    rw [List.length_map]
    omega
  rw [showsDate, showsDate, List.take_of_length_le hshort, List.take_of_length_le (hperm.length_eq ▸ hshort)]
  exact hperm.any_eq

theorem succeeds_build_of_perm (hrows : rows.Perm rows') (hs : build ⟨header, rows, name⟩ = .ok s)
    (hsmall : ∀ row ∈ rows, ∀ cells, Table.rowCells header row = .ok cells → ∀ v ∈ cells, v.isHuge = false) :
    Succeeds (build ⟨header, rows', name⟩) := by
  obtain ⟨table, htable, -⟩ := load_of_build hs
  rcases Table.load_cases htable with ⟨hnone, -⟩ | ⟨-, body, -, -, hbody, -⟩
  · have hload : Table.load header rows' = .ok ⟨[], []⟩ := by simp [Table.load, hnone]
    rw [build, hload, Succeeds.ok_bind_iff]
    exact .ok
  · obtain ⟨all, hall, -⟩ := map_eq_ok_iff.mp hbody
    have hreadable : ∀ row ∈ rows, Table.IsReadableRow header row := by
      intro row hrow
      obtain ⟨cells, hcells⟩ := succeeds_mapM_iff.mp ⟨all, hall⟩ row hrow
      exact ⟨cells, hcells, hsmall row hrow cells hcells⟩
    have hdates := (succeeds_build_iff hreadable).mp ⟨s, hs⟩
    exact (succeeds_build_iff fun row hrow => hreadable row (hrows.mem_iff.mpr hrow)).mpr
      fun row hrow => hdates row (hrows.mem_iff.mpr hrow)

/-- Whether the rows of a table are in one order or another, its columns are the same. The type of a column can change
only if it is of the date class and a date is among its first cells in one order alone. A column is found by the same
words if its numbers are read alike and it starts alike, and if all are, the index is the same. Of few rows, neither
the numbers nor the dates depend on the order. -/
theorem build_of_perm (hrows : rows.Perm rows') (hs : build ⟨header, rows, name⟩ = .ok s) :
    ((∀ row ∈ rows, ∀ cells, Table.rowCells header row = .ok cells → ∀ v ∈ cells, v.isHuge = false) →
      Succeeds (build ⟨header, rows', name⟩)) ∧
    ∀ s', build ⟨header, rows', name⟩ = .ok s' →
      s'.columns = s.columns ∧
      (∀ column ∈ s.columns, s'.type? column = s.type? column ∨
        ColumnClass.ofName column = .date ∧ s.showsDate column ≠ s'.showsDate column) ∧
      (∀ column ∈ s.columns, ReadsAlike header rows rows' column → StartsAlike s s' column →
        s'.isSearchable column = s.isSearchable column ∧
        ∀ token, column ∈ s'.owners token ↔ column ∈ s.owners token) ∧
      ((∀ column ∈ s.columns, ReadsAlike header rows rows' column ∧ StartsAlike s s' column) →
        s'.keywords.Perm s.keywords) ∧
      (rows.length ≤ 50 → ∀ column ∈ s.columns,
        s'.type? column = s.type? column ∧ ReadsAlike header rows rows' column) := by
  refine ⟨succeeds_build_of_perm hrows hs, fun s' hs' => ⟨?_, fun column hcolumn => ?_, ?_, ?_, ?_⟩⟩
  · rw [columns_of_build hs', columns_of_build hs]
  · by_cases hdate : ColumnClass.ofName column = .date → s.showsDate column = s'.showsDate column
    · exact .inl (type?_eq hrows hs hs' hcolumn hdate)
    · rw [Classical.not_imp] at hdate
      exact .inr hdate
  · exact fun column hcolumn halike hstart => ⟨isSearchable_of_perm hrows hs hs' hcolumn halike hstart,
      fun token => mem_owners_of_perm hrows hs hs' hcolumn halike hstart⟩
  · intro hall
    refine perm_keywords hs hs' fun column hcolumn token => ?_
    obtain ⟨halike, hstart⟩ := hall column hcolumn
    exact mem_owners_of_perm hrows hs hs' hcolumn halike hstart
  · intro hlength column hcolumn
    have hshows (hclass : ColumnClass.ofName column = .date) : s.showsDate column = s'.showsDate column :=
      showsDate_of_perm hrows hlength hs hs' hcolumn (by simp [hclass])
    exact ⟨type?_eq hrows hs hs' hcolumn hshows, .inl (takesForNumbers_of_perm hrows hlength hs hs' hcolumn)⟩

def siteVisits : List Value :=
  [.list ["North", "5", "2024-03-05"], .list ["", "07", "soon"]]

theorem build_of_perm_siteVisits : ∃ s s', build ⟨["Site", "Cost", "Date"], siteVisits, []⟩ = .ok s ∧
    build ⟨["Site", "Cost", "Date"], siteVisits.reverse, []⟩ = .ok s' ∧
    s'.type? "Date" = s.type? "Date" ∧ s'.keywords.Perm s.keywords := by
  have hbuilds : (build ⟨["Site", "Cost", "Date"], siteVisits, []⟩).map
      (fun s => (s.columns, s.columns.map s.startsWithText)) =
        .ok (["Site", "Cost", "Date"], [true, false, true]) := by decide +kernel
  have hbuilds' : (build ⟨["Site", "Cost", "Date"], siteVisits.reverse, []⟩).map
      (fun s => (s.columns, s.columns.map s.startsWithText)) =
        .ok (["Site", "Cost", "Date"], [true, false, true]) := by decide +kernel
  obtain ⟨s, hs, hview⟩ := map_eq_ok_iff.mp hbuilds
  obtain ⟨s', hs', hview'⟩ := map_eq_ok_iff.mp hbuilds'
  obtain ⟨hcolumns, hstarts⟩ := Prod.mk.inj hview
  obtain ⟨hcolumns', hstarts'⟩ := Prod.mk.inj hview'
  have hsame : ∀ column ∈ s.columns, s.startsWithText column = s'.startsWithText column := by
    rw [hcolumns] at hstarts ⊢
    rw [hcolumns'] at hstarts'
    exact List.map_inj_left.mp (hstarts.trans hstarts'.symm)
  have hperm : siteVisits.Perm siteVisits.reverse := (List.reverse_perm siteVisits).symm
  obtain ⟨-, hall⟩ := build_of_perm hperm hs
  obtain ⟨-, -, -, hkeywords, hfew⟩ := hall s' hs'
  have hcolumn := hfew (by decide)
  refine ⟨s, s', hs, hs', (hcolumn "Date" (by simp [hcolumns])).1, hkeywords fun column hmem => ?_⟩
  exact ⟨(hcolumn column hmem).2, .inr (.inr (.inr (hsame column hmem)))⟩

/-- Of fifty rows with a number and no date, and one with a date and no number, the order decides: with the odd row at
the end the date is not seen and the word for the number is not found as it is written. -/
theorem order_matters : ∃ rows rows' : List Value, rows.Perm rows' ∧
    (build ⟨["Name", "Date"], rows, []⟩).map (fun s => (s.type? "Date", s.owners "010")) =
      .ok (some .string, []) ∧
    (build ⟨["Name", "Date"], rows', []⟩).map (fun s => (s.type? "Date", s.owners "010")) =
      .ok (some .date, ["Name"]) := by
  refine ⟨List.replicate 50 (.list ["010", "soon"]) ++ [.list ["spare", "2024-03-05"]],
    [.list ["spare", "2024-03-05"]] ++ List.replicate 50 (.list ["010", "soon"]), ?_, ?_, ?_⟩
  · exact List.perm_append_comm
  · decide +kernel
  · decide +kernel

/-- What the condition that a column starts alike leaves out: of a number and a text, the column is searchable only in the
order in which the text comes first, few as its different values are. -/
example : (build ⟨["Site"], [.list [.int 7], .list ["North"]], []⟩).map (fun s =>
      (s.isSearchable "Site", s.owners "north")) = .ok (false, []) ∧
    (build ⟨["Site"], [.list ["North"], .list [.int 7]], []⟩).map (fun s =>
      (s.isSearchable "Site", s.owners "north")) = .ok (true, ["Site"]) := by
  decide +kernel

end Snapshot
end AskTable
