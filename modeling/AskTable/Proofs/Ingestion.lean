import AskTable.Proofs.Locality
import AskTable.Proofs.Vacancy
import AskTable.Proofs.Questioning

/-! The three ways into a session. A table of cells can be given as rows by place, as rows by name or as a frame;
null and not-a-number come out differently on each way, but what is loaded looks the same. -/
namespace AskTable

namespace Table

variable {columns numeric : List Text} {column name : Text} {cells cells' : List Value} {r r' : Record}

theorem alike_plainRecord (h : List.Forall₂ Value.Alike cells cells') :
    (plainRecord columns cells).Alike (plainRecord columns cells') := by
  have hset {r r' : Record} (hr : r.Alike r') :
      Record.Alike ((columns.zip cells).foldl (fun r entry => r.set entry.1 (trimCell entry.2)) r)
        ((columns.zip cells').foldl (fun r entry => r.set entry.1 (trimCell entry.2)) r') := by
    induction h generalizing columns r r' with
    | nil => simpa using hr
    | cons hv _ ih =>
      cases columns with
      | nil => exact hr
      | cons column rest => exact ih (hr.set hv.trimCell)
  exact hset fun _ => .none

theorem alike_withShadows (h : r.Alike r') (entries : List (Shadow × Value)) :
    (withShadows columns column r entries).Alike (withShadows columns column r' entries) := by
  induction entries generalizing r r' with
  | nil => exact h
  | cons entry rest ih => exact ih h.derive

theorem parallel_deriveColumn (h : r.Alike r') :
    Parallel Record.Alike (deriveColumn columns numeric r column) (deriveColumn columns numeric r' column) := by
  have hcell := h.get column
  unfold deriveColumn
  cases hkind : ColumnClass.ofName column with
  | other =>
    dsimp only
    rw [hcell.isBlank_eq, hcell.number?_eq]
    split_ifs
    · cases (r'.get column).number? with
      | error fault => exact .error fault
      | ok n =>
        cases n with
        | none => exact .ok h
        | some n => exact .ok (h.set (.refl _))
    · exact .ok h
  | date | identifier | freeText =>
    dsimp only
    rw [shadowsOf_congr _ hcell]
    cases shadowsOf _ (r'.get column) with
    | error fault => exact .error fault
    | ok entries => exact .ok (alike_withShadows h entries)

theorem parallel_record (h : List.Forall₂ Value.Alike cells cells') :
    Parallel Record.Alike (record columns numeric cells) (record columns numeric cells') :=
  Parallel.foldlM (alike_plainRecord h) fun _ _ _ hr => parallel_deriveColumn hr

variable {body body' : List (List Value)}

theorem alike_getD (h : List.Forall₂ Value.Alike cells cells') (i : Nat) :
    (cells.getD i .null).Alike (cells'.getD i .null) := by
  induction h generalizing i with
  | nil => exact .refl _
  | cons hv _ ih =>
    cases i with
    | zero => exact hv
    | succ i => exact ih i

theorem numericColumns_congr (h : List.Forall₂ (List.Forall₂ Value.Alike) body body') :
    numericColumns columns body = numericColumns columns body' := by
  have hcolumn (i : Nat) :
      isNumeric (body.map fun cells => cells.getD i .null) =
        isNumeric (body'.map fun cells => cells.getD i .null) := by
    have hcells : List.Forall₂ Value.Alike (body.map fun cells => cells.getD i .null)
        (body'.map fun cells => cells.getD i .null) := by
      rw [List.forall₂_map_left_iff, List.forall₂_map_right_iff]
      exact h.imp fun _ _ hcells => alike_getD hcells i
    unfold isNumeric
    rw [Value.filter_not_isBlank_eq hcells]
  unfold numericColumns
  simp only [hcolumn]

/-- Two tables have the same columns and alike records. -/
structure Alike (table table' : Table) : Prop where
  columns : table.columns = table'.columns
  records : List.Forall₂ Record.Alike table.records table'.records

variable {header rows rows' : List Value}

private theorem all_isBlank_eq (h : List.Forall₂ Value.Alike cells cells') :
    cells.all Value.isBlank = cells'.all Value.isBlank := by
  induction h with
  | nil => rfl
  | cons hv _ ih => rw [List.all_cons, List.all_cons, hv.isBlank_eq, ih]

/-- Under a header, rows are read with alike cells or end at the same fault. -/
def RowsAlike (header rows rows' : List Value) : Prop :=
  header ≠ [] → Parallel (List.Forall₂ (List.Forall₂ Value.Alike)) (rows.mapM (rowCells header))
    (rows'.mapM (rowCells header))

theorem parallel_load (h : RowsAlike header rows rows') :
    Parallel Alike (load header rows) (load header rows') := by
  unfold load
  dsimp only
  split_ifs with hnone
  · exact .ok ⟨rfl, .nil⟩
  · have hheader : header ≠ [] := by
      rintro rfl
      exact hnone rfl
    have hbody : Parallel (List.Forall₂ (List.Forall₂ Value.Alike)) (body header rows) (body header rows') :=
      (h hheader).map fun _ _ hall => List.rel_filter (fun a a' hcells => by
        dsimp only
        rw [all_isBlank_eq hcells]) hall
    refine hbody.bind fun body body' hbody => ?_
    rw [numericColumns_congr hbody]
    cases numericColumns (Header.columns header) body' with
    | error fault => exact .error fault
    | ok numeric =>
      exact (Parallel.mapM hbody fun _ _ hcells => parallel_record hcells).bind fun _ _ hrecords =>
        .ok ⟨rfl, hrecords⟩

end Table

theorem Profile.ofColumn_congr {name : Text} {records records' : List Record}
    (h : List.Forall₂ Record.Alike records records') : ofColumn name records = ofColumn name records' := by
  have hcells : List.Forall₂ Value.Alike (records.map fun r => r.get name) (records'.map fun r => r.get name) := by
    rw [List.forall₂_map_left_iff, List.forall₂_map_right_iff]
    exact h.imp fun _ _ hr => hr.get name
  unfold ofColumn
  rw [Value.filter_not_isBlank_eq hcells]

namespace Snapshot

variable {header rows rows' : List Value} {name : Text}

theorem parallel_build (h : Table.RowsAlike header rows rows') :
    Parallel Alike (build ⟨header, rows, name⟩) (build ⟨header, rows', name⟩) := by
  unfold build
  refine (Table.parallel_load h).bind fun table table' htable => ?_
  have hprofiles : (fun column => (Profile.ofColumn column table.records).map (column, ·)) =
      fun column => (Profile.ofColumn column table'.records).map (column, ·) := by
    funext column
    rw [Profile.ofColumn_congr htable.records]
  rw [ofRecords, ofRecords, hprofiles, htable.columns]
  cases table'.columns.eraseDups.mapM fun column =>
      (Profile.ofColumn column table'.records).map (column, ·) with
  | error fault => exact .error fault
  | ok profiles => exact .ok ⟨rfl, rfl, htable.records, rfl⟩

end Snapshot

namespace Value

end Value

/-- A table of cells under different names, all rows as wide as the header. -/
structure Grid where
  header : List Text
  rows : List (List Value)
  distinct : header.Nodup
  width : ∀ row ∈ rows, row.length = header.length

namespace Grid

variable {g : Grid} {row : List Value}

def names (g : Grid) : List Value :=
  g.header.map .text

def byName (g : Grid) : List Value :=
  g.rows.map fun row => .dict (g.names.zip row)

end Grid

namespace Snapshot

/-- What can be told of two snapshots without a look at how vacant cells are written is the same: the columns,
how many records there are, what is known of the columns, the keyword index, the texts of all cells, and what
every plan comes to. -/
structure LooksLike (s t : Snapshot) : Prop where
  columns : s.columns = t.columns
  length : s.records.length = t.records.length
  profiles : s.profiles = t.profiles
  keywords : s.keywords = t.keywords
  cellText : ∀ column, s.records.map (fun r => (r.get column).cellText) =
    t.records.map fun r => (r.get column).cellText
  outline : ∀ p, (s.execute p).map Result.outline = (t.execute p).map Result.outline

theorem Alike.looksLike {s t : Snapshot} (h : s.Alike t) : s.LooksLike t where
  columns := h.columns
  length := h.records.length_eq
  profiles := h.profiles
  keywords := by
    unfold keywords owners
    rw [h.profiles]
  cellText column := by
    have hcells : List.Forall₂ (· = ·) (s.records.map fun r => (r.get column).cellText)
        (t.records.map fun r => (r.get column).cellText) := by
      rw [List.forall₂_map_left_iff, List.forall₂_map_right_iff]
      exact h.records.imp fun _ _ hr => (hr.get column).cellText_eq
    rwa [List.forall₂_eq_eq_eq] at hcells
  outline := h.outline_eq

end Snapshot

namespace Session

def LooksLike (a b : Session) : Prop :=
  ∃ s t, a.current = some s ∧ b.current = some t ∧ s.LooksLike t

theorem parallel_load {header rows rows' : List Value} (s : Session) (name : Text)
    (h : Table.RowsAlike header rows rows') :
    Parallel LooksLike (after? (s.load ⟨header, rows, name⟩)) (after? (s.load ⟨header, rows', name⟩)) := by
  rw [after?_load, after?_load]
  exact (Snapshot.parallel_build h).map fun a b hab => ⟨a, b, rfl, rfl, hab.looksLike⟩

def gaps : Grid where
  header := ["Date", "Cost", "Note"]
  rows := [["2024-03-05", .null, "leak"], [.date ⟨2025, 5, 1, by decide, by decide, by decide⟩, .int 12, .float .nan]]
  distinct := by decide
  width := by decide

end Session
end AskTable
