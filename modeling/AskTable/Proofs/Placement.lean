import AskTable.Proofs.Naming
import AskTable.Proofs.Reloading

/-! What a record has under the name of a column. Several columns may have one name; under it stands the cell of
the last of them, or the number that has been read from this cell. -/
namespace AskTable
namespace Table

variable {header rows : List Value} {columns numeric : List Text} {body : List (List Value)} {cells : List Value}
  {r : Record} {column : Text} {table : Table} {v : Value} {i : Nat}

def IsLast (columns : List Text) (column : Text) (i : Nat) : Prop :=
  columns[i]? = some column ∧ ∀ j > i, columns[j]? ≠ some column

theorem exists_isLast (h : column ∈ columns) : ∃ i, IsLast columns column i := by
  induction columns with
  | nil => cases h
  | cons first rest ih =>
    by_cases hrest : column ∈ rest
    · obtain ⟨i, hi, hlater⟩ := ih hrest
      refine ⟨i + 1, by rwa [List.getElem?_cons_succ], fun j hj => ?_⟩
      obtain ⟨k, rfl⟩ : ∃ k, j = k + 1 := ⟨j - 1, by omega⟩
      rw [List.getElem?_cons_succ]
      exact hlater k (by omega)
    · obtain rfl : column = first := (List.mem_cons.mp h).resolve_right hrest
      refine ⟨0, rfl, fun j hj hmem => ?_⟩
      obtain ⟨k, rfl⟩ : ∃ k, j = k + 1 := ⟨j - 1, by omega⟩
      rw [List.getElem?_cons_succ] at hmem
      exact hrest (List.mem_of_getElem? hmem)

/-- Laying out a row puts the cell of the last column with a name under it. -/
theorem get?_plainRecord_of_isLast (hlast : IsLast columns column i) (hcell : cells[i]? = some v) :
    (plainRecord columns cells).get? column = some (trimCell v) := by
  have hkeep {columns : List Text} {cells : List Value} {r : Record} (hfree : column ∉ columns) :
      ((columns.zip cells).foldl (fun r entry => r.set entry.1 (trimCell entry.2)) r).get? column =
        r.get? column := by
    induction columns generalizing cells r with
    | nil => rfl
    | cons first rest ih =>
      rw [List.mem_cons, not_or] at hfree
      cases cells with
      | nil => rfl
      | cons w cells =>
        rw [List.zip_cons_cons, List.foldl_cons, ih hfree.2, Record.get?_set_of_ne hfree.1]
  have hlay {r : Record} :
      ((columns.zip cells).foldl (fun r entry => r.set entry.1 (trimCell entry.2)) r).get? column =
        some (trimCell v) := by
    induction columns generalizing cells i r with
    | nil => cases hlast.1
    | cons first rest ih =>
      cases cells with
      | nil => cases hcell
      | cons w cells =>
        rw [List.zip_cons_cons, List.foldl_cons]
        cases i with
        | zero =>
          obtain rfl : first = column := Option.some.inj hlast.1
          obtain rfl : w = v := Option.some.inj hcell
          have hfree : first ∉ rest := by
            intro hmem
            obtain ⟨k, hk⟩ := List.mem_iff_getElem?.mp hmem
            exact hlast.2 (k + 1) (Nat.succ_pos k) hk
          rw [hkeep hfree, Record.get?_set_self]
        | succ i =>
          have hrest : IsLast rest column i := ⟨hlast.1, fun j hj => hlast.2 (j + 1) (by omega)⟩
          exact ih hrest hcell
  exact hlay

/-- Deriving fields puts the number in a cell in its place, and leaves it there when the name comes once more. -/
theorem get?_record_of_isLast (hlast : IsLast columns column i) (hcell : cells[i]? = some v)
    (h : record columns numeric cells = .ok r) :
    r.get? column = some (entryOf (isNumberEntry numeric column) v) := by
  have hcolumn : column ∈ columns := List.mem_of_getElem? hlast.1
  have hkeep {w : Value} : ∀ x ∈ columns, x ≠ column → ∀ s t : Record, s.get? column = some w →
      deriveColumn columns numeric s x = .ok t → t.get? column = some w := by
    intro x _ hne s t hs hstep
    rw [get?_deriveColumn_of_mem hstep hcolumn (.inl hne.symm), hs]
  have hagain : ∀ s t : Record, s.get? column = some (entryOf (isNumberEntry numeric column) v) →
      deriveColumn columns numeric s column = .ok t →
        t.get? column = some (entryOf (isNumberEntry numeric column) v) := by
    intro s t hs hstep
    rw [← trimCell_entryOf] at hs
    rw [get?_deriveColumn_self hs hcolumn hstep]
    exact congrArg some (entryOf_entryOf _ _)
  obtain ⟨front, rest, rfl, hfront⟩ := List.eq_append_cons_of_mem hcolumn
  unfold record at h
  rw [List.foldlM_append, bind_eq_ok_iff] at h
  obtain ⟨s, hs, h⟩ := h
  rw [List.foldlM_cons, bind_eq_ok_iff] at h
  obtain ⟨t, ht, h⟩ := h
  have hbefore : s.get? column = some (trimCell v) :=
    foldlM_preserves (P := fun s => s.get? column = some (trimCell v))
      (fun x hx s t => hkeep x (List.mem_append_left _ hx) (fun heq => hfront (heq ▸ hx)) s t)
      (get?_plainRecord_of_isLast hlast hcell) hs
  have hturn := get?_deriveColumn_self hbefore hcolumn ht
  refine foldlM_preserves (P := fun s => s.get? column = some (entryOf (isNumberEntry numeric column) v))
    (fun x hx s t hP hstep => ?_) hturn h
  by_cases hx' : x = column
  · subst hx'
    exact hagain s t hP hstep
  · exact hkeep x (by simp [hx]) hx' s t hP hstep

/-- The entry under a name is the cell that the row has under it, or the number in this cell. -/
theorem get_record_eq (hlength : cells.length = columns.length) (hcolumn : column ∈ columns)
    (h : record columns numeric cells = .ok r) :
    r.get column = entryOf (isNumberEntry numeric column) ((plainRecord columns cells).get column) := by
  obtain ⟨i, hlast⟩ := exists_isLast hcolumn
  obtain ⟨hi, -⟩ := List.getElem?_eq_some_iff.mp hlast.1
  have hcell : cells[i]? = some cells[i] := List.getElem?_eq_getElem (by omega)
  have hplain : (plainRecord columns cells).get column = trimCell cells[i] := by
    rw [Record.get, get?_plainRecord_of_isLast hlast hcell, Option.getD_some]
  have hentry : entryOf (isNumberEntry numeric column) (trimCell cells[i]) =
      entryOf (isNumberEntry numeric column) cells[i] := by
    rw [entryOf, entryOf, trimCell_trimCell, Value.numeral?, Value.number?_trimCell, ← Value.numeral?]
  rw [hplain, hentry, Record.get, get?_record_of_isLast hlast hcell h, Option.getD_some]

/-- A column without a class of its own is one of numbers if all of its cells with content are numbers. -/
theorem mem_numericColumns_of_all (hnumeric : numericColumns columns body = .ok numeric)
    (hlength : ∀ cells ∈ body, cells.length = columns.length) (hcolumn : column ∈ columns)
    (hkind : ColumnClass.ofName column = .other)
    (hall : ∀ cells ∈ body, ((plainRecord columns cells).get column).isBlank = true ∨
      ((plainRecord columns cells).get column).numeral?.isSome = true)
    (hsome : ∃ cells ∈ body, ((plainRecord columns cells).get column).isBlank = false) : column ∈ numeric := by
  obtain ⟨i, hlast⟩ := exists_isLast hcolumn
  obtain ⟨hi, -⟩ := List.getElem?_eq_some_iff.mp hlast.1
  have hplain : ∀ cells ∈ body, (plainRecord columns cells).get column = trimCell (cells.getD i .null) := by
    intro cells hcells
    have hwidth := hlength cells hcells
    have hcell : cells[i]? = some (cells.getD i .null) := by
      rw [List.getD_eq_getElem _ _ (by omega), List.getElem?_eq_getElem]
    rw [Record.get, get?_plainRecord_of_isLast hlast hcell, Option.getD_some]
  refine (mem_numericColumns_iff hnumeric).mpr ⟨hkind, i, hlast.1, isNumeric_eq_ok_true_iff.mpr ⟨?_, ?_⟩⟩
  · obtain ⟨cells, hcells, hfilled⟩ := hsome
    rw [hplain cells hcells, isBlank_trimCell_eq] at hfilled
    intro hnone
    rw [List.take_eq_nil_iff] at hnone
    rcases hnone with hzero | hnone
    · cases hzero
    · have hmem : cells.getD i .null ∈ (body.map fun cells => cells.getD i .null).filter (!·.isBlank) :=
        List.mem_filter.mpr ⟨List.mem_map_of_mem hcells, by rw [hfilled]; rfl⟩
      rw [hnone] at hmem
      cases hmem
  · intro v hv
    obtain ⟨hmem, hfilled⟩ := List.mem_filter.mp (List.mem_of_mem_take hv)
    obtain ⟨cells, hcells, rfl⟩ := List.mem_map.mp hmem
    have hcell := hall cells hcells
    rw [hplain cells hcells, isBlank_trimCell_eq, Value.numeral?, Value.number?_trimCell, ← Value.numeral?] at hcell
    exact hcell.resolve_left (by simpa using hfilled)

/-- The records of a table in one column: what each row has under its name, or the number in it. -/
theorem entries_of_load (h : load header rows = .ok table) (hbody : Table.body header rows = .ok body)
    (hcolumn : column ∈ Header.columns header) :
    ∃ numeric, numericColumns (Header.columns header) body = .ok numeric ∧
      List.Forall₂ (fun cells r => r.get column =
        entryOf (isNumberEntry numeric column) ((plainRecord (Header.columns header) cells).get column))
        body table.records := by
  rcases load_cases h with ⟨hnone, -⟩ | ⟨-, body', numeric, records, hbody', hnumeric, hrecords, rfl⟩
  · rw [hnone] at hcolumn
    cases hcolumn
  · obtain rfl := Except.ok.inj (hbody'.symm.trans hbody)
    refine ⟨numeric, hnumeric, ?_⟩
    have hboth := (List.forall₂_and_left _ _).mpr
      ⟨fun cells hcells => Header.length_of_mem_body hbody hcells, mapM_eq_ok_iff.mp hrecords⟩
    exact hboth.imp fun cells r hr =>
      get_record_eq (by rw [hr.1, Header.length_columns]) hcolumn hr.2

end Table
end AskTable
