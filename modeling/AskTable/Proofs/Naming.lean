import AskTable.Proofs.Entries

/-! Whether the columns of a header have different names. A name that occurs again gets its number behind it,
and the result may be a name that the header has somewhere else. Then two cells of a row share one entry. -/
namespace AskTable

namespace Header

variable {header : List Value} {earlier given : List Text} {name other : Text} {j k : Nat}

def numbered (name : Text) (k : Nat) : Text :=
  name ++ "_" ++ Text.ofNat k

/-- The column for a name that `k` others like it stand before. -/
def label (entry : Text × Nat) : Text :=
  if entry.2 = 0 then entry.1 else numbered entry.1 entry.2

/-- Names with how many like them stand before each. -/
def occurrences (earlier : List Text) : List Text → List (Text × Nat)
  | [] => []
  | name :: rest => (name, earlier.count name) :: occurrences (name :: earlier) rest

theorem map_label_occurrences (earlier given : List Text) :
    (occurrences earlier given).map label = numberedAfter earlier given := by
  induction given generalizing earlier with
  | nil => rfl
  | cons name rest ih => rw [occurrences, List.map_cons, ih, numberedAfter, label, numbered]

theorem mem_occurrences_iff : (name, k) ∈ occurrences earlier given ↔
    earlier.count name ≤ k ∧ k < earlier.count name + given.count name := by
  induction given generalizing earlier with
  | nil =>
    simp only [occurrences, List.not_mem_nil, List.count_nil, false_iff]
    omega
  | cons first rest ih =>
    rw [occurrences, List.mem_cons, ih, Prod.mk.injEq]
    by_cases hname : name = first
    · subst hname
      rw [List.count_cons_self, List.count_cons_self]
      simp only [true_and]
      omega
    · rw [List.count_cons_of_ne (Ne.symm hname), List.count_cons_of_ne (Ne.symm hname)]
      simp [hname]

theorem nodup_occurrences (earlier given : List Text) : (occurrences earlier given).Nodup := by
  induction given generalizing earlier with
  | nil => exact List.nodup_nil
  | cons first rest ih =>
    refine List.nodup_cons.mpr ⟨fun hmem => ?_, ih _⟩
    have hlater := (mem_occurrences_iff.mp hmem).1
    rw [List.count_cons_self] at hlater
    omega

private theorem not_mem_ofNat (k : Nat) : '_' ∉ Text.ofNat k := by
  intro hmem
  have hdigit := Nat.isDigit_of_mem_toDigits (by decide) (by decide) hmem
  exact absurd hdigit (by decide)

private theorem takeWhile_reverse_numbered (name : Text) (k : Nat) :
    (numbered name k).reverse.takeWhile (· != '_') = (Text.ofNat k).reverse := by
  have hfree : ∀ c ∈ (Text.ofNat k).reverse, (c != '_') = true := by
    intro c hc
    have hne : c ≠ '_' := fun heq => not_mem_ofNat k (heq ▸ List.mem_reverse.mp hc)
    simpa using hne
  have hreverse : (numbered name k).reverse = (Text.ofNat k).reverse ++ '_' :: name.reverse := by
    simp [numbered]
  rw [hreverse, List.takeWhile_append_of_pos hfree]
  simp

theorem ofNat_injective : Function.Injective Text.ofNat := by
  intro j k h
  have hread := congrArg (fun digits => Nat.ofDigitChars 10 digits 0) h
  simpa [Text.ofNat] using hread

/-- The last underscore tells the number from the name. -/
theorem numbered_inj : numbered name j = numbered other k ↔ name = other ∧ j = k := by
  constructor
  · intro h
    have hdigits : (Text.ofNat j).reverse = (Text.ofNat k).reverse := by
      rw [← takeWhile_reverse_numbered name j, ← takeWhile_reverse_numbered other k, h]
    obtain rfl : j = k := ofNat_injective (List.reverse_injective hdigits)
    exact ⟨List.append_cancel_right (List.append_cancel_right h), rfl⟩
  · rintro ⟨rfl, rfl⟩
    rfl

/-- No name of the header is another name of it with a number that the other one is given. -/
def IsUnambiguous (header : List Value) : Prop :=
  ∀ name ∈ names header, ∀ k, 0 < k → k < (names header).count name → numbered name k ∉ names header

theorem nodup_columns_iff : (columns header).Nodup ↔ IsUnambiguous header := by
  have hmem (name : Text) (k : Nat) :
      (name, k) ∈ occurrences [] (names header) ↔ k < (names header).count name := by
    rw [mem_occurrences_iff]
    simp
  rw [columns, ← map_label_occurrences, List.nodup_map_iff_inj_on (nodup_occurrences _ _)]
  constructor
  · intro h name _ k hpos hk hclash
    have hfirst : (numbered name k, 0) ∈ occurrences [] (names header) :=
      (hmem _ _).mpr (List.count_pos_iff.mpr hclash)
    have hlabel : label (name, k) = label (numbered name k, 0) := by
      simp [label, hpos.ne']
    have hsame := h _ ((hmem name k).mpr hk) _ hfirst hlabel
    exact hpos.ne' (Prod.mk.inj hsame).2
  · rintro h ⟨name, j⟩ hname ⟨other, k⟩ hother hlabel
    rw [hmem] at hname hother
    have hin : ∀ {t : Text} {n : Nat}, n < (names header).count t → t ∈ names header :=
      fun hn => List.count_pos_iff.mp (Nat.zero_lt_of_lt hn)
    unfold label at hlabel
    dsimp only at hlabel
    split_ifs at hlabel with hj hk hk
    · rw [hlabel, hj, hk]
    · exact absurd (hlabel ▸ hin hname) (h other (hin hother) k (Nat.pos_of_ne_zero hk) hother)
    · exact absurd (hlabel ▸ hin hother) (h name (hin hname) j (Nat.pos_of_ne_zero hj) hname)
    · obtain ⟨rfl, rfl⟩ := numbered_inj.mp hlabel
      rfl

/-- A name without an underscore is the name of one column at most. -/
theorem count_columns_le_one (h : '_' ∉ name) : (columns header).count name ≤ 1 := by
  have hlabel : ∀ entry ∈ occurrences [] (names header), label entry = name → entry = (name, 0) := by
    rintro ⟨other, k⟩ - hentry
    unfold label at hentry
    dsimp only at hentry
    split_ifs at hentry with hk
    · rw [hentry, hk]
    · rw [← hentry] at h
      exact absurd (by simp [numbered]) h
  have hcount : (columns header).count name ≤ (occurrences [] (names header)).count (name, 0) := by
    rw [columns, ← map_label_occurrences, List.count_eq_countP, List.countP_map, List.count_eq_countP]
    refine List.countP_mono_left fun entry hentry heq => ?_
    simpa using hlabel entry hentry (by simpa using heq)
  exact hcount.trans (List.nodup_iff_count_le_one.mp (nodup_occurrences _ _) _)

theorem getElem?_numberedAfter {i : Nat} (h : given[i]? = some name) :
    (numberedAfter earlier given)[i]? = some (label (name, earlier.count name + (given.take i).count name)) := by
  induction given generalizing earlier i with
  | nil => simp at h
  | cons first rest ih =>
    cases i with
    | zero =>
      obtain rfl : first = name := by simpa using h
      simp [numberedAfter, label, numbered]
    | succ i =>
      rw [numberedAfter, List.getElem?_cons_succ, ih (by simpa using h), List.take_succ_cons]
      by_cases hname : first = name
      · subst hname
        rw [List.count_cons_self, List.count_cons_self, Nat.add_assoc, Nat.add_comm 1]
      · rw [List.count_cons_of_ne hname, List.count_cons_of_ne hname]

/-- The record has an entry of its own for each cell of a row, in the order of the header. -/
structure HoldsEach (header cells : List Value) (r : Record) : Prop where
  keys : r.keys.take header.length = columns header
  entry : ∀ (i : Nat) (column : Text) (v : Value), (columns header)[i]? = some column → cells[i]? = some v →
    ∃ isNumbers, r.get? column = some (Table.entryOf isNumbers v)

variable {numeric : List Text} {cells rows : List Value} {r : Record}

theorem holdsEach_iff (hlength : cells.length = header.length)
    (h : Table.record (columns header) numeric cells = .ok r) :
    HoldsEach header cells r ↔ (columns header).Nodup := by
  constructor
  · intro hholds
    rw [← hholds.keys]
    exact (Table.nodup_keys_record h).sublist (List.take_sublist _ _)
  · intro hnodup
    have hcolumns := length_columns header
    refine ⟨?_, fun i column v hcolumn hcell => ⟨_, Table.get?_record hnodup hcolumn hcell h⟩⟩
    rw [Table.keys_record hnodup (by omega) h, ← hcolumns, List.take_left']
    rfl

theorem length_of_rowCells {row : Value} (h : Table.rowCells header row = .ok cells) :
    cells.length = header.length := by
  unfold Table.rowCells at h
  cases row with
  | dict entries => exact (List.forall₂_iff_get.mp (mapM_eq_ok_iff.mp h)).1.symm
  | list items | text t =>
    rw [← Except.ok.inj h, Table.length_placeCells]
  | null | bool b | int n | float x | date d | moment m =>
    dsimp only at h
    split_ifs at h
    rw [← Except.ok.inj h, Table.length_placeCells]

theorem length_of_mem_body {body : List (List Value)} (h : Table.body header rows = .ok body)
    (hcells : cells ∈ body) : cells.length = header.length := by
  obtain ⟨all, hall, rfl⟩ := map_eq_ok_iff.mp h
  obtain ⟨row, -, hrow⟩ := exists_of_mem_of_mapM hall (List.mem_of_mem_filter hcells)
  exact length_of_rowCells hrow

/-- Each cell of a header has a column, named by the cell. The columns have different names, and each cell of a
row its own entry in the record, exactly when no name clashes with the number that another one is given. -/
theorem separates_iff_isUnambiguous (header : List Value) :
    (columns header).length = header.length ∧
    (∀ (i : Nat) (name : Text), (names header)[i]? = some name →
      (columns header)[i]? = some (label (name, ((names header).take i).count name))) ∧
    (∀ column ∈ columns header, column ≠ []) ∧
    ((columns header).Nodup ↔ IsUnambiguous header) ∧
    ∀ rows table body, Table.load header rows = .ok table → Table.body header rows = .ok body →
      table.columns = columns header ∧
      List.Forall₂ (fun cells r => HoldsEach header cells r ↔ IsUnambiguous header) body table.records := by
  refine ⟨length_columns header, fun i name hname => ?_, fun _ hcolumn => (isName_of_mem_columns hcolumn).ne_nil,
    nodup_columns_iff, fun rows table body htable hbody => ⟨Table.columns_of_load htable, ?_⟩⟩
  · rw [columns, getElem?_numberedAfter hname, List.count_nil, Nat.zero_add]
  · rcases Table.load_cases htable with ⟨hnone, rfl⟩ | ⟨-, body', numeric, records, hbody', -, hrecords, rfl⟩
    · have hheader : header.length = 0 := by rw [← length_columns, hnone, List.length_nil]
      have hbare : ∀ cells ∈ body, False := by
        intro cells hcells
        have hnil := List.length_eq_zero_iff.mp ((length_of_mem_body hbody hcells).trans hheader)
        obtain ⟨all, -, rfl⟩ := map_eq_ok_iff.mp hbody
        simpa [hnil] using List.of_mem_filter hcells
      rw [List.eq_nil_iff_forall_not_mem.mpr hbare]
      exact .nil
    · obtain rfl := Except.ok.inj (hbody.symm.trans hbody')
      have hboth := (List.forall₂_and_left _ _).mpr
        ⟨fun cells hcells => length_of_mem_body hbody hcells, mapM_eq_ok_iff.mp hrecords⟩
      refine hboth.imp fun cells r hrow => ?_
      rw [holdsEach_iff hrow.1 hrow.2, nodup_columns_iff]

/-- Two tools and a column that a third one would be named like. -/
def tools : List Value := ["Tool", "Tool", "Tool_2"]

theorem separates_tools : ∃ table r, Table.load tools [.list ["saw", " drill ", "2"]] = .ok table ∧
    table.columns = ["Tool", "Tool_1", "Tool_2"] ∧ table.records = [r] ∧
    HoldsEach tools ["saw", " drill ", "2"] r := by
  have hcolumns : columns tools = ["Tool", "Tool_1", "Tool_2"] := by decide +kernel
  have hdistinct : (columns tools).Nodup := by
    rw [hcolumns]
    decide
  have hloads : (Table.load tools [.list ["saw", " drill ", "2"]]).map (·.columns.length) = .ok 3 := by
    decide +kernel
  obtain ⟨table, htable, -⟩ := map_eq_ok_iff.mp hloads
  have hbody : Table.body tools [.list ["saw", " drill ", "2"]] = .ok [["saw", " drill ", "2"]] := rfl
  obtain ⟨-, -, -, hiff, hload⟩ := separates_iff_isUnambiguous tools
  obtain ⟨hnames, hrecords⟩ := hload _ table _ htable hbody
  obtain ⟨r, none, hr, hnone, hall⟩ := List.forall₂_cons_left_iff.mp hrecords
  obtain rfl := List.forall₂_nil_left_iff.mp hnone
  exact ⟨table, r, htable, hnames.trans hcolumns, hall, hr.mpr (hiff.mp hdistinct)⟩

/-- The second of two like names gets the name that stands in the header after it, and its cell is lost. -/
theorem clash_of_numbered : columns ["A", "A", "A_1"] = ["A", "A_1", "A_1"] ∧
    (Table.load ["A", "A", "A_1"] [.list ["x", "y", "z"]]).map (·.records.map (·.map fun entry => entry.2.cellText)) =
      .ok [["x", "z"]] := by
  decide +kernel

end Header
end AskTable
