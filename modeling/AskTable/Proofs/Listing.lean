import AskTable.Answer.Report
import AskTable.Proofs.Answerable
import AskTable.Proofs.Contents
import AskTable.Proofs.Lines
import AskTable.Proofs.Newest

/-! Answers that list records, line by line. Up to ten records are shown in full and of more the first five; each has its
number and one line for every column, and a notice tells how many are left out. -/
namespace AskTable

section Paragraphs

variable {α : Type} {p : α → Bool} {sep : α} {x : List α}

private theorem filter_intercalate (hsep : p sep = false) (parts : List (List α)) :
    (List.intercalate [sep] parts).filter p = parts.flatten.filter p := by
  match parts with
  | [] => rfl
  | [x] => simp
  | x :: y :: rest =>
    have hrest := filter_intercalate hsep (y :: rest)
    rw [List.intercalate_cons_cons, List.filter_append, List.filter_append, hrest, List.flatten_cons, List.filter_append]
    simp [hsep]

/-- A paragraph is followed by the separator or by nothing. -/
theorem exists_intercalate_eq (sep : α) {parts : List (List α)} (hx : x ∈ parts) :
    ∃ before after, List.intercalate [sep] parts = before ++ x ++ after ∧ ∀ a ∈ after.head?, a = sep := by
  match parts with
  | [] => cases hx
  | [y] =>
    obtain rfl := List.mem_singleton.mp hx
    exact ⟨[], [], by simp, by simp⟩
  | y :: z :: rest =>
    rw [List.intercalate_cons_cons]
    rcases List.mem_cons.mp hx with rfl | hx
    · exact ⟨[], [sep] ++ List.intercalate [sep] (z :: rest), by simp, by simp⟩
    · obtain ⟨before, after, hrest, hafter⟩ := exists_intercalate_eq sep hx
      exact ⟨y ++ [sep] ++ before, after, by simp [hrest], hafter⟩

end Paragraphs

namespace Report

open Text (IsLine)

variable {columns : List Text} {records : List Record}

def previewed (n : Nat) : Nat :=
  if n ≤ 10 then n else 5

def heading (i : Nat) : Text :=
  "Record " ++ Text.ofNat (i + 1)

def cellLines (columns : List Text) (r : Record) : List Text :=
  columns.map fun column => Text.concat ["  ", column, ": ",
    if (r.get column).isBlank then "-" else (r.get column).cellText]

def notices (n : Nat) : List Text :=
  if n ≤ 10 then []
  else [Text.concat ["+", Text.ofNat (n - 5), " more records not shown. ",
    "Add a filter (location, month, keyword) to narrow the list."]]

/-- Lines in which records are shown under some columns. -/
structure ShowsRecords (lines columns : List Text) (records : List Record) : Prop where
  /-- The lines that number a record are those of the first records, in their order. -/
  headings : lines.filter (Text.startsWith · "Record ") = (List.range (previewed records.length)).map heading
  /-- The number of a record is followed by its cells and then by an empty line or by nothing. -/
  cells : ∀ i < previewed records.length, ∃ r ∈ records[i]?, ∃ before after,
    lines = before ++ heading i :: cellLines columns r ++ after ∧ ∀ line ∈ after.head?, line = []
  /-- The lines on records that are left out. -/
  notice : lines.filter (Text.startsWith · "+") = notices records.length

theorem isLine_heading (i : Nat) : IsLine (heading i) :=
  Text.isLine_append.mpr ⟨by decide, Text.isLine_ofNat (i + 1)⟩

theorem isLine_of_mem_cellLines {r : Record} {line : Text}
    (h : ∀ column ∈ columns, column.IsLine ∧ (r.get column).cellText.IsLine) (hline : line ∈ cellLines columns r) :
    line.IsLine := by
  obtain ⟨column, hcolumn, rfl⟩ := List.mem_map.mp hline
  obtain ⟨hname, htext⟩ := h column hcolumn
  split_ifs <;> simp [hname, htext]

theorem isLine_of_mem_notices {n : Nat} {line : Text} (hline : line ∈ notices n) : line.IsLine := by
  unfold notices at hline
  split_ifs at hline
  · cases hline
  · obtain rfl := List.mem_singleton.mp hline
    simp

def paragraphs (columns : List Text) (records : List Record) : List (List Text) :=
  (records.take (previewed records.length)).zipIdx.map (fun entry => heading entry.2 :: cellLines columns entry.1) ++
    (notices records.length).map fun line => [line]

private theorem blocks_eq_join (columns : List Text) (records : List Record) : blocks records columns =
    Text.join "\n\n" ((paragraphs columns records).map (Text.join "\n")) := by
  have hshown : (if records.length ≤ maxBlocks then records else records.take previewBlocks) =
      records.take (previewed records.length) := by
    unfold maxBlocks previewBlocks previewed
    split_ifs
    · exact List.take_length.symm
    · rfl
  have hrest : records.length - (records.take (previewed records.length)).length =
      if records.length ≤ 10 then 0 else records.length - 5 := by
    rw [List.length_take]
    unfold previewed
    split_ifs <;> omega
  unfold blocks
  dsimp only
  rw [hshown, hrest, paragraphs, List.map_append, List.map_map, List.map_map, List.mapIdx_eq_zipIdx_map, notices]
  congr 2
  by_cases hfew : records.length ≤ 10
  · simp [hfew]
  · have hsome : ¬ records.length - 5 = 0 := by omega
    simp [hfew, hsome, Text.join]

/-- The names of some columns, and the cells of some records under them, are on one line. -/
def IsPlain (columns : List Text) (records : List Record) : Prop :=
  ∀ column ∈ columns, column.IsLine ∧ ∀ r ∈ records, (r.get column).cellText.IsLine

theorem of_mem_paragraphs (h : IsPlain columns records) {paragraph : List Text}
    (hparagraph : paragraph ∈ paragraphs columns records) : paragraph ≠ [] ∧ ∀ line ∈ paragraph, line.IsLine := by
  rcases List.mem_append.mp hparagraph with hrecord | hnotice
  · obtain ⟨⟨r, i⟩, hentry, rfl⟩ := List.mem_map.mp hrecord
    have hr : r ∈ records := List.mem_of_mem_take (List.fst_mem_of_mem_zipIdx hentry)
    have hcells : ∀ line ∈ cellLines columns r, line.IsLine := fun line =>
      isLine_of_mem_cellLines fun column hcolumn => ⟨(h column hcolumn).1, (h column hcolumn).2 r hr⟩
    exact ⟨List.cons_ne_nil _ _, List.forall_mem_cons.mpr ⟨isLine_heading i, hcells⟩⟩
  · obtain ⟨line, hline, rfl⟩ := List.mem_map.mp hnotice
    exact ⟨List.cons_ne_nil _ _, by simpa using isLine_of_mem_notices hline⟩

private theorem previewed_pos {n : Nat} (hn : 0 < n) : 0 < previewed n := by
  unfold previewed
  split_ifs <;> omega

private theorem paragraphs_ne_nil (hsome : records ≠ []) : paragraphs columns records ≠ [] := by
  have hlength := List.length_pos_iff.mpr hsome
  have hshown := previewed_pos hlength
  intro hnone
  have hempty := congrArg List.length (List.append_eq_nil_iff.mp hnone).1
  rw [List.length_map, List.length_zipIdx, List.length_take, List.length_nil] at hempty
  omega

/-- The lines of the blocks are those of the paragraphs, with an empty line between two of them. -/
theorem lines_blocks (hsome : records ≠ []) (h : IsPlain columns records) :
    (blocks records columns).lines = List.intercalate [[]] (paragraphs columns records) := by
  have hlines : (paragraphs columns records).map (fun ts => (Text.join "\n" ts).lines) =
      (paragraphs columns records).map id := by
    refine List.map_congr_left fun ts hts => ?_
    obtain ⟨hne, hall⟩ := of_mem_paragraphs h hts
    exact Text.lines_join hall hne
  rw [blocks_eq_join, Text.lines_join_gap (by simpa using paragraphs_ne_nil hsome), List.map_map]
  rw [List.map_id] at hlines
  exact congrArg _ hlines

/-- A line that neither numbers a record nor tells of records that are left out. -/
def IsAside (line : Text) : Prop :=
  Text.startsWith line "Record " = false ∧ Text.startsWith line "+" = false

instance (line : Text) : Decidable (IsAside line) :=
  inferInstanceAs (Decidable (_ ∧ _))

/-- A test that no line of cells passes sees the headings and the notices only. -/
theorem filter_paragraphs {p : Text → Bool} (hcells : ∀ r, ∀ line ∈ cellLines columns r, p line = false) :
    (paragraphs columns records).flatten.filter p =
      ((List.range (previewed records.length)).map heading).filter p ++ (notices records.length).filter p := by
  have hplaces : (records.take (previewed records.length)).zipIdx.map (fun entry => heading entry.2) =
      (List.range (previewed records.length)).map heading := by
    have hlength : (records.take (previewed records.length)).length = previewed records.length := by
      rw [List.length_take]
      unfold previewed
      split_ifs <;> omega
    have hrange : List.range (previewed records.length) =
        (records.take (previewed records.length)).zipIdx.map Prod.snd := by
      rw [List.zipIdx_map_snd, hlength, List.range_eq_range']
    rw [hrange, List.map_map]
    rfl
  have hone (entry : Record × Nat) :
      (heading entry.2 :: cellLines columns entry.1).filter p = [heading entry.2].filter p := by
    have hnone : (cellLines columns entry.1).filter p = [] :=
      List.filter_eq_nil_iff.mpr fun line hline => by simp [hcells entry.1 line hline]
    rw [List.filter_cons, List.filter_cons, hnone, List.filter_nil]
  rw [paragraphs, List.flatten_append, List.filter_append, ← hplaces]
  congr 1
  · rw [← List.flatMap_def, List.filter_flatMap, List.map_eq_flatMap, List.filter_flatMap]
    exact List.flatMap_congr fun entry _ => hone entry
  · rw [← List.flatMap_def, ← List.map_eq_flatMap, List.map_id']

private theorem startsWith_heading (i : Nat) :
    Text.startsWith (heading i) "Record " = true ∧ Text.startsWith (heading i) "+" = false :=
  ⟨Text.startsWith_eq_true_iff.mpr (List.prefix_append _ _), rfl⟩

private theorem isAside_of_mem_cellLines {r : Record} {line : Text} (hline : line ∈ cellLines columns r) :
    IsAside line := by
  obtain ⟨column, -, rfl⟩ := List.mem_map.mp hline
  exact ⟨rfl, rfl⟩

private theorem startsWith_notices {n : Nat} {line : Text} (hline : line ∈ notices n) :
    Text.startsWith line "Record " = false ∧ Text.startsWith line "+" = true := by
  unfold notices at hline
  split_ifs at hline
  · cases hline
  · obtain rfl := List.mem_singleton.mp hline
    exact ⟨rfl, rfl⟩

/-- Lines without a heading or a notice may stand above the blocks. -/
theorem showsRecords_of_lines {above : List Text}
    (habove : ∀ line ∈ above, IsAside line) :
    ShowsRecords (above ++ List.intercalate [[]] (paragraphs columns records)) columns records where
  headings := by
    have hnone : above.filter (Text.startsWith · "Record ") = [] :=
      List.filter_eq_nil_iff.mpr fun line hline => ne_true_of_eq_false (habove line hline).1
    have hall : ((List.range (previewed records.length)).map heading).filter (Text.startsWith · "Record ") =
        (List.range (previewed records.length)).map heading :=
      List.filter_eq_self.mpr (List.forall_mem_map.mpr fun i _ => (startsWith_heading i).1)
    have hmore : (notices records.length).filter (Text.startsWith · "Record ") = [] :=
      List.filter_eq_nil_iff.mpr fun line hline => ne_true_of_eq_false (startsWith_notices hline).1
    rw [List.filter_append, hnone, filter_intercalate rfl, filter_paragraphs fun r line hline =>
      (isAside_of_mem_cellLines hline).1, hall, hmore, List.nil_append, List.append_nil]
  cells i hi := by
    have hi' : i < records.length := by
      unfold previewed at hi
      split_ifs at hi <;> omega
    have hentry : (records[i], i) ∈ (records.take (previewed records.length)).zipIdx := by
      rw [List.mem_zipIdx_iff_getElem?, List.getElem?_take_of_lt hi, List.getElem?_eq_getElem hi']
    have hparagraph : heading i :: cellLines columns records[i] ∈ paragraphs columns records :=
      List.mem_append_left _ (List.mem_map.mpr ⟨_, hentry, rfl⟩)
    obtain ⟨before, after, hsplit, hafter⟩ := exists_intercalate_eq [] hparagraph
    refine ⟨records[i], List.getElem?_eq_getElem hi', above ++ before, after, ?_, hafter⟩
    rw [hsplit, List.append_assoc, List.append_assoc, List.append_assoc]
  notice := by
    have hnone : above.filter (Text.startsWith · "+") = [] :=
      List.filter_eq_nil_iff.mpr fun line hline => ne_true_of_eq_false (habove line hline).2
    have hheadings : ((List.range (previewed records.length)).map heading).filter (Text.startsWith · "+") = [] :=
      List.filter_eq_nil_iff.mpr (List.forall_mem_map.mpr fun i _ => ne_true_of_eq_false (startsWith_heading i).2)
    have hall : (notices records.length).filter (Text.startsWith · "+") = notices records.length :=
      List.filter_eq_self.mpr fun line hline => (startsWith_notices hline).2
    rw [List.filter_append, hnone, filter_intercalate rfl, filter_paragraphs fun r line hline =>
      (isAside_of_mem_cellLines hline).2, hheadings, hall, List.nil_append, List.nil_append]

/-- The line that counts is one line, and none that shows a record or tells of those that are left out. -/
theorem of_countLine {p : Report} {total : Nat} (htotal : p.total = some (.int total))
    (hdescription : p.description.shown.IsLine) : p.countLine.IsLine ∧
      IsAside p.countLine := by
  have hcount : (p.total.getD (.int 0)).shown.IsLine := by
    rw [htotal]
    exact Text.isLine_ofInt total
  unfold countLine
  dsimp only
  refine ⟨?_, ?_, ?_⟩
  · split_ifs <;> simp [hcount, hdescription]
  · split_ifs <;> rfl
  · split_ifs <;> rfl

end Report

theorem Condition.isLine_describe {c : Condition} (hfield : c.field.IsLine) (hoperand : c.operand.shown.IsLine) :
    c.describe.IsLine := by
  have hphrase : c.operator.phrase.IsLine := by cases c.operator <;> decide
  unfold describe Filter.wording
  split_ifs
  · simp [hfield, hphrase]
  · split
    · next t ht =>
      rw [ht] at hoperand
      have ht : t.IsLine := hoperand
      simp [hfield, hphrase, ht]
    · simp [hfield, hphrase, hoperand]

theorem Condition.isLine_describeAll {conditions : List Condition} (h : ∀ c ∈ conditions, c.describe.IsLine) :
    (describeAll conditions).IsLine := by
  unfold describeAll Filter.joinDescriptions
  split_ifs
  · decide
  · simpa using h

namespace Snapshot

open Report (ShowsRecords)

variable {s : Snapshot} {p : Plan} {result : Result} {names : List Text} {note : Text}

/-- The columns that some names mean, each where it is first meant, or all if they mean none. -/
def meantColumns (s : Snapshot) (names : List Text) : List Text :=
  let meant := firstsBy id (names.filterMap (Field.resolve? · s.columns))
  if meant = [] then s.columns else meant

theorem columnsFor_eq_meantColumns (s : Snapshot) (names : List Text) : s.columnsFor names = s.meantColumns names := by
  have hfirsts : Field.resolveAll names s.columns = firstsBy id (names.filterMap (Field.resolve? · s.columns)) :=
    eraseDupsBy_eq_firstsBy id _
  unfold columnsFor meantColumns
  dsimp only
  rw [hfirsts]
  simp only [List.isEmpty_iff]

/-- The description of what was applied is on one line if the names of the columns and the texts of the filters are. -/
theorem isLine_description (h : s.execute p = .ok result) (hcolumns : ∀ column ∈ s.columns, column.IsLine)
    (hfilters : ∀ f ∈ p.filters, ∀ t, f.operand = .text t → t.IsLine) : result.description.IsLine := by
  obtain ⟨selected, hits, -, -, rfl⟩ := execute_eq_ok_iff.mp h
  refine Condition.isLine_describeAll fun c hc => ?_
  obtain ⟨f, hf, hresolved⟩ := List.mem_filterMap.mp hc
  refine Condition.isLine_describe (hcolumns _ (Plan.mem_columns_of_mem_conditions hc)) (Value.isLine_shown fun t ht => ?_)
  exact hfilters f hf t ((Filter.condition?_eq_some_iff.mp hresolved).operand.trans ht)

/-- What a plan selects are records of the table, unless it only wants the newest. -/
theorem mem_records_of_mem_hits (h : s.execute p = .ok result) (hintent : p.intent ≠ .lastAction) {r : Record}
    (hr : r ∈ result.hits.map (·.1)) : r ∈ s.records := by
  obtain ⟨selected, hits, hselected, hhits, rfl⟩ := execute_eq_ok_iff.mp h
  rw [keep, if_neg hintent] at hhits
  obtain rfl := Except.ok.inj hhits
  obtain ⟨hit, hhit, rfl⟩ := List.mem_map.mp hr
  exact List.fst_mem_of_mem_zipIdx (List.mem_of_mem_filter (select_eq_filter hselected ▸ hhit))

private theorem answer_eq_listAnswer
    (hintent : result.intent = .list ∨ result.intent = .listAll ∨ result.intent = .details)
    (hsome : result.hits ≠ []) (hnames : p.fieldNames = .ok names) : result.answer s p note =
      .ok (Report.noted note (result.report.listAnswer (s.meantColumns names))) := by
  obtain ⟨hit, rest, hhits⟩ := List.exists_cons_of_ne_nil hsome
  have hrecords : result.report.records = hit.1 :: rest.map (·.1) := congrArg (List.map fun hit : Hit => hit.1) hhits
  have hreported : result.report.intent = some result.intent := rfl
  have hplain : result.report.answer s p.fieldNames = .ok (result.report.listAnswer (s.columnsFor names)) := by
    rw [Report.answer, hrecords, hreported, hnames]
    rcases hintent with hintent | hintent | hintent <;> rw [hintent] <;> rfl
  rw [Result.answer, hplain, columnsFor_eq_meantColumns]
  rfl

/-- The answer to a plan that lists records numbers and shows them line by line under the columns that the plan's fields
mean. Up to ten records are all shown; of more the first five are, and the answer tells how many are left out. -/
theorem answer_lists_records (h : s.execute p = .ok result)
    (hintent : p.intent = .list ∨ p.intent = .listAll ∨ p.intent = .details) (hsome : 1 ≤ result.hits.length)
    (hnames : p.fieldNames = .ok names) (hcolumns : ∀ column ∈ s.columns, column.IsLine)
    (hfilters : ∀ f ∈ p.filters, ∀ t, f.operand = .text t → t.IsLine)
    (hcells : ∀ r ∈ s.records, ∀ column ∈ s.columns, (r.get column).cellText.IsLine)
    (hnote : note = [] ∨ note = Report.unavailableNote) :
    ∃ answer, result.answer s p note = .ok answer ∧
      ShowsRecords answer.lines (s.meantColumns names) (result.hits.map (·.1)) := by
  have hne : result.hits ≠ [] := List.length_pos_iff.mp hsome
  have hrest : p.intent ≠ .lastAction := by rcases hintent with heq | heq | heq <;> simp [heq]
  have hsame : result.intent = p.intent := by
    obtain ⟨selected, hits, -, -, rfl⟩ := execute_eq_ok_iff.mp h
    rfl
  have hplain : Report.IsPlain (s.meantColumns names) (result.hits.map (·.1)) := by
    intro column hcolumn
    rw [← columnsFor_eq_meantColumns] at hcolumn
    have hmem := mem_columns_of_mem_columnsFor hcolumn
    exact ⟨hcolumns column hmem, fun r hr => hcells r (mem_records_of_mem_hits h hrest hr) column hmem⟩
  have hdescription := isLine_description h hcolumns hfilters
  obtain ⟨hcount, habove⟩ := Report.of_countLine (p := result.report) rfl hdescription
  have hlines : (result.report.listAnswer (s.meantColumns names)).lines = [result.report.countLine, []] ++
      List.intercalate [[]] (Report.paragraphs (s.meantColumns names) (result.hits.map (·.1))) := by
    rw [Report.listAnswer, Text.lines_append_gap, hcount.lines_eq, ← Report.lines_blocks (by simpa using hne) hplain]
    rfl
  have hown : ∀ line ∈ [result.report.countLine, []], Report.IsAside line := by
    have hgap : Report.IsAside [] := by decide
    exact List.forall_mem_cons.mpr ⟨habove, by simpa using hgap⟩
  refine ⟨_, answer_eq_listAnswer (hsame ▸ hintent) hne hnames, ?_⟩
  rcases hnote with rfl | rfl
  · change ShowsRecords (result.report.listAnswer (s.meantColumns names)).lines _ _
    rw [hlines]
    exact Report.showsRecords_of_lines hown
  · have hnoted : (Report.noted Report.unavailableNote (result.report.listAnswer (s.meantColumns names))).lines =
        [Report.unavailableNote, [], result.report.countLine, []] ++
          List.intercalate [[]] (Report.paragraphs (s.meantColumns names) (result.hits.map (·.1))) := by
      rw [Report.noted, if_neg (by decide), Text.lines_append_gap, hlines,
        Text.IsLine.lines_eq (t := Report.unavailableNote) (by decide)]
      rfl
    rw [hnoted]
    have hfront : ∀ line ∈ [Report.unavailableNote, []], Report.IsAside line := by decide
    exact Report.showsRecords_of_lines (List.forall_mem_append.mpr ⟨hfront, hown⟩)

def lamps : Dataset where
  header := ["Lamp", "Place"]
  rows := (List.range 11).map fun i => .list [.int i, if i = 0 then .null else "Hall"]
  name := "Lamps"

def allPlaces : Plan := { fields := .list [.text "place", .text "PLACE"] }

theorem lamps_listed : ∃ s result answer, build lamps = .ok s ∧ s.execute allPlaces = .ok result ∧
    result.hits.length = 11 ∧ result.answer s allPlaces [] = .ok answer ∧
    ShowsRecords answer.lines ["Place"] (result.hits.map (·.1)) := by
  have hrun : (do
      let s ← build lamps
      let result ← s.execute allPlaces
      return result.hits.length == 11 && s.meantColumns ["place", "PLACE"] == (["Place"] : List Text) &&
        decide (∀ column ∈ s.columns, column.IsLine) &&
        decide (∀ r ∈ s.records, ∀ column ∈ s.columns, (r.get column).cellText.IsLine)) = .ok true := by
    decide +kernel
  obtain ⟨s, hs, hrun⟩ := bind_eq_ok_iff.mp hrun
  obtain ⟨result, hresult, hrun⟩ := bind_eq_ok_iff.mp hrun
  have hfacts := Except.ok.inj hrun
  simp only [Bool.and_eq_true, beq_iff_eq, decide_eq_true_eq] at hfacts
  obtain ⟨⟨⟨hlength, hmeant⟩, hcolumns⟩, hcells⟩ := hfacts
  have hnames : allPlaces.fieldNames = .ok ["place", "PLACE"] := rfl
  obtain ⟨answer, hanswer, hshows⟩ := answer_lists_records hresult (.inl rfl) (by omega) hnames hcolumns
    (fun f hf => absurd hf List.not_mem_nil) hcells (.inl rfl)
  rw [hmeant] at hshows
  exact ⟨s, result, answer, hs, hresult, hlength, hanswer, hshows⟩

end Snapshot
end AskTable
