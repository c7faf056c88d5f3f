import AskTable.Proofs.ColumnPhrase
import AskTable.Proofs.DateText
import AskTable.Proofs.Feasible
import AskTable.Proofs.Keyword
import AskTable.Proofs.Numeral
import AskTable.Proofs.Ranking
import Mathlib.Data.List.Find

/-! The order of records by date: which column gives it, what it is, and what is taken from its front. -/
namespace AskTable

section Stable

variable {α : Type} {le : α → α → Bool} {r : α → α → Prop} {l : List α}

/-- A stable sort of a part of a list is that part of the sorted list, if the members have places. -/
theorem filter_mergeSort_comm (trans : ∀ a b c, le a b → le b c → le a c) (total : ∀ a b, le a b || le b a)
    (asymm : ∀ a b, r a b → ¬ r b a) (h : l.Pairwise r) (p : α → Bool) :
    (l.mergeSort le).filter p = (l.filter p).mergeSort le := by
  have hwhole := (pairwise_mergeSort trans total h).filter p
  have hpart := pairwise_mergeSort trans total (h.filter p)
  refine List.Perm.eq_of_pairwise (fun a b _ _ hab hba => ?_) hwhole hpart ?_
  · exact absurd (hba.2 hab.1) (asymm a b (hab.2 hba.1))
  · have hperm := (List.mergeSort_perm l le).filter p
    exact hperm.trans (List.mergeSort_perm (l.filter p) le).symm

end Stable

namespace Date

def IsBefore (d e : Date) : Prop :=
  d.year < e.year ∨ d.year = e.year ∧ (d.month < e.month ∨ d.month = e.month ∧ d.day < e.day)

instance (d e : Date) : Decidable (d.IsBefore e) :=
  inferInstanceAs (Decidable (_ ∨ _))

theorem order_lt_iff {d e : Date} : d.order < e.order ↔ d.IsBefore e := by
  have hbounds (d : Date) : 1 ≤ d.month ∧ d.month ≤ 12 ∧ d.day ≤ 31 := ⟨d.month_pos, d.month_le, d.day_le⟩
  have hd := hbounds d
  have he := hbounds e
  unfold order IsBefore
  omega

end Date

namespace ColumnClass

private theorem hints_date : ∀ entry ∈ hints, entry.1 = .date → entry.2 = ["date"] := by
  decide

theorem ofName_eq_date_iff {name : Text} (h : name.IsName) :
    ofName name = .date ↔ name.lower.contains "date" = true := by
  unfold ofName
  rw [h.strip_eq]
  dsimp only
  constructor
  · intro hclass
    cases hfound : hints.find? fun entry => entry.2.any name.lower.contains with
    | none =>
      rw [hfound] at hclass
      cases hclass
    | some entry =>
      rw [hfound] at hclass
      have hparts := hints_date entry (List.mem_of_find?_eq_some hfound) hclass
      have hany := List.find?_some hfound
      simpa [hparts] using hany
  · intro hdate
    have hany : ([("date" : Text)]).any name.lower.contains = true := by simpa using hdate
    have hfound : hints.find? (fun entry => entry.2.any name.lower.contains) = some (date, [("date" : Text)]) :=
      List.find?_cons_of_pos hany
    rw [hfound]

end ColumnClass

namespace Field

/-- The column most like a name by some measure, if it is like enough. -/
def closestUnder (likeness : Text → Text → Rat) (wanted : Text) (columns : List Text) : Option Text :=
  let score (column : Text) := likeness (skeleton wanted) (skeleton column)
  (firstBest score columns).filter fun column => threshold ≤ score column

/-- The column that a name means, where likeness is measured in some way. -/
def resolveUnder (likeness : Text → Text → Rat) (name : Text) (columns : List Text) : Option Text :=
  let wanted := plain name
  if wanted.isEmpty then none
  else
    columns.find? (fun column => plain column == wanted) <|>
    (match SemanticField.ofWord? wanted with
      | some field => field.column? columns
      | none => columns.find? fun column => column.lower.contains wanted) <|>
    closestUnder likeness wanted columns

theorem resolve?_eq_resolveUnder : resolve? = resolveUnder Text.similarity := rfl

end Field

namespace Recency

variable {columns : List Text} {hits sorted : List Hit} {column : Text} {r : Record}

/-- The column that tells how recent a record is, where likeness is measured in some way. -/
def columnUnder (likeness : Text → Text → Rat) (columns : List Text) : Option Text :=
  ((Field.resolveUnder likeness "date" columns).filter fun column => Snapshot.isDateColumn columns column) <|>
    columns.find? fun column => column.lower.contains "date"

private theorem column?_eq_columnUnder (columns : List Text) :
    column? columns = columnUnder Text.similarity columns := by
  unfold column? columnUnder
  rw [Field.resolve?_eq_resolveUnder]

/-- The first column with the name "date" in any case, else the first with that word in its name. -/
def dateColumn? (columns : List Text) : Option Text :=
  columns.find? (fun column => column.lower == ("date" : Text)) <|>
    columns.find? fun column => column.lower.contains "date"

theorem of_dateColumn? (h : dateColumn? columns = some column) :
    column ∈ columns ∧ column.lower.contains "date" = true := by
  unfold dateColumn? at h
  rw [Option.orElse_eq_orElse, Option.orElse_eq_or] at h
  rcases Option.or_eq_some_iff.mp h with hexact | ⟨-, hpart⟩
  · have hname : column.lower = "date".toList := by simpa using List.find?_some hexact
    rw [hname]
    exact ⟨List.mem_of_find?_eq_some hexact, by decide⟩
  · have hcontains := List.find?_some hpart
    exact ⟨List.mem_of_find?_eq_some hpart, hcontains⟩

private theorem isDateColumn_iff_contains (hnames : ∀ column ∈ columns, column.IsName) (hcolumn : column ∈ columns) :
    Snapshot.isDateColumn columns column = true ↔ column.lower.contains "date" = true := by
  rw [Record.isDateColumn_iff hcolumn]
  exact ColumnClass.ofName_eq_date_iff (hnames column hcolumn)

/-- The patterns for dates find the first column with "date" in its name, or nothing. -/
theorem semantic_date (columns : List Text) :
    SemanticField.date.column? columns = columns.find? fun column => column.lower.contains "date" := by
  have hpatterns : ∀ pattern ∈ SemanticField.date.patterns, ("date" : Text) <:+: pattern := by decide
  unfold SemanticField.column?
  cases hfound : columns.find? fun column => column.lower.contains "date" with
  | some column =>
    have hfirst : SemanticField.date.patterns = ("date" : Text) :: SemanticField.date.patterns.tail := rfl
    rw [hfirst, List.findSome?_cons, hfound]
  | none =>
    rw [List.findSome?_eq_none_iff]
    intro pattern hpattern
    rw [List.find?_eq_none] at hfound ⊢
    intro column hcolumn hcontains
    apply hfound column hcolumn
    rw [Text.contains_eq_true_iff] at hcontains ⊢
    exact (hpatterns pattern hpattern).trans hcontains

theorem resolveUnder_date (likeness : Text → Text → Rat) (hnames : ∀ column ∈ columns, column.IsName) :
    Field.resolveUnder likeness "date" columns =
      (dateColumn? columns <|> Field.closestUnder likeness "date" columns) := by
  have hplain : Field.plain "date" = "date".toList := by decide
  have hword : SemanticField.ofWord? "date" = some .date := by decide
  have hexact : (columns.find? fun column => Field.plain column == "date".toList) =
      columns.find? fun column => column.lower == ("date" : Text) := by
    refine List.find?_congr fun column hcolumn => ?_
    rw [Field.plain, (hnames column hcolumn).strip_eq]
  unfold Field.resolveUnder dateColumn?
  simp only [hplain, hword, hexact, semantic_date, Option.orElse_eq_orElse, Option.orElse_eq_or, Option.or_assoc]
  rfl

/-- However likeness is measured, the column is found by the word "date" in its name. A column that is only
like that word is not one of dates. -/
theorem columnUnder_eq_dateColumn? (likeness : Text → Text → Rat) (hnames : ∀ column ∈ columns, column.IsName) :
    columnUnder likeness columns = dateColumn? columns := by
  unfold columnUnder
  rw [resolveUnder_date likeness hnames]
  simp only [Option.orElse_eq_orElse, Option.orElse_eq_or]
  cases hcolumn : dateColumn? columns with
  | some column =>
    obtain ⟨hmem, hcontains⟩ := of_dateColumn? hcolumn
    have hdate := (isDateColumn_iff_contains hnames hmem).mpr hcontains
    simp [hdate]
  | none =>
    unfold dateColumn? at hcolumn
    rw [Option.orElse_eq_orElse, Option.orElse_eq_or, Option.or_eq_none_iff] at hcolumn
    obtain ⟨-, hnone⟩ := hcolumn
    rw [hnone, Option.or_none, Option.none_or, Option.filter_eq_none_iff]
    intro column hclosest hdate
    have hmem : column ∈ columns := by
      obtain ⟨hbest, -⟩ := Option.filter_eq_some_iff.mp hclosest
      exact Field.mem_of_firstBest hbest
    have hcontains := (isDateColumn_iff_contains hnames hmem).mp hdate
    rw [List.find?_eq_none] at hnone
    exact hnone column hmem hcontains

end Recency

namespace Record

variable {columns : List Text} {r : Record} {column : Text}

def dateIn? (column : Text) (r : Record) : Option Date :=
  match (r.get column).date? with
  | .ok date => date
  | .error _ => none

theorem date?_eq_dateIn? (hr : r.IsLoaded columns) (hcolumn : column ∈ columns)
    (hdate : ColumnClass.ofName column = .date) : (r.get column).date? = .ok (r.dateIn? column) := by
  obtain ⟨reading, hreading, -⟩ := exists_reading hr hcolumn hdate
  have hread : ∃ date, (r.get column).date? = .ok date := by
    unfold DateReading.ofCell at hreading
    split_ifs at hreading with hblank
    · exact ⟨none, Value.date?_of_isBlank hblank⟩
    · obtain ⟨date, hdate, -⟩ := map_eq_ok_iff.mp hreading
      exact ⟨date, hdate⟩
  obtain ⟨date, hread⟩ := hread
  rw [dateIn?, hread]

/-- In a column of dates, the time of a record is the date in the cell. -/
theorem timeAt_eq_dateIn? (hr : r.IsLoaded columns) (hcolumn : column ∈ columns)
    (hdate : ColumnClass.ofName column = .date) (hfree : Shadow.parsed.field column ∉ columns) :
    r.timeAt columns column = .ok ((r.dateIn? column).map .day) := by
  have hcell := date?_eq_dateIn? hr hcolumn hdate
  obtain ⟨reading, hreading, hparsed, -⟩ := exists_reading hr hcolumn hdate
  have hsame : reading.date = r.dateIn? column := by
    unfold DateReading.ofCell at hreading
    split_ifs at hreading with hblank
    · rw [Value.date?_of_isBlank hblank] at hcell
      rw [← Except.ok.inj hreading, ← Except.ok.inj hcell]
    · rw [hcell] at hreading
      cases hread : r.dateIn? column <;> rw [hread] at hreading <;> rw [← Except.ok.inj hreading]
  have hclass := (isDateColumn_iff hcolumn).mpr hdate
  unfold timeAt
  rw [hparsed hfree, ← hsame]
  cases hread : reading.date <;> simp [DateReading.parsed, hread, hclass]

end Record

namespace Recency

variable {columns : List Text} {hits sorted : List Hit} {column : Text}

/-- Newest first: records with a date come before those without, no date is before one that follows it,
and records of one date stand as they stood. -/
structure IsNewestFirst (column : Text) (given sorted : List Hit) : Prop where
  perm : sorted.Perm given
  ordered : sorted.Pairwise fun a b => ∀ d ∈ b.1.dateIn? column, ∃ e ∈ a.1.dateIn? column, ¬ e.IsBefore d
  stable : ∀ date, sorted.filter (fun hit => hit.1.dateIn? column = date) =
    given.filter fun hit => hit.1.dateIn? column = date

def isNotOlder (column : Text) (a b : Hit) : Bool :=
  isNotBefore ((a.1.dateIn? column).map .day) ((b.1.dateIn? column).map .day)

theorem isNotOlder_iff {a b : Hit} : isNotOlder column a b = true ↔
    ∀ d ∈ b.1.dateIn? column, ∃ e ∈ a.1.dateIn? column, ¬ e.IsBefore d := by
  unfold isNotOlder
  cases a.1.dateIn? column with
  | none => cases b.1.dateIn? column <;> simp [isNotBefore]
  | some e =>
    cases b.1.dateIn? column with
    | none => simp [isNotBefore]
    | some d => simp [isNotBefore, Dated.position, ← Date.order_lt_iff]

theorem isNotOlder_trans (a b c : Hit) (hab : isNotOlder column a b) (hbc : isNotOlder column b c) :
    isNotOlder column a c := by
  rw [isNotOlder_iff] at hab hbc ⊢
  intro d hd
  obtain ⟨e, he, hde⟩ := hbc d hd
  obtain ⟨f, hf, hef⟩ := hab e he
  refine ⟨f, hf, ?_⟩
  rw [← Date.order_lt_iff] at hde hef ⊢
  omega

theorem isNotOlder_total (a b : Hit) : isNotOlder column a b || isNotOlder column b a := by
  rw [Bool.or_eq_true, isNotOlder_iff, isNotOlder_iff]
  cases a.1.dateIn? column with
  | none => exact .inr (by simp)
  | some e =>
    cases b.1.dateIn? column with
    | none => exact .inl (by simp)
    | some d =>
      simp only [Option.mem_some_iff, forall_eq', exists_eq_left', ← Date.order_lt_iff]
      omega

theorem isNotOlder_of_eq {a b : Hit} (h : a.1.dateIn? column = b.1.dateIn? column) :
    isNotOlder column a b = true := by
  rw [isNotOlder_iff, h]
  intro d hd
  refine ⟨d, hd, ?_⟩
  rw [← Date.order_lt_iff]
  omega

theorem isNewestFirst_mergeSort (column : Text) (hits : List Hit) :
    IsNewestFirst column hits (hits.mergeSort (isNotOlder column)) where
  perm := List.mergeSort_perm _ _
  ordered := by
    have hsorted : (hits.mergeSort (isNotOlder column)).Pairwise fun a b => isNotOlder column a b = true :=
      List.pairwise_mergeSort isNotOlder_trans isNotOlder_total hits
    exact hsorted.imp isNotOlder_iff.mp
  stable date := by
    apply filter_mergeSort isNotOlder_trans isNotOlder_total
    intro a b ha hb
    rw [decide_eq_true_eq] at ha hb
    exact isNotOlder_of_eq (ha.trans hb.symm)

theorem sortDated_map (hits : List Hit) :
    sortDated (hits.map fun hit => (hit, (hit.1.dateIn? column).map .day)) =
      hits.mergeSort (isNotOlder column) := by
  have hsort := List.map_mergeSort (f := fun hit : Hit => (hit, (hit.1.dateIn? column).map Dated.day))
    (l := hits) (r := isNotOlder column) (s := fun a b => isNotBefore a.2 b.2) fun _ _ _ _ => rfl
  unfold sortDated
  refine (congrArg _ hsort.symm).trans ?_
  rw [List.map_map]
  exact List.map_id _

/-- Where the times of all records are days, the records have an order. -/
theorem sort_eq_mergeSort (hcolumn : column? columns = some column)
    (htimes : ∀ hit ∈ hits, hit.1.timeAt columns column = .ok ((hit.1.dateIn? column).map .day)) :
    sort columns hits = .ok (hits.mergeSort (isNotOlder column)) := by
  have hread : hits.mapM (fun (hit : Hit) => (hit.1.timeAt columns column).map (hit, ·)) =
      .ok (hits.map fun hit => (hit, (hit.1.dateIn? column).map .day)) := by
    rw [mapM_eq_ok_iff, List.forall₂_map_right_iff, List.forall₂_same]
    intro hit hhit
    rw [htimes hit hhit]
    rfl
  have hdays : ∀ time ∈ ((hits.map fun hit => (hit, (hit.1.dateIn? column).map Dated.day)).filterMap (·.2)).reverse,
      time.kind = none := by
    intro time htime
    simp only [List.mem_reverse, List.mem_filterMap, List.mem_map] at htime
    obtain ⟨-, ⟨hit, -, rfl⟩, htime⟩ := htime
    obtain ⟨date, -, rfl⟩ := Option.map_eq_some_iff.mp htime
    rfl
  have hclash :
      clash? ((hits.map fun hit => (hit, (hit.1.dateIn? column).map Dated.day)).filterMap (·.2)).reverse = none := by
    rw [clash?_eq_none_iff]
    intro a ha b hb
    rw [hdays a ha, hdays b hb]
  unfold sort
  rw [hcolumn]
  refine bind_eq_ok_iff.mpr ⟨_, hread, ?_⟩
  rw [hclash, sortDated_map]

/-- The hits with the newest first, or as they stand where no column is one of dates. -/
def newestFirst (columns : List Text) (hits : List Hit) : List Hit :=
  match dateColumn? columns with
  | none => hits
  | some column => hits.mergeSort (isNotOlder column)

def IsOrder (columns : List Text) (given sorted : List Hit) : Prop :=
  match dateColumn? columns with
  | none => sorted = given
  | some column => IsNewestFirst column given sorted

theorem isOrder_newestFirst (columns : List Text) (hits : List Hit) :
    IsOrder columns hits (newestFirst columns hits) := by
  unfold IsOrder newestFirst
  cases dateColumn? columns with
  | none => rfl
  | some column => exact isNewestFirst_mergeSort column hits

/-- To leave hits out before or after they are put in order makes no difference. -/
theorem filter_newestFirst (hplaces : hits.Pairwise fun a b => a.2 < b.2) (p : Hit → Bool) :
    (newestFirst columns hits).filter p = newestFirst columns (hits.filter p) := by
  unfold newestFirst
  cases dateColumn? columns with
  | none => rfl
  | some column =>
    refine filter_mergeSort_comm isNotOlder_trans isNotOlder_total (fun a b hab hba => ?_) hplaces p
    omega

end Recency

namespace Search

def lastQuestion (n : Nat) : Text :=
  "last " ++ Text.ofNat n

theorem of_mem_plainDigits : ∀ c ∈ Text.plainDigits,
    isDigitChar c = true ∧ isWordChar c = true := by
  decide

private theorem end?_opening_last {digits : Text} (h : digits.head?.any isBlankChar = false) :
    (Pattern.edge >> .anyWord ["last", "recent", "latest"] >> .gap).end? ⟨[], ("last " : Text) ++ digits⟩ =
      some ⟨("last " : Text).reverse, digits⟩ := by
  have hedge : Pattern.edge.end? ⟨[], ("last " : Text) ++ digits⟩ = some ⟨[], ("last " : Text) ++ digits⟩ := rfl
  have hword : (Pattern.anyWord ["last", "recent", "latest"]).end? ⟨[], ("last " : Text) ++ digits⟩ =
      some ⟨("last" : Text).reverse, ' ' :: digits⟩ := rfl
  have hgap : Pattern.gap.end? ⟨("last" : Text).reverse, ' ' :: digits⟩ = some ⟨("last " : Text).reverse, digits⟩ := by
    rw [Pattern.end?, Pattern.ends_gap h]
    rfl
  exact Pattern.end?_seq_of_end? hedge (Pattern.end?_seq_of_end? hword hgap)

/-- A run of digits up to the end of a text is read as a whole. -/
theorem partAt?_digits {digits before : Text} {opening : Pattern} {a : Cursor} (hne : digits ≠ [])
    (hdigits : ∀ c ∈ digits, isDigitChar c = true ∧ isWordChar c = true)
    (hopening : opening.end? a = some ⟨before, digits⟩) :
    (Pattern.partAt? opening (.atLeastOne isDigitChar) .edge a).map (·.1) = some digits := by
  obtain ⟨c, rest, rfl⟩ := List.exists_cons_of_ne_nil hne
  obtain ⟨hc, hrest⟩ := List.forall_mem_cons.mp hdigits
  have hone : (Pattern.one isDigitChar).end? ⟨before, c :: rest⟩ = some ⟨c :: before, rest⟩ := by
    simp [Pattern.end?, Pattern.ends, hc.1]
  have hmost : (Pattern.most isDigitChar).end? ⟨c :: before, rest⟩ = some ⟨(c :: rest).reverse ++ before, []⟩ := by
    have hend : (Pattern.most isDigitChar).end? ⟨c :: before, rest ++ []⟩ = some ⟨rest.reverse ++ c :: before, []⟩ :=
      Pattern.end?_most_append (fun d hd => (hrest d hd).1) rfl (c :: before)
    rw [List.append_nil] at hend
    rw [hend, List.reverse_cons, List.append_assoc, List.singleton_append]
  have hedge : Pattern.edge.end? ⟨(c :: rest).reverse ++ before, []⟩ =
      some ⟨(c :: rest).reverse ++ before, []⟩ := by
    obtain ⟨d, back, hback⟩ := List.exists_cons_of_ne_nil (l := (c :: rest).reverse) (by simp)
    have hword : isWordChar d = true := by
      have hmem : d ∈ (c :: rest).reverse := by simp [hback]
      exact (hdigits d (List.mem_reverse.mp hmem)).2
    have hends : Pattern.edge.ends ⟨(c :: rest).reverse ++ before, []⟩ =
        [⟨(c :: rest).reverse ++ before, []⟩] := by
      apply if_pos
      simp [Cursor.atWordEdge, hback, hword]
    rw [Pattern.end?, hends, List.head?_cons]
  have hrun : (Pattern.atLeastOne isDigitChar).end? ⟨before, c :: rest⟩ =
      some ⟨(c :: rest).reverse ++ before, []⟩ :=
    Pattern.end?_seq_of_end? hone hmost
  rw [Pattern.partAt?_of_end? hopening hrun hedge, Option.map_some, Cursor.textTo_append]

private theorem lastDigits?_lastQuestion (n : Nat) : lastDigits? (lastQuestion n) = some (Text.ofNat n) := by
  have hdigits : ∀ c ∈ Text.ofNat n, isDigitChar c = true ∧ isWordChar c = true :=
    fun c hc => of_mem_plainDigits c (Text.mem_plainDigits_of_mem_ofNat hc)
  have hsolid : (Text.ofNat n).head?.any isBlankChar = false := by
    cases hhead : (Text.ofNat n).head? with
    | none => rfl
    | some c => exact Text.isSolid_ofNat n c (List.mem_of_mem_head? hhead)
  have hpart := partAt?_digits Nat.toDigits_ne_nil hdigits (end?_opening_last hsolid)
  exact Cursor.findSome?_allFrom (w := []) [] (by simp) hpart

theorem lastCount?_lastQuestion (n : Nat) : lastCount? (lastQuestion n) =
    if integerDigitLimit < (Text.ofNat n).length then .error (.tooManyDigits (Text.ofNat n).length)
    else .ok (some n) := by
  have hplain : (Text.ofNat n).map Decimal.plainDigit = Text.ofNat n := Decimal.map_plainDigit_ofInt n
  unfold lastCount?
  rw [lastDigits?_lastQuestion]
  dsimp only
  rw [hplain, Text.natOfDigits_ofNat]

theorem strip_lastQuestion (n : Nat) : (lastQuestion n).strip = lastQuestion n :=
  Text.strip_append_of_isSolid (by decide) (by decide) (Text.isSolid_ofNat n) Nat.toDigits_ne_nil

end Search
namespace Snapshot

variable {source : Dataset} {s : Snapshot} {p : Plan} {result : Result}

theorem column?_of_build (hs : build source = .ok s) : Recency.column? s.columns = Recency.dateColumn? s.columns := by
  rw [Recency.column?_eq_columnUnder]
  exact Recency.columnUnder_eq_dateColumn? Text.similarity fun _ => isName_of_build hs

theorem class_of_dateColumn? (hs : build source = .ok s) {column : Text}
    (hcolumn : Recency.dateColumn? s.columns = some column) :
    column ∈ s.columns ∧ ColumnClass.ofName column = .date := by
  obtain ⟨hmem, hcontains⟩ := Recency.of_dateColumn? hcolumn
  exact ⟨hmem, (ColumnClass.ofName_eq_date_iff (isName_of_build hs hmem)).mpr hcontains⟩

/-- The records of a snapshot always have an order by date. -/
theorem sort_eq_newestFirst (hs : build source = .ok s)
    (hfree : ∀ column ∈ Recency.dateColumn? s.columns, Shadow.parsed.field column ∉ s.columns)
    {hits : List Hit} (hhits : ∀ hit ∈ hits, hit.1 ∈ s.records) :
    Recency.sort s.columns hits = .ok (Recency.newestFirst s.columns hits) := by
  have hcolumn := column?_of_build hs
  unfold Recency.newestFirst
  cases hdate : Recency.dateColumn? s.columns with
  | none =>
    unfold Recency.sort
    rw [hcolumn, hdate]
  | some column =>
    rw [hdate] at hcolumn
    apply Recency.sort_eq_mergeSort hcolumn
    intro hit hhit
    obtain ⟨hmem, hclass⟩ := class_of_dateColumn? hs hdate
    exact Record.timeAt_eq_dateIn? (isLoaded_of_build hs (hhits hit hhit)) hmem hclass (hfree column hdate)

def satisfies (s : Snapshot) (p : Plan) (hit : Hit) : Bool :=
  Condition.allHold s.columns (p.conditions s.columns) hit.1 == .ok true

theorem select_eq_filter {selected : List Hit} (h : s.select (p.conditions s.columns) = .ok selected) :
    selected = s.hits.filter (s.satisfies p) := by
  refine selectM_eq_filter h fun hit _ b hb => ?_
  rw [satisfies, hb]
  cases b <;> rfl

theorem fst_mem_of_mem_hits {hit : Hit} (h : hit ∈ s.hits) : hit.1 ∈ s.records :=
  List.fst_mem_of_mem_zipIdx h

/-- A plan for the last action keeps the first record of the order that satisfies its conditions, and
counts all that do. -/
theorem execute_lastAction (hs : build source = .ok s)
    (hfree : ∀ column ∈ Recency.dateColumn? s.columns, Shadow.parsed.field column ∉ s.columns)
    (hintent : p.intent = .lastAction) :
    (Succeeds (s.execute p) ↔ s.CanSelect (p.conditions s.columns)) ∧
    ∀ result, s.execute p = .ok result →
      result.hits = ((Recency.newestFirst s.columns s.hits).find? (s.satisfies p)).toList ∧
      result.total = s.hits.countP (s.satisfies p) := by
  have hkeep {selected : List Hit} (hselected : s.select (p.conditions s.columns) = .ok selected) :
      s.keep p.intent selected =
        .ok ((Recency.newestFirst s.columns s.hits).find? (s.satisfies p)).toList := by
    have hfilter := select_eq_filter hselected
    have hsort : Recency.sort s.columns selected = .ok (Recency.newestFirst s.columns selected) := by
      apply sort_eq_newestFirst hs hfree
      intro hit hhit
      rw [hfilter] at hhit
      exact fst_mem_of_mem_hits (List.mem_of_mem_filter hhit)
    rw [keep, if_pos hintent, hsort, hfilter, ← Recency.filter_newestFirst s.pairwise_hits,
      ← List.head?_filter, ← List.take_one]
    rfl
  constructor
  · rw [← succeeds_select_iff]
    constructor
    · rintro ⟨result, h⟩
      obtain ⟨selected, hits, hselected, -⟩ := execute_eq_ok_iff.mp h
      exact ⟨selected, hselected⟩
    · rintro ⟨selected, hselected⟩
      exact ⟨_, execute_eq_ok_iff.mpr ⟨selected, _, hselected, hkeep hselected, rfl⟩⟩
  · intro result h
    obtain ⟨selected, hits, hselected, hhits, rfl⟩ := execute_eq_ok_iff.mp h
    rw [hkeep hselected] at hhits
    constructor
    · exact (Except.ok.inj hhits).symm
    · rw [List.countP_eq_length_filter, ← select_eq_filter hselected]

theorem search_lastQuestion (hs : build source = .ok s)
    (hfree : ∀ column ∈ Recency.dateColumn? s.columns, Shadow.parsed.field column ∉ s.columns) {n : Nat}
    (hpos : 1 ≤ n) (hlimit : n < 10 ^ integerDigitLimit) :
    ∃ found, s.search (Search.lastQuestion n) false = .ok found ∧
      found.hits = (Recency.newestFirst s.columns s.hits).take (min n s.records.length) := by
  have hsort := sort_eq_newestFirst hs hfree fun _ => fst_mem_of_mem_hits
  have hlength : (Recency.newestFirst s.columns s.hits).length = s.records.length := by
    rw [Recency.length_sort hsort, hits, List.length_zipIdx]
  have hshort := Text.not_lt_length_ofNat hlimit
  obtain ⟨k, rfl⟩ := Nat.exists_eq_add_of_le' hpos
  have hcount : Search.lastCount? (Search.lastQuestion (k + 1)) = .ok (some (k + 1)) := by
    rw [Search.lastCount?_lastQuestion, if_neg hshort]
  have hsearch : s.search (Search.lastQuestion (k + 1)) false = .ok {
      mode := some .lastN
      hits := (Recency.newestFirst s.columns s.hits).take (k + 1)
      description := Text.concat ["the ", Text.ofNat (k + 1), " most recent records"] } := by
    change s.searchStrict (Search.lastQuestion (k + 1)).strip = _
    rw [Search.strip_lastQuestion]
    refine bind_eq_ok_iff.mpr ⟨some (k + 1), hcount, ?_⟩
    exact bind_eq_ok_iff.mpr ⟨_, hsort, rfl⟩
  refine ⟨_, hsearch, ?_⟩
  rw [← hlength, List.take_eq_take_iff]
  omega

/-- A number with more digits than can be read is an error. -/
theorem search_lastQuestion_of_le {n : Nat} (hlimit : 10 ^ integerDigitLimit ≤ n) :
    s.search (Search.lastQuestion n) false = .error (.tooManyDigits (Text.ofNat n).length) := by
  have hlong := Text.lt_length_ofNat hlimit
  change s.searchStrict (Search.lastQuestion n).strip = _
  rw [Search.strip_lastQuestion]
  unfold searchStrict
  rw [Search.lastCount?_lastQuestion, if_pos hlong]
  rfl

/-- The records of a snapshot in their order by date: the column that gives it, whatever likeness is, the
order of any of them, the newest one that satisfies a plan, and some number of newest ones. -/
theorem newest_in_order (hs : build source = .ok s)
    (hfree : ∀ column ∈ Recency.dateColumn? s.columns, Shadow.parsed.field column ∉ s.columns) :
    (∀ likeness, Recency.columnUnder likeness s.columns = Recency.dateColumn? s.columns) ∧
    (∀ column ∈ Recency.dateColumn? s.columns, ∀ r ∈ s.records, (r.get column).date? = .ok (r.dateIn? column)) ∧
    (∀ given : List Hit, (∀ hit ∈ given, hit.1 ∈ s.records) →
      ∃ sorted, Recency.sort s.columns given = .ok sorted ∧ Recency.IsOrder s.columns given sorted) ∧
    ∃ newest, Recency.sort s.columns s.hits = .ok newest ∧
      (∀ p : Plan, p.intent = .lastAction →
        (Succeeds (s.execute p) ↔ s.CanSelect (p.conditions s.columns)) ∧
        ∀ result, s.execute p = .ok result →
          result.hits = (newest.find? (s.satisfies p)).toList ∧ result.total = s.hits.countP (s.satisfies p)) ∧
      ∀ n, 1 ≤ n →
        (n < 10 ^ integerDigitLimit → ∃ found, s.search (Search.lastQuestion n) false = .ok found ∧
          found.hits = newest.take (min n s.records.length)) ∧
        (10 ^ integerDigitLimit ≤ n →
          s.search (Search.lastQuestion n) false = .error (.tooManyDigits (Text.ofNat n).length)) := by
  refine ⟨fun likeness => ?_, fun column hcolumn r hr => ?_, fun given hgiven => ?_, ?_⟩
  · exact Recency.columnUnder_eq_dateColumn? likeness fun _ => isName_of_build hs
  · obtain ⟨hmem, hclass⟩ := class_of_dateColumn? hs hcolumn
    exact Record.date?_eq_dateIn? (isLoaded_of_build hs hr) hmem hclass
  · exact ⟨_, sort_eq_newestFirst hs hfree hgiven, Recency.isOrder_newestFirst s.columns given⟩
  · refine ⟨_, sort_eq_newestFirst hs hfree fun _ => fst_mem_of_mem_hits, fun p hintent => ?_, fun n hpos => ?_⟩
    · exact execute_lastAction hs hfree hintent
    · exact ⟨search_lastQuestion hs hfree hpos, search_lastQuestion_of_le⟩

/-- Three call-outs, the second without a date and the last the newest. -/
def callOuts : Dataset where
  header := ["Site", "Report Date"]
  rows := [.list ["North", "2024-03-05"], .list ["South", "soon"], .list ["East", "2024-06-01"]]
  name := "callOuts"

theorem newest_in_order_callOuts : ∃ s newest found, build callOuts = .ok s ∧
    (∀ column ∈ Recency.dateColumn? s.columns, Shadow.parsed.field column ∉ s.columns) ∧
    Recency.dateColumn? s.columns = some "Report Date" ∧
    s.records.map (fun r : Record => (r.dateIn? "Report Date").map Date.month) = [some 3, none, some 6] ∧
    Recency.sort s.columns s.hits = .ok newest ∧ Recency.IsOrder s.columns s.hits newest ∧
    s.search (Search.lastQuestion 2) false = .ok found ∧ found.hits = newest.take (min 2 s.records.length) := by
  have hrun : (do
      let s ← build callOuts
      return s.columns == ["Site", "Report Date"] && Recency.dateColumn? s.columns == some "Report Date" &&
        s.records.map (fun r : Record => (r.dateIn? "Report Date").map Date.month) == [some 3, none, some 6]) =
        .ok true := by
    decide +kernel
  obtain ⟨s, hs, hrun⟩ := bind_eq_ok_iff.mp hrun
  have hfacts := Except.ok.inj hrun
  simp only [Bool.and_eq_true, beq_iff_eq] at hfacts
  obtain ⟨⟨hcolumns, hcolumn⟩, hdates⟩ := hfacts
  have hfree : ∀ column ∈ Recency.dateColumn? s.columns, Shadow.parsed.field column ∉ s.columns := by
    rw [hcolumns]
    decide
  obtain ⟨-, -, horder, newest, hnewest, -, hlast⟩ := newest_in_order hs hfree
  obtain ⟨sorted, hsorted, hisOrder⟩ := horder s.hits fun _ => fst_mem_of_mem_hits
  obtain rfl := Except.ok.inj (hsorted.symm.trans hnewest)
  have hlimit : 2 < 10 ^ integerDigitLimit :=
    Nat.lt_of_lt_of_le (by decide : 2 < 10 ^ 1) (Nat.pow_le_pow_right (by decide) (by decide))
  obtain ⟨found, hfound, hhits⟩ := (hlast 2 (by decide)).1 hlimit
  exact ⟨s, sorted, found, hs, hfree, hcolumn, hdates, hsorted, hisOrder, hfound, hhits⟩

/-- There is one record, and it is asked for by a number that cannot be read. -/
theorem last_of_many_fails : ∃ s, build { callOuts with rows := [.list ["North", "2024-03-05"]] } = .ok s ∧
    (∀ column ∈ Recency.dateColumn? s.columns, Shadow.parsed.field column ∉ s.columns) ∧
    ¬ Succeeds (s.search (Search.lastQuestion (10 ^ integerDigitLimit)) false) := by
  have hrun : (do
      let s ← build { callOuts with rows := [.list ["North", "2024-03-05"]] }
      return decide (∀ column ∈ Recency.dateColumn? s.columns, Shadow.parsed.field column ∉ s.columns)) =
        .ok true := by
    decide +kernel
  obtain ⟨s, hs, hrun⟩ := bind_eq_ok_iff.mp hrun
  have hfree := of_decide_eq_true (Except.ok.inj hrun)
  refine ⟨s, hs, hfree, ?_⟩
  rw [search_lastQuestion_of_le (Nat.le_refl _)]
  exact Succeeds.not_error

end Snapshot
end AskTable
