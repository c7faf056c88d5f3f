import AskTable.Proofs.Record
import AskTable.Proofs.Text
import AskTable.Query.Matching
import Mathlib.Data.List.Infix

/-! What a condition says of one cell. The engine decides conditions on records by derived fields; on
every loaded record it decides them as the cell of the condition's own column alone demands. -/
namespace AskTable

/-- A reading has a result, and the result has a property. -/
def Reads {α : Type} (x : Except Fault (Option α)) (p : α → Prop) : Prop :=
  ∃ a, x = .ok (some a) ∧ p a

namespace Reads

variable {α : Type} {p : α → Prop} {a : α} {fault : Fault}

@[simp] theorem some_iff : Reads (.ok (some a)) p ↔ p a := by
  simp [Reads]

@[simp] theorem not_none : ¬ Reads (.ok none) p := by
  simp [Reads]

@[simp] theorem not_error : ¬ Reads (.error fault) p := by
  simp [Reads]

instance (x : Except Fault (Option α)) [DecidablePred p] : Decidable (Reads x p) :=
  match x with
  | .ok (some a) => decidable_of_iff (p a) some_iff.symm
  | .ok none => isFalse not_none
  | .error _ => isFalse not_error

end Reads

namespace Value

/-- The texts by which a cell is found in a column of a class: its own in small form, and in a column of
dates the ISO form of its date, or fixed words where it has content but no date. -/
def forms (kind : ColumnClass) (v : Value) : List Text :=
  v.cellText.lower ::
    if kind = .date ∧ v.isBlank = false then
      match v.date? with
      | .ok (some d) => [d.iso]
      | .ok none => ["invalid date"]
      | .error _ => []
    else []

theorem date?_of_isBlank {v : Value} (h : v.isBlank = true) : v.date? = .ok none := by
  cases v with
  | text t =>
    have ht : t.strip = [] := Text.strip_eq_nil_of_isBlank h
    simp only [date?, ht]
    rfl
  | float x =>
    obtain rfl : x = .nan := by simpa [isBlank, isMissing] using h
    rfl
  | null | list items => rfl
  | bool b | int n | date d | moment m | dict entries => simp [isBlank, isMissing] at h

end Value

def Operator.Accepts (operator : Operator) (kind : ColumnClass) (operand v : Value) : Prop :=
  match operator with
  | .contains => ∃ t ∈ v.forms kind, operand.cellText.lower <:+: t
  | .equals => operand.cellText.lower ∈ v.forms kind
  | .startsWith => ∃ t ∈ v.forms kind, operand.cellText.lower <+: t
  | .endsWith => ∃ t ∈ v.forms kind, operand.cellText.lower <:+ t
  | .month => Reads v.date? fun d => Reads operand.monthNumber? fun n => n = d.month
  | .year => Reads v.date? fun d => Reads operand.number? fun n => n.truncate = d.year
  | .greaterThan => Reads v.number? fun a => Reads operand.number? fun b => b.below a = true
  | .lessThan => Reads v.number? fun a => Reads operand.number? fun b => a.below b = true
  | .isEmpty => v.isBlank = true
  | .isNotEmpty => v.isBlank = false

instance (operator : Operator) (kind : ColumnClass) (operand v : Value) :
    Decidable (operator.Accepts kind operand v) :=
  match operator with
  | .contains => inferInstanceAs (Decidable (∃ t ∈ v.forms kind, operand.cellText.lower <:+: t))
  | .equals => inferInstanceAs (Decidable (operand.cellText.lower ∈ v.forms kind))
  | .startsWith => inferInstanceAs (Decidable (∃ t ∈ v.forms kind, operand.cellText.lower <+: t))
  | .endsWith => inferInstanceAs (Decidable (∃ t ∈ v.forms kind, operand.cellText.lower <:+ t))
  | .month => inferInstanceAs
      (Decidable (Reads v.date? fun d => Reads operand.monthNumber? fun n => n = d.month))
  | .year => inferInstanceAs
      (Decidable (Reads v.date? fun d => Reads operand.number? fun n => n.truncate = d.year))
  | .greaterThan => inferInstanceAs
      (Decidable (Reads v.number? fun a => Reads operand.number? fun b => b.below a = true))
  | .lessThan => inferInstanceAs
      (Decidable (Reads v.number? fun a => Reads operand.number? fun b => a.below b = true))
  | .isEmpty => inferInstanceAs (Decidable (v.isBlank = true))
  | .isNotEmpty => inferInstanceAs (Decidable (v.isBlank = false))

def Condition.Accepts (c : Condition) (r : Record) : Prop :=
  c.operator.Accepts (ColumnClass.ofName c.field) c.operand (r.get c.field)

instance (c : Condition) (r : Record) : Decidable (c.Accepts r) :=
  inferInstanceAs (Decidable (c.operator.Accepts _ _ _))

namespace Record

variable {columns : List Text} {r : Record} {field : Text}

theorem isDateColumn_iff (hfield : field ∈ columns) :
    Snapshot.isDateColumn columns field = true ↔ ColumnClass.ofName field = .date := by
  simp [Snapshot.isDateColumn, hfield]

/-- In a column of dates, the derived date and the derived text are those of the cell. -/
theorem exists_reading (hr : r.IsLoaded columns) (hfield : field ∈ columns)
    (hdate : ColumnClass.ofName field = .date) :
    ∃ reading, DateReading.ofCell (r.get field) = .ok reading ∧
      (Shadow.parsed.field field ∉ columns →
        r.get? (Shadow.parsed.field field) = some reading.parsed) ∧
      (Shadow.formatted.field field ∉ columns →
        r.get? (Shadow.formatted.field field) = some (.text reading.formatted)) := by
  obtain ⟨entries, hentries, hfields⟩ := hr.derived field hfield
  rw [hdate] at hentries
  obtain ⟨reading, hreading, rfl⟩ := map_eq_ok_iff.mp hentries
  exact ⟨reading, hreading, fun h => hfields .parsed _ (by simp) h,
    fun h => hfields .formatted _ (by simp) h⟩

/-- Outside the columns of dates there is no derived date. -/
theorem get?_parsed_eq_none (hr : r.IsLoaded columns) (hdate : ColumnClass.ofName field ≠ .date)
    (hfree : Shadow.parsed.field field ∉ columns) : r.get? (Shadow.parsed.field field) = none := by
  refine hr.absent _ hfree fun column _ s hs heq => ?_
  obtain ⟨rfl, rfl⟩ := Shadow.field_inj.mp heq
  cases hkind : ColumnClass.ofName field with
  | date => exact hdate hkind
  | identifier | freeText | other => simp [hkind, ColumnClass.shadows] at hs

/-- Whatever else a field is searched by, it is searched by its own text. -/
theorem textsAt_eq_cons (columns : List Text) (r : Record) (field : Text) :
    r.textsAt columns field = (r.get field).cellText.lower :: (r.textsAt columns field).tail := by
  unfold textsAt
  dsimp only
  split_ifs
  · split
    · split_ifs <;> rfl
    · rfl
  · rfl

theorem tail_textsAt_eq_nil (h : Snapshot.isDateColumn columns field = false) :
    (r.textsAt columns field).tail = [] := by
  simp [textsAt, h]

theorem textsAt_eq_forms (hr : r.IsLoaded columns) (hfield : field ∈ columns)
    (hfree : Shadow.formatted.field field ∉ columns) :
    r.textsAt columns field = (r.get field).forms (ColumnClass.ofName field) := by
  by_cases hdate : ColumnClass.ofName field = .date
  · obtain ⟨reading, hreading, -, hformatted⟩ := exists_reading hr hfield hdate
    have hget : r.get (Shadow.formatted.field field) = .text reading.formatted := by
      simp [get, hformatted hfree]
    simp only [textsAt, (isDateColumn_iff hfield).mpr hdate, if_true, hget, Value.forms, hdate,
      true_and]
    unfold DateReading.ofCell at hreading
    split_ifs at hreading with hblank
    · obtain rfl := Except.ok.inj hreading
      simp [hblank]
    · obtain ⟨date, hcell, rfl⟩ := map_eq_ok_iff.mp hreading
      cases date with
      | some d => simp [hblank, hcell, Date.iso_ne_nil]
      | none =>
        have hwords : DateReading.invalid.lower = ("invalid date" : Text) := by decide
        have hfilled : DateReading.invalid ≠ [] := by decide
        simp [hblank, hcell, hwords, hfilled]
  · have hcolumn : Snapshot.isDateColumn columns field = false := by
      rw [Bool.eq_false_iff, Ne, isDateColumn_iff hfield]
      exact hdate
    simp [textsAt, hcolumn, Value.forms, hdate]

private theorem dateAt_eq_date? (hr : r.IsLoaded columns) (hfield : field ∈ columns)
    (hfree : Shadow.parsed.field field ∉ columns) :
    r.dateAt columns field = (r.get field).date? := by
  by_cases hdate : ColumnClass.ofName field = .date
  · obtain ⟨reading, hreading, hparsed, -⟩ := exists_reading hr hfield hdate
    unfold DateReading.ofCell at hreading
    simp only [dateAt, timeAt, hparsed hfree, (isDateColumn_iff hfield).mpr hdate, if_true]
    split_ifs at hreading with hblank
    · obtain rfl := Except.ok.inj hreading
      rw [Value.date?_of_isBlank hblank]
      rfl
    · obtain ⟨date, hcell, rfl⟩ := map_eq_ok_iff.mp hreading
      rw [hcell]
      cases date <;> rfl
  · simp only [dateAt, timeAt, get?_parsed_eq_none hr hdate hfree]
    cases (r.get field).date? with
    | error fault => rfl
    | ok date => cases date <;> rfl

end Record

namespace Condition

variable {columns : List Text} {c : Condition} {r : Record}

/-- On a loaded record, a condition that is decided is decided by the cell of its column. -/
theorem holds_eq_accepts (hr : r.IsLoaded columns) (hfield : c.field ∈ columns)
    (hparsed : Shadow.parsed.field c.field ∉ columns)
    (hformatted : Shadow.formatted.field c.field ∉ columns) {b : Bool}
    (h : c.holds columns r = .ok b) : b = decide (c.Accepts r) := by
  have htexts := Record.textsAt_eq_forms hr hfield hformatted
  have hdate := Record.dateAt_eq_date? hr hfield hparsed
  obtain ⟨field, operator, operand⟩ := c
  rw [Bool.eq_iff_iff, decide_eq_true_iff]
  unfold holds at h
  cases operator with
  | contains | equals | startsWith | endsWith =>
    obtain rfl := Except.ok.inj h
    dsimp only at htexts ⊢
    simp [htexts, compareTexts, Text.contains_eq_true_iff, Text.startsWith_eq_true_iff,
      Text.endsWith_eq_true_iff, Accepts, Operator.Accepts]
  | month | year =>
    obtain ⟨date, hcell, h⟩ := bind_eq_ok_iff.mp h
    rw [hdate] at hcell
    unfold Accepts Operator.Accepts
    cases date with
    | none =>
      obtain rfl := Except.ok.inj h
      simp [hcell]
    | some d =>
      obtain ⟨n, hn, h⟩ := bind_eq_ok_iff.mp h
      obtain rfl := Except.ok.inj h
      cases n <;> simp [hcell, hn]
  | greaterThan | lessThan =>
    obtain ⟨cell, hcell, h⟩ := bind_eq_ok_iff.mp h
    obtain ⟨bound, hbound, h⟩ := bind_eq_ok_iff.mp h
    obtain rfl := Except.ok.inj h
    unfold Accepts Operator.Accepts
    cases cell <;> cases bound <;> simp [hcell, hbound, isBelow]
  | isEmpty =>
    obtain rfl := Except.ok.inj h
    rfl
  | isNotEmpty =>
    obtain rfl := Except.ok.inj h
    simp [Accepts, Operator.Accepts]

end Condition
end AskTable
