import AskTable.Proofs.CellText
import AskTable.Proofs.Pattern
import AskTable.Proofs.SmallForm

/-! The standard text of a date. It is read back as the date, and no cell in which another date or none is read has
it for its text. So asking for the cells of a date column that equal this text finds the cells with this date,
however they are written. -/
namespace AskTable

namespace Text

variable {width n : Nat} {c : Char}

theorem isAsciiDigit_of_mem_padded (hc : c ∈ padded width n) : isAsciiDigit c = true := by
  rcases List.mem_append.mp hc with hzero | hdigit
  · obtain rfl := List.eq_of_mem_replicate hzero
    decide
  · exact isAsciiDigit_of_mem_ofNat hdigit

theorem length_padded (h : n < 10 ^ width) (hwidth : 0 < width) : (padded width n).length = width := by
  have hshort : (ofNat n).length ≤ width := (Nat.length_toDigits_le_iff (by decide) hwidth).mpr h
  simp only [padded, List.length_append, List.length_replicate]
  omega

/-- Zeros in front do not change the number. -/
theorem natOfDigits_padded (width n : Nat) : natOfDigits (padded width n) = n := by
  have hzeros (k : Nat) (t : Text) : natOfDigits (List.replicate k '0' ++ t) = natOfDigits t := by
    induction k with
    | zero => rfl
    | succ k ih => exact ih
  rw [padded, hzeros, natOfDigits_ofNat]

/-- Two digits for a number below a hundred. -/
theorem exists_padded_two (h : n < 100) : ∃ a b, padded 2 n = [a, b] ∧ isAsciiDigit a = true ∧
    isAsciiDigit b = true ∧ natOfDigits [a, b] = n := by
  have hlength : (padded 2 n).length = 2 := length_padded h (by decide)
  obtain ⟨a, b, hpadded⟩ := List.length_eq_two.mp hlength
  have hdigits : ∀ c ∈ [a, b], isAsciiDigit c = true := fun c hc => isAsciiDigit_of_mem_padded (hpadded ▸ hc)
  have hnumber := natOfDigits_padded 2 n
  rw [hpadded] at hnumber
  exact ⟨a, b, hpadded, hdigits a (by simp), hdigits b (by simp), hnumber⟩

/-- Four digits for a number below ten thousand. -/
theorem exists_padded_four (h : n < 10000) : ∃ a b c d, padded 4 n = [a, b, c, d] ∧
    (∀ e ∈ [a, b, c, d], isAsciiDigit e = true) ∧ natOfDigits [a, b, c, d] = n := by
  have hlength : (padded 4 n).length = 4 := length_padded h (by decide)
  have hnumber := natOfDigits_padded 4 n
  match hpadded : padded 4 n, hlength with
  | [a, b, c, d], _ =>
    rw [hpadded] at hnumber
    exact ⟨a, b, c, d, rfl, fun e he => isAsciiDigit_of_mem_padded (hpadded ▸ he), hnumber⟩

end Text

namespace Date

variable {d d' : Date}

private theorem daysInMonth_le (year month : Nat) : daysInMonth year month ≤ 31 := by
  unfold daysInMonth
  split
  · split_ifs <;> omega
  all_goals omega

private theorem daysInMonth_of_lt {year month : Nat} (h : 12 < month) : daysInMonth year month = 0 := by
  unfold daysInMonth
  split <;> omega

theorem month_le (d : Date) : d.month ≤ 12 := by
  have hday := d.exists_day
  simp only [isDayOfYear, Bool.and_eq_true, decide_eq_true_eq] at hday
  by_contra hlate
  rw [daysInMonth_of_lt (by omega)] at hday
  omega

theorem month_pos (d : Date) : 1 ≤ d.month := by
  have hday := d.exists_day
  simp only [isDayOfYear, Bool.and_eq_true, decide_eq_true_eq] at hday
  by_contra hzero
  have hnone : daysInMonth d.year 0 = 0 := rfl
  rw [Nat.lt_one_iff.mp (Nat.lt_of_not_le hzero), hnone] at hday
  omega

theorem day_le (d : Date) : d.day ≤ 31 := by
  have hday := d.exists_day
  simp only [isDayOfYear, Bool.and_eq_true, decide_eq_true_eq] at hday
  have hmost := daysInMonth_le d.year d.month
  omega

/-- The characters of the standard text of a date. -/
theorem exists_iso (d : Date) : ∃ y₁ y₂ y₃ y₄ m₁ m₂ d₁ d₂,
    d.iso = [y₁, y₂, y₃, y₄, '-', m₁, m₂, '-', d₁, d₂] ∧
    (∀ c ∈ [y₁, y₂, y₃, y₄], isAsciiDigit c = true) ∧ (∀ c ∈ [m₁, m₂, d₁, d₂], isAsciiDigit c = true) ∧
    natOfDigits [y₁, y₂, y₃, y₄] = d.year ∧ natOfDigits [m₁, m₂] = d.month ∧ natOfDigits [d₁, d₂] = d.day := by
  have hyear := d.year_le
  have hmonth := d.month_le
  have hday := d.day_le
  obtain ⟨y₁, y₂, y₃, y₄, hy, hydigits, hynumber⟩ := Text.exists_padded_four (n := d.year) (by omega)
  obtain ⟨m₁, m₂, hm, hm₁, hm₂, hmnumber⟩ := Text.exists_padded_two (n := d.month) (by omega)
  obtain ⟨d₁, d₂, hd, hd₁, hd₂, hdnumber⟩ := Text.exists_padded_two (n := d.day) (by omega)
  refine ⟨y₁, y₂, y₃, y₄, m₁, m₂, d₁, d₂, ?_, hydigits, by simp [hm₁, hm₂, hd₁, hd₂], hynumber, hmnumber, hdnumber⟩
  rw [iso, hy, hm, hd]
  rfl

theorem read?_iso (d : Date) : StandardForm.read? d.iso = some (d.year, d.month, d.day) := by
  obtain ⟨y₁, y₂, y₃, y₄, m₁, m₂, d₁, d₂, hiso, hyear, hrest, hy, hm, hd⟩ := d.exists_iso
  have hdash : isAsciiDigit '-' = false := by decide
  have hall : [y₁, y₂, y₃, y₄].all isAsciiDigit = true := List.all_eq_true.mpr hyear
  simp only [List.forall_mem_cons] at hrest
  obtain ⟨hm₁, hm₂, hd₁, hd₂, -⟩ := hrest
  rw [hiso]
  simp [StandardForm.read?, StandardForm.takePair, StandardForm.read?.readDay, hall, hdash, hm₁, hm₂, hd₁, hd₂, hy, hm,
    hd, d.exists_day]

/-- The standard text has the look of a date, for it begins with four digits. -/
theorem occursIn_iso (d : Date) : shape.occursIn d.iso = true := by
  obtain ⟨y₁, y₂, y₃, y₄, m₁, m₂, d₁, d₂, hiso, hyear, -⟩ := d.exists_iso
  have hdigit : ∀ c ∈ [y₁, y₂, y₃, y₄], isDigitChar c = true := fun c hc =>
    (Decimal.of_mem_plainDigits c (Text.mem_plainDigits_of_isAsciiDigit (hyear c hc))).1
  simp only [List.forall_mem_cons] at hdigit
  obtain ⟨h₁, h₂, h₃, h₄, -⟩ := hdigit
  have hend : ⟨[y₄, y₃, y₂, y₁], ['-', m₁, m₂, '-', d₁, d₂]⟩ ∈ shape.ends ⟨[], d.iso⟩ := by
    apply List.mem_append_left
    simp [hiso, Pattern.times, Pattern.ends, h₁, h₂, h₃, h₄]
  exact Pattern.occursIn_of_mem_ends (u := []) hend

private theorem isSigned_iso (d : Date) : isSigned d.iso = false := by
  obtain ⟨y₁, y₂, y₃, y₄, m₁, m₂, d₁, d₂, hiso, hyear, -⟩ := d.exists_iso
  have hfirst : y₁ ≠ '-' := by
    rintro rfl
    exact absurd (hyear '-' (by simp)) (by decide)
  rw [hiso]
  unfold isSigned
  split
  · next heq => exact absurd (List.cons.inj heq).1 hfirst
  · rfl

/-- The standard text of a date is read as the date. -/
theorem ofText_iso (d : Date) : ofText d.iso = .ok (some d) := by
  have hyear : ¬ d.year = 0 := by
    have hpos := d.year_pos
    omega
  have hspelling : ofSpelling d.iso = .ok (some d) := by
    unfold ofSpelling
    rw [occursIn_iso, isSigned_iso, read?_iso]
    simp [hyear, of?_self]
  unfold ofText
  rw [hspelling]
  rfl

theorem iso_inj : d.iso = d'.iso ↔ d = d' := by
  constructor
  · intro h
    have hread := ofText_iso d
    rw [h, ofText_iso] at hread
    exact (Option.some.inj (Except.ok.inj hread)).symm
  · intro h
    rw [h]

theorem mem_iso {c : Char} (hc : c ∈ d.iso) : c = '-' ∨ isAsciiDigit c = true := by
  have hdash {c : Char} (hc : c ∈ ("-" : Text)) : c = '-' := by simpa using hc
  simp only [iso, List.mem_append] at hc
  rcases hc with (((hc | hc) | hc) | hc) | hc
  · exact .inr (Text.isAsciiDigit_of_mem_padded hc)
  · exact .inl (hdash hc)
  · exact .inr (Text.isAsciiDigit_of_mem_padded hc)
  · exact .inl (hdash hc)
  · exact .inr (Text.isAsciiDigit_of_mem_padded hc)

private theorem toNat_lt_of_mem_iso {c : Char} (hc : c ∈ d.iso) : c.toNat < 97 := by
  have hplain : ∀ c ∈ Text.plainDigits, c.toNat < 97 := by decide
  rcases mem_iso hc with rfl | hdigit
  · decide
  · exact hplain c (Text.mem_plainDigits_of_isAsciiDigit hdigit)

/-- A text with a character of another kind in it, and one that is its own small form, is not the standard text of
a date, also ignoring case. -/
theorem lower_ne_iso {t : Text} {c : Char} (hc : c ∈ t) (hlower : lowerChar c = [c]) (hdash : c ≠ '-')
    (hdigit : isAsciiDigit c = false) : t.lower ≠ d.iso := by
  intro h
  have hmem : c ∈ d.iso := h ▸ Text.mem_lower_of_lowerChar hlower hc
  rcases mem_iso hmem with heq | hplain
  · exact hdash heq
  · rw [hdigit] at hplain
    cases hplain

end Date
namespace Text

variable {t : Text} {c : Char}

/-- A text whose small form has neither small letters nor characters beyond ASCII is its own small form. -/
theorem lower_of_forall_lt (h : ∀ d ∈ t.lower, d.toNat < 97) : t.lower = t := by
  have hafter (before t : Text) (h : ∀ d ∈ lowerAfter before t, d.toNat < 97) : lowerAfter before t = t := by
    induction t generalizing before with
    | nil => rfl
    | cons c rest ih =>
      obtain ⟨form, hform, hlower⟩ := exists_isForm before c rest
      rw [hlower] at h ⊢
      obtain ⟨d, more, hcons⟩ := List.exists_cons_of_ne_nil hform.ne_nil
      have hd : d ∈ form := hcons ▸ List.mem_cons_self
      have hsame : d = c := by
        rcases hform.letter d hd with heq | ⟨hletter, -⟩
        · exact heq
        · have hlow := h d (List.mem_append_left _ hd)
          omega
      have hown : lowerChar c = [c] := hsame ▸ hform.settled d hd
      rw [hform.own hown, ih (c :: before) fun e he => h e (List.mem_append_right _ he)]
      rfl
  exact hafter [] t h

private theorem mem_strip (hc : c ∈ t) (hfilled : isBlankChar c = false) : c ∈ t.strip := by
  have hnone {blanks : Text} (h : blanks.isBlank = true) : c ∉ blanks := fun hmem => by
    rw [List.all_eq_true.mp h c hmem] at hfilled
    cases hfilled
  obtain ⟨lead, trail, heq, hlead, htrail⟩ := t.exists_blank_ends
  have hparts : c ∈ lead ++ t.strip ++ trail := heq ▸ hc
  simpa [hnone hlead, hnone htrail] using hparts

end Text

/-- The text of a floating value has a point or a letter in it. -/
theorem Binary64.exists_mark (x : Binary64) : ∃ c ∈ x.text, c ∈ ['.', 'e', 'n'] := by
  have hbody (m : Nat) (e : Int) : ∃ c ∈ text (.finite false m e), c ∈ ['.', 'e', 'n'] := by
    simp only [text, Bool.false_eq_true, if_false]
    split_ifs
    · exact ⟨'.', by decide, by decide⟩
    · refine ⟨'.', ?_, by decide⟩
      unfold positional
      split_ifs <;> simp
    · refine ⟨'e', ?_, by decide⟩
      simp [scientific]
  cases x with
  | nan => exact ⟨'n', by decide, by decide⟩
  | infinite negative => cases negative <;> exact ⟨'n', by decide, by decide⟩
  | finite negative m e =>
    cases negative with
    | false => exact hbody m e
    | true =>
      obtain ⟨c, hc, hmark⟩ := hbody m e
      exact ⟨c, List.mem_cons_of_mem _ hc, hmark⟩

namespace Value

variable {d : Date} {v : Value}

/-- Only the standard text of a date itself has it for its small form. -/
theorem eq_iso_of_lower {t : Text} (h : t.lower = d.iso) : t = d.iso := by
  rw [← h]
  exact (Text.lower_of_forall_lt fun c hc => Date.toNat_lt_of_mem_iso (h ▸ hc)).symm

private theorem lower_ofInt_ne_iso (n : Int) : (Text.ofInt n).lower ≠ d.iso := by
  intro hlower
  have h := eq_iso_of_lower hlower
  obtain ⟨y₁, y₂, y₃, y₄, m₁, m₂, d₁, d₂, hiso, hyear, -⟩ := d.exists_iso
  rw [hiso] at h
  cases n with
  | ofNat n =>
    have hsame : Text.ofNat n = [y₁, y₂, y₃, y₄, '-', m₁, m₂, '-', d₁, d₂] := h
    have hdash : '-' ∈ Text.ofNat n := by simp [hsame]
    have hdigit := Text.isAsciiDigit_of_mem_ofNat hdash
    cases hdigit
  | negSucc n =>
    obtain rfl : '-' = y₁ := (List.cons.inj h).1
    have hdigit := hyear '-' (by simp)
    cases hdigit

/-- A cell that has the standard text of a date for its text is read as the date. -/
theorem date?_of_lower_cellText (h : v.cellText.lower = d.iso) : v.date? = .ok (some d) := by
  have hfilled : v.isBlank = false := by
    by_contra hblank
    unfold cellText at h
    rw [if_pos (Bool.of_not_eq_false hblank)] at h
    exact d.iso_ne_nil h.symm
  -- A sign that stands in no standard text.
  have hsign {c : Char} (hc : c ∈ v.cellText) (hmark : c ∈ ['.', 'e', 'n', ':', '[', '\x7b']) : False := by
    have hall : ∀ c ∈ ['.', 'e', 'n', ':', '[', '\x7b'], lowerChar c = [c] ∧ c ≠ '-' ∧ isAsciiDigit c = false := by
      decide
    obtain ⟨hlower, hdash, hdigit⟩ := hall c hmark
    exact Date.lower_ne_iso hc hlower hdash hdigit h
  cases v with
  | null => cases hfilled
  | bool b =>
    cases b <;> exact absurd (hsign (c := 'e') (by decide) (by decide)) not_false
  | int n =>
    have hcell : (int n).cellText = Text.ofInt n := by
      simp [cellText, hfilled, shown, quoted, (Text.isSolid_ofInt n).strip_eq]
    rw [hcell] at h
    exact absurd h (lower_ofInt_ne_iso n)
  | float x =>
    cases hint : x.toInt? with
    | some n =>
      have hcell : (float x).cellText = Text.ofInt n := by simp [cellText, hfilled, hint]
      rw [hcell] at h
      exact absurd h (lower_ofInt_ne_iso n)
    | none =>
      have hcell : (float x).cellText = x.text := by simp [cellText, hfilled, hint]
      obtain ⟨c, hc, hmark⟩ := x.exists_mark
      have hmarks : ∀ c ∈ ['.', 'e', 'n'], c ∈ ['.', 'e', 'n', ':', '[', '\x7b'] := by decide
      exact absurd (hsign (hcell ▸ hc) (hmarks c hmark)) not_false
  | text t =>
    rw [cellText_text] at h
    rw [date?, eq_iso_of_lower h, Date.ofText_iso]
  | date e =>
    have hcell : (date e).cellText = e.iso := by
      simp [cellText, hfilled, shown, (Date.isSolid_iso e).strip_eq]
    rw [hcell, Date.lower_iso, Date.iso_inj] at h
    rw [h]
    rfl
  | moment m =>
    by_cases hmidnight : m.isMidnight = true
    · have hcell : (moment m).cellText = m.date.iso := by simp [cellText, hfilled, hmidnight]
      rw [hcell, Date.lower_iso, Date.iso_inj] at h
      rw [← h]
      rfl
    · have hcell : (moment m).cellText = m.iso := by simp [cellText, hfilled, hmidnight]
      have hcolon : ':' ∈ m.iso := by simp [Moment.iso, Moment.isoWith]
      exact absurd (hsign (hcell ▸ hcolon) (by decide)) not_false
  | list items =>
    have hcell : (list items).cellText = (list items).quoted.strip := by simp [cellText, hfilled, shown]
    have hbracket : '[' ∈ (list items).quoted.strip := Text.mem_strip (by simp [quoted]) (by decide)
    exact absurd (hsign (hcell ▸ hbracket) (by decide)) not_false
  | dict entries =>
    have hcell : (dict entries).cellText = (dict entries).quoted.strip := by simp [cellText, hfilled, shown]
    have hbrace : '\x7b' ∈ (dict entries).quoted.strip := Text.mem_strip (by simp [quoted]) (by decide)
    exact absurd (hsign (hcell ▸ hbrace) (by decide)) not_false

/-- In a column of dates, a cell is found by the standard text of a date exactly if this date is read in it. -/
theorem iso_mem_forms_iff : d.iso ∈ v.forms .date ↔ v.date? = .ok (some d) := by
  unfold forms
  rw [List.mem_cons]
  constructor
  · intro h
    rcases h with hown | hread
    · exact date?_of_lower_cellText hown.symm
    · split_ifs at hread
      · split at hread
        · next e he =>
          have hsame := Date.iso_inj.mp (List.mem_singleton.mp hread)
          rw [he, hsame]
        · have hwords : d.iso = "invalid date" := List.mem_singleton.mp hread
          have hletter : 'i' ∈ d.iso := by
            rw [hwords]
            decide
          rcases Date.mem_iso hletter with hdash | hdigit
          · cases hdash
          · cases hdigit
        · cases hread
      · cases hread
  · intro h
    have hfilled : v.isBlank = false := by
      by_contra hblank
      rw [date?_of_isBlank (Bool.of_not_eq_false hblank)] at h
      cases h
    right
    rw [if_pos ⟨rfl, hfilled⟩, h]
    exact List.mem_singleton_self _

end Value

namespace Snapshot

variable {source : Dataset} {s : Snapshot} {column : Text}

/-- In a column of dates, a filter for the standard text of a date finds exactly the records in whose cell this date
is read, however it is written. -/
theorem equals_finds_date_iff (hs : build source = .ok s) (hcolumn : column ∈ s.columns)
    (hkind : ColumnClass.ofName column = .date) (hfree : Shadow.formatted.field column ∉ s.columns) (d : Date) :
    ∀ r ∈ s.records, ∃ found,
      (Condition.toFilter ⟨column, .equals, .text d.iso⟩).admits s.columns r = .ok found ∧
        (found = true ↔ (r.get column).date? = .ok (some d)) := by
  intro r hr
  have hloaded := isLoaded_of_build hs hr
  refine ⟨_, admits_equals _ _ _ _, ?_⟩
  rw [(Date.isSolid_iso d).strip_eq, Date.lower_iso, Record.textsAt_eq_forms hloaded hcolumn hfree, hkind,
    ← Value.iso_mem_forms_iff, List.any_eq_true]
  simp

/-- One day in words, as the number of a sheet and with a time, and another day. -/
def repairDays : Dataset where
  header := ["Repair Date"]
  rows := [.list ["March 5, 2024"], .list [.int 45356], .list ["2024-03-05 14:30"], .list ["2024-03-06"]]
  name := "repairDays"

def fifthOfMarch : Date :=
  ⟨2024, 3, 5, Nat.le_of_ble_eq_true rfl, Nat.le_of_ble_eq_true rfl, rfl⟩

theorem equals_finds_fifth_of_march : ∃ s, build repairDays = .ok s ∧
    s.records.map (fun r =>
      (Condition.toFilter ⟨"Repair Date", .equals, .text fifthOfMarch.iso⟩).admits s.columns r) =
        [.ok true, .ok true, .ok true, .ok false] := by
  have hbuilt : (build repairDays).map (fun s => (s.columns, s.records.map fun r =>
      decide ((r.get "Repair Date").date? = .ok (some fifthOfMarch)))) =
        .ok (["Repair Date"], [true, true, true, false]) := by
    decide +kernel
  obtain ⟨s, hs, hread⟩ := map_eq_ok_iff.mp hbuilt
  obtain ⟨hcolumns, hdates⟩ := Prod.mk.inj hread
  have hmember : "Repair Date".toList ∈ s.columns := by
    rw [hcolumns]
    decide
  have hall := equals_finds_date_iff hs hmember (by decide +kernel) (by rw [hcolumns]; decide) fifthOfMarch
  have hanswers : s.records.map (fun r =>
      (Condition.toFilter ⟨"Repair Date", .equals, .text fifthOfMarch.iso⟩).admits s.columns r) =
      (s.records.map fun r => decide ((r.get "Repair Date").date? = .ok (some fifthOfMarch))).map .ok := by
    rw [List.map_map]
    apply List.map_congr_left
    intro r hr
    obtain ⟨found, hfound, hiff⟩ := hall r hr
    have hanswer : found = decide ((r.get "Repair Date").date? = .ok (some fifthOfMarch)) := by
      rw [Bool.eq_iff_iff, hiff, decide_eq_true_eq]
    rw [hfound, hanswer, Function.comp_apply]
  refine ⟨s, hs, ?_⟩
  rw [hanswers, hdates]
  rfl

end Snapshot
end AskTable
