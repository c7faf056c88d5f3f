import AskTable.Proofs.DecimalText
import AskTable.Proofs.Placement
import AskTable.Proofs.Reordering

/-! Commas in numbers. All commas of a text are left out before it is read as a number, wherever they stand: a
number with thousands separators is read, and so is any other text that is a numeral without its commas. -/
namespace AskTable

/-- A number with thousands separators as it is written: up to three digits, groups of three digits with a comma
before each, and behind them perhaps a fraction and a power of ten. -/
structure GroupedText where
  sign : Sign
  first : Text
  groups : List Text
  fraction : Option (Option DigitRun)
  power : Option Power
  first_digits : ∀ c ∈ first, isAsciiDigit c = true
  first_length : 1 ≤ first.length ∧ first.length ≤ 3
  groups_ne_nil : groups ≠ []
  groups_digits : ∀ g ∈ groups, g.length = 3 ∧ ∀ c ∈ g, isAsciiDigit c = true

def Text.withoutCommas (t : Text) : Text :=
  t.filter (· != ',')

namespace GroupedText

variable {g : GroupedText}

def fractionText : Option (Option DigitRun) → Text
  | none => []
  | some f => '.' :: DigitRun.optionText f

def text (g : GroupedText) : Text :=
  g.sign.text ++ (g.first ++ (g.groups.flatMap (',' :: ·) ++ (fractionText g.fraction ++ Power.text g.power)))

private theorem digits_ne_nil (g : GroupedText) : g.first ++ g.groups.flatten ≠ [] := by
  obtain ⟨hone, -⟩ := g.first_length
  rw [ne_eq, List.append_eq_nil_iff, not_and]
  intro hnone
  rw [hnone] at hone
  cases hone

private theorem isAsciiDigit_of_mem {c : Char} (hc : c ∈ g.first ++ g.groups.flatten) : isAsciiDigit c = true := by
  rcases List.mem_append.mp hc with hc | hc
  · exact g.first_digits c hc
  · obtain ⟨group, hgroup, hc⟩ := List.mem_flatten.mp hc
    exact (g.groups_digits group hgroup).2 c hc

def digits (g : GroupedText) : DigitRun :=
  ⟨g.first ++ g.groups.flatten, .of_all g.digits_ne_nil fun _ hc => isAsciiDigit_of_mem hc⟩

def numeral (g : GroupedText) : Numeral where
  sign := g.sign
  mantissa := match g.fraction with
    | none => .whole g.digits
    | some f => .pointed g.digits f
  power := g.power

/-- No comma stands among the characters of numerals. -/
theorem not_mem_of_chars {t : Text} (h : ∀ c ∈ t, c ∈ Numeral.chars) : ',' ∉ t := by
  intro hmem
  exact (Numeral.of_mem_chars _ (h _ hmem)).2.1 rfl

end GroupedText

namespace Text

variable {t u : Text}

theorem withoutCommas_append : withoutCommas (t ++ u) = t.withoutCommas ++ u.withoutCommas :=
  List.filter_append ..

theorem withoutCommas_of_not_mem (h : ',' ∉ t) : t.withoutCommas = t := by
  apply List.filter_eq_self.mpr
  intro c hc
  have hne : c ≠ ',' := fun heq => h (heq ▸ hc)
  simpa using hne

end Text

namespace GroupedText

variable {g : GroupedText}

private theorem withoutCommas_groups {groups : List Text} (h : ∀ g ∈ groups, ∀ c ∈ g, isAsciiDigit c = true) :
    Text.withoutCommas (groups.flatMap (',' :: ·)) = groups.flatten := by
  induction groups with
  | nil => rfl
  | cons g groups ih =>
    obtain ⟨hg, hgroups⟩ := List.forall_mem_cons.mp h
    have hfree : ',' ∉ g := not_mem_of_chars fun c hc => Numeral.mem_chars_of_isAsciiDigit (hg c hc)
    have hcomma : Text.withoutCommas (',' :: g) = g.withoutCommas := rfl
    rw [List.flatMap_cons, Text.withoutCommas_append, hcomma, Text.withoutCommas_of_not_mem hfree, ih hgroups,
      List.flatten_cons]

/-- Without commas, a number with thousands separators is one without. -/
theorem withoutCommas_text (g : GroupedText) : g.text.withoutCommas = g.numeral.text := by
  have hsign : ',' ∉ g.sign.text := not_mem_of_chars fun _ hc => Numeral.mem_chars_of_sign hc
  have hfirst : ',' ∉ g.first :=
    not_mem_of_chars fun c hc => Numeral.mem_chars_of_isAsciiDigit (g.first_digits c hc)
  have hpower : ',' ∉ Power.text g.power := not_mem_of_chars fun _ hc => Numeral.mem_chars_of_power hc
  have hfraction : ',' ∉ fractionText g.fraction := by
    cases g.fraction with
    | none => exact List.not_mem_nil
    | some f =>
      have hdigits : ',' ∉ DigitRun.optionText f :=
        not_mem_of_chars fun _ hc => Numeral.mem_chars_of_optionDigits hc
      simp [fractionText, hdigits]
  have hgroups := withoutCommas_groups fun group hgroup => (g.groups_digits group hgroup).2
  rw [text]
  simp only [Text.withoutCommas_append]
  rw [Text.withoutCommas_of_not_mem hsign, Text.withoutCommas_of_not_mem hfirst, hgroups,
    Text.withoutCommas_of_not_mem hfraction, Text.withoutCommas_of_not_mem hpower]
  unfold numeral Numeral.text
  cases g.fraction with
  | none => simp [fractionText, Mantissa.text, digits]
  | some f => simp [fractionText, Mantissa.text, digits]

private theorem five_le_length_text (g : GroupedText) : 5 ≤ g.text.length := by
  obtain ⟨group, rest, hgroups⟩ := List.exists_cons_of_ne_nil g.groups_ne_nil
  obtain ⟨hlength, -⟩ := g.groups_digits group (by simp [hgroups])
  obtain ⟨hone, -⟩ := g.first_length
  simp only [text, hgroups, List.flatMap_cons, List.length_append, List.length_cons]
  omega

end GroupedText

namespace Text

variable {t : Text}

/-- The text is a number with thousands separators, apart from blanks at its ends and the script of its digits. -/
def IsGrouped (t : Text) : Prop :=
  ∃ g : GroupedText, t.strip.map Decimal.plainDigit = g.text

/-- The text is a numeral, apart from blanks around it and the script of its digits, and the number that it means
is not too large for a finite value. -/
def IsFiniteNumeral (t : Text) : Prop :=
  ∃ n : Numeral, (trim Decimal.isMargin t).map Decimal.plainDigit = n.text ∧ n.decimal.toBinary.isFinite = true

end Text

namespace Value

variable {t : Text}

theorem number?_text_eq (t : Text) : (text t).number? = .ok (Number.ofText? t.strip.withoutCommas) := by
  unfold number?
  dsimp only
  split_ifs with hblank
  · rw [Text.strip_eq_nil_of_isBlank hblank]
    rfl
  · rfl

/-- A text is taken for a number exactly if it is a numeral when all of its commas are left out. -/
theorem exists_number?_text_iff :
    (∃ n, (text t).number? = .ok (some n)) ↔ t.strip.withoutCommas.IsFiniteNumeral := by
  rw [number?_text_eq]
  simp only [Except.ok.injEq]
  exact Number.exists_ofText?_iff

theorem numeral?_isSome_iff : (text t).numeral?.isSome = true ↔ t.strip.withoutCommas.IsFiniteNumeral := by
  rw [← exists_number?_text_iff, Option.isSome_iff_exists, numeral?, number?_text_eq]
  simp

end Value

namespace Text

variable {t : Text}

theorem digitValue?_of_isBlankChar {c : Char} (h : isBlankChar c = true) : digitValue? c = none := by
  by_contra hdigit
  obtain ⟨d, hd⟩ := Option.ne_none_iff_exists'.mp hdigit
  obtain ⟨hten, first, hzero, hcode⟩ := exists_zero_of_digitValue? hd
  obtain ⟨hascii, hogham, hspaces, -⟩ := apart_of_mem_zeros first hzero
  simp only [isBlankChar, Bool.or_eq_true, Bool.and_eq_true, decide_eq_true_eq, beq_iff_eq] at h
  omega

private theorem plainDigit_of_isMargin {c : Char} (h : Decimal.isMargin c = true) : Decimal.plainDigit c = c := by
  have hblank : isBlankChar c = true := (Bool.and_eq_true_iff.mp h).1
  rw [Decimal.plainDigit, digitValue?_of_isBlankChar hblank]

theorem plainDigit_eq_comma_iff {c : Char} : Decimal.plainDigit c = ',' ↔ c = ',' := by
  have hdigit : ∀ d < 10, Char.ofNat (48 + d) ≠ ',' := by decide
  constructor
  · intro h
    unfold Decimal.plainDigit at h
    split at h
    · next d hd => exact absurd h (hdigit d (exists_zero_of_digitValue? hd).1)
    · exact h
  · rintro rfl
    decide

theorem map_withoutCommas (t : Text) : t.withoutCommas.map Decimal.plainDigit =
    withoutCommas (t.map Decimal.plainDigit) := by
  rw [withoutCommas, withoutCommas, List.filter_map]
  congr 1
  apply List.filter_congr
  intro c _
  rw [Bool.eq_iff_iff]
  simp [plainDigit_eq_comma_iff]

/-- A text that is a number with thousands separators is a numeral without them. -/
theorem isFiniteNumeral_withoutCommas_iff {g : GroupedText} (h : t.strip.map Decimal.plainDigit = g.text) :
    t.strip.withoutCommas.IsFiniteNumeral ↔ g.numeral.decimal.toBinary.isFinite = true := by
  have hplain : t.strip.withoutCommas.map Decimal.plainDigit = g.numeral.text := by
    rw [map_withoutCommas, h, g.withoutCommas_text]
  have htrim : trim Decimal.isMargin t.strip.withoutCommas = t.strip.withoutCommas := by
    apply trim_eq_self
    intro c hc
    have hmem : Decimal.plainDigit c ∈ g.numeral.text := hplain ▸ List.mem_map_of_mem hc
    by_contra hmargin
    have hsame := plainDigit_of_isMargin (Bool.of_not_eq_false hmargin)
    rw [hsame] at hmem
    exact hmargin (Numeral.of_mem_chars c (Numeral.mem_chars_of_mem_text hmem)).2.2.1
  have hread : Decimal.ofText? t.strip.withoutCommas = some g.numeral.decimal :=
    Decimal.ofText?_eq_some_iff.mpr ⟨g.numeral, by rw [htrim, hplain], rfl⟩
  constructor
  · intro h
    obtain ⟨n, htext, hfinite⟩ := h
    have hsame := Decimal.ofText?_eq_some_iff.mpr ⟨n, htext, rfl⟩
    rw [hread] at hsame
    rwa [Option.some.inj hsame]
  · intro hfinite
    exact ⟨g.numeral, by rw [htrim, hplain], hfinite⟩

end Text

namespace Table

variable {header rows : List Value} {body : List (List Value)} {column : Text} {table : Table}

theorem isNumberEntry_iff {columns numeric : List Text} (hnumeric : numericColumns columns body = .ok numeric) :
    isNumberEntry numeric column = true ↔ column ∈ numeric := by
  unfold isNumberEntry
  rw [Bool.and_eq_true, decide_eq_true_eq, List.contains_iff_mem]
  constructor
  · exact fun h => h.2
  · exact fun h => ⟨((mem_numericColumns_iff hnumeric).mp h).1, h⟩

/-- A text stays in a column as it is unless the column is taken for numbers and the text without its commas is a
numeral. -/
theorem kept_of_load (h : load header rows = .ok table) (hbody : Table.body header rows = .ok body)
    (hcolumn : column ∈ Header.columns header) :
    List.Forall₂ (fun cells r => ∀ t : Text, (plainRecord (Header.columns header) cells).get column = .text t →
      (r.get column = .text t ↔ ¬ (TakesForNumbers header rows column ∧ t.strip.withoutCommas.IsFiniteNumeral)))
      body table.records := by
  obtain ⟨numeric, hnumeric, hentries⟩ := entries_of_load h hbody hcolumn
  have hnumbers : numbersOf header rows = .ok numeric := bind_eq_ok_iff.mpr ⟨body, hbody, hnumeric⟩
  refine hentries.imp fun cells r hentry t hcell => ?_
  have htrim : trimCell (.text t) = .text t := by
    rcases get_plainRecord (Header.columns header) cells column with hnone | ⟨v, -, hv⟩
    · rw [hcell] at hnone
      cases hnone
    · rw [← hcell, hv, trimCell_trimCell]
  rw [hentry, hcell, takesForNumbers_iff hnumbers, ← isNumberEntry_iff hnumeric, ← Value.numeral?_isSome_iff]
  unfold entryOf
  cases isNumberEntry numeric column with
  | false => simp [htrim]
  | true =>
    cases (Value.text t).numeral? with
    | none => simp [htrim]
    | some n => cases n <;> simp [Value.ofNumber]

/-- Commas are left out of a text, wherever they stand, before it is read as a number. So a text is a number exactly
if it is a numeral without its commas, and a number with thousands separators is one unless it is too large. That
only thousands separators are accepted holds of the texts that have no other commas and of those that are no
numeral without them. When a table is loaded, just the texts that are numerals without their commas are replaced,
and these only in columns that are taken for numbers. -/
theorem commas_left_out (h : load header rows = .ok table) (hbody : Table.body header rows = .ok body)
    (hcolumn : column ∈ Header.columns header) :
    (∀ t : Text, (Value.text t).number? = .ok (Number.ofText? t.strip.withoutCommas) ∧
      ((∃ n, (Value.text t).number? = .ok (some n)) ↔ t.strip.withoutCommas.IsFiniteNumeral)) ∧
    (∀ (t : Text) (g : GroupedText), t.strip.map Decimal.plainDigit = g.text →
      ((∃ n, (Value.text t).number? = .ok (some n)) ↔ g.numeral.decimal.toBinary.isFinite = true)) ∧
    (∀ t : Text, ((∃ n, (Value.text t).number? = .ok (some n)) → t.IsGrouped) ↔
      t.IsGrouped ∨ ¬ t.strip.withoutCommas.IsFiniteNumeral) ∧
    List.Forall₂ (fun cells r => ∀ t : Text, (plainRecord (Header.columns header) cells).get column = .text t →
      (r.get column = .text t ↔ ¬ (TakesForNumbers header rows column ∧ t.strip.withoutCommas.IsFiniteNumeral)))
      body table.records := by
  refine ⟨fun t => ⟨Value.number?_text_eq t, Value.exists_number?_text_iff⟩, ?_, ?_, kept_of_load h hbody hcolumn⟩
  · intro t g hg
    rw [Value.exists_number?_text_iff, Text.isFiniteNumeral_withoutCommas_iff hg]
  · intro t
    rw [Value.exists_number?_text_iff, imp_iff_or_not]

/-- Lengths with a decimal comma, and grades that are numbers only in part. -/
def beams : Dataset where
  header := ["Size", "Grade"]
  rows := [.list ["3,14", "1,2"], .list ["1,2", "C"]]
  name := "beams"

theorem commas_left_out_beams : ∃ table r r', load beams.header beams.rows = .ok table ∧
    table.records = [r, r'] ∧ r.get "Size" ≠ .text "3,14" ∧ r.get "Grade" = .text "1,2" := by
  have hloads : (load beams.header beams.rows).map (·.records.length) = .ok 2 := by decide +kernel
  obtain ⟨table, htable, hrecords⟩ := map_eq_ok_iff.mp hloads
  have hbody : Table.body beams.header beams.rows =
      .ok [[.text "3,14", .text "1,2"], [.text "1,2", .text "C"]] := by
    rfl
  have hcolumns : Header.columns beams.header = ["Size", "Grade"] := by decide +kernel
  have hnumbers : numbersOf beams.header beams.rows = .ok ["Size"] := by decide +kernel
  have hnumeral : Text.IsFiniteNumeral (Text.withoutCommas (Text.strip "3,14")) :=
    Value.exists_number?_text_iff.mp ⟨.int 314, rfl⟩
  obtain ⟨r, r', hboth⟩ := List.length_eq_two.mp hrecords
  have hmembers : "Size".toList ∈ Header.columns beams.header ∧ "Grade".toList ∈ Header.columns beams.header := by
    rw [hcolumns]
    decide
  obtain ⟨-, -, -, hsizes⟩ := commas_left_out htable hbody hmembers.1
  obtain ⟨-, -, -, hgrades⟩ := commas_left_out htable hbody hmembers.2
  rw [hboth, hcolumns] at hsizes hgrades
  obtain ⟨hsize, -⟩ := List.forall₂_cons.mp hsizes
  obtain ⟨hgrade, -⟩ := List.forall₂_cons.mp hgrades
  refine ⟨table, r, r', htable, hboth, ?_, ?_⟩
  · intro hkept
    exact (hsize "3,14" rfl).mp hkept ⟨⟨["Size"], hnumbers, by decide⟩, hnumeral⟩
  · refine (hgrade "1,2" rfl).mpr fun htaken => ?_
    rw [takesForNumbers_iff hnumbers] at htaken
    exact absurd htaken.1 (by decide)

/-- A list of two numbers is read as one number, and decimal commas are lost. -/
theorem decimal_comma_lost : (Value.text "1,2").number? = .ok (some (.int 12)) ∧ ¬ Text.IsGrouped "1,2" ∧
    (load beams.header beams.rows).map (fun table => table.records.map (·.get? "Size")) =
      .ok [some (.int 314), some (.int 12)] := by
  refine ⟨rfl, ?_, rfl⟩
  intro hgrouped
  obtain ⟨g, hg⟩ := hgrouped
  have hlength := g.five_le_length_text
  rw [← hg] at hlength
  revert hlength
  decide

end Table
end AskTable
