import AskTable.Proofs.DecimalText
import AskTable.Proofs.Placement
import AskTable.Proofs.Rounding

/-! Whole numbers in cells. A sign and decimal digits are read as the integer that they denote, rounded to 53
significant bits, so long numbers change when a column of them is loaded, and two of them can become one. -/
namespace AskTable

structure WholeText where
  sign : Sign
  digits : Text
  filled : digits ≠ []
  isDigit : ∀ c ∈ digits, isAsciiDigit c = true

namespace WholeText

variable {w w' : WholeText}

def text (w : WholeText) : Text :=
  w.sign.text ++ w.digits

def size (w : WholeText) : Nat :=
  natOfDigits w.digits

def value (w : WholeText) : Int :=
  w.sign.apply w.size

def numeral (w : WholeText) : Numeral :=
  ⟨w.sign, .whole ⟨w.digits, .of_all w.filled w.isDigit⟩, none⟩

theorem text_numeral (w : WholeText) : w.numeral.text = w.text := by
  simp [numeral, Numeral.text, Mantissa.text, Power.text, text]

theorem decimal_numeral (w : WholeText) : w.numeral.decimal = ⟨w.sign.isMinus, w.size, 0⟩ := by
  have hplain : DigitRun.plain ⟨w.digits, .of_all w.filled w.isDigit⟩ = w.digits :=
    DigitRun.plain_of_all w.isDigit
  simp [numeral, Numeral.decimal, Mantissa.front, Mantissa.back, Power.exponent, hplain, size]

/-- No character of a whole number is a blank, a comma or a digit of another script. -/
theorem of_mem_text {c : Char} (hc : c ∈ w.text) :
    isBlankChar c = false ∧ c ≠ ',' ∧ Decimal.isMargin c = false ∧ Decimal.plainDigit c = c := by
  rw [← text_numeral] at hc
  exact Numeral.of_mem_chars c (Numeral.mem_chars_of_mem_text hc)

private theorem text_ne_nil (w : WholeText) : w.text ≠ [] := by
  rw [text, ne_eq, List.append_eq_nil_iff, not_and]
  exact fun _ => w.filled

private theorem plain_text (w : WholeText) : (Text.trim Decimal.isMargin w.text).map Decimal.plainDigit = w.text := by
  have htrim : Text.trim Decimal.isMargin w.text = w.text :=
    Text.trim_eq_self fun c hc => (of_mem_text hc).2.2.1
  have hmap : w.text.map Decimal.plainDigit = w.text.map id :=
    List.map_congr_left fun c hc => (of_mem_text hc).2.2.2
  rw [htrim, hmap, List.map_id]

theorem ofBinary_text (w : WholeText) :
    Binary64.ofText? w.text = some (.ofDecimal w.sign.isMinus w.size 0) := by
  have hread : Decimal.ofText? w.text = some ⟨w.sign.isMinus, w.size, 0⟩ :=
    Decimal.ofText?_eq_some_iff.mpr ⟨w.numeral, by rw [plain_text, text_numeral], decimal_numeral w⟩
  rw [Number.ofBinary_of_decimal hread, Decimal.toBinary]

theorem splitSign_text (w : WholeText) : Decimal.splitSign w.text = (w.sign.isMinus, w.digits) :=
  Decimal.splitSign_text w.sign fun c hc => Decimal.ne_sign (w.isDigit c (List.mem_of_mem_head? hc))

private theorem size_eq_of_text_eq (h : w.text = w'.text) : w.size = w'.size := by
  have hdigits := congrArg (fun t => (Decimal.splitSign t).2) h
  simp only [splitSign_text] at hdigits
  rw [size, size, hdigits]

private theorem isIntegral_text (w : WholeText) : Number.isIntegral w.text = true := by
  have hall : w.digits.all isDigitChar = true := List.all_eq_true.mpr fun c hc =>
    (Decimal.of_mem_plainDigits c (Text.mem_plainDigits_of_isAsciiDigit (w.isDigit c hc))).1
  have hne : w.digits.isEmpty = false := List.isEmpty_eq_false_iff.mpr w.filled
  unfold Number.isIntegral
  rw [splitSign_text]
  dsimp only
  rw [hall, hne]
  rfl

theorem natAbs_value (w : WholeText) : w.value.natAbs = w.size := by
  unfold value Sign.apply
  split_ifs <;> simp

theorem roundInt_value (w : WholeText) : Binary64.roundInt w.value = w.sign.apply (Binary64.roundNat w.size) := by
  by_cases hzero : w.size = 0
  · simp [value, hzero, Sign.apply, Binary64.roundInt, Binary64.roundNat_of_lt]
  have hsign : ((w.size : Nat) : Int).sign = 1 := Int.sign_eq_one_of_pos (by omega)
  rw [Binary64.roundInt, natAbs_value, value, Sign.apply, Sign.apply]
  split_ifs
  · rw [Int.sign_neg, hsign]
    omega
  · rw [hsign]
    omega

/-- A whole number is read as the integer that it denotes, rounded to 53 significant bits. -/
theorem ofText?_text (h : w.size < Binary64.overflowBound) :
    Number.ofText? w.text = some (.int (Binary64.roundInt w.value)) := by
  have hvalue : (Binary64.ofDecimal w.sign.isMinus w.size 0).toInt? = some (Binary64.roundInt w.value) := by
    rw [Binary64.toInt?_ofDecimal_whole h, roundInt_value, Sign.apply]
  have hfinite : (Binary64.ofDecimal w.sign.isMinus w.size 0).isFinite = true := by
    obtain ⟨r, hr, -⟩ := Option.bind_eq_some_iff.mp hvalue
    exact (Binary64.isFinite_eq_true_iff _).mpr ⟨r, hr⟩
  unfold Number.ofText?
  rw [ofBinary_text]
  simp only [hfinite, hvalue, isIntegral_text, if_true]

theorem strip_text (w : WholeText) : w.text.strip = w.text :=
  Text.trim_eq_self fun _ hc => (of_mem_text hc).1

theorem isBlank_eq_false {t : Text} (ht : t.strip = w.text) : (Value.text t).isBlank = false := by
  rw [Bool.eq_false_iff]
  intro hblank
  obtain ⟨c, hc⟩ := List.exists_mem_of_ne_nil _ w.text_ne_nil
  rw [← ht, Text.strip_eq_nil_of_isBlank hblank] at hc
  cases hc

/-- A cell with a whole number, blanks at its ends apart, is read as the integer that the number denotes, rounded to 53
significant bits. -/
theorem number?_of_strip_eq {t : Text} (ht : t.strip = w.text) (h : w.size < Binary64.overflowBound) :
    (Value.text t).number? = .ok (some (.int (Binary64.roundInt w.value))) := by
  have hcommas : w.text.filter (· != ',') = w.text :=
    List.filter_eq_self.mpr fun c hc => by simpa using (of_mem_text hc).2.1
  unfold Value.number?
  dsimp only
  rw [isBlank_eq_false ht, Value.shown, ht, hcommas, ofText?_text h]
  rfl

/-- A whole number is kept exactly if it has at most 53 significant bits. -/
theorem roundInt_value_eq_iff : Binary64.roundInt w.value = w.value ↔ Binary64.IsShort w.size := by
  rw [Binary64.roundInt_eq_self_iff, natAbs_value]

/-- No number of at most 53 significant bits is nearer. -/
theorem roundInt_value_nearest {m : Nat} (hm : Binary64.IsShort m) :
    (Binary64.roundInt w.value - w.value).natAbs ≤ ((m : Int) - w.size).natAbs := by
  have hnear := Binary64.roundNat_nearest w.size hm
  have hsame : (Binary64.roundInt w.value - w.value).natAbs = ((Binary64.roundNat w.size : Int) - w.size).natAbs := by
    rw [roundInt_value, value, Sign.apply, Sign.apply]
    split_ifs <;> omega
  rwa [hsame]

theorem lt_overflowBound (h : w.size < 10 ^ 308) : w.size < Binary64.overflowBound := by
  apply h.trans_le
  decide +kernel

def ofInt (n : Int) : WholeText where
  sign := if n < 0 then .minus else .none
  digits := Text.ofNat n.natAbs
  filled := Nat.toDigits_ne_nil
  isDigit := fun _ hc => Text.isAsciiDigit_of_mem_ofNat hc

theorem text_ofInt (n : Int) : (ofInt n).text = Text.ofInt n := by
  cases n with
  | ofNat n =>
    have hsign : ¬ Int.ofNat n < 0 := by simp
    rw [text, ofInt, if_neg hsign]
    rfl
  | negSucc n =>
    rw [text, ofInt, if_pos (Int.negSucc_lt_zero n)]
    rfl

theorem size_ofInt (n : Int) : (ofInt n).size = n.natAbs :=
  Text.natOfDigits_ofNat n.natAbs

theorem value_ofInt (n : Int) : (ofInt n).value = n := by
  have hminus : (ofInt n).sign.isMinus = decide (n < 0) := by
    by_cases hn : n < 0 <;> simp [ofInt, Sign.isMinus, hn]
  rw [value, size_ofInt, Sign.apply, hminus]
  simp only [decide_eq_true_eq]
  split_ifs <;> omega

end WholeText

namespace Table

open Binary64 (roundInt IsShort)

variable {header rows : List Value} {body : List (List Value)} {column : Text} {table : Table}

/-- A column of whole numbers is one of numbers, and each of them becomes its rounding. -/
theorem rounded_of_load (h : load header rows = .ok table) (hbody : Table.body header rows = .ok body)
    (hcolumn : column ∈ Header.columns header) (hkind : ColumnClass.ofName column = .other)
    (hcells : ∀ cells ∈ body, ((plainRecord (Header.columns header) cells).get column).isBlank = true ∨
      ∃ w : WholeText, w.size < Binary64.overflowBound ∧
        (plainRecord (Header.columns header) cells).get column = .text w.text) :
    List.Forall₂ (fun cells r => ∀ w : WholeText,
      (plainRecord (Header.columns header) cells).get column = .text w.text →
        r.get column = .int (roundInt w.value)) body table.records := by
  obtain ⟨numeric, hnumeric, hentries⟩ := entries_of_load h hbody hcolumn
  have hlength : ∀ cells ∈ body, cells.length = (Header.columns header).length := by
    intro cells hmem
    rw [Header.length_of_mem_body hbody hmem, Header.length_columns]
  have hread {w : WholeText} (hw : w.size < Binary64.overflowBound) :
      (Value.text w.text).numeral? = some (.int (roundInt w.value)) := by
    rw [Value.numeral?, WholeText.number?_of_strip_eq (WholeText.strip_text w) hw]
  have hall : ∀ cells ∈ body, ((plainRecord (Header.columns header) cells).get column).isBlank = true ∨
      ((plainRecord (Header.columns header) cells).get column).numeral?.isSome = true := by
    intro cells hmem
    refine (hcells cells hmem).imp_right fun hwhole => ?_
    obtain ⟨w, hw, hcell⟩ := hwhole
    rw [hcell, hread hw]
    rfl
  have hboth := (List.forall₂_and_left _ _).mpr ⟨fun cells hmem => hmem, hentries⟩
  refine hboth.imp fun cells r hr w hcell => ?_
  obtain ⟨hmem, hentry⟩ := hr
  have hfilled := WholeText.isBlank_eq_false (WholeText.strip_text w)
  have hnumbers : column ∈ numeric :=
    mem_numericColumns_of_all hnumeric hlength hcolumn hkind hall ⟨cells, hmem, by rw [hcell, hfilled]⟩
  have hentryNumber : isNumberEntry numeric column = true := by
    simp [isNumberEntry, hkind, hnumbers]
  have hw : w.size < Binary64.overflowBound := by
    rcases hcells cells hmem with hblank | ⟨other, hother, heq⟩
    · rw [hcell, hfilled] at hblank
      cases hblank
    · rw [hcell] at heq
      rwa [WholeText.size_eq_of_text_eq (Value.text.inj heq)]
  rw [hentry, hentryNumber, hcell, entryOf, hread hw]
  rfl

/-- A whole number below 10 ^ 308 is read as the integer of at most 53 significant bits that is nearest to the one it
denotes, which is this very integer exactly if it has no more bits. Loading a column of such texts turns each of them
into this number, and two of them into the same number exactly if they have the same nearest integer. -/
theorem whole_numbers_rounded (h : load header rows = .ok table) (hbody : Table.body header rows = .ok body)
    (hcolumn : column ∈ Header.columns header) (hkind : ColumnClass.ofName column = .other)
    (hcells : ∀ cells ∈ body, ((plainRecord (Header.columns header) cells).get column).isBlank = true ∨
      ∃ w : WholeText, w.size < 10 ^ 308 ∧ (plainRecord (Header.columns header) cells).get column = .text w.text) :
    (∀ w : WholeText, w.size < 10 ^ 308 →
      (Value.text w.text).number? = .ok (some (.int (roundInt w.value))) ∧
      (∀ m, IsShort m → (roundInt w.value - w.value).natAbs ≤ ((m : Int) - w.size).natAbs) ∧
      (roundInt w.value = w.value ↔ IsShort w.size)) ∧
    body.length = table.records.length ∧
    (∀ p ∈ body.zip table.records, ∀ w : WholeText,
      (plainRecord (Header.columns header) p.1).get column = .text w.text →
        p.2.get column = .int (roundInt w.value)) ∧
    (∀ p ∈ body.zip table.records, ∀ p' ∈ body.zip table.records, ∀ w w' : WholeText,
      (plainRecord (Header.columns header) p.1).get column = .text w.text →
      (plainRecord (Header.columns header) p'.1).get column = .text w'.text →
        (p.2.get column = p'.2.get column ↔ roundInt w.value = roundInt w'.value)) := by
  have hrounded := rounded_of_load h hbody hcolumn hkind fun cells hmem =>
    (hcells cells hmem).imp_right fun hwhole => by
      obtain ⟨w, hw, hcell⟩ := hwhole
      exact ⟨w, WholeText.lt_overflowBound hw, hcell⟩
  obtain ⟨hlength, hzip⟩ := List.forall₂_iff_zip.mp hrounded
  refine ⟨fun w hw => ⟨?_, ?_, ?_⟩, hlength, fun p hp w hcell => hzip hp w hcell, ?_⟩
  · exact WholeText.number?_of_strip_eq (WholeText.strip_text w) (WholeText.lt_overflowBound hw)
  · intro m hm
    exact WholeText.roundInt_value_nearest hm
  · exact WholeText.roundInt_value_eq_iff
  · intro p hp p' hp' w w' hcell hcell'
    rw [hzip hp w hcell, hzip hp' w' hcell']
    constructor
    · exact Value.int.inj
    · intro heq
      rw [heq]

/-- Two tickets whose numbers differ in the last digit, and a row without a number between them. -/
def tickets : Dataset where
  header := ["Ticket"]
  rows := [.list ["9007199254740992"], .list ["  ", "lost"], .list [" 9007199254740993 "]]
  name := "tickets"

def firstTicket : WholeText :=
  ⟨.none, "9007199254740992", by decide, by decide⟩

def secondTicket : WholeText :=
  ⟨.none, "9007199254740993", by decide, by decide⟩

theorem whole_numbers_rounded_tickets : ∃ table r r', load tickets.header tickets.rows = .ok table ∧
    table.records = [r, r'] ∧ r.get "Ticket" = .int 9007199254740992 ∧ r'.get "Ticket" = r.get "Ticket" := by
  have hloads : (load tickets.header tickets.rows).map (·.records.length) = .ok 2 := by decide +kernel
  obtain ⟨table, htable, hrecords⟩ := map_eq_ok_iff.mp hloads
  have hbody : Table.body tickets.header tickets.rows =
      .ok [[.text "9007199254740992"], [.text " 9007199254740993 "]] := by
    rfl
  have hcolumns : Header.columns tickets.header = ["Ticket"] := by decide +kernel
  have hfirst : (plainRecord (Header.columns tickets.header) [.text "9007199254740992"]).get "Ticket" =
      .text firstTicket.text := by
    rw [hcolumns]
    rfl
  have hsecond : (plainRecord (Header.columns tickets.header) [.text " 9007199254740993 "]).get "Ticket" =
      .text secondTicket.text := by
    rw [hcolumns]
    rfl
  have hmember : "Ticket".toList ∈ Header.columns tickets.header := by
    rw [hcolumns]
    decide
  obtain ⟨-, -, hvalue, hsame⟩ := whole_numbers_rounded htable hbody hmember
    (by decide +kernel) (by
      intro cells hmem
      simp only [List.mem_cons, List.not_mem_nil, or_false] at hmem
      rcases hmem with rfl | rfl
      · exact .inr ⟨firstTicket, by decide +kernel, hfirst⟩
      · exact .inr ⟨secondTicket, by decide +kernel, hsecond⟩)
  obtain ⟨r, r', hboth⟩ := List.length_eq_two.mp hrecords
  refine ⟨table, r, r', htable, hboth, ?_, ?_⟩
  · rw [hvalue ([.text "9007199254740992"], r) (by simp [hboth]) firstTicket hfirst]
    rfl
  · refine (hsame ([.text " 9007199254740993 "], r') (by simp [hboth]) ([.text "9007199254740992"], r)
      (by simp [hboth]) secondTicket firstTicket hsecond hfirst).mpr ?_
    decide +kernel

/-- Long numbers are not kept: the last digit of one is lost, and two tickets get one number. -/
theorem tickets_merged : secondTicket.text = "9007199254740993" ∧ secondTicket.size < 10 ^ 308 ∧
    secondTicket.value = 9007199254740993 ∧ firstTicket.value ≠ secondTicket.value ∧
    (Value.text secondTicket.text).number? = .ok (some (.int 9007199254740992)) ∧
    (load tickets.header tickets.rows).map (fun table => table.records.map (·.get? "Ticket")) =
      .ok [some (.int 9007199254740992), some (.int 9007199254740992)] := by
  refine ⟨rfl, ?_, ?_, ?_, rfl, rfl⟩ <;> decide +kernel

end Table
end AskTable
