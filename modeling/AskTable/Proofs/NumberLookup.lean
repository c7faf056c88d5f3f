import AskTable.Proofs.Namesake
import AskTable.Proofs.Newest
import AskTable.Proofs.NumberQuestion

/-! Records with a number under the label MMT. The question for the details of a number finds the records whose number
ends with it: those of this number, and those of each longer one with the same end. -/
namespace AskTable

/-- Two parts of a list are the same if the members are chosen alike. -/
theorem filter_eq_filter_iff {α : Type} {l : List α} {p q : α → Bool} :
    l.filter p = l.filter q ↔ ∀ a ∈ l, p a = q a := by
  refine ⟨fun h a ha => ?_, List.filter_congr⟩
  have hmem : a ∈ l.filter p ↔ a ∈ l.filter q := by rw [h]
  rw [List.mem_filter, List.mem_filter, and_iff_right ha, and_iff_right ha] at hmem
  exact Bool.eq_iff_iff.mpr hmem

namespace Date

variable {w : Text}

private theorem ofText?_label (w : Text) : DateDraft.ofText? (("MMT-" : Text) ++ w) = none := by
  have htokens : DateToken.ofText (("MMT-" : Text) ++ w) = .word "MMT" :: .mark '-' :: DateToken.scan none w := rfl
  have hword (rest : List DateToken) : DateDraft.empty.readWord "MMT" rest = none := rfl
  rw [DateDraft.ofText?, htokens, DateDraft.read, DateDraft.readToken, hword]
  rfl

theorem splitWhen_label {sep : Char → Bool} (hdash : sep '-' = true) (hletters : sep 'M' = false ∧ sep 'T' = false)
    (hw : ∀ c ∈ w, sep c = false) : Text.splitWhen sep (("MMT-" : Text) ++ w) = ["MMT".toList, w] := by
  have hfront : Text.splitWhen sep "MMT".toList = ["MMT".toList] :=
    Text.splitWhen_of_forall (by simp [hletters])
  have hsplit : ("MMT-" : Text) ++ w = "MMT".toList ++ '-' :: w := rfl
  rw [hsplit, Text.splitWhen_append hdash, hfront, Text.splitWhen_of_forall hw]
  rfl

private theorem ofMarked?_label (h : ∀ c ∈ w, isDigitChar c = true) : ofMarked? (("MMT-" : Text) ++ w) = none := by
  have hsplit : Text.splitWhen [' ', '/', '-', '.'].contains (("MMT-" : Text) ++ w) = ["MMT".toList, w] := by
    refine splitWhen_label (by decide) (by decide) fun c hc => ?_
    have hmark : c ∉ [' ', '/', '-', '.'] := Question.not_mem_of_isDigitChar (by decide) (h c hc)
    simpa using hmark
  unfold ofMarked?
  dsimp only
  rw [hsplit]
  rfl

private theorem ofPeriod?_label (w : Text) : ofPeriod? (("MMT-" : Text) ++ w) = none := by
  have hletter : isDigitChar 'M' = false := by decide
  have hmap : (("MMT-" : Text) ++ w).map Char.toUpper = 'M' :: 'M' :: 'T' :: '-' :: w.map Char.toUpper := rfl
  unfold ofPeriod?
  dsimp only
  rw [hmap]
  split
  · next heq => simp at heq
  · next heq => simp at heq
  · next heq =>
    obtain ⟨rfl, -⟩ := List.cons.inj heq
    simp [hletter]
  · next heq =>
    obtain ⟨rfl, -⟩ := List.cons.inj heq
    simp [hletter]
  · simp [hletter]

private theorem ofFixedForm?_label (h : ∀ c ∈ w, isDigitChar c = true) :
    ofFixedForm? (("MMT-" : Text) ++ w) = none := by
  have hmarks : ∀ c ∈ w, c ≠ '-' ∧ c ≠ '/' := fun c hc => by
    have hmark : c ∉ ['-', '/'] := Question.not_mem_of_isDigitChar (by decide) (h c hc)
    simpa using hmark
  have hdash : Text.splitWhen (· == '-') (("MMT-" : Text) ++ w) = ["MMT".toList, w] :=
    splitWhen_label (by decide) (by decide) fun c hc => by simp [hmarks c hc]
  have hbar : Text.splitWhen (· == '/') (("MMT-" : Text) ++ w) = [("MMT-" : Text) ++ w] := by
    apply Text.splitWhen_of_forall
    intro c hc
    rcases List.mem_append.mp hc with hc | hc
    · have hall : ∀ c ∈ ("MMT-" : Text), (c == '/') = false := by decide
      exact hall c hc
    · simp [hmarks c hc]
  unfold ofFixedForm?
  dsimp only
  rw [hdash, hbar]
  rfl

/-- A number under its label is no date. -/
theorem ofText_label (h : ∀ c ∈ w, isDigitChar c = true) : ofText (("MMT-" : Text) ++ w) = .ok none := by
  have hfree : ofFreeForm? (("MMT-" : Text) ++ w) = none := by
    unfold ofFreeForm?
    rw [ofMarked?_label h, ofPeriod?_label, ofText?_label]
    split_ifs <;> rfl
  have hstandard : StandardForm.read? (("MMT-" : Text) ++ w) = none := by
    cases w <;> rfl
  have hspelling : ofSpelling (("MMT-" : Text) ++ w) = .ok none := by
    have hsigned : isSigned (("MMT-" : Text) ++ w) = false := rfl
    unfold ofSpelling
    rw [hsigned, hstandard, hfree]
    split_ifs <;> first | rfl | contradiction
  unfold ofText
  rw [hspelling]
  change Except.ok (ofFixedForm? _) = _
  rw [ofFixedForm?_label h]

end Date

namespace Value

variable {w n : Text} {kind : ColumnClass}

def numberCell (w : Text) : Value :=
  .text ("MMT-" ++ w)

theorem isSolid_label (h : ∀ c ∈ w, isDigitChar c = true) : Text.IsSolid (("MMT-" : Text) ++ w) := by
  have hlabel : ∀ c ∈ ("MMT-" : Text), isBlankChar c = false := by decide
  exact Text.isSolid_append.mpr ⟨hlabel, Question.isSolid_of_isDigitChar h⟩

theorem lower_digits (h : ∀ c ∈ w, isDigitChar c = true) (before : Text) : Text.lowerAfter before w = w :=
  Text.lowerAfter_of_lowerChar (fun c hc => Text.lowerChar_of_digit (h c hc)) before

theorem lower_cellText_numberCell (h : ∀ c ∈ w, isDigitChar c = true) :
    (numberCell w).cellText.lower = ("mmt-" : Text) ++ w := by
  have hlower : Text.lower (("MMT-" : Text) ++ w) = ("mmt-" : Text) ++ Text.lowerAfter ("MMT-" : Text).reverse w := rfl
  rw [numberCell, cellText_text, (isSolid_label h).strip_eq, hlower, lower_digits h]

/-- The cell is found by its own text, and in a column of dates by the words for a cell without a date. -/
theorem mem_forms_numberCell {form : Text} (h : ∀ c ∈ w, isDigitChar c = true) (hform : form ∈ (numberCell w).forms kind) :
    form = ("mmt-" : Text) ++ w ∨ form = ("invalid date" : Text) := by
  have hdate : (numberCell w).date? = .ok none := by
    rw [numberCell, date?, (isSolid_label h).strip_eq, Date.ofText_label h]
  rw [forms, lower_cellText_numberCell h, hdate] at hform
  rcases List.mem_cons.mp hform with hown | hwords
  · exact .inl hown
  · split_ifs at hwords
    · exact .inr (List.mem_singleton.mp hwords)
    · cases hwords

/-- The cell is found by the end of a text in digits exactly if its number has that end. -/
theorem any_endsWith_forms_numberCell (h : ∀ c ∈ w, isDigitChar c = true) (hne : n ≠ [])
    (hn : ∀ c ∈ n, isDigitChar c = true) :
    ((numberCell w).forms kind).any (fun form => form.endsWith n) = Text.endsWith w n := by
  obtain ⟨c, rest, rfl⟩ := List.exists_cons_of_ne_nil hne
  have hc : isDigitChar c = true := hn c List.mem_cons_self
  rw [Bool.eq_iff_iff, List.any_eq_true, Text.endsWith_eq_true_iff]
  constructor
  · rintro ⟨form, hform, hend⟩
    rw [Text.endsWith_eq_true_iff] at hend
    rcases mem_forms_numberCell h hform with rfl | rfl
    · -- The end in digits reaches into the label at none of its four characters.
      have hlabel : ("mmt-" : Text) ++ w = 'm' :: 'm' :: 't' :: '-' :: w := rfl
      rw [hlabel] at hend
      simp only [List.suffix_cons_iff, List.cons.injEq] at hend
      have hmark : c ∉ ['m', 't', '-'] := Question.not_mem_of_isDigitChar (by decide) hc
      simp only [List.mem_cons, List.not_mem_nil, or_false, not_or] at hmark
      simpa [hmark] using hend
    · have hword : c ∉ ("invalid date" : Text) := Question.not_mem_of_isDigitChar (by decide) hc
      exact absurd (hend.subset List.mem_cons_self) hword
  · intro hend
    refine ⟨_, List.mem_cons_self, ?_⟩
    rw [lower_cellText_numberCell h, Text.endsWith_eq_true_iff]
    exact hend.trans (List.suffix_append _ _)

end Value

namespace Field

variable {columns : List Text} {column : Text}

/-- The identifier is looked for in the first column of that name, else in the first with "mmt" in its name. -/
theorem resolve?_identifierField (hfound : columns.find? (fun c => c.lower.contains "mmt") = some column) :
    resolve? Question.identifierField columns =
      some ((columns.find? fun c => plain c == Question.identifierField).getD column) := by
  have hplain : plain Question.identifierField = Question.identifierField := by decide
  have hword : SemanticField.ofWord? Question.identifierField = some .identifier := by decide
  have hpart : SemanticField.identifier.column? columns = some column := by
    have hpatterns : SemanticField.identifier.patterns = ("mmt" : Text) :: SemanticField.identifier.patterns.tail := rfl
    rw [SemanticField.column?, hpatterns, List.findSome?_cons, hfound]
  have hfilled : Question.identifierField.isEmpty = false := rfl
  unfold resolve?
  dsimp only
  rw [hplain, hfilled, hword]
  dsimp only
  rw [hpart]
  cases columns.find? fun c => plain c == Question.identifierField <;> rfl

end Field

namespace Snapshot

variable {source : Dataset} {s : Snapshot} {column : Text} {number : Record → Text} {n : Text}

/-- One column alone has "mmt" in its name, and each of its cells is a number under that label. -/
structure IsNumbered (s : Snapshot) (column : Text) (number : Record → Text) : Prop where
  alone : s.columns.filter (fun c => c.lower.contains "mmt") = [column]
  cell : ∀ r ∈ s.records, (r.get column).text? = some ("MMT-" ++ number r)
  digits : ∀ r ∈ s.records, ∀ c ∈ number r, isDigitChar c = true

instance (s : Snapshot) (column : Text) (number : Record → Text) : Decidable (s.IsNumbered column number) :=
  decidable_of_iff (s.columns.filter (fun c => c.lower.contains "mmt") = [column] ∧
      (∀ r ∈ s.records, (r.get column).text? = some ("MMT-" ++ number r)) ∧
      ∀ r ∈ s.records, ∀ c ∈ number r, isDigitChar c = true)
    ⟨fun h => ⟨h.1, h.2.1, h.2.2⟩, fun h => ⟨h.alone, h.cell, h.digits⟩⟩

namespace IsNumbered

variable (h : s.IsNumbered column number)
include h

theorem mem_columns : column ∈ s.columns ∧ ("mmt" : Text) <:+: column.lower := by
  have hcolumn : column ∈ s.columns.filter fun c => c.lower.contains "mmt" := by
    rw [h.alone]
    exact List.mem_cons_self
  rwa [List.mem_filter, Text.contains_eq_true_iff] at hcolumn

/-- No column is named as the derived text of the numbers, for it would have "mmt" in its name, too. -/
theorem formatted_not_mem : Shadow.formatted.field column ∉ s.columns := by
  have hlonger : ("mmt" : Text) <:+: (column ++ Shadow.formatted.suffix).lower :=
    Text.infix_lower_append (by decide) (by decide) h.mem_columns.2 _
  intro hmem
  have hboth : Shadow.formatted.field column ∈ s.columns.filter fun c => c.lower.contains "mmt" :=
    List.mem_filter.mpr ⟨hmem, Text.contains_eq_true_iff.mpr hlonger⟩
  rw [h.alone, List.mem_singleton] at hboth
  exact absurd (List.append_right_eq_self.mp hboth) (by decide)

/-- A record satisfies the condition on its identifier if its number has the end that is wanted. -/
theorem holds_endsWith (hs : build source = .ok s) {r : Record} (hr : r ∈ s.records) (hne : n ≠ [])
    (hn : ∀ c ∈ n, isDigitChar c = true) :
    Condition.holds s.columns ⟨column, .endsWith, .text n⟩ r = .ok (Text.endsWith (number r) n) := by
  have hcell : r.get column = .numberCell (number r) := Value.eq_text_of_text? (h.cell r hr)
  have hwanted : (Value.text n).cellText.lower = n := by
    rw [Value.cellText_text, (Question.isSolid_of_isDigitChar hn).strip_eq]
    exact Value.lower_digits hn []
  have htexts := Record.textsAt_eq_forms (isLoaded_of_build hs hr) h.mem_columns.1 h.formatted_not_mem
  rw [hcell] at htexts
  unfold Condition.holds
  dsimp only
  rw [hwanted, htexts]
  exact congrArg Except.ok (Value.any_endsWith_forms_numberCell (h.digits r hr) hne hn)

/-- The identifier is looked for in the first column of that name, else in the column of the numbers. -/
theorem conditions_identifierCondition (intent : Intent) (t : Text) :
    (Plan.under intent [Question.identifierCondition t]).conditions s.columns =
      [⟨(s.columns.find? fun c => Field.plain c == Question.identifierField).getD column, .endsWith, .text t⟩] := by
  have hfound : s.columns.find? (fun c => c.lower.contains "mmt") = some column := by
    rw [← List.head?_filter, h.alone, List.head?_cons]
  simp [Plan.conditions, Plan.under, Filter.condition?_toFilter, Field.resolve?_identifierField hfound,
    Question.identifierCondition]

end IsNumbered

/-- A number that is wanted is found alone exactly if no other number has it for its end. -/
theorem filter_endsWith_eq_iff : s.hits.filter (fun hit => (number hit.1).endsWith n) =
    s.hits.filter (fun hit => number hit.1 = n) ↔ ∀ r ∈ s.records, n <:+ number r → number r = n := by
  have hmem (r : Record) : r ∈ s.records ↔ ∃ hit ∈ s.hits, hit.1 = r := by
    rw [← List.mem_map, hits, List.zipIdx_map_fst]
  rw [filter_eq_filter_iff]
  constructor
  · intro hsame r hr hend
    obtain ⟨hit, hhit, rfl⟩ := (hmem r).mp hr
    have hchosen := hsame hit hhit
    rw [Text.endsWith_eq_true_iff.mpr hend] at hchosen
    exact of_decide_eq_true hchosen.symm
  · intro hlonger hit hhit
    rw [Bool.eq_iff_iff, Text.endsWith_eq_true_iff, decide_eq_true_eq]
    exact ⟨hlonger hit.1 (fst_mem_of_mem_hits hhit), fun heq => heq ▸ List.suffix_rfl⟩

/-- In a table with a column of numbers, the question for the details of a number is planned as a lookup and can be
answered. For a number in digits of ASCII, and unless a column has the name "identifier", the answer has the records whose
number ends with it. These are the records of the number itself exactly if no longer one ends with it. -/
theorem details_find_endings (hs : build source = .ok s) (h : s.IsNumbered column number) (hne : n ≠ [])
    (hn : ∀ c ∈ n, isDigitChar c = true) :
    ∃ p result, Rule.find? (Question.detailsQuestion n) (some s) = .ok (some (.identifierLookup, p)) ∧
      s.execute p = .ok result ∧
      ((∀ c ∈ n, isAsciiDigit c = true) → (∀ c ∈ s.columns, Field.plain c ≠ Question.identifierField) →
        result.hits = s.hits.filter (fun hit => (number hit.1).endsWith n) ∧
        result.total = result.hits.length ∧
        (result.hits = s.hits.filter (fun hit => number hit.1 = n) ↔
          ∀ r ∈ s.records, n <:+ number r → number r = n)) := by
  obtain ⟨t, hplan, ht⟩ := Rule.find?_detailsQuestion hne hn (some s)
  have hconditions := h.conditions_identifierCondition .details t
  obtain ⟨result, hresult, hhits, htotal⟩ := exists_execute_of_isTotal hconditions rfl (by simp [Plan.under])
  refine ⟨_, result, hplan, hresult, fun hascii hnone => ?_⟩
  obtain rfl := ht hascii
  have hnamed : s.columns.find? (fun c => Field.plain c == Question.identifierField) = none :=
    List.find?_eq_none.mpr fun c hc => by simpa using hnone c hc
  have hends : result.hits = s.hits.filter (fun hit => (number hit.1).endsWith t) := by
    rw [hhits, hnamed, Option.getD_none]
    refine List.filter_congr fun hit hhit => ?_
    rw [h.holds_endsWith hs (fst_mem_of_mem_hits hhit) hne hn]
    cases Text.endsWith (number hit.1) t <;> rfl
  exact ⟨hends, htotal, by rw [hends, filter_endsWith_eq_iff]⟩

def numberIn (column : Text) (r : Record) : Text :=
  ((r.get column).text?.getD []).drop 4

/-- Three visits, the number of one being the end of that of another. -/
def numberedVisits : Dataset where
  header := ["MMT No", "Site"]
  rows := [.list ["MMT-5", "North"], .list ["MMT-15", "South"], .list ["MMT-57", "East"]]
  name := "visits"

theorem details_find_endings_of_visits : ∃ s p result, build numberedVisits = .ok s ∧
    s.IsNumbered "MMT No" (numberIn "MMT No") ∧
    Rule.find? (Question.detailsQuestion "57") (some s) = .ok (some (.identifierLookup, p)) ∧
    s.execute p = .ok result ∧ result.hits = s.hits.filter (fun hit => numberIn "MMT No" hit.1 = "57".toList) := by
  have hrun : (do
      let s ← build numberedVisits
      return decide (s.IsNumbered "MMT No" (numberIn "MMT No")) &&
        decide (∀ c ∈ s.columns, Field.plain c ≠ Question.identifierField) &&
        decide (∀ r ∈ s.records, "57".toList <:+ numberIn "MMT No" r → numberIn "MMT No" r = "57".toList)) =
        .ok true := by
    decide +kernel
  obtain ⟨s, hs, hrun⟩ := bind_eq_ok_iff.mp hrun
  have hfacts := Except.ok.inj hrun
  simp only [Bool.and_eq_true, decide_eq_true_eq] at hfacts
  obtain ⟨⟨hnumbered, hnone⟩, hapart⟩ := hfacts
  obtain ⟨p, result, hplan, hresult, hends⟩ := details_find_endings hs hnumbered (n := "57") (by decide) (by decide)
  obtain ⟨-, -, hwhole⟩ := hends (by decide) hnone
  exact ⟨s, p, result, hs, hnumbered, hplan, hresult, hwhole.mpr hapart⟩

/-- A question for the details of a number, asked of a table with a column of numbers, finds records of some numbers. -/
def DetailsFind (source : Dataset) (n : Text) (numbers : List Text) : Prop :=
  ∃ s p result, build source = .ok s ∧ s.IsNumbered "MMT No" (numberIn "MMT No") ∧
    Rule.find? (Question.detailsQuestion n) (some s) = .ok (some (.identifierLookup, p)) ∧
    s.execute p = .ok result ∧ result.hits.map (fun hit : Hit => numberIn "MMT No" hit.1) = numbers

private theorem detailsFind_of_run {numbers : List Text} (hne : n ≠ []) (hn : ∀ c ∈ n, isAsciiDigit c = true)
    (hrun : (do
      let s ← build source
      let result ← s.execute (Plan.under .details [Question.identifierCondition n])
      return decide (s.IsNumbered "MMT No" (numberIn "MMT No")) &&
        decide (result.hits.map (fun hit : Hit => numberIn "MMT No" hit.1) = numbers)) = .ok true) :
    DetailsFind source n numbers := by
  obtain ⟨s, hs, hrun⟩ := bind_eq_ok_iff.mp hrun
  obtain ⟨result, hresult, hrun⟩ := bind_eq_ok_iff.mp hrun
  have hfacts := Except.ok.inj hrun
  simp only [Bool.and_eq_true, decide_eq_true_eq] at hfacts
  have hdigits : ∀ c ∈ n, isDigitChar c = true := fun c hc => Question.isDigitChar_of_isAsciiDigit (hn c hc)
  have hplan := Rule.find?_of_identifier hne hdigits (Question.identifier?_detailsQuestion hne hn) (some s)
  exact ⟨s, _, result, hs, hfacts.1, hplan, hresult, hfacts.2⟩

/-- A longer number is found with the one that is asked for. In a table with a column named "identifier" the end is looked
for in that one. -/
theorem details_find_other_numbers : DetailsFind numberedVisits "5" ["5", "15"] ∧
    DetailsFind {
      header := ["MMT No", "Identifier"]
      rows := [.list ["MMT-5", "A-7"], .list ["MMT-7", "A-5"]]
      name := "visits" } "5" ["7"] := by
  constructor
  all_goals exact detailsFind_of_run (by decide) (by decide) (by decide +kernel)

end Snapshot
end AskTable
