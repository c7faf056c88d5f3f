import AskTable.Proofs.Clauses
import AskTable.Proofs.Feasible
import AskTable.Proofs.Namesake

/-! Asking for a record by the text of one of its cells. The first full stop behind the first character of the text ends
the value, so the record is found if there is none, or if what is before it is the date of the cell as written out. -/
namespace AskTable

namespace Text

variable {t : Text} {c : Char}

/-- Words of letters and digits with single spaces between them. -/
def IsTitle (t : Text) : Prop :=
  ∃ ws : List Text, ws ≠ [] ∧ (∀ w ∈ ws, w.IsWord) ∧ t = join " " ws

theorem IsTitle.head?_lower (h : t.IsTitle) : t.lower.head?.any isWordChar = true := by
  obtain ⟨ws, hne, hws, rfl⟩ := h
  obtain ⟨w, rest, rfl⟩ := List.exists_cons_of_ne_nil hne
  have hw := hws w List.mem_cons_self
  have hhead := hw.head?_lower
  rw [lower_join]
  cases rest with
  | nil => exact hhead
  | cons v rest =>
    have hstep : join " " ((w :: v :: rest).map lower) = w.lower ++ ' ' :: join " " ((v :: rest).map lower) := by
      simp [join]
    rwa [hstep, List.head?_append_of_ne_nil _ hw.isPlain_lower.ne_nil]

private theorem IsTitle.isLetterOrDigit_or (h : t.IsTitle) (hc : c ∈ t) : isLetterOrDigit c = true ∨ c = ' ' := by
  obtain ⟨ws, hne, hws, rfl⟩ := h
  have hspaced : c ∈ spaced ws := by
    rw [← join_append_space hne]
    exact List.mem_append_left _ hc
  obtain ⟨w, hw, hcw⟩ := List.mem_flatMap.mp hspaced
  rcases List.mem_append.mp hcw with hcw | hcw
  · exact .inl ((hws w hw).letters c hcw)
  · exact .inr (List.mem_singleton.mp hcw)

end Text

namespace Search

variable {t : Text} {c : Char}

/-- The text up to the first full stop behind its first character. -/
def sentence (t : Text) : Text :=
  t.take 1 ++ (t.drop 1).takeWhile (· != '.')

/-- What is taken for the value where a text stands in place of one. -/
def readValue (t : Text) : Text :=
  (beforeAnd ((sentence t).rdropWhile isBlankChar)).strip

/-- A text that can be said in place of a value: in one line, without quotes, question and exclamation marks, and without
the word "and". -/
structure IsSayable (t : Text) : Prop where
  ne_nil : t ≠ []
  plain : ∀ c ∈ t, c ∉ ['\'', '"', '?', '!', '\n']
  and_not_mem : "and".toList ∉ t.lower.words

theorem sentence_cons (c : Char) (rest : Text) : sentence (c :: rest) = c :: rest.takeWhile (· != '.') := rfl

theorem prefix_sentence (t : Text) : sentence t <+: t := by
  cases t with
  | nil => exact List.prefix_rfl
  | cons c rest => exact List.cons_prefix_cons.mpr ⟨rfl, List.takeWhile_prefix _⟩

theorem rdropWhile_sentence_ne_nil (hc : isBlankChar c = false) (rest : Text) :
    (sentence (c :: rest)).rdropWhile isBlankChar ≠ [] := by
  intro hnil
  have hblank := List.rdropWhile_eq_nil_iff.mp hnil c (by simp [sentence])
  rw [hc] at hblank
  cases hblank

private theorem IsSayable.exists_cons_lower (ht : IsSayable t) (hstrip : t.strip = t) :
    ∃ c small, t.lower = c :: small ∧ isBlankChar c = false := by
  obtain ⟨⟨c, rest, hfront, hc⟩, -⟩ := Text.exists_ends_of_strip hstrip ht.ne_nil
  rw [hfront]
  exact Text.exists_cons_of_lower hc rest

private theorem IsSayable.plain_lower (ht : IsSayable t) : ∀ d ∈ t.lower, d ∉ ['\'', '"', '?', '!', '\n'] := by
  intro d hd hmark
  have hlow : ∀ e ∈ ['\'', '"', '?', '!', '\n'], e.toNat < 97 := by decide
  exact ht.plain d (Text.mem_of_mem_lowerAfter (hlow d hmark) hd) hmark

/-- Behind the value there are blanks, and the full stop if there is one. -/
theorem exists_append_sentence (c : Char) (rest : Text) : ∃ blanks stop,
    c :: rest = (sentence (c :: rest)).rdropWhile isBlankChar ++ (blanks ++ stop) ∧
      (∀ d ∈ blanks, isBlankChar d = true) ∧ IsStop stop := by
  refine ⟨(sentence (c :: rest)).rtakeWhile isBlankChar, rest.dropWhile (· != '.'), ?_, ?_, ?_⟩
  · rw [← List.append_assoc, List.rdropWhile_append_rtakeWhile, sentence_cons, List.cons_append,
      List.takeWhile_append_dropWhile]
  · exact fun d hd => List.mem_rtakeWhile_imp hd
  · cases hstop : rest.dropWhile (· != '.') with
    | nil => exact .inl rfl
    | cons d later =>
      have hhead := List.head?_dropWhile_not (· != '.') rest
      obtain rfl : d = '.' := by simpa [hstop] using hhead
      exact .inr ⟨'.', later, rfl, rfl⟩

private theorem isOperand_sentence {rest : Text} (hc : isBlankChar c = false)
    (hplain : ∀ d ∈ c :: rest, d ∉ ['\'', '"', '?', '!', '\n']) :
    IsOperand ((sentence (c :: rest)).rdropWhile isBlankChar) where
  front := by
    have hprefix := List.rdropWhile_prefix isBlankChar (sentence (c :: rest))
    obtain ⟨d, value, hvalue⟩ := List.exists_cons_of_ne_nil (rdropWhile_sentence_ne_nil hc rest)
    rw [hvalue, sentence_cons] at hprefix
    obtain ⟨rfl, hinside⟩ := List.cons_prefix_cons.mp hprefix
    have hd := hplain d List.mem_cons_self
    refine ⟨d, value, hvalue, hc, ?_, ?_, fun e he => ?_⟩
    · rintro rfl
      exact hd (by decide)
    · rintro rfl
      exact hd (by decide)
    · have hmem := hinside.subset he
      have hstop : e ≠ '.' := by simpa using List.mem_takeWhile_imp hmem
      have hmark := hplain e (List.mem_cons_of_mem _ (List.takeWhile_subset _ hmem))
      simp only [List.mem_cons, not_or] at hmark
      simp [Text.marks, hmark, hstop]
  back := by
    have hne := rdropWhile_sentence_ne_nil hc rest
    obtain ⟨front, last, hlast⟩ := (List.eq_nil_or_concat' _).resolve_left hne
    refine ⟨front, last, hlast, ?_⟩
    have hcut := List.rdropWhile_last_not isBlankChar (sentence (c :: rest)) hne
    simpa [hlast] using hcut
  line d hd := by
    have hmem := (prefix_sentence _).subset ((List.rdropWhile_prefix isBlankChar _).subset hd)
    rintro rfl
    exact hplain '\n' hmem (by decide)

theorem infix_readValue (t : Text) : readValue t <:+: sentence t := by
  refine (Text.strip_infix _).trans ?_
  exact ((prefix_beforeAnd _).trans (List.rdropWhile_prefix isBlankChar _)).isInfix

/-- Without a full stop behind its first character, a text is read as it is. -/
theorem readValue_eq_self (hstrip : t.strip = t) (hand : "and".toList ∉ t.words) (hstop : '.' ∉ t.drop 1) :
    readValue t = t := by
  have hsentence : sentence t = t := by
    have hall : (t.drop 1).takeWhile (· != '.') = t.drop 1 := by
      refine List.takeWhile_eq_self_iff.mpr fun c hc => ?_
      simpa using fun heq : c = '.' => hstop (heq ▸ hc)
    rw [sentence, hall, List.take_append_drop]
  rw [readValue, hsentence, (Text.strip_eq_self_iff.mp hstrip).2, beforeAnd_eq_self hand, hstrip]

private theorem readValue_ne_self (hstop : '.' ∈ t.drop 1) : readValue t ≠ t := by
  intro heq
  have hlength := (infix_readValue t).length_le
  have hwhole : sentence t = t := (prefix_sentence t).eq_of_length_le (by rwa [heq] at hlength)
  have hall : (t.drop 1).takeWhile (· != '.') = t.drop 1 := by
    have hsame : t.take 1 ++ (t.drop 1).takeWhile (· != '.') = t.take 1 ++ t.drop 1 := by
      rw [List.take_append_drop]
      exact hwhole
    exact List.append_cancel_left hsame
  simpa using List.takeWhile_eq_self_iff.mp hall '.' hstop

private theorem strip_ne_nil_of_prefix (hc : isBlankChar c = false) {w rest : Text} (hw : w <+: c :: rest)
    (hne : w ≠ []) : w.strip ≠ [] := by
  obtain ⟨d, w, rfl⟩ := List.exists_cons_of_ne_nil hne
  obtain ⟨rfl, -⟩ := List.cons_prefix_cons.mp hw
  intro hnil
  have hblank := List.all_eq_true.mp (Text.isBlank_of_strip_eq_nil hnil) d List.mem_cons_self
  rw [hc] at hblank
  cases hblank

private theorem readValue_ne_nil (hc : isBlankChar c = false) (rest : Text) : readValue (c :: rest) ≠ [] := by
  have hvalue : (sentence (c :: rest)).rdropWhile isBlankChar <+: c :: rest :=
    (List.rdropWhile_prefix isBlankChar _).trans (prefix_sentence _)
  obtain ⟨d, value, hcons⟩ := List.exists_cons_of_ne_nil (rdropWhile_sentence_ne_nil hc rest)
  rw [readValue, hcons]
  rw [hcons] at hvalue
  obtain ⟨rfl, -⟩ := List.cons_prefix_cons.mp hvalue
  exact strip_ne_nil_of_prefix hc ((prefix_beforeAnd _).trans hvalue) (beforeAnd_ne_nil hc value)

variable {column : Text} {columns : List Text}

/-- What asks for the cells of a column with a text. -/
def cellQuestion (column t : Text) : Text :=
  column ++ " is " ++ t

theorem lower_cellQuestion (column t : Text) :
    (cellQuestion column t).lower = column.lower ++ ' ' :: ("is".toList ++ ' ' :: t.lower) := by
  have hquestion : cellQuestion column t = column ++ ' ' :: ("is".toList ++ ' ' :: t) := by simp [cellQuestion]
  have hphrase : Text.lower "is" = "is" := by decide
  rw [hquestion, Text.lower_append_space, Text.lower_append_space, hphrase]

/-- The text in the question is read as a value, and no more than what is behind its full stop is left. -/
theorem columnCondition?_cellQuestion (hcolumn : column.IsTitle) (ht : IsSayable t) (hstrip : t.strip = t) : ∃ n rest,
    columnCondition? column (cellQuestion column t).lower =
      some (⟨column, .equals, .text (readValue t.lower)⟩, List.replicate n ' ' ++ rest) ∧
        rest <:+ (cellQuestion column t).lower := by
  obtain ⟨c, small, hsmall, hc⟩ := ht.exists_cons_lower hstrip
  have hplain : ∀ d ∈ c :: small, d ∉ ['\'', '"', '?', '!', '\n'] := hsmall ▸ ht.plain_lower
  have hoperand := isOperand_sentence hc hplain
  obtain ⟨blanks, stop, hsplit, hblanks, hstop⟩ := exists_append_sentence c small
  have hphrase : ("is".toList, Operator.equals) ∈ operatorPhrases := by decide
  let value := (sentence (c :: small)).rdropWhile isBlankChar
  let said := column.lower ++ ' ' :: ("is".toList ++ ' ' :: (value ++ (blanks ++ stop.take 1)))
  have hquestion : (cellQuestion column t).lower =
      column.lower ++ ' ' :: ("is".toList ++ ' ' :: (value ++ (blanks ++ stop))) := by
    rw [lower_cellQuestion, hsmall, hsplit]
  have hwhole : (cellQuestion column t).lower = [] ++ (said ++ stop.drop 1) := by
    rw [hquestion]
    simp only [said, List.nil_append, List.append_assoc, List.cons_append, List.take_append_drop]
  have hedge : Cursor.atWordEdge
      ⟨[], column.lower ++ ' ' :: ("is".toList ++ ' ' :: (value ++ (blanks ++ stop)))⟩ = true := by
    have hhead := hcolumn.head?_lower
    have hne : column.lower ≠ [] := by
      intro hnil
      rw [hnil] at hhead
      cases hhead
    rw [Cursor.atWordEdge, List.head?_append_of_ne_nil _ hne, hhead]
    rfl
  have hfound := columnPhraseAt_operand hphrase hoperand hblanks hstop hedge
  rw [← hquestion, hwhole] at hfound
  refine ⟨said.length, stop.drop 1, ?_, ?_⟩
  · rw [hwhole, hsmall]
    exact columnCondition?_append (by simp) hfound rfl (readValue_ne_nil hc small)
  · rw [hwhole]
    exact List.suffix_append _ _

/-- Where a column is not named, spaces in front of a text make no phrase about it. -/
theorem columnCondition?_spaces (hname : column.IsName) (h : ¬ column.lower <:+: t) (n : Nat) :
    columnCondition? column (List.replicate n ' ' ++ t) = none := by
  have hnone : (Cursor.all (List.replicate n ' ' ++ t)).findSome? (fun a => (columnPhraseAt column a).map (a, ·)) =
      none := by
    refine Cursor.findSome?_all_eq_none fun u v huv => ?_
    refine Option.map_eq_none_iff.mpr (Option.eq_none_iff_forall_ne_some.mpr fun found hfound => ?_)
    obtain ⟨-, blanks, entry, -, d, rest, -, -, hafter⟩ := of_columnPhraseAt hfound
    change v = _ at hafter
    obtain ⟨⟨c, name, hcolumn, hc⟩, -⟩ := Text.exists_ends_of_strip hname.strip_eq hname.ne_nil
    obtain ⟨e, small, hsmall, he⟩ := Text.exists_cons_of_lower hc name
    rw [← hcolumn] at hsmall
    have hsplit : List.replicate n ' ' ++ t = u ++ e :: (small ++ (blanks ++ (entry.1 ++ d :: rest))) := by
      rw [huv, hafter, hsmall, List.cons_append]
    -- The name begins with content, so it does not begin in the spaces.
    rcases append_cons_cases hsplit with ⟨back, hspaces, -⟩ | ⟨back, rfl⟩
    · have hspace : e ∈ List.replicate n ' ' := by simp [hspaces]
      rw [List.eq_of_mem_replicate hspace] at he
      exact absurd he (by decide)
    · rw [hsmall] at h
      exact h ⟨back, blanks ++ (entry.1 ++ d :: rest), by simp⟩
  rw [columnCondition?, hnone]
  rfl

/-- A question for the cells of a column with a text, in which no other column and no number of records is named. -/
structure AsksAlone (columns : List Text) (column t : Text) : Prop where
  mem : column ∈ columns
  title : column.IsTitle
  sayable : IsSayable t
  others : ∀ other ∈ columns, other ≠ column → ¬ other.lower <:+: (cellQuestion column t).lower
  last : lastDigits? (cellQuestion column t) = none

theorem conditions_cellQuestion (hnames : ∀ other ∈ columns, other.IsName) (hone : columns.count column ≤ 1)
    (hstrip : t.strip = t) (h : AsksAlone columns column t) :
    conditions columns (cellQuestion column t) = [⟨column, .equals, .text (readValue t.lower)⟩] := by
  obtain ⟨n, rest, hread, hrest⟩ := columnCondition?_cellQuestion h.title h.sayable hstrip
  obtain ⟨front, back, hsplit⟩ := List.append_of_mem (Field.mem_byLength.mpr h.mem)
  have hcount : (front ++ column :: back).count column ≤ 1 := by
    rwa [← hsplit, Field.count_byLength]
  have hother : ∀ other ∈ front ++ back, other ∈ columns ∧ other ≠ column := by
    intro other hmem
    refine ⟨Field.mem_byLength.mp ?_, ?_⟩
    · rw [hsplit]
      simp only [List.mem_append, List.mem_cons] at hmem ⊢
      tauto
    · rintro rfl
      have hpos := List.count_pos_iff.mpr hmem
      simp only [List.count_append, List.count_cons_self] at hcount hpos
      omega
  have hnone {u : Text} (hu : u <:+: (cellQuestion column t).lower) (k : Nat) (other : Text)
      (hmem : other ∈ front ++ back) : columnCondition? other (List.replicate k ' ' ++ u) = none := by
    obtain ⟨hin, hne⟩ := hother other hmem
    exact columnCondition?_spaces (hnames other hin) (fun hinside => h.others other hin hne (hinside.trans hu)) k
  have hfront : ∀ other ∈ front, columnCondition? other (cellQuestion column t).lower = none :=
    fun other hmem => hnone List.infix_rfl 0 other (List.mem_append_left _ hmem)
  have hback : conditionsOn back (List.replicate n ' ' ++ rest) = [] :=
    conditionsOn_eq_nil fun other hmem => hnone hrest.isInfix n other (List.mem_append_right _ hmem)
  rw [conditions, hsplit, conditionsOn_append hfront, conditionsOn, hread]
  exact congrArg _ hback

end Search

namespace Snapshot

open Search (cellQuestion readValue AsksAlone)

variable {source : Dataset} {s : Snapshot} {column t : Text} {hit : Hit}

private theorem strip_cellQuestion (hname : column.IsName) (hstrip : t.strip = t) (hne : t ≠ []) :
    (cellQuestion column t).strip = cellQuestion column t := by
  obtain ⟨⟨c, rest, hfront, hc⟩, -⟩ := Text.exists_ends_of_strip hname.strip_eq hname.ne_nil
  obtain ⟨-, front, d, hback, hd⟩ := Text.exists_ends_of_strip hstrip hne
  refine Text.strip_of_ends ⟨c, rest ++ (" is " ++ t), ?_, hc⟩ ⟨column ++ " is " ++ front, d, ?_, hd⟩
  · simp [cellQuestion, hfront]
  · simp [cellQuestion, hback]

private theorem resolve?_of_asksAlone (hnames : ∀ other ∈ s.columns, other.IsName) (h : AsksAlone s.columns column t) :
    Field.resolve? column s.columns = some column := by
  rw [Field.resolve?_eq_firstNamed? hnames h.mem]
  obtain ⟨meant, hmeant⟩ := Field.exists_firstNamed? h.mem
  have hlower : meant.lower = column.lower := by simpa using List.find?_some hmeant
  rw [hmeant]
  by_contra hne
  refine h.others meant (List.mem_of_find?_eq_some hmeant) (fun heq => hne (congrArg some heq)) ?_
  rw [hlower, Search.lower_cellQuestion]
  exact (List.prefix_append _ _).isInfix

private theorem readValue_lower (t : Text) : (Value.text (readValue t.lower)).cellText.lower = readValue t.lower := by
  have hsettled : (readValue t.lower).lower = readValue t.lower := by
    refine Text.lower_of_lowerChar fun c hc => ?_
    have hmem : c ∈ t.lower := ((Search.infix_readValue _).trans (Search.prefix_sentence _).isInfix).subset hc
    exact Text.lowerChar_of_mem_lower hmem
  have hstrip : (readValue t.lower).strip = readValue t.lower := Text.strip_strip _
  rw [Value.cellText_text, hstrip, hsettled]

/-- Without a number of records, the strict search carries out the conditions of the question. -/
theorem searchStrict_of_conditions {q : Text} {conditions : List Condition} {result : Result}
    (hlast : Search.lastDigits? q = none) (hconditions : Search.conditions s.columns q = conditions)
    (hne : conditions ≠ []) (hresult : s.execute (.under .list conditions) = .ok result) :
    s.searchStrict q =
      .ok { mode := some .filters, hits := result.hits, conditions, description := result.description } := by
  have hcount : Search.lastCount? q = .ok none := by
    rw [Search.lastCount?, hlast]
  have hfilled : conditions.isEmpty = false := by simpa using hne
  unfold searchStrict
  rw [hcount, hconditions]
  change (if conditions.isEmpty then _ else (s.execute (.under .list conditions)).bind _) = _
  rw [hfilled, hresult]
  rfl

/-- A question for the cells of a column with a text finds the records that have what is read of it for a text. -/
theorem exists_finding_cellQuestion (hs : build source = .ok s) (hstrip : t.strip = t)
    (h : AsksAlone s.columns column t) :
    ∃ finding, s.search (cellQuestion column t) false = .ok finding ∧ finding.mode = some .filters ∧
      ∀ hit, hit ∈ finding.hits ↔ hit ∈ s.hits ∧ readValue t.lower ∈ hit.1.textsAt s.columns column := by
  have hnames : ∀ other ∈ s.columns, other.IsName := fun _ => isName_of_build hs
  have hone : s.columns.count column ≤ 1 := by
    rw [columns_of_build hs]
    refine Header.count_columns_le_one fun hmem => ?_
    rcases h.title.isLetterOrDigit_or hmem with hletter | hspace
    · exact absurd hletter (by decide)
    · exact absurd hspace (by decide)
  let condition : Condition := ⟨column, .equals, .text (readValue t.lower)⟩
  have hconditions : Search.conditions s.columns (cellQuestion column t) = [condition] :=
    Search.conditions_cellQuestion hnames hone hstrip h
  have hplan : (Plan.under .list [condition]).conditions s.columns = [condition] := by
    simp [Plan.conditions, Plan.under, Filter.condition?_toFilter, condition, resolve?_of_asksAlone hnames h]
  obtain ⟨result, hresult, hhits, -⟩ := exists_execute_of_isTotal hplan rfl (by simp [Plan.under])
  have hsearch := searchStrict_of_conditions h.last hconditions (List.cons_ne_nil condition []) hresult
  rw [← strip_cellQuestion (hnames column h.mem) hstrip h.sayable.ne_nil] at hsearch
  refine ⟨_, hsearch, rfl, fun hit => ?_⟩
  have hholds : condition.holds s.columns hit.1 =
      .ok ((hit.1.textsAt s.columns column).any fun own => own == readValue t.lower) := by
    change Except.ok (List.any _ fun own => own == (Value.text (readValue t.lower)).cellText.lower) = _
    rw [readValue_lower]
  change hit ∈ result.hits ↔ _
  rw [hhits, List.mem_filter, hholds]
  simp

/-- The record of a cell is found by a question with the cell's text, unless a full stop behind the first character of
the text ends the value; then it is found if what is read up to there is the date in the cell as written out. -/
theorem search_finds_cell_iff (hs : build source = .ok s) (hhit : hit ∈ s.hits)
    (h : AsksAlone s.columns column (hit.1.get column).cellText) :
    let t := (hit.1.get column).cellText
    ∃ finding, s.search (cellQuestion column t) false = .ok finding ∧ finding.mode = some .filters ∧
      (hit ∈ finding.hits ↔ '.' ∉ t.drop 1 ∨ readValue t.lower ∈ (hit.1.textsAt s.columns column).tail) := by
  intro t
  have hstrip : t.strip = t := Value.strip_cellText _
  obtain ⟨finding, hfinding, hmode, hhits⟩ := exists_finding_cellQuestion hs hstrip h
  refine ⟨finding, hfinding, hmode, ?_⟩
  have hdrop : '.' ∈ t.lower.drop 1 ↔ '.' ∈ t.drop 1 := Text.mem_drop_lower_iff (by decide) (by decide)
  have hread : readValue t.lower = t.lower ↔ '.' ∉ t.drop 1 := by
    rw [← hdrop]
    refine ⟨fun heq hstop => Search.readValue_ne_self hstop heq, fun hstop => ?_⟩
    exact Search.readValue_eq_self (Text.strip_lower hstrip) h.sayable.and_not_mem hstop
  rw [hhits, Record.textsAt_eq_cons, List.mem_cons, List.tail_cons, hread]
  exact and_iff_right hhit

def siteCosts : Dataset where
  header := ["Work Site", "Cost"]
  rows := [.list ["Unit 7 - North", "2.5"]]
  name := []

theorem exists_siteCosts : ∃ s hit, build siteCosts = .ok s ∧ s.columns = ["Work Site", "Cost"] ∧ hit ∈ s.hits ∧
    (hit.1.get "Work Site").cellText = "Unit 7 - North" ∧ (hit.1.get "Cost").cellText = "2.5" ∧
      hit.1.textsAt s.columns "Cost" = ["2.5".toList] := by
  have hrun : (build siteCosts).map (fun s => (s.columns, s.hits.map fun hit =>
      ((hit.1.get "Work Site").cellText, (hit.1.get "Cost").cellText, hit.1.textsAt s.columns "Cost"))) =
        .ok (["Work Site", "Cost"], [("Unit 7 - North", "2.5", ["2.5"])]) := by
    decide +kernel
  obtain ⟨s, hs, hfacts⟩ := map_eq_ok_iff.mp hrun
  obtain ⟨hcolumns, hhits⟩ := Prod.mk.inj hfacts
  obtain ⟨hit, rest, hhit, hcells, -⟩ := List.map_eq_cons_iff.mp hhits
  simp only [Prod.mk.injEq] at hcells
  exact ⟨s, hit, hs, hcolumns, by simp [hhit], hcells⟩

theorem search_finds_site : ∃ s hit finding, build siteCosts = .ok s ∧ hit ∈ s.hits ∧
    AsksAlone s.columns "Work Site" (hit.1.get "Work Site").cellText ∧
      s.search (cellQuestion "Work Site" (hit.1.get "Work Site").cellText) false = .ok finding ∧
        finding.mode = some .filters ∧ hit ∈ finding.hits := by
  obtain ⟨s, hit, hs, hcolumns, hhit, hsite, -, -⟩ := exists_siteCosts
  have hasks : AsksAlone s.columns "Work Site" (hit.1.get "Work Site").cellText := by
    rw [hcolumns, hsite]
    exact ⟨by decide, ⟨["Work", "Site"], by decide, by decide, by decide⟩,
      ⟨by decide, by decide, by decide +kernel⟩, by decide +kernel, by decide +kernel⟩
  obtain ⟨finding, hfinding, hmode, hfound⟩ := search_finds_cell_iff hs hhit hasks
  refine ⟨s, hit, finding, hs, hhit, hasks, hfinding, hmode, hfound.mpr (.inl ?_)⟩
  rw [hsite]
  decide

/-- The cost is not found by its text, as its decimal point is taken for the end of the sentence. -/
theorem cost_not_found : ∃ s hit finding, build siteCosts = .ok s ∧ hit ∈ s.hits ∧
    AsksAlone s.columns "Cost" (hit.1.get "Cost").cellText ∧
      s.search (cellQuestion "Cost" (hit.1.get "Cost").cellText) false = .ok finding ∧ hit ∉ finding.hits := by
  obtain ⟨s, hit, hs, hcolumns, hhit, -, hcost, htexts⟩ := exists_siteCosts
  have hasks : AsksAlone s.columns "Cost" (hit.1.get "Cost").cellText := by
    rw [hcolumns, hcost]
    exact ⟨by decide, ⟨["Cost"], by decide, by decide, by decide⟩,
      ⟨by decide, by decide, by decide +kernel⟩, by decide +kernel, by decide +kernel⟩
  obtain ⟨finding, hfinding, -, hfound⟩ := exists_finding_cellQuestion hs (Value.strip_cellText _) hasks
  refine ⟨s, hit, finding, hs, hhit, hasks, hfinding, fun hmem => ?_⟩
  obtain ⟨-, hread⟩ := (hfound hit).mp hmem
  rw [hcost, htexts] at hread
  exact absurd hread (by decide +kernel)

end Snapshot
end AskTable
