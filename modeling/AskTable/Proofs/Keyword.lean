import AskTable.Proofs.Counting
import AskTable.Proofs.Words
import Mathlib.Data.List.Nodup

/-! What a keyword leads to. Where the index knows the keyword of a question, the column that is asked for it
holds it in some record. -/
namespace AskTable

namespace Recency

variable {columns : List Text} {hits sorted : List Hit}

theorem length_sort (h : sort columns hits = .ok sorted) : sorted.length = hits.length := by
  unfold sort at h
  cases hcolumn : column? columns with
  | none =>
    rw [hcolumn] at h
    rw [Except.ok.inj h]
  | some column =>
    rw [hcolumn] at h
    obtain ⟨dated, hdated, h⟩ := bind_eq_ok_iff.mp h
    have hlength : hits.length = dated.length := (mapM_eq_ok_iff.mp hdated).length_eq
    cases hclash : clash? (dated.filterMap (·.2)).reverse with
    | some fault =>
      rw [hclash] at h
      cases h
    | none =>
      rw [hclash] at h
      obtain rfl := Except.ok.inj h
      rw [sortDated, List.length_map, List.length_mergeSort, hlength]

end Recency

namespace Field

variable {columns : List Text} {column : Text}

/-- Where no two columns share a name in any case, the name of a column means that column. -/
theorem resolve?_self (hname : column.IsName) (hcolumn : column ∈ columns)
    (hdistinct : (columns.map plain).Nodup) : resolve? column columns = some column := by
  rw [resolve?_of_mem hname hcolumn]
  have hfound : (columns.find? fun other => plain other == plain column).isSome = true :=
    List.find?_isSome.mpr ⟨column, hcolumn, by simp⟩
  obtain ⟨found, hfound⟩ := Option.isSome_iff_exists.mp hfound
  have hplain : plain found = plain column := by simpa using List.find?_some hfound
  have hmem : found ∈ columns := List.mem_of_find?_eq_some hfound
  rw [hfound, List.inj_on_of_nodup_map hdistinct hmem hcolumn hplain]

end Field

namespace Snapshot

variable {source : Dataset} {s : Snapshot} {c : Condition} {p : Plan} {word : Text}

theorem mem_keywords_iff : word ∈ s.keywords.map (·.1) ↔ s.owners word ≠ [] := by
  simp only [keywords, owners, List.map_map, List.mem_map, List.mem_eraseDups, List.mem_flatMap,
    Function.comp_apply, exists_eq_right, ne_eq, List.map_eq_nil_iff, List.filter_eq_nil_iff,
    List.contains_iff_mem, not_forall, not_not, exists_prop]

/-- A column that owns a word has a record in which the column contains it. -/
theorem exists_holds_of_mem_owners {column t : Text} (hs : build source = .ok s)
    (hcolumn : column ∈ s.owners t.lower) :
    ∃ r ∈ s.records, Condition.holds s.columns ⟨column, .contains, .text t⟩ r = .ok true := by
  obtain ⟨-, -, r, hr, htoken⟩ := (mem_owners_iff hs).mp hcolumn
  obtain ⟨-, hsolid, hinside⟩ := of_mem_cellTokens htoken
  refine ⟨r, hr, ?_⟩
  have hwanted : (Value.text t).cellText.lower = t.lower := by
    rw [Value.cellText_text, (Text.IsSolid.of_lower hsolid).strip_eq]
  have hown : (r.get column).cellText.lower ∈ r.textsAt s.columns column := by
    rw [Record.textsAt_eq_cons]
    exact List.mem_cons_self
  have hfound : (r.textsAt s.columns column).any (fun text => text.contains t.lower) = true :=
    List.any_eq_true.mpr ⟨_, hown, Text.contains_eq_true_iff.mpr hinside⟩
  unfold Condition.holds
  dsimp only
  rw [hwanted]
  exact congrArg Except.ok hfound

/-- What a plan with one condition selects is not empty if the condition holds of a record. -/
theorem hits_ne_nil_of_holds {r : Record} {result : Result} (hp : p.conditions s.columns = [c])
    (hr : r ∈ s.records) (hholds : c.holds s.columns r = .ok true) (h : s.execute p = .ok result) :
    result.hits ≠ [] := by
  obtain ⟨selected, hits, hselected, hkept, rfl⟩ := execute_eq_ok_iff.mp h
  rw [hp] at hselected
  have hnonempty : selected ≠ [] := by
    obtain ⟨i, hi⟩ := List.mem_iff_getElem?.mp hr
    have hhit : (r, i) ∈ s.hits := List.mem_zipIdx_iff_getElem?.mpr hi
    have hall : Condition.allHold s.columns [c] r = .ok true := by
      simp only [Condition.allHold, List.allM, hholds]
      rfl
    exact List.ne_nil_of_mem ((mem_selectM_iff hselected).mpr ⟨hhit, hall⟩)
  dsimp only
  unfold keep at hkept
  split_ifs at hkept with hintent
  · obtain ⟨sorted, hsorted, rfl⟩ := map_eq_ok_iff.mp hkept
    have hlength := Recency.length_sort hsorted
    have hpos : 0 < selected.length := List.length_pos_iff.mpr hnonempty
    refine List.length_pos_iff.mp ?_
    rw [List.length_take, hlength]
    omega
  · obtain rfl := Except.ok.inj hkept
    exact hnonempty

end Snapshot

namespace Question

variable {source : Dataset} {s : Snapshot} {q t : Text} {c : Condition}

/-- A word that the index knows is asked for in a column that has it. -/
theorem keywordColumn_mem_owners (hs : Snapshot.build source = .ok s) (h : s.owners t.lower ≠ []) :
    keywordColumn t (some s) ∈ s.owners t.lower := by
  obtain ⟨owner, howner⟩ := List.exists_mem_of_ne_nil _ h
  have hcolumn : owner ∈ s.columns := ((Snapshot.mem_owners_iff hs).mp howner).1
  have hfound : (s.columns.find? (s.owners t.lower).contains).isSome = true :=
    List.find?_isSome.mpr ⟨owner, hcolumn, by simpa using howner⟩
  obtain ⟨found, hfound⟩ := Option.isSome_iff_exists.mp hfound
  unfold keywordColumn
  dsimp only
  rw [Option.bind_some, hfound, Option.orElse_eq_orElse, Option.orElse_eq_or]
  cases hpreferred : s.columns.find? fun column => (s.owners t.lower).contains column &&
      (SemanticField.patterns .action ++ SemanticField.patterns .description).any
        column.lower.contains with
  | none => simpa using List.find?_some hfound
  | some column =>
    have hboth := List.find?_some hpreferred
    simp only [Bool.and_eq_true, List.contains_iff_mem] at hboth
    exact hboth.1

/-- A keyword without blanks is asked for in the column that the keyword itself leads to. -/
theorem keyword?_eq_of_isSolid (h : keyword? q (some s) = some c) (ht : c.operand = .text t)
    (hsolid : Text.IsSolid t) (hne : t ≠ []) :
    c = ⟨keywordColumn t (some s), .contains, .text t⟩ := by
  unfold keyword? at h
  dsimp only at h
  split at h
  · obtain rfl := Option.some.inj h
    obtain rfl := Value.text.inj ht
    rw [hsolid.words_eq hne]
    rfl
  · obtain ⟨word, -, rfl⟩ := Option.map_eq_some_iff.mp h
    obtain rfl := Value.text.inj ht
    rfl

end Question

namespace Snapshot

/-- Where no two columns share a name in any case, and the index knows the keyword of a question, a plan with the
filter for that keyword finds a record. It can be carried out, unless records are to be sorted that have no
order. -/
theorem keyword_finds_record {source : Dataset} {s : Snapshot} {question keyword : Text} {c : Condition}
    {p : Plan} (hs : build source = .ok s) (hdistinct : (s.columns.map Field.plain).Nodup)
    (h : Question.keyword? question (some s) = some c) (hkeyword : c.operand = .text keyword)
    (hknown : keyword.lower ∈ s.keywords.map (·.1)) (hp : p.filters = [c.toFilter]) :
    (p.intent ≠ .lastAction → Succeeds (s.execute p)) ∧
      ∀ result, s.execute p = .ok result → result.hits ≠ [] := by
  have howners : s.owners keyword.lower ≠ [] := mem_keywords_iff.mp hknown
  obtain ⟨owner, howner⟩ := List.exists_mem_of_ne_nil _ howners
  obtain ⟨-, -, _, -, htoken⟩ := (mem_owners_iff hs).mp howner
  obtain ⟨hfilled, hsolid, -⟩ := of_mem_cellTokens htoken
  have hne : keyword ≠ [] := by
    rintro rfl
    exact hfilled rfl
  obtain rfl := Question.keyword?_eq_of_isSolid h hkeyword (Text.IsSolid.of_lower hsolid) hne
  have hcolumn := Question.keywordColumn_mem_owners hs howners
  have hmem := ((mem_owners_iff hs).mp hcolumn).1
  have hconditions : p.conditions s.columns =
      [⟨Question.keywordColumn keyword (some s), .contains, .text keyword⟩] := by
    have hresolved := Field.resolve?_self (isName_of_build hs hmem) hmem hdistinct
    rw [Plan.conditions, hp, List.filterMap_cons, Filter.condition?_toFilter, hresolved]
    rfl
  obtain ⟨r, hr, hholds⟩ := exists_holds_of_mem_owners hs hcolumn
  refine ⟨fun hintent => ?_, fun result hresult => hits_ne_nil_of_holds hconditions hr hholds hresult⟩
  rw [succeeds_execute_iff]
  refine ⟨canSelect_of_isTotal fun c hc => ?_, fun hlast => absurd hlast hintent⟩
  rw [hconditions] at hc
  obtain rfl := List.mem_singleton.mp hc
  rfl

def repairs : Dataset where
  header := ["Site", "Action"]
  rows := [.list ["A St", "Leak fixed"], .list ["Leak Road", "painted"]]
  name := "repairs"

theorem keyword_of_repairs_finds_record : ∃ s c result, build repairs = .ok s ∧
    Question.keyword? "anything about leak" (some s) = some c ∧ c.operand = .text "leak" ∧
    s.execute (.under .list [c]) = .ok result ∧ result.hits ≠ [] := by
  have hrun : (build repairs).map (fun s => (decide (s.columns.map Field.plain).Nodup,
      (s.keywords.map (·.1)).contains (Text.lower "leak"),
      (Question.keyword? "anything about leak" (some s)).bind (·.operand.text?))) =
        .ok (true, true, some "leak") := by
    decide +kernel
  obtain ⟨s, hs, hrun⟩ := map_eq_ok_iff.mp hrun
  obtain ⟨hdistinct, hrun⟩ := Prod.mk.inj hrun
  obtain ⟨hknown, hrun⟩ := Prod.mk.inj hrun
  obtain ⟨c, hc, hoperand⟩ := Option.bind_eq_some_iff.mp hrun
  have hkeyword : c.operand = .text "leak" := Value.eq_text_of_text? hoperand
  have hfinds := keyword_finds_record (p := .under .list [c]) hs (of_decide_eq_true hdistinct) hc
    hkeyword (List.contains_iff_mem.mp hknown) rfl
  obtain ⟨result, hresult⟩ := hfinds.1 nofun
  exact ⟨s, c, result, hs, hc, hkeyword, hresult, hfinds.2 result hresult⟩

end Snapshot
end AskTable
