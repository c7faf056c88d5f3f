import AskTable.Proofs.Reordering
import AskTable.Proofs.TextTable
import Mathlib.Data.Finset.Card

/-! What is known of a table once its columns and records are: for each word the columns that it leads to, for each
column how many different texts it has and the first of them, and what a question finds. -/
namespace AskTable

section Lists

variable {α β : Type} [BEq β] {f : α → β} {l : List α}

/-- The members whose mark is on none before them, in their order. -/
def firstsBy (f : α → β) (l : List α) : List α :=
  (l.zipIdx.filter fun (a, i) => (l.take i).all fun b => !f b == f a).map (·.1)

private theorem firstsBy_concat (f : α → β) (l : List α) (a : α) :
    firstsBy f (l ++ [a]) = firstsBy f l ++ if l.any (fun b => f b == f a) then [] else [a] := by
  have hbefore : (l.zipIdx.filter fun (a', i) => ((l ++ [a]).take i).all fun b => !f b == f a') =
      l.zipIdx.filter fun (a', i) => (l.take i).all fun b => !f b == f a' := by
    refine List.filter_congr fun ⟨a', i⟩ hentry => ?_
    have hplace : i ≤ l.length := (List.snd_lt_of_mem_zipIdx hentry).le
    simp only [List.take_append_of_le_length hplace]
  rw [firstsBy, List.zipIdx_append, List.filter_append, List.map_append, hbefore, ← firstsBy]
  congr 1
  by_cases hseen : l.any (fun b => f b == f a) = true
  · simp_all
  · simp_all

theorem eraseDupsBy_eq_firstsBy [LawfulBEq β] (f : α → β) (l : List α) :
    l.eraseDupsBy (fun a b => f a == f b) = firstsBy f l := by
  induction l using List.reverseRecOn with
  | nil => rfl
  | append_singleton l a ih => rw [eraseDupsBy_concat, firstsBy_concat, ih]

theorem length_eraseDups [BEq α] [LawfulBEq α] [DecidableEq α] (l : List α) : l.eraseDups.length = l.toFinset.card := by
  have hsame : l.toFinset = l.eraseDups.toFinset := by
    ext a
    simp
  rw [hsame, List.toFinset_card_of_nodup (nodup_eraseDups l)]

end Lists

theorem mem_tokens_iff {stop : List Text} {t token : Text} (h : token ∈ tokens stop t) :
    2 ≤ token.length ∧ token ∉ stop := by
  simpa using List.of_mem_filter h

private theorem firstByText_eq_firstsBy (values : List Value) :
    firstByText values = (firstsBy Value.cellText (values.filter (!·.isBlank))).map fun v => (v.cellText, v) := by
  have hpairs (l : List Value) : (l.map fun v => (v.cellText, v)).eraseDupsBy (fun a b => a.1 == b.1) =
      (l.eraseDupsBy fun a b => a.cellText == b.cellText).map fun v => (v.cellText, v) := by
    induction l using List.reverseRecOn with
    | nil => rfl
    | append_singleton l v ih =>
      rw [List.map_append, List.map_singleton, eraseDupsBy_concat Prod.fst, ih,
        eraseDupsBy_concat Value.cellText, List.map_append, List.any_map]
      simp only [Function.comp_def]
      split <;> rfl
  rw [firstByText, hpairs, eraseDupsBy_eq_firstsBy]

namespace Profile

variable {name : Text} {records : List Record} {p : Profile}

private theorem distinct_of_ofColumn (h : ofColumn name records = .ok p) :
    p.distinct = firstByText ((records.map fun r => r.get name).filter (!·.isBlank)) := by
  obtain ⟨type, -, h⟩ := bind_eq_ok_iff.mp h
  obtain rfl := Except.ok.inj h
  rfl

end Profile

namespace Snapshot

variable {name column token question : Text} {columns : List Text} {records : List Record} {s : Snapshot}
  {owners texts : List Text}

theorem succeeds_ofRecords_iff : Succeeds (ofRecords name columns records) ↔
    ∀ column ∈ columns, Profile.IsTypable column ((records.map fun r => r.get column).filter (!·.isBlank)) := by
  have hprofiles : Succeeds (ofRecords name columns records) ↔ Succeeds (columns.eraseDups.mapM fun column =>
      (Profile.ofColumn column records).map (column, ·)) := by
    rw [ofRecords, Succeeds.bind_iff]
    constructor
    · intro hbound
      obtain ⟨profiles, h, -⟩ := hbound
      exact ⟨profiles, h⟩
    · intro hread
      obtain ⟨profiles, h⟩ := hread
      exact ⟨profiles, h, .pure⟩
  simp only [hprofiles, succeeds_mapM_iff, List.mem_eraseDups, Succeeds.map_iff, Profile.succeeds_ofColumn_iff]

/-- Each word that is in a column stands in the index with all columns that it is in. -/
theorem entry_mem_keywords_iff : (token, owners) ∈ s.keywords ↔ owners = s.owners token ∧ owners ≠ [] := by
  constructor
  · intro hentry
    have hword : s.owners token ≠ [] := mem_keywords_iff.mp (List.mem_map_of_mem hentry)
    obtain ⟨_, -, hsame⟩ := List.mem_map.mp hentry
    obtain ⟨rfl, rfl⟩ := Prod.mk.inj hsame
    exact ⟨rfl, hword⟩
  · rintro ⟨rfl, hword⟩
    obtain ⟨⟨_, _⟩, hentry, rfl⟩ := List.mem_map.mp (mem_keywords_iff.mpr hword)
    obtain ⟨_, -, hsame⟩ := List.mem_map.mp hentry
    obtain ⟨rfl, rfl⟩ := Prod.mk.inj hsame
    exact hentry

theorem nodup_keywords (s : Snapshot) : (s.keywords.map (·.1)).Nodup := by
  rw [keywords, List.map_map]
  simpa [Function.comp_def] using nodup_eraseDups _

theorem lookup_keywords (s : Snapshot) (token : Text) :
    List.lookup token s.keywords = if (s.owners token).isEmpty then none else some (s.owners token) := by
  split_ifs with hnone
  · refine List.lookup_eq_none_iff.mpr fun entry hentry => ?_
    have hword := mem_keywords_iff.mp (List.mem_map_of_mem hentry)
    rw [bne_iff_ne]
    rintro rfl
    exact hword (List.isEmpty_iff.mp hnone)
  · rw [lookup_eq_some_iff_mem, entry_mem_keywords_iff]
    · simpa using hnone
    · intro other hother _
      rw [(entry_mem_keywords_iff.mp hother).1]

/-- A question finds those of its words that are in the index, in order of first occurrence, each with its columns. -/
theorem lookup_eq_filterMap (s : Snapshot) (question : Text) :
    s.lookup question = (firstsBy id (questionTokens question)).filterMap fun token =>
      (List.lookup token s.keywords).map (token, ·) := by
  have hfirsts : (questionTokens question).eraseDups = firstsBy id (questionTokens question) :=
    eraseDupsBy_eq_firstsBy id _
  rw [lookup, hfirsts, List.filter_map, ← List.filterMap_eq_map, List.filterMap_filter]
  refine List.filterMap_congr fun token _ => ?_
  rw [lookup_keywords]
  by_cases hnone : (s.owners token).isEmpty = true
  · simp_all
  · simp_all

/-- What the index of a snapshot holds. -/
structure IsIndexed (s : Snapshot) : Prop where
  /-- Every column has a profile, and nothing else has. -/
  profile_iff : ∀ column, (s.profile? column).isSome ↔ column ∈ s.columns
  /-- A word stands in the index once. -/
  words_nodup : (s.keywords.map (·.1)).Nodup
  /-- A word leads to a column exactly if the column is searchable and the word is in one of its cells. -/
  leads_iff : ∀ token column, (∃ owners, (token, owners) ∈ s.keywords ∧ column ∈ owners) ↔
    s.isSearchable column = true ∧ ∃ r ∈ s.records, token ∈ cellTokens (r.get column)
  /-- A word in the index leads to some column; it has two characters or more and is no stop word. -/
  word : ∀ token owners, (token, owners) ∈ s.keywords →
    owners ≠ [] ∧ 2 ≤ token.length ∧ token ∉ stopWords
  /-- What is counted in a column are its different texts. -/
  counted : ∀ column p, s.profile? column = some p →
    p.distinct.length = ((s.filled column).map Value.cellText).toFinset.card
  /-- The samples of a column are the first cells in the order of the records that have a new text. -/
  sampled : ∀ column p, s.profile? column = some p →
    p.samples = (firstsBy Value.cellText (s.filled column)).take Profile.sampleCount
  /-- The different texts in small form are kept for each searchable column, once, and for no other. -/
  unique_nodup : (s.uniqueValues.map (·.1)).Nodup
  unique_iff : ∀ column, (∃ texts, (column, texts) ∈ s.uniqueValues) ↔ s.isSearchable column = true
  mem_unique_iff : ∀ column texts, (column, texts) ∈ s.uniqueValues → ∀ t,
    t ∈ texts ↔ ∃ v ∈ s.filled column, v.cellText.lower = t
  /-- A question finds those of its words that are in the index, in order of first occurrence, each with all columns
  that it leads to. -/
  found : ∀ question, s.lookup question = (firstsBy id (questionTokens question)).filterMap fun token =>
    (List.lookup token s.keywords).map (token, ·)

theorem IsProfiled.leads_iff (h : s.IsProfiled) :
    (∃ owners, (token, owners) ∈ s.keywords ∧ column ∈ owners) ↔
      s.isSearchable column = true ∧ ∃ r ∈ s.records, token ∈ cellTokens (r.get column) := by
  have howned : (∃ owners, (token, owners) ∈ s.keywords ∧ column ∈ owners) ↔ column ∈ s.owners token := by
    simp only [entry_mem_keywords_iff]
    constructor
    · rintro ⟨_, ⟨rfl, -⟩, hcolumn⟩
      exact hcolumn
    · exact fun hcolumn => ⟨_, ⟨rfl, List.ne_nil_of_mem hcolumn⟩, hcolumn⟩
  rw [howned, h.mem_owners_iff]
  refine ⟨fun ⟨_, hrest⟩ => hrest, fun hrest => ⟨?_, hrest⟩⟩
  obtain ⟨p, hp, -⟩ := h.isSearchable_iff.mp hrest.1
  exact (h.mem_profiles_iff.mp hp).1

theorem IsProfiled.word (h : s.IsProfiled) (hentry : (token, owners) ∈ s.keywords) :
    owners ≠ [] ∧ 2 ≤ token.length ∧ token ∉ stopWords := by
  obtain ⟨rfl, hsome⟩ := entry_mem_keywords_iff.mp hentry
  obtain ⟨column, hcolumn⟩ := List.exists_mem_of_ne_nil _ hsome
  obtain ⟨-, -, r, -, htoken⟩ := h.mem_owners_iff.mp hcolumn
  exact ⟨hsome, mem_tokens_iff htoken⟩

theorem IsProfiled.distinct_eq (h : s.IsProfiled) {p : Profile} (hp : s.profile? column = some p) :
    p.distinct = (firstsBy Value.cellText (s.filled column)).map fun v => (v.cellText, v) := by
  rw [Profile.distinct_of_ofColumn (h.profile?_eq_some_iff.mp hp).2, ← filled, firstByText_eq_firstsBy,
    filter_filled]

theorem IsProfiled.map_fst_distinct (h : s.IsProfiled) {p : Profile} (hp : s.profile? column = some p) :
    p.distinct.map (·.1) = ((s.filled column).map Value.cellText).eraseDups := by
  rw [h.distinct_eq hp, List.map_map, ← map_eraseDupsBy, eraseDupsBy_eq_firstsBy]
  rfl

theorem IsProfiled.isIndexed (h : s.IsProfiled) : s.IsIndexed where
  profile_iff column := by
    rw [Option.isSome_iff_exists]
    refine ⟨fun ⟨p, hp⟩ => (h.profile?_eq_some_iff.mp hp).1, fun hcolumn => ?_⟩
    obtain ⟨p, hp, -⟩ := h.exists_profile hcolumn
    exact ⟨p, hp⟩
  words_nodup := nodup_keywords s
  leads_iff _ _ := h.leads_iff
  word _ _ := h.word
  counted column p hp := by
    rw [← length_eraseDups, ← h.map_fst_distinct hp, List.length_map]
  sampled column p hp := by
    rw [Profile.samples, h.distinct_eq hp, ← List.map_take, List.map_map]
    exact List.map_id _
  unique_nodup := by
    have hkeys : s.uniqueValues.map (·.1) = (s.profiles.filter (·.2.searchable)).map (·.1) := by
      simp [uniqueValues, Function.comp_def]
    rw [hkeys]
    refine List.Nodup.sublist (List.filter_sublist.map _) ?_
    rw [h.map_fst_profiles]
    exact nodup_eraseDups _
  unique_iff column := by
    simp [uniqueValues, h.isSearchable_iff]
  mem_unique_iff column texts hentry t := by
    obtain ⟨⟨_, p⟩, hp, hsame⟩ := List.mem_map.mp hentry
    obtain ⟨rfl, rfl⟩ := Prod.mk.inj hsame
    have hprofile := h.profile?_eq_some_iff.mpr (h.mem_profiles_iff.mp (List.mem_of_mem_filter hp))
    have htexts : (p.distinct.map fun entry => entry.1.lower) = (p.distinct.map (·.1)).map Text.lower := by
      rw [List.map_map]
      rfl
    rw [Profile.uniqueValues, List.mem_eraseDups, htexts, h.map_fst_distinct hprofile]
    simp
  found := lookup_eq_filterMap s

/-- The index of columns and records can be made exactly if the types of the columns can be told, and it holds what it
should. -/
theorem index_of_records (name : Text) (columns : List Text) (records : List Record) :
    (Succeeds (ofRecords name columns records) ↔ ∀ column ∈ columns,
      Profile.IsTypable column ((records.map fun r => r.get column).filter (!·.isBlank))) ∧
    ∀ s, ofRecords name columns records = .ok s →
      s.columns = columns ∧ s.records = records ∧ s.IsIndexed := by
  refine ⟨succeeds_ofRecords_iff, fun s h => ?_⟩
  obtain ⟨-, hcolumns, hrecords, hprofiled⟩ := ofRecords_eq_ok_iff.mp h
  exact ⟨hcolumns, hrecords, hprofiled.isIndexed⟩

def halls : List Record :=
  [[("Hall", .text "North Hall")], [("Hall", .text "north hall ")], [("Hall", .int 7)]]

theorem index_of_halls : ∃ s, ofRecords "Halls" ["Hall"] halls = .ok s ∧
    s.columns = (["Hall"] : List Text) ∧ s.records = halls ∧ s.IsIndexed ∧
    s.keywords = ([("north", ["Hall"]), ("hall", ["Hall"])] : List (Text × List Text)) ∧
    s.uniqueValues = ([("Hall", ["north hall", "7"])] : List (Text × List Text)) := by
  have hmade : (ofRecords "Halls" ["Hall"] halls).map (fun s => (s.keywords, s.uniqueValues)) =
      .ok ([("north", ["Hall"]), ("hall", ["Hall"])], [("Hall", ["north hall", "7"])]) := by
    decide +kernel
  obtain ⟨s, hs, hentries⟩ := map_eq_ok_iff.mp hmade
  obtain ⟨hkeywords, hunique⟩ := Prod.mk.inj hentries
  obtain ⟨hcolumns, hrecords, hindexed⟩ := (index_of_records _ _ _).2 s hs
  exact ⟨s, hs, hcolumns, hrecords, hindexed, hkeywords, hunique⟩

end Snapshot
end AskTable
