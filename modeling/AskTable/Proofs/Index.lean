import AskTable.Proofs.Header

/-! What the keyword index holds. A word leads to a column exactly if the column is searchable and the word is
found in one of its cells, read as it stands in its record. -/
namespace AskTable

section Lists

variable {α β : Type}

/-- Where a key has only one value, looking it up finds the entry with it. -/
theorem lookup_eq_some_iff_mem [BEq α] [LawfulBEq α] {entries : List (α × β)} {key : α} {value : β}
    (h : ∀ other, (key, other) ∈ entries → (key, value) ∈ entries → other = value) :
    List.lookup key entries = some value ↔ (key, value) ∈ entries := by
  have hmem {other : β} (hfound : List.lookup key entries = some other) : (key, other) ∈ entries := by
    obtain ⟨before, after, rfl, -⟩ := List.lookup_eq_some_iff.mp hfound
    simp
  refine ⟨hmem, fun hvalue => ?_⟩
  cases hfound : List.lookup key entries with
  | none => simpa using List.lookup_eq_none_iff.mp hfound _ hvalue
  | some other => rw [h other (hmem hfound) hvalue]

/-- Dropping each member with the mark of one before it leaves the members whose mark is new. -/
theorem eraseDupsBy_concat [BEq β] [LawfulBEq β] (f : α → β) (l : List α) (a : α) :
    (l ++ [a]).eraseDupsBy (fun a b => f a == f b) =
      l.eraseDupsBy (fun a b => f a == f b) ++ if l.any (fun b => f b == f a) then [] else [a] := by
  match l with
  | [] => rfl
  | x :: rest =>
    rw [List.cons_append, List.eraseDupsBy_cons, List.eraseDupsBy_cons, List.filter_append]
    by_cases hsame : f x = f a
    · simp [hsame]
    · have hlast : [a].filter (fun b => decide ((f b == f x) = false)) = [a] := by simp [Ne.symm hsame]
      have hany : (rest.filter fun b => decide ((f b == f x) = false)).any (fun b => f b == f a) =
          (x :: rest).any fun b => f b == f a := by
        rw [Bool.eq_iff_iff]
        simp only [List.any_eq_true, List.mem_filter, List.mem_cons, beq_iff_eq, decide_eq_true_eq,
          beq_eq_false_iff_ne]
        constructor
        · rintro ⟨b, ⟨hb, -⟩, hmark⟩
          exact ⟨b, .inr hb, hmark⟩
        · rintro ⟨b, rfl | hb, hmark⟩
          · exact absurd hmark hsame
          · exact ⟨b, ⟨hb, fun heq => hsame (heq.symm.trans hmark)⟩, hmark⟩
      rw [hlast, eraseDupsBy_concat, hany, List.cons_append]
termination_by l.length
decreasing_by exact Nat.lt_succ_of_le (List.length_filter_le _ _)

/-- Dropping all but the first of the members with one mark leaves the different marks. -/
theorem map_eraseDupsBy [BEq β] [LawfulBEq β] (f : α → β) (l : List α) :
    (l.eraseDupsBy fun a b => f a == f b).map f = (l.map f).eraseDups := by
  induction l using List.reverseRecOn with
  | nil => rfl
  | append_singleton l a ih =>
    rw [eraseDupsBy_concat, List.map_append, List.map_append, List.map_singleton, List.eraseDups_append, ih]
    by_cases hseen : f a ∈ l.map f
    · have hany : l.any (fun b => f b == f a) = true := by simpa using hseen
      simp [List.removeAll, hseen, hany]
    · have hany : l.any (fun b => f b == f a) = false := by simpa using hseen
      simp [List.removeAll, hseen, hany, List.eraseDups_cons]

theorem nodup_eraseDups [BEq α] [LawfulBEq α] (l : List α) : l.eraseDups.Nodup := by
  match l with
  | [] => exact List.nodup_nil
  | a :: rest =>
    rw [List.eraseDups_cons, List.nodup_cons]
    refine ⟨fun hmem => ?_, nodup_eraseDups _⟩
    rw [List.mem_eraseDups, List.mem_filter] at hmem
    simp at hmem
termination_by l.length
decreasing_by exact Nat.lt_succ_of_le (List.length_filter_le _ _)

end Lists

theorem Value.cellText_text (t : Text) : (Value.text t).cellText = t.strip := by
  unfold cellText
  split_ifs with hblank
  · exact (Text.strip_eq_nil_of_isBlank hblank).symm
  · rfl

theorem cellTokens_cellText (v : Value) : cellTokens (.text v.cellText) = cellTokens v := by
  simp [cellTokens, Value.cellText_text]

/-- There are no words in a blank cell. -/
theorem isBlank_of_mem_cellTokens {v : Value} {token : Text} (h : token ∈ cellTokens v) :
    v.isBlank = false := by
  by_contra hblank
  have hnone : cellTokens v = [] := by
    simp only [cellTokens, Value.cellText, eq_true_of_ne_false hblank, if_true]
    decide
  rw [hnone] at h
  cases h

/-- Blanks around a question do not matter for its words. -/
@[simp] theorem questionTokens_strip (question : Text) :
    questionTokens question.strip = questionTokens question := by
  simp [questionTokens, Value.cellText_text]

theorem firstByText_map_fst (values : List Value) : (firstByText values).map (·.1) =
    ((values.filter (!·.isBlank)).map Value.cellText).eraseDups := by
  rw [firstByText, map_eraseDupsBy]
  simp [Function.comp_def]

theorem mem_tokens_firstByText_iff {values : List Value} {token : Text} :
    token ∈ (firstByText values).flatMap (fun entry => cellTokens (.text entry.1)) ↔
      ∃ v ∈ values, token ∈ cellTokens v := by
  have htexts : (firstByText values).flatMap (fun entry => cellTokens (.text entry.1)) =
      ((firstByText values).map (·.1)).flatMap fun t => cellTokens (.text t) := by
    rw [List.flatMap_map]
  simp only [htexts, firstByText_map_fst, List.mem_flatMap, List.mem_eraseDups, List.mem_map,
    List.mem_filter]
  constructor
  · rintro ⟨t, ⟨v, ⟨hv, -⟩, rfl⟩, htoken⟩
    exact ⟨v, hv, by rwa [cellTokens_cellText] at htoken⟩
  · rintro ⟨v, hv, htoken⟩
    -- The cell itself may have been dropped, but not its text.
    have hfilled := isBlank_of_mem_cellTokens htoken
    exact ⟨v.cellText, ⟨v, ⟨hv, by simp [hfilled]⟩, rfl⟩, by rwa [cellTokens_cellText]⟩

/-- The words of a searchable column are those of its cells. -/
theorem Profile.mem_vocabulary_iff {name token : Text} {records : List Record} {p : Profile}
    (h : ofColumn name records = .ok p) :
    token ∈ p.vocabulary ↔ p.searchable = true ∧ ∃ r ∈ records, token ∈ cellTokens (r.get name) := by
  obtain ⟨type, -, h⟩ := bind_eq_ok_iff.mp h
  obtain rfl := Except.ok.inj h
  dsimp only
  split_ifs with hsearchable
  · rw [List.mem_eraseDups, mem_tokens_firstByText_iff]
    simp only [hsearchable, true_and, List.mem_filter, List.mem_map]
    constructor
    · rintro ⟨v, ⟨⟨r, hr, rfl⟩, -⟩, htoken⟩
      exact ⟨r, hr, htoken⟩
    · rintro ⟨r, hr, htoken⟩
      exact ⟨r.get name, ⟨⟨r, hr, rfl⟩, by simp [isBlank_of_mem_cellTokens htoken]⟩, htoken⟩
  · simp [hsearchable]

namespace Snapshot

variable {source : Dataset} {s : Snapshot} {column token : Text} {p : Profile}

namespace IsProfiled

theorem mem_profiles_iff (h : s.IsProfiled) :
    (column, p) ∈ s.profiles ↔ column ∈ s.columns ∧ Profile.ofColumn column s.records = .ok p := by
  rw [mem_iff_of_mapM h]
  simp [map_eq_ok_iff]

theorem profile?_eq_some_iff (h : s.IsProfiled) :
    s.profile? column = some p ↔ column ∈ s.columns ∧ Profile.ofColumn column s.records = .ok p := by
  rw [← h.mem_profiles_iff, profile?, lookup_eq_some_iff_mem]
  intro other hother hp
  have hsame := (h.mem_profiles_iff.mp hother).2.symm.trans (h.mem_profiles_iff.mp hp).2
  exact Except.ok.inj hsame

theorem exists_profile (h : s.IsProfiled) (hcolumn : column ∈ s.columns) :
    ∃ p, s.profile? column = some p ∧ Profile.ofColumn column s.records = .ok p := by
  have hall := succeeds_mapM_iff.mp ⟨_, h⟩ column (List.mem_eraseDups.mpr hcolumn)
  obtain ⟨p, hp⟩ := Succeeds.map_iff.mp hall
  exact ⟨p, h.profile?_eq_some_iff.mpr ⟨hcolumn, hp⟩, hp⟩

theorem map_fst_profiles (h : s.IsProfiled) : s.profiles.map (·.1) = s.columns.eraseDups := by
  have hall := mapM_eq_ok_iff.mp h
  rw [← List.forall₂_eq_eq_eq, List.forall₂_map_left_iff]
  refine (hall.imp fun column entry hentry => ?_).flip
  obtain ⟨p, -, rfl⟩ := map_eq_ok_iff.mp hentry
  rfl

theorem isSearchable_iff (h : s.IsProfiled) :
    s.isSearchable column = true ↔ ∃ p, (column, p) ∈ s.profiles ∧ p.searchable = true := by
  simp only [isSearchable, Option.any_eq_true, h.profile?_eq_some_iff, h.mem_profiles_iff]

/-- A word leads to the searchable columns in which it occurs, and to no others. -/
theorem mem_owners_iff (h : s.IsProfiled) : column ∈ s.owners token ↔
    column ∈ s.columns ∧ s.isSearchable column = true ∧
      ∃ r ∈ s.records, token ∈ cellTokens (r.get column) := by
  simp only [owners, List.mem_map, List.mem_filter, List.contains_iff_mem, Prod.exists,
    exists_and_right, exists_eq_right, isSearchable, Option.any_eq_true]
  constructor
  · rintro ⟨p, hp, htoken⟩
    obtain ⟨hcolumn, hprofile⟩ := h.mem_profiles_iff.mp hp
    obtain ⟨hsearchable, hrecord⟩ := (Profile.mem_vocabulary_iff hprofile).mp htoken
    exact ⟨hcolumn, ⟨p, h.profile?_eq_some_iff.mpr ⟨hcolumn, hprofile⟩, hsearchable⟩, hrecord⟩
  · rintro ⟨-, ⟨p, hp, hsearchable⟩, hrecord⟩
    obtain ⟨hcolumn, hprofile⟩ := h.profile?_eq_some_iff.mp hp
    exact ⟨p, h.mem_profiles_iff.mpr ⟨hcolumn, hprofile⟩,
      (Profile.mem_vocabulary_iff hprofile).mpr ⟨hsearchable, hrecord⟩⟩

end IsProfiled

theorem mem_profiles_iff (h : build source = .ok s) :
    (column, p) ∈ s.profiles ↔ column ∈ s.columns ∧ Profile.ofColumn column s.records = .ok p :=
  (profiles_of_build h).mem_profiles_iff

theorem profile?_eq_some_iff (h : build source = .ok s) :
    s.profile? column = some p ↔ column ∈ s.columns ∧ Profile.ofColumn column s.records = .ok p :=
  (profiles_of_build h).profile?_eq_some_iff

theorem mem_owners_iff (h : build source = .ok s) : column ∈ s.owners token ↔
    column ∈ s.columns ∧ s.isSearchable column = true ∧
      ∃ r ∈ s.records, token ∈ cellTokens (r.get column) :=
  (profiles_of_build h).mem_owners_iff

end Snapshot
end AskTable
