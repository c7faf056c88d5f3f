import AskTable.Proofs.Index
import AskTable.Query.Search

/-! What the loose search finds. Though it reads only the columns that the keyword index gives for a word, it
finds and ranks the same records as a scan of all searchable cells. -/
namespace AskTable

section Stable

variable {α : Type} {le : α → α → Bool} {l : List α}

/-- A stable sort leaves members of one rank in their order. -/
theorem filter_mergeSort {p : α → Bool} (trans : ∀ a b c, le a b → le b c → le a c)
    (total : ∀ a b, le a b || le b a) (hp : ∀ a b, p a → p b → le a b) :
    (l.mergeSort le).filter p = l.filter p := by
  have hrank : (l.filter p).Pairwise fun a b => le a b = true :=
    List.pairwise_of_forall_mem_list fun a ha b hb =>
      hp a b (List.of_mem_filter ha) (List.of_mem_filter hb)
  have hsub := (List.sublist_mergeSort trans total hrank List.filter_sublist).filter p
  have hlength := ((List.mergeSort_perm l le).filter p).length_eq
  rw [List.filter_filter] at hsub
  simp only [Bool.and_self] at hsub
  exact (hsub.eq_of_length hlength.symm).symm

/-- Members that a stable sort cannot tell apart stand to each other as before. -/
theorem pairwise_mergeSort {r : α → α → Prop} (trans : ∀ a b c, le a b → le b c → le a c)
    (total : ∀ a b, le a b || le b a) (h : l.Pairwise r) :
    (l.mergeSort le).Pairwise fun a b => le a b = true ∧ (le b a = true → r a b) := by
  have hsorted := List.pairwise_mergeSort trans total l
  refine hsorted.and (List.pairwise_iff_forall_sublist.mpr fun {a b} hsub hba => ?_)
  have hab : le a b = true := List.pairwise_iff_forall_sublist.mp hsorted hsub
  have haa : le a a = true := by simpa using total a a
  let p : α → Bool := fun x => le a x && le x a
  have hp (x y : α) (hx : p x) (hy : p y) : le x y = true := by
    simp only [p, Bool.and_eq_true] at hx hy
    exact trans x a y hx.2 hy.1
  have hclass := hsub.filter p
  rw [filter_mergeSort trans total hp] at hclass
  -- Both members are of the rank of the first, and that rank is as it was in the list.
  have hpair : [a, b].filter p = [a, b] := by simp [p, hab, hba, haa]
  rw [hpair] at hclass
  exact List.pairwise_iff_forall_sublist.mp h (hclass.trans List.filter_sublist)

end Stable

/-- The places of a list ascend. -/
theorem pairwise_zipIdx {α : Type} (l : List α) : l.zipIdx.Pairwise fun a b => a.2 < b.2 := by
  have hplaces : (l.zipIdx.map (·.2)).Pairwise (· < ·) := by
    rw [List.zipIdx_map_snd]
    exact List.pairwise_lt_range'
  exact List.pairwise_map.mp hplaces

/-- The hits with a positive score, those with a higher one first, and those with one score in the order of
their places. -/
structure IsRanking (score : Record → Nat) (all ranked : List Hit) : Prop where
  mem_iff : ∀ hit, hit ∈ ranked ↔ hit ∈ all ∧ 0 < score hit.1
  ordered : ranked.Pairwise fun a b =>
    score b.1 < score a.1 ∨ (score a.1 = score b.1 ∧ a.2 < b.2)

namespace IsRanking

variable {score : Record → Nat} {all ranked other : List Hit}

/-- There is only one ranking of some hits. -/
theorem unique (h : IsRanking score all ranked) (h' : IsRanking score all other) : ranked = other := by
  have hnodup {l : List Hit} (hl : IsRanking score all l) : l.Nodup :=
    hl.ordered.imp fun {a b} hab heq => by
      subst heq
      omega
  refine List.Perm.eq_of_pairwise (fun a b _ _ hab hba => ?_) h.ordered h'.ordered ?_
  · omega
  · rw [List.perm_ext_iff_of_nodup (hnodup h) (hnodup h')]
    exact fun hit => (h.mem_iff hit).trans (h'.mem_iff hit).symm

theorem congr {score' : Record → Nat} (h : IsRanking score all ranked)
    (hscore : ∀ hit ∈ all, score hit.1 = score' hit.1) : IsRanking score' all ranked where
  mem_iff hit := by
    rw [h.mem_iff]
    exact and_congr_right fun hhit => by rw [hscore hit hhit]
  ordered := by
    refine h.ordered.imp_of_mem fun {a b} ha hb hab => ?_
    rwa [← hscore a ((h.mem_iff a).mp ha).1, ← hscore b ((h.mem_iff b).mp hb).1]

end IsRanking

namespace Search

variable {found : List (Text × List Text)} {hits : List Hit}

theorem rank_eq_mergeSort : rank found hits =
    (hits.filter fun hit => score found hit.1 != 0).mergeSort
      fun a b => score found b.1 ≤ score found a.1 := by
  have hsort := List.map_mergeSort (f := fun hit : Hit => (hit, score found hit.1))
    (l := hits.filter fun hit => score found hit.1 != 0)
    (r := fun a b => score found b.1 ≤ score found a.1) (s := fun a b => b.2 ≤ a.2)
    fun _ _ _ _ => rfl
  unfold rank
  dsimp only
  rw [List.filter_map]
  refine (congrArg _ hsort.symm).trans ?_
  rw [List.map_map]
  exact List.map_id _

theorem isRanking_rank (h : hits.Pairwise fun a b => a.2 < b.2) :
    IsRanking (score found) hits (rank found hits) := by
  rw [rank_eq_mergeSort]
  constructor
  · intro hit
    simp [Nat.pos_iff_ne_zero]
  · refine (pairwise_mergeSort ?_ ?_ (h.filter _)).imp fun {a b} hab => ?_
    · simp only [decide_eq_true_eq]
      omega
    · simp only [Bool.or_eq_true, decide_eq_true_eq]
      omega
    · simp only [decide_eq_true_eq] at hab
      omega

end Search

namespace Snapshot

def mentions (s : Snapshot) (r : Record) (token : Text) : Bool :=
  s.columns.any fun column => s.isSearchable column && (cellTokens (r.get column)).contains token

def mentionCount (s : Snapshot) (question : Text) (r : Record) : Nat :=
  (questionTokens question).eraseDups.countP (s.mentions r)

variable {source : Dataset} {s : Snapshot} {r : Record} {question : Text}

/-- On a record of the table, the columns that the index gives for a word are enough to look at. -/
theorem any_owners_eq_mentions (hs : build source = .ok s) (hr : r ∈ s.records) (token : Text) :
    ((s.owners token).any fun column => (cellTokens (r.get column)).contains token) =
      s.mentions r token := by
  rw [Bool.eq_iff_iff]
  simp only [mentions, List.any_eq_true, mem_owners_iff hs, List.contains_iff_mem, Bool.and_eq_true]
  constructor
  · rintro ⟨column, ⟨hcolumn, hsearchable, -⟩, htoken⟩
    exact ⟨column, hcolumn, hsearchable, htoken⟩
  · rintro ⟨column, hcolumn, hsearchable, htoken⟩
    exact ⟨column, ⟨hcolumn, hsearchable, r, hr, htoken⟩, htoken⟩

theorem score_lookup (hs : build source = .ok s) (hr : r ∈ s.records) :
    Search.score (s.lookup question) r = s.mentionCount question r := by
  rw [Search.score, lookup, List.countP_filter, List.countP_map, mentionCount]
  refine List.countP_congr fun token _ => ?_
  simp only [Function.comp_apply, any_owners_eq_mentions hs hr, Bool.and_eq_true,
    and_iff_left_iff_imp]
  intro hmentions
  rw [← any_owners_eq_mentions hs hr] at hmentions
  cases howners : s.owners token with
  | nil => simp [howners] at hmentions
  | cons column rest => rfl

theorem hits_searchLoose (s : Snapshot) (q : Text) :
    (s.searchLoose q).hits = Search.rank (s.lookup q) s.hits := by
  unfold searchLoose
  dsimp only
  split_ifs with hnone
  · rw [List.isEmpty_iff.mp hnone, Search.rank_eq_mergeSort]
    simp [Search.score]
  · rfl

theorem pairwise_hits (s : Snapshot) : s.hits.Pairwise fun a b => a.2 < b.2 :=
  pairwise_zipIdx s.records

theorem mentionCount_pos_iff : 0 < s.mentionCount question r ↔
    ∃ token ∈ questionTokens question, s.mentions r token = true := by
  simp only [mentionCount, List.countP_pos_iff, List.mem_eraseDups]

/-- The loose search finds what a scan of all searchable cells finds, in the order in which the scan ranks it.
It comes back with nothing exactly if no word of the question is in such a cell. -/
theorem search_loose_isRanking (hs : build source = .ok s) (question : Text) :
    ∃ found, s.search question true = .ok found ∧
      IsRanking (s.mentionCount question) s.hits found.hits ∧
      (found.hits = [] ↔ ∀ r ∈ s.records, ∀ token ∈ questionTokens question,
        s.mentions r token = false) := by
  have hranking : IsRanking (s.mentionCount question) s.hits (s.searchLoose question.strip).hits := by
    rw [hits_searchLoose]
    refine (Search.isRanking_rank s.pairwise_hits).congr fun hit hhit => ?_
    rw [score_lookup hs (List.fst_mem_of_mem_zipIdx hhit), mentionCount, questionTokens_strip,
      mentionCount]
  refine ⟨_, rfl, hranking, ?_⟩
  rw [List.eq_nil_iff_forall_not_mem]
  constructor
  · intro hnone r hr token htoken
    by_contra hmentions
    obtain ⟨i, hi⟩ := List.mem_iff_getElem?.mp hr
    refine hnone (r, i) ((hranking.mem_iff _).mpr ⟨List.mem_zipIdx_iff_getElem?.mpr hi, ?_⟩)
    exact mentionCount_pos_iff.mpr ⟨token, htoken, eq_true_of_ne_false hmentions⟩
  · intro hnone hit hhit
    obtain ⟨hmem, hpos⟩ := (hranking.mem_iff hit).mp hhit
    obtain ⟨token, htoken, hmentions⟩ := mentionCount_pos_iff.mp hpos
    rw [hnone hit.1 (List.fst_mem_of_mem_zipIdx hmem) token htoken] at hmentions
    cases hmentions

def jobs : Dataset where
  header := ["Site", "Action"]
  rows := [.list ["A St", "leak fixed"], .list ["B St", "valve leak fixed"], .list ["C St", "painted"]]
  name := "jobs"

theorem search_jobs_isRanking : ∃ s found, build jobs = .ok s ∧
    s.records.map (s.mentionCount "valve leak") = [1, 2, 0] ∧
    s.search "valve leak" true = .ok found ∧
    IsRanking (s.mentionCount "valve leak") s.hits found.hits := by
  have hrun : (build jobs).map (fun s => s.records.map (s.mentionCount "valve leak")) =
      .ok [1, 2, 0] := by
    decide +kernel
  obtain ⟨s, hs, hcounts⟩ := map_eq_ok_iff.mp hrun
  obtain ⟨found, hfound, hranking, -⟩ := search_loose_isRanking hs "valve leak"
  exact ⟨s, found, hs, hcounts, hfound, hranking⟩

end Snapshot
end AskTable
