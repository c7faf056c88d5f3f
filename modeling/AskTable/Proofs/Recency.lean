import AskTable.Proofs.Readable
import AskTable.Query.Recency

/-! When records have an order by date: their times can be read and are of one kind. -/
namespace AskTable

/-- What two times must share to have an order: both are days, or both are moments that tell, or both
moments that do not tell, their distance to world time. -/
def Dated.kind : Dated → Option Bool
  | .day _ => none
  | .moment m => some m.offset.isSome

theorem Dated.clash?_eq_none_iff {a b : Dated} : a.clash? b = none ↔ a.kind = b.kind := by
  cases a <;> cases b <;> simp [clash?, kind]

namespace Recency

variable {columns : List Text} {hits : List Hit}

/-- Neighbours without a clash are all of one kind. -/
theorem clash?_eq_none_iff {times : List Dated} :
    clash? times = none ↔ ∀ a ∈ times, ∀ b ∈ times, a.kind = b.kind := by
  induction times with
  | nil => simp [clash?]
  | cons a rest ih =>
    cases rest with
    | nil => simp [clash?]
    | cons b rest =>
      simp only [clash?, Option.orElse_eq_orElse, Option.orElse_eq_or, Option.or_eq_none_iff,
        Dated.clash?_eq_none_iff, ih]
      constructor
      · intro h x hx y hy
        obtain ⟨hab, hrest⟩ := h
        have hsame : ∀ z ∈ a :: b :: rest, z.kind = b.kind := by
          intro z hz
          rcases List.mem_cons.mp hz with rfl | hz
          · exact hab
          · exact hrest z hz b List.mem_cons_self
        rw [hsame x hx, hsame y hy]
      · intro h
        exact ⟨h a (by simp) b (by simp), fun x hx y hy =>
          h x (List.mem_cons_of_mem _ hx) y (List.mem_cons_of_mem _ hy)⟩

def IsSortable (columns : List Text) (hits : List Hit) : Prop :=
  ∀ column ∈ column? columns,
    (∀ hit ∈ hits, hit.1.hasReadableTime columns column = true) ∧
    ∀ hit ∈ hits, ∀ other ∈ hits, ∀ a b, hit.1.timeAt columns column = .ok (some a) →
      other.1.timeAt columns column = .ok (some b) → a.kind = b.kind

theorem mem_times_iff {column : Text} {dated : List (Hit × Option Dated)} {a : Dated}
    (h : hits.mapM (fun (hit : Hit) => (hit.1.timeAt columns column).map (hit, ·)) = .ok dated) :
    a ∈ dated.filterMap (·.2) ↔ ∃ hit ∈ hits, hit.1.timeAt columns column = .ok (some a) := by
  have hall := mapM_eq_ok_iff.mp h
  clear h
  induction hall with
  | nil => simp
  | @cons hit entry hits dated hentry _ ih =>
    obtain ⟨time, htime, rfl⟩ := map_eq_ok_iff.mp hentry
    cases time <;> simp [ih, htime, eq_comm]

/-- Sorting brings in no hit of its own. -/
theorem mem_of_mem_sort {sorted : List Hit} {hit : Hit} (h : sort columns hits = .ok sorted)
    (hhit : hit ∈ sorted) : hit ∈ hits := by
  unfold sort at h
  cases hcolumn : column? columns with
  | none =>
    rw [hcolumn] at h
    exact Except.ok.inj h ▸ hhit
  | some column =>
    rw [hcolumn] at h
    obtain ⟨dated, hdated, h⟩ := bind_eq_ok_iff.mp h
    cases hclash : clash? (dated.filterMap (·.2)).reverse with
    | some fault =>
      rw [hclash] at h
      cases h
    | none =>
      rw [hclash] at h
      obtain rfl := Except.ok.inj h
      obtain ⟨entry, hentry, rfl⟩ := List.mem_map.mp hhit
      obtain ⟨hit, hmem, htime⟩ := exists_of_mem_of_mapM hdated (List.mem_mergeSort.mp hentry)
      obtain ⟨time, -, rfl⟩ := map_eq_ok_iff.mp htime
      exact hmem

theorem succeeds_sort_iff : Succeeds (sort columns hits) ↔ IsSortable columns hits := by
  unfold sort IsSortable
  cases column? columns with
  | none => simp
  | some column =>
    simp only [Option.mem_some_iff, forall_eq', Succeeds.bind_iff]
    constructor
    · intro h
      obtain ⟨dated, hdated, hsorted⟩ := h
      have htimes : ∀ hit ∈ hits, hit.1.hasReadableTime columns column = true := by
        intro hit hhit
        have hread := succeeds_mapM_iff.mp ⟨dated, hdated⟩ hit hhit
        rwa [Succeeds.map_iff, Record.succeeds_timeAt_iff] at hread
      refine ⟨htimes, fun hit hhit other hother a b ha hb => ?_⟩
      cases hclash : clash? (dated.filterMap (·.2)).reverse with
      | some fault => simp [hclash] at hsorted
      | none =>
        refine clash?_eq_none_iff.mp hclash a ?_ b ?_
        · exact List.mem_reverse.mpr ((mem_times_iff hdated).mpr ⟨hit, hhit, ha⟩)
        · exact List.mem_reverse.mpr ((mem_times_iff hdated).mpr ⟨other, hother, hb⟩)
    · intro h
      obtain ⟨htimes, hkinds⟩ := h
      have hread : Succeeds (hits.mapM fun (hit : Hit) =>
          (hit.1.timeAt columns column).map (hit, ·)) := by
        refine succeeds_mapM_iff.mpr fun hit hhit => ?_
        rw [Succeeds.map_iff, Record.succeeds_timeAt_iff]
        exact htimes hit hhit
      obtain ⟨dated, hdated⟩ := hread
      refine ⟨dated, hdated, ?_⟩
      have hclash : clash? (dated.filterMap (·.2)).reverse = none := by
        refine clash?_eq_none_iff.mpr fun a ha b hb => ?_
        obtain ⟨hit, hhit, ha⟩ := (mem_times_iff hdated).mp (List.mem_reverse.mp ha)
        obtain ⟨other, hother, hb⟩ := (mem_times_iff hdated).mp (List.mem_reverse.mp hb)
        exact hkinds hit hhit other hother a b ha hb
      simp [hclash]

end Recency
end AskTable
