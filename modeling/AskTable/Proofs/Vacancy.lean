import AskTable.Proofs.Execution
import AskTable.Proofs.Parallel

/-! Cells without content may be written as null, as not-a-number or as an empty text. Whatever is done with a
table is blind to the difference: with alike records, plans select the same places or end at the same fault. -/
namespace AskTable

namespace Value

variable {v w : Value}

def isVacant : Value → Bool
  | .null | .float .nan => true
  | .text t => t.isEmpty
  | _ => false

theorem isVacant_cases (h : v.isVacant = true) : v = .null ∨ v = .float .nan ∨ v = .text [] := by
  cases v with
  | null => exact .inl rfl
  | float x =>
    cases x with
    | nan => exact .inr (.inl rfl)
    | finite negative m e | infinite negative => cases h
  | text t =>
    obtain rfl : t = [] := List.isEmpty_iff.mp h
    exact .inr (.inr rfl)
  | bool b | int n | date d | moment m | list items | dict entries => cases h

/-- Two values are the same but for the way in which a cell without content is written. -/
def Alike (v w : Value) : Prop :=
  v = w ∨ v.isVacant = true ∧ w.isVacant = true

namespace Alike

@[refl] theorem refl (v : Value) : v.Alike v :=
  .inl rfl

theorem symm (h : v.Alike w) : w.Alike v :=
  h.imp Eq.symm And.symm

theorem trans {u : Value} (h : u.Alike v) (h' : v.Alike w) : u.Alike w := by
  rcases h with rfl | ⟨hu, hv⟩
  · exact h'
  · rcases h' with rfl | ⟨-, hw⟩
    · exact .inr ⟨hu, hv⟩
    · exact .inr ⟨hu, hw⟩

/-- A reading that does not tell vacant cells apart gives the same for alike cells. -/
theorem congr {α : Type} {f : Value → α} (hf : ∀ v, v.isVacant = true → f v = f .null) (h : v.Alike w) :
    f v = f w := by
  rcases h with rfl | ⟨hv, hw⟩
  · rfl
  · rw [hf v hv, hf w hw]

theorem isBlank_eq (h : v.Alike w) : v.isBlank = w.isBlank := by
  refine congr (fun v hv => ?_) h
  rcases isVacant_cases hv with rfl | rfl | rfl <;> rfl

theorem cellText_eq (h : v.Alike w) : v.cellText = w.cellText := by
  refine congr (fun v hv => ?_) h
  rcases isVacant_cases hv with rfl | rfl | rfl <;> rfl

theorem number?_eq (h : v.Alike w) : v.number? = w.number? := by
  refine congr (fun v hv => ?_) h
  rcases isVacant_cases hv with rfl | rfl | rfl <;> rfl

theorem date?_eq (h : v.Alike w) : v.date? = w.date? := by
  refine congr (fun v hv => ?_) h
  rcases isVacant_cases hv with rfl | rfl | rfl <;> rfl

private theorem normalText_eq (h : v.Alike w) : v.normalText = w.normalText := by
  rw [normalText, normalText, h.cellText_eq]

theorem trimCell (h : v.Alike w) : (Table.trimCell v).Alike (Table.trimCell w) := by
  have htrim (v : Value) (hv : v.isVacant = true) : Table.trimCell v = v := by
    rcases isVacant_cases hv with rfl | rfl | rfl <;> rfl
  rcases h with rfl | ⟨hv, hw⟩
  · exact .refl _
  · rw [htrim v hv, htrim w hw]
    exact .inr ⟨hv, hw⟩

/-- With content, alike cells are the same. -/
theorem eq_of_not_isBlank (h : v.Alike w) (hv : v.isBlank = false) : v = w := by
  rcases h with rfl | ⟨hvacant, -⟩
  · rfl
  · rcases isVacant_cases hvacant with rfl | rfl | rfl <;> cases hv

end Alike

/-- Of alike cells, those with content are the same. -/
theorem filter_not_isBlank_eq {l l' : List Value} (h : List.Forall₂ Alike l l') :
    l.filter (!·.isBlank) = l'.filter (!·.isBlank) := by
  induction h with
  | nil => rfl
  | @cons v w _ _ hhead _ ih =>
    rw [List.filter_cons, List.filter_cons, ih, ← hhead.isBlank_eq]
    cases hblank : v.isBlank with
    | true => rfl
    | false => rw [hhead.eq_of_not_isBlank hblank]

end Value

theorem shadowsOf_congr (kind : ColumnClass) {v w : Value} (h : v.Alike w) : shadowsOf kind v = shadowsOf kind w := by
  have hreading : DateReading.ofCell v = DateReading.ofCell w := by
    unfold DateReading.ofCell
    rw [h.isBlank_eq, h.date?_eq]
  unfold shadowsOf
  rw [h.cellText_eq, h.normalText_eq, hreading]

namespace Record

variable {columns : List Text} {r r' : Record} {name field : Text} {v w : Value}

def Alike (r r' : Record) : Prop :=
  ∀ name, Option.Rel Value.Alike (r.get? name) (r'.get? name)

namespace Alike

theorem get (h : r.Alike r') (name : Text) : (r.get name).Alike (r'.get name) := by
  have hname := h name
  unfold Record.get
  generalize r.get? name = found at hname
  generalize r'.get? name = found' at hname
  cases hname with
  | some hv => exact hv
  | none => exact .refl _

theorem set (h : r.Alike r') (hv : v.Alike w) : (r.set name v).Alike (r'.set name w) := by
  intro other
  by_cases hname : other = name
  · rw [hname, get?_set_self, get?_set_self]
    exact .some hv
  · rw [get?_set_of_ne hname, get?_set_of_ne hname]
    exact h other

theorem derive (h : r.Alike r') : (r.derive columns name v).Alike (r'.derive columns name v) := by
  unfold Record.derive
  split_ifs
  · exact h
  · exact h.set (.refl v)

theorem textsAt_eq (h : r.Alike r') : r.textsAt columns field = r'.textsAt columns field := by
  have hformatted := h.get (Shadow.formatted.field field)
  unfold textsAt
  dsimp only
  rw [(h.get field).cellText_eq]
  generalize (r'.get field).cellText.lower = own
  split_ifs
  · generalize r.get (Shadow.formatted.field field) = v at hformatted
    generalize r'.get (Shadow.formatted.field field) = w at hformatted
    rcases hformatted with rfl | ⟨hv, hw⟩
    · rfl
    · rcases Value.isVacant_cases hv with rfl | rfl | rfl <;>
        rcases Value.isVacant_cases hw with rfl | rfl | rfl <;> rfl
  · rfl

theorem timeAt_eq (h : r.Alike r') : r.timeAt columns field = r'.timeAt columns field := by
  have hname := h (Shadow.parsed.field field)
  unfold timeAt
  dsimp only
  rw [(h.get field).date?_eq]
  generalize r.get? (Shadow.parsed.field field) = found at hname
  generalize r'.get? (Shadow.parsed.field field) = found' at hname
  cases hname with
  | none => rfl
  | some hparsed =>
    rcases hparsed with rfl | ⟨hv, hw⟩
    · rfl
    · rcases Value.isVacant_cases hv with rfl | rfl | rfl <;>
        rcases Value.isVacant_cases hw with rfl | rfl | rfl <;> rfl

end Alike
end Record

namespace Condition

variable {columns : List Text} {r r' : Record}

theorem holds_eq_of_alike (c : Condition) (h : r.Alike r') : c.holds columns r = c.holds columns r' := by
  have hcell := h.get c.field
  unfold holds Record.dateAt
  rw [h.textsAt_eq, h.timeAt_eq, hcell.number?_eq, hcell.isBlank_eq]

theorem allHold_eq_of_alike (conditions : List Condition) (h : r.Alike r') :
    allHold columns conditions r = allHold columns conditions r' := by
  unfold allHold
  exact congrArg (List.allM · conditions) (funext fun c => c.holds_eq_of_alike h)

end Condition

def SameHit (hit hit' : Hit) : Prop :=
  hit.1.Alike hit'.1 ∧ hit.2 = hit'.2

private theorem map_places_eq {hits hits' : List Hit} (h : List.Forall₂ SameHit hits hits') :
    hits.map (·.2) = hits'.map (·.2) := by
  induction h with
  | nil => rfl
  | cons hhit _ ih => rw [List.map_cons, List.map_cons, hhit.2, ih]

namespace Result

variable {result result' : Result}

/-- Two results have hits at the same places, with alike records, and are otherwise the same. -/
structure Alike (result result' : Result) : Prop where
  hits : List.Forall₂ SameHit result.hits result'.hits
  others : { result with hits := result'.hits } = result'

/-- The places of the records in a result, and the result without its records. -/
def outline (result : Result) : List Nat × Result :=
  (result.hits.map (·.2), { result with hits := [] })

theorem Alike.outline_eq (h : result.Alike result') : result.outline = result'.outline := by
  have hothers := congrArg (fun other => { other with hits := [] }) h.others
  exact Prod.ext (map_places_eq h.hits) hothers

end Result

namespace Recency

variable {columns : List Text} {hits hits' : List Hit}

def SameEntry (a b : Hit × Option Dated) : Prop :=
  SameHit a.1 b.1 ∧ a.2 = b.2

theorem parallel_sort (h : List.Forall₂ SameHit hits hits') :
    Parallel (List.Forall₂ SameHit) (sort columns hits) (sort columns hits') := by
  unfold sort
  cases column? columns with
  | none => exact .ok h
  | some column =>
    have hread (hit hit' : Hit) (hhit : SameHit hit hit') :
        Parallel SameEntry ((hit.1.timeAt columns column).map (hit, ·))
          ((hit'.1.timeAt columns column).map (hit', ·)) := by
      rw [hhit.1.timeAt_eq]
      exact (Parallel.refl (R := Eq) (fun _ => rfl) _).map fun _ _ htime => ⟨hhit, htime⟩
    refine (Parallel.mapM h hread).bind fun dated dated' hdated => ?_
    have htimes : dated.filterMap (·.2) = dated'.filterMap (·.2) := by
      induction hdated with
      | nil => rfl
      | cons hentry _ ih => rw [List.filterMap_cons, List.filterMap_cons, hentry.2, ih]
    rw [htimes]
    cases clash? (dated'.filterMap (·.2)).reverse with
    | some fault => exact .error fault
    | none =>
      have hsorted : List.Forall₂ SameEntry (dated.mergeSort fun a b => isNotBefore a.2 b.2)
          (dated'.mergeSort fun a b => isNotBefore a.2 b.2) :=
        forall₂_mergeSort hdated fun a a' b b' ha hb => by rw [ha.2, hb.2]
      refine .ok ?_
      unfold sortDated
      rw [List.forall₂_map_left_iff, List.forall₂_map_right_iff]
      exact hsorted.imp fun _ _ hentry => hentry.1

end Recency

namespace Snapshot

variable {s s' : Snapshot} {p : Plan}

/-- Two snapshots have the same columns with the same profiles, and alike records. -/
structure Alike (s s' : Snapshot) : Prop where
  name : s.name = s'.name
  columns : s.columns = s'.columns
  records : List.Forall₂ Record.Alike s.records s'.records
  profiles : s.profiles = s'.profiles

theorem Alike.hits (h : s.Alike s') : List.Forall₂ SameHit s.hits s'.hits := by
  have hzip {l l' : List Record} (hl : List.Forall₂ Record.Alike l l') (i : Nat) :
      List.Forall₂ SameHit (l.zipIdx i) (l'.zipIdx i) := by
    induction hl generalizing i with
    | nil => exact .nil
    | cons hr _ ih => exact .cons ⟨hr, rfl⟩ (ih (i + 1))
  exact hzip h.records 0

theorem Alike.parallel_select (h : s.Alike s') (conditions : List Condition) :
    Parallel (List.Forall₂ SameHit) (s.select conditions) (s'.select conditions) := by
  unfold select
  rw [h.columns]
  exact Parallel.selectM h.hits fun _ _ hhit => Condition.allHold_eq_of_alike conditions hhit.1

theorem Alike.parallel_execute (h : s.Alike s') (p : Plan) :
    Parallel Result.Alike (s.execute p) (s'.execute p) := by
  unfold execute
  rw [h.columns]
  refine (h.parallel_select _).bind fun selected selected' hselected => ?_
  by_cases hintent : p.intent = .lastAction
  · have hnewest : Parallel (List.Forall₂ SameHit) ((Recency.sort s'.columns selected).map (·.take 1))
        ((Recency.sort s'.columns selected').map (·.take 1)) :=
      (Recency.parallel_sort hselected).map fun _ _ hsorted => List.forall₂_take 1 hsorted
    rw [if_pos hintent, if_pos hintent]
    refine hnewest.bind fun hits hits' hhits => .ok ⟨hhits, ?_⟩
    rw [hselected.length_eq]
  · rw [if_neg hintent, if_neg hintent]
    refine .ok ⟨hselected, ?_⟩
    rw [hselected.length_eq]

/-- Plans select the same places of alike snapshots, or end at the same fault. -/
theorem Alike.outline_eq (h : s.Alike s') (p : Plan) :
    (s.execute p).map Result.outline = (s'.execute p).map Result.outline :=
  (h.parallel_execute p).map_eq fun _ _ hresult => hresult.outline_eq

end Snapshot
end AskTable
