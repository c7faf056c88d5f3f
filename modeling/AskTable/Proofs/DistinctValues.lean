import AskTable.Proofs.Answerable
import AskTable.Proofs.Contents

/-! The different values that an answer tells of a column are those that the column's profile knows of: as many, and the
first of them are its samples. -/
namespace AskTable

theorem selectM_of_all {α : Type} {test : α → Except Fault Bool} {l : List α} (h : ∀ a ∈ l, test a = .ok true) :
    selectM test l = .ok l := by
  induction l with
  | nil => rfl
  | cons a l ih =>
    obtain ⟨hfirst, hrest⟩ := List.forall_mem_cons.mp h
    rw [selectM, hfirst, ih hrest]
    rfl

namespace Snapshot

variable {source : Dataset} {s : Snapshot} {p : Plan} {column : Text} {profile : Profile} {names : List Text}

/-- Without filters all records are hits, unless only the newest one is wanted. -/
theorem execute_of_no_filters (hintent : p.intent ≠ .lastAction) (hfilters : p.filters = []) :
    ∃ result, s.execute p = .ok result ∧ result.intent = p.intent ∧ result.hits.map (·.1) = s.records := by
  have hconditions : p.conditions s.columns = [] := by
    rw [Plan.conditions, hfilters]
    rfl
  have hselected : s.select (p.conditions s.columns) = .ok s.hits := by
    rw [hconditions]
    exact selectM_of_all fun _ _ => rfl
  have hkept : s.keep p.intent s.hits = .ok s.hits := if_neg hintent
  refine ⟨_, execute_eq_ok_iff.mpr ⟨_, _, hselected, hkept, rfl⟩, rfl, ?_⟩
  exact List.zipIdx_map_fst 0 s.records

/-- What a line should tell of a column, by its profile: the texts of the cells if there are few different ones, those of
the samples first, and else how many there are. -/
def TellsDistinct (s : Snapshot) (column line : Text) : Prop :=
  ∃ profile, s.profile? column = some profile ∧
    if profile.distinct.length ≤ 10 then
      ∃ values : List Text, values.Nodup ∧ values.length = profile.distinct.length ∧
        (∀ t, t ∈ values ↔ ∃ v ∈ s.filled column, v.cellText = t) ∧
        values.take 5 = profile.samples.map Value.cellText ∧
        line = Text.concat [column, " (", Text.ofNat profile.distinct.length, " distinct): ",
          if values.isEmpty then "-" else Text.join ", " values]
    else line = Text.concat [column, " has ", Text.ofNat profile.distinct.length, " distinct values."]

private theorem samples_cellText (h : s.IsProfiled) (hp : s.profile? column = some profile) :
    profile.samples.map Value.cellText = (profile.distinct.map (·.1)).take Profile.sampleCount := by
  rw [Profile.samples, h.distinct_eq hp]
  simp only [← List.map_take, List.map_map]
  rfl

/-- The line of a column is made from the cells of its records once more, and tells what its profile knows. -/
theorem tellsDistinct_distinctLine (h : s.IsProfiled) (hcolumn : column ∈ s.columns) :
    s.TellsDistinct column (Report.distinctLine s.records column) := by
  obtain ⟨profile, hp, -⟩ := h.exists_profile hcolumn
  have hvalues : (firstByText (s.records.map fun r => r.get column)).map (·.1) = profile.distinct.map (·.1) := by
    rw [firstByText_map_fst, h.map_fst_distinct hp]
    rfl
  have hlength : (profile.distinct.map (·.1)).length = profile.distinct.length := List.length_map _
  refine ⟨profile, hp, ?_⟩
  unfold Report.distinctLine
  dsimp only
  rw [hvalues, hlength, Report.maxDistinct]
  by_cases hfew : profile.distinct.length ≤ 10
  · rw [if_pos hfew, if_pos hfew]
    refine ⟨profile.distinct.map (·.1), ?_, hlength, fun t => ?_, ?_, rfl⟩
    · rw [h.map_fst_distinct hp]
      exact nodup_eraseDups _
    · rw [h.map_fst_distinct hp, List.mem_eraseDups, List.mem_map]
    · exact (samples_cellText h hp).symm
  · rw [if_neg hfew, if_neg hfew]

/-- The answer on different values has a line for each column that is shown, and each line tells what the profile of the
column knows. -/
theorem answer_tells_distinct (hs : build source = .ok s) (hrecords : s.records ≠ [])
    (hintent : p.intent = .uniqueValues) (hfilters : p.filters = []) (hnames : p.fieldNames = .ok names)
    (note : Text) : ∃ result lines, s.execute p = .ok result ∧
      result.answer s p note = .ok (Report.noted note (Text.join "\n" (result.report.countLine :: lines))) ∧
      List.Forall₂ s.TellsDistinct (s.columnsFor names) lines := by
  obtain ⟨result, hresult, hsame, hhits⟩ := execute_of_no_filters (s := s) (by simp [hintent]) hfilters
  have hprofiled := profiles_of_build hs
  refine ⟨result, (s.columnsFor names).map (Report.distinctLine s.records), hresult, ?_, ?_⟩
  · obtain ⟨r, rest, hsome⟩ := List.exists_cons_of_ne_nil hrecords
    have hreport : result.report.records = r :: rest := hhits.trans hsome
    have hunique : result.report.intent = some .uniqueValues := congrArg some (hsame.trans hintent)
    have hplain : result.report.answer s p.fieldNames = .ok (result.report.distinctAnswer (s.columnsFor names)) := by
      rw [Report.answer, hreport, hunique, hnames]
      rfl
    rw [Result.answer, hplain, Report.distinctAnswer, hreport, ← hsome]
    rfl
  · rw [List.forall₂_map_right_iff, List.forall₂_same]
    exact fun column hcolumn => tellsDistinct_distinctLine hprofiled (mem_columns_of_mem_columnsFor hcolumn)

def bookings : Dataset where
  header := ["Room", "Booked by"]
  rows := [.list ["Blue", "Ada"], .list ["Red", .null], .list [" Blue", "Ada"]]
  name := "Bookings"

theorem bookings_tell_distinct : ∃ s result, build bookings = .ok s ∧
    s.execute { intent := .uniqueValues, fields := .list [.text "room"] } = .ok result ∧
    result.answer s { intent := .uniqueValues, fields := .list [.text "room"] } [] =
      .ok (Report.noted [] (Text.join "\n" [result.report.countLine, "Room (2 distinct): Blue, Red"])) := by
  have hbuilt : (build bookings).map (fun s => (s.records.length, s.columnsFor ["room"],
      (s.profile? "Room").map fun profile => (profile.distinct.length, profile.samples.map Value.cellText))) =
        .ok (3, ["Room"], some (2, ["Blue", "Red"])) := by
    decide +kernel
  obtain ⟨s, hs, hfacts⟩ := map_eq_ok_iff.mp hbuilt
  simp only [Prod.mk.injEq] at hfacts
  obtain ⟨hlength, hcolumns, hroom⟩ := hfacts
  have hrecords : s.records ≠ [] := List.ne_nil_of_length_pos (by omega)
  have hnames : Plan.fieldNames { intent := .uniqueValues, fields := .list [.text "room"] } = .ok ["room"] := rfl
  obtain ⟨result, lines, hresult, hanswer, hlines⟩ := answer_tells_distinct hs hrecords rfl rfl hnames []
  rw [hcolumns] at hlines
  obtain _ | ⟨⟨profile, hprofile, htells⟩, hrest⟩ := hlines
  cases hrest
  rw [hprofile, Option.map_some, Option.some.injEq, Prod.mk.injEq] at hroom
  obtain ⟨hcount, hsamples⟩ := hroom
  rw [hcount, if_pos (by decide)] at htells
  obtain ⟨values, -, hvalues, -, hfirst, rfl⟩ := htells
  -- With two values, those that are shown first are all.
  rw [List.take_of_length_le (by omega), hsamples] at hfirst
  subst hfirst
  exact ⟨s, result, hs, hresult, hanswer⟩

end Snapshot
end AskTable
