import AskTable.Proofs.Keyword
import AskTable.Proofs.Pattern

/-! Which word of a question is its keyword. Of the words that the index leads to free text the first is taken
that is no month, no year and no part of the place that is named, be it a word of the place or only a piece of
one. -/
namespace AskTable

private theorem find?_eq_some_of_imp {α : Type} {wide narrow : α → Bool} {l : List α} {a : α}
    (himp : ∀ x ∈ l, narrow x = true → wide x = true) (h : l.find? wide = some a) (ha : narrow a = true) :
    l.find? narrow = some a := by
  obtain ⟨-, earlier, later, rfl, hearlier⟩ := List.find?_eq_some_iff_append.mp h
  refine List.find?_eq_some_iff_append.mpr ⟨ha, earlier, later, rfl, fun x hx => ?_⟩
  have hwide : wide x = false := by simpa using hearlier x hx
  rw [Bool.not_eq_true', Bool.eq_false_iff]
  intro hnarrow
  rw [himp x (List.mem_append_left _ hx) hnarrow] at hwide
  cases hwide

namespace Question

variable {q : Text} {s : Snapshot} {c : Condition}

def cuePhrase (cue : Pattern) : Pattern :=
  let isKeywordChar (c : Char) : Bool := isWordChar c || c == '-'
  (cue >> .gap >> .maybe (.one fun c => c == '\'' || c == '"')) >>
    (.times 2 (.one isKeywordChar) >> .most isKeywordChar) >> .done

/-- A question without quotation marks, in which no cue announces a keyword. -/
structure IsUncued (q : Text) : Prop where
  unquoted : ∀ c ∈ q, c ≠ '"' ∧ c ≠ '\''
  uncued : ∀ cue ∈ cues, (cuePhrase cue).occursIn q = false

def placeWords (q : Text) : List Text :=
  ((location? q).getD []).lower.words

/-- Whether a word of a question with the columns that own it can be its keyword: one of these holds free
text, and the word is no month, no year and no word of the place that is named. -/
def isKeyword (q : Text) (entry : Text × List Text) : Bool :=
  (entry.2.any fun column => ColumnClass.ofName column == .freeText) &&
    !(isMonth entry.1 || isYear entry.1 || (placeWords q).contains entry.1)

/-- A question with a word that can be its keyword has one, and what it has is the first such word. -/
structure TakesFirstKeyword (s : Snapshot) (q : Text) : Prop where
  exists_keyword : (∃ entry ∈ s.lookup q, isKeyword q entry = true) → ∃ c, keyword? q (some s) = some c
  first : ∀ c, keyword? q (some s) = some c → ∃ token owners,
    (s.lookup q).find? (isKeyword q) = some (token, owners) ∧
      c = ⟨keywordColumn token (some s), .contains, .text token⟩

theorem quoted?_eq_none (h : ∀ c ∈ q, c ≠ '"' ∧ c ≠ '\'') : quoted? q = none := by
  unfold quoted?
  dsimp only
  rw [Option.map_eq_none_iff, Pattern.findPart?]
  refine Cursor.findSome?_all_eq_none fun u v huv => ?_
  rw [Option.map_eq_none_iff, Pattern.partAt?, List.findSome?_eq_none_iff]
  intro b hb
  obtain ⟨m, hm, hb⟩ := Pattern.mem_ends_seq_iff.mp hb
  obtain ⟨w, hafter, -, -⟩ := Pattern.within_true _ _ _ hm
  obtain ⟨d, rest, hd, hquote, -⟩ := Pattern.mem_ends_one_iff.mp hb
  have hmem : d ∈ q := by
    change v = w ++ m.after at hafter
    rw [huv, hafter, hd]
    simp
  simp [h d hmem] at hquote

private theorem cued?_eq_none {cue : Pattern} (h : (cuePhrase cue).occursIn q = false) : cued? q cue = none := by
  unfold cued?
  dsimp only
  rw [Option.filter_eq_none_iff]
  intro t ht
  have hoccurs : (cuePhrase cue).occursIn q = true :=
    Pattern.findPart?_isSome_iff.mp (Option.isSome_iff_exists.mpr ⟨t, ht⟩)
  rw [h] at hoccurs
  cases hoccurs

theorem keyword?_of_isUncued (h : IsUncued q) : keyword? q (some s) =
    (indexed? q s).map fun t => ⟨keywordColumn t (some s), .contains, .text t⟩ := by
  have hcues : cues.findSome? (cued? q) = none :=
    List.findSome?_eq_none_iff.mpr fun cue hcue => cued?_eq_none (h.uncued cue hcue)
  unfold keyword?
  dsimp only
  rw [quoted?_eq_none h.unquoted, hcues]
  rfl

/-- Whether a word is taken for the keyword if it is the first. -/
def isTaken (q : Text) (entry : Text × List Text) : Bool :=
  !(((location? q).getD []).lower.contains entry.1 || isMonth entry.1 || isYear entry.1) &&
    entry.2.any fun column => ColumnClass.ofName column == .freeText

theorem indexed?_eq (q : Text) (s : Snapshot) : indexed? q s = ((s.lookup q).find? (isTaken q)).map (·.1) := rfl

/-- Beyond the words of the place, those are passed over that stand within one. -/
theorem isTaken_iff {entry : Text × List Text} (hentry : entry ∈ s.lookup q) :
    isTaken q entry = true ↔ isKeyword q entry = true ∧ ∀ w ∈ placeWords q, ¬ entry.1 <:+: w := by
  obtain ⟨token, htoken, rfl⟩ := List.mem_map.mp (List.mem_filter.mp hentry).1
  obtain ⟨hne, hsolid, -⟩ := of_mem_tokens (List.mem_eraseDups.mp htoken)
  have hinside : ((location? q).getD []).lower.contains token = true ↔ ∃ w ∈ placeWords q, token <:+: w :=
    Text.contains_eq_true_iff.trans (Text.infix_iff_exists_mem_words hsolid hne)
  have hword : token ∈ placeWords q → ∃ w ∈ placeWords q, token <:+: w := fun h => ⟨token, h, List.infix_rfl⟩
  simp only [isTaken, isKeyword, Bool.and_eq_true, Bool.not_eq_true', Bool.or_eq_false_iff, List.contains_eq_mem,
    decide_eq_false_iff_not, ← Bool.not_eq_true (((location? q).getD []).lower.contains token), hinside, not_exists,
    not_and]
  constructor
  · rintro ⟨⟨⟨houtside, hmonth⟩, hyear⟩, hfree⟩
    exact ⟨⟨hfree, ⟨hmonth, hyear⟩, fun h => houtside token h List.infix_rfl⟩, houtside⟩
  · rintro ⟨⟨hfree, ⟨hmonth, hyear⟩, -⟩, houtside⟩
    exact ⟨⟨⟨houtside, hmonth⟩, hyear⟩, hfree⟩

/-- In a question that announces no keyword, the first word that can be the keyword is taken, exactly if it
does not stand within a word of the place that is named. -/
theorem takes_first_keyword_iff (s : Snapshot) (h : IsUncued q) : TakesFirstKeyword s q ↔
    ∀ token owners, (s.lookup q).find? (isKeyword q) = some (token, owners) →
      ∀ w ∈ placeWords q, ¬ token <:+: w := by
  have hkeyword := keyword?_of_isUncued (s := s) h
  rw [indexed?_eq, Option.map_map] at hkeyword
  have himp : ∀ entry ∈ s.lookup q, isTaken q entry = true → isKeyword q entry = true :=
    fun entry hentry htaken => ((isTaken_iff hentry).mp htaken).1
  constructor
  · rintro ⟨hexists, hfirst⟩ token owners hfound
    have hmem := List.mem_of_find?_eq_some hfound
    obtain ⟨c, hc⟩ := hexists ⟨_, hmem, List.find?_some hfound⟩
    obtain ⟨token', owners', hfound', rfl⟩ := hfirst c hc
    obtain ⟨rfl, rfl⟩ := Prod.mk.inj (Option.some.inj (hfound.symm.trans hfound'))
    obtain ⟨entry, htaken, heq⟩ := Option.map_eq_some_iff.mp (hkeyword.symm.trans hc)
    have htoken : entry.1 = token := Value.text.inj (congrArg Condition.operand heq)
    have houtside := ((isTaken_iff (List.mem_of_find?_eq_some htaken)).mp (List.find?_some htaken)).2
    rwa [htoken] at houtside
  · intro houtside
    have htaken {token : Text} {owners : List Text} (hfound : (s.lookup q).find? (isKeyword q) = some (token, owners)) :
        (s.lookup q).find? (isTaken q) = some (token, owners) := by
      refine find?_eq_some_of_imp himp hfound ((isTaken_iff (List.mem_of_find?_eq_some hfound)).mpr ⟨?_, ?_⟩)
      · exact List.find?_some hfound
      · exact houtside token owners hfound
    have hfind : (∃ entry ∈ s.lookup q, isKeyword q entry = true) →
        ∃ token owners, (s.lookup q).find? (isKeyword q) = some (token, owners) := by
      intro hsome
      obtain ⟨⟨token, owners⟩, hfound⟩ := Option.isSome_iff_exists.mp (List.find?_isSome.mpr hsome)
      exact ⟨token, owners, hfound⟩
    constructor
    case exists_keyword =>
      intro hsome
      obtain ⟨token, owners, hfound⟩ := hfind hsome
      exact ⟨_, by rw [hkeyword, htaken hfound]; rfl⟩
    case first =>
      intro c hc
      obtain ⟨entry, hentry, -⟩ := Option.map_eq_some_iff.mp (hkeyword.symm.trans hc)
      have hmem := List.mem_of_find?_eq_some hentry
      obtain ⟨token, owners, hfound⟩ := hfind ⟨entry, hmem, himp entry hmem (List.find?_some hentry)⟩
      rw [hkeyword, htaken hfound] at hc
      exact ⟨token, owners, hfound, (Option.some.inj hc).symm⟩

/-- A picture was repaired in a street whose name has the word for it inside. -/
def pictures : Dataset where
  header := ["Action", "Location"]
  rows := [.list ["art repaired", "Cart Street"]]
  name := "pictures"

theorem isUncued_pictures : IsUncued "repaired at Cart Street" ∧ IsUncued "art at Cart Street" :=
  ⟨⟨by decide, by decide +kernel⟩, ⟨by decide, by decide +kernel⟩⟩

theorem takes_first_keyword_repaired : ∃ s, Snapshot.build pictures = .ok s ∧
    IsUncued "repaired at Cart Street" ∧ TakesFirstKeyword s "repaired at Cart Street" ∧
    ∃ c, keyword? "repaired at Cart Street" (some s) = some c ∧ c.operand = .text "repaired" := by
  have hrun : (Snapshot.build pictures).map (fun s =>
      ((s.lookup "repaired at Cart Street").find? (isKeyword "repaired at Cart Street")).map (·.1)) =
        .ok (some "repaired") := by
    decide +kernel
  obtain ⟨s, hs, hrun⟩ := map_eq_ok_iff.mp hrun
  obtain ⟨⟨token, owners⟩, hfound, htoken⟩ := Option.map_eq_some_iff.mp hrun
  obtain rfl : token = "repaired".toList := htoken
  have houtside : ∀ w ∈ placeWords "repaired at Cart Street", ¬ "repaired".toList <:+: w := by decide +kernel
  have htakes : TakesFirstKeyword s "repaired at Cart Street" := by
    refine (takes_first_keyword_iff s isUncued_pictures.1).mpr fun other others hother => ?_
    obtain ⟨rfl, -⟩ := Prod.mk.inj (Option.some.inj (hfound.symm.trans hother))
    exact houtside
  obtain ⟨c, hc⟩ := htakes.exists_keyword ⟨_, List.mem_of_find?_eq_some hfound, List.find?_some hfound⟩
  obtain ⟨other, others, hother, rfl⟩ := htakes.first c hc
  obtain ⟨rfl, -⟩ := Prod.mk.inj (Option.some.inj (hfound.symm.trans hother))
  exact ⟨s, hs, isUncued_pictures.1, htakes, _, hc, rfl⟩

/-- The word for a picture is no word of the place, but it stands within one and is passed over. -/
theorem art_not_taken : ∃ s, Snapshot.build pictures = .ok s ∧ IsUncued "art at Cart Street" ∧
    (∃ entry ∈ s.lookup "art at Cart Street", isKeyword "art at Cart Street" entry = true) ∧
    keyword? "art at Cart Street" (some s) = none ∧ ¬ TakesFirstKeyword s "art at Cart Street" := by
  have hrun : (Snapshot.build pictures).map (fun s =>
      ((s.lookup "art at Cart Street").any (isKeyword "art at Cart Street"),
        (keyword? "art at Cart Street" (some s)).isNone)) = .ok (true, true) := by
    decide +kernel
  obtain ⟨s, hs, hrun⟩ := map_eq_ok_iff.mp hrun
  obtain ⟨hany, hnone⟩ := Prod.mk.inj hrun
  have hentry := List.any_eq_true.mp hany
  have hnone := Option.isNone_iff_eq_none.mp hnone
  refine ⟨s, hs, isUncued_pictures.2, hentry, hnone, fun htakes => ?_⟩
  obtain ⟨c, hc⟩ := htakes.exists_keyword hentry
  cases hnone.symm.trans hc

end Question
end AskTable
