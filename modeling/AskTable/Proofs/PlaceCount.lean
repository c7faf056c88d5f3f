import AskTable.Proofs.HowMany
import AskTable.Proofs.KeywordChoice
import AskTable.Proofs.NumberQuestion
import AskTable.Proofs.Passage
import AskTable.Proofs.Periods
import AskTable.Proofs.PlacePhrase

/-! Counting the records at a place. The words of the place are read as a month and as a year as well, so the
count has the place for its only filter exactly if they are taken for nothing else. -/
namespace AskTable
namespace Question

open Pattern (Spells)
open Text (continued)

variable {first w place : Text} {ws : List Text} {s : Option Snapshot} {c : Condition}

def asking : Text := "How many records at "

def placeQuestion (place : Text) : Text :=
  asking ++ place

section Reading

variable (place : Text)

theorem ends_datePatterns : ∀ p ∈ datePatterns, ∀ a ∈ Cursor.placesFrom [] asking place, p.ends a = [] := by
  have hall :
      (datePatterns.all fun p => (Cursor.placesFrom [] asking place).all fun a => (p.ends a).isEmpty) = true := by
    rfl
  intro p hp a ha
  exact List.isEmpty_iff.mp (List.all_eq_true.mp (List.all_eq_true.mp hall p hp) a ha)

private theorem isFree_of_mem_datePatterns : ∀ p ∈ datePatterns, p.isFree = true := by
  decide

theorem replace_placeQuestion {p : Pattern} (hp : p ∈ datePatterns) :
    Text.replace p " " (placeQuestion place) = placeQuestion (Text.replace p " " place) :=
  Text.replace_passage (isFree_of_mem_datePatterns p hp) (by decide) (ends_datePatterns place p hp) " "

/-- Written dates are cut out of the place only. -/
theorem withoutDates_placeQuestion : withoutDates (placeQuestion place) = placeQuestion (withoutDates place) := by
  have hfold {shapes : List Pattern} (h : ∀ p ∈ shapes, p ∈ datePatterns) (place : Text) :
      shapes.foldl (fun t p => Text.replace p " " t) (placeQuestion place) =
        placeQuestion (shapes.foldl (fun t p => Text.replace p " " t) place) := by
    induction shapes generalizing place with
    | nil => rfl
    | cons p rest ih =>
      obtain ⟨hp, hrest⟩ := List.forall_mem_cons.mp h
      rw [List.foldl_cons, List.foldl_cons, replace_placeQuestion place hp, ih hrest]
  exact hfold (fun _ hp => hp) place

theorem lower_placeQuestion : (placeQuestion place).lower = "how many records at".toList ++ ' ' :: place.lower := by
  have hasking : asking = "How many records at".toList ++ [' '] := by decide
  have hlower : Text.lower "How many records at" = "how many records at".toList := by decide
  rw [placeQuestion, hasking, List.append_assoc, List.singleton_append, Text.lower_append_space, hlower]

theorem letterRuns_placeQuestion : letterRuns ("how many records at".toList ++ ' ' :: place) =
    ["how".toList, "many".toList, "records".toList, "at".toList] ++ letterRuns place := by
  have hfront : (Text.splitWhen (fun c => !c.isLower) "how many records at").filter (!·.isEmpty) =
      ["how".toList, "many".toList, "records".toList, "at".toList] := by decide
  rw [letterRuns, Text.splitWhen_append (by decide), List.filter_append, hfront]
  rfl

theorem asksLeave_placeQuestion : asksLeave ("how many records at".toList ++ ' ' :: place) = asksLeave place := by
  have hasking : "how many records at".toList ++ ' ' :: place = "how many records at ".toList ++ place := by
    have hspace : "how many records at ".toList = "how many records at".toList ++ [' '] := by decide
    rw [hspace, List.append_assoc, List.singleton_append]
  rw [hasking]
  refine Pattern.occursIn_append (by decide) (by decide) fun a ha => ?_
  have hall : ((Cursor.placesFrom [] "how many records at ".toList place).all fun a =>
      ((Pattern.edge >> .exactly "may" >> .gap >> .anyOf [.exactly "i", .exactly "we", .exactly "you"] >> .edge).ends
        a).isEmpty) = true := by
    rfl
  exact List.isEmpty_iff.mp (List.all_eq_true.mp hall a ha)

theorem month?_placeQuestion : month? (placeQuestion place) = month? place := by
  unfold month?
  dsimp only
  rw [withoutDates_placeQuestion, lower_placeQuestion, letterRuns_placeQuestion, asksLeave_placeQuestion,
    List.findSome?_append]
  have hnone (leave : Bool) : ["how".toList, "many".toList, "records".toList, "at".toList].findSome?
      (fun word => if (word == ("may" : Text) && leave) = true then none else Date.monthOfName? word) = none := by
    cases leave <;> decide
  rw [hnone, Option.none_or]

theorem year?_placeQuestion : year? (placeQuestion place) = year? place := by
  unfold year?
  rw [withoutDates_placeQuestion]
  refine congrArg _ (Pattern.findPart?_append (by decide) (by decide) (by decide) (by decide) fun a ha => ?_)
  have hall : ((Cursor.placesFrom [] asking (withoutDates place)).all fun a =>
      (Pattern.partAt? .edge yearPattern .edge a).isNone) = true := by
    rfl
  exact Option.isNone_iff_eq_none.mp (List.all_eq_true.mp hall a ha)

theorem identifier?_placeQuestion : identifier? (placeQuestion place) = identifier? place := by
  rw [identifier?_eq, identifier?_eq]
  refine congrArg _ (Pattern.findPart?_append (by decide) (by decide) (by decide) (by decide) fun a ha => ?_)
  have hall :
      ((Cursor.placesFrom [] asking place).all fun a => (Pattern.partAt? opening body .done a).isNone) = true := by
    rfl
  exact Option.isNone_iff_eq_none.mp (List.all_eq_true.mp hall a ha)

theorem phrases_placeQuestion : Text.phrases placeAt (placeQuestion place) =
    Text.phrases placeAt ("at ".toList ++ place) := by
  have hasking : asking = "How many records ".toList ++ "at ".toList := by decide
  have hnone : (("How many records ".toList).map (.inl : Char → Char ⊕ Text)).filterMap Sum.getRight? = [] := rfl
  rw [placeQuestion, hasking, List.append_assoc, Text.phrases, Text.pieces_append, List.filterMap_append, hnone,
    List.nil_append]
  · rfl
  · exact fun a => Pattern.partAt?_behind (by decide) (by decide) (by decide) (by decide) a
  · have hall : ((Cursor.placesFrom [] "How many records ".toList ("at ".toList ++ place)).all fun a =>
        (placeAt a).isNone) = true := by
      rfl
    exact fun a ha => Option.isNone_iff_eq_none.mp (List.all_eq_true.mp hall a ha)

end Reading

section Keyword

theorem isSolid_of_cued? {q t : Text} {cue : Pattern} (h : cued? q cue = some t) : t.IsSolid := by
  obtain ⟨hfound, -⟩ := Option.filter_eq_some_iff.mp h
  have hchar {c : Char} (hc : (isWordChar c || c == '-') = true) : isBlankChar c = false := by
    by_contra hblank
    rw [Bool.not_eq_false] at hblank
    rw [isWordChar_of_isBlankChar hblank, Bool.false_or, beq_iff_eq] at hc
    subst hc
    exact absurd hblank (by decide)
  have hbody : Pattern.Within (fun c => isBlankChar c = false)
      (.times 2 (.one fun c => isWordChar c || c == '-') >> .most fun c => isWordChar c || c == '-') := by
    have hone : Pattern.Within (fun c => isBlankChar c = false) (.one fun c => isWordChar c || c == '-') :=
      Pattern.within_one fun c hc => hchar hc
    refine Pattern.within_seq (Pattern.within_seq hone (Pattern.within_seq hone Pattern.within_done)) ?_
    exact Pattern.within_most fun c hc => hchar hc
  exact hbody.forall_of_findPart? hfound

theorem isSolid_of_indexed? {q t : Text} {s : Snapshot} (h : indexed? q s = some t) : t.IsSolid := by
  obtain ⟨entry, hentry, rfl⟩ := Option.map_eq_some_iff.mp h
  obtain ⟨token, htoken, rfl⟩ := List.mem_map.mp (List.mem_filter.mp (List.mem_of_find?_eq_some hentry)).1
  exact (of_mem_tokens (List.mem_eraseDups.mp htoken)).2.1

/-- A keyword without quotation marks around it has no blanks. -/
theorem isSolid_of_keyword? {q : Text} (hunquoted : ∀ c ∈ q, c ≠ '"' ∧ c ≠ '\'') (h : keyword? q s = some c) :
    ∃ t : Text, c.operand = .text t ∧ t.IsSolid := by
  unfold keyword? at h
  dsimp only at h
  rw [quoted?_eq_none hunquoted] at h
  obtain ⟨t, ht, rfl⟩ := Option.map_eq_some_iff.mp h
  refine ⟨t, rfl, ?_⟩
  rw [Option.orElse_eq_some] at ht
  rcases ht with hcued | ⟨-, hindexed⟩
  · obtain ⟨cue, -, hcued⟩ := List.exists_of_findSome?_eq_some hcued
    exact isSolid_of_cued? hcued
  · obtain ⟨loaded, -, hindexed⟩ := Option.bind_eq_some_iff.mp hindexed
    exact isSolid_of_indexed? hindexed

end Keyword

/-- Words that can stand for a place: of letters and digits, the first no generic word, not all of them months, years or
numbers, and without the letters that announce an identifier. -/
structure IsPlaceName (ws : List Text) : Prop where
  words : ∀ w ∈ ws, w.IsWord
  specific : ∀ w ∈ ws.head?, w.lower ∉ genericWords
  named : ∃ w ∈ ws, (isMonth w.lower || isYear w.lower || w.lower.all isDigitSign) = false
  unlabelled : ¬ "mmt".toList <:+: (Text.join " " ws).lower

/-- Words that are taken for a place as a whole and for nothing else. In any letter case, no word behind the
first leads on from a place, and the first is not one that is left out before others. No date is written in
the words, none of them is a year, and no run of letters in them is a month, save for the word "may" where
they ask for leave. -/
structure IsPlaceOnly (ws : List Text) : Prop where
  ongoing : ∀ w ∈ ws.tail, ∀ t ∈ nextWords, ¬ Spells w t
  unled : ws.tail ≠ [] → ∀ w ∈ ws.head?, ∀ t ∈ leadWords, ¬ Spells w t
  undated : ∀ p ∈ datePatterns, p.occursIn (Text.join " " ws) = false
  year : ∀ w ∈ ws, isYear w = false
  month : ∀ run ∈ letterRuns (Text.join " " ws).lower, isMonth run = true →
    run = "may".toList ∧ asksLeave (Text.join " " ws).lower = true

def atPlace (place : Text) : Condition :=
  ⟨locationField, .contains, .text place⟩

section PlaceName

theorem IsPlaceName.ne_nil (h : IsPlaceName ws) : ws ≠ [] := by
  obtain ⟨w, hw, -⟩ := h.named
  exact List.ne_nil_of_mem hw

theorem IsPlaceName.isPlace (h : IsPlaceName ws) : isPlace (Text.join " " ws) = true := by
  have hwords : (Text.join " " ws).lower.words = ws.map Text.lower := by
    rw [Text.lower_join]
    refine Text.words_join fun w hw => ?_
    obtain ⟨v, hv, rfl⟩ := List.mem_map.mp hw
    have hplain := (h.words v hv).isPlain_lower
    exact ⟨hplain.solid, hplain.ne_nil⟩
  obtain ⟨w, hw, hother⟩ := h.named
  obtain ⟨first, rest, rfl⟩ := List.exists_cons_of_ne_nil (List.ne_nil_of_mem hw)
  have hgeneric : genericWords.contains first.lower = false := by simpa using h.specific first (by simp)
  unfold Question.isPlace
  dsimp only
  rw [hwords, List.map_cons]
  dsimp only
  rw [hgeneric, Bool.not_false, Bool.true_and, Bool.not_eq_true', List.all_eq_false]
  refine ⟨w.lower, ?_, by simpa using hother⟩
  rw [← List.map_cons]
  exact List.mem_map_of_mem hw

theorem IsPlaceName.identifier? (h : IsPlaceName ws) : identifier? (Text.join " " ws) = none := by
  rw [identifier?_eq, Option.map_eq_none_iff, ← Option.not_isSome_iff_eq_none, Pattern.findPart?_isSome_iff]
  intro hoccurs
  obtain ⟨u, v, b, huv, hb⟩ := Pattern.occursIn_iff.mp hoccurs
  obtain ⟨m, hm, -⟩ := Pattern.mem_ends_seq_iff.mp hb
  obtain ⟨n, hn, hm⟩ := Pattern.mem_ends_seq_iff.mp hm
  obtain ⟨-, rfl⟩ := Pattern.mem_ends_edge_iff.mp hn
  obtain ⟨k, hk, -⟩ := Pattern.mem_ends_seq_iff.mp hm
  obtain ⟨w, hspells, hafter, -⟩ := Pattern.mem_ends_word_iff.mp hk
  change Spells w ['m', 'm', 't'] at hspells
  obtain ⟨c, x, hc, hx, rfl⟩ := List.forall₂_cons_left_iff.mp hspells
  obtain ⟨d, y, hd, hy, rfl⟩ := List.forall₂_cons_left_iff.mp hx
  obtain ⟨e, z, he, hz, rfl⟩ := List.forall₂_cons_left_iff.mp hy
  obtain rfl := List.forall₂_nil_left_iff.mp hz
  have hlower : (Text.join " " ws).lower = Text.lowerBetween [] u ([c, d, e] ++ k.after) ++
      Text.lowerAfter (u.reverse ++ []) ([c, d, e] ++ k.after) := by
    rw [huv, ← Text.lowerAfter_append]
    exact congrArg (fun v => Text.lower (u ++ v)) hafter
  refine h.unlabelled ⟨Text.lowerBetween [] u ([c, d, e] ++ k.after),
    Text.lowerAfter (e :: d :: c :: (u.reverse ++ [])) k.after, ?_⟩
  rw [hlower, List.append_assoc]
  have hm {c : Char} : Pattern.sameLetter 'm' c = true → c = 'm' ∨ c = 'M' :=
    Pattern.eq_or_eq_of_sameLetter 'm' 'M' (by decide) (by decide)
  have ht {c : Char} : Pattern.sameLetter 't' c = true → c = 't' ∨ c = 'T' :=
    Pattern.eq_or_eq_of_sameLetter 't' 'T' (by decide) (by decide)
  rcases hm hc with rfl | rfl <;> rcases hm hd with rfl | rfl <;> rcases ht he with rfl | rfl <;> rfl

end PlaceName

/-- The words that stand for a place are the place that is found, exactly if no date is written in them, no
word behind the first leads on from a place, and the first is not one that is left out before others. -/
theorem location?_placeQuestion_iff (h : IsPlaceName ws) :
    location? (placeQuestion (Text.join " " ws)) = some (Text.join " " ws) ↔
      (∀ p ∈ datePatterns, p.occursIn (Text.join " " ws) = false) ∧
        (∀ w ∈ ws.tail, ∀ t ∈ nextWords, ¬ Spells w t) ∧
          (ws.tail ≠ [] → ∀ w ∈ ws.head?, ∀ t ∈ leadWords, ¬ Spells w t) := by
  have hplace := h.isPlace
  rw [location?, withoutDates_placeQuestion, phrases_placeQuestion]
  rcases withoutDates_cases (Text.join " " ws) with ⟨hnone, hsame⟩ | ⟨⟨p, hp, hoccurs⟩, hless⟩
  · obtain ⟨first, rest, rfl⟩ := List.exists_cons_of_ne_nil h.ne_nil
    obtain ⟨hfirst, hrest⟩ := List.forall_mem_cons.mp h.words
    rw [hsame, and_iff_right hnone]
    rw [Text.join_cons] at hplace ⊢
    simpa using find?_phrases_eq_self_iff hfirst hrest hplace
  · refine iff_of_false (fun hfound => ?_) fun hall => ?_
    · have hle := length_le_of_find?_phrases hfound
      exact absurd (Nat.lt_of_le_of_lt hle hless) (Nat.lt_irrefl _)
    · rw [hall.1 p hp] at hoccurs
      cases hoccurs

section Counting

private theorem placeQuestion_ne_nil (place : Text) : placeQuestion place ≠ [] :=
  List.cons_ne_nil _ _

theorem asksCount_placeQuestion (place : Text) : asksCount (placeQuestion place) = true := by
  let asked : HowMany :=
    { before := [], how := "How", blanks := " ", many := "many", after := " records at ".toList ++ place
      map_how := by decide, map_many := by decide, blanks_ne_nil := by decide, isBlankChar_of_mem := by decide
      before_free := by decide, after_free := rfl }
  exact asked.asksCount

theorem strip_placeQuestion (hws : ∀ w ∈ ws, w.IsWord) (hne : ws ≠ []) :
    (placeQuestion (Text.join " " ws)).strip = placeQuestion (Text.join " " ws) := by
  obtain ⟨first, rest, rfl⟩ := List.exists_cons_of_ne_nil hne
  obtain ⟨hfirst, hrest⟩ := List.forall_mem_cons.mp hws
  obtain ⟨-, back, d, hback, hd⟩ := Text.exists_ends_of_words hfirst hrest
  rw [Text.join_cons]
  refine Text.strip_of_ends ⟨'H', _, rfl, by decide⟩ ⟨asking ++ back, d, ?_, Text.isBlankChar_of_isLetterOrDigit hd⟩
  rw [placeQuestion, hback, List.append_assoc]

theorem unquoted_placeQuestion (hws : ∀ w ∈ ws, w.IsWord) :
    ∀ c ∈ placeQuestion (Text.join " " ws), c ≠ '"' ∧ c ≠ '\'' := by
  have hasking : ∀ c ∈ asking, c ≠ '"' ∧ c ≠ '\'' := by decide
  intro c hc
  rcases List.mem_append.mp hc with hc | hc
  · exact hasking c hc
  · cases ws with
    | nil => cases hc
    | cons first rest =>
      obtain ⟨hfirst, hrest⟩ := List.forall_mem_cons.mp hws
      rw [Text.join_cons] at hc
      rcases Text.isLetterOrDigit_or_of_mem hfirst hrest hc with hletter | rfl
      · constructor <;> rintro rfl <;> exact absurd hletter (by decide)
      · decide

/-- A keyword has no blanks, so a place of several words is not taken for one; and a place of one word is
found as a place. -/
theorem ne_atPlace_of_keyword? (h : IsPlaceName ws) (hkey : keyword? (placeQuestion (Text.join " " ws)) s = some c)
    (hplace : location? (placeQuestion (Text.join " " ws)) = none) : c ≠ atPlace (Text.join " " ws) := by
  rintro rfl
  obtain ⟨t, ht, hsolid⟩ := isSolid_of_keyword? (unquoted_placeQuestion h.words) hkey
  obtain rfl : Text.join " " ws = t := Value.text.inj ht
  obtain ⟨first, rest, rfl⟩ := List.exists_cons_of_ne_nil h.ne_nil
  obtain rfl : rest = [] := by
    by_contra hne
    obtain ⟨next, later, rfl⟩ := List.exists_cons_of_ne_nil hne
    rw [Text.join_cons] at hsolid
    exact absurd (hsolid ' ' (by simp)) (by decide)
  have hfirst := h.words first (List.mem_singleton_self first)
  have hfound := (location?_placeQuestion_iff h).mpr ⟨fun p hp => occursIn_word hp hfirst, by simp, by simp⟩
  rw [hplace] at hfound
  cases hfound

/-- Of a question without an identifier, the place is the only condition exactly if no month and no year is
found beside it. -/
theorem countConditions_eq_iff {q : Text} (hidentifier : identifier? q = none)
    (hkeyword : ∀ c, keyword? q s = some c → location? q = none → c ≠ atPlace place) :
    countConditions q s = [atPlace place] ↔ location? q = some place ∧ month? q = none ∧ year? q = none := by
  unfold countConditions scope placeConditions atPlace
  dsimp only
  rw [hidentifier]
  cases hplace : location? q with
  | some found => cases hmonth : month? q <;> cases hyear : year? q <;> simp
  | none =>
    cases hmonth : month? q with
    | some month => simp
    | none =>
      cases hyear : year? q with
      | some year => simp
      | none =>
        cases hkey : keyword? q s with
        | none => simp
        | some c => simpa [atPlace] using hkeyword c hkey hplace

theorem countConditions_placeQuestion_iff (h : IsPlaceName ws) (s : Option Snapshot) :
    countConditions (placeQuestion (Text.join " " ws)) s = [atPlace (Text.join " " ws)] ↔ IsPlaceOnly ws := by
  have hidentifier := (identifier?_placeQuestion _).trans h.identifier?
  rw [countConditions_eq_iff hidentifier fun c hc hplace => ne_atPlace_of_keyword? h hc hplace, month?_placeQuestion,
    year?_placeQuestion, location?_placeQuestion_iff h]
  constructor
  · rintro ⟨⟨hundated, hongoing, hunled⟩, hmonth, hyear⟩
    have hsame := withoutDates_eq_self hundated
    exact {
      ongoing := hongoing
      unled := hunled
      undated := hundated
      year := (year?_join_eq_none_iff h.words hsame).mp hyear
      month := (month?_eq_none_iff hsame).mp hmonth }
  · intro honly
    have hsame := withoutDates_eq_self honly.undated
    exact ⟨⟨honly.undated, honly.ongoing, honly.unled⟩, (month?_eq_none_iff hsame).mpr honly.month,
      (year?_join_eq_none_iff h.words hsame).mpr honly.year⟩

end Counting

end Question

theorem Condition.toFilter_inj {a b : Condition} : a.toFilter = b.toFilter ↔ a = b := by
  refine ⟨fun h => ?_, congrArg _⟩
  have hoperator : a.operator = b.operator := by
    have hread := congrArg Filter.operator? h
    rw [a.operator?_toFilter, b.operator?_toFilter] at hread
    exact Option.some.inj hread
  obtain ⟨field, operator, operand⟩ := a
  obtain ⟨field', operator', operand'⟩ := b
  obtain rfl : operator = operator' := hoperator
  simpa [toFilter] using h

theorem Plan.filters_under_eq_iff {intent : Intent} {conditions : List Condition} {c : Condition} :
    (Plan.under intent conditions).filters = [c.toFilter] ↔ conditions = [c] := by
  have hmap : Function.Injective (List.map Condition.toFilter) :=
    List.map_injective_iff.mpr fun _ _ => Condition.toFilter_inj.mp
  exact hmap.eq_iff (a := conditions) (b := [c])

namespace Rule

open Question

variable {ws : List Text}

theorem find?_placeQuestion (h : IsPlaceName ws) (s : Option Snapshot) :
    find? (placeQuestion (Text.join " " ws)) s =
      .ok (some (.count, Plan.under .count (countConditions (placeQuestion (Text.join " " ws)) s))) := by
  have hstrip := strip_placeQuestion h.words h.ne_nil
  have hasked : asksCount (placeQuestion (Text.join " " ws)).strip = true := by
    rw [hstrip]
    exact asksCount_placeQuestion _
  have hfilled : (placeQuestion (Text.join " " ws)).strip ≠ [] := by
    rw [hstrip]
    exact placeQuestion_ne_nil _
  have hplan := find?_of_asksCount (s := s) hasked hfilled
  rwa [hstrip] at hplan

/-- The question for the number of records at a place is planned as a count. It has the place for its only
filter exactly if the words that stand for the place are taken for nothing else. -/
theorem counts_at_place_iff (h : IsPlaceName ws) (s : Option Snapshot) :
    ∃ p, find? (placeQuestion (Text.join " " ws)) s = .ok (some (.count, p)) ∧
      (p.filters = [(atPlace (Text.join " " ws)).toFilter] ↔ IsPlaceOnly ws) :=
  ⟨_, find?_placeQuestion h s, Plan.filters_under_eq_iff.trans (countConditions_placeQuestion_iff h s)⟩

/-- The words of a number and of two other words mean nothing else. -/
theorem counts_at_lemonCircle : ∃ p, IsPlaceName ["387", "Lemon", "Circle"] ∧
    find? (placeQuestion (Text.join " " ["387", "Lemon", "Circle"])) none = .ok (some (.count, p)) ∧
    p.filters = [(atPlace (Text.join " " ["387", "Lemon", "Circle"])).toFilter] := by
  have hname : IsPlaceName ["387", "Lemon", "Circle"] := ⟨by decide, by decide, by decide +kernel, by decide +kernel⟩
  have honly : IsPlaceOnly ["387", "Lemon", "Circle"] :=
    ⟨by decide, by decide, by decide +kernel, by decide +kernel, by decide +kernel⟩
  obtain ⟨p, hp, hfilters⟩ := counts_at_place_iff hname none
  exact ⟨p, hname, hp, hfilters.mpr honly⟩

def marchVisit : Dataset where
  header := ["Date", "Location"]
  rows := [.list ["2024-03-05", "May Street"]]
  name := "visits"

/-- The first word of the place is taken for a month as well, and the record at the place is not counted. -/
theorem mayStreet_not_counted : ∃ s p result, Snapshot.build marchVisit = .ok s ∧ IsPlaceName ["May", "Street"] ∧
    (∀ w ∈ (["May", "Street"] : List Text), ∀ t ∈ nextWords ++ leadWords, ¬ Pattern.Spells w t) ∧
    find? (placeQuestion (Text.join " " ["May", "Street"])) (some s) = .ok (some (.count, p)) ∧
    p.filters = [(atPlace "May Street").toFilter, Condition.toFilter ⟨dateField, .month, .int 5⟩] ∧
    s.records.length = 1 ∧ s.execute p = .ok result ∧ result.total = 0 := by
  have hname : IsPlaceName ["May", "Street"] := ⟨by decide, by decide, by decide +kernel, by decide +kernel⟩
  let narrowed : List Condition := [atPlace "May Street", ⟨dateField, .month, .int 5⟩]
  have hconditions (s : Option Snapshot) :
      countConditions (placeQuestion (Text.join " " ["May", "Street"])) s = narrowed := by
    have hplace : location? (placeQuestion (Text.join " " ["May", "Street"])) = some "May Street".toList := by
      decide +kernel
    have hmonth : month? (placeQuestion (Text.join " " ["May", "Street"])) = some 5 := by decide +kernel
    have hyear : year? (placeQuestion (Text.join " " ["May", "Street"])) = none := by decide +kernel
    have hidentifier := (identifier?_placeQuestion _).trans hname.identifier?
    simp only [countConditions, scope, placeConditions, hplace, hmonth, hyear, hidentifier]
    rfl
  have hrun : (Snapshot.build marchVisit >>= fun s =>
      (s.execute (Plan.under .count narrowed)).map fun result => (s.records.length, result.total)) = .ok (1, 0) := by
    decide +kernel
  obtain ⟨s, hs, hcounts⟩ := bind_eq_ok_iff.mp hrun
  obtain ⟨result, hresult, hfacts⟩ := map_eq_ok_iff.mp hcounts
  obtain ⟨hrecords, htotal⟩ := Prod.mk.inj hfacts
  have hplan := find?_placeQuestion hname (some s)
  rw [hconditions] at hplan
  exact ⟨s, _, result, hs, hname, by decide, hplan, rfl, hrecords, hresult, htotal⟩

end Rule
end AskTable
