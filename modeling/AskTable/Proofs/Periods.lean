import AskTable.Proofs.Shortening
import AskTable.Proofs.Numeral
import AskTable.Proofs.WholeWord
import AskTable.Question.Time

/-! Dates, months and years among words. A word of letters and digits holds no written date; and of words
without written dates a year is one of the words, and a month a run of letters in them. -/
namespace AskTable
namespace Question

variable {w place : Text} {ws : List Text}

section Dates

theorem withoutDates_cases (t : Text) :
    (∀ p ∈ datePatterns, p.occursIn t = false) ∧ withoutDates t = t ∨
      (∃ p ∈ datePatterns, p.occursIn t = true) ∧ (withoutDates t).length < t.length :=
  Text.replaceAll_cases (by decide) t

theorem withoutDates_eq_self (h : ∀ p ∈ datePatterns, p.occursIn place = false) : withoutDates place = place := by
  rcases withoutDates_cases place with ⟨-, hsame⟩ | ⟨⟨p, hp, hoccurs⟩, -⟩
  · exact hsame
  · rw [h p hp] at hoccurs
    cases hoccurs

/-- A written date has a sign or a blank in it. -/
theorem holds_of_mem_datePatterns : ∀ p ∈ datePatterns, p.Holds fun c => isLetterOrDigit c = false := by
  have hbar : bar.Holds fun c => isLetterOrDigit c = false := by
    refine Pattern.holds_one fun c hc => ?_
    rw [Bool.or_eq_true, beq_iff_eq, beq_iff_eq] at hc
    rcases hc with rfl | rfl <;> decide
  have hgap : Pattern.gap.Holds fun c => isLetterOrDigit c = false := by
    refine Pattern.Holds.seq_left (Pattern.holds_one fun c hc => ?_) _
    by_contra hletter
    rw [Bool.not_eq_false] at hletter
    rw [Text.isBlankChar_of_isLetterOrDigit hletter] at hc
    cases hc
  simp only [datePatterns, List.forall_mem_cons]
  refine ⟨?_, ?_, ?_, ?_, by simp⟩
  · exact .seq_right (.seq_left (.seq_right (.seq_left hbar _) _) _) _
  · exact .seq_right (.seq_left (.seq_right (.seq_left hbar _) _) _) _
  · exact .seq_right (.seq_left (.seq_right (.seq_left hgap _) _) _) _
  · exact .seq_right (.seq_left (.seq_right (.seq_right (.seq_left hgap _) _) _) _) _

theorem occursIn_word {p : Pattern} (hp : p ∈ datePatterns) (hw : w.IsWord) : p.occursIn w = false := by
  by_contra hoccurs
  obtain ⟨c, hc, hother⟩ := (holds_of_mem_datePatterns p hp).exists_mem (eq_true_of_ne_false hoccurs)
  rw [hw.letters c hc] at hother
  cases hother

end Dates

theorem month?_eq_none_iff (h : withoutDates place = place) : month? place = none ↔
    ∀ run ∈ letterRuns place.lower, isMonth run = true → run = "may".toList ∧ asksLeave place.lower = true := by
  unfold month?
  dsimp only
  rw [h, List.findSome?_eq_none_iff]
  refine forall₂_congr fun run _ => ?_
  by_cases hleave : (run == "may".toList && asksLeave place.lower) = true
  · rw [if_pos hleave]
    rw [Bool.and_eq_true, beq_iff_eq] at hleave
    exact iff_of_true rfl fun _ => hleave
  · rw [if_neg hleave, isMonth]
    rw [Bool.and_eq_true, beq_iff_eq] at hleave
    cases Date.monthOfName? run with
    | none => simp
    | some month => simpa using hleave

section Years

def IsYearText (y : Text) : Prop :=
  ∃ c d, isDigitChar c = true ∧ isDigitChar d = true ∧ (y = ['1', '9', c, d] ∨ y = ['2', '0', c, d])

theorem mem_ends_yearPattern_iff {a b : Cursor} : b ∈ yearPattern.ends a ↔
    ∃ y, IsYearText y ∧ a.after = y ++ b.after ∧ b.before = y.reverse ++ a.before := by
  constructor
  · intro h
    obtain ⟨m, hcentury, h⟩ := Pattern.mem_ends_seq_iff.mp h
    obtain ⟨n, htens, h⟩ := Pattern.mem_ends_seq_iff.mp h
    obtain ⟨k, hones, h⟩ := Pattern.mem_ends_seq_iff.mp h
    obtain rfl := List.mem_singleton.mp h
    obtain ⟨c, rest, hm, hc, rfl⟩ := Pattern.mem_ends_one_iff.mp htens
    obtain ⟨d, rest', hn, hd, rfl⟩ := Pattern.mem_ends_one_iff.mp hones
    obtain rfl : rest = d :: rest' := hn
    obtain ⟨p, hp, hcentury⟩ := Pattern.mem_ends_anyOf_iff.mp hcentury
    rcases List.mem_pair.mp hp with rfl | rfl
    · obtain ⟨hafter, hbefore⟩ := Pattern.mem_ends_exactly_iff.mp hcentury
      exact ⟨['1', '9', c, d], ⟨c, d, hc, hd, .inl rfl⟩, by rw [hafter, hm]; rfl, by rw [hbefore]; rfl⟩
    · obtain ⟨hafter, hbefore⟩ := Pattern.mem_ends_exactly_iff.mp hcentury
      exact ⟨['2', '0', c, d], ⟨c, d, hc, hd, .inr rfl⟩, by rw [hafter, hm]; rfl, by rw [hbefore]; rfl⟩
  · obtain ⟨before, after⟩ := a
    obtain ⟨before', after'⟩ := b
    rintro ⟨y, ⟨c, d, hc, hd, hy⟩, hafter, hbefore⟩
    obtain rfl : after = y ++ after' := hafter
    obtain rfl : before' = y.reverse ++ before := hbefore
    have htail (m : Text) : ⟨d :: c :: m, after'⟩ ∈ (Pattern.times 2 digit).ends ⟨m, c :: d :: after'⟩ := by
      refine Pattern.mem_ends_seq_iff.mpr ⟨_, Pattern.mem_ends_one_iff.mpr ⟨c, _, rfl, hc, rfl⟩, ?_⟩
      refine Pattern.mem_ends_seq_iff.mpr ⟨_, Pattern.mem_ends_one_iff.mpr ⟨d, _, rfl, hd, rfl⟩, ?_⟩
      exact List.mem_singleton_self _
    rcases hy with rfl | rfl
    · refine Pattern.mem_ends_seq_iff.mpr ⟨⟨'9' :: '1' :: before, c :: d :: after'⟩, ?_, htail _⟩
      exact Pattern.mem_ends_anyOf_iff.mpr ⟨_, List.mem_cons_self, Pattern.mem_ends_exactly_iff.mpr ⟨rfl, rfl⟩⟩
    · refine Pattern.mem_ends_seq_iff.mpr ⟨⟨'0' :: '2' :: before, c :: d :: after'⟩, ?_, htail _⟩
      exact Pattern.mem_ends_anyOf_iff.mpr ⟨_, List.mem_cons_of_mem _ List.mem_cons_self,
        Pattern.mem_ends_exactly_iff.mpr ⟨rfl, rfl⟩⟩

/-- A digit of any script counts as part of a word. -/
theorem isLetterOrDigit_of_isDigitChar {c : Char} (h : isDigitChar c = true) : isLetterOrDigit c = true := by
  have hrows : digitZeros.all (fun low => 128 ≤ low && spansRanges low (low + 9) wordRanges) = true := by decide +kernel
  obtain ⟨d, hd⟩ := Option.isSome_iff_exists.mp h
  obtain ⟨hten, low, hlow, hcode⟩ := Text.exists_zero_of_digitValue? hd
  rcases List.mem_cons.mp hlow with rfl | hlow
  · have hascii : c.toNat < 128 := by omega
    simp only [isLetterOrDigit, hascii, if_true, Bool.or_eq_true, Bool.and_eq_true, decide_eq_true_eq]
    omega
  · have hrow := List.all_eq_true.mp hrows low hlow
    rw [Bool.and_eq_true, decide_eq_true_eq] at hrow
    have hscript : ¬ c.toNat < 128 := by omega
    simp only [isLetterOrDigit, hscript, if_false]
    exact inRanges_of_spansRanges hrow.2 (by omega) (by omega)

theorem IsYearText.isWord {y : Text} (h : IsYearText y) : y.IsWord ∧ y.length = 4 := by
  obtain ⟨c, d, hc, hd, hy⟩ := h
  have hletters := And.intro (isLetterOrDigit_of_isDigitChar hc) (isLetterOrDigit_of_isDigitChar hd)
  have hfront : isLetterOrDigit '1' = true ∧ isLetterOrDigit '9' = true ∧ isLetterOrDigit '2' = true ∧
      isLetterOrDigit '0' = true := by decide
  rcases hy with rfl | rfl
  · exact ⟨⟨by simp, by simp [hletters, hfront]⟩, rfl⟩
  · exact ⟨⟨by simp, by simp [hletters, hfront]⟩, rfl⟩

/-- A text has a year exactly if the digits of one stand in it without a word character on either side. -/
theorem occursIn_year_iff {t : Text} :
    (Pattern.whole yearPattern).occursIn t = true ↔ ∃ y, IsYearText y ∧ Text.StandsIn y t := by
  have hfront {x y z : Text} (hy : y.IsWord) :
      Cursor.atWordEdge ⟨x.reverse, y ++ z⟩ = true ↔ x.getLast?.any isWordChar = false := by
    obtain ⟨c, rest, rfl⟩ := List.exists_cons_of_ne_nil hy.ne_nil
    simp [Cursor.atWordEdge, hy.isWordChar c List.mem_cons_self]
  have hback {x y z : Text} (hy : y.IsWord) :
      Cursor.atWordEdge ⟨y.reverse ++ x, z⟩ = true ↔ z.head?.any isWordChar = false := by
    obtain ⟨rest, c, rfl⟩ := (List.eq_nil_or_concat' y).resolve_left hy.ne_nil
    simp [Cursor.atWordEdge, hy.isWordChar c (by simp)]
  constructor
  · intro h
    obtain ⟨x, rest, b, rfl, hb⟩ := Pattern.occursIn_iff.mp h
    obtain ⟨m, hm, hb⟩ := Pattern.mem_ends_seq_iff.mp hb
    obtain ⟨hopen, rfl⟩ := Pattern.mem_ends_edge_iff.mp hm
    obtain ⟨n, hn, hb⟩ := Pattern.mem_ends_seq_iff.mp hb
    obtain ⟨hclose, rfl⟩ := Pattern.mem_ends_edge_iff.mp hb
    obtain ⟨y, hy, hafter, hbefore⟩ := mem_ends_yearPattern_iff.mp hn
    obtain ⟨before, z⟩ := b
    obtain rfl : rest = y ++ z := hafter
    obtain rfl : before = y.reverse ++ x.reverse := hbefore
    exact ⟨y, hy, x, z, rfl, (hfront hy.isWord.1).mp hopen, (hback hy.isWord.1).mp hclose⟩
  · rintro ⟨y, hy, x, z, rfl, hx, hz⟩
    have hyear : ⟨y.reverse ++ x.reverse, z⟩ ∈ yearPattern.ends ⟨x.reverse, y ++ z⟩ :=
      mem_ends_yearPattern_iff.mpr ⟨y, hy, rfl, rfl⟩
    have hends : ⟨y.reverse ++ x.reverse, z⟩ ∈ (Pattern.whole yearPattern).ends ⟨x.reverse, y ++ z⟩ := by
      refine Pattern.mem_ends_seq_iff.mpr ⟨_, Pattern.mem_ends_edge_iff.mpr ⟨(hfront hy.isWord.1).mpr hx, rfl⟩, ?_⟩
      refine Pattern.mem_ends_seq_iff.mpr ⟨_, hyear, ?_⟩
      exact Pattern.mem_ends_edge_iff.mpr ⟨(hback hy.isWord.1).mpr hz, rfl⟩
    exact Pattern.occursIn_of_mem_ends hends

/-- A word is a year exactly if it has the digits of one. -/
theorem isYear_iff : isYear w = true ↔ IsYearText w := by
  rw [isYear, Bool.and_eq_true, beq_iff_eq, occursIn_year_iff]
  constructor
  · rintro ⟨hlength, y, hy, x, z, rfl, -, -⟩
    have hfour := hy.isWord.2
    simp only [List.length_append] at hlength
    obtain rfl : x = [] := List.eq_nil_of_length_eq_zero (by omega)
    obtain rfl : z = [] := List.eq_nil_of_length_eq_zero (by omega)
    simpa using hy
  · exact fun h => ⟨h.isWord.2, w, h, [], [], by simp, rfl, rfl⟩

/-- Words name no year exactly if none of them is one. -/
theorem year?_join_eq_none_iff (hws : ∀ w ∈ ws, w.IsWord) (h : withoutDates (Text.join " " ws) = Text.join " " ws) :
    year? (Text.join " " ws) = none ↔ ∀ w ∈ ws, isYear w = false := by
  have hoccurs : year? (Text.join " " ws) ≠ none ↔ (Pattern.whole yearPattern).occursIn (Text.join " " ws) = true := by
    rw [year?, h, Option.ne_none_iff_isSome, Option.isSome_map]
    exact Pattern.findPart?_isSome_iff
  rw [← not_iff_not, ← ne_eq, hoccurs, occursIn_year_iff]
  simp only [not_forall, Bool.not_eq_false, isYear_iff]
  constructor
  · rintro ⟨y, hy, hstands⟩
    exact ⟨y, (Text.standsIn_join_iff hy.isWord.1 hws).mp hstands, hy⟩
  · rintro ⟨y, hmem, hy⟩
    exact ⟨y, hy, (Text.standsIn_join_iff hy.isWord.1 hws).mpr hmem⟩

end Years

end Question
end AskTable
