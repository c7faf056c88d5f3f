import AskTable.Proofs.Words

/-! The small form of a text between others. Only a capital sigma looks at its neighbours, so a text keeps its own
small form there unless a sigma at one of its ends looks past it and meets a letter with case. -/
namespace AskTable
namespace Text

variable {before before' t u w after after' : Text} {c : Char}

/-- A blank has no case, and it is not silent either. -/
theorem isCaseSilent_of_isBlankChar (h : isBlankChar c = true) :
    isCaseSilent c = false ∧ inRanges c.toNat casedRanges = false := by
  have hall : ∀ n ∈ blankCodes, inRanges n caseSilentRanges = false ∧ inRanges n casedRanges = false := by
    decide +kernel
  exact hall c.toNat (toNat_mem_blankCodes h)

theorem meetsCased_cons (c : Char) (t : Text) :
    meetsCased (c :: t) = if isCaseSilent c then meetsCased t else inRanges c.toNat casedRanges := by
  unfold meetsCased
  rw [List.dropWhile_cons]
  split_ifs <;> rfl

theorem meetsCased_cons_of_isBlankChar (h : isBlankChar c = true) (t : Text) : meetsCased (c :: t) = false := by
  rw [meetsCased_cons, (isCaseSilent_of_isBlankChar h).1, (isCaseSilent_of_isBlankChar h).2]
  rfl

/-- What comes after a text is met from before it only if nothing in the text stops the eye. -/
theorem meetsCased_append (t u : Text) :
    meetsCased (t ++ u) = if t.all isCaseSilent then meetsCased u else meetsCased t := by
  induction t with
  | nil => rfl
  | cons c rest ih =>
    rw [List.cons_append, meetsCased_cons, meetsCased_cons, ih, List.all_cons]
    cases isCaseSilent c <;> simp

private theorem meetsCased_of_all (h : t.all isCaseSilent = true) : meetsCased t = false := by
  have hpast := meetsCased_append t []
  rwa [List.append_nil, if_pos h] at hpast

/-- Whether a capital sigma between two texts takes its final form. The text before it is read backwards. -/
def isFinal (before after : Text) : Bool :=
  meetsCased before && !meetsCased after

def formBetween (before : Text) (c : Char) (after : Text) : Text :=
  if c = 'Σ' then [if isFinal before after then 'ς' else 'σ'] else lowerChar c

def lowerBetween (before : Text) : Text → Text → Text
  | [], _ => []
  | c :: rest, after => formBetween before c (rest ++ after) ++ lowerBetween (c :: before) rest after

@[simp] theorem lowerBetween_nil (before t : Text) : lowerBetween before t [] = lowerAfter before t := by
  induction t generalizing before with
  | nil => rfl
  | cons c rest ih =>
    rw [lowerBetween, ih, List.append_nil]
    rfl

/-- The small form of a text is that of its parts, each between what comes before it and after it. -/
theorem lowerBetween_append (before t u after : Text) :
    lowerBetween before (t ++ u) after =
      lowerBetween before t (u ++ after) ++ lowerBetween (t.reverse ++ before) u after := by
  induction t generalizing before with
  | nil => rfl
  | cons c rest ih =>
    rw [List.cons_append, lowerBetween, lowerBetween, ih, List.reverse_cons, List.append_assoc, List.append_assoc,
      List.append_assoc]
    rfl

theorem lowerAfter_append (before t u : Text) :
    lowerAfter before (t ++ u) = lowerBetween before t u ++ lowerAfter (t.reverse ++ before) u := by
  rw [← lowerBetween_nil, lowerBetween_append, List.append_nil, lowerBetween_nil]

theorem length_formBetween (before : Text) (c : Char) (after before' after' : Text) :
    (formBetween before c after).length = (formBetween before' c after').length := by
  unfold formBetween
  split_ifs <;> rfl

theorem length_lowerBetween (before t after before' after' : Text) :
    (lowerBetween before t after).length = (lowerBetween before' t after').length := by
  induction t generalizing before before' with
  | nil => rfl
  | cons c rest ih =>
    rw [lowerBetween, lowerBetween, List.length_append, List.length_append, ih,
      length_formBetween before c _ before' (rest ++ after')]

theorem formBetween_eq_iff {after after' : Text} : formBetween before c after = formBetween before' c after' ↔
    (c = 'Σ' → isFinal before after = isFinal before' after') := by
  unfold formBetween
  by_cases hc : c = 'Σ'
  · cases isFinal before after <;> cases isFinal before' after' <;> simp [hc]
  · simp [hc]

/-- What holds of the places of a character in a text holds of the first place and of those behind it. -/
theorem forall_place_cons_iff {p : Text → Text → Prop} {d : Char} :
    (∀ front back, c :: t = front ++ d :: back → p front back) ↔
      (c = d → p [] t) ∧ ∀ front back, t = front ++ d :: back → p (c :: front) back := by
  constructor
  · refine fun h => ⟨?_, fun front back heq => h (c :: front) back (by rw [heq, List.cons_append])⟩
    rintro rfl
    exact h [] t rfl
  · rintro ⟨hfirst, hlater⟩ front back heq
    cases front with
    | nil =>
      obtain ⟨hc, rfl⟩ := List.cons.inj heq
      exact hfirst hc
    | cons e front =>
      obtain ⟨rfl, hrest⟩ := List.cons.inj heq
      exact hlater front back hrest

/-- A text has the same small form in two surroundings exactly if each of its capital sigmas closes a word in both of
them or in neither. -/
theorem lowerBetween_eq_iff : lowerBetween before t after = lowerBetween before' t after' ↔
    ∀ front back, t = front ++ 'Σ' :: back →
      isFinal (front.reverse ++ before) (back ++ after) = isFinal (front.reverse ++ before') (back ++ after') := by
  induction t generalizing before before' with
  | nil => simp [lowerBetween]
  | cons c rest ih =>
    have hlength := length_formBetween before c (rest ++ after) before' (rest ++ after')
    have hparts : lowerBetween before (c :: rest) after = lowerBetween before' (c :: rest) after' ↔
        formBetween before c (rest ++ after) = formBetween before' c (rest ++ after') ∧
          lowerBetween (c :: before) rest after = lowerBetween (c :: before') rest after' :=
      ⟨fun h => List.append_inj h hlength, fun ⟨hform, hrest⟩ => congrArg₂ (· ++ ·) hform hrest⟩
    rw [hparts, formBetween_eq_iff, ih, forall_place_cons_iff]
    simp only [List.reverse_cons, List.append_assoc, List.reverse_nil, List.nil_append, List.singleton_append]

/-- Surroundings matter by the first character of either side that is not silent. -/
theorem lowerBetween_congr (hbefore : meetsCased before = meetsCased before')
    (hafter : meetsCased after = meetsCased after') :
    lowerBetween before t after = lowerBetween before' t after' := by
  refine lowerBetween_eq_iff.mpr fun front back _ => ?_
  simp only [isFinal, meetsCased_append, hbefore, hafter]

/-- A blank parts the small forms of what is before it and after it. -/
theorem lowerAfter_append_cons (h : isBlankChar c = true) (before t u : Text) :
    lowerAfter before (t ++ c :: u) = lowerAfter before t ++ c :: u.lower := by
  have hown : lowerChar c = [c] := lowerChar_of_isBlankChar h
  have hfront : lowerBetween before t (c :: u) = lowerBetween before t [] :=
    lowerBetween_congr rfl (meetsCased_cons_of_isBlankChar h u)
  have hback : lowerBetween (c :: (t.reverse ++ before)) u [] = lowerBetween [] u [] :=
    lowerBetween_congr (meetsCased_cons_of_isBlankChar h _) rfl
  rw [lowerBetween_nil, lowerBetween_nil] at hback
  rw [lowerAfter_append, hfront, lowerBetween_nil, lowerAfter, if_neg (ne_sigma_of_lowerChar hown), hown, hback]
  rfl

theorem lower_append_cons (h : isBlankChar c = true) (t u : Text) : (t ++ c :: u).lower = t.lower ++ c :: u.lower :=
  lowerAfter_append_cons h [] t u

/-- A capital sigma at the front of the text, silent characters apart, closes a word that begins before the text. -/
def ClosesWord (before t after : Text) : Prop :=
  ∃ silent rest, t = silent ++ 'Σ' :: rest ∧ silent.all isCaseSilent = true ∧
    meetsCased before = true ∧ meetsCased (rest ++ after) = false

/-- The word that a capital sigma at the end of the text, silent characters apart, would close goes on behind the
text. -/
def LeavesWord (t after : Text) : Prop :=
  ∃ front silent, t = front ++ 'Σ' :: silent ∧ silent.all isCaseSilent = true ∧
    meetsCased front.reverse = true ∧ meetsCased after = true

/-- A capital sigma has the same form among other texts as in its own text alone, unless it has only silent
characters on one side within its text and the texts beyond that side decide. -/
theorem isFinal_append_iff {front back : Text} :
    isFinal (front.reverse ++ before) (back ++ after) = isFinal front.reverse back ↔
      ¬ (front.all isCaseSilent = true ∧ meetsCased before = true ∧ meetsCased (back ++ after) = false) ∧
        ¬ (back.all isCaseSilent = true ∧ meetsCased front.reverse = true ∧ meetsCased after = true) := by
  unfold isFinal
  rw [meetsCased_append front.reverse, List.all_reverse, meetsCased_append back]
  by_cases hfront : front.all isCaseSilent = true
  · have hnone : meetsCased front.reverse = false := meetsCased_of_all (by rwa [List.all_reverse])
    simp [hfront, hnone]
  · by_cases hback : back.all isCaseSilent = true
    · simp [hfront, hback, meetsCased_of_all hback]
    · simp [hfront, hback]

/-- Surroundings change the small form of a text by a capital sigma at one of its ends, or not at all. -/
theorem lowerBetween_eq_lower_iff : lowerBetween before t after = t.lower ↔
    ¬ ClosesWord before t after ∧ ¬ LeavesWord t after := by
  rw [lower, ← lowerBetween_nil, lowerBetween_eq_iff]
  simp only [List.append_nil, isFinal_append_iff]
  constructor
  · refine fun h => ⟨?_, ?_⟩
    · rintro ⟨silent, rest, heq, hplace⟩
      exact (h silent rest heq).1 hplace
    · rintro ⟨front, silent, heq, hplace⟩
      exact (h front silent heq).2 hplace
  · rintro ⟨hcloses, hleaves⟩ front back heq
    exact ⟨fun hplace => hcloses ⟨front, back, heq, hplace⟩, fun hplace => hleaves ⟨front, back, heq, hplace⟩⟩

end Text
end AskTable
