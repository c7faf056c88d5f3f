import AskTable.Proofs.Pattern
import AskTable.Proofs.SmallForm

/-! Sentences as words with a space behind each. A part of a sentence that begins with a character of a word is an
end of that word and the words after it, and the first word of a text can be told by the blank behind it. -/
namespace AskTable
namespace Text

variable {ws us : List Text} {t u v w x y : Text} {b c : Char}

def spaced (ws : List Text) : Text :=
  ws.flatMap (· ++ [' '])

@[simp] theorem spaced_nil : spaced [] = [] := rfl

@[simp] theorem spaced_cons : spaced (w :: ws) = w ++ ' ' :: spaced ws := by
  simp [spaced]

@[simp] theorem spaced_append : spaced (ws ++ us) = spaced ws ++ spaced us := by
  simp [spaced]

theorem join_append (h : us ≠ []) : join " " (ws ++ us) = spaced ws ++ join " " us := by
  induction ws with
  | nil => rfl
  | cons w rest ih =>
    have hstep : join " " (w :: (rest ++ us)) = w ++ ' ' :: join " " (rest ++ us) := by
      cases hrest : rest ++ us with
      | nil => exact absurd (List.append_eq_nil_iff.mp hrest).2 h
      | cons v vs => simp [join]
    rw [List.cons_append, hstep, ih, spaced_cons, List.append_assoc, List.cons_append]

theorem join_singleton : join " " [w] = w := rfl

/-- Joined words with a space behind the last. -/
theorem join_append_space (h : ws ≠ []) : join " " ws ++ [' '] = spaced ws := by
  obtain ⟨front, last, rfl⟩ := (List.eq_nil_or_concat' ws).resolve_left h
  rw [join_append (List.cons_ne_nil last []), join_singleton, spaced_append, spaced_cons, spaced_nil,
    List.append_assoc]

/-- Joined words are the words of the text. -/
theorem words_join (hws : ∀ w ∈ ws, IsSolid w ∧ w ≠ []) : (join " " ws).words = ws := by
  induction ws with
  | nil => rfl
  | cons w rest ih =>
    obtain ⟨⟨hsolid, hne⟩, hrest⟩ := List.forall_mem_cons.mp hws
    cases rest with
    | nil => exact hsolid.words_eq hne
    | cons v rest =>
      have hstep : join " " (w :: v :: rest) = w ++ ' ' :: join " " (v :: rest) := by simp [join]
      rw [hstep, words_append (by decide), hsolid.words_eq hne, ih hrest]
      rfl

theorem infix_join (h : w ∈ ws) : w <:+: join " " ws := by
  obtain ⟨before, after, rfl⟩ := List.append_of_mem h
  rw [join_append (List.cons_ne_nil w after)]
  cases after with
  | nil => exact ⟨spaced before, [], by simp [join]⟩
  | cons v after => exact ⟨spaced before, ' ' :: join " " (v :: after), by simp [join]⟩

def leading (t : Text) : Text :=
  t.takeWhile (!isBlankChar ·)

theorem IsSolid.leading_append (hw : IsSolid w) (t : Text) : leading (w ++ t) = w ++ leading t :=
  List.takeWhile_append_of_pos fun d hd => by simp [hw d hd]

theorem leading_append (hw : IsSolid w) (hc : isBlankChar c = true) (rest : Text) :
    leading (w ++ c :: rest) = w := by
  have hnone : leading (c :: rest) = [] := by simp [leading, hc]
  rw [hw.leading_append, hnone, List.append_nil]

theorem leading_append_blank (hc : isBlankChar c = true) (t rest : Text) :
    leading (t ++ c :: rest) = leading t := by
  induction t with
  | nil => simp [leading, hc]
  | cons d t ih =>
    unfold leading at ih ⊢
    rw [List.cons_append, List.takeWhile_cons, List.takeWhile_cons, ih]

/-- A part of a sentence that begins within a word goes on to the end of the word, with the words after it. -/
theorem exists_word_of_spaced (h : spaced ws = x ++ c :: y) (hc : isBlankChar c = false) :
    ∃ before front back after, ws = before ++ (front ++ c :: back) :: after ∧ x = spaced before ++ front ∧
      y = back ++ ' ' :: spaced after := by
  induction ws generalizing x with
  | nil => simp at h
  | cons w rest ih =>
    rw [spaced_cons, List.append_eq_append_iff] at h
    rcases h with ⟨middle, rfl, hspace⟩ | ⟨back, rfl, hback⟩
    · cases middle with
      | nil =>
        have hblank : c = ' ' := by simpa using (List.cons.inj hspace).1.symm
        subst hblank
        exact absurd hc (by decide)
      | cons d middle =>
        obtain ⟨rfl, hrest⟩ := List.cons.inj hspace
        obtain ⟨before, front, back, after, rfl, rfl, rfl⟩ := ih hrest
        exact ⟨w :: before, front, back, after, rfl, by simp, rfl⟩
    · cases back with
      | nil =>
        have hblank : c = ' ' := (List.cons.inj hback).1
        subst hblank
        exact absurd hc (by decide)
      | cons d back =>
        obtain ⟨rfl, rfl⟩ := List.cons.inj hback
        exact ⟨[], x, back, rest, rfl, rfl, rfl⟩

/-- A part of a sentence that begins with a blank goes on with the words after it. -/
theorem exists_words_of_spaced (hws : ∀ w ∈ ws, IsSolid w) (h : spaced ws = x ++ c :: y)
    (hc : isBlankChar c = true) : ∃ before after, ws = before ++ after ∧ y = spaced after := by
  induction ws generalizing x with
  | nil => simp at h
  | cons w rest ih =>
    obtain ⟨hw, hrest⟩ := List.forall_mem_cons.mp hws
    rw [spaced_cons, List.append_eq_append_iff] at h
    rcases h with ⟨middle, rfl, hspace⟩ | ⟨back, rfl, hback⟩
    · cases middle with
      | nil => exact ⟨[w], rest, rfl, (List.cons.inj hspace).2.symm⟩
      | cons d middle =>
        obtain ⟨before, after, rfl, rfl⟩ := ih hrest (List.cons.inj hspace).2
        exact ⟨w :: before, after, rfl, rfl⟩
    · cases back with
      | nil => exact ⟨[x ++ []], rest, rfl, (List.cons.inj hback).2⟩
      | cons d back =>
        obtain ⟨rfl, -⟩ := List.cons.inj hback
        have hsolid := hw c (by simp)
        rw [hc] at hsolid
        cases hsolid

theorem exists_cons_of_isPlain (h : w.IsPlain) : ∃ c rest, w = c :: rest ∧ isBlankChar c = false := by
  obtain ⟨c, rest, rfl⟩ := List.exists_cons_of_ne_nil h.ne_nil
  exact ⟨c, rest, rfl, h.solid c List.mem_cons_self⟩

/-- Behind blanks, a text goes on with its first word. -/
theorem eq_of_spaced_eq {blanks rest : Text} (hw : w.IsPlain) (hu : u.IsPlain)
    (hblanks : ∀ d ∈ blanks, isBlankChar d = true) (hb : isBlankChar b = true) (hc : isBlankChar c = true)
    (h : w ++ b :: t = blanks ++ (u ++ c :: rest)) : blanks = [] ∧ w = u := by
  have hnone : blanks = [] := by
    cases blanks with
    | nil => rfl
    | cons d blanks =>
      obtain ⟨e, w, rfl, he⟩ := exists_cons_of_isPlain hw
      obtain ⟨rfl, -⟩ := List.cons.inj h
      rw [hblanks e List.mem_cons_self] at he
      cases he
  subst hnone
  have hleading := congrArg leading h
  rw [List.nil_append, leading_append hw.solid hb, leading_append hu.solid hc] at hleading
  exact ⟨rfl, hleading⟩

/-- Where a sentence goes on with other words, these are its first words, or it ends within them. -/
theorem prefix_or_prefix {blanks later rest : Text} (hws : ∀ w ∈ ws, w.IsPlain) (hus : ∀ u ∈ us, u.IsPlain)
    (hblanks : ∀ d ∈ blanks, isBlankChar d = true) (hc : isBlankChar c = true)
    (h : spaced ws ++ rest = blanks ++ (join " " us ++ c :: later)) : us <+: ws ∨ ws <+: us := by
  induction us generalizing ws blanks with
  | nil => exact .inl List.nil_prefix
  | cons u us ih =>
    cases ws with
    | nil => exact .inr List.nil_prefix
    | cons w ws =>
      obtain ⟨hw, hrestw⟩ := List.forall_mem_cons.mp hws
      obtain ⟨hu, hrestu⟩ := List.forall_mem_cons.mp hus
      rw [spaced_cons, List.append_assoc, List.cons_append] at h
      cases us with
      | nil =>
        obtain ⟨-, rfl⟩ := eq_of_spaced_eq hw hu hblanks (by decide) hc h
        exact .inl (List.cons_prefix_cons.mpr ⟨rfl, List.nil_prefix⟩)
      | cons v us =>
        have hstep : join " " (u :: v :: us) ++ c :: later = u ++ ' ' :: (join " " (v :: us) ++ c :: later) := by
          simp [join]
        rw [hstep] at h
        obtain ⟨rfl, rfl⟩ := eq_of_spaced_eq hw hu hblanks (by decide) (by decide) h
        have htail := (List.cons.inj (List.append_cancel_left h)).2
        have hnone : ∀ d ∈ ([] : Text), isBlankChar d = true := fun _ hd => absurd hd List.not_mem_nil
        refine (ih hrestw hrestu hnone htail).imp (fun hbegin => ?_) fun hbegin => ?_
        · exact List.cons_prefix_cons.mpr ⟨rfl, hbegin⟩
        · exact List.cons_prefix_cons.mpr ⟨rfl, hbegin⟩

end Text
end AskTable
