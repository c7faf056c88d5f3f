import AskTable.Proofs.Pattern
import AskTable.Proofs.Sentence

/-! Words that a phrase asks for, in any letter case. Where such a word must end with a word of the text, or a
blank must follow it, it is a whole word of the text; and of words with a space before each, every part begins
within a word or with the space before one. -/
namespace AskTable

theorem append_inj_of_head? {α : Type} {test : α → Bool} {u w x y : List α} (hu : ∀ a ∈ u, test a = true)
    (hw : ∀ a ∈ w, test a = true) (hx : x.head?.any test = false) (hy : y.head?.any test = false)
    (h : u ++ x = w ++ y) : u = w ∧ x = y := by
  have hstop {l : List α} (hl : l.head?.any test = false) : l.takeWhile test = [] := by
    cases l with
    | nil => rfl
    | cons a l => simpa using hl
  have hfront := congrArg (List.takeWhile test) h
  rw [List.takeWhile_append_of_pos hu, List.takeWhile_append_of_pos hw, hstop hx, hstop hy, List.append_nil,
    List.append_nil] at hfront
  subst hfront
  exact ⟨rfl, List.append_cancel_left h⟩

/-- What stands for a small letter is a letter. -/
theorem isLetterOrDigit_of_sameLetter {small c : Char} (hsmall : small.isLower = true)
    (h : Pattern.sameLetter small c = true) : isLetterOrDigit c = true := by
  have hrange : 97 ≤ small.toNat ∧ small.toNat ≤ 122 := by
    obtain ⟨hlow, hhigh⟩ := Bool.and_eq_true_iff.mp hsmall
    exact ⟨UInt32.le_iff_toNat_le.mp (of_decide_eq_true hlow), UInt32.le_iff_toNat_le.mp (of_decide_eq_true hhigh)⟩
  have hascii (hlow : 65 ≤ c.toNat) (hhigh : c.toNat ≤ 122) (hgap : c.toNat ≤ 90 ∨ 97 ≤ c.toNat) :
      isLetterOrDigit c = true := by
    have hless : c.toNat < 128 := by omega
    simp only [isLetterOrDigit, hless, if_true, Bool.or_eq_true, Bool.and_eq_true, decide_eq_true_eq]
    omega
  have hother {n : Nat} (hn : c.toNat = n) (hletter : isLetterOrDigit (Char.ofNat n) = true) :
      isLetterOrDigit c = true := by
    rw [← Char.ofNat_toNat c, hn]
    exact hletter
  simp only [Pattern.sameLetter, Bool.or_eq_true, Bool.and_eq_true, decide_eq_true_eq, beq_iff_eq] at h
  rcases h with (((rfl | ⟨⟨hlow, hhigh⟩, -⟩) | ⟨-, hdotted | hdotless⟩) | ⟨-, hlong⟩) | ⟨-, hkelvin⟩
  · exact hascii (by omega) (by omega) (.inr hrange.1)
  · exact hascii hlow (by omega) (.inl (by omega))
  · exact hother hdotted (by decide +kernel)
  · exact hother hdotless (by decide +kernel)
  · exact hother hlong (by decide +kernel)
  · exact hother hkelvin (by decide +kernel)

/-- Only i, s and k are stood for by more characters than the letter and its capital. -/
theorem Pattern.eq_or_eq_of_sameLetter (small capital : Char) (hcapital : capital.toNat + 32 = small.toNat)
    (hplain : small ≠ 'i' ∧ small ≠ 's' ∧ small ≠ 'k') {c : Char} (h : Pattern.sameLetter small c = true) :
    c = small ∨ c = capital := by
  simp only [Pattern.sameLetter, Bool.or_eq_true, Bool.and_eq_true, beq_iff_eq, decide_eq_true_eq] at h
  rcases h with (((rfl | ⟨-, hcode⟩) | ⟨rfl, -⟩) | ⟨rfl, -⟩) | ⟨rfl, -⟩
  · exact .inl rfl
  · exact .inr (Char.toNat_inj.mp (by omega))
  · exact absurd rfl hplain.1
  · exact absurd rfl hplain.2.1
  · exact absurd rfl hplain.2.2

theorem isWordChar_of_isBlankChar {c : Char} (h : isBlankChar c = true) : isWordChar c = false := by
  by_contra hword
  rw [Bool.not_eq_false, isWordChar, Bool.or_eq_true, beq_iff_eq] at hword
  rcases hword with hletter | rfl
  · rw [Text.isBlankChar_of_isLetterOrDigit hletter] at h
    cases h
  · exact absurd h (by decide)

namespace Pattern

variable {p : Pattern} {ts : List Text} {t w rest before : Text} {a b m : Cursor}

/-- A text spells a word if its characters stand for the letters of the word, one by one. -/
def Spells (w letters : Text) : Prop :=
  List.Forall₂ (fun small c => sameLetter small c = true) letters w

instance (w letters : Text) : Decidable (Spells w letters) :=
  decidable_of_iff (letters.length = w.length ∧ ∀ pair ∈ letters.zip w, sameLetter pair.1 pair.2 = true) <| by
    rw [Spells, List.forall₂_iff_zip, Prod.forall]

theorem Spells.isLetterOrDigit (h : Spells w t) (ht : t.all Char.isLower = true) :
    ∀ c ∈ w, isLetterOrDigit c = true := by
  induction h with
  | nil => simp
  | cons hc _ ih =>
    obtain ⟨hsmall, hlater⟩ := Bool.and_eq_true_iff.mp ht
    exact List.forall_mem_cons.mpr ⟨isLetterOrDigit_of_sameLetter hsmall hc, ih hlater⟩

theorem Spells.ne_nil (h : Spells w t) (ht : t ≠ []) : w ≠ [] := by
  rintro rfl
  exact ht (List.forall₂_nil_right_iff.mp h)

theorem mem_ends_word_iff :
    b ∈ (word t).ends a ↔ ∃ w, Spells w t ∧ a.after = w ++ b.after ∧ b.before = w.reverse ++ a.before := by
  induction t generalizing a with
  | nil =>
    constructor
    · intro h
      obtain rfl := List.mem_singleton.mp h
      exact ⟨[], .nil, rfl, rfl⟩
    · rintro ⟨w, hspells, hafter, hbefore⟩
      obtain rfl := List.forall₂_nil_left_iff.mp hspells
      obtain ⟨before, after⟩ := a
      obtain ⟨before', after'⟩ := b
      obtain rfl : after = after' := hafter
      obtain rfl : before' = before := hbefore
      exact List.mem_singleton_self _
  | cons small t ih =>
    have hsteps : b ∈ (word (small :: t)).ends a ↔ ∃ m ∈ (one (sameLetter small)).ends a, b ∈ (word t).ends m :=
      mem_ends_seq_iff
    rw [hsteps]
    constructor
    · rintro ⟨m, hm, hb⟩
      obtain ⟨c, rest, hafter, hc, rfl⟩ := mem_ends_one_iff.mp hm
      obtain ⟨w, hspells, hrest, hbefore⟩ := ih.mp hb
      refine ⟨c :: w, .cons hc hspells, ?_, ?_⟩
      · rw [hafter, List.cons_append]
        exact congrArg _ hrest
      · rw [hbefore, List.reverse_cons, List.append_assoc]
        rfl
    · rintro ⟨w, hspells, hafter, hbefore⟩
      obtain ⟨c, rest, hc, hrest, rfl⟩ := List.forall₂_cons_left_iff.mp hspells
      refine ⟨⟨c :: a.before, rest ++ b.after⟩, mem_ends_one_iff.mpr ⟨c, _, hafter, hc, rfl⟩, ?_⟩
      refine ih.mpr ⟨rest, hrest, rfl, ?_⟩
      rw [hbefore, List.reverse_cons, List.append_assoc]
      rfl

theorem mem_ends_anyOf_iff {phrases : List Pattern} : b ∈ (anyOf phrases).ends a ↔ ∃ p ∈ phrases, b ∈ p.ends a := by
  induction phrases using anyOf.induct with
  | case1 =>
    obtain ⟨before, after⟩ := a
    cases after <;> simp [anyOf, ends]
  | case2 p => simp [anyOf]
  | case3 p rest hrest ih =>
    have halt : b ∈ (anyOf (p :: rest)).ends a ↔ b ∈ p.ends a ∨ b ∈ (anyOf rest).ends a := by
      rw [anyOf, ends, List.mem_append]
      exact hrest
    rw [halt, ih]
    simp

/-- A word that is asked for, with no word character behind it, is the whole word that stands there. -/
theorem mem_ends_anyWord_iff (hts : ∀ t ∈ ts, t.all Char.isLower = true) (hw : ∀ c ∈ w, isWordChar c = true)
    (hrest : rest.head?.any isWordChar = false) (hstop : m.after.head?.any isWordChar = false) :
    m ∈ (anyWord ts).ends ⟨before, w ++ rest⟩ ↔ (∃ t ∈ ts, Spells w t) ∧ m = ⟨w.reverse ++ before, rest⟩ := by
  rw [anyWord, mem_ends_anyOf_iff]
  constructor
  · rintro ⟨p, hp, hm⟩
    obtain ⟨t, ht, rfl⟩ := List.mem_map.mp hp
    obtain ⟨u, hspells, hafter, hbefore⟩ := mem_ends_word_iff.mp hm
    have hletters : ∀ c ∈ u, isWordChar c = true := fun c hc => by
      simp [isWordChar, hspells.isLetterOrDigit (hts t ht) c hc]
    obtain ⟨rfl, hsame⟩ := append_inj_of_head? hw hletters hrest hstop hafter
    refine ⟨⟨t, ht, hspells⟩, ?_⟩
    obtain ⟨before', after'⟩ := m
    obtain rfl : rest = after' := hsame
    obtain rfl : before' = w.reverse ++ before := hbefore
    rfl
  · rintro ⟨⟨t, ht, hspells⟩, rfl⟩
    exact ⟨word t, List.mem_map_of_mem ht, mem_ends_word_iff.mpr ⟨w, hspells, rfl, rfl⟩⟩

/-- A word that is asked for and ends with a word is read exactly where that word stands. -/
theorem exists_ends_anyWord_edge_iff (hts : ∀ t ∈ ts, t ≠ [] ∧ t.all Char.isLower = true)
    (hw : ∀ c ∈ w, isWordChar c = true) (hrest : rest.head?.any isWordChar = false) (before : Text) :
    (seq (anyWord ts) edge).ends ⟨before, w ++ rest⟩ ≠ [] ↔ ∃ t ∈ ts, Spells w t := by
  have hlower : ∀ t ∈ ts, t.all Char.isLower = true := fun t ht => (hts t ht).2
  rw [ne_eq, List.eq_nil_iff_forall_not_mem, not_forall_not]
  constructor
  · rintro ⟨b, hb⟩
    obtain ⟨m, hm, hb⟩ := mem_ends_seq_iff.mp hb
    obtain ⟨p, hp, hword⟩ := mem_ends_anyOf_iff.mp hm
    obtain ⟨t, ht, rfl⟩ := List.mem_map.mp hp
    obtain ⟨u, hspells, -, hbefore⟩ := mem_ends_word_iff.mp hword
    -- A letter stands before the edge, so none stands behind it.
    obtain ⟨front, c, rfl⟩ := (List.eq_nil_or_concat' u).resolve_left (hspells.ne_nil (hts t ht).1)
    have hc : isWordChar c = true := by simp [isWordChar, hspells.isLetterOrDigit (hlower t ht) c (by simp)]
    have hstop : m.after.head?.any isWordChar = false := by
      have hedge := (mem_ends_edge_iff.mp hb).1
      rw [Cursor.atWordEdge, hbefore] at hedge
      simpa [hc] using hedge
    exact ((mem_ends_anyWord_iff hlower hw hrest hstop).mp hm).1
  · rintro ⟨t, ht, hspells⟩
    obtain ⟨front, c, rfl⟩ := (List.eq_nil_or_concat' w).resolve_left (hspells.ne_nil (hts t ht).1)
    have hm : ⟨(front ++ [c]).reverse ++ before, rest⟩ ∈ (anyWord ts).ends ⟨before, front ++ [c] ++ rest⟩ :=
      (mem_ends_anyWord_iff hlower hw hrest hrest).mpr ⟨⟨t, ht, hspells⟩, rfl⟩
    have hc : isWordChar c = true := hw c (by simp)
    refine ⟨_, mem_ends_seq_iff.mpr ⟨_, hm, mem_ends_edge_iff.mpr ⟨?_, rfl⟩⟩⟩
    simp [Cursor.atWordEdge, hc, hrest]

end Pattern

namespace Text

variable {ws us : List Text} {u v w : Text}

def continued (ws : List Text) : Text :=
  ws.flatMap (' ' :: ·)

@[simp] theorem continued_nil : continued [] = [] := rfl

@[simp] theorem continued_cons : continued (w :: ws) = ' ' :: (w ++ continued ws) := rfl

@[simp] theorem continued_append : continued (ws ++ us) = continued ws ++ continued us := by
  simp [continued]

theorem join_cons (w : Text) (ws : List Text) : join " " (w :: ws) = w ++ continued ws := by
  induction ws generalizing w with
  | nil => simp [join]
  | cons v ws ih =>
    have hstep : join " " (w :: v :: ws) = w ++ ' ' :: join " " (v :: ws) := by simp [join]
    rw [hstep, ih, continued_cons]

/-- A part that goes to the end of words begins within a word or with the space before one. -/
theorem continued_cases (hw : w.IsWord) (hws : ∀ v ∈ ws, v.IsWord) (h : w ++ continued ws = u ++ v) (hv : v ≠ []) :
    (∃ c rest, v = c :: rest ∧ isLetterOrDigit c = true) ∨
      ∃ before next after, ws = before ++ next :: after ∧ v = ' ' :: (next ++ continued after) := by
  induction ws generalizing w u with
  | nil =>
    obtain ⟨c, rest, rfl⟩ := List.exists_cons_of_ne_nil hv
    rw [continued_nil, List.append_nil] at h
    exact .inl ⟨c, rest, rfl, hw.letters c (by simp [h])⟩
  | cons next ws ih =>
    obtain ⟨hnext, hlater⟩ := List.forall_mem_cons.mp hws
    rw [continued_cons, List.append_eq_append_iff] at h
    rcases h with ⟨passed, rfl, h⟩ | ⟨left, rfl, rfl⟩
    · cases passed with
      | nil => exact .inr ⟨[], next, ws, rfl, h.symm⟩
      | cons c passed =>
        obtain ⟨rfl, hrest⟩ := List.cons.inj h
        refine (ih hnext hlater hrest).imp_right fun hspace => ?_
        obtain ⟨before, word, after, rfl, hspace⟩ := hspace
        exact ⟨next :: before, word, after, rfl, hspace⟩
    · cases left with
      | nil => exact .inr ⟨[], next, ws, rfl, rfl⟩
      | cons c left => exact .inl ⟨c, _, rfl, hw.letters c (by simp)⟩

theorem head?_continued (ws : List Text) : (continued ws).head?.any isWordChar = false := by
  cases ws with
  | nil => rfl
  | cons w ws => rfl

theorem IsWord.head?_append (hw : w.IsWord) (rest : Text) : (w ++ rest).head?.any isBlankChar = false := by
  obtain ⟨c, u, rfl⟩ := List.exists_cons_of_ne_nil hw.ne_nil
  exact isBlankChar_of_isLetterOrDigit (hw.letters c List.mem_cons_self)

theorem IsWord.isWordChar (hw : w.IsWord) : ∀ c ∈ w, AskTable.isWordChar c = true := by
  intro c hc
  rw [AskTable.isWordChar, hw.letters c hc, Bool.true_or]

theorem IsWord.exists_cons (hw : w.IsWord) : ∃ c rest, w = c :: rest ∧ isLetterOrDigit c = true := by
  obtain ⟨c, rest, rfl⟩ := List.exists_cons_of_ne_nil hw.ne_nil
  exact ⟨c, rest, rfl, hw.letters c List.mem_cons_self⟩

private theorem IsWord.exists_concat (hw : w.IsWord) : ∃ rest c, w = rest ++ [c] ∧ isLetterOrDigit c = true := by
  obtain ⟨rest, c, rfl⟩ := (List.eq_nil_or_concat' w).resolve_left hw.ne_nil
  exact ⟨rest, c, rfl, hw.letters c (by simp)⟩

theorem isLetterOrDigit_or_of_mem {c : Char} (hw : w.IsWord) (hws : ∀ v ∈ ws, v.IsWord) (hc : c ∈ w ++ continued ws) :
    isLetterOrDigit c = true ∨ c = ' ' := by
  rcases List.mem_append.mp hc with hc | hc
  · exact .inl (hw.letters c hc)
  · obtain ⟨v, hv, hc⟩ := List.mem_flatMap.mp hc
    rcases List.mem_cons.mp hc with rfl | hc
    · exact .inr rfl
    · exact .inl ((hws v hv).letters c hc)

/-- Words begin and end with a letter or a digit. -/
theorem exists_ends_of_words (hw : w.IsWord) (hws : ∀ v ∈ ws, v.IsWord) :
    (∃ c rest, w ++ continued ws = c :: rest ∧ isLetterOrDigit c = true) ∧
      ∃ rest c, w ++ continued ws = rest ++ [c] ∧ isLetterOrDigit c = true := by
  constructor
  · obtain ⟨c, rest, rfl, hc⟩ := hw.exists_cons
    exact ⟨c, _, rfl, hc⟩
  · rcases List.eq_nil_or_concat' ws with rfl | ⟨front, last, rfl⟩
    · simpa using hw.exists_concat
    · obtain ⟨rest, c, rfl, hc⟩ := (hws last (by simp)).exists_concat
      exact ⟨w ++ continued front ++ ' ' :: rest, c, by simp, hc⟩

def StandsIn (w t : Text) : Prop :=
  ∃ x y, t = x ++ (w ++ y) ∧ x.getLast?.any AskTable.isWordChar = false ∧ y.head?.any AskTable.isWordChar = false

/-- A word that stands in joined words without a word character on either side is one of them. -/
theorem standsIn_join_iff (hw : w.IsWord) (hws : ∀ v ∈ ws, v.IsWord) : StandsIn w (join " " ws) ↔ w ∈ ws := by
  constructor
  · rintro ⟨x, y, heq, hx, hy⟩
    have hne : ws ≠ [] := by
      rintro rfl
      exact hw.ne_nil (List.append_eq_nil_iff.mp (List.append_eq_nil_iff.mp heq.symm).2).1
    obtain ⟨c, rest, rfl, hc⟩ := hw.exists_cons
    have hspaced : spaced ws = x ++ c :: (rest ++ (y ++ [' '])) := by
      rw [← join_append_space hne, heq]
      simp
    obtain ⟨before, front, back, after, rfl, rfl, hback⟩ :=
      exists_word_of_spaced hspaced (isBlankChar_of_isLetterOrDigit hc)
    have hwhole := (hws (front ++ c :: back) (by simp)).isWordChar
    obtain rfl : front = [] := by
      by_contra hfront
      obtain ⟨earlier, d, rfl⟩ := (List.eq_nil_or_concat' front).resolve_left hfront
      simp [hwhole d (by simp)] at hx
    have hstop : (y ++ [' ']).head?.any AskTable.isWordChar = false := by
      cases y with
      | nil => rfl
      | cons d y => exact hy
    obtain ⟨rfl, -⟩ := append_inj_of_head? (List.forall_mem_cons.mp hw.isWordChar).2
      (fun d hd => hwhole d (by simp [hd])) hstop rfl hback
    simp
  · intro hmem
    obtain ⟨before, after, rfl⟩ := List.append_of_mem hmem
    refine ⟨spaced before, continued after, ?_, ?_, head?_continued after⟩
    · rw [join_append (List.cons_ne_nil w after), join_cons]
    · rcases List.eq_nil_or_concat' before with rfl | ⟨earlier, last, rfl⟩
      · rfl
      · simp [AskTable.isWordChar, isLetterOrDigit]

end Text
end AskTable
