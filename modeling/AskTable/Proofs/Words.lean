import AskTable.Proofs.Index

/-! Words of a text. A word has no blanks and stands in the text as it is; so does every word that the index
takes from a cell, in the small form of the cell's text. -/
namespace AskTable

namespace Text

variable {sep : Char → Bool} {t part w : Text}

/-- The first of the parts is the front of the text, and every part stands in it without a separator. -/
theorem splitWhen_parts (sep : Char → Bool) (t : Text) :
    ∃ first parts, splitWhen sep t = first :: parts ∧ first <+: t ∧
      ∀ part ∈ first :: parts, part <:+: t ∧ ∀ c ∈ part, sep c = false := by
  induction t with
  | nil => exact ⟨[], [], rfl, List.prefix_rfl, by simp⟩
  | cons c rest ih =>
    obtain ⟨first, parts, hsplit, hfirst, hparts⟩ := ih
    have hlater : ∀ part ∈ first :: parts, part <:+: c :: rest ∧ ∀ d ∈ part, sep d = false := by
      intro part hpart
      obtain ⟨hinside, hfree⟩ := hparts part hpart
      exact ⟨hinside.trans (List.suffix_cons c rest).isInfix, hfree⟩
    by_cases hc : sep c = true
    · refine ⟨[], first :: parts, by simp only [splitWhen, hc, if_true, hsplit], List.nil_prefix, ?_⟩
      intro part hpart
      rcases List.mem_cons.mp hpart with rfl | hpart
      · exact ⟨List.nil_infix, by simp⟩
      · exact hlater part hpart
    · have hsep : sep c = false := eq_false_of_ne_true hc
      have hlonger : c :: first <+: c :: rest := List.cons_prefix_cons.mpr ⟨rfl, hfirst⟩
      have hsplit' : splitWhen sep (c :: rest) = (c :: first) :: parts := by
        simp only [splitWhen, hsep, hsplit]
        rfl
      refine ⟨c :: first, parts, hsplit', hlonger, ?_⟩
      intro part hpart
      rcases List.mem_cons.mp hpart with rfl | hpart
      · have hfree := (hparts first List.mem_cons_self).2
        exact ⟨hlonger.isInfix, List.forall_mem_cons.mpr ⟨hsep, hfree⟩⟩
      · exact hlater part (List.mem_cons_of_mem _ hpart)

theorem splitWhen_of_forall (h : ∀ c ∈ t, sep c = false) : splitWhen sep t = [t] := by
  induction t with
  | nil => rfl
  | cons c rest ih =>
    obtain ⟨hc, hrest⟩ := List.forall_mem_cons.mp h
    simp only [splitWhen, hc, ih hrest]
    rfl

theorem of_mem_words (h : w ∈ t.words) : w ≠ [] ∧ IsSolid w ∧ w <:+: t := by
  obtain ⟨hmem, hfilled⟩ := List.mem_filter.mp h
  obtain ⟨first, parts, hsplit, -, hparts⟩ := splitWhen_parts isBlankChar t
  rw [hsplit] at hmem
  obtain ⟨hinside, hsolid⟩ := hparts w hmem
  exact ⟨by simpa using hfilled, hsolid, hinside⟩

/-- A text without blanks is a word of its own. -/
theorem IsSolid.words_eq (h : IsSolid t) (hne : t ≠ []) : t.words = [t] := by
  rw [words, splitWhen_of_forall h]
  simp [hne]

theorem splitWhen_append {c : Char} (hc : sep c = true) (u v : Text) :
    splitWhen sep (u ++ c :: v) = splitWhen sep u ++ splitWhen sep v := by
  induction u with
  | nil => simp [splitWhen, hc]
  | cons d u ih =>
    rw [List.cons_append, splitWhen, splitWhen, ih]
    split_ifs
    · rfl
    · cases hparts : splitWhen sep u with
      | nil => exact absurd hparts (splitWhen_ne_nil sep u)
      | cons part parts => rfl

/-- A blank parts the words before it from those after it. -/
theorem words_append {c : Char} (hc : isBlankChar c = true) (u v : Text) :
    (u ++ c :: v).words = u.words ++ v.words := by
  rw [words, splitWhen_append hc, List.filter_append]
  rfl

/-- A text between blanks is a word. -/
theorem mem_words {u rest blanks : Text} {c : Char} (hw : IsSolid w) (hne : w ≠ [])
    (hc : isBlankChar c = true) (hblanks : ∀ d ∈ blanks, isBlankChar d = true)
    (hrest : rest = [] ∨ ∃ d later, rest = d :: later ∧ isBlankChar d = true) :
    w ∈ (u ++ c :: (blanks ++ (w ++ rest))).words := by
  have hword : w ∈ (w ++ rest).words := by
    rcases hrest with rfl | ⟨d, later, rfl, hd⟩
    · rw [List.append_nil, hw.words_eq hne]
      exact List.mem_singleton_self w
    · rw [words_append hd, hw.words_eq hne]
      exact List.mem_append_left _ (List.mem_singleton_self w)
  have hspaced : (blanks ++ (w ++ rest)).words = (w ++ rest).words := by
    clear hword
    induction blanks with
    | nil => rfl
    | cons d blanks ih =>
      obtain ⟨hd, hblanks⟩ := List.forall_mem_cons.mp hblanks
      have hnone : words [] = [] := by rfl
      rw [List.cons_append, ← List.nil_append (d :: _), words_append hd, hnone, ih hblanks]
      rfl
  rw [words_append hc, hspaced]
  exact List.mem_append_right _ hword

theorem exists_solid_prefix (t : Text) : ∃ front rest, t = front ++ rest ∧ IsSolid front ∧
    (rest = [] ∨ ∃ c later, rest = c :: later ∧ isBlankChar c = true) := by
  refine ⟨t.takeWhile (!isBlankChar ·), t.dropWhile (!isBlankChar ·), List.takeWhile_append_dropWhile.symm, ?_, ?_⟩
  · intro c hc
    simpa using List.mem_takeWhile_imp hc
  · cases hrest : t.dropWhile (!isBlankChar ·) with
    | nil => exact .inl rfl
    | cons c later =>
      have hstop := List.head?_dropWhile_not (!isBlankChar ·) t
      rw [hrest] at hstop
      exact .inr ⟨c, later, rfl, by simpa using hstop⟩

private theorem exists_solid_suffix (t : Text) : ∃ rest back, t = rest ++ back ∧ IsSolid back ∧
    (rest = [] ∨ ∃ earlier c, rest = earlier ++ [c] ∧ isBlankChar c = true) := by
  obtain ⟨front, rest, heq, hsolid, hstop⟩ := exists_solid_prefix t.reverse
  refine ⟨rest.reverse, front.reverse, ?_, fun c hc => hsolid c (List.mem_reverse.mp hc), ?_⟩
  · rw [← List.reverse_append, ← heq, List.reverse_reverse]
  · rcases hstop with rfl | ⟨c, later, rfl, hc⟩
    · exact .inl rfl
    · exact .inr ⟨later.reverse, c, List.reverse_cons, hc⟩

/-- A piece of a text without blanks lies within a word. -/
theorem infix_iff_exists_mem_words (hw : IsSolid w) (hne : w ≠ []) : w <:+: t ↔ ∃ v ∈ t.words, w <:+: v := by
  constructor
  · rintro ⟨x, y, rfl⟩
    obtain ⟨x, front, rfl, hfront, hx⟩ := exists_solid_suffix x
    obtain ⟨back, y, rfl, hback, hy⟩ := exists_solid_prefix y
    let v : Text := front ++ w ++ back
    have hv : IsSolid v := isSolid_append.mpr ⟨isSolid_append.mpr ⟨hfront, hw⟩, hback⟩
    have hvne : v ≠ [] := by simp [v, hne]
    refine ⟨v, ?_, front, back, rfl⟩
    have hend : v ∈ (v ++ y).words := by
      rcases hy with rfl | ⟨c, later, rfl, hc⟩
      · rw [List.append_nil, hv.words_eq hvne]
        exact List.mem_singleton_self v
      · rw [words_append hc, hv.words_eq hvne]
        exact List.mem_append_left _ (List.mem_singleton_self v)
    have hsplit : x ++ front ++ w ++ (back ++ y) = x ++ (v ++ y) := by simp [v]
    rw [hsplit]
    rcases hx with rfl | ⟨earlier, c, rfl, hc⟩
    · exact hend
    · rw [List.append_assoc, List.singleton_append, words_append hc]
      exact List.mem_append_right _ hend
  · rintro ⟨v, hv, hinside⟩
    exact hinside.trans (of_mem_words hv).2.2

private theorem infix_of_infix_map {f : Char → Char} (h : w <:+: t.map f) (hf : ∀ c, f c ∈ w → f c = c) :
    w <:+: t := by
  obtain ⟨front, back, hmap⟩ := h
  obtain ⟨left, rest, rfl, hleft, hrest⟩ := List.map_eq_append_iff.mp hmap.symm
  obtain ⟨start, middle, rfl, hstart, rfl⟩ := List.map_eq_append_iff.mp hleft
  have hsame : middle.map f = middle := by
    have hkept : ∀ c ∈ middle, f c = id c := fun c hc => hf c (List.mem_map_of_mem hc)
    rw [List.map_congr_left hkept, List.map_id]
  rw [hsame]
  exact ⟨start, rest, rfl⟩

def blankCodes : List Nat :=
  [9, 10, 11, 12, 13, 28, 29, 30, 31, 32, 0x85, 0xA0, 0x1680, 0x2000, 0x2001, 0x2002, 0x2003, 0x2004,
    0x2005, 0x2006, 0x2007, 0x2008, 0x2009, 0x200A, 0x2028, 0x2029, 0x202F, 0x205F, 0x3000]

theorem toNat_mem_blankCodes {c : Char} (h : isBlankChar c = true) : c.toNat ∈ blankCodes := by
  simp only [isBlankChar, Bool.or_eq_true, Bool.and_eq_true, decide_eq_true_eq, beq_iff_eq] at h
  simp only [blankCodes, List.mem_cons, List.not_mem_nil, or_false]
  omega

theorem lowerChar_of_isBlankChar {c : Char} (h : isBlankChar c = true) : lowerChar c = [c] := by
  have hall : ∀ n ∈ blankCodes, lowerChar (Char.ofNat n) = [Char.ofNat n] := by decide +kernel
  have hc := hall c.toNat (toNat_mem_blankCodes h)
  rwa [Char.ofNat_toNat] at hc

/-- The small form of a text keeps the characters that are their own small form. -/
theorem mem_lowerAfter_of_lowerChar {c : Char} (h : lowerChar c = [c]) (hc : c ∈ t) (before : Text) :
    c ∈ lowerAfter before t := by
  induction t generalizing before with
  | nil => cases hc
  | cons d rest ih =>
    unfold lowerAfter
    rcases List.mem_cons.mp hc with rfl | hc
    · refine List.mem_append_left _ ?_
      rw [if_neg (ne_sigma_of_lowerChar h), h]
      exact List.mem_singleton_self c
    · exact List.mem_append_right _ (ih hc _)

theorem mem_lower_of_lowerChar {c : Char} (h : lowerChar c = [c]) (hc : c ∈ t) : c ∈ t.lower :=
  mem_lowerAfter_of_lowerChar h hc []

theorem IsSolid.of_lower (h : IsSolid t.lower) : IsSolid t := by
  intro c hc
  by_contra hblank
  have hsmall := mem_lower_of_lowerChar (lowerChar_of_isBlankChar (eq_true_of_ne_false hblank)) hc
  exact hblank (h c hsmall)

end Text

open Text (IsSolid)

/-- A word taken from a text stands in its small form; punctuation is not part of it. -/
theorem of_mem_tokens {stop : List Text} {t token : Text} (h : token ∈ tokens stop t) :
    token ≠ [] ∧ IsSolid token ∧ token <:+: t.lower := by
  obtain ⟨hword, -⟩ := List.mem_filter.mp h
  obtain ⟨hne, hsolid, hinside⟩ := Text.of_mem_words hword
  refine ⟨hne, hsolid, Text.infix_of_infix_map hinside fun c hc => ?_⟩
  -- What was put in place of punctuation is a blank, and no part of a word.
  by_contra hchanged
  have hspace : (if isWordChar c || isBlankChar c then c else ' ') = ' ' := by
    split_ifs with hkept
    · rw [if_pos hkept] at hchanged
      exact absurd rfl hchanged
    · rfl
  have hblank := hsolid _ hc
  rw [hspace] at hblank
  exact absurd hblank (by decide)

theorem of_mem_cellTokens {v : Value} {token : Text} (h : token ∈ cellTokens v) :
    token ≠ [] ∧ IsSolid token ∧ token <:+: v.cellText.lower :=
  of_mem_tokens h

end AskTable
