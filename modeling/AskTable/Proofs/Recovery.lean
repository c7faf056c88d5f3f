import AskTable.Json.Repair
import AskTable.Proofs.Header
import AskTable.Proofs.Pattern

/-! Recovering an object from a reply. An object that can be read is taken as it stands, whatever prose, fences
and blanks are put around it. -/
namespace AskTable

section Ends

variable {α : Type} {p : α → Bool} {w x : List α}

theorem dropWhile_append_of_head? (h : ∀ a ∈ x.head?, p a = false) :
    (w ++ x).dropWhile p = w.dropWhile p ++ x := by
  have hx : x.dropWhile p = x := by
    rw [List.dropWhile_eq_self_iff]
    intro hlong
    have hhead : x.head? = some x[0] := List.head?_eq_getElem? ▸ List.getElem?_eq_getElem hlong
    simpa using h _ hhead
  rw [List.dropWhile_append, hx]
  split_ifs with hnone
  · rw [List.isEmpty_iff.mp hnone, List.nil_append]
  · rfl

theorem rdropWhile_append_of_getLast? (h : ∀ a ∈ x.getLast?, p a = false) :
    (x ++ w).rdropWhile p = x ++ w.rdropWhile p := by
  have hx : ∀ a ∈ x.reverse.head?, p a = false := by
    rw [List.head?_reverse]
    exact h
  rw [List.rdropWhile, List.reverse_append, dropWhile_append_of_head? hx, List.reverse_append,
    List.reverse_reverse]
  rfl

end Ends

/-- What has content at both ends stays as it is when blanks are cut off the text around it. -/
theorem Text.strip_around {m : Text} (hne : m ≠ []) (hfront : ∀ c ∈ m.head?, isBlankChar c = false)
    (hback : ∀ c ∈ m.getLast?, isBlankChar c = false) (before after : Text) :
    (before ++ m ++ after).strip = before.dropWhile isBlankChar ++ m ++ after.rdropWhile isBlankChar := by
  have hdrop : (before ++ (m ++ after)).dropWhile isBlankChar = before.dropWhile isBlankChar ++ (m ++ after) := by
    refine dropWhile_append_of_head? fun c hc => hfront c ?_
    rwa [List.head?_append_of_ne_nil _ hne] at hc
  have hrdrop : (before.dropWhile isBlankChar ++ m ++ after).rdropWhile isBlankChar =
      before.dropWhile isBlankChar ++ m ++ after.rdropWhile isBlankChar := by
    refine rdropWhile_append_of_getLast? fun c hc => hback c ?_
    rwa [List.getLast?_append_of_ne_nil _ hne] at hc
  rw [Text.strip, Text.trim_eq_rdropWhile, List.append_assoc, hdrop, ← List.append_assoc, hrdrop]

namespace Json

structure IsBraced (s : Text) : Prop where
  head : s.head? = some '{'
  last : s.getLast? = some '}'

/-- A text stands in another one, with no brace opened before it and none closed after it. -/
def IsWithin (s t : Text) : Prop :=
  ∃ before after, t = before ++ s ++ after ∧ '{' ∉ before ∧ '}' ∉ after

variable {s t : Text}

theorem IsBraced.ne_nil (h : IsBraced s) : s ≠ [] := by
  intro hnil
  have hhead := h.head
  rw [hnil] at hhead
  cases hhead

theorem isWithin_strip (hs : IsBraced s) (h : IsWithin s t) : IsWithin s t.strip := by
  obtain ⟨before, after, rfl, hbefore, hafter⟩ := h
  have hfront : ∀ c ∈ s.head?, isBlankChar c = false := by
    intro c hc
    obtain rfl := Option.mem_some_iff.mp (hs.head ▸ hc)
    decide
  have hback : ∀ c ∈ s.getLast?, isBlankChar c = false := by
    intro c hc
    obtain rfl := Option.mem_some_iff.mp (hs.last ▸ hc)
    decide
  refine ⟨_, _, Text.strip_around hs.ne_nil hfront hback before after, fun hc => ?_, fun hc => ?_⟩
  · exact hbefore ((List.dropWhile_sublist _).subset hc)
  · exact hafter ((List.rdropWhile_prefix _ _).subset hc)

private theorem isAnchored_openingFence : openingFence.IsAnchored :=
  Pattern.isAnchored_start.seq

section OpeningFence

private theorem within_format :
    (Pattern.maybe (.alt (.exactly "json") (.exactly "JSON")) >> Pattern.space).Within (· ≠ '{') := by
  have hspace : Pattern.space.Within (· ≠ '{') := by
    refine Pattern.within_most fun c hc heq => ?_
    subst heq
    exact absurd hc (by decide)
  have hnames : Pattern.Within (· ≠ '{') (.alt (.exactly "json") (.exactly "JSON")) :=
    Pattern.within_alt (Pattern.within_exactly (by simp)) (Pattern.within_exactly (by simp))
  exact Pattern.within_seq (Pattern.within_maybe hnames) hspace

theorem within_openingFence : openingFence.Within (· ≠ '{') := by
  have hticks : (Pattern.exactly "```").Within (· ≠ '{') := Pattern.within_exactly (by simp)
  exact Pattern.within_seq Pattern.within_start (Pattern.within_seq hticks within_format)

theorem advances_openingFence : openingFence.Advances := by
  have hticks : (Pattern.exactly "```").Advances := Pattern.advances_exactly (by decide)
  have hstart : Pattern.start.Within (· ≠ '{') := Pattern.within_start
  exact Pattern.advances_seq_right hstart (Pattern.advances_seq_left hticks within_format)

end OpeningFence

/-- Where a closing fence begins, nothing follows but blanks and backticks. -/
theorem not_mem_of_closingFence {a b : Cursor} (h : b ∈ closingFence.ends a) : '}' ∉ a.after := by
  obtain ⟨m, hm, h⟩ := Pattern.mem_ends_seq_iff.mp h
  obtain ⟨n, hn, h⟩ := Pattern.mem_ends_seq_iff.mp h
  obtain ⟨hend, rfl⟩ := Pattern.mem_ends_finish_iff.mp h
  have hspace : Pattern.space.Within (· ≠ '}') := by
    refine Pattern.within_most fun c hc heq => ?_
    subst heq
    exact absurd hc (by decide)
  have hticks : (Pattern.exactly "```").Within (· ≠ '}') := Pattern.within_exactly (by simp)
  obtain ⟨w, hafter, -, hw⟩ := (hspace a m hm).trans (hticks m b hn)
  have hrest : '}' ∉ b.after := by
    rcases hend with hend | hend <;> simp [hend]
  intro hbrace
  rw [hafter] at hbrace
  rcases List.mem_append.mp hbrace with hbrace | hbrace
  · exact hw _ hbrace rfl
  · exact hrest hbrace

theorem isWithin_replace_openingFence (hs : IsBraced s) (h : IsWithin s t) :
    IsWithin s (Text.replace openingFence [] t) := by
  obtain ⟨before, after, rfl, hbefore, hafter⟩ := h
  obtain ⟨cut, rest, hsplit, hreplace, hcut⟩ := Text.replace_anchored isAnchored_openingFence
    advances_openingFence within_openingFence (before ++ s ++ after)
  -- The cut text has no opening brace, so it ends before the object begins.
  have hlength : cut.length ≤ before.length := by
    by_contra hlong
    have hmem : '{' ∈ cut := by
      have hget : (before ++ s ++ after)[before.length]? = some '{' := by
        rw [List.append_assoc, List.getElem?_append_right le_rfl, Nat.sub_self,
          ← List.head?_eq_getElem?, List.head?_append, hs.head]
        rfl
      rw [hsplit, List.getElem?_append_left (by omega)] at hget
      exact List.mem_of_getElem? hget
    exact hcut _ hmem rfl
  have hprefix : cut <+: before := by
    have hcut : cut <+: before ++ s ++ after := ⟨rest, hsplit.symm⟩
    have hfront : before <+: before ++ s ++ after := ⟨s ++ after, (List.append_assoc _ _ _).symm⟩
    exact List.prefix_of_prefix_length_le hcut hfront hlength
  obtain ⟨left, rfl⟩ := hprefix
  have hrest : rest = left ++ s ++ after := by
    rw [List.append_assoc, List.append_assoc] at hsplit
    rw [List.append_assoc]
    exact (List.append_cancel_left hsplit).symm
  refine ⟨left, after, hreplace.trans hrest, fun hc => hbefore ?_, hafter⟩
  exact List.mem_append_right _ hc

theorem isWithin_replace_closingFence (hs : IsBraced s) (h : IsWithin s t) :
    IsWithin s (Text.replace closingFence [] t) := by
  obtain ⟨before, after, rfl, hbefore, hafter⟩ := h
  have hnone : ∀ u v, before ++ s = u ++ v → v ≠ [] →
      closingFence.end? ⟨u.reverse, v ++ after⟩ = none := by
    intro u v huv hv
    -- Whatever begins in front of the end of the object has its closing brace before it.
    have hlast : v.getLast? = some '}' := by
      have hboth : (before ++ s).getLast? = some '}' := by
        rw [List.getLast?_append, hs.last]
        rfl
      rw [huv, List.getLast?_append] at hboth
      obtain ⟨c, hc⟩ := Option.isSome_iff_exists.mp (List.getLast?_isSome.mpr hv)
      rw [hc] at hboth ⊢
      exact hboth
    cases hend : closingFence.end? ⟨u.reverse, v ++ after⟩ with
    | none => rfl
    | some b =>
      have hfree := not_mem_of_closingFence (Pattern.mem_ends_of_end? hend)
      exact absurd (List.mem_append_left after (List.mem_of_getLast? hlast)) hfree
  obtain ⟨kept, hreplace, hkept⟩ := Text.replace_append hnone
  exact ⟨before, kept, hreplace, hbefore, fun hc => hafter (hkept _ hc)⟩

theorem isWithin_stripFences (hs : IsBraced s) (h : IsWithin s t) : IsWithin s (stripFences t) := by
  have hcontent := isWithin_strip hs h
  unfold stripFences
  dsimp only
  split_ifs
  · have hopened := isWithin_replace_openingFence hs hcontent
    have hclosed := isWithin_replace_closingFence hs hopened
    exact isWithin_strip hs hclosed
  · exact hcontent

theorem objectSpan_of_isWithin (hs : IsBraced s) (h : IsWithin s t) : objectSpan t = s := by
  obtain ⟨before, after, rfl, hbefore, hafter⟩ := h
  have hfront : (before ++ (s ++ after)).dropWhile (· != '{') = s ++ after := by
    have hbrace : ∀ c ∈ (s ++ after).head?, (c != '{') = false := by
      intro c hc
      rw [List.head?_append, hs.head] at hc
      obtain rfl : '{' = c := Option.some.inj hc
      rfl
    have hnone : before.dropWhile (· != '{') = [] := by
      rw [List.dropWhile_eq_nil_iff]
      intro c hc
      simpa using fun heq : c = '{' => hbefore (heq ▸ hc)
    rw [dropWhile_append_of_head? hbrace, hnone, List.nil_append]
  have hback : (s ++ after).rdropWhile (· != '}') = s := by
    have hbrace : ∀ c ∈ s.getLast?, (c != '}') = false := by
      intro c hc
      rw [hs.last] at hc
      obtain rfl : '}' = c := Option.some.inj hc
      rfl
    have hnone : after.rdropWhile (· != '}') = [] := by
      rw [List.rdropWhile_eq_nil_iff]
      intro c hc
      simpa using fun heq : c = '}' => hafter (heq ▸ hc)
    rw [rdropWhile_append_of_getLast? hbrace, hnone, List.append_nil]
  unfold objectSpan
  dsimp only
  rw [List.append_assoc, hfront]
  exact hback

/-- Of a reply only the object in it is read. -/
theorem readReply_of_isWithin (hs : IsBraced s) (h : IsWithin s t) :
    readReply t =
      match readRepaired s with
      | .ok (.dict entries) => .ok entries
      | .ok _ => .error .notAnObject
      | .error fault => .error fault := by
  have hspan : objectSpan (stripFences t) = s := objectSpan_of_isWithin hs (isWithin_stripFences hs h)
  unfold readReply
  rw [hspan]
  split
  · exact absurd rfl hs.ne_nil
  · rfl

/-- An object that can be read is read as it stands out of any reply that has it with no brace opened before
it and none closed after it. -/
theorem readReply_around {before s after : Text} {entries : List (Value × Value)} (hs : IsBraced s)
    (hread : read s = .ok (.dict entries)) (hbefore : '{' ∉ before) (hafter : '}' ∉ after) :
    readReply (before ++ s ++ after) = .ok entries := by
  have hwithin : IsWithin s (before ++ s ++ after) := ⟨before, after, rfl, hbefore, hafter⟩
  have hrepaired : readRepaired s = .ok (.dict entries) := by
    unfold readRepaired
    rw [hread]
  rw [readReply_of_isWithin hs hwithin, hrepaired]

def fencedText : Text :=
  "\x7b\"note\": \"\x7d ``` \x7b\", \"cost\": 12\x7d"

theorem readReply_around_fencedText : IsBraced fencedText ∧
    read fencedText = .ok (.dict [("note", "\x7d ``` \x7b"), ("cost", .int 12)]) ∧
    readReply ("```json\n" ++ fencedText ++ "\n``` \n") =
      .ok [("note", "\x7d ``` \x7b"), ("cost", .int 12)] := by
  have hs : IsBraced fencedText := ⟨by decide, by decide⟩
  have hread : read fencedText = .ok (.dict [("note", "\x7d ``` \x7b"), ("cost", .int 12)]) := by
    cbv
  have hbefore : '{' ∉ ("```json\n" : Text) := by decide
  have hafter : '}' ∉ ("\n``` \n" : Text) := by decide
  exact ⟨hs, hread, readReply_around hs hread hbefore hafter⟩

end Json
end AskTable
