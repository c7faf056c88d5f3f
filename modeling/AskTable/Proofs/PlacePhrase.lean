import AskTable.Proofs.ColumnPhrase
import AskTable.Proofs.Shortening
import AskTable.Proofs.WholeWord
import AskTable.Question.Subject

/-! How a place is read. It goes on over whole words up to one that leads on from it, or to the end of the text, and is
taken as it stands there unless its first word says no more than that it is a place. -/
namespace AskTable
namespace Question

open Pattern (Spells)
open Text (continued)

def nextWords : List Text :=
  ["in", "at", "on", "during", "for", "from", "since", "between", "with"]

def placeClosing : Pattern :=
  .alt (.gap >> .anyWord nextWords >> .edge) (.alt (.one fun c => ['?', '.', '!', ',', ';'].elem c) .finish)

def placeOpening : Pattern :=
  .edge >> .anyWord ["at", "in", "for", "from"] >> .gap

theorem placeAt_eq (a : Cursor) : placeAt a =
    Pattern.partAt? placeOpening (.one (· != '\n') >> .least (· != '\n')) (.before placeClosing) a := rfl

/-- The words in front of a place that say no more than that it is one. -/
def leadWords : List Text :=
  ["the", "location", "site", "address"]

def leading : Pattern :=
  .start >> .anyWord leadWords >> .gap

theorem trimPlace_eq (t : Text) : trimPlace t =
    Text.trim (fun c => c == ' ' || c == '\'' || c == '"') (Text.replace leading [] t.strip) := rfl

private theorem isLower_of_mem_nextWords : ∀ t ∈ nextWords, t ≠ [] ∧ t.all Char.isLower = true := by
  decide

private theorem isLower_of_mem_leadWords : ∀ t ∈ leadWords, t.all Char.isLower = true := by
  decide

variable {first w : Text} {ws front back : List Text}

section Closing

private theorem ends_placeClosing_letter {c : Char} (hc : isLetterOrDigit c = true) (before rest : Text) :
    placeClosing.ends ⟨before, c :: rest⟩ = [] := by
  have hsign : c ∉ ['?', '.', '!', ',', ';'] := by
    have hnone : ['?', '.', '!', ',', ';'].any isLetterOrDigit = false := by decide
    exact fun hmem => List.any_eq_false.mp hnone c hmem hc
  refine List.eq_nil_iff_forall_not_mem.mpr fun b hb => ?_
  rcases List.mem_append.mp hb with hb | hb
  · obtain ⟨m, hm, -⟩ := Pattern.mem_ends_seq_iff.mp hb
    obtain ⟨d, more, hafter, hd⟩ := Pattern.mem_ends_gap hm
    obtain ⟨rfl, -⟩ := List.cons.inj hafter
    rw [Text.isBlankChar_of_isLetterOrDigit hc] at hd
    cases hd
  · rcases List.mem_append.mp hb with hb | hb
    · obtain ⟨d, more, hafter, hd, -⟩ := Pattern.mem_ends_one_iff.mp hb
      obtain ⟨rfl, -⟩ := List.cons.inj hafter
      rw [List.elem_eq_mem, decide_eq_true_eq] at hd
      exact hsign hd
    · obtain ⟨hstop, -⟩ := Pattern.mem_ends_finish_iff.mp hb
      obtain ⟨rfl, -⟩ := List.cons.inj (hstop.resolve_left (List.cons_ne_nil c rest))
      exact absurd hc (by decide)

/-- Before a further word a place ends exactly if the word leads on from it. -/
theorem ends_placeClosing_word (hw : w.IsWord) (before : Text) (later : List Text) :
    placeClosing.ends ⟨before, ' ' :: (w ++ continued later)⟩ ≠ [] ↔ ∃ t ∈ nextWords, Spells w t := by
  have hgap : (Pattern.gap >> .anyWord nextWords >> .edge).ends ⟨before, ' ' :: (w ++ continued later)⟩ =
      (Pattern.seq (.anyWord nextWords) .edge).ends ⟨' ' :: before, w ++ continued later⟩ := by
    change (Pattern.gap.ends _).flatMap (Pattern.seq (.anyWord nextWords) .edge).ends = _
    rw [Pattern.ends_gap (hw.head?_append _), List.flatMap_singleton]
  have hsign : (Pattern.alt (.one fun c => ['?', '.', '!', ',', ';'].elem c) .finish).ends
      ⟨before, ' ' :: (w ++ continued later)⟩ = [] := by
    refine List.eq_nil_iff_forall_not_mem.mpr fun b hb => ?_
    rcases List.mem_append.mp hb with hb | hb
    · obtain ⟨d, more, hafter, hd, -⟩ := Pattern.mem_ends_one_iff.mp hb
      obtain ⟨rfl, -⟩ := List.cons.inj hafter
      exact absurd hd (by decide)
    · obtain ⟨hstop, -⟩ := Pattern.mem_ends_finish_iff.mp hb
      simp at hstop
  have hends : placeClosing.ends ⟨before, ' ' :: (w ++ continued later)⟩ =
      (Pattern.seq (.anyWord nextWords) .edge).ends ⟨' ' :: before, w ++ continued later⟩ ++ [] := by
    rw [← hgap, ← hsign]
    rfl
  rw [hends, List.append_nil]
  exact Pattern.exists_ends_anyWord_edge_iff isLower_of_mem_nextWords hw.isWordChar (Text.head?_continued later) _

/-- Words behind a place: none, or first one that leads on from the place. -/
def Leaves (ws : List Text) : Prop :=
  ws = [] ∨ ∃ w later, ws = w :: later ∧ ∃ t ∈ nextWords, Spells w t

private theorem exists_leaves (ws : List Text) : ∃ front back, ws = front ++ back ∧
    (∀ w ∈ front, ∀ t ∈ nextWords, ¬ Spells w t) ∧ Leaves back := by
  induction ws with
  | nil => exact ⟨[], [], rfl, by simp, .inl rfl⟩
  | cons w ws ih =>
    by_cases hspells : ∃ t ∈ nextWords, Spells w t
    · exact ⟨[], w :: ws, rfl, by simp, .inr ⟨w, ws, rfl, hspells⟩⟩
    · obtain ⟨front, back, rfl, hongoing, hleaves⟩ := ih
      refine ⟨w :: front, back, rfl, List.forall_mem_cons.mpr ⟨?_, hongoing⟩, hleaves⟩
      exact fun t ht hw => hspells ⟨t, ht, hw⟩

private theorem end?_before_placeClosing (hback : ∀ w ∈ back, w.IsWord) (hleaves : Leaves back) (before : Text) :
    (Pattern.before placeClosing).end? ⟨before, continued back⟩ = some ⟨before, continued back⟩ := by
  have hends : placeClosing.ends ⟨before, continued back⟩ ≠ [] := by
    rcases hleaves with rfl | ⟨w, later, rfl, hspells⟩
    · simp [placeClosing, Pattern.ends]
    · exact (ends_placeClosing_word (hback w List.mem_cons_self) before later).mpr hspells
  simp [Pattern.end?, Pattern.ends, hends]

private theorem end?_before_placeClosing_eq_none {before u v : Text} (hfirst : first.IsWord)
    (hfront : ∀ w ∈ front, w.IsWord)
    (hongoing : ∀ w ∈ front, ∀ t ∈ nextWords, ¬ Spells w t) (h : first ++ continued front = u ++ v) (hv : v ≠ []) :
    (Pattern.before placeClosing).end? ⟨before, v ++ continued back⟩ = none := by
  have hends : placeClosing.ends ⟨before, v ++ continued back⟩ = [] := by
    rcases Text.continued_cases hfirst hfront h hv with ⟨c, rest, rfl, hc⟩ | ⟨passed, next, later, rfl, rfl⟩
    · exact ends_placeClosing_letter hc _ _
    · by_contra hends
      have hlater : ' ' :: (next ++ continued later) ++ continued back =
          ' ' :: (next ++ continued (later ++ back)) := by
        simp
      rw [hlater] at hends
      obtain ⟨t, ht, hspells⟩ := (ends_placeClosing_word (hfront next (by simp)) before _).mp hends
      exact hongoing next (by simp) t ht hspells
  simp [Pattern.end?, Pattern.ends, hends]

end Closing

section Reading

theorem ends_placeOpening (hfirst : first.IsWord) (rest : Text) :
    placeOpening.ends ⟨[], "at ".toList ++ (first ++ rest)⟩ = [⟨"at ".toList.reverse, first ++ rest⟩] := by
  have hgap : Pattern.gap.ends ⟨['t', 'a'], ' ' :: (first ++ rest)⟩ = [⟨[' ', 't', 'a'], first ++ rest⟩] :=
    Pattern.ends_gap (hfirst.head?_append rest)
  have hword : (Pattern.anyWord ["at", "in", "for", "from"]).ends ⟨[], "at ".toList ++ (first ++ rest)⟩ =
      [⟨['t', 'a'], ' ' :: (first ++ rest)⟩] := rfl
  have hedge : Pattern.edge.ends ⟨[], "at ".toList ++ (first ++ rest)⟩ = [⟨[], "at ".toList ++ (first ++ rest)⟩] := rfl
  change (Pattern.edge.ends _).flatMap (fun m => ((Pattern.anyWord ["at", "in", "for", "from"]).ends m).flatMap
    Pattern.gap.ends) = _
  rw [hedge, List.flatMap_singleton, hword, List.flatMap_singleton, hgap]
  rfl

/-- A place goes on to the word that leads on from it, or to the end. -/
theorem placeAt_words (hfirst : first.IsWord) (hfront : ∀ w ∈ front, w.IsWord) (hback : ∀ w ∈ back, w.IsWord)
    (hongoing : ∀ w ∈ front, ∀ t ∈ nextWords, ¬ Spells w t) (hleaves : Leaves back) :
    ∃ n, placeAt ⟨[], "at ".toList ++ (first ++ continued (front ++ back))⟩ = some (first ++ continued front, n) := by
  have hopening := ends_placeOpening hfirst (continued (front ++ back))
  have hline : ∀ d ∈ first ++ continued front, (d != '\n') = true := by
    intro d hd
    rw [bne_iff_ne]
    rintro rfl
    rcases Text.isLetterOrDigit_or_of_mem hfirst hfront hd with hd | hd <;> exact absurd hd (by decide)
  have hnone {u v before : Text} (h : first ++ continued front = u ++ v) (hv : v ≠ []) :
      (Pattern.before placeClosing).end? ⟨before, v ++ continued back⟩ = none := by
    exact end?_before_placeClosing_eq_none hfirst hfront hongoing h hv
  obtain ⟨c, u, rfl⟩ := List.exists_cons_of_ne_nil hfirst.ne_nil
  obtain ⟨hc, hline⟩ := List.forall_mem_cons.mp hline
  let a : Cursor := ⟨[], "at ".toList ++ (c :: u ++ continued (front ++ back))⟩
  let b : Cursor := ⟨"at ".toList.reverse, c :: u ++ continued (front ++ back)⟩
  let last : Cursor := ⟨(u ++ continued front).reverse ++ c :: "at ".toList.reverse, continued back⟩
  let read (m : Cursor) : Option (Text × Nat) :=
    ((Pattern.before placeClosing).end? m).map fun d => (b.textTo m, a.distance d)
  have hmiddle : (Pattern.seq (.one (· != '\n')) (.least (· != '\n'))).ends b =
      Cursor.overRun (· != '\n') (c :: "at ".toList.reverse) (u ++ continued front ++ continued back) := by
    have hone : (Pattern.one (· != '\n')).ends b = [⟨c :: "at ".toList.reverse, u ++ continued (front ++ back)⟩] := by
      simp only [b, List.cons_append, Pattern.ends, hc, if_true]
    change ((Pattern.one (· != '\n')).ends b).flatMap (Pattern.least (· != '\n')).ends = _
    rw [hone, List.flatMap_singleton, Text.continued_append, ← List.append_assoc]
    rfl
  have hfound : read last = some (c :: u ++ continued front, a.distance last) := by
    have hend : (Pattern.before placeClosing).end? last = some last := end?_before_placeClosing hback hleaves _
    have htext : b.textTo last = c :: u ++ continued front := Cursor.textTo_eq (by simp [last, b])
    simp only [read, hend, Option.map_some, htext]
  -- The shortest run of characters is taken behind which the place can end.
  have hrun : (Cursor.overRun (· != '\n') (c :: "at ".toList.reverse)
      (u ++ continued front ++ continued back)).findSome? read = some (c :: u ++ continued front, a.distance last) := by
    refine Pattern.findSome?_overRun _ hline (fun x y hxy hy => ?_) hfound
    have hwhole : c :: u ++ continued front = (c :: x) ++ y := by simp [← hxy]
    simp only [read, hnone hwhole hy, Option.map_none]
  refine ⟨a.distance last, ?_⟩
  rw [placeAt_eq, Pattern.partAt?, hopening, List.findSome?_singleton]
  exact (congrArg (List.findSome? read) hmiddle).trans hrun

theorem length_of_placeAt {a : Cursor} {part : Text} {n : Nat} (h : placeAt a = some (part, n)) :
    3 + part.length ≤ a.after.length :=
  Pattern.length_of_partAt? h

/-- The first place behind "at" goes on to the word that leads on from it, and all later ones are shorter than
what stands there. -/
theorem exists_phrases (hfirst : first.IsWord) (hfront : ∀ w ∈ front, w.IsWord) (hback : ∀ w ∈ back, w.IsWord)
    (hongoing : ∀ w ∈ front, ∀ t ∈ nextWords, ¬ Spells w t) (hleaves : Leaves back) :
    ∃ later, Text.phrases placeAt ("at ".toList ++ (first ++ continued (front ++ back))) =
        (first ++ continued front) :: later ∧
      ∀ part ∈ later, part.length < (first ++ continued (front ++ back)).length := by
  obtain ⟨n, hn⟩ := placeAt_words hfirst hfront hback hongoing hleaves
  refine ⟨(Text.piecesFrom placeAt (n - 1) ['a'] ("t ".toList ++ (first ++ continued (front ++ back)))).filterMap
    Sum.getRight?, ?_, fun part hpart => ?_⟩
  · have hpieces := Text.piecesFrom_of_some hn
    exact congrArg (List.filterMap Sum.getRight?) hpieces
  · have hlength := Text.length_le_of_mem_phrases (fun _ _ _ => length_of_placeAt) hpart
    rw [List.length_append] at hlength
    change 3 + part.length ≤ 2 + (first ++ continued (front ++ back)).length at hlength
    omega

end Reading

section Trimming

theorem length_trim_le (cut : Char → Bool) (t : Text) : (Text.trim cut t).length ≤ t.length := by
  rw [Text.trim_eq_rdropWhile]
  exact (List.rdropWhile_prefix _ _).length_le.trans (List.dropWhile_suffix _).length_le

theorem length_trimPlace_le (t : Text) : (trimPlace t).length ≤ t.length := by
  have hlong : ([] : Text).length < leading.shortest := by decide
  have hreplace := Text.length_filledFrom_le hlong (Nat.zero_le t.strip.length) []
  rw [trimPlace_eq]
  exact (length_trim_le _ _).trans (hreplace.trans (length_trim_le _ _))

theorem length_le_of_find?_phrases {t place : Text}
    (h : ((Text.phrases placeAt ("at ".toList ++ t)).map trimPlace).find? isPlace = some place) :
    place.length ≤ t.length := by
  obtain ⟨part, hpart, rfl⟩ := List.mem_map.mp (List.mem_of_find?_eq_some h)
  have hphrase : 3 + part.length ≤ ("at ".toList ++ t).length :=
    Text.length_le_of_mem_phrases (fun _ _ _ => length_of_placeAt) hpart
  have htrim := length_trimPlace_le part
  rw [List.length_append] at hphrase
  change 3 + part.length ≤ 3 + t.length at hphrase
  omega

theorem occursIn_leading_iff (hfirst : first.IsWord) (hws : ∀ w ∈ ws, w.IsWord) :
    leading.occursIn (first ++ continued ws) = true ↔ ws ≠ [] ∧ ∃ t ∈ leadWords, Spells first t := by
  have hstop := Text.head?_continued ws
  constructor
  · intro h
    obtain ⟨u, v, b, heq, hb⟩ := Pattern.occursIn_iff.mp h
    obtain ⟨m, hm, hb⟩ := Pattern.mem_ends_seq_iff.mp hb
    obtain ⟨n, hn, hb⟩ := Pattern.mem_ends_seq_iff.mp hb
    obtain ⟨c, rest, hafter, hc⟩ := Pattern.mem_ends_gap hb
    obtain ⟨hbegin, rfl⟩ := Pattern.mem_ends_start_iff.mp hm
    obtain rfl : u = [] := by simpa using hbegin
    obtain rfl : first ++ continued ws = v := heq
    have hnone : n.after.head?.any isWordChar = false := by
      rw [hafter]
      exact isWordChar_of_isBlankChar hc
    obtain ⟨hspells, rfl⟩ := (Pattern.mem_ends_anyWord_iff isLower_of_mem_leadWords hfirst.isWordChar hstop hnone).mp hn
    refine ⟨?_, hspells⟩
    rintro rfl
    cases hafter
  · rintro ⟨hne, hspells⟩
    obtain ⟨next, later, rfl⟩ := List.exists_cons_of_ne_nil hne
    have hgap : Pattern.gap.ends ⟨first.reverse, ' ' :: (next ++ continued later)⟩ =
        [⟨' ' :: first.reverse, next ++ continued later⟩] :=
      Pattern.ends_gap ((hws next List.mem_cons_self).head?_append (continued later))
    have hword : ⟨first.reverse ++ [], continued (next :: later)⟩ ∈
        (Pattern.anyWord leadWords).ends ⟨[], first ++ continued (next :: later)⟩ :=
      (Pattern.mem_ends_anyWord_iff isLower_of_mem_leadWords hfirst.isWordChar hstop hstop).mpr ⟨hspells, rfl⟩
    rw [List.append_nil] at hword
    have hend : ⟨' ' :: first.reverse, next ++ continued later⟩ ∈
        leading.ends ⟨[], first ++ continued (next :: later)⟩ := by
      refine Pattern.mem_ends_seq_iff.mpr ⟨_, Pattern.mem_ends_start_iff.mpr ⟨rfl, rfl⟩, ?_⟩
      refine Pattern.mem_ends_seq_iff.mpr ⟨_, hword, ?_⟩
      rw [Text.continued_cons, hgap]
      exact List.mem_singleton_self _
    exact Pattern.occursIn_of_mem_ends (u := []) hend

/-- A place is taken as it stands unless it goes on behind a first word that is left out. -/
theorem trimPlace_eq_self_iff (hfirst : first.IsWord) (hws : ∀ w ∈ ws, w.IsWord) :
    trimPlace (first ++ continued ws) = first ++ continued ws ↔ (ws ≠ [] → ∀ t ∈ leadWords, ¬ Spells first t) := by
  have hoccurs := occursIn_leading_iff hfirst hws
  obtain ⟨⟨c, rest, hfront, hc⟩, back, d, hback, hd⟩ := Text.exists_ends_of_words hfirst hws
  have hstrip : (first ++ continued ws).strip = first ++ continued ws :=
    Text.strip_of_ends ⟨c, rest, hfront, Text.isBlankChar_of_isLetterOrDigit hc⟩
      ⟨back, d, hback, Text.isBlankChar_of_isLetterOrDigit hd⟩
  rw [trimPlace_eq, hstrip]
  cases hleading : leading.occursIn (first ++ continued ws) with
  | true =>
    obtain ⟨hne, t, ht, hspells⟩ := hoccurs.mp hleading
    have hshorter : (Text.replace leading [] (first ++ continued ws)).length < (first ++ continued ws).length :=
      Text.length_replace_lt (by decide) hleading
    refine iff_of_false (fun heq => ?_) fun hnone => hnone hne t ht hspells
    have hlength := (congrArg List.length heq).symm.trans_le (length_trim_le _ _)
    omega
  | false =>
    refine iff_of_true ?_ fun hne t ht hspells => ?_
    · have hkept {c : Char} (hc : isLetterOrDigit c = true) : (c == ' ' || c == '\'' || c == '"') = false := by
        by_contra hcut
        simp only [Bool.not_eq_false, Bool.or_eq_true, beq_iff_eq] at hcut
        rcases hcut with (rfl | rfl) | rfl <;> exact absurd hc (by decide)
      rw [Text.replace_eq_self hleading]
      exact Text.trim_of_ends ⟨c, rest, hfront, hkept hc⟩ ⟨back, d, hback, hkept hd⟩
    · rw [hoccurs.mpr ⟨hne, t, ht, hspells⟩] at hleading
      cases hleading

end Trimming

/-- Of all that is read behind "at", the first place is the one that can be the whole of what stands there. It
is, exactly if no word behind the first leads on from a place, and the first is not one that is left out
before others. -/
theorem find?_phrases_eq_self_iff (hfirst : first.IsWord) (hws : ∀ w ∈ ws, w.IsWord)
    (hplace : isPlace (first ++ continued ws) = true) :
    ((Text.phrases placeAt ("at ".toList ++ (first ++ continued ws))).map trimPlace).find? isPlace =
        some (first ++ continued ws) ↔
      (∀ w ∈ ws, ∀ t ∈ nextWords, ¬ Spells w t) ∧ (ws ≠ [] → ∀ t ∈ leadWords, ¬ Spells first t) := by
  obtain ⟨front, back, rfl, hongoing, hleaves⟩ := exists_leaves ws
  obtain ⟨hfront, hback⟩ := List.forall_mem_append.mp hws
  obtain ⟨later, hphrases, hlater⟩ := exists_phrases hfirst hfront hback hongoing hleaves
  rw [hphrases, List.map_cons]
  constructor
  · intro hfound
    have htrim : trimPlace (first ++ continued front) = first ++ continued (front ++ back) := by
      rcases List.mem_cons.mp (List.mem_of_find?_eq_some hfound) with heq | hmem
      · exact heq.symm
      · obtain ⟨part, hpart, heq⟩ := List.mem_map.mp hmem
        have hle := length_trimPlace_le part
        rw [heq] at hle
        exact absurd (hlater part hpart) (Nat.not_lt.mpr hle)
    obtain rfl : back = [] := by
      by_contra hne
      obtain ⟨w, rest, rfl⟩ := List.exists_cons_of_ne_nil hne
      have hle := length_trimPlace_le (first ++ continued front)
      rw [htrim, Text.continued_append, Text.continued_cons] at hle
      simp only [List.length_append, List.length_cons] at hle
      omega
    rw [List.append_nil] at htrim ⊢
    exact ⟨hongoing, (trimPlace_eq_self_iff hfirst hfront).mp htrim⟩
  · rintro ⟨hall, hlead⟩
    obtain rfl : back = [] := by
      rcases hleaves with rfl | ⟨w, rest, rfl, t, ht, hspells⟩
      · rfl
      · exact absurd hspells (hall w (by simp) t ht)
    rw [List.append_nil] at hplace hlead ⊢
    rw [(trimPlace_eq_self_iff hfirst hfront).mpr hlead, List.find?_cons_of_pos hplace]

end Question
end AskTable
