import AskTable.Proofs.Feasible
import AskTable.Proofs.Neighbours

/-! Finding a cell by a piece of its text. Both the piece and the cell are read in small form, each by itself, so a
piece as it stands in the cell is found unless a capital sigma at one of its ends has another form in the cell. -/
namespace AskTable

namespace Text

variable {before t u w after silent : Text} {c : Char}

theorem not_closesWord_of_eq_false (h : meetsCased before = false) : ¬ ClosesWord before t after := by
  rintro ⟨-, -, -, -, hcased, -⟩
  rw [h] at hcased
  cases hcased

theorem not_leavesWord_of_eq_false (h : meetsCased after = false) : ¬ LeavesWord t after := by
  rintro ⟨-, -, -, -, -, hcased⟩
  rw [h] at hcased
  cases hcased

theorem meetsCased_append_of_isBlank (h : t.isBlank = true) (hne : t ≠ []) (u : Text) :
    meetsCased (t ++ u) = false := by
  obtain ⟨c, rest, rfl⟩ := List.exists_cons_of_ne_nil hne
  exact meetsCased_cons_of_isBlankChar (List.all_eq_true.mp h c List.mem_cons_self) _

private theorem meetsCased_of_isBlank (h : t.isBlank = true) : meetsCased t = false := by
  rcases eq_or_ne t [] with rfl | hne
  · rfl
  · simpa using meetsCased_append_of_isBlank h hne []

theorem isBlank_reverse (t : Text) : isBlank t.reverse = t.isBlank :=
  List.all_reverse

/-- The characters from a sigma to the end of the text are no blanks, where those behind it are silent. -/
theorem isBlankChar_of_mem_sigma_cons (h : silent.all isCaseSilent = true) (hc : c ∈ 'Σ' :: silent) :
    isBlankChar c = false := by
  by_contra hblank
  rcases List.mem_cons.mp hc with rfl | hc
  · exact hblank (by decide)
  · have hsilent := List.all_eq_true.mp h c hc
    rw [(isCaseSilent_of_isBlankChar (eq_true_of_ne_false hblank)).1] at hsilent
    cases hsilent

/-- Blanks at the end of a text may as well stand behind it: a sigma before a blank closes its word. -/
theorem leavesWord_append_iff (h : u.isBlank = true) : LeavesWord (t ++ u) after ↔ LeavesWord t (u ++ after) := by
  rcases List.eq_nil_or_concat' u with rfl | ⟨x, c, rfl⟩
  · simp
  · refine iff_of_false ?_ (not_leavesWord_of_eq_false (meetsCased_append_of_isBlank h (by simp) after))
    rintro ⟨front, silent, heq, hsilent, -⟩
    have hlast : ('Σ' :: silent).getLast? = some c := by
      have hends := congrArg List.getLast? heq
      simpa using hends.symm
    have hc := isBlankChar_of_mem_sigma_cons hsilent (List.mem_of_getLast? hlast)
    rw [List.all_eq_true.mp h c (by simp)] at hc
    cases hc

/-- Blanks at the front of a text may as well stand before it. -/
theorem closesWord_append_iff (h : u.isBlank = true) :
    ClosesWord before (u ++ t) after ↔ ClosesWord (u.reverse ++ before) t after := by
  cases u with
  | nil => rfl
  | cons c x =>
    have hbefore : meetsCased ((c :: x).reverse ++ before) = false :=
      meetsCased_append_of_isBlank (by rwa [isBlank_reverse]) (by simp) before
    refine iff_of_false ?_ (not_closesWord_of_eq_false hbefore)
    rintro ⟨silent, rest, heq, hsilent, -⟩
    have hfirst : c ∈ 'Σ' :: silent := by
      cases silent with
      | nil => exact (List.cons.inj heq).1 ▸ List.mem_cons_self
      | cons d silent => exact (List.cons.inj heq).1 ▸ List.mem_cons_of_mem _ List.mem_cons_self
    have hc := isBlankChar_of_mem_sigma_cons hsilent hfirst
    rw [List.all_eq_true.mp h c List.mem_cons_self] at hc
    cases hc

/-- The small form of a text stands in that of a longer one, where the text has its own small form there. -/
theorem lower_infix (hcloses : ¬ ClosesWord before.reverse t after) (hleaves : ¬ LeavesWord t after) :
    t.lower <:+: (before ++ t ++ after).lower := by
  have hsame := lowerBetween_eq_lower_iff.mpr ⟨hcloses, hleaves⟩
  refine ⟨lowerBetween [] before (t ++ after), lowerAfter (t.reverse ++ before.reverse) after, ?_⟩
  rw [← hsame, List.append_assoc before, lower, lowerAfter_append, lowerAfter_append, List.append_nil,
    List.append_assoc]

/-- What is left of a text between the blanks at its ends has its own small form there. -/
theorem lower_strip_infix (t : Text) : t.strip.lower <:+: t.lower := by
  obtain ⟨lead, trail, heq, hlead, htrail⟩ := t.exists_blank_ends
  have hbefore : meetsCased lead.reverse = false := meetsCased_of_isBlank (by rwa [isBlank_reverse])
  have hinside : t.strip.lower <:+: (lead ++ t.strip ++ trail).lower :=
    lower_infix (not_closesWord_of_eq_false hbefore)
      (not_leavesWord_of_eq_false (meetsCased_of_isBlank htrail))
  rwa [← heq] at hinside

theorem length_lowerBetween_eq_lower (before t after : Text) :
    (lowerBetween before t after).length = t.lower.length := by
  rw [lower, ← lowerBetween_nil, length_lowerBetween before t after [] []]

theorem lower_prefix_iff : t.lower <+: (t ++ after).lower ↔ ¬ LeavesWord t after := by
  have hsplit : (t ++ after).lower = lowerBetween [] t after ++ lowerAfter (t.reverse ++ []) after :=
    lowerAfter_append [] t after
  rw [hsplit, List.prefix_iff_eq_take, List.take_left' (length_lowerBetween_eq_lower [] t after), eq_comm,
    lowerBetween_eq_lower_iff, and_iff_right (not_closesWord_of_eq_false rfl)]

theorem lower_suffix_iff : t.lower <:+ (before ++ t).lower ↔ ¬ ClosesWord before.reverse t [] := by
  have hsplit : (before ++ t).lower = lowerBetween [] before t ++ lowerBetween before.reverse t [] := by
    rw [lower, lowerAfter_append, List.append_nil, lowerBetween_nil]
  have hlength := length_lowerBetween_eq_lower before.reverse t []
  rw [hsplit, List.suffix_iff_eq_drop, List.length_append, hlength, Nat.add_sub_cancel, List.drop_left, eq_comm,
    lowerBetween_eq_lower_iff, and_iff_left (not_leavesWord_of_eq_false rfl)]

/-- The front of a trimmed text is found in small form, unless it leaves a word open at its end. -/
theorem lower_strip_prefix_iff (h : (w ++ after).strip = w ++ after) :
    w.strip.lower <+: (w ++ after).lower ↔ ¬ LeavesWord w after := by
  obtain ⟨lead, trail, heq, hlead, htrail⟩ := w.exists_blank_ends
  have hfront : lead <+: w ++ after := by
    rw [heq, List.append_assoc, List.append_assoc]
    exact List.prefix_append lead _
  obtain rfl := eq_nil_of_isBlank_prefix h hlead hfront
  rw [List.nil_append] at heq
  have hwhole : w ++ after = w.strip ++ (trail ++ after) := by rw [← List.append_assoc, ← heq]
  have hleaves : LeavesWord (w.strip ++ trail) after ↔ LeavesWord w.strip (trail ++ after) :=
    leavesWord_append_iff htrail
  rw [← heq] at hleaves
  rw [hwhole, lower_prefix_iff, hleaves]

/-- The end of a trimmed text is found in small form, unless it closes a word that begins before it. -/
theorem lower_strip_suffix_iff (h : (before ++ w).strip = before ++ w) :
    w.strip.lower <:+ (before ++ w).lower ↔ ¬ ClosesWord before.reverse w [] := by
  obtain ⟨lead, trail, heq, hlead, htrail⟩ := w.exists_blank_ends
  have hback : trail <:+ before ++ w := by
    rw [heq, ← List.append_assoc]
    exact List.suffix_append _ trail
  obtain rfl := eq_nil_of_isBlank_suffix h htrail hback
  rw [List.append_nil] at heq
  have hwhole : before ++ w = (before ++ lead) ++ w.strip := by rw [List.append_assoc, ← heq]
  have hcloses : ClosesWord before.reverse (lead ++ w.strip) [] ↔
      ClosesWord (lead.reverse ++ before.reverse) w.strip [] := closesWord_append_iff hlead
  rw [← heq] at hcloses
  rw [hwhole, lower_suffix_iff, hcloses, List.reverse_append]

end Text

open Text (ClosesWord LeavesWord)

namespace Record

variable {columns : List Text} {r : Record} {column t : Text}

/-- The texts that a field is searched by beside its own: the written date in a column of dates. -/
def furtherTexts (columns : List Text) (r : Record) (field : Text) : List Text :=
  (r.textsAt columns field).tail

/-- A condition on texts is decided by the small forms of the field's own text and of the further ones. -/
theorem admits_textCondition (columns : List Text) (r : Record) (column w : Text) {operator : Operator}
    (h : operator ∈ [Operator.contains, .equals, .startsWith, .endsWith]) :
    (Condition.toFilter ⟨column, operator, .text w⟩).admits columns r =
      .ok (((r.get column).cellText.lower :: r.furtherTexts columns column).any fun u =>
        Condition.compareTexts operator u w.strip.lower) := by
  rw [Condition.admits_toFilter, furtherTexts, ← textsAt_eq_cons, ← Value.cellText_text]
  simp only [List.mem_cons, List.not_mem_nil, or_false] at h
  rcases h with rfl | rfl | rfl | rfl <;> rfl

/-- A record is found by the whole text of a cell. It is found by a piece of the text that stands at its front, or at
its end, unless a capital sigma at the other end of the piece has another form in the cell; and by a piece that stands
anywhere, if no capital sigma at either end has. -/
theorem found_by_piece_iff (ht : (r.get column).cellText = t) (w : Text) :
    (Condition.toFilter ⟨column, .equals, .text t⟩).admits columns r = .ok true ∧
    (∀ after, t = w ++ after → ∃ found,
      (Condition.toFilter ⟨column, .startsWith, .text w⟩).admits columns r = .ok found ∧
        (found = true ↔ ¬ LeavesWord w after ∨ ∃ u ∈ r.furtherTexts columns column, w.strip.lower <+: u)) ∧
    (∀ before, t = before ++ w → ∃ found,
      (Condition.toFilter ⟨column, .endsWith, .text w⟩).admits columns r = .ok found ∧
        (found = true ↔ ¬ ClosesWord before.reverse w [] ∨
          ∃ u ∈ r.furtherTexts columns column, w.strip.lower <:+ u)) ∧
    ∃ found, (Condition.toFilter ⟨column, .contains, .text w⟩).admits columns r = .ok found ∧
      (found = true ↔ w.strip.lower <:+: t.lower ∨ ∃ u ∈ r.furtherTexts columns column, w.strip.lower <:+: u) ∧
      ∀ before after, t = before ++ w ++ after →
        ¬ ClosesWord before.reverse w after → ¬ LeavesWord w after → found = true := by
  have hstrip : t.strip = t := by rw [← ht, Value.strip_cellText]
  refine ⟨?_, fun after heq => ⟨_, admits_textCondition columns r column w (by decide), ?_⟩,
    fun before heq => ⟨_, admits_textCondition columns r column w (by decide), ?_⟩,
    _, admits_textCondition columns r column w (by decide), ?_, fun before after heq hcloses hleaves => ?_⟩
  · rw [admits_textCondition columns r column t (by decide), hstrip, ht]
    simp [Condition.compareTexts]
  · subst heq
    simp [ht, Condition.compareTexts, Text.startsWith_eq_true_iff, Text.lower_strip_prefix_iff hstrip]
  · subst heq
    simp [ht, Condition.compareTexts, Text.endsWith_eq_true_iff, Text.lower_strip_suffix_iff hstrip]
  · simp [ht, Condition.compareTexts, Text.contains_eq_true_iff]
  · have hinside : w.strip.lower <:+: t.lower := by
      rw [heq]
      exact (Text.lower_strip_infix w).trans (Text.lower_infix hcloses hleaves)
    simp [ht, Condition.compareTexts, Text.contains_eq_true_iff, hinside]

def parosStreet : Record := [("Place", .text "ΟΔΟΣ ΠΑΡΟΣ")]

theorem found_by_piece_parosStreet :
    (parosStreet.get "Place").cellText = "ΟΔΟΣ ΠΑΡΟΣ" ∧
    (Condition.toFilter ⟨"Place", .equals, .text "ΟΔΟΣ ΠΑΡΟΣ"⟩).admits ["Place"] parosStreet = .ok true ∧
    (Condition.toFilter ⟨"Place", .startsWith, .text "ΟΔΟΣ"⟩).admits ["Place"] parosStreet = .ok true ∧
    (Condition.toFilter ⟨"Place", .endsWith, .text "ΠΑΡΟΣ"⟩).admits ["Place"] parosStreet = .ok true ∧
    (Condition.toFilter ⟨"Place", .contains, .text "ΠΑΡΟΣ"⟩).admits ["Place"] parosStreet = .ok true := by
  have hcell : (parosStreet.get "Place").cellText = ("ΟΔΟΣ ΠΑΡΟΣ" : Text) := by decide +kernel
  have hsplit : ("ΟΔΟΣ ΠΑΡΟΣ" : Text) = ("ΟΔΟΣ" : Text) ++ (" ΠΑΡΟΣ" : Text) ∧
      ("ΟΔΟΣ ΠΑΡΟΣ" : Text) = ("ΟΔΟΣ " : Text) ++ ("ΠΑΡΟΣ" : Text) := by decide +kernel
  -- Before and after the blank between its words, no letter is met.
  have hafter : meetsCased " ΠΑΡΟΣ" = false := by decide +kernel
  have hbefore : meetsCased (List.reverse ("ΟΔΟΣ " : Text)) = false := by decide +kernel
  obtain ⟨hwhole, hfront, -⟩ := found_by_piece_iff (r := parosStreet) hcell "ΟΔΟΣ"
  obtain ⟨-, -, hback, inside, hinside, -, hanywhere⟩ := found_by_piece_iff (r := parosStreet) hcell "ΠΑΡΟΣ"
  obtain ⟨front, hstarts, hstart⟩ := hfront " ΠΑΡΟΣ" hsplit.1
  obtain ⟨back, hends, hend⟩ := hback "ΟΔΟΣ " hsplit.2
  have hcloses (after : Text) : ¬ ClosesWord (List.reverse ("ΟΔΟΣ " : Text)) "ΠΑΡΟΣ" after :=
    Text.not_closesWord_of_eq_false hbefore
  refine ⟨hcell, hwhole, ?_, ?_, ?_⟩
  · rw [hstarts, hstart.mpr (.inl (Text.not_leavesWord_of_eq_false hafter))]
  · rw [hends, hend.mpr (.inl (hcloses []))]
  · rw [hinside, hanywhere "ΟΔΟΣ " [] (by rw [List.append_nil, hsplit.2]) (hcloses [])
      (Text.not_leavesWord_of_eq_false rfl)]

/-- A place that has a sigma within its name and is looked for by the front of the name. -/
def harbours : Dataset where
  header := ["Place"]
  rows := [.list ["ΜΕΣΟΛΟΓΓΙ"]]
  name := []

/-- The sigma at the end of the front has its final form there, and not within the name. -/
theorem harbour_not_found : ∃ s r, Snapshot.build harbours = .ok s ∧ s.records = [r] ∧
    (r.get "Place").cellText = "ΜΕΣΟΛΟΓΓΙ" ∧ ("ΜΕΣ" : Text) <+: ("ΜΕΣΟΛΟΓΓΙ" : Text) ∧
    (Condition.toFilter ⟨"Place", .startsWith, .text "ΜΕΣ"⟩).admits s.columns r = .ok false := by
  have hrun : (Snapshot.build harbours).map (fun s => s.records.map fun r =>
      ((r.get "Place").cellText,
        (Condition.toFilter ⟨"Place", .startsWith, .text "ΜΕΣ"⟩).admits s.columns r)) =
        .ok [("ΜΕΣΟΛΟΓΓΙ", .ok false)] := by
    decide +kernel
  obtain ⟨s, hs, hanswers⟩ := map_eq_ok_iff.mp hrun
  obtain ⟨r, rest, hrecords, hr, hrest⟩ := List.map_eq_cons_iff.mp hanswers
  obtain rfl := List.map_eq_nil_iff.mp hrest
  obtain ⟨hcell, hfilter⟩ := Prod.mk.inj hr
  exact ⟨s, r, hs, hrecords, hcell, by decide, hfilter⟩

end Record
end AskTable
