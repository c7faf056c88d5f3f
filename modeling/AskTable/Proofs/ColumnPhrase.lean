import AskTable.Proofs.Sentence
import AskTable.Query.Search

/-! A phrase about a column in a text. It begins with the column's name and an operator phrase, and what it takes for
the value goes to the end of the sentence; the value alone ends before the word "and". -/
namespace AskTable

open Text (IsSolid marks)

namespace Pattern

variable {a b : Cursor} {before rest : Text}

theorem mem_ends_gap (h : b ∈ gap.ends a) : ∃ c rest, a.after = c :: rest ∧ isBlankChar c = true := by
  obtain ⟨m, hm, -⟩ := mem_ends_seq_iff.mp h
  obtain ⟨c, rest, hafter, hc, -⟩ := mem_ends_one_iff.mp hm
  exact ⟨c, rest, hafter, hc⟩

theorem mem_ends_space (h : b ∈ space.ends a) :
    ∃ blanks, a.after = blanks ++ b.after ∧ ∀ c ∈ blanks, isBlankChar c = true := by
  have hwithin : Within (isBlankChar · = true) space := within_most fun _ hc => hc
  obtain ⟨blanks, hafter, -, hblank⟩ := hwithin a b h
  exact ⟨blanks, hafter, hblank⟩

/-- A space that no blank follows is the whole gap. -/
theorem ends_gap (hrest : rest.head?.any isBlankChar = false) :
    gap.ends ⟨before, ' ' :: rest⟩ = [⟨' ' :: before, rest⟩] := by
  have hspace : isBlankChar ' ' = true := by decide
  have hone : (one isBlankChar).ends ⟨before, ' ' :: rest⟩ = [⟨' ' :: before, rest⟩] := by simp [ends, hspace]
  have hmost : (most isBlankChar).ends ⟨' ' :: before, rest⟩ = [⟨' ' :: before, rest⟩] := by
    cases rest with
    | nil => rfl
    | cons c rest =>
      have hc : isBlankChar c = false := by simpa using hrest
      simp [ends, Cursor.overRun, hc]
  change ((one isBlankChar).ends ⟨before, ' ' :: rest⟩).flatMap (most isBlankChar).ends = _
  rw [hone, List.flatMap_singleton, hmost]

/-- The places after blanks, the farthest first. -/
theorem ends_space_append {w : Text} (hw : ∀ d ∈ w, isBlankChar d = true) (hrest : rest.head?.any isBlankChar = false)
    (before : Text) :
    ∃ nearer, space.ends ⟨before, w ++ rest⟩ = ⟨w.reverse ++ before, rest⟩ :: nearer := by
  obtain ⟨shorter, hrun⟩ := overRun_append hw hrest before
  refine ⟨shorter.reverse, ?_⟩
  change (Cursor.overRun isBlankChar before (w ++ rest)).reverse = _
  rw [hrun]
  simp

/-- The first find over a run of characters, where there is none at the places before. -/
theorem findSome?_overRun {β : Type} {f : Cursor → Option β} {found : β} {test : Char → Bool} {w rest : Text} (before : Text)
    (hw : ∀ d ∈ w, test d = true)
    (h : ∀ u v, w = u ++ v → v ≠ [] → f ⟨u.reverse ++ before, v ++ rest⟩ = none)
    (hfound : f ⟨w.reverse ++ before, rest⟩ = some found) :
    (Cursor.overRun test before (w ++ rest)).findSome? f = some found := by
  induction w generalizing before with
  | nil =>
    have hfirst : f ⟨before, rest⟩ = some found := hfound
    cases rest with
    | nil => rw [List.nil_append, Cursor.overRun, List.findSome?_cons, hfirst]
    | cons d rest => rw [List.nil_append, Cursor.overRun, List.findSome?_cons, hfirst]
  | cons d w ih =>
    obtain ⟨hd, hw⟩ := List.forall_mem_cons.mp hw
    have hfirst : f ⟨before, d :: (w ++ rest)⟩ = none := h [] (d :: w) rfl (List.cons_ne_nil d w)
    have hlast : f ⟨w.reverse ++ d :: before, rest⟩ = some found := by
      rwa [List.reverse_cons, List.append_assoc] at hfound
    have hlater : (Cursor.overRun test (d :: before) (w ++ rest)).findSome? f = some found := by
      refine ih (d :: before) hw (fun u v huv hv => ?_) hlast
      have hstep := h (d :: u) v (by rw [huv, List.cons_append]) hv
      rwa [List.reverse_cons, List.append_assoc] at hstep
    rw [List.cons_append, Cursor.overRun, List.findSome?_cons, hfirst, if_pos hd]
    exact hlater

end Pattern

/-- A find at one member is the find of a list, where there is none at any other. -/
theorem findSome?_eq_of_unique {α β : Type} {f : α → Option β} {l : List α} {a : α} {b : β} (ha : a ∈ l)
    (hfa : f a = some b) (hother : ∀ x ∈ l, x ≠ a → f x = none) : l.findSome? f = some b := by
  induction l with
  | nil => cases ha
  | cons x l ih =>
    by_cases hx : x = a
    · rw [List.findSome?_cons, hx, hfa]
    · have hmem : a ∈ l := (List.mem_cons.mp ha).resolve_left fun heq => hx heq.symm
      rw [List.findSome?_cons, hother x List.mem_cons_self hx]
      exact ih hmem fun y hy => hother y (List.mem_cons_of_mem _ hy)

namespace Search

variable {column phrase value : Text} {operator : Operator} {before : Text} {a : Cursor} {c : Char}

/-- What ends the value of a phrase. -/
def closing : Pattern :=
  maybeQuote >> .space >> .alt (.one fun c => c == '?' || c == '.' || c == '!') .finish

theorem columnPhraseAt_def (column : Text) (a : Cursor) : columnPhraseAt column a =
    ((Pattern.edge >> .exactly column.lower >> .space).ends a).findSome? fun b =>
      operatorPhrases.findSome? fun entry =>
        (Pattern.partAt? (.exactly entry.1 >> .gap >> maybeQuote)
          (.one (· != '\n') >> .least (· != '\n')) closing b).map fun part =>
            (entry.2, part.1, a.distance b + part.2) := rfl

/-- A phrase about a column begins at the edge of a word, with the column's name, an operator phrase and a blank. -/
theorem of_columnPhraseAt {found : Operator × Text × Nat} (h : columnPhraseAt column a = some found) :
    a.atWordEdge = true ∧ ∃ blanks, ∃ entry ∈ operatorPhrases, ∃ c rest,
      (∀ d ∈ blanks, isBlankChar d = true) ∧ isBlankChar c = true ∧
        a.after = column.lower ++ (blanks ++ (entry.1 ++ c :: rest)) := by
  rw [columnPhraseAt_def] at h
  obtain ⟨b, hb, h⟩ := List.exists_of_findSome?_eq_some h
  obtain ⟨entry, hentry, h⟩ := List.exists_of_findSome?_eq_some h
  obtain ⟨part, hpart, -⟩ := Option.map_eq_some_iff.mp h
  obtain ⟨m, hm, -⟩ := List.exists_of_findSome?_eq_some hpart
  obtain ⟨n, hn, hb⟩ := Pattern.mem_ends_seq_iff.mp hb
  obtain ⟨o, hname, hspace⟩ := Pattern.mem_ends_seq_iff.mp hb
  obtain ⟨p, hp, hm⟩ := Pattern.mem_ends_seq_iff.mp hm
  obtain ⟨q, hgap, -⟩ := Pattern.mem_ends_seq_iff.mp hm
  obtain ⟨blanks, hblanks, hall⟩ := Pattern.mem_ends_space hspace
  obtain ⟨c, rest, hc, hblank⟩ := Pattern.mem_ends_gap hgap
  change n ∈ (if a.atWordEdge then [a] else []) at hn
  split_ifs at hn with hedge
  · obtain rfl := List.mem_singleton.mp hn
    refine ⟨hedge, blanks, entry, hentry, c, rest, hall, hblank, ?_⟩
    rw [Pattern.mem_ends_exactly hname, hblanks, Pattern.mem_ends_exactly hp, hc]
  · cases hn

/-- What can stand behind a value and the blanks after it: nothing, or the sign that ends the sentence. -/
def IsStop (stop : Text) : Prop :=
  stop = [] ∨ ∃ c rest, stop = c :: rest ∧ (c == '?' || c == '.' || c == '!') = true

theorem append_cons_cases {α : Type} {l r before after : List α} {x : α} (h : l ++ r = before ++ x :: after) :
    (∃ c, l = before ++ x :: c ∧ after = c ++ r) ∨ ∃ c, r = c ++ x :: after := by
  rcases List.append_eq_append_iff.mp h with ⟨c, -, hr⟩ | ⟨c, hl, hr⟩
  · exact .inr ⟨c, hr⟩
  · cases c with
    | nil => exact .inr ⟨[], hr.symm⟩
    | cons y c =>
      obtain ⟨rfl, hafter⟩ := List.cons.inj hr
      exact .inl ⟨c, hl, hafter⟩

/-- Where there is content before the end of the sentence, the value goes on. -/
private theorem ends_closing_eq_nil {blanks : Text} (hblanks : ∀ d ∈ blanks, isBlankChar d = true)
    (hfilled : isBlankChar c = false) (hmark : c ∉ marks) (before rest : Text) :
    closing.ends ⟨before, blanks ++ c :: rest⟩ = [] := by
  refine List.eq_nil_iff_forall_not_mem.mpr fun b hb => ?_
  obtain ⟨m, hm, hb⟩ := Pattern.mem_ends_seq_iff.mp hb
  obtain ⟨n, hn, hb⟩ := Pattern.mem_ends_seq_iff.mp hb
  have hquote : Pattern.Within (fun d => d ∈ marks ∨ isBlankChar d = true) maybeQuote := by
    refine Pattern.within_maybe (Pattern.within_one fun d hd => .inl ?_)
    rcases Bool.or_eq_true_iff.mp hd with hd | hd <;> simp [eq_of_beq hd, marks]
  have hspace : Pattern.Within (fun d => d ∈ marks ∨ isBlankChar d = true) .space :=
    Pattern.within_most fun d hd => .inr hd
  obtain ⟨w, hafter, -, hw⟩ := (hquote _ m hm).trans (hspace m n hn)
  change blanks ++ c :: rest = w ++ n.after at hafter
  -- The closing passes over blanks only, so the content is still ahead.
  obtain ⟨left, hleft, hahead⟩ : ∃ left, n.after = left ++ c :: rest ∧ ∀ d ∈ left, isBlankChar d = true := by
    rcases List.append_eq_append_iff.mp hafter with ⟨left, hpast, hrest⟩ | ⟨left, rfl, hrest⟩
    · cases left with
      | nil => exact ⟨[], hrest.symm, by simp⟩
      | cons d left =>
        obtain ⟨rfl, -⟩ := List.cons.inj hrest
        rcases hw c (by simp [hpast]) with hpassed | hpassed
        · exact absurd hpassed hmark
        · rw [hfilled] at hpassed
          cases hpassed
    · exact ⟨left, hrest, fun d hd => hblanks d (List.mem_append_right w hd)⟩
  rcases List.mem_append.mp hb with hb | hb
  · obtain ⟨d, more, hd, hsign, -⟩ := Pattern.mem_ends_one_iff.mp hb
    simp only [Bool.or_eq_true, beq_iff_eq] at hsign
    rw [hleft] at hd
    cases left with
    | nil =>
      obtain ⟨rfl, -⟩ := List.cons.inj hd
      refine hmark ?_
      rcases hsign with (rfl | rfl) | rfl <;> decide
    | cons e left =>
      obtain ⟨rfl, -⟩ := List.cons.inj hd
      have hblank := hahead e List.mem_cons_self
      rcases hsign with (rfl | rfl) | rfl <;> exact absurd hblank (by decide)
  · rcases (Pattern.mem_ends_finish_iff.mp hb).1 with hend | hbreak
    · simp [hleft] at hend
    · rw [hleft] at hbreak
      cases left with
      | nil =>
        obtain ⟨rfl, -⟩ := List.cons.inj hbreak
        exact absurd hfilled (by decide)
      | cons e left => simp at hbreak

/-- A value ends at the end of the text, or with the sign that ends the sentence. -/
theorem end?_closing {blanks stop : Text} (hblanks : ∀ d ∈ blanks, isBlankChar d = true) (hstop : IsStop stop)
    (before : Text) : closing.end? ⟨before, blanks ++ stop⟩ =
      some ⟨(blanks ++ stop.take 1).reverse ++ before, stop.drop 1⟩ := by
  have hsign : ∀ d ∈ stop.head?, isBlankChar d = false ∧ d ≠ '\'' ∧ d ≠ '"' := by
    rcases hstop with rfl | ⟨d, rest, rfl, hd⟩
    · simp
    · simp only [Bool.or_eq_true, beq_iff_eq] at hd
      rcases hd with (rfl | rfl) | rfl <;> simp [isBlankChar]
  have hquote : maybeQuote.ends ⟨before, blanks ++ stop⟩ = [⟨before, blanks ++ stop⟩] := by
    have hnone : ∀ d ∈ (blanks ++ stop).head?, (d == '\'' || d == '"') = false := by
      intro d hd
      cases blanks with
      | nil => simpa using (hsign d hd).2
      | cons e blanks =>
        obtain rfl : e = d := Option.some.inj hd
        have hblank := hblanks e List.mem_cons_self
        by_contra hquote
        rw [Bool.not_eq_false, Bool.or_eq_true, beq_iff_eq, beq_iff_eq] at hquote
        rcases hquote with rfl | rfl <;> exact absurd hblank (by decide)
    cases hrest : blanks ++ stop with
    | nil => rfl
    | cons d rest => simp [maybeQuote, Pattern.maybe, Pattern.ends, hnone d (by simp [hrest])]
  have hhead : stop.head?.any isBlankChar = false := by
    cases hfirst : stop.head? with
    | none => rfl
    | some d => exact (hsign d hfirst).1
  obtain ⟨nearer, hspace⟩ := Pattern.ends_space_append hblanks hhead before
  change ((maybeQuote.ends _).flatMap fun m => (Pattern.space.ends m).flatMap _).head? = _
  rw [hquote, List.flatMap_singleton, hspace, List.flatMap_cons]
  rcases hstop with rfl | ⟨d, rest, rfl, hd⟩
  · simp [Pattern.ends]
  · simp [Pattern.ends, hd]

/-- A text that can stand as a value in a sentence: with content at both ends, in one line, and without marks. -/
structure IsValue (t : Text) : Prop where
  front : ∃ c rest, t = c :: rest ∧ isBlankChar c = false
  back : ∃ rest c, t = rest ++ [c] ∧ isBlankChar c = false
  plain : ∀ c ∈ t, c ∉ marks ∧ c ≠ '\n'

/-- A text that is taken for a value as a whole: with content at both ends, in one line, without a quote in front, and
without marks behind its first character. -/
structure IsOperand (t : Text) : Prop where
  front : ∃ c rest, t = c :: rest ∧ isBlankChar c = false ∧ c ≠ '\'' ∧ c ≠ '"' ∧ ∀ d ∈ rest, d ∉ marks
  back : ∃ rest c, t = rest ++ [c] ∧ isBlankChar c = false
  line : ∀ c ∈ t, c ≠ '\n'

theorem IsValue.isOperand {t : Text} (h : IsValue t) : IsOperand t where
  front := by
    obtain ⟨c, rest, rfl, hc⟩ := h.front
    have hmark := (h.plain c List.mem_cons_self).1
    refine ⟨c, rest, rfl, hc, ?_, ?_, fun d hd => (h.plain d (List.mem_cons_of_mem c hd)).1⟩
    · rintro rfl
      exact hmark (by decide)
    · rintro rfl
      exact hmark (by decide)
  back := h.back
  line c hc := (h.plain c hc).2

theorem IsOperand.ne_nil {t : Text} (h : IsOperand t) : t ≠ [] := by
  obtain ⟨c, rest, rfl, -⟩ := h.front
  exact List.cons_ne_nil c rest

theorem IsOperand.strip_eq {t : Text} (h : IsOperand t) : t.strip = t := by
  obtain ⟨c, rest, hfront, hc, -⟩ := h.front
  exact Text.strip_of_ends ⟨c, rest, hfront, hc⟩ h.back

theorem IsValue.strip_eq (h : IsValue value) : value.strip = value :=
  h.isOperand.strip_eq

/-- In every end of a value there is content, and the first content comes after blanks only. -/
theorem IsOperand.exists_filled {t u v : Text} (h : IsOperand t) (ht : t = u ++ v) (hv : v ≠ []) :
    ∃ blanks c rest, v = blanks ++ c :: rest ∧ (∀ d ∈ blanks, isBlankChar d = true) ∧ isBlankChar c = false := by
  obtain ⟨front, last, rfl⟩ := (List.eq_nil_or_concat' v).resolve_left hv
  have hlast : isBlankChar last = false := by
    obtain ⟨rest, c, rfl, hc⟩ := h.back
    rw [← List.append_assoc] at ht
    rwa [← List.singleton_inj.mp (List.append_inj' ht rfl).2]
  have hsplit := List.takeWhile_append_dropWhile (p := isBlankChar) (l := front ++ [last])
  cases hdrop : (front ++ [last]).dropWhile isBlankChar with
  | nil =>
    have hblank := List.dropWhile_eq_nil_iff.mp hdrop last (by simp)
    rw [hlast] at hblank
    cases hblank
  | cons c rest =>
    rw [hdrop] at hsplit
    refine ⟨_, c, rest, hsplit.symm, fun d hd => List.mem_takeWhile_imp hd, ?_⟩
    have hhead := List.head?_dropWhile_not isBlankChar (front ++ [last])
    simpa [hdrop] using hhead

private theorem ends_opening (hfilled : isBlankChar c = false) (hapostrophe : c ≠ '\'') (hquotation : c ≠ '"')
    (before phrase rest : Text) :
    (Pattern.exactly phrase >> Pattern.gap >> maybeQuote).ends ⟨before, phrase ++ ' ' :: c :: rest⟩ =
      [⟨' ' :: (phrase.reverse ++ before), c :: rest⟩] := by
  have hquote : (c == '\'' || c == '"') = false := by simp [hapostrophe, hquotation]
  change ((Pattern.exactly phrase).ends _).flatMap (fun m => (Pattern.gap.ends m).flatMap maybeQuote.ends) = _
  rw [Pattern.ends_exactly, List.flatMap_singleton, Pattern.ends_gap (by simpa using hfilled), List.flatMap_singleton]
  simp [maybeQuote, Pattern.maybe, Pattern.ends, hquote]

/-- The value of a phrase goes on to the end of the sentence. -/
theorem partAt?_operand {blanks stop : Text} (hvalue : IsOperand value) (hblanks : ∀ d ∈ blanks, isBlankChar d = true)
    (hstop : IsStop stop) (before phrase : Text) :
    Pattern.partAt? (.exactly phrase >> .gap >> maybeQuote) (.one (· != '\n') >> .least (· != '\n')) closing
      ⟨before, phrase ++ ' ' :: (value ++ (blanks ++ stop))⟩ =
        some (value, (phrase ++ ' ' :: (value ++ (blanks ++ stop.take 1))).length) := by
  obtain ⟨c, t, rfl, hc, hapostrophe, hquotation, hplain⟩ := hvalue.front
  obtain ⟨hcline, hline⟩ := List.forall_mem_cons.mp hvalue.line
  let start : Cursor := ⟨before, phrase ++ ' ' :: (c :: t ++ (blanks ++ stop))⟩
  let opened : Cursor := ⟨' ' :: (phrase.reverse ++ before), c :: t ++ (blanks ++ stop)⟩
  have hfind : (Cursor.overRun (· != '\n') (c :: opened.before) (t ++ (blanks ++ stop))).findSome?
      (fun m => (closing.end? m).map fun e => (opened.textTo m, start.distance e)) =
        some (c :: t, (phrase ++ ' ' :: (c :: t ++ (blanks ++ stop.take 1))).length) := by
    refine Pattern.findSome?_overRun (c :: opened.before) (fun d hd => by simpa using hline d hd) ?_ ?_
    · intro u v huv hv
      obtain ⟨blanks', d, rest, rfl, hblanks', hd⟩ := hvalue.exists_filled (u := c :: u) (by rw [huv, List.cons_append]) hv
      have hmark : d ∉ marks := hplain d (by simp [huv])
      rw [List.append_assoc, List.cons_append, Pattern.end?, ends_closing_eq_nil hblanks' hd hmark]
      rfl
    · have htext : opened.textTo ⟨t.reverse ++ c :: opened.before, blanks ++ stop⟩ = c :: t :=
        Cursor.textTo_eq (by simp)
      have hdistance : start.distance ⟨(blanks ++ stop.take 1).reverse ++ (t.reverse ++ c :: opened.before), stop.drop 1⟩ =
          (phrase ++ ' ' :: (c :: t ++ (blanks ++ stop.take 1))).length :=
        Cursor.distance_eq (by simp [start, opened])
      rw [end?_closing hblanks hstop, Option.map_some, htext, hdistance]
  have hmiddle : (Pattern.one (· != '\n') >> Pattern.least (· != '\n')).ends opened =
      Cursor.overRun (· != '\n') (c :: opened.before) (t ++ (blanks ++ stop)) := by
    have hone : (Pattern.one (· != '\n')).ends opened = [⟨c :: opened.before, t ++ (blanks ++ stop)⟩] := by
      simp [Pattern.ends, opened, hcline]
    change ((Pattern.one (· != '\n')).ends opened).flatMap _ = _
    rw [hone, List.flatMap_singleton]
    rfl
  have hopening : (Pattern.exactly phrase >> Pattern.gap >> maybeQuote).ends start = [opened] :=
    ends_opening hc hapostrophe hquotation before phrase (t ++ (blanks ++ stop))
  change ((Pattern.exactly phrase >> Pattern.gap >> maybeQuote).ends start).findSome? _ = _
  rw [hopening, List.findSome?_cons, hmiddle, hfind]

/-- The operator phrases are told apart by their first words. -/
theorem eq_of_leading_eq : ∀ p ∈ operatorPhrases, ∀ q ∈ operatorPhrases,
    Text.leading p.1 = Text.leading q.1 → p = q := by
  decide

theorem head?_operatorPhrase : ∀ p ∈ operatorPhrases, p.1.head?.any isBlankChar = false ∧ p.1 ≠ [] := by
  decide

/-- Where a phrase is written out, no other one is found. -/
theorem partAt?_eq_none {entry : Text × Operator} (hphrase : (phrase, operator) ∈ operatorPhrases)
    (hentry : entry ∈ operatorPhrases) (hne : entry ≠ (phrase, operator)) (before rest : Text) :
    Pattern.partAt? (.exactly entry.1 >> .gap >> maybeQuote) (.one (· != '\n') >> .least (· != '\n')) closing
      ⟨before, phrase ++ ' ' :: rest⟩ = none := by
  refine Option.eq_none_iff_forall_ne_some.mpr fun part hpart => ?_
  obtain ⟨m, hm, -⟩ := List.exists_of_findSome?_eq_some hpart
  obtain ⟨p, hp, hm⟩ := Pattern.mem_ends_seq_iff.mp hm
  obtain ⟨q, hgap, -⟩ := Pattern.mem_ends_seq_iff.mp hm
  obtain ⟨d, later, hd, hblank⟩ := Pattern.mem_ends_gap hgap
  have hafter : phrase ++ ' ' :: rest = entry.1 ++ d :: later := by
    rw [← hd]
    exact Pattern.mem_ends_exactly hp
  have hleading := congrArg Text.leading hafter
  rw [Text.leading_append_blank (by decide), Text.leading_append_blank hblank] at hleading
  exact hne (eq_of_leading_eq _ hentry _ hphrase hleading.symm)

/-- A phrase that is written out is found, with the value up to the end of the sentence. -/
theorem columnPhraseAt_operand {blanks stop : Text} (hphrase : (phrase, operator) ∈ operatorPhrases)
    (hvalue : IsOperand value) (hblanks : ∀ d ∈ blanks, isBlankChar d = true) (hstop : IsStop stop)
    (hedge : Cursor.atWordEdge
      ⟨before, column.lower ++ ' ' :: (phrase ++ ' ' :: (value ++ (blanks ++ stop)))⟩ = true) :
    columnPhraseAt column ⟨before, column.lower ++ ' ' :: (phrase ++ ' ' :: (value ++ (blanks ++ stop)))⟩ =
      some (operator, value,
        (column.lower ++ ' ' :: (phrase ++ ' ' :: (value ++ (blanks ++ stop.take 1)))).length) := by
  obtain ⟨hfront, hne⟩ := head?_operatorPhrase _ hphrase
  let start : Cursor := ⟨before, column.lower ++ ' ' :: (phrase ++ ' ' :: (value ++ (blanks ++ stop)))⟩
  let named : Cursor := ⟨' ' :: (column.lower.reverse ++ before), phrase ++ ' ' :: (value ++ (blanks ++ stop))⟩
  have hspaces : ∀ d ∈ ([' '] : Text), isBlankChar d = true := by simp [isBlankChar]
  have hhead : (phrase ++ ' ' :: (value ++ (blanks ++ stop))).head?.any isBlankChar = false := by
    rwa [List.head?_append_of_ne_nil _ hne]
  obtain ⟨shorter, hspace⟩ := Pattern.ends_space_append hspaces hhead (column.lower.reverse ++ before)
  have hends : (Pattern.edge >> Pattern.exactly column.lower >> Pattern.space).ends start = named :: shorter := by
    change (if _ then _ else _ : List Cursor).flatMap
      (fun m => ((Pattern.exactly column.lower).ends m).flatMap Pattern.space.ends) = _
    rw [if_pos hedge, List.flatMap_singleton, Pattern.ends_exactly, List.flatMap_singleton]
    exact hspace
  have hfind : operatorPhrases.findSome? (fun entry =>
      (Pattern.partAt? (.exactly entry.1 >> .gap >> maybeQuote)
        (.one (· != '\n') >> .least (· != '\n')) closing named).map fun part =>
          (entry.2, part.1, start.distance named + part.2)) =
      some (operator, value,
        (column.lower ++ ' ' :: (phrase ++ ' ' :: (value ++ (blanks ++ stop.take 1)))).length) := by
    refine findSome?_eq_of_unique hphrase ?_ fun entry hentry hne => ?_
    · have hdistance : start.distance named = (column.lower ++ [' ']).length := Cursor.distance_eq (by simp [start, named])
      rw [partAt?_operand hvalue hblanks hstop, Option.map_some, hdistance]
      simp
      omega
    · rw [partAt?_eq_none hphrase hentry hne, Option.map_none]
  rw [columnPhraseAt_def, hends, List.findSome?_cons, hfind]

theorem columnPhraseAt_eq (hphrase : (phrase, operator) ∈ operatorPhrases) (hvalue : IsValue value) (n : Nat)
    (hedge : Cursor.atWordEdge
      ⟨before, column.lower ++ ' ' :: (phrase ++ ' ' :: (value ++ List.replicate n ' '))⟩ = true) :
    columnPhraseAt column
        ⟨before, column.lower ++ ' ' :: (phrase ++ ' ' :: (value ++ List.replicate n ' '))⟩ =
      some (operator, value,
        (column.lower ++ ' ' :: (phrase ++ ' ' :: (value ++ List.replicate n ' '))).length) := by
  have hspaces : ∀ d ∈ List.replicate n ' ', isBlankChar d = true := by
    intro d hd
    rw [List.eq_of_mem_replicate hd]
    decide
  rw [← List.append_nil (List.replicate n ' ')] at hedge
  have hfound := columnPhraseAt_operand hphrase hvalue.isOperand hspaces (.inl rfl) hedge
  rwa [List.take_nil, List.append_nil] at hfound

/-- Words in a row are a value. -/
theorem isValue_join {ws : List Text} (hne : ws ≠ []) (hws : ∀ w ∈ ws, w.IsPlain) :
    IsValue (Text.join " " ws) where
  front := by
    obtain ⟨w, rest, rfl⟩ := List.exists_cons_of_ne_nil hne
    obtain ⟨c, w, rfl, hc⟩ := Text.exists_cons_of_isPlain (hws w List.mem_cons_self)
    cases rest with
    | nil => exact ⟨c, w, rfl, hc⟩
    | cons v rest => exact ⟨c, w ++ ' ' :: Text.join " " (v :: rest), by simp [Text.join], hc⟩
  back := by
    obtain ⟨front, w, rfl⟩ := (List.eq_nil_or_concat' ws).resolve_left hne
    have hw := hws w (by simp)
    obtain ⟨rest, c, rfl⟩ := (List.eq_nil_or_concat' w).resolve_left hw.ne_nil
    refine ⟨Text.spaced front ++ rest, c, ?_, hw.solid c (by simp)⟩
    rw [Text.join_append (List.cons_ne_nil _ []), Text.join_singleton, List.append_assoc]
  plain c hc := by
    have hspaced : c ∈ Text.spaced ws := by
      rw [← Text.join_append_space hne]
      exact List.mem_append_left _ hc
    obtain ⟨w, hw, hcw⟩ := List.mem_flatMap.mp hspaced
    rcases List.mem_append.mp hcw with hcw | hcw
    · refine ⟨(hws w hw).unmarked c hcw, fun heq => ?_⟩
      have hsolid := (hws w hw).solid c hcw
      rw [heq] at hsolid
      exact absurd hsolid (by decide)
    · rw [List.mem_singleton.mp hcw]
      decide

def conjunction : Pattern :=
  .gap >> .exactly "and" >> .alt .gap .finish

theorem of_mem_ends_conjunction {b : Cursor} (h : b ∈ conjunction.ends a) :
    ∃ c blanks rest, a.after = c :: (blanks ++ ("and".toList ++ rest)) ∧ isBlankChar c = true ∧
      (∀ d ∈ blanks, isBlankChar d = true) ∧ (rest = [] ∨ ∃ d later, rest = d :: later ∧ isBlankChar d = true) := by
  obtain ⟨m, hm, h⟩ := Pattern.mem_ends_seq_iff.mp h
  obtain ⟨n, hn, h⟩ := Pattern.mem_ends_seq_iff.mp h
  obtain ⟨k, hk, hm⟩ := Pattern.mem_ends_seq_iff.mp hm
  obtain ⟨c, rest, hafter, hc, rfl⟩ := Pattern.mem_ends_one_iff.mp hk
  obtain ⟨blanks, hblanks, hall⟩ := Pattern.mem_ends_space hm
  refine ⟨c, blanks, n.after, ?_, hc, hall, ?_⟩
  · rw [hafter, ← Pattern.mem_ends_exactly hn]
    exact congrArg _ hblanks
  · rcases List.mem_append.mp h with h | h
    · obtain ⟨d, later, hd, hblank⟩ := Pattern.mem_ends_gap h
      exact .inr ⟨d, later, hd, hblank⟩
    · rcases (Pattern.mem_ends_finish_iff.mp h).1 with hend | hbreak
      · exact .inl hend
      · exact .inr ⟨'\n', [], hbreak, by decide⟩

theorem isPlain_and : Text.IsPlain "and" := by
  decide

private theorem exists_end?_conjunction {rest : Text} (before : Text)
    (h : rest = [] ∨ ∃ later, rest = ' ' :: later ∧ later.head?.any isBlankChar = false) :
    ∃ b, conjunction.end? ⟨before, ' ' :: ("and".toList ++ rest)⟩ = some b := by
  have hgap : Pattern.gap.ends ⟨before, ' ' :: ("and".toList ++ rest)⟩ = [⟨' ' :: before, "and".toList ++ rest⟩] :=
    Pattern.ends_gap rfl
  have hends : conjunction.ends ⟨before, ' ' :: ("and".toList ++ rest)⟩ =
      (Pattern.alt .gap .finish).ends ⟨"and".toList.reverse ++ ' ' :: before, rest⟩ := by
    change (Pattern.gap.ends _).flatMap
      (fun m => ((Pattern.exactly "and").ends m).flatMap (Pattern.alt .gap .finish).ends) = _
    rw [hgap, List.flatMap_singleton, Pattern.ends_exactly, List.flatMap_singleton]
  rw [Pattern.end?, hends]
  rcases h with rfl | ⟨later, rfl, hlater⟩
  · exact ⟨_, rfl⟩
  · refine ⟨⟨' ' :: ("and".toList.reverse ++ ' ' :: before), later⟩, ?_⟩
    change (Pattern.gap.ends _ ++ _).head? = _
    rw [Pattern.ends_gap hlater]
    rfl

/-- Before the end of words that are not "and", no conjunction begins. -/
theorem ends_conjunction_eq_nil {ws : List Text} {u v rest : Text} (hws : ∀ w ∈ ws, w.IsPlain)
    (hand : "and".toList ∉ ws) (h : Text.spaced ws = u ++ (v ++ [' '])) (hv : v ≠ [])
    (hrest : rest = [] ∨ ∃ later, rest = ' ' :: later) (before : Text) :
    conjunction.ends ⟨before, v ++ rest⟩ = [] := by
  refine List.eq_nil_iff_forall_not_mem.mpr fun b hb => ?_
  obtain ⟨c, blanks, tail, hafter, hc, hblanks, htail⟩ := of_mem_ends_conjunction hb
  obtain ⟨d, y, rfl⟩ := List.exists_cons_of_ne_nil hv
  obtain ⟨rfl, hy⟩ := List.cons.inj hafter
  change y ++ rest = blanks ++ ("and".toList ++ tail) at hy
  obtain ⟨front, back, rfl, hback⟩ := Text.exists_words_of_spaced (fun w hw => (hws w hw).solid) h hc
  change y ++ [' '] = Text.spaced back at hback
  obtain ⟨w, back, rfl⟩ : ∃ w later, back = w :: later := by
    refine List.exists_cons_of_ne_nil fun hnil => ?_
    rw [hnil] at hback
    exact absurd hback (by simp)
  -- With a space behind it, the rest of the text is the next word, and "and" with a blank.
  obtain ⟨later, hword⟩ : ∃ later, y ++ rest ++ [' '] = w ++ ' ' :: later := by
    rcases hrest with rfl | ⟨later, rfl⟩
    · exact ⟨Text.spaced back, by rw [List.append_nil, hback, Text.spaced_cons]⟩
    · refine ⟨Text.spaced back ++ (later ++ [' ']), ?_⟩
      have hmiddle : y ++ ' ' :: later ++ [' '] = (y ++ [' ']) ++ (later ++ [' ']) := by simp
      rw [hmiddle, hback, Text.spaced_cons, List.append_assoc, List.cons_append]
  obtain ⟨e, later', hblank, htail'⟩ : ∃ e later', isBlankChar e = true ∧ tail ++ [' '] = e :: later' := by
    rcases htail with rfl | ⟨e, later', rfl, he⟩
    · exact ⟨' ', [], by decide, rfl⟩
    · exact ⟨e, later' ++ [' '], he, rfl⟩
  have hboth : w ++ ' ' :: later = blanks ++ ("and".toList ++ e :: later') := by
    rw [← hword, hy, ← htail']
    simp
  have hsame := Text.eq_of_spaced_eq (hws w (by simp)) isPlain_and hblanks (by decide) hblank hboth
  exact hand (hsame.2 ▸ by simp)

theorem beforeAnd_eq_self {t : Text} (hand : "and".toList ∉ t.words) : beforeAnd t = t := by
  have hnone : Pattern.find? conjunction t = none := by
    refine Cursor.findSome?_all_eq_none fun u v huv => ?_
    refine Option.map_eq_none_iff.mpr (Option.eq_none_iff_forall_ne_some.mpr fun b hb => ?_)
    obtain ⟨c, blanks, rest, hafter, hc, hblanks, hrest⟩ := of_mem_ends_conjunction (Pattern.mem_ends_of_end? hb)
    change v = _ at hafter
    refine hand ?_
    rw [huv, hafter]
    exact Text.mem_words isPlain_and.solid (by decide) hc hblanks hrest
  unfold conjunction at hnone
  rw [beforeAnd, hnone]

/-- What is cut off at the word "and" begins with a blank. -/
theorem beforeAnd_cases (t : Text) :
    beforeAnd t = t ∨ ∃ c rest, t = beforeAnd t ++ c :: rest ∧ isBlankChar c = true := by
  unfold beforeAnd
  split
  · next a b hfound =>
    obtain ⟨place, hplace, hplaced⟩ := List.exists_of_findSome?_eq_some hfound
    obtain ⟨b', hend, heq⟩ := Option.map_eq_some_iff.mp hplaced
    obtain ⟨rfl, rfl⟩ := Prod.mk.inj heq
    obtain ⟨u, v, rfl, rfl⟩ := Cursor.exists_append_of_mem_allFrom hplace
    obtain ⟨c, blanks, rest, hafter, hc, -⟩ := of_mem_ends_conjunction (Pattern.mem_ends_of_end? hend)
    refine .inr ⟨c, blanks ++ ("and".toList ++ rest), ?_, hc⟩
    change v = _ at hafter
    simp [hafter]
  · exact .inl rfl

theorem prefix_beforeAnd (t : Text) : beforeAnd t <+: t := by
  rcases beforeAnd_cases t with heq | ⟨c, rest, hsplit, -⟩
  · exact ⟨[], by rw [heq, List.append_nil]⟩
  · exact ⟨c :: rest, hsplit.symm⟩

theorem beforeAnd_ne_nil (hc : isBlankChar c = false) (rest : Text) : beforeAnd (c :: rest) ≠ [] := by
  intro hnil
  rcases beforeAnd_cases (c :: rest) with heq | ⟨d, later, hsplit, hd⟩
  · rw [hnil] at heq
    cases heq
  · rw [hnil] at hsplit
    obtain ⟨rfl, -⟩ := List.cons.inj hsplit
    rw [hc] at hd
    cases hd

theorem beforeAnd_join {ws : List Text} (hws : ∀ w ∈ ws, w.IsPlain) (hand : "and".toList ∉ ws) :
    beforeAnd (Text.join " " ws) = Text.join " " ws := by
  refine beforeAnd_eq_self ?_
  rwa [Text.words_join fun w hw => ⟨(hws w hw).solid, (hws w hw).ne_nil⟩]

theorem beforeAnd_join_and {ws us : List Text} (hws : ∀ w ∈ ws, w.IsPlain) (hand : "and".toList ∉ ws)
    (hne : ws ≠ []) (hus : ∀ u ∈ us, u.IsPlain) :
    beforeAnd (Text.join " " (ws ++ "and".toList :: us)) = Text.join " " ws := by
  have hjoin : Text.join " " (ws ++ "and".toList :: us) =
      Text.join " " ws ++ ' ' :: Text.join " " ("and".toList :: us) := by
    rw [Text.join_append (List.cons_ne_nil _ _), ← Text.join_append_space hne, List.append_assoc]
    rfl
  obtain ⟨b, hend⟩ : ∃ b, conjunction.end? ⟨(Text.join " " ws).reverse ++ [],
      ' ' :: Text.join " " ("and".toList :: us)⟩ = some b := by
    cases us with
    | nil => exact exists_end?_conjunction _ (.inl rfl)
    | cons u us =>
      obtain ⟨c, rest, hfront, hc⟩ := (isValue_join (List.cons_ne_nil u us) hus).front
      have hstep : Text.join " " ("and".toList :: u :: us) = "and".toList ++ ' ' :: Text.join " " (u :: us) := by
        simp [Text.join]
      rw [hstep]
      exact exists_end?_conjunction _ (.inr ⟨_, rfl, by rw [hfront]; simpa using hc⟩)
  have hfind : Pattern.find? conjunction (Text.join " " (ws ++ "and".toList :: us)) =
      some (⟨(Text.join " " ws).reverse ++ [], ' ' :: Text.join " " ("and".toList :: us)⟩, b) := by
    rw [hjoin]
    refine Cursor.findSome?_allFrom [] (fun u v huv hv => ?_) (by rw [hend, Option.map_some])
    have hspaced : Text.spaced ws = u ++ (v ++ [' ']) := by
      rw [← Text.join_append_space hne, huv, List.append_assoc]
    rw [Pattern.end?, ends_conjunction_eq_nil hws hand hspaced hv (.inr ⟨_, rfl⟩)]
    rfl
  unfold conjunction at hfind
  rw [beforeAnd, hfind]
  simp

/-- The first phrase about a column is read, and spaces are left in its place. -/
theorem columnCondition?_append {u v rest operand : Text}
    (hnone : ∀ x y, u = x ++ y → y ≠ [] → columnPhraseAt column ⟨x.reverse, y ++ (v ++ rest)⟩ = none)
    (hfound : columnPhraseAt column ⟨u.reverse, v ++ rest⟩ = some (operator, value, v.length))
    (hoperand : (beforeAnd value).strip = operand) (hne : operand ≠ []) :
    columnCondition? column (u ++ (v ++ rest)) =
      some (⟨column, operator, .text operand⟩, u ++ List.replicate v.length ' ' ++ rest) := by
  have hfind : (Cursor.all (u ++ (v ++ rest))).findSome? (fun a => (columnPhraseAt column a).map (a, ·)) =
      some (⟨u.reverse, v ++ rest⟩, operator, value, v.length) := by
    refine Cursor.findSome?_allFrom [] (fun x y hxy hy => ?_) ?_
    · rw [List.append_nil, hnone x y hxy hy, Option.map_none]
    · rw [List.append_nil, hfound, Option.map_some]
  have hfilled : operand.isEmpty = false := by simpa using hne
  unfold columnCondition?
  simp only [hfind, Option.bind_some, hoperand, hfilled, List.reverse_reverse, List.drop_left]
  rfl

theorem columnCondition?_eq {u v operand : Text}
    (hnone : ∀ x y, u = x ++ y → y ≠ [] → columnPhraseAt column ⟨x.reverse, y ++ v⟩ = none)
    (hfound : columnPhraseAt column ⟨u.reverse, v⟩ = some (operator, value, v.length))
    (hoperand : (beforeAnd value).strip = operand) (hne : operand ≠ []) :
    columnCondition? column (u ++ v) =
      some (⟨column, operator, .text operand⟩, u ++ List.replicate v.length ' ') := by
  have hread : columnCondition? column (u ++ (v ++ [])) =
      some (⟨column, operator, .text operand⟩, u ++ List.replicate v.length ' ' ++ []) :=
    columnCondition?_append (by simpa using hnone) (by simpa using hfound) hoperand hne
  simpa using hread

end Search
end AskTable
