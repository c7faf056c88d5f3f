import AskTable.Proofs.ColumnPhrase
import AskTable.Proofs.Field
import AskTable.Proofs.Naming

/-! Questions with a condition on each of two columns. The column with the longer name claims its text first. If it is
written first, the other condition is taken for a part of its sentence and is lost. -/
namespace AskTable
namespace Search

open Text (IsPlain IsWord spaced leading)

variable {column : Text} {ws before after : List Text} {u v w rest : Text}

/-- The words of the operator phrases, and the word that parts conditions. -/
def signWords : List Text :=
  "and".toList :: operatorPhrases.flatMap fun entry => entry.1.words

theorem isPlain_of_mem_signWords : ∀ w ∈ signWords, w.IsPlain := by
  decide

theorem mem_signWords {entry : Text × Operator} (h : entry ∈ operatorPhrases) (hw : w ∈ entry.1.words) :
    w ∈ signWords :=
  List.mem_cons_of_mem _ (List.mem_flatMap.mpr ⟨entry, h, hw⟩)

theorem words_operatorPhrase : ∀ entry ∈ operatorPhrases, Text.join " " entry.1.words = entry.1 ∧
    "and".toList ∉ entry.1.words ∧ entry.1.words.head? = some (leading entry.1) ∧ entry.1.lower = entry.1 := by
  decide

private theorem words_eq_or : ∀ entry ∈ operatorPhrases, entry.1.words = [leading entry.1] ∨
    entry.1.words = [leading entry.1, "with".toList] := by
  decide

/-- No word of a phrase ends with the first word of another one. -/
theorem eq_of_suffix : ∀ w ∈ signWords, ∀ entry ∈ operatorPhrases, leading entry.1 <:+ w → leading entry.1 = w := by
  decide

private theorem all_isWordChar_of_mem_signWords : ∀ w ∈ signWords, w = "=".toList ∨ w.all isWordChar = true := by
  decide

/-- Within words, a phrase about a column begins in a word that ends with the column's name, or with the name and the
first word of an operator phrase. -/
theorem exists_word_of_columnPhraseAt (hcolumn : column.IsWord) (hws : ∀ w ∈ ws, w.IsPlain)
    (h : spaced ws = u ++ v) (hv : v ≠ [])
    {found : Operator × Text × Nat} (hfound : columnPhraseAt column ⟨u.reverse, v ++ rest⟩ = some found) :
    ∃ before front w after, ws = before ++ (front ++ w) :: after ∧ front.getLast?.any isWordChar = false ∧
      ∃ entry ∈ operatorPhrases, w = column.lower ++ leading entry.1 ∨
        w = column.lower ∧ ∃ blanks c later, (∀ d ∈ blanks, isBlankChar d = true) ∧ isBlankChar c = true ∧
          spaced after ++ rest = blanks ++ (entry.1 ++ c :: later) := by
  obtain ⟨hedge, blanks, entry, hentry, c, later, hblanks, hc, hafter⟩ := of_columnPhraseAt hfound
  change v ++ rest = _ at hafter
  have hplain := hcolumn.isPlain_lower
  have hhead := hcolumn.head?_lower
  obtain ⟨d, y, rfl⟩ := List.exists_cons_of_ne_nil hv
  obtain ⟨e, name, hname, he⟩ := Text.exists_cons_of_isPlain hplain
  obtain rfl : d = e := by
    rw [hname] at hafter
    exact (List.cons.inj hafter).1
  obtain ⟨before, front, back, after, rfl, rfl, rfl⟩ := Text.exists_word_of_spaced h he
  have hd : isWordChar d = true := by simpa [hname] using hhead
  have hfront : front.getLast?.any isWordChar = false := by
    rcases List.eq_nil_or_concat' front with rfl | ⟨front, last, rfl⟩
    · rfl
    · simpa [Cursor.atWordEdge, hd] using hedge
  refine ⟨before, front, d :: back, after, rfl, hfront, entry, hentry, ?_⟩
  have hwhole : IsPlain (front ++ d :: back) := hws _ (by simp)
  have hword : Text.IsSolid (d :: back) := fun f hf => hwhole.solid f (List.mem_append_right _ hf)
  have htext : d :: back ++ ' ' :: (spaced after ++ rest) =
      column.lower ++ (blanks ++ (entry.1 ++ c :: later)) := by
    rw [← hafter]
    simp
  have hleading := congrArg leading htext
  rw [Text.leading_append hword (by decide), hplain.solid.leading_append] at hleading
  cases blanks with
  | nil =>
    rw [List.nil_append, Text.leading_append_blank hc] at hleading
    exact .inl hleading
  | cons b blanks =>
    obtain ⟨hb, hblanks⟩ := List.forall_mem_cons.mp hblanks
    have hnone : leading (b :: blanks ++ (entry.1 ++ c :: later)) = [] := by simp [leading, hb]
    rw [hnone, List.append_nil] at hleading
    rw [hleading] at htext
    exact .inr ⟨hleading, blanks, c, later, hblanks, hc, (List.cons.inj (List.append_cancel_left htext)).2⟩

/-- In words that do not hold a column's name, there is no phrase about the column. -/
theorem columnPhraseAt_eq_none (hcolumn : column.IsWord) (hws : ∀ w ∈ ws, w.IsPlain)
    (hfree : ∀ w ∈ ws, ¬ column.lower <:+: w) (h : spaced ws = u ++ v) (hv : v ≠ []) (rest : Text) :
    columnPhraseAt column ⟨u.reverse, v ++ rest⟩ = none := by
  refine Option.eq_none_iff_forall_ne_some.mpr fun found hfound => ?_
  obtain ⟨before, front, w, after, rfl, -, entry, -, hw⟩ := exists_word_of_columnPhraseAt hcolumn hws h hv hfound
  refine hfree (front ++ w) (by simp) ?_
  rcases hw with rfl | ⟨rfl, -⟩
  · exact ⟨front, leading entry.1, by simp⟩
  · exact ⟨front, [], by simp⟩

/-- A phrase about a column behind some words is read up to the word "and". -/
theorem columnCondition?_of_words {phrase : Text} {operator : Operator} {us : List Text} (hcolumn : column.IsWord)
    (hphrase : (phrase, operator) ∈ operatorPhrases) (hws : ∀ w ∈ ws, w.IsPlain) (hwne : ws ≠ [])
    (hus : ∀ w ∈ us, w.IsPlain) (hune : us ≠ []) (hand : beforeAnd (Text.join " " ws) = Text.join " " us)
    (before : List Text) (n : Nat)
    (hnone : ∀ x y, spaced before = x ++ y → y ≠ [] → columnPhraseAt column
      ⟨x.reverse, y ++ (column.lower ++ ' ' :: (phrase ++ ' ' :: (Text.join " " ws ++ List.replicate n ' ')))⟩ = none) :
    ∃ m, columnCondition? column (spaced before ++
        (column.lower ++ ' ' :: (phrase ++ ' ' :: (Text.join " " ws ++ List.replicate n ' ')))) =
      some (⟨column, operator, .text (Text.join " " us)⟩, spaced before ++ List.replicate m ' ') := by
  have hvalue := isValue_join hune hus
  have hne : Text.join " " us ≠ [] := by
    obtain ⟨c, rest, heq, -⟩ := hvalue.front
    rw [heq]
    exact List.cons_ne_nil c rest
  have hedge : Cursor.atWordEdge ⟨(spaced before).reverse,
      column.lower ++ ' ' :: (phrase ++ ' ' :: (Text.join " " ws ++ List.replicate n ' '))⟩ = true := by
    have hhead := hcolumn.head?_lower
    have hbefore : (spaced before).reverse.head?.any isWordChar = false := by
      rcases List.eq_nil_or_concat' before with rfl | ⟨front, last, rfl⟩
      · rfl
      · have hspace : isWordChar ' ' = false := by decide
        simp [hspace]
    rw [Cursor.atWordEdge, hbefore, List.head?_append_of_ne_nil _ hcolumn.isPlain_lower.ne_nil, hhead]
    rfl
  have hfound := columnPhraseAt_eq hphrase (isValue_join hwne hws) n hedge
  exact ⟨_, columnCondition?_eq hnone hfound (by rw [hand, hvalue.strip_eq]) hne⟩

/-- There is no phrase about a column in a text that does not hold the column's name with more behind it. -/
theorem columnCondition?_eq_none {t : Text} (h : ∀ w, w ≠ [] → ¬ column.lower ++ w <:+: t) (n : Nat) :
    columnCondition? column (t ++ List.replicate n ' ') = none := by
  have hnone : (Cursor.all (t ++ List.replicate n ' ')).findSome? (fun a => (columnPhraseAt column a).map (a, ·)) =
      none := by
    refine Cursor.findSome?_all_eq_none fun u v huv => ?_
    refine Option.map_eq_none_iff.mpr (Option.eq_none_iff_forall_ne_some.mpr fun found hfound => ?_)
    obtain ⟨-, blanks, entry, hentry, c, rest, -, -, hafter⟩ := of_columnPhraseAt hfound
    change v = _ at hafter
    obtain ⟨hfilled, hne⟩ := head?_operatorPhrase _ hentry
    obtain ⟨d, phrase, hphrase⟩ := List.exists_cons_of_ne_nil hne
    have hd : isBlankChar d = false := by simpa [hphrase] using hfilled
    have hsplit : t ++ List.replicate n ' ' = (u ++ column.lower ++ blanks) ++ d :: (phrase ++ c :: rest) := by
      rw [huv, hafter, hphrase]
      simp
    -- The operator phrase is not in the spaces, so it stands in the text.
    rcases append_cons_cases hsplit with ⟨back, rfl, -⟩ | ⟨back, hspaces⟩
    · exact h (blanks ++ [d]) (by simp) ⟨u, back, by simp⟩
    · have hspace : d ∈ List.replicate n ' ' := by simp [hspaces]
      rw [List.eq_of_mem_replicate hspace] at hd
      exact absurd hd (by decide)
  rw [columnCondition?, hnone]
  rfl

/-- What a question says of one column: an operator phrase and a value in words of letters and digits, without "and"
and without operator phrases. -/
structure Clause where
  column : Text
  phrase : Text
  operator : Operator
  words : List Text
  isWord_column : column.IsWord
  mem_operatorPhrases : (phrase, operator) ∈ operatorPhrases
  words_ne_nil : words ≠ []
  isWord_of_mem : ∀ w ∈ words, w.IsWord
  and_not_mem : "and".toList ∉ words.map Text.lower
  not_infix_words : ∀ entry ∈ operatorPhrases, ¬ entry.1.words <:+: words.map Text.lower

namespace Clause

def value (a : Clause) : Text :=
  (Text.join " " a.words).lower

def text (a : Clause) : Text :=
  a.column ++ " " ++ a.phrase ++ " " ++ Text.join " " a.words

def condition (a : Clause) : Condition :=
  ⟨a.column, a.operator, .text a.value⟩

/-- The words of the value in small form. -/
def operands (a : Clause) : List Text :=
  a.words.map Text.lower

def small (a : Clause) : List Text :=
  a.column.lower :: (a.phrase.words ++ a.operands)

variable (a b : Clause)

theorem value_eq_join : a.value = Text.join " " a.operands :=
  Text.lower_join a.words

theorem operands_ne_nil : a.operands ≠ [] := by
  simpa [operands] using a.words_ne_nil

theorem isPlain_of_mem_operands : ∀ w ∈ a.operands, w.IsPlain := by
  intro w hw
  obtain ⟨t, ht, rfl⟩ := List.mem_map.mp hw
  exact (a.isWord_of_mem t ht).isPlain_lower

theorem isPlain_of_mem_small : ∀ w ∈ a.small, w.IsPlain := by
  intro w hw
  rcases List.mem_cons.mp hw with rfl | hw
  · exact a.isWord_column.isPlain_lower
  · rcases List.mem_append.mp hw with hw | hw
    · exact isPlain_of_mem_signWords w (mem_signWords a.mem_operatorPhrases hw)
    · exact a.isPlain_of_mem_operands w hw

private theorem isPlain_of_mem_small_and : ∀ w ∈ a.small ++ ["and".toList], w.IsPlain := by
  intro w hw
  rcases List.mem_append.mp hw with hw | hw
  · exact a.isPlain_of_mem_small w hw
  · exact List.mem_singleton.mp hw ▸ isPlain_and

theorem lower_text : a.text.lower = a.column.lower ++ ' ' :: (a.phrase ++ ' ' :: a.value) := by
  obtain ⟨-, -, -, hphrase⟩ := words_operatorPhrase _ a.mem_operatorPhrases
  have htext : a.text = a.column ++ ' ' :: (a.phrase ++ ' ' :: Text.join " " a.words) := by simp [text]
  rw [htext, Text.lower_append_space, Text.lower_append_space, hphrase, value]

end Clause

private theorem eq_nil_of_mem_signWords (h : u ++ w ∈ signWords) (hu : u.getLast?.any isWordChar = false)
    (hw : w.head?.any isWordChar = true) : u = [] := by
  rcases List.eq_nil_or_concat' u with rfl | ⟨front, last, rfl⟩
  · rfl
  · rcases all_isWordChar_of_mem_signWords _ h with hsign | hall
    · obtain ⟨c, rest, rfl⟩ := List.exists_cons_of_ne_nil (l := w) (fun hnil => by simp [hnil] at hw)
      have hlength := congrArg List.length hsign
      simp only [List.length_append, List.length_cons, List.length_nil] at hlength
      change _ = 1 at hlength
      omega
    · have hlast : isWordChar last = true := List.all_eq_true.mp hall last (by simp)
      simp [hlast] at hu

namespace Clause

variable {a b : Clause} {us : List Text}

/-- A word before the second clause that is neither the first column's name nor in the value belongs to the operator
phrase, or is the "and". -/
theorem cases_of_small (h : a.small ++ ["and".toList] = before ++ w :: after) (hcolumn : w ≠ a.column.lower)
    (hvalue : w ∉ a.operands) : w ∈ signWords ∧ ((w = "and".toList ∧ after = []) ∨
      after = a.operands ++ ["and".toList] ∨ a.phrase = w ++ " with".toList) := by
  obtain ⟨hjoin, -, hhead, -⟩ := words_operatorPhrase _ a.mem_operatorPhrases
  cases before with
  | nil => exact absurd (List.cons.inj h).1.symm hcolumn
  | cons first before =>
    have hrest : a.phrase.words ++ (a.operands ++ ["and".toList]) = before ++ w :: after := by
      rw [← List.append_assoc]
      exact (List.cons.inj h).2
    rcases append_cons_cases hrest with ⟨c, hphrase, hafter⟩ | ⟨c, hafter⟩
    · refine ⟨mem_signWords a.mem_operatorPhrases (by simp [hphrase]), .inr ?_⟩
      cases c with
      | nil => exact .inl hafter
      | cons d c =>
        rcases words_eq_or _ a.mem_operatorPhrases with hone | htwo
        · have hlength := congrArg List.length (hone.symm.trans hphrase)
          simp only [List.length_append, List.length_cons, List.length_nil] at hlength
          omega
        · have hsplit := htwo.symm.trans hphrase
          obtain rfl : before = [] := by
            have hlength := congrArg List.length hsplit
            simp only [List.length_append, List.length_cons, List.length_nil] at hlength
            exact List.length_eq_zero_iff.mp (by omega)
          obtain ⟨hfirst, -⟩ := List.cons.inj hsplit
          have hpair : Text.join " " [w, "with".toList] = w ++ " with".toList := by simp [Text.join]
          rw [htwo, hfirst, hpair] at hjoin
          exact .inr hjoin.symm
    · rcases List.eq_nil_or_concat' after with rfl | ⟨after, last, rfl⟩
      · obtain rfl : "and".toList = w := by simpa using (List.append_inj' hafter rfl).2
        exact ⟨List.mem_cons_self, .inl ⟨rfl, rfl⟩⟩
      · have hsplit : a.operands ++ ["and".toList] = (c ++ w :: after) ++ [last] := by
          rw [hafter, List.append_assoc, List.cons_append]
        have hmem := (List.append_inj' hsplit rfl).1
        exact absurd (by simp [hmem]) hvalue

theorem isPlain_of_mem_operands_and (hus : ∀ u ∈ us, u.IsPlain) :
    ∀ w ∈ a.operands ++ "and".toList :: us, w.IsPlain := by
  intro w hw
  rcases List.mem_append.mp hw with hw | hw
  · exact a.isPlain_of_mem_operands w hw
  · rcases List.mem_cons.mp hw with rfl | hw
    · exact isPlain_and
    · exact hus w hw

private theorem ne_append_phrase_of_operands {entry : Text × Operator} (hentry : entry ∈ operatorPhrases)
    {blanks : Text} (hblanks : ∀ d ∈ blanks, isBlankChar d = true) {c : Char} (hc : isBlankChar c = true)
    (later : Text) :
    spaced (a.operands ++ ["and".toList]) ++ rest ≠ blanks ++ (entry.1 ++ c :: later) := by
  intro h
  obtain ⟨hjoin, hand, -, -⟩ := words_operatorPhrase _ hentry
  rw [← hjoin] at h
  have hplain : ∀ t ∈ entry.1.words, t.IsPlain := fun t ht => isPlain_of_mem_signWords t (mem_signWords hentry ht)
  have hoperands : ∀ t ∈ a.operands ++ ["and".toList], t.IsPlain :=
    isPlain_of_mem_operands_and fun _ hu => absurd hu List.not_mem_nil
  rcases Text.prefix_or_prefix hoperands hplain hblanks hc h with hbegin | hbegin
  · rcases List.prefix_concat_iff.mp hbegin with heq | hbegin
    · exact hand (by simp [heq])
    · exact a.not_infix_words entry hentry hbegin.isInfix
  · exact hand (hbegin.subset (by simp))

private theorem ne_append_phrase_of_and {entry : Text × Operator} (hentry : entry ∈ operatorPhrases) {blanks : Text}
    (hblanks : ∀ d ∈ blanks, isBlankChar d = true) {c : Char} (hc : isBlankChar c = true) (later : Text) :
    spaced ["and".toList] ++ rest ≠ blanks ++ (entry.1 ++ c :: later) := by
  intro h
  obtain ⟨hjoin, hand, hhead, -⟩ := words_operatorPhrase _ hentry
  rw [← hjoin] at h
  have hplain : ∀ t ∈ entry.1.words, t.IsPlain := fun t ht => isPlain_of_mem_signWords t (mem_signWords hentry ht)
  have hone : ∀ t ∈ (["and".toList] : List Text), t.IsPlain := by simpa using isPlain_and
  rcases Text.prefix_or_prefix hone hplain hblanks hc h with hbegin | hbegin
  · cases hwords : entry.1.words with
    | nil => simp [hwords] at hhead
    | cons t later =>
      rw [hwords, List.cons_prefix_cons] at hbegin
      rw [hwords, hbegin.1] at hand
      exact hand List.mem_cons_self
  · exact hand (hbegin.subset List.mem_cons_self)

/-- Before the second clause there is no phrase about its column, unless the column's name is a part of the first
operator phrase. -/
theorem columnPhraseAt_eq_none_of_apart (hcolumn : ¬ b.column.lower <:+: a.column.lower)
    (hvalue : ¬ b.column.lower <:+: a.value) (hphrase : a.phrase ≠ b.column.lower ++ " with".toList)
    (h : spaced (a.small ++ ["and".toList]) = u ++ v) (hv : v ≠ []) (rest : Text) :
    columnPhraseAt b.column ⟨u.reverse, v ++ (b.column.lower ++ ' ' :: rest)⟩ = none := by
  refine Option.eq_none_iff_forall_ne_some.mpr fun found hfound => ?_
  have hname := b.isWord_column.isPlain_lower
  obtain ⟨before, front, w, after, hsplit, hfront, entry, hentry, hw⟩ :=
    exists_word_of_columnPhraseAt b.isWord_column a.isPlain_of_mem_small_and h hv hfound
  have hinfix : b.column.lower <:+: front ++ w := by
    rcases hw with rfl | ⟨rfl, -⟩
    · exact ⟨front, leading entry.1, by simp⟩
    · exact ⟨front, [], by simp⟩
  have hfree : ∀ t ∈ a.operands, ¬ b.column.lower <:+: t := by
    intro t ht hinside
    rw [a.value_eq_join] at hvalue
    exact hvalue (hinside.trans (Text.infix_join ht))
  obtain ⟨hsign, hcases⟩ := cases_of_small hsplit (fun heq => hcolumn (heq ▸ hinfix)) fun hmem => hfree _ hmem hinfix
  rcases hw with rfl | ⟨rfl, blanks, c, later, hblanks, hc, hlater⟩
  · have hsuffix : leading entry.1 <:+ front ++ (b.column.lower ++ leading entry.1) :=
      ⟨front ++ b.column.lower, by simp⟩
    have hlength := congrArg List.length (eq_of_suffix _ hsign _ hentry hsuffix)
    have hpos := List.length_pos_of_ne_nil hname.ne_nil
    simp only [List.length_append] at hlength
    omega
  · -- The column's name is the whole word, so an operator phrase would have to stand behind it.
    obtain rfl := eq_nil_of_mem_signWords hsign hfront b.isWord_column.head?_lower
    rcases hcases with ⟨heq, rfl⟩ | rfl | hwith
    · rw [List.nil_append] at heq
      rw [heq] at hlater
      exact ne_append_phrase_of_and hentry hblanks hc later (by simpa using hlater)
    · exact ne_append_phrase_of_operands hentry hblanks hc later hlater
    · exact hphrase hwith

theorem small_ne_nil : a.small ≠ [] :=
  List.cons_ne_nil _ _

theorem spaced_small :
    spaced a.small = a.column.lower ++ ' ' :: (a.phrase ++ ' ' :: spaced a.operands) := by
  obtain ⟨hjoin, -, hhead, -⟩ := words_operatorPhrase _ a.mem_operatorPhrases
  have hne : a.phrase.words ≠ [] := fun hnil => by simp [hnil] at hhead
  have hphrase : spaced a.phrase.words = a.phrase ++ [' '] := by
    rw [← Text.join_append_space hne]
    exact congrArg (· ++ [' ']) hjoin
  rw [small, Text.spaced_cons, Text.spaced_append, hphrase]
  simp

theorem spaced_small_append_join (h : us ≠ []) : spaced a.small ++ Text.join " " us =
    a.column.lower ++ ' ' :: (a.phrase ++ ' ' :: Text.join " " (a.operands ++ us)) := by
  rw [spaced_small, Text.join_append h]
  simp

theorem join_small : Text.join " " a.small = a.text.lower := by
  have hvalue : a.value ++ [' '] = spaced a.operands := by
    rw [a.value_eq_join, Text.join_append_space a.operands_ne_nil]
  have hsplit : Text.join " " a.small ++ [' '] = a.text.lower ++ [' '] := by
    rw [Text.join_append_space small_ne_nil, spaced_small, ← hvalue, lower_text]
    simp
  exact List.append_cancel_right hsplit

def question (a b : Clause) : Text :=
  a.text ++ " and " ++ b.text

theorem join_and_small : Text.join " " ("and".toList :: a.small) = "and".toList ++ ' ' :: a.text.lower := by
  change Text.join " " (["and".toList] ++ a.small) = _
  rw [Text.join_append small_ne_nil, join_small]
  rfl

theorem lower_question (a b : Clause) :
    (question a b).lower = spaced a.small ++ Text.join " " ("and".toList :: b.small) := by
  have hquestion : question a b = a.text ++ ' ' :: ("and".toList ++ ' ' :: b.text) := by simp [question]
  have hand : Text.lower "and" = "and".toList := by decide
  rw [hquestion, Text.lower_append_space, Text.lower_append_space, hand, join_and_small,
    ← Text.join_append_space small_ne_nil, join_small]
  simp

theorem lower_question_eq (a b : Clause) : (question a b).lower =
    spaced (a.small ++ ["and".toList]) ++ (b.column.lower ++ ' ' :: (b.phrase ++ ' ' :: b.value)) := by
  rw [lower_question, join_and_small, lower_text, Text.spaced_append]
  simp

/-- The condition that is written first is read of the whole question. -/
theorem columnCondition?_question (a b : Clause) :
    ∃ m, columnCondition? a.column (question a b).lower = some (a.condition, List.replicate m ' ') := by
  have hand := beforeAnd_join_and a.isPlain_of_mem_operands a.and_not_mem a.operands_ne_nil b.isPlain_of_mem_small
  obtain ⟨m, hm⟩ := columnCondition?_of_words a.isWord_column a.mem_operatorPhrases
    (isPlain_of_mem_operands_and b.isPlain_of_mem_small) (by simp) a.isPlain_of_mem_operands a.operands_ne_nil
    hand [] 0 fun x y hxy hy => absurd (List.append_eq_nil_iff.mp hxy.symm).2 hy
  refine ⟨m, ?_⟩
  rw [lower_question, spaced_small_append_join (List.cons_ne_nil _ _), condition, value_eq_join]
  simpa using hm

theorem columnCondition?_left (a : Clause) (n : Nat) :
    ∃ m, columnCondition? a.column (spaced (a.small ++ ["and".toList]) ++ List.replicate n ' ') =
      some (a.condition, List.replicate m ' ') := by
  have hnil : ∀ u ∈ ([] : List Text), u.IsPlain := fun _ hu => absurd hu List.not_mem_nil
  have hand := beforeAnd_join_and a.isPlain_of_mem_operands a.and_not_mem a.operands_ne_nil hnil
  obtain ⟨m, hm⟩ := columnCondition?_of_words a.isWord_column a.mem_operatorPhrases
    (isPlain_of_mem_operands_and hnil) (by simp) a.isPlain_of_mem_operands a.operands_ne_nil
    hand [] (n + 1) fun x y hxy hy => absurd (List.append_eq_nil_iff.mp hxy.symm).2 hy
  have htext : spaced (a.small ++ ["and".toList]) = spaced a.small ++ Text.join " " ["and".toList] ++ [' '] := by
    rw [Text.spaced_append, Text.join_singleton]
    simp
  refine ⟨m, ?_⟩
  rw [htext, spaced_small_append_join (List.cons_ne_nil _ _), condition, value_eq_join]
  simpa [List.replicate_succ] using hm

/-- The second condition is read of what is behind the "and", unless its column stands in the first operator phrase. -/
theorem columnCondition?_right (hcolumn : ¬ b.column.lower <:+: a.column.lower)
    (hvalue : ¬ b.column.lower <:+: a.value) (hphrase : a.phrase ≠ b.column.lower ++ " with".toList) :
    ∃ m, columnCondition? b.column (question a b).lower =
      some (b.condition, spaced (a.small ++ ["and".toList]) ++ List.replicate m ' ') := by
  have hand := beforeAnd_join b.isPlain_of_mem_operands b.and_not_mem
  obtain ⟨m, hm⟩ := columnCondition?_of_words b.isWord_column b.mem_operatorPhrases b.isPlain_of_mem_operands
    b.operands_ne_nil b.isPlain_of_mem_operands b.operands_ne_nil hand (a.small ++ ["and".toList]) 0
    fun x y hxy hy => columnPhraseAt_eq_none_of_apart hcolumn hvalue hphrase hxy hy _
  refine ⟨m, ?_⟩
  rw [lower_question_eq, condition, value_eq_join]
  simpa using hm

/-- If the second column stands in the first operator phrase, the first value is taken for the second column. -/
theorem columnCondition?_middle (hcolumn : ¬ b.column.lower <:+: a.column.lower)
    (hphrase : a.phrase = b.column.lower ++ " with".toList) :
    ∃ m, columnCondition? b.column (question a b).lower =
      some (⟨b.column, .contains, .text a.value⟩, spaced [a.column.lower] ++ List.replicate m ' ') := by
  have hwith : ("with".toList, Operator.contains) ∈ operatorPhrases := by decide
  have hand := beforeAnd_join_and a.isPlain_of_mem_operands a.and_not_mem a.operands_ne_nil b.isPlain_of_mem_small
  have hone : ∀ w ∈ [a.column.lower], w.IsPlain := by simpa using a.isWord_column.isPlain_lower
  have hfree : ∀ w ∈ [a.column.lower], ¬ b.column.lower <:+: w := by simpa using hcolumn
  obtain ⟨m, hm⟩ := columnCondition?_of_words b.isWord_column hwith
    (isPlain_of_mem_operands_and b.isPlain_of_mem_small) (by simp) a.isPlain_of_mem_operands a.operands_ne_nil
    hand [a.column.lower] 0 fun x y hxy hy => columnPhraseAt_eq_none b.isWord_column hone hfree hxy hy _
  refine ⟨m, ?_⟩
  rw [lower_question, spaced_small_append_join (List.cons_ne_nil _ _), hphrase, value_eq_join]
  simpa using hm

end Clause

theorem conditionsOn_append {front columns : List Text} {t : Text}
    (h : ∀ column ∈ front, columnCondition? column t = none) :
    conditionsOn (front ++ columns) t = conditionsOn columns t := by
  induction front with
  | nil => rfl
  | cons column front ih =>
    obtain ⟨hnone, hfront⟩ := List.forall_mem_cons.mp h
    rw [List.cons_append, conditionsOn, hnone]
    exact ih hfront

variable {columns : List Text} {x y t left : Text} {condition second : Condition}

/-- The first of two columns claims its text, and the second one is asked for what is left. -/
theorem conditionsOn_of_pair (h : [x, y].Sublist columns) (hx : columns.count x ≤ 1) (hy : columns.count y ≤ 1)
    (hfirst : columnCondition? x t = some (condition, left))
    (hother : ∀ c ∈ columns, c ≠ x → c ≠ y → columnCondition? c t = none ∧ columnCondition? c left = none) :
    ∃ rest, (∀ c ∈ rest, c ∈ columns ∧ c ≠ x ∧ c ≠ y) ∧
      conditionsOn columns t = condition :: conditionsOn (y :: rest) left := by
  obtain ⟨early, late, rfl, hxmem, hymem⟩ := List.cons_sublist_iff.mp h
  obtain ⟨front, middle, rfl⟩ := List.append_of_mem hxmem
  obtain ⟨between, rest, rfl⟩ := List.append_of_mem (List.singleton_sublist.mp hymem)
  have hnotx : x ∉ front ++ (middle ++ between) ++ rest := by
    have hle : rest.count x ≤ (y :: rest).count x := List.count_le_count_cons
    rw [← List.count_eq_zero]
    simp only [List.count_append, List.count_cons_self] at hx ⊢
    omega
  have hnoty : y ∉ front ++ (middle ++ between) ++ rest := by
    have hle : middle.count y ≤ (x :: middle).count y := List.count_le_count_cons
    rw [← List.count_eq_zero]
    simp only [List.count_append, List.count_cons_self] at hy ⊢
    omega
  have hmem : ∀ c ∈ front ++ (middle ++ between) ++ rest,
      c ∈ front ++ x :: middle ++ (between ++ y :: rest) ∧ c ≠ x ∧ c ≠ y := by
    intro c hc
    refine ⟨?_, fun heq => hnotx (heq ▸ hc), fun heq => hnoty (heq ▸ hc)⟩
    simp only [List.mem_append, List.mem_cons] at hc ⊢
    tauto
  have hnone : ∀ c ∈ front ++ (middle ++ between) ++ rest,
      columnCondition? c t = none ∧ columnCondition? c left = none := by
    intro c hc
    obtain ⟨hin, hcx, hcy⟩ := hmem c hc
    exact hother c hin hcx hcy
  refine ⟨rest, fun c hc => hmem c (List.mem_append_right _ hc), ?_⟩
  have hfront : conditionsOn (front ++ x :: middle ++ (between ++ y :: rest)) t =
      conditionsOn (x :: (middle ++ between ++ y :: rest)) t := by
    rw [List.append_assoc, List.cons_append, conditionsOn_append fun c hc => (hnone c (by simp [hc])).1,
      List.append_assoc]
  have hmiddle : conditionsOn (middle ++ between ++ y :: rest) left = conditionsOn (y :: rest) left :=
    conditionsOn_append fun c hc => (hnone c (List.mem_append_left _ (List.mem_append_right _ hc))).2
  rw [hfront, conditionsOn, hfirst]
  exact congrArg _ hmiddle

/-- In a question, the column that claims text first is followed by the other one in what it leaves. -/
theorem conditions_of_pair {q : Text} (hx : x ∈ columns) (hy : y ∈ columns) (hxone : columns.count x ≤ 1)
    (hyone : columns.count y ≤ 1) (hbefore : Field.ClaimsBefore columns x y)
    (hfirst : columnCondition? x q.lower = some (condition, left))
    (hother : ∀ c ∈ columns, c ≠ x → c ≠ y → columnCondition? c q.lower = none ∧ columnCondition? c left = none) :
    ∃ rest, (∀ c ∈ rest, c ∈ columns ∧ c ≠ x ∧ c ≠ y) ∧
      conditions columns q = condition :: conditionsOn (y :: rest) left := by
  rw [← Field.count_byLength] at hxone hyone
  obtain ⟨rest, hrest, heq⟩ := conditionsOn_of_pair (Field.pair_sublist_byLength hx hy hbefore) hxone hyone hfirst
    fun c hc => hother c (Field.mem_byLength.mp hc)
  exact ⟨rest, fun c hc => (hrest c hc).imp_left Field.mem_byLength.mp, heq⟩

theorem conditionsOn_eq_nil (h : ∀ column ∈ columns, columnCondition? column t = none) :
    conditionsOn columns t = [] := by
  rw [← List.append_nil columns, conditionsOn_append h]
  rfl

theorem columnCondition?_replicate (column : Text) (n : Nat) :
    columnCondition? column (List.replicate n ' ') = none := by
  refine columnCondition?_eq_none (t := []) (fun w hw h => ?_) n
  exact hw (List.append_eq_nil_iff.mp (List.infix_nil.mp h)).2

namespace Clause

variable {a b : Clause} {columns : List Text}

/-- Two clauses that can be told apart: the second column's name stands neither in the first one's nor in the first
value, and no other column's name stands in the question. -/
structure AreApart (columns : List Text) (a b : Clause) : Prop where
  mem_left : a.column ∈ columns
  mem_right : b.column ∈ columns
  not_infix_column : ¬ b.column.lower <:+: a.column.lower
  not_infix_value : ¬ b.column.lower <:+: a.value
  others : ∀ column ∈ columns, column ≠ a.column → column ≠ b.column → ¬ column.lower <:+: (question a b).lower

/-- No other column is asked for in what is left of the question. -/
theorem AreApart.columnCondition?_other (h : AreApart columns a b) {column : Text} (hmem : column ∈ columns)
    (hleft : column ≠ a.column) (hright : column ≠ b.column) {t : Text} (ht : t <:+: (question a b).lower) (n : Nat) :
    columnCondition? column (t ++ List.replicate n ' ') = none := by
  refine columnCondition?_eq_none (fun w _ hw => h.others column hmem hleft hright ?_) n
  have hname : column.lower <:+: column.lower ++ w := (List.prefix_append _ _).isInfix
  exact hname.trans (hw.trans ht)

theorem AreApart.columnCondition?_question_eq_none (h : AreApart columns a b) {column : Text}
    (hmem : column ∈ columns) (hleft : column ≠ a.column) (hright : column ≠ b.column) :
    columnCondition? column (question a b).lower = none := by
  have hnone := h.columnCondition?_other hmem hleft hright List.infix_rfl 0
  rwa [List.replicate_zero, List.append_nil] at hnone

/-- If the first condition is read first, it claims the whole question. -/
theorem conditions_of_claimsBefore (h : AreApart columns a b) (hleft : columns.count a.column ≤ 1)
    (hright : columns.count b.column ≤ 1) (hbefore : Field.ClaimsBefore columns a.column b.column) :
    conditions columns (question a b) = [a.condition] := by
  obtain ⟨m, hm⟩ := columnCondition?_question a b
  obtain ⟨rest, -, heq⟩ := conditions_of_pair h.mem_left h.mem_right hleft hright hbefore hm fun c hc hca hcb =>
    ⟨h.columnCondition?_question_eq_none hc hca hcb, columnCondition?_replicate c m⟩
  rw [heq, conditionsOn_eq_nil fun c _ => columnCondition?_replicate c m]

/-- If the second condition is read first, the first one is read of what is before the "and". -/
theorem conditions_of_claimsAfter (h : AreApart columns a b) (hleft : columns.count a.column ≤ 1)
    (hright : columns.count b.column ≤ 1) (hbefore : Field.ClaimsBefore columns b.column a.column)
    (hphrase : a.phrase ≠ b.column.lower ++ " with".toList) :
    conditions columns (question a b) = [b.condition, a.condition] := by
  obtain ⟨m, hm⟩ := columnCondition?_right h.not_infix_column h.not_infix_value hphrase
  obtain ⟨k, hk⟩ := columnCondition?_left a m
  have hinside : spaced (a.small ++ ["and".toList]) <:+: (question a b).lower := by
    rw [lower_question_eq]
    exact (List.prefix_append _ _).isInfix
  obtain ⟨rest, -, heq⟩ := conditions_of_pair h.mem_right h.mem_left hright hleft hbefore hm fun c hc hcb hca =>
    ⟨h.columnCondition?_question_eq_none hc hca hcb, h.columnCondition?_other hc hca hcb hinside m⟩
  rw [heq, conditionsOn, hk]
  exact congrArg (b.condition :: a.condition :: ·) (conditionsOn_eq_nil fun c _ => columnCondition?_replicate c k)

/-- If the second column is read first and stands in the first operator phrase, what is before it is lost. -/
theorem conditions_of_phrase_eq (h : AreApart columns a b) (hleft : columns.count a.column ≤ 1)
    (hright : columns.count b.column ≤ 1) (hbefore : Field.ClaimsBefore columns b.column a.column)
    (hphrase : a.phrase = b.column.lower ++ " with".toList) :
    conditions columns (question a b) = [⟨b.column, .contains, .text a.value⟩] := by
  obtain ⟨m, hm⟩ := columnCondition?_middle h.not_infix_column hphrase
  have hspaces : spaced [a.column.lower] ++ List.replicate m ' ' =
      a.column.lower ++ List.replicate (m + 1) ' ' := by
    simp [List.replicate_succ]
  rw [hspaces] at hm
  have hinside : a.column.lower <:+: (question a b).lower := by
    rw [lower_question, spaced_small_append_join (List.cons_ne_nil _ _)]
    exact (List.prefix_append _ _).isInfix
  have hlost : columnCondition? a.column (a.column.lower ++ List.replicate (m + 1) ' ') = none := by
    refine columnCondition?_eq_none (fun w hw hin => ?_) _
    have hlength := hin.length_le
    rw [List.length_append] at hlength
    have hpos := List.length_pos_of_ne_nil hw
    omega
  obtain ⟨rest, hrest, heq⟩ := conditions_of_pair h.mem_right h.mem_left hright hleft hbefore hm fun c hc hcb hca =>
    ⟨h.columnCondition?_question_eq_none hc hca hcb, h.columnCondition?_other hc hca hcb hinside (m + 1)⟩
  rw [heq, conditionsOn_eq_nil fun c hc => ?_]
  rcases List.mem_cons.mp hc with rfl | hc
  · exact hlost
  · obtain ⟨hmem, hcb, hca⟩ := hrest c hc
    exact h.columnCondition?_other hmem hca hcb hinside (m + 1)

private theorem count_column_le_one {source : Dataset} {s : Snapshot} (hs : Snapshot.build source = .ok s)
    (a : Clause) : s.columns.count a.column ≤ 1 := by
  rw [Snapshot.columns_of_build hs]
  refine Header.count_columns_le_one fun hmem => ?_
  exact absurd (a.isWord_column.letters _ hmem) (by decide)

/-- Both conditions of a question are read exactly when the second column claims text before the first one, and is not
taken for the first operator phrase. -/
theorem reads_both_iff {source : Dataset} {s : Snapshot} (hs : Snapshot.build source = .ok s)
    (h : AreApart s.columns a b) :
    (conditions s.columns (question a b)).Perm [a.condition, b.condition] ↔
      Field.ClaimsBefore s.columns b.column a.column ∧ a.phrase ≠ b.column.lower ++ " with".toList := by
  have hleft := count_column_le_one hs a
  have hright := count_column_le_one hs b
  have hne : b.column ≠ a.column := fun heq => h.not_infix_column (heq ▸ List.infix_rfl)
  have hone (lone : Condition) : ¬ [lone].Perm [a.condition, b.condition] := by
    intro hperm
    have hlength := hperm.length_eq
    simp at hlength
  constructor
  · intro hperm
    have hbefore : Field.ClaimsBefore s.columns b.column a.column := by
      refine (Field.claimsBefore_or h.mem_right h.mem_left hne).resolve_right fun hfirst => ?_
      rw [conditions_of_claimsBefore h hleft hright hfirst] at hperm
      exact hone _ hperm
    refine ⟨hbefore, fun hphrase => ?_⟩
    rw [conditions_of_phrase_eq h hleft hright hbefore hphrase] at hperm
    exact hone _ hperm
  · rintro ⟨hbefore, hphrase⟩
    rw [conditions_of_claimsAfter h hleft hright hbefore hphrase]
    exact List.Perm.swap _ _ []

def replaced : Clause where
  column := "Action"
  phrase := "starts with"
  operator := .startsWith
  words := ["Replaced"]
  isWord_column := by decide
  mem_operatorPhrases := by decide
  words_ne_nil := by decide
  isWord_of_mem := by decide
  and_not_mem := by decide
  not_infix_words := by decide

def leak : Clause where
  column := "Description"
  phrase := "contains"
  operator := .contains
  words := ["leak"]
  isWord_column := by decide
  mem_operatorPhrases := by decide
  words_ne_nil := by decide
  isWord_of_mem := by decide
  and_not_mem := by decide
  not_infix_words := by decide

theorem reads_both_replaced_leak : ∃ s,
    Snapshot.build ⟨["Action", "Description"], [.list ["Replaced valve", "Leak at the sink"]], []⟩ = .ok s ∧
      (conditions s.columns (question replaced leak)).Perm [replaced.condition, leak.condition] := by
  have hbuilds : (Snapshot.build ⟨["Action", "Description"], [.list ["Replaced valve", "Leak at the sink"]], []⟩).map
      (·.columns) = .ok ["Action", "Description"] := by decide +kernel
  obtain ⟨s, hs, hcolumns⟩ := map_eq_ok_iff.mp hbuilds
  have hapart : AreApart s.columns replaced leak := by
    rw [hcolumns]
    exact ⟨by decide, by decide, by decide, by decide, by decide⟩
  refine ⟨s, hs, (reads_both_iff hs hapart).mpr ⟨?_, by decide⟩⟩
  rw [hcolumns]
  decide

/-- With the longer name written first, the first condition claims the question, and the second one is lost. -/
theorem site_lost : ∃ s, Snapshot.build ⟨["Action", "Site"], [.list ["fixed", "North"]], []⟩ = .ok s ∧
    (conditions s.columns "Action is fixed and Site is North").map (fun p => (p.field, p.operator, p.operand.cellText)) =
      [("Action".toList, Operator.equals, "fixed".toList)] := by
  have hbuilds : (Snapshot.build ⟨["Action", "Site"], [.list ["fixed", "North"]], []⟩).map (·.columns) =
      .ok ["Action", "Site"] := by decide +kernel
  obtain ⟨s, hs, hcolumns⟩ := map_eq_ok_iff.mp hbuilds
  have horder : Field.byLength ["Action", "Site"] = ["Action", "Site"] :=
    List.mergeSort_of_pairwise (by decide)
  refine ⟨s, hs, ?_⟩
  rw [hcolumns, conditions, horder]
  decide +kernel

end Clause

end Search
end AskTable
