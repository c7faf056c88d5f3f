import AskTable.Proofs.Counting
import AskTable.Proofs.Recovery
import AskTable.Proofs.SmallForm

/-! Questions with the words "how many". In any letter case and with any blanks between them the words are found, so
the question is planned as a count of what else it names. -/
namespace AskTable

/-- Only the capital letters of ASCII have another small form here. -/
theorem toLower_cases (c : Char) :
    c.toLower = c ∨ (65 ≤ c.toNat ∧ c.toNat ≤ 90 ∧ c.toLower.toNat = c.toNat + 32) := by
  by_cases hcapital : 'A'.val ≤ c.val ∧ c.val ≤ 'Z'.val
  · have hlow : 65 ≤ c.val.toNat := UInt32.le_iff_toNat_le.mp hcapital.1
    have hhigh : c.val.toNat ≤ 90 := UInt32.le_iff_toNat_le.mp hcapital.2
    refine .inr ⟨hlow, hhigh, ?_⟩
    have hsmall : c.toLower.toNat = (c.val + 32).toNat := congrArg Char.toNat (dif_pos hcapital)
    rw [hsmall, UInt32.toNat_add]
    exact Nat.mod_eq_of_lt (by change c.val.toNat + 32 < 4294967296; omega)
  · exact .inl (dif_neg hcapital)

private theorem isLetterOrDigit_of_toLower {c : Char} (h : c.toLower.isLower = true) : isLetterOrDigit c = true := by
  have hrange : 97 ≤ c.toLower.toNat ∧ c.toLower.toNat ≤ 122 := by
    obtain ⟨hlow, hhigh⟩ := Bool.and_eq_true_iff.mp h
    exact ⟨UInt32.le_iff_toNat_le.mp (of_decide_eq_true hlow), UInt32.le_iff_toNat_le.mp (of_decide_eq_true hhigh)⟩
  unfold isLetterOrDigit
  dsimp only
  rcases toLower_cases c with heq | ⟨hlow, hhigh, -⟩
  · rw [heq] at hrange
    rw [if_pos (by omega)]
    simp
    omega
  · rw [if_pos (by omega)]
    simp
    omega

theorem isLetterOrDigit_of_map_toLower {w t : Text} (h : w.map Char.toLower = t) (ht : t.all Char.isLower = true) :
    ∀ c ∈ w, isLetterOrDigit c = true := by
  subst h
  intro c hc
  exact isLetterOrDigit_of_toLower (List.all_eq_true.mp ht _ (List.mem_map_of_mem hc))

namespace Pattern

variable {t w gaps : Text}

private theorem mem_ends_gap_append (hne : gaps ≠ []) (hgaps : ∀ c ∈ gaps, isBlankChar c = true) (before rest : Text) :
    ⟨gaps.reverse ++ before, rest⟩ ∈ gap.ends ⟨before, gaps ++ rest⟩ := by
  obtain ⟨c, blanks, rfl⟩ := List.exists_cons_of_ne_nil hne
  obtain ⟨hc, hblanks⟩ := List.forall_mem_cons.mp hgaps
  have hrun := mem_overRun hblanks (c :: before) rest
  rw [List.reverse_cons, List.append_assoc]
  exact mem_ends_seq_iff.mpr ⟨⟨c :: before, blanks ++ rest⟩, mem_ends_one_iff.mpr ⟨c, _, rfl, hc, rfl⟩,
    List.mem_reverse.mpr hrun⟩

private theorem sameLetter_toLower (c : Char) : sameLetter c.toLower c = true := by
  rcases toLower_cases c with heq | ⟨hlow, hhigh, hsmall⟩
  · simp [sameLetter, heq]
  · have hcapital : 65 ≤ c.toNat ∧ c.toNat < 91 := ⟨hlow, by omega⟩
    simp [sameLetter, hsmall, hcapital]

/-- A word of letters is found in any letter case. -/
theorem mem_ends_word (h : w.map Char.toLower = t) (before rest : Text) :
    ⟨w.reverse ++ before, rest⟩ ∈ (word t).ends ⟨before, w ++ rest⟩ := by
  subst h
  induction w generalizing before with
  | nil => exact List.mem_singleton.mpr rfl
  | cons c w ih =>
    have hrest := ih (c :: before)
    rw [List.reverse_cons, List.append_assoc]
    exact mem_ends_seq_iff.mpr ⟨⟨c :: before, w ++ rest⟩,
      mem_ends_one_iff.mpr ⟨c, _, rfl, sameLetter_toLower c, rfl⟩, hrest⟩

end Pattern

section Ends

variable {α : Type} {p q : α → Bool} {l : List α}

theorem any_head?_rdropWhile (h : l.head?.any q = false) : (l.rdropWhile p).head?.any q = false := by
  cases hrest : l.rdropWhile p with
  | nil => rfl
  | cons a rest =>
    obtain ⟨back, hback⟩ := List.rdropWhile_prefix p l
    rw [hrest] at hback
    rw [← hback] at h
    exact h

private theorem any_getLast?_dropWhile (h : l.getLast?.any q = false) : (l.dropWhile p).getLast?.any q = false := by
  rw [← List.head?_reverse] at h ⊢
  have hback := any_head?_rdropWhile (p := p) h
  rwa [List.rdropWhile, List.reverse_reverse] at hback

end Ends

namespace Question

/-- A question with the words "how many" in it, in any letter case and with blanks of any kind between them. -/
structure HowMany where
  before : Text
  how : Text
  blanks : Text
  many : Text
  after : Text
  map_how : how.map Char.toLower = "how"
  map_many : many.map Char.toLower = "many"
  blanks_ne_nil : blanks ≠ []
  isBlankChar_of_mem : ∀ c ∈ blanks, isBlankChar c = true
  before_free : before.getLast?.any isWordChar = false
  after_free : after.head?.any isWordChar = false

namespace HowMany

def phrase (h : HowMany) : Text :=
  h.how ++ (h.blanks ++ h.many)

def question (h : HowMany) : Text :=
  h.before ++ h.phrase ++ h.after

variable (h : HowMany)

theorem exists_how : ∃ c rest, h.how = c :: rest ∧ isLetterOrDigit c = true := by
  have hletters := isLetterOrDigit_of_map_toLower h.map_how (by decide)
  cases hhow : h.how with
  | nil => exact absurd (hhow ▸ h.map_how) (by decide)
  | cons c rest => exact ⟨c, rest, rfl, hletters c (by simp [hhow])⟩

theorem exists_many : ∃ rest c, h.many = rest ++ [c] ∧ isLetterOrDigit c = true := by
  have hletters := isLetterOrDigit_of_map_toLower h.map_many (by decide)
  rcases List.eq_nil_or_concat' h.many with hmany | ⟨rest, c, hmany⟩
  · exact absurd (hmany ▸ h.map_many) (by decide)
  · exact ⟨rest, c, hmany, hletters c (by simp [hmany])⟩

theorem phrase_ne_nil : h.phrase ≠ [] := by
  simp [phrase, h.blanks_ne_nil]

def stripped : HowMany :=
  { h with
    before := h.before.dropWhile isBlankChar
    after := h.after.rdropWhile isBlankChar
    before_free := any_getLast?_dropWhile h.before_free
    after_free := any_head?_rdropWhile h.after_free }

theorem question_stripped : h.stripped.question = h.question.strip := by
  obtain ⟨c, front, hhow, hc⟩ := h.exists_how
  obtain ⟨back, d, hmany, hd⟩ := h.exists_many
  refine (Text.strip_around h.phrase_ne_nil ?_ ?_ h.before h.after).symm
  · simpa [phrase, hhow] using Text.isBlankChar_of_isLetterOrDigit hc
  · have hlast : h.phrase.getLast? = some d := by simp [phrase, hmany, ← List.append_assoc]
    simpa [hlast] using Text.isBlankChar_of_isLetterOrDigit hd

private theorem strip_ne_nil : h.question.strip ≠ [] := by
  rw [← question_stripped, question]
  simp [phrase_ne_nil]

private theorem mem_ends : ∃ b, b ∈ (row ["how", "many"]).ends ⟨h.before.reverse, h.phrase ++ h.after⟩ := by
  obtain ⟨c, front, hhow, hc⟩ := h.exists_how
  obtain ⟨back, d, hmany, hd⟩ := h.exists_many
  let behind : Text := h.blanks.reverse ++ (h.how.reverse ++ h.before.reverse)
  have hwords : ⟨h.many.reverse ++ behind, h.after⟩ ∈
      (Pattern.inRow ["how", "many"]).ends ⟨h.before.reverse, h.phrase ++ h.after⟩ := by
    have hfirst := Pattern.mem_ends_word h.map_how h.before.reverse (h.blanks ++ (h.many ++ h.after))
    have hgap := Pattern.mem_ends_gap_append h.blanks_ne_nil h.isBlankChar_of_mem (h.how.reverse ++ h.before.reverse)
      (h.many ++ h.after)
    have hsecond := Pattern.mem_ends_word h.map_many behind h.after
    refine Pattern.mem_ends_seq_iff.mpr ⟨_, ?_, Pattern.mem_ends_seq_iff.mpr ⟨_, hgap, hsecond⟩⟩
    simpa [phrase] using hfirst
  have hfront : Cursor.atWordEdge ⟨h.before.reverse, h.phrase ++ h.after⟩ = true := by
    simp [Cursor.atWordEdge, h.before_free, phrase, hhow, isWordChar, hc]
  have hback : Cursor.atWordEdge ⟨h.many.reverse ++ behind, h.after⟩ = true := by
    simp [Cursor.atWordEdge, h.after_free, hmany, isWordChar, hd]
  have hend := Pattern.mem_ends_seq_iff.mpr ⟨_, hwords, Pattern.mem_ends_edge_iff.mpr ⟨hback, rfl⟩⟩
  exact ⟨_, Pattern.mem_ends_seq_iff.mpr ⟨_, Pattern.mem_ends_edge_iff.mpr ⟨hfront, rfl⟩, hend⟩⟩

theorem asksCount : asksCount h.question = true := by
  obtain ⟨b, hb⟩ := h.mem_ends
  have hoccurs := Pattern.occursIn_of_mem_ends hb
  rw [← List.append_assoc] at hoccurs
  exact List.any_eq_true.mpr ⟨_, List.mem_cons_self, hoccurs⟩

end HowMany

end Question

namespace Rule

open Question (HowMany)

theorem filters_under {conditions : List Condition} (hne : conditions ≠ [])
    (hnames : ∀ c ∈ conditions, c.field.IsName) (intent : Intent) :
    (Plan.under intent conditions).intent = intent ∧ (Plan.under intent conditions).filters ≠ [] ∧
      ∀ f ∈ (Plan.under intent conditions).filters,
        f.operator?.isSome = true ∧ ∃ field : Text, f.field = .text field ∧ field.IsName := by
  refine ⟨rfl, by simpa [Plan.under] using hne, fun f hf => ?_⟩
  obtain ⟨c, hc, rfl⟩ := List.mem_map.mp hf
  exact ⟨by rw [c.operator?_toFilter, Option.isSome_some], c.field, rfl, hnames c hc⟩

/-- A question with the words "how many" is planned as a count, whatever else it says and whatever it is asked of. It
has a filter, and every filter has a field and an operator that is known. -/
theorem find?_howMany {s : Option Snapshot} (hs : ∀ loaded ∈ s, ∃ source, Snapshot.build source = .ok loaded)
    (h : HowMany) :
    ∃ p, find? h.question s = .ok (some (.count, p)) ∧ p.intent = .count ∧ p.filters ≠ [] ∧
      ∀ f ∈ p.filters, f.operator?.isSome = true ∧ ∃ field : Text, f.field = .text field ∧ field.IsName := by
  have hcount : Question.asksCount h.question.strip = true := by
    rw [← h.question_stripped]
    exact h.stripped.asksCount
  have hnames : ∀ loaded ∈ s, ∀ column ∈ loaded.columns, column.IsName := by
    intro loaded hloaded column hcolumn
    obtain ⟨source, hsource⟩ := hs loaded hloaded
    exact Snapshot.isName_of_build hsource hcolumn
  have hfilters := filters_under (Question.countConditions_ne_nil h.question.strip s)
    (fun c hc => Question.isName_of_mem_countConditions hnames hc) .count
  exact ⟨_, find?_of_asksCount hcount h.strip_ne_nil, hfilters⟩

def sawCount : HowMany where
  before := "At the North site, "
  how := "How"
  blanks := " \n"
  many := "MANY"
  after := " 'saw' tools with ID A-7 in May?"
  map_how := by decide
  map_many := by decide
  blanks_ne_nil := by decide
  isBlankChar_of_mem := by decide
  before_free := by decide
  after_free := by decide

theorem find?_sawCount : ∃ s p, Snapshot.build tools = .ok s ∧ find? sawCount.question (some s) = .ok (some (.count, p)) ∧
    p.intent = .count ∧ p.filters ≠ [] ∧
      ∀ f ∈ p.filters, f.operator?.isSome = true ∧ ∃ field : Text, f.field = .text field ∧ field.IsName := by
  have hbuilds : (Snapshot.build tools).map (·.columns) = .ok ["Number", "Tool"] := by decide +kernel
  obtain ⟨s, hs, -⟩ := map_eq_ok_iff.mp hbuilds
  have hloaded : ∀ loaded ∈ some s, ∃ source, Snapshot.build source = .ok loaded := by
    rintro loaded ⟨⟩
    exact ⟨tools, hs⟩
  obtain ⟨p, hp⟩ := find?_howMany hloaded sawCount
  exact ⟨s, p, hs, hp⟩

end Rule
end AskTable
