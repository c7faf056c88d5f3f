import AskTable.Proofs.Neighbours

/-! Small forms of words. The words of a text have their small forms each for itself, and the small form of a word
of letters and digits is again a word, without blanks, quotes or punctuation. -/
namespace AskTable

/-- Whether the first of some ascending ranges that ends behind `last` begins no later than at `first`. -/
def spansRanges (first last : Nat) : List (Nat × Nat) → Bool
  | [] => false
  | (low, high) :: rest => Nat.ble low first && (Nat.blt last high || spansRanges first last rest)

theorem inRanges_of_spansRanges {first last n : Nat} {ranges : List (Nat × Nat)}
    (h : spansRanges first last ranges = true) (hfirst : first ≤ n) (hlast : n ≤ last) :
    inRanges n ranges = true := by
  induction ranges with
  | nil => cases h
  | cons range rest ih =>
    obtain ⟨low, high⟩ := range
    simp only [spansRanges, Bool.and_eq_true, Bool.or_eq_true, Nat.ble_eq, Nat.blt_eq] at h
    rw [inRanges_cons, Bool.and_eq_true, Bool.or_eq_true, decide_eq_true_eq, decide_eq_true_eq]
    refine ⟨by omega, h.2.imp (fun hhigh => by omega) fun hrest => ih hrest⟩

private theorem exists_of_inRanges {n : Nat} {ranges : List (Nat × Nat)} (h : inRanges n ranges = true) :
    ∃ range ∈ ranges, range.1 ≤ n ∧ n < range.2 := by
  induction ranges with
  | nil => cases h
  | cons range rest ih =>
    obtain ⟨low, high⟩ := range
    rw [inRanges_cons, Bool.and_eq_true, Bool.or_eq_true, decide_eq_true_eq, decide_eq_true_eq] at h
    rcases h.2 with hhigh | hrest
    · exact ⟨(low, high), List.mem_cons_self, h.1, hhigh⟩
    · obtain ⟨range, hmem, hrange⟩ := ih hrest
      exact ⟨range, List.mem_cons_of_mem _ hmem, hrange⟩

/-- The letters of a run become ASCII letters or fall into one range of letters, if they are letters at all. -/
def CaseRun.keepsLetters (run : CaseRun) : Bool :=
  match run.first + run.shift, run.last + run.shift with
  | .ofNat first, .ofNat last =>
    (97 ≤ first && last < 123) ||
      (128 ≤ first && (last < 0xD800 || (0xDFFF < first && last < 0x110000)) && spansRanges first last wordRanges) ||
      wordRanges.all fun range => run.last < range.1 || range.2 ≤ run.first
  | _, _ => false

private theorem keepsLetters_of_mem_lowerRuns : ∀ run ∈ lowerRuns, run.keepsLetters = true := by
  decide +kernel

theorem isLetterOrDigit_of_shiftCase {n : Nat} (hn : inRanges n wordRanges = true) (hscript : 128 ≤ n)
    (hvalid : n.isValidChar) : isLetterOrDigit (Char.ofNat (shiftCase lowerRuns n)) = true := by
  have hletter {m : Nat} (hm : m.isValidChar) (h : 97 ≤ m ∧ m < 123 ∨ 128 ≤ m ∧ inRanges m wordRanges = true) :
      isLetterOrDigit (Char.ofNat m) = true := by
    have htoNat : (Char.ofNat m).toNat = m := by
      rw [Char.ofNat, dif_pos hm]
      rfl
    unfold isLetterOrDigit
    dsimp only
    rw [htoNat]
    rcases h with ⟨hlow, hhigh⟩ | ⟨hlow, hrange⟩
    · have hascii : m < 128 := by omega
      simp [hascii, hlow, hhigh]
    · have hascii : ¬ m < 128 := by omega
      simp [hascii, hrange]
  unfold shiftCase
  split
  · next run hrun =>
    have hholds := List.find?_some hrun
    have hkeeps := keepsLetters_of_mem_lowerRuns run (List.mem_of_find?_eq_some hrun)
    simp only [CaseRun.holds, Bool.and_eq_true, decide_eq_true_eq] at hholds
    unfold CaseRun.keepsLetters at hkeeps
    split at hkeeps
    · next first last hfirst hlast =>
      rw [Int.ofNat_eq_natCast] at hfirst hlast
      simp only [Bool.or_eq_true, Bool.and_eq_true, decide_eq_true_eq, List.all_eq_true] at hkeeps
      have hlow : first ≤ (n + run.shift).toNat := by omega
      have hhigh : (n + run.shift).toNat ≤ last := by omega
      rcases hkeeps with (hascii | ⟨⟨hbeyond, hplane⟩, hspans⟩) | hnone
      · exact hletter (.inl (by omega)) (.inl (by omega))
      · refine hletter ?_ (.inr ⟨by omega, inRanges_of_spansRanges hspans hlow hhigh⟩)
        rcases hplane with hlast | hplane
        · exact .inl (by omega)
        · exact .inr (by omega)
      · obtain ⟨range, hmem, hrange⟩ := exists_of_inRanges hn
        have hapart := hnone range hmem
        omega
    · cases hkeeps
  · exact hletter hvalid (.inr ⟨hscript, hn⟩)

/-- The small form of a letter is a letter, but for the dotted capital i, which keeps its dot. -/
theorem lowerChar_of_isLetterOrDigit {c : Char} (hc : isLetterOrDigit c = true) :
    (∃ d, lowerChar c = [d] ∧ isLetterOrDigit d = true) ∨ lowerChar c = ['i', Char.ofNat 0x307] := by
  by_cases hascii : c.toNat < 128
  · refine .inl ?_
    by_cases hcapital : 65 ≤ c.toNat ∧ c.toNat < 91
    · refine ⟨Char.ofNat (c.toNat + 32), by simp [lowerChar, hascii, hcapital], ?_⟩
      have hall : ∀ n < 26, isLetterOrDigit (Char.ofNat (65 + n + 32)) = true := by decide
      have hletter := hall (c.toNat - 65) (by omega)
      have hsum : 65 + (c.toNat - 65) = c.toNat := by omega
      rwa [hsum] at hletter
    · refine ⟨c, ?_, hc⟩
      simp [lowerChar, hascii]
      omega
  · by_cases hdotted : c.toNat = 0x130
    · exact .inr (by simp [lowerChar, hdotted])
    · refine .inl ⟨Char.ofNat (shiftCase lowerRuns c.toNat), by simp [lowerChar, hascii, hdotted], ?_⟩
      simp only [isLetterOrDigit, hascii, if_false] at hc
      exact isLetterOrDigit_of_shiftCase hc (by omega) c.valid

/-- Whether a run leads from a code point to a small letter: one that is no blank and that no run leads on from. -/
def CaseRun.settles (run : CaseRun) : Bool :=
  match run.first + run.shift, run.last + run.shift with
  | .ofNat first, .ofNat last =>
    Nat.ble 97 first && (Nat.blt last 0xD800 || (Nat.blt 0xDFFF first && Nat.blt last 0x110000)) &&
      (Nat.blt last 123 || Nat.ble 128 first) && (Nat.blt last 0x130 || Nat.blt 0x130 first) &&
      (Text.blankCodes.all fun n => Nat.blt n first || Nat.blt last n) &&
      lowerRuns.all fun other => Nat.blt last other.first || Nat.blt other.last first ||
        (other.step == 2 && (run.step == 2 || run.first == run.last) && (first + other.first) % 2 == 1)
  | _, _ => false

theorem settles_of_mem_lowerRuns : ∀ run ∈ lowerRuns, run.settles = true := by
  decide +kernel

/-- What a run leads to is led on by no run. -/
theorem CaseRun.holds_eq_false {run other : CaseRun} {n : Nat} (hrun : run ∈ lowerRuns) (hother : other ∈ lowerRuns)
    (hn : run.holds n = true) : other.holds (n + run.shift).toNat = false := by
  have hsettles := settles_of_mem_lowerRuns run hrun
  simp only [holds, Bool.and_eq_true, decide_eq_true_eq, beq_iff_eq] at hn
  unfold settles at hsettles
  split at hsettles
  · next first last hfirst hlast =>
    rw [Int.ofNat_eq_natCast] at hfirst hlast
    rw [Bool.and_eq_true] at hsettles
    have hapart := List.all_eq_true.mp hsettles.2 other hother
    simp only [Bool.or_eq_true, Bool.and_eq_true, Nat.blt_eq, beq_iff_eq] at hapart
    by_contra hheld
    simp only [holds, Bool.not_eq_false, Bool.and_eq_true, decide_eq_true_eq, beq_iff_eq] at hheld
    rcases hapart with (hapart | hapart) | ⟨⟨hstep, hone⟩, hparity⟩
    · omega
    · omega
    · rw [hstep] at hheld
      rcases hone with hone | hone
      · rw [hone] at hn
        omega
      · omega
  · cases hsettles

private theorem CaseRun.image_cases {run : CaseRun} {n : Nat} (hrun : run ∈ lowerRuns) (hn : run.holds n = true) :
    ∃ m : Nat, (n + run.shift).toNat = m ∧ 97 ≤ m ∧ m.isValidChar ∧ (m < 123 ∨ 128 ≤ m) ∧ m ≠ 0x130 ∧
      m ∉ Text.blankCodes := by
  have hsettles := settles_of_mem_lowerRuns run hrun
  simp only [holds, Bool.and_eq_true, decide_eq_true_eq, beq_iff_eq] at hn
  unfold settles at hsettles
  split at hsettles
  · next first last hfirst hlast =>
    rw [Int.ofNat_eq_natCast] at hfirst hlast
    simp only [Bool.and_eq_true, Bool.or_eq_true, Nat.ble_eq, Nat.blt_eq] at hsettles
    obtain ⟨⟨⟨⟨⟨hlow, hplane⟩, hascii⟩, hdotted⟩, hblank⟩, -⟩ := hsettles
    refine ⟨_, rfl, by omega, ?_, by omega, by omega, fun hmem => ?_⟩
    · rcases hplane with hplane | ⟨hplane, hmost⟩
      · exact .inl (by omega)
      · exact .inr (by omega)
    · have hout := List.all_eq_true.mp hblank _ hmem
      simp only [Bool.or_eq_true, Nat.blt_eq] at hout
      omega
  · cases hsettles

namespace Text

variable {t u w : Text} {c d : Char}

/-- What a character becomes in small form: itself, or small letters. -/
structure IsForm (c : Char) (form : Text) : Prop where
  ne_nil : form ≠ []
  settled : ∀ d ∈ form, lowerChar d = [d]
  letter : ∀ d ∈ form, d = c ∨ (97 ≤ d.toNat ∧ isBlankChar d = false)
  own : lowerChar c = [c] → form = [c]

private theorem lowerChar_of_not_holds {c : Char} (hscript : 128 ≤ c.toNat) (hdotted : c.toNat ≠ 0x130)
    (hfree : ∀ run ∈ lowerRuns, run.holds c.toNat = false) : lowerChar c = [c] := by
  have hnone : lowerRuns.find? (·.holds c.toNat) = none := List.find?_eq_none.mpr fun run hrun => by simp [hfree run hrun]
  have hascii : ¬ c.toNat < 128 := by omega
  simp [lowerChar, hascii, hdotted, shiftCase, hnone]

theorem isForm_singleton {c d : Char} (hsettled : lowerChar d = [d])
    (hletter : d = c ∨ (97 ≤ d.toNat ∧ isBlankChar d = false)) (hown : lowerChar c = [c] → [d] = [c]) :
    IsForm c [d] where
  ne_nil := List.cons_ne_nil d []
  settled := by simpa using hsettled
  letter := by simpa using hletter
  own := hown

/-- The small form of a character is its own small form. -/
theorem isForm_lowerChar (c : Char) : IsForm c (lowerChar c) := by
  by_cases hascii : c.toNat < 128
  · by_cases hcapital : 65 ≤ c.toNat ∧ c.toNat < 91
    · have hall : ∀ n < 26, lowerChar (Char.ofNat (65 + n + 32)) = [Char.ofNat (65 + n + 32)] ∧
          97 ≤ (Char.ofNat (65 + n + 32)).toNat ∧ isBlankChar (Char.ofNat (65 + n + 32)) = false := by decide
      obtain ⟨hsettled, hletter⟩ := hall (c.toNat - 65) (by omega)
      have hsum : 65 + (c.toNat - 65) + 32 = c.toNat + 32 := by omega
      rw [hsum] at hsettled hletter
      have hlower : lowerChar c = [Char.ofNat (c.toNat + 32)] := by simp [lowerChar, hascii, hcapital]
      rw [hlower]
      exact isForm_singleton hsettled (.inr hletter) (hlower ▸ id)
    · rw [lowerChar_of_ascii hascii hcapital]
      exact isForm_singleton (lowerChar_of_ascii hascii hcapital) (.inl rfl) fun _ => rfl
  · by_cases hdotted : c.toNat = 0x130
    · have hlower : lowerChar c = ['i', Char.ofNat 0x307] := by simp [lowerChar, hdotted]
      rw [hlower]
      refine ⟨by simp, by decide +kernel, fun d hd => .inr ?_, fun hown => ?_⟩
      · have hall : ∀ d ∈ ['i', Char.ofNat 0x307], 97 ≤ d.toNat ∧ isBlankChar d = false := by decide
        exact hall d hd
      · simp [hlower] at hown
    · have hlower : lowerChar c = [Char.ofNat (shiftCase lowerRuns c.toNat)] := by simp [lowerChar, hascii, hdotted]
      unfold shiftCase at hlower
      split at hlower
      · next run hrun =>
        have hmem := List.mem_of_find?_eq_some hrun
        have hheld := List.find?_some hrun
        obtain ⟨m, hm, hlow, hvalid, hrange, hplain, hblank⟩ := CaseRun.image_cases hmem hheld
        have htoNat : (Char.ofNat m).toNat = m := by
          rw [Char.ofNat, dif_pos hvalid]
          rfl
        rw [hm] at hlower
        rw [hlower]
        refine isForm_singleton ?_ (.inr ⟨by omega, ?_⟩) (hlower ▸ id)
        · rcases hrange with hsmall | hscript
          · exact lowerChar_of_ascii (by omega) (by omega)
          · refine lowerChar_of_not_holds (by omega) (by omega) fun other hother => ?_
            rw [htoNat, ← hm]
            exact CaseRun.holds_eq_false hmem hother hheld
        · by_contra hblank'
          have hcode := toNat_mem_blankCodes (eq_true_of_ne_false hblank')
          rw [htoNat] at hcode
          exact hblank hcode
      · next hnone =>
        rw [Char.ofNat_toNat] at hlower
        rw [hlower]
        exact isForm_singleton hlower (.inl rfl) fun _ => rfl

theorem isForm_formBetween (before : Text) (c : Char) (after : Text) : IsForm c (formBetween before c after) := by
  unfold formBetween
  split_ifs with hsigma
  · subst hsigma
    exact isForm_singleton (by decide +kernel) (.inr (by decide)) fun hown => absurd hown (by decide)
  · subst hsigma
    exact isForm_singleton (by decide +kernel) (.inr (by decide)) fun hown => absurd hown (by decide)
  · exact isForm_lowerChar c

theorem exists_isForm (before : Text) (c : Char) (rest : Text) :
    ∃ form, IsForm c form ∧ lowerAfter before (c :: rest) = form ++ lowerAfter (c :: before) rest :=
  ⟨_, isForm_formBetween before c rest, rfl⟩

def innerSigma (c : Char) : Char :=
  if c = 'ς' then 'σ' else c

/-- Surroundings change the small form of a text at its sigmas only. -/
theorem map_innerSigma_lowerBetween (before t after before' after' : Text) :
    (lowerBetween before t after).map innerSigma = (lowerBetween before' t after').map innerSigma := by
  induction t generalizing before before' with
  | nil => rfl
  | cons c rest ih =>
    have hfinal (b : Bool) : innerSigma (if b then 'ς' else 'σ') = 'σ' := by cases b <;> decide
    rw [lowerBetween, lowerBetween, List.map_append, List.map_append, ih (c :: before) (c :: before')]
    by_cases hsigma : c = 'Σ'
    · simp only [formBetween, if_pos hsigma, List.map_singleton, hfinal]
    · simp only [formBetween, if_neg hsigma]

/-- A character of a small form is its own small form. It was in the text, or it is a small letter. -/
theorem settled_of_mem_lowerAfter {before : Text} (hd : d ∈ lowerAfter before t) :
    lowerChar d = [d] ∧ (d ∈ t ∨ (97 ≤ d.toNat ∧ isBlankChar d = false)) := by
  induction t generalizing before with
  | nil => cases hd
  | cons c rest ih =>
    obtain ⟨form, hform, hlower⟩ := exists_isForm before c rest
    rw [hlower, List.mem_append] at hd
    rcases hd with hd | hd
    · refine ⟨hform.settled d hd, (hform.letter d hd).imp_left fun heq => ?_⟩
      rw [heq]
      exact List.mem_cons_self
    · obtain ⟨hsettled, hletter⟩ := ih hd
      exact ⟨hsettled, hletter.imp_left (List.mem_cons_of_mem c)⟩

theorem mem_of_mem_lowerAfter {before : Text} (hlow : d.toNat < 97) (hd : d ∈ lowerAfter before t) : d ∈ t := by
  obtain ⟨-, hmem | ⟨hletter, -⟩⟩ := settled_of_mem_lowerAfter hd
  · exact hmem
  · omega

private theorem map_innerSigma_eq_self (h : 'ς' ∉ t) : t.map innerSigma = t := by
  have hsame : t.map innerSigma = t.map id := by
    apply List.map_congr_left
    intro c hc
    have hc : c ≠ 'ς' := by
      rintro rfl
      exact h hc
    exact if_neg hc
  rw [hsame, List.map_id]

/-- A text without sigmas that stands in the small form of a text stands in that of each longer one. -/
theorem infix_lower_append (hfinal : 'ς' ∉ w) (hinner : 'σ' ∉ w) (h : w <:+: t.lower) (u : Text) :
    w <:+: (t ++ u).lower := by
  obtain ⟨x, y, hxy⟩ := h
  have hsplit : (lowerBetween [] t u).map innerSigma = (x ++ w ++ y).map innerSigma := by
    rw [map_innerSigma_lowerBetween [] t u [] [], lowerBetween_nil, hxy, lower]
  rw [List.map_append, List.map_append, map_innerSigma_eq_self hfinal] at hsplit
  obtain ⟨front, back, hform, hfront, -⟩ := List.map_eq_append_iff.mp hsplit
  obtain ⟨first, middle, rfl, -, hmiddle⟩ := List.map_eq_append_iff.mp hfront
  have hown : 'ς' ∉ middle := fun hmem => hinner (hmiddle ▸ List.mem_map_of_mem hmem)
  rw [map_innerSigma_eq_self hown] at hmiddle
  rw [lower, lowerAfter_append, hform, ← hmiddle]
  exact ⟨first, back ++ lowerAfter (t.reverse ++ []) u, by simp⟩

theorem lowerChar_of_mem_lower (hd : d ∈ t.lower) : lowerChar d = [d] :=
  (settled_of_mem_lowerAfter hd).1

theorem IsForm.isBlankChar_eq {form : Text} (h : IsForm c form) (hc : isBlankChar c = false) (hd : d ∈ form) :
    isBlankChar d = false := by
  rcases h.letter d hd with rfl | ⟨-, hfilled⟩
  · exact hc
  · exact hfilled

/-- Content at the front of a text is content at the front of its small form. -/
theorem exists_cons_of_lower (hc : isBlankChar c = false) (rest : Text) :
    ∃ d small, lower (c :: rest) = d :: small ∧ isBlankChar d = false := by
  obtain ⟨form, hform, hlower⟩ := exists_isForm [] c rest
  obtain ⟨d, more, rfl⟩ := List.exists_cons_of_ne_nil hform.ne_nil
  exact ⟨d, _, hlower, hform.isBlankChar_eq hc List.mem_cons_self⟩

private theorem exists_concat_of_lower (hc : isBlankChar c = false) (front : Text) :
    ∃ small d, lower (front ++ [c]) = small ++ [d] ∧ isBlankChar d = false := by
  obtain ⟨form, hform, hlower⟩ := exists_isForm (front.reverse ++ []) c []
  rcases List.eq_nil_or_concat' form with hnil | ⟨small, d, rfl⟩
  · exact absurd hnil hform.ne_nil
  · refine ⟨lowerBetween [] front [c] ++ small, d, ?_, hform.isBlankChar_eq hc (by simp)⟩
    rw [lower, lowerAfter_append, hlower, lowerAfter, List.append_nil, List.append_assoc]

/-- The small form of a text has content at its ends if the text has. -/
theorem strip_lower (h : t.strip = t) : t.lower.strip = t.lower := by
  rcases eq_or_ne t [] with rfl | hne
  · rfl
  · obtain ⟨⟨c, rest, hfront, hc⟩, front, d, hback, hd⟩ := exists_ends_of_strip h hne
    refine strip_of_ends ?_ ?_
    · rw [hfront]
      exact exists_cons_of_lower hc rest
    · rw [hback]
      exact exists_concat_of_lower hd front

/-- A sign that is no letter stands behind the first character of a small form exactly if it does so in the text. -/
theorem mem_drop_lower_iff {t : Text} {d : Char} (hlow : d.toNat < 97) (hd : lowerChar d = [d]) :
    d ∈ t.lower.drop 1 ↔ d ∈ t.drop 1 := by
  cases t with
  | nil => rfl
  | cons c rest =>
    obtain ⟨form, hform, hlower⟩ := exists_isForm [] c rest
    obtain ⟨e, more, rfl⟩ := List.exists_cons_of_ne_nil hform.ne_nil
    rw [lower, hlower]
    change d ∈ more ++ lowerAfter [c] rest ↔ d ∈ rest
    refine ⟨fun hmem => ?_, fun hmem => List.mem_append_right _ (mem_lowerAfter_of_lowerChar hd hmem _)⟩
    rcases List.mem_append.mp hmem with hmore | hrest
    · rcases hform.letter d (List.mem_cons_of_mem e hmore) with rfl | ⟨hletter, -⟩
      · obtain ⟨-, rfl⟩ := List.cons.inj (hform.own hd)
        cases hmore
      · omega
    · exact mem_of_mem_lowerAfter hlow hrest

structure IsWord (t : Text) : Prop where
  ne_nil : t ≠ []
  letters : ∀ c ∈ t, isLetterOrDigit c = true

def marks : List Char :=
  ['\'', '"', '?', '.', '!']

structure IsPlain (t : Text) : Prop where
  ne_nil : t ≠ []
  solid : IsSolid t
  unmarked : ∀ c ∈ t, c ∉ marks

theorem isWord_iff : t.IsWord ↔ t ≠ [] ∧ t.all isLetterOrDigit = true := by
  rw [List.all_eq_true]
  exact ⟨fun h => ⟨h.ne_nil, h.letters⟩, fun h => ⟨h.1, h.2⟩⟩

instance (t : Text) : Decidable t.IsWord :=
  decidable_of_iff _ isWord_iff.symm

theorem isPlain_iff : t.IsPlain ↔ t ≠ [] ∧ t.all (fun c => !isBlankChar c && !marks.contains c) = true := by
  simp only [List.all_eq_true, Bool.and_eq_true, Bool.not_eq_true', List.contains_eq_mem, decide_eq_false_iff_not]
  constructor
  · exact fun h => ⟨h.ne_nil, fun c hc => ⟨h.solid c hc, h.unmarked c hc⟩⟩
  · exact fun h => ⟨h.1, fun c hc => (h.2 c hc).1, fun c hc => (h.2 c hc).2⟩

instance (t : Text) : Decidable t.IsPlain :=
  decidable_of_iff _ isPlain_iff.symm

theorem isBlankChar_of_isLetterOrDigit (h : isLetterOrDigit c = true) : isBlankChar c = false := by
  have hall : ∀ n ∈ blankCodes, isLetterOrDigit (Char.ofNat n) = false := by decide +kernel
  by_contra hblank
  have hc := hall c.toNat (toNat_mem_blankCodes (eq_true_of_ne_false hblank))
  rw [Char.ofNat_toNat, h] at hc
  cases hc

private theorem not_mem_marks_of_isLetterOrDigit (h : isLetterOrDigit c = true) : c ∉ marks := by
  have hnone : marks.any isLetterOrDigit = false := by decide
  exact fun hc => List.any_eq_false.mp hnone c hc h

theorem lower_append_space (t u : Text) : (t ++ ' ' :: u).lower = t.lower ++ ' ' :: u.lower :=
  lower_append_cons (by decide) t u

theorem lower_join (ts : List Text) : (join " " ts).lower = join " " (ts.map lower) := by
  match ts with
  | [] => rfl
  | [t] => rfl
  | t :: u :: rest =>
    have hstep : join " " (t :: u :: rest) = t ++ ' ' :: join " " (u :: rest) := by simp [join]
    rw [hstep, lower_append_space, lower_join (u :: rest)]
    simp [join]

theorem of_mem_lowerAfter {before : Text} (ht : ∀ c ∈ t, isLetterOrDigit c = true) (hd : d ∈ lowerAfter before t) :
    isLetterOrDigit d = true ∨ d = Char.ofNat 0x307 := by
  induction t generalizing before with
  | nil => cases hd
  | cons c rest ih =>
    obtain ⟨hc, hrest⟩ := List.forall_mem_cons.mp ht
    rw [lowerAfter, List.mem_append] at hd
    rcases hd with hd | hd
    · split_ifs at hd with hsigma hfinal
      · obtain rfl := List.mem_singleton.mp hd
        exact .inl (by decide +kernel)
      · obtain rfl := List.mem_singleton.mp hd
        exact .inl (by decide +kernel)
      · rcases lowerChar_of_isLetterOrDigit hc with ⟨e, he, hletter⟩ | hdotted
        · obtain rfl := List.mem_singleton.mp (he ▸ hd)
          exact .inl hletter
        · rw [hdotted] at hd
          rcases List.mem_cons.mp hd with rfl | hd
          · exact .inl (by decide)
          · exact .inr (List.mem_singleton.mp hd)
    · exact ih hrest hd

/-- The small form of a word begins with a letter or a digit. -/
theorem IsWord.head?_lower (h : t.IsWord) : t.lower.head?.any isWordChar = true := by
  obtain ⟨c, rest, rfl⟩ := List.exists_cons_of_ne_nil h.ne_nil
  have hc := h.letters c List.mem_cons_self
  unfold lower lowerAfter
  dsimp only
  split_ifs with hsigma hfinal
  · have hword : isWordChar 'ς' = true := by decide +kernel
    exact hword
  · have hword : isWordChar 'σ' = true := by decide +kernel
    exact hword
  · rcases lowerChar_of_isLetterOrDigit hc with ⟨d, hd, hletter⟩ | hdotted
    · simp [hd, isWordChar, hletter]
    · rw [hdotted]
      rfl

theorem IsWord.isPlain_lower (h : t.IsWord) : t.lower.IsPlain where
  ne_nil hnone := by
    have hhead := h.head?_lower
    rw [hnone] at hhead
    cases hhead
  solid d hd := by
    rcases of_mem_lowerAfter h.letters hd with hletter | rfl
    · exact isBlankChar_of_isLetterOrDigit hletter
    · decide
  unmarked d hd := by
    rcases of_mem_lowerAfter h.letters hd with hletter | rfl
    · exact not_mem_marks_of_isLetterOrDigit hletter
    · decide

end Text
end AskTable
