import AskTable.Proofs.HowMany
import AskTable.Proofs.Separators

/-! The question for the details of a number. It is planned as a lookup, and as one of the number itself if this is
written in digits of ASCII. -/
namespace AskTable

namespace Pattern

variable {p q : Pattern} {a : Cursor} {l : Char} {t w u v rest : Text}

def LeadsWith (l : Char) (p : Pattern) : Prop :=
  ∀ a, ∀ b ∈ p.ends a, a.after.head?.any (sameLetter l) = true

/-- A phrase begins with a word that begins with a letter in either case. -/
def BeginsWith (l : Char) (p : Pattern) : Prop :=
  ∀ a, ∀ b ∈ p.ends a, a.atWordEdge = true ∧ a.after.head?.any (sameLetter l) = true

theorem leadsWith_word (h : t.head? = some l) : LeadsWith l (word t) := by
  obtain ⟨rest, rfl⟩ := List.head?_eq_some_iff.mp h
  intro a b hb
  obtain ⟨m, hm, -⟩ := mem_ends_seq_iff.mp hb
  obtain ⟨c, rest, hafter, hc, -⟩ := mem_ends_one_iff.mp hm
  rw [hafter]
  exact hc

theorem LeadsWith.seq (hp : p.LeadsWith l) : LeadsWith l (seq p q) := by
  intro a b hb
  obtain ⟨m, hm, -⟩ := mem_ends_seq_iff.mp hb
  exact hp a m hm

theorem LeadsWith.beginsWith (hp : p.LeadsWith l) : BeginsWith l (.seq edge p) := by
  intro a b hb
  obtain ⟨m, hm, hfirst⟩ := mem_ends_seq_iff.mp hb
  obtain ⟨hedge, rfl⟩ := mem_ends_edge_iff.mp hm
  exact ⟨hedge, hp m b hfirst⟩

theorem LeadsWith.ends_eq_nil (hp : p.LeadsWith l) (h : a.after.head?.any (sameLetter l) = false) : p.ends a = [] := by
  refine List.eq_nil_iff_forall_not_mem.mpr fun b hb => ?_
  rw [hp a b hb] at h
  cases h

private theorem BeginsWith.leadsWith (hp : p.BeginsWith l) : p.LeadsWith l :=
  fun a b hb => (hp a b hb).2

def isFreeOf (l : Char) (t : Text) : Bool :=
  (Cursor.all t).all fun a => !(a.atWordEdge && a.after.head?.any (sameLetter l))

/-- Where no word begins with the letter of a phrase there is no phrase, whatever follows. -/
theorem BeginsWith.ends_eq_nil (hp : p.BeginsWith l) (hfree : isFreeOf l (u ++ v) = true) (hv : v ≠ []) :
    p.ends ⟨u.reverse, v ++ rest⟩ = [] := by
  refine List.eq_nil_iff_forall_not_mem.mpr fun b hb => ?_
  obtain ⟨c, v, rfl⟩ := List.exists_cons_of_ne_nil hv
  have hnone := List.all_eq_true.mp hfree _ (Cursor.mem_all u (c :: v))
  obtain ⟨hedge, hletter⟩ := hp _ b hb
  have hedge : Cursor.atWordEdge ⟨u.reverse, c :: v⟩ = true := hedge
  have hletter : sameLetter l c = true := by simpa using hletter
  simp [hedge, hletter] at hnone

/-- Behind a text in which no word begins with the letter of a phrase, there is no phrase in characters that are not the
letter. -/
theorem BeginsWith.occursIn_eq_false (hp : p.BeginsWith l) (hfree : isFreeOf l t = true)
    (hw : ∀ c ∈ w, sameLetter l c = false) : p.occursIn (t ++ w) = false := by
  have hback {x y : Text} (hy : y <:+ w) : p.ends ⟨x, y⟩ = [] := by
    refine hp.leadsWith.ends_eq_nil (Bool.eq_false_iff.mpr fun hletter => ?_)
    obtain ⟨c, hc, hletter⟩ := (Option.any_eq_true _ _).mp hletter
    rw [hw c (hy.subset (List.mem_of_mem_head? hc))] at hletter
    cases hletter
  by_contra hoccurs
  obtain ⟨x, y, b, hxy, hb⟩ := occursIn_iff.mp (eq_true_of_ne_false hoccurs)
  refine List.ne_nil_of_mem hb ?_
  rcases List.append_eq_append_iff.mp hxy with ⟨m, rfl, hm⟩ | ⟨m, rfl, rfl⟩
  · exact hback ⟨m, hm.symm⟩
  · by_cases hempty : m = []
    · rw [hempty]
      exact hback List.suffix_rfl
    · exact hp.ends_eq_nil hfree hempty

end Pattern

namespace Question

variable {n : Text} {c : Char}

def detailsQuestion (n : Text) : Text :=
  "Show details for MMT " ++ n

/-- A digit beyond ASCII stands behind the dotted and the dotless i and the long s, and is not the kelvin sign. -/
theorem toNat_of_isDigitChar (h : isDigitChar c = true) :
    48 ≤ c.toNat ∧ c.toNat < 58 ∨ 0x17F < c.toNat ∧ c.toNat ≠ 0x212A := by
  obtain ⟨d, hd⟩ := Option.isSome_iff_exists.mp h
  obtain ⟨hten, first, hfirst, hcode⟩ := Text.exists_zero_of_digitValue? hd
  obtain ⟨hascii, -, hkelvin, -⟩ := Text.apart_of_mem_zeros first hfirst
  omega

/-- No digit of any script is a form of a letter. -/
theorem sameLetter_of_isDigitChar {l : Char} (hl : 97 ≤ l.toNat ∧ l.toNat < 123) (h : isDigitChar c = true) :
    Pattern.sameLetter l c = false := by
  have hcode := toNat_of_isDigitChar h
  rw [Bool.eq_false_iff]
  intro hsame
  simp only [Pattern.sameLetter, Bool.or_eq_true, Bool.and_eq_true, beq_iff_eq, decide_eq_true_eq] at hsame
  rcases hsame with (((rfl | hcapital) | hdotted) | hlong) | hkelvin
  all_goals omega

theorem isDigitChar_of_isAsciiDigit (h : isAsciiDigit c = true) : isDigitChar c = true :=
  Text.digitValue?_of_isAsciiDigit h

private theorem isIdentifierChar_of_isAsciiDigit (h : isAsciiDigit c = true) : isIdentifierChar c = true := by
  have hall : ∀ d ∈ Text.plainDigits, isIdentifierChar d = true := by decide
  exact hall c (Text.mem_plainDigits_of_isAsciiDigit h)

theorem not_mem_of_isDigitChar {marks : Text} (hmarks : ∀ d ∈ marks, isDigitChar d = false) (h : isDigitChar c = true) :
    c ∉ marks := by
  intro hc
  rw [hmarks c hc] at h
  cases h

theorem isSolid_of_isDigitChar (h : ∀ c ∈ n, isDigitChar c = true) : n.IsSolid := by
  intro c hc
  by_contra hblank
  have hdigit := h c hc
  rw [isDigitChar, Text.digitValue?_of_isBlankChar (eq_true_of_ne_false hblank)] at hdigit
  cases hdigit

private theorem strip_detailsQuestion (hne : n ≠ []) (h : ∀ c ∈ n, isDigitChar c = true) :
    (detailsQuestion n).strip = detailsQuestion n :=
  Text.strip_append_of_isSolid (by decide) (by decide) (isSolid_of_isDigitChar h) hne

/-- Each phrase that asks how many begins with one of four letters. -/
theorem beginsWith_of_mem_countPhrases : ∀ p ∈ countPhrases, ∃ l ∈ ['c', 'h', 'n', 't'], p.BeginsWith l := by
  have hword (l : Char) (w : Text) (hw : w.head? = some l) : (Pattern.word w).LeadsWith l := Pattern.leadsWith_word hw
  simp only [countPhrases, List.forall_mem_cons]
  refine ⟨⟨'h', by simp, ?_⟩, ⟨'c', by simp, ?_⟩, ⟨'n', by simp, ?_⟩, ⟨'t', by simp, ?_⟩, by simp⟩
  · exact (hword 'h' "how" rfl).seq.seq.beginsWith
  · exact (hword 'c' "count" rfl).seq.beginsWith
  · exact (hword 'n' "number" rfl).seq.seq.beginsWith
  · exact (hword 't' "total" rfl).seq.beginsWith

private theorem asksCount_detailsQuestion (h : ∀ c ∈ n, isDigitChar c = true) :
    asksCount (detailsQuestion n) = false := by
  have hfree : ∀ l ∈ ['c', 'h', 'n', 't'], Pattern.isFreeOf l "Show details for MMT " = true := by decide
  refine List.any_eq_false.mpr fun p hp => ?_
  obtain ⟨l, hl, hbegins⟩ := beginsWith_of_mem_countPhrases p hp
  have hletters : ∀ l ∈ ['c', 'h', 'n', 't'], 97 ≤ l.toNat ∧ l.toNat < 123 := by decide
  rw [Bool.not_eq_true]
  exact hbegins.occursIn_eq_false (hfree l hl) fun c hc => sameLetter_of_isDigitChar (hletters l hl) (h c hc)

def opening : Pattern :=
  .edge >> (Pattern.word "mmt" >> .space >>
    .maybe (.anyOf [.word "no" >> .maybe (.exactly "."), .word "number", .exactly "#"]) >> .space >>
    .maybe (.one fun c => c == ':' || c == '#') >> .space)

def body : Pattern :=
  .most isIdentifierChar >> digit >> .most isIdentifierChar

theorem identifier?_eq (q : Text) :
    identifier? q = (Pattern.findPart? opening body .done q).map (Text.trim (· == '-')) := rfl

private theorem beginsWith_opening : opening.BeginsWith 'm' := by
  have hword : (Pattern.word "mmt").LeadsWith 'm' := Pattern.leadsWith_word rfl
  exact hword.seq.beginsWith

/-- Before the digits of a number, the opening takes all of the label. -/
theorem end?_opening (hne : n ≠ []) (h : ∀ c ∈ n, isDigitChar c = true) :
    opening.end? ⟨("Show details for " : Text).reverse, ("MMT " : Text) ++ n⟩ =
      some ⟨("Show details for MMT " : Text).reverse, n⟩ := by
  obtain ⟨c, rest, rfl⟩ := List.exists_cons_of_ne_nil hne
  have hmarks : c ∉ ['#', ':'] := not_mem_of_isDigitChar (by decide) (h c List.mem_cons_self)
  have hn : Pattern.sameLetter 'n' c = false := sameLetter_of_isDigitChar (by decide) (h c List.mem_cons_self)
  have hblank : isBlankChar c = false := isSolid_of_isDigitChar h c List.mem_cons_self
  simp only [List.mem_cons, List.not_mem_nil, or_false, not_or] at hmarks
  obtain ⟨hhash, hcolon⟩ := hmarks
  let here : Cursor := ⟨("Show details for MMT " : Text).reverse, c :: rest⟩
  have hstay : Pattern.space.end? here = some here :=
    Pattern.end?_most_append (w := []) (by simp) (by simpa using hblank) _
  have hlabel : (Pattern.maybe (.anyOf [.word "no" >> .maybe (.exactly "."), .word "number", .exactly "#"])).end? here =
      some here := by
    have hfront : here.after.head?.any (Pattern.sameLetter 'n') = false := by simpa [here] using hn
    have hno : (Pattern.word "no" >> .maybe (.exactly ".")).ends here = [] :=
      (Pattern.leadsWith_word (l := 'n') rfl).seq.ends_eq_nil hfront
    have hnumber : (Pattern.word "number").ends here = [] := (Pattern.leadsWith_word rfl).ends_eq_nil hfront
    have hsharp : (Pattern.exactly "#").ends here = [] := by simp [Pattern.exactly, Pattern.ends, here, hhash]
    apply Pattern.end?_maybe_of_ends_eq_nil
    apply Pattern.ends_anyOf_eq_nil
    simp only [List.forall_mem_cons]
    exact ⟨hno, hnumber, hsharp, by simp⟩
  have hmark : (Pattern.maybe (.one fun c => c == ':' || c == '#')).end? here = some here := by
    apply Pattern.end?_maybe_of_ends_eq_nil
    simp [Pattern.ends, here, hhash, hcolon]
  have hspace : Pattern.space.end? ⟨("Show details for MMT" : Text).reverse, ' ' :: c :: rest⟩ = some here :=
    Pattern.end?_most_append (w := [' ']) (by decide) (by simpa using hblank) _
  have hword : (Pattern.word "mmt").end? ⟨("Show details for " : Text).reverse, ("MMT " : Text) ++ c :: rest⟩ =
      some ⟨("Show details for MMT" : Text).reverse, ' ' :: c :: rest⟩ := rfl
  have hedge : Pattern.edge.end? ⟨("Show details for " : Text).reverse, ("MMT " : Text) ++ c :: rest⟩ =
      some ⟨("Show details for " : Text).reverse, ("MMT " : Text) ++ c :: rest⟩ := rfl
  have hmarked := Pattern.end?_seq_of_end? hlabel (Pattern.end?_seq_of_end? hstay (Pattern.end?_seq_of_end? hmark hstay))
  exact Pattern.end?_seq_of_end? hedge (Pattern.end?_seq_of_end? hword (Pattern.end?_seq_of_end? hspace hmarked))

/-- The first run of an identifier takes all digits of ASCII and gives the last one back. -/
theorem end?_body (hne : n ≠ []) (h : ∀ c ∈ n, isAsciiDigit c = true) (before : Text) :
    body.end? ⟨before, n⟩ = some ⟨n.reverse ++ before, []⟩ := by
  obtain ⟨front, d, rfl⟩ := (List.eq_nil_or_concat' n).resolve_left hne
  have hall : ∀ c ∈ front ++ [d], isIdentifierChar c = true := fun c hc => isIdentifierChar_of_isAsciiDigit (h c hc)
  have hd : isIdentifierChar d = true := hall d (by simp)
  have hdigit : isDigitChar d = true := isDigitChar_of_isAsciiDigit (h d (by simp))
  obtain ⟨shorter, hshorter⟩ := Pattern.exists_overRun_append (fun c hc => hall c (List.mem_append_left _ hc)) before [d]
  have hends : (Pattern.most isIdentifierChar).ends ⟨before, front ++ [d]⟩ =
      ⟨d :: (front.reverse ++ before), []⟩ :: ⟨front.reverse ++ before, [d]⟩ :: shorter.reverse := by
    change (Cursor.overRun isIdentifierChar before (front ++ [d])).reverse = _
    rw [hshorter]
    simp [Cursor.overRun, hd]
  have hstep : digit.end? ⟨front.reverse ++ before, [d]⟩ = some ⟨d :: (front.reverse ++ before), []⟩ := by
    simp [digit, Pattern.end?, Pattern.ends, hdigit]
  have hempty : (Pattern.most isIdentifierChar).end? ⟨d :: (front.reverse ++ before), []⟩ =
      some ⟨d :: (front.reverse ++ before), []⟩ := rfl
  change (Pattern.seq _ (Pattern.seq digit _)).end? _ = _
  rw [Pattern.end?_seq, hends, List.findSome?_cons, List.findSome?_cons, Pattern.end?_seq_of_end? hstep hempty]
  simp [Pattern.end?, Pattern.ends, digit]

theorem detailsQuestion_eq (n : Text) : detailsQuestion n = ("Show details for " : Text) ++ (("MMT " : Text) ++ n) := by
  have hlabel : ("Show details for MMT " : Text) = ("Show details for " : Text) ++ ("MMT " : Text) := by simp
  exact (congrArg (· ++ n) hlabel).trans (List.append_assoc _ _ _)

/-- The question for the details of a number in digits of ASCII asks for that number. -/
theorem identifier?_detailsQuestion (hne : n ≠ []) (h : ∀ c ∈ n, isAsciiDigit c = true) :
    identifier? (detailsQuestion n) = some n := by
  have hdigits : ∀ c ∈ n, isDigitChar c = true := fun c hc => isDigitChar_of_isAsciiDigit (h c hc)
  have hfree : Pattern.isFreeOf 'm' "Show details for " = true := by decide
  have hfound : Pattern.findPart? opening body .done (detailsQuestion n) = some n := by
    rw [detailsQuestion_eq, Pattern.findPart?, Cursor.all]
    refine Cursor.findSome?_allFrom [] (fun u v huv hv => ?_) ?_
    · rw [huv] at hfree
      have hends : opening.ends ⟨u.reverse ++ [], v ++ (("MMT " : Text) ++ n)⟩ = [] := by
        rw [List.append_nil]
        exact beginsWith_opening.ends_eq_nil hfree hv
      rw [Pattern.partAt?, hends]
      rfl
    · have hdone (b : Cursor) : Pattern.done.end? b = some b := rfl
      have hpart := Pattern.partAt?_of_end? (end?_opening hne hdigits)
        (end?_body hne h ("Show details for MMT " : Text).reverse) (hdone _)
      rw [Cursor.textTo_append] at hpart
      rw [List.append_nil, hpart]
      rfl
  have hdash : ∀ c ∈ n, (c == '-') = false := fun c hc => by
    have hmark : c ∉ ['-'] := not_mem_of_isDigitChar (by decide) (hdigits c hc)
    simpa using hmark
  rw [identifier?_eq, hfound, Option.map_some, Text.trim_eq_self hdash]

/-- Whatever the digits of the number, the question asks for something. -/
theorem exists_identifier?_detailsQuestion (hne : n ≠ []) (h : ∀ c ∈ n, isDigitChar c = true) :
    ∃ t, identifier? (detailsQuestion n) = some t := by
  obtain ⟨d, rest, rfl⟩ := List.exists_cons_of_ne_nil hne
  have hrun (before after : Text) : ⟨before, after⟩ ∈ (Pattern.most isIdentifierChar).ends ⟨before, after⟩ :=
    List.mem_reverse.mpr (Pattern.mem_overRun (w := []) (by simp) before after)
  have hdigit : (⟨d :: ("Show details for MMT " : Text).reverse, rest⟩ : Cursor) ∈
      digit.ends ⟨("Show details for MMT " : Text).reverse, d :: rest⟩ := by
    simp [digit, Pattern.ends, h d List.mem_cons_self]
  have hbody := Pattern.mem_ends_seq_iff.mpr ⟨_, hrun _ _, Pattern.mem_ends_seq_iff.mpr ⟨_, hdigit, hrun _ _⟩⟩
  have hopening := Pattern.mem_ends_of_end? (end?_opening hne h)
  have hdone (b : Cursor) : b ∈ Pattern.done.ends b := List.mem_singleton_self b
  have hends := Pattern.mem_ends_seq_iff.mpr ⟨_, hopening, Pattern.mem_ends_seq_iff.mpr ⟨_, hbody, hdone _⟩⟩
  have hfound : (Pattern.findPart? opening body .done (detailsQuestion (d :: rest))).isSome = true := by
    rw [detailsQuestion_eq]
    exact Pattern.findPart?_isSome_iff.mpr (Pattern.occursIn_of_mem_ends hends)
  obtain ⟨part, hpart⟩ := Option.isSome_iff_exists.mp hfound
  exact ⟨part.trim (· == '-'), by rw [identifier?_eq, hpart, Option.map_some]⟩

end Question

namespace Rule

variable {n t : Text}

theorem find?_of_identifier (hne : n ≠ []) (h : ∀ c ∈ n, isDigitChar c = true)
    (ht : Question.identifier? (Question.detailsQuestion n) = some t) (s : Option Snapshot) :
    find? (Question.detailsQuestion n) s =
      .ok (some (.identifierLookup, Plan.under .details [Question.identifierCondition t])) := by
  have hplan : identifierLookup.plan? (Question.detailsQuestion n) s =
      .ok (some (Plan.under .details [Question.identifierCondition t])) := by
    rw [plan?, Question.asksCount_detailsQuestion h, ht]
    rfl
  have hfilled : (Question.detailsQuestion n).isEmpty = false := rfl
  unfold find?
  rw [Question.strip_detailsQuestion hne h]
  dsimp only
  rw [hfilled]
  exact bind_eq_ok_iff.mpr ⟨_, hplan, rfl⟩

/-- The question for the details of a number is planned as a lookup, of the number itself if its digits are of
ASCII. -/
theorem find?_detailsQuestion (hne : n ≠ []) (h : ∀ c ∈ n, isDigitChar c = true) (s : Option Snapshot) :
    ∃ t, find? (Question.detailsQuestion n) s =
        .ok (some (.identifierLookup, Plan.under .details [Question.identifierCondition t])) ∧
      ((∀ c ∈ n, isAsciiDigit c = true) → t = n) := by
  by_cases hascii : ∀ c ∈ n, isAsciiDigit c = true
  · exact ⟨n, find?_of_identifier hne h (Question.identifier?_detailsQuestion hne hascii) s, fun _ => rfl⟩
  · obtain ⟨t, ht⟩ := Question.exists_identifier?_detailsQuestion hne h
    exact ⟨t, find?_of_identifier hne h ht s, fun hall => absurd hall hascii⟩

end Rule
end AskTable
