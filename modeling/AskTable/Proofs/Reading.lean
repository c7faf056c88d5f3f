import AskTable.Proofs.Grammar

/-! What the reader makes of the parts of a text: strings without escapes, integers, words, and lists and objects
item by item. -/
namespace AskTable

namespace Value

theorem sameKey_text_iff {v : Value} {t : Text} : v.sameKey (.text t) = true ↔ v = .text t := by
  cases v with
  | text s => simp [sameKey]
  | _ => simp [sameKey, keyNumber?]

/-- A new name goes to the end. -/
theorem setKey_of_not_mem {entries : List (Value × Value)} {name : Text} (h : .text name ∉ entries.map Prod.fst)
    (v : Value) : setKey entries (.text name) v = entries ++ [(.text name, v)] := by
  induction entries with
  | nil => rfl
  | cons entry entries ih =>
    obtain ⟨k, w⟩ := entry
    simp only [List.map_cons, List.mem_cons, not_or] at h
    have hkey : ¬ k.sameKey (.text name) = true := fun hsame => h.1 (sameKey_text_iff.mp hsame).symm
    rw [setKey, if_neg hkey, ih h.2]
    rfl

end Value

namespace Json

variable {t w rest tail : Text} {c : Char} {fuel depth : Nat}

def IsDefective {α : Type} (r : Except Problem α) : Prop :=
  ∃ kind u, r = .error (.defect kind u)

namespace IsDefective

variable {α β : Type} {r : Except Problem α}

theorem bind (h : IsDefective r) (f : α → Except Problem β) : IsDefective (r.bind f) := by
  obtain ⟨kind, u, rfl⟩ := h
  exact ⟨kind, u, rfl⟩

theorem map (h : IsDefective r) (f : α → β) : IsDefective (r.map f) := by
  obtain ⟨kind, u, rfl⟩ := h
  exact ⟨kind, u, rfl⟩

end IsDefective

theorem skipBlanks_cons (h : isJsonBlank c = false) : skipBlanks (c :: t) = c :: t := by
  rw [skipBlanks, List.dropWhile_cons, h]
  rfl

theorem skipBlanks_space (h : isJsonBlank c = false) : skipBlanks (' ' :: c :: t) = c :: t :=
  skipBlanks_cons h

theorem IsInner.isSolid {c : Char} (h : IsInner c) : isJsonBlank c = false ∧ isClosing c = false := by
  constructor
  · by_contra hblank
    have hspace : IsSpace [c] := by simpa [IsSpace] using hblank
    have hsolid := h.1
    rw [hspace.isBlankChar c List.mem_cons_self] at hsolid
    cases hsolid
  · have hbrace := ne_of_isInner (d := '}') h (by decide)
    have hsquare := ne_of_isInner (d := ']') h (by decide)
    simp [isClosing, hbrace, hsquare]

/-- Characters that a string literal has as they are. -/
def IsPlain (t : Text) : Prop :=
  ∀ c ∈ t, 32 ≤ c.toNat ∧ c ≠ '"' ∧ c ≠ '\\'

instance (t : Text) : Decidable (IsPlain t) :=
  inferInstanceAs (Decidable (∀ c ∈ t, 32 ≤ c.toNat ∧ c ≠ '"' ∧ c ≠ '\\'))

theorem stringBody_eq (h : IsPlain t) (opening : Text) : stringBody opening 0 (t ++ '"' :: rest) = .ok (t, rest) := by
  induction t with
  | nil => rfl
  | cons c t ih =>
    obtain ⟨⟨hcode, hquote, hback⟩, h⟩ := List.forall_mem_cons.mp h
    rw [List.cons_append, stringBody, if_neg hquote, if_neg hback, if_neg (Nat.not_lt.mpr hcode), ih h]
    rfl

section Numbers

private theorem takeWhile_append_of_all {p : Char → Bool} (h : ∀ c ∈ t, p c = true) (hrest : rest.head?.any p = false) :
    (t ++ rest).takeWhile p = t := by
  have hnone : rest.takeWhile p = [] := by
    cases rest with
    | nil => rfl
    | cons c rest =>
      have hc : p c = false := by simpa using hrest
      simp [hc]
  rw [List.takeWhile_append_of_pos h, hnone, List.append_nil]

theorem wholePart_ofNat (n : Nat) (hrest : rest.head?.any isAsciiDigit = false) :
    wholePart (Text.ofNat n ++ rest) = Text.ofNat n := by
  by_cases hzero : n = 0
  · subst hzero
    rfl
  · have htake := takeWhile_append_of_all (fun c => Text.isAsciiDigit_of_mem_ofNat (n := n)) hrest
    have hfirst := Text.head?_ofNat hzero
    unfold wholePart
    split
    · next w heq =>
      obtain ⟨c, digits, hdigits, -⟩ := Text.exists_first_ofNat n
      rw [hdigits, List.cons_append] at heq
      rw [hdigits, (List.cons.inj heq).1] at hfirst
      exact absurd rfl hfirst
    · exact htake

/-- Behind a value comes a comma or a closing bracket, or nothing. -/
def Stops (rest : Text) : Prop :=
  ∀ c ∈ rest.head?, isStop c = true

theorem of_isStop (h : isStop c = true) : isAsciiDigit c = false ∧ isNameChar c = false ∧ isJsonBlank c = false ∧
    c ≠ '.' ∧ c ≠ 'e' ∧ c ≠ 'E' := by
  simp only [isStop, Bool.or_eq_true, beq_iff_eq] at h
  rcases h with (rfl | rfl) | rfl <;> decide

private theorem Stops.fractionPart_eq (h : Stops rest) : fractionPart rest = [] := by
  unfold fractionPart
  split
  · exact absurd rfl (of_isStop (h _ rfl)).2.2.2.1
  · rfl

private theorem Stops.exponentPart_eq (h : Stops rest) : exponentPart rest = none := by
  cases rest with
  | nil => rfl
  | cons c rest =>
    obtain ⟨-, -, -, -, hsmall, hcapital⟩ := of_isStop (h c rfl)
    simp [exponentPart, hsmall, hcapital]

private theorem Stops.head?_any {p : Char → Bool} (h : Stops rest) (hp : ∀ c, isStop c = true → p c = false) :
    rest.head?.any p = false := by
  cases rest with
  | nil => rfl
  | cons c rest => simpa using hp c (h c rfl)

/-- An integer is read up to its last digit, if it has not too many. -/
theorem number_ofInt (n : Int) (h : Stops rest) : number (Text.ofInt n ++ rest) =
    if integerDigitLimit < (Text.ofNat n.natAbs).length then .error (.tooManyDigits (Text.ofNat n.natAbs).length)
    else .ok (.int n, rest) := by
  have hwhole (m : Nat) : wholePart (Text.ofNat m ++ rest) = Text.ofNat m :=
    wholePart_ofNat m (h.head?_any fun c hc => (of_isStop hc).1)
  have hne (m : Nat) : (Text.ofNat m).isEmpty = false :=
    List.isEmpty_eq_false_iff.mpr Nat.toDigits_ne_nil
  have hsign (m : Nat) : (Text.ofNat m ++ rest).head? ≠ some '-' := by
    intro hminus
    obtain ⟨c, digits, hdigits, hdigit⟩ := Text.exists_first_ofNat m
    rw [hdigits] at hminus
    obtain rfl : c = '-' := Option.some.inj hminus
    exact absurd hdigit (by decide)
  cases n with
  | ofNat m =>
    change number (Text.ofNat m ++ rest) = _
    unfold number
    simp only [hsign m, Bool.false_eq_true, if_false, hwhole m, hne m, List.drop_left,
      h.fractionPart_eq, List.isEmpty_nil, if_true, h.exponentPart_eq, Text.natOfDigits_ofNat, Int.ofNat_eq_natCast,
      Int.natAbs_natCast]
  | negSucc m =>
    change number ('-' :: (Text.ofNat (m + 1) ++ rest)) = _
    unfold number
    simp only [List.head?_cons, if_true, List.drop_succ_cons, List.drop_zero, hwhole, hne,
      Bool.false_eq_true, if_false, List.drop_left, h.fractionPart_eq, List.isEmpty_nil, h.exponentPart_eq,
      Text.natOfDigits_ofNat, Int.natAbs_negSucc]
    rfl

end Numbers

theorem number_eq_error (hminus : c ≠ '-') (hdigit : isAsciiDigit c = false) (t : Text) :
    number (c :: t) = .error (.defect .noValue (c :: t)) := by
  have hzero : c ≠ '0' := by
    rintro rfl
    exact absurd hdigit (by decide)
  have hwhole : wholePart (c :: t) = [] := by
    unfold wholePart
    split
    · next heq => exact absurd (List.cons.inj heq).1 hzero
    · simp [hdigit]
  unfold number
  simp [hminus, hwhole]

theorem scalar_ofInt (n : Int) (rest : Text) : scalar (Text.ofInt n ++ rest) = number (Text.ofInt n ++ rest) := by
  have hdigit {d : Char} (hd : d ∈ Text.plainDigits) (t : Text) :
      scalar (d :: t) = number (d :: t) ∧ scalar ('-' :: d :: t) = number ('-' :: d :: t) := by
    simp only [Text.plainDigits, List.mem_cons, List.not_mem_nil, or_false] at hd
    rcases hd with rfl | rfl | rfl | rfl | rfl | rfl | rfl | rfl | rfl | rfl <;> exact ⟨rfl, rfl⟩
  cases n with
  | ofNat m =>
    obtain ⟨d, t, htext, hd⟩ := Text.exists_first_ofNat m
    rw [Text.ofInt, htext]
    exact (hdigit (Text.mem_plainDigits_of_isAsciiDigit hd) _).1
  | negSucc m =>
    obtain ⟨d, t, htext, hd⟩ := Text.exists_first_ofNat (m + 1)
    rw [Text.ofInt, htext]
    exact (hdigit (Text.mem_plainDigits_of_isAsciiDigit hd) _).2

/-- The words that are values where they stand without quotes. -/
def valueWords : List Text :=
  ["true", "false", "null", "NaN", "Infinity"]

private theorem mem_valueWords {entry : Text × Value} (h : entry ∈ literals) :
    entry.1 ∈ valueWords ∨ entry.1 = "-Infinity" := by
  have hall : ∀ e ∈ literals, e.1 ∈ valueWords ∨ e.1 = "-Infinity" := by decide
  exact hall entry h

/-- Of a name with no letters of a name behind it, a word of value is a part. -/
theorem prefix_of_mem_valueWords {word : Text} (hword : word ∈ valueWords) (hrest : Stops rest)
    (h : word <+: w ++ rest) : word <+: w := by
  -- A word that is longer than the name would go on into what stops the name.
  rcases Nat.le_total word.length w.length with hle | hle
  · exact List.prefix_of_prefix_length_le h (List.prefix_append w rest) hle
  · obtain ⟨more, rfl⟩ := List.prefix_of_prefix_length_le (List.prefix_append w rest) h hle
    cases more with
    | nil => simp
    | cons d more =>
      have hchars : ∀ word ∈ valueWords, ∀ d ∈ word, isNameChar d = true := by decide
      have hd := hchars _ hword d (by simp)
      obtain ⟨u, hu⟩ := h
      have hhead : rest.head? = some d := by
        rw [List.append_assoc] at hu
        rw [← List.append_cancel_left hu]
        rfl
      rw [(of_isStop (hrest d hhead)).2.1] at hd
      cases hd

/-- No other word is read as a whole: where it begins with one that is a value, more of it is left. -/
theorem scalar_word (hw : IsIdentifier w) (hword : w ∉ valueWords) (hrest : Stops rest) :
    IsDefective (scalar (w ++ rest)) ∨
      ∃ v c u, scalar (w ++ rest) = .ok (v, c :: u) ∧ isNameChar c = true := by
  obtain ⟨c, letters, rfl⟩ := List.exists_cons_of_ne_nil hw.ne_nil
  have hstart : isNameStart c = true := by simpa using hw.starts
  have hminus : c ≠ '-' := by
    rintro rfl
    cases hstart
  cases hfind : literals.find? fun entry => entry.1.isPrefixOf (c :: letters ++ rest) with
  | none =>
    left
    have hdigit : isAsciiDigit c = false := by
      by_contra hdigit
      have hnone := (of_mem_plainDigits c (Text.mem_plainDigits_of_isAsciiDigit (Bool.of_not_eq_false hdigit))).2
      rw [hstart] at hnone
      cases hnone
    refine ⟨.noValue, c :: (letters ++ rest), ?_⟩
    rw [scalar, hfind]
    exact number_eq_error hminus hdigit _
  | some entry =>
    right
    have hprefix : entry.1 <+: c :: letters ++ rest := by
      have hsome := List.find?_some hfind
      exact List.isPrefixOf_iff_prefix.mp hsome
    have hentry : entry.1 ∈ valueWords := by
      rcases mem_valueWords (List.mem_of_find?_eq_some hfind) with hentry | hentry
      · exact hentry
      · rw [hentry] at hprefix
        exact absurd (List.cons_prefix_cons.mp hprefix).1.symm hminus
    obtain ⟨more, hmore⟩ := prefix_of_mem_valueWords hentry hrest hprefix
    obtain ⟨d, more, rfl⟩ : ∃ d u, more = d :: u := by
      apply List.exists_cons_of_ne_nil
      rintro rfl
      rw [List.append_nil] at hmore
      exact hword (hmore ▸ hentry)
    refine ⟨entry.2, d, more ++ rest, ?_, hw.chars d (by simp [← hmore])⟩
    rw [scalar, hfind, ← hmore]
    simp

theorem value_scalar (hc : c ∉ (['"', '{', '['] : List Char)) (fuel depth : Nat) (t : Text) :
    value (fuel + 1) depth (c :: t) = scalar (c :: t) := by
  simp only [List.mem_cons, List.not_mem_nil, or_false, not_or] at hc
  rw [value]
  · intro rest heq
    exact hc.1 (List.cons.inj heq).1
  · intro rest heq
    exact hc.2.1 (List.cons.inj heq).1
  · intro rest heq
    exact hc.2.2 (List.cons.inj heq).1

/-- A word or a number is no string, list or object. -/
theorem value_of_isInner (hne : t ≠ []) (ht : ∀ c ∈ t, IsInner c) (fuel depth : Nat) (rest : Text) :
    value (fuel + 1) depth (t ++ rest) = scalar (t ++ rest) := by
  obtain ⟨c, u, rfl⟩ := List.exists_cons_of_ne_nil hne
  have hsubset : (['"', '{', '['] : List Char) ⊆ signs := by decide
  exact value_scalar (fun hc => (ht c List.mem_cons_self).2 (hsubset hc)) fuel depth (u ++ rest)

/-- No value begins with an apostrophe or a closing bracket. -/
theorem isDefective_value (hc : c = '\'' ∨ c = ']') (fuel depth : Nat) (t : Text) :
    IsDefective (value fuel depth (c :: t)) := by
  cases fuel with
  | zero => exact ⟨_, _, by rw [value]⟩
  | succ fuel =>
    refine ⟨.noValue, c :: t, ?_⟩
    have hnumber : scalar (c :: t) = number (c :: t) := by
      rcases hc with rfl | rfl <;> rfl
    have hfirst : c ∉ (['"', '{', '['] : List Char) ∧ c ≠ '-' ∧ isAsciiDigit c = false := by
      rcases hc with rfl | rfl <;> decide
    rw [value_scalar hfirst.1, hnumber, number_eq_error hfirst.2.1 hfirst.2.2]

theorem value_text (h : IsPlain t) (fuel depth : Nat) (rest : Text) :
    value (fuel + 1) depth ('"' :: (t ++ '"' :: rest)) = .ok (.text t, rest) := by
  rw [value, stringBody_eq h]
  rfl

def afterElement (fuel depth : Nat) (v : Value) (rest : Text) : Except Problem (List Value × Text) :=
  match skipBlanks rest with
  | ']' :: tail => .ok ([v], tail)
  | ',' :: more => (elements fuel depth (skipBlanks more)).map fun (items, tail) => (v :: items, tail)
  | other => .error (.defect .noComma other)

def afterMember (fuel depth : Nat) (entries : List (Value × Value)) (rest : Text) :
    Except Problem (List (Value × Value) × Text) :=
  match skipBlanks rest with
  | '}' :: tail => .ok (entries, tail)
  | ',' :: more => members fuel depth entries (skipBlanks more)
  | other => .error (.defect .noComma other)

theorem afterElement_comma (hc : isJsonBlank c = false) (fuel depth : Nat) (v : Value) (t : Text) :
    afterElement fuel depth v (',' :: ' ' :: c :: t) =
      (elements fuel depth (c :: t)).map fun (items, tail) => (v :: items, tail) := by
  have hcomma : afterElement fuel depth v (',' :: ' ' :: c :: t) =
      (elements fuel depth (skipBlanks (' ' :: c :: t))).map fun (items, tail) => (v :: items, tail) := rfl
  rw [hcomma, skipBlanks_space hc]

theorem afterMember_comma (hc : isJsonBlank c = false) (fuel depth : Nat) (entries : List (Value × Value)) (t : Text) :
    afterMember fuel depth entries (',' :: ' ' :: c :: t) = members fuel depth entries (c :: t) := by
  have hcomma : afterMember fuel depth entries (',' :: ' ' :: c :: t) =
      members fuel depth entries (skipBlanks (' ' :: c :: t)) := rfl
  rw [hcomma, skipBlanks_space hc]

/-- Behind a value no word goes on. -/
theorem afterMember_eq_error (hc : isNameChar c = true) (fuel depth : Nat) (entries : List (Value × Value)) (t : Text) :
    afterMember fuel depth entries (c :: t) = .error (.defect .noComma (c :: t)) := by
  have hinner := isInner_of_isNameChar hc
  have hbrace := ne_of_isInner (d := '}') hinner (by decide)
  have hcomma := ne_of_isInner (d := ',') hinner (by decide)
  unfold afterMember
  rw [skipBlanks_cons hinner.isSolid.1]
  split
  · next heq => exact absurd (List.cons.inj heq).1 hbrace
  · next heq => exact absurd (List.cons.inj heq).1 hcomma
  · rfl

theorem elements_succ (fuel depth : Nat) (t : Text) :
    elements (fuel + 1) depth t = (value fuel depth t).bind fun (v, rest) => afterElement fuel depth v rest := by
  rw [elements]
  rfl

theorem members_of_stringBody {name u : Text} (h : stringBody ('"' :: t) 0 t = .ok (name, ':' :: u)) (fuel depth : Nat)
    (done : List (Value × Value)) :
    members (fuel + 1) depth done ('"' :: t) =
      (value fuel depth (skipBlanks u)).bind fun (v, rest) =>
        afterMember fuel depth (Value.setKey done (.text name) v) rest := by
  rw [members, h]
  rfl

theorem members_succ {name : Text} (hname : IsPlain name) (fuel depth : Nat) (done : List (Value × Value)) (t : Text) :
    members (fuel + 1) depth done ('"' :: (name ++ '"' :: ':' :: t)) =
      (value fuel depth (skipBlanks t)).bind fun (v, rest) =>
        afterMember fuel depth (Value.setKey done (.text name) v) rest :=
  members_of_stringBody (stringBody_eq hname _) fuel depth done

theorem isDefective_elements (fuel depth : Nat) (t : Text) :
    IsDefective (elements fuel depth (']' :: t)) := by
  cases fuel with
  | zero => exact ⟨_, _, by rw [elements]⟩
  | succ fuel =>
    rw [elements_succ]
    exact (isDefective_value (.inr rfl) fuel depth t).bind _

/-- Only a quote begins the name of a member. -/
theorem isDefective_members (hc : c ≠ '"') (fuel depth : Nat) (done : List (Value × Value)) (t : Text) :
    IsDefective (members fuel depth done (c :: t)) := by
  cases fuel with
  | zero => exact ⟨_, _, by rw [members]⟩
  | succ fuel =>
    refine ⟨.noName, c :: t, ?_⟩
    rw [members]
    intro rest heq
    exact hc (List.cons.inj heq).1

theorem value_emptyList (fuel depth : Nat) (rest : Text) :
    value (fuel + 1) (depth + 1) ('[' :: ']' :: rest) = .ok (.list [], rest) := by
  have hblanks : skipBlanks (']' :: rest) = ']' :: rest := skipBlanks_cons (by decide)
  simp [value, hblanks]

theorem value_emptyDict (fuel depth : Nat) (rest : Text) :
    value (fuel + 1) (depth + 1) ('{' :: '}' :: rest) = .ok (.dict [], rest) := by
  have hblanks : skipBlanks ('}' :: rest) = '}' :: rest := skipBlanks_cons (by decide)
  simp [value, hblanks]

section Groups

variable (hc : isJsonBlank c = false) (hclosing : isClosing c = false)
include hc hclosing

theorem value_list (fuel depth : Nat) (t : Text) : value (fuel + 1) (depth + 1) ('[' :: c :: t) =
    (elements fuel depth (c :: t)).map fun (items, tail) => (.list items, tail) := by
  have hne : c ≠ ']' := by
    rintro rfl
    cases hclosing
  have hblanks := skipBlanks_cons (t := t) hc
  simp [value, hblanks, hne]

theorem value_dict (fuel depth : Nat) (t : Text) : value (fuel + 1) (depth + 1) ('{' :: c :: t) =
    (members fuel depth [] (c :: t)).map fun (entries, tail) => (.dict entries, tail) := by
  have hne : c ≠ '}' := by
    rintro rfl
    cases hclosing
  have hblanks := skipBlanks_cons (t := t) hc
  simp [value, hblanks, hne]

end Groups

/-- More brackets than may be opened. -/
theorem value_replicate (h : 2 * depth < fuel) (rest : Text) :
    value fuel depth (List.replicate (depth + 1) '[' ++ rest) = .error .tooDeep := by
  induction depth generalizing fuel with
  | zero =>
    obtain ⟨fuel, rfl⟩ : ∃ k, fuel = k + 1 := ⟨fuel - 1, by omega⟩
    change value (fuel + 1) 0 ('[' :: rest) = _
    rw [value]
  | succ depth ih =>
    obtain ⟨fuel, rfl⟩ : ∃ k, fuel = k + 2 := ⟨fuel - 2, by omega⟩
    have hshorter : 2 * depth < fuel := by omega
    have hinner := ih hshorter
    change value fuel depth ('[' :: (List.replicate depth '[' ++ rest)) = _ at hinner
    change value (fuel + 2) (depth + 1) ('[' :: '[' :: (List.replicate depth '[' ++ rest)) = _
    rw [value_list (by decide) (by decide), elements_succ, hinner]
    rfl

end Json
end AskTable
