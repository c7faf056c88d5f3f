import AskTable.Json.Repair
import AskTable.Proofs.ColumnPhrase

/-! The three corrections of a text between string literals: where each of them finds something, what it puts
there, and where it finds nothing. -/
namespace AskTable

namespace Pattern

variable {test : Char → Bool} {t w rest before : Text} {a b : Cursor} {c : Char}

theorem head?_dropWhile_append (hw : ∀ d ∈ w, isBlankChar d = true) (hc : isBlankChar c = false) :
    (w ++ c :: rest).dropWhile isBlankChar = c :: rest := by
  have hall : w.dropWhile isBlankChar = [] := List.dropWhile_eq_nil_iff.mpr hw
  simp [List.dropWhile_append, hall, hc]

theorem ends_mark {q : Pattern} (hc : test c = true) (before rest : Text) :
    (Pattern.one test >> q).ends ⟨before, c :: rest⟩ = q.ends ⟨c :: before, rest⟩ := by
  have hone : (Pattern.one test).ends ⟨before, c :: rest⟩ = [⟨c :: before, rest⟩] := by simp [ends, hc]
  change ((Pattern.one test).ends ⟨before, c :: rest⟩).flatMap q.ends = _
  rw [hone, List.flatMap_singleton]

theorem ends_mark_eq_nil {q : Pattern} (hc : test c = false) (before rest : Text) :
    (Pattern.one test >> q).ends ⟨before, c :: rest⟩ = [] := by
  have hone : (Pattern.one test).ends ⟨before, c :: rest⟩ = [] := by simp [ends, hc]
  change ((Pattern.one test).ends ⟨before, c :: rest⟩).flatMap q.ends = _
  rw [hone, List.flatMap_nil]

theorem mem_ends_mark {q : Pattern} (h : b ∈ (Pattern.one test >> q).ends ⟨before, c :: rest⟩) :
    b ∈ q.ends ⟨c :: before, rest⟩ := by
  cases hc : test c with
  | true => rwa [ends_mark hc] at h
  | false =>
    rw [ends_mark_eq_nil hc] at h
    cases h

/-- Blanks and then a character of a class. -/
theorem end?_space_one (hw : ∀ d ∈ w, isBlankChar d = true) (hblank : isBlankChar c = false)
    (hc : test c = true) (before : Text) :
    (Pattern.space >> Pattern.one test).end? ⟨before, w ++ c :: rest⟩ =
      some ⟨c :: (w.reverse ++ before), rest⟩ := by
  have hhead : (c :: rest).head?.any isBlankChar = false := by simpa using hblank
  obtain ⟨nearer, hspace⟩ := ends_space_append hw hhead before
  have hone : (Pattern.one test).ends ⟨w.reverse ++ before, c :: rest⟩ =
      [⟨c :: (w.reverse ++ before), rest⟩] := by
    simp [ends, hc]
  change ((space.ends ⟨before, w ++ c :: rest⟩).flatMap (Pattern.one test).ends).head? = _
  rw [hspace, List.flatMap_cons, hone]
  rfl

/-- A character of a class of characters that are no blanks is the first one after the blanks. -/
theorem of_mem_ends_space_one (htest : ∀ d, test d = true → isBlankChar d = false)
    (h : b ∈ (Pattern.space >> Pattern.one test).ends a) :
    ∃ c, (a.after.dropWhile isBlankChar).head? = some c ∧ test c = true := by
  obtain ⟨m, hm, hb⟩ := mem_ends_seq_iff.mp h
  obtain ⟨blanks, hafter, hblanks⟩ := mem_ends_space hm
  obtain ⟨c, rest, hone, hc, -⟩ := mem_ends_one_iff.mp hb
  refine ⟨c, ?_, hc⟩
  rw [hafter, hone, head?_dropWhile_append hblanks (htest c hc)]
  rfl

end Pattern

namespace Json

/-- A text in which a correction, found or not, makes another text, wherever it stands. -/
def Rewrites (step : Cursor → Option (Text × Nat)) (t u : Text) : Prop :=
  ∀ before, (Text.piecesFrom step 0 before t).flatMap (fun piece => Sum.elim (fun c => [c]) id piece) = u

namespace Rewrites

variable {step : Cursor → Option (Text × Nat)} {t u v w : Text} {c : Char}

theorem nil : Rewrites step [] [] :=
  fun _ => rfl

theorem substitute_eq (h : Rewrites step t u) : Text.substitute step t = u :=
  h []

theorem cons (hnone : ∀ before, step ⟨before, c :: t⟩ = none) (h : Rewrites step t u) :
    Rewrites step (c :: t) (c :: u) := by
  intro before
  rw [Text.piecesFrom_of_none (hnone before), List.flatMap_cons, h (c :: before)]
  rfl

/-- Characters at which nothing is found stay. -/
theorem append (hnone : ∀ d ∈ w, ∀ before rest, step ⟨before, d :: rest⟩ = none) (h : Rewrites step t u) :
    Rewrites step (w ++ t) (w ++ u) := by
  induction w with
  | nil => exact h
  | cons d w ih =>
    obtain ⟨hd, hw⟩ := List.forall_mem_cons.mp hnone
    exact cons (fun before => hd before _) (ih hw)

/-- What is found gives way to what is put there. -/
theorem found (hstep : ∀ before, step ⟨before, c :: (w ++ t)⟩ = some (v, w.length + 1)) (h : Rewrites step t u) :
    Rewrites step (c :: (w ++ t)) (v ++ u) := by
  intro before
  rw [Text.piecesFrom_of_some (hstep before), Nat.add_sub_cancel, Text.piecesFrom_skip, List.flatMap_cons,
    h (w.reverse ++ c :: before)]
  rfl

end Rewrites

def isNameChar (c : Char) : Bool :=
  c.isAlphanum || c == '_'

/-- Names of ASCII letters, digits and underscores that do not begin with a digit. -/
structure IsIdentifier (t : Text) : Prop where
  starts : t.head?.any isNameStart = true
  chars : ∀ c ∈ t, isNameChar c = true

/-- The characters that stand for themselves in a text of JSON. -/
def signs : List Char :=
  ['{', '}', '[', ']', ',', ':', '"', '\'']

theorem of_mem_signs : ∀ c ∈ signs, isBlankChar c = false ∧ isNameStart c = false ∧ isNameChar c = false := by
  decide

theorem not_mem_signs_of_isBlankChar {c : Char} (h : isBlankChar c = true) : c ∉ signs := by
  intro hsign
  rw [(of_mem_signs c hsign).1] at h
  cases h

def IsInner (c : Char) : Prop :=
  isBlankChar c = false ∧ c ∉ signs

theorem isNameChar_of_isNameStart {c : Char} (h : isNameStart c = true) : isNameChar c = true := by
  simp only [isNameStart, isNameChar, Char.isAlphanum, Bool.or_eq_true] at h ⊢
  tauto

theorem toNat_of_isNameChar {c : Char} (h : isNameChar c = true) :
    48 ≤ c.toNat ∧ c.toNat ≤ 57 ∨ 65 ≤ c.toNat ∧ c.toNat ≤ 90 ∨ 97 ≤ c.toNat ∧ c.toNat ≤ 122 ∨ c.toNat = 95 := by
  have hrange {low high : Char} (hc : low.val ≤ c.val ∧ c.val ≤ high.val) :
      low.toNat ≤ c.toNat ∧ c.toNat ≤ high.toNat :=
    ⟨UInt32.le_iff_toNat_le.mp hc.1, UInt32.le_iff_toNat_le.mp hc.2⟩
  rw [isNameChar, Bool.or_eq_true, beq_iff_eq] at h
  rcases h with h | rfl
  · rcases (Bool.or_eq_true _ _).mp h with h | hdigit
    · rcases (Bool.or_eq_true _ _).mp h with hupper | hlower
      · exact .inr (.inl (hrange (of_decide_eq_true hupper)))
      · obtain ⟨hlow, hhigh⟩ := (Bool.and_eq_true _ _).mp hlower
        exact .inr (.inr (.inl (hrange ⟨of_decide_eq_true hlow, of_decide_eq_true hhigh⟩)))
    · obtain ⟨hlow, hhigh⟩ := (Bool.and_eq_true _ _).mp hdigit
      exact .inl (hrange ⟨of_decide_eq_true hlow, of_decide_eq_true hhigh⟩)
  · decide

theorem isInner_of_isNameChar {c : Char} (h : isNameChar c = true) : IsInner c := by
  constructor
  · have hcode := toNat_of_isNameChar h
    simp only [isBlankChar, Bool.or_eq_false_iff, Bool.and_eq_false_iff, decide_eq_false_iff_not,
      beq_eq_false_iff_ne]
    omega
  · intro hmem
    rw [(of_mem_signs c hmem).2.2] at h
    cases h

theorem IsIdentifier.ne_nil {t : Text} (h : IsIdentifier t) : t ≠ [] := by
  rintro rfl
  exact absurd h.starts (by decide)

theorem IsIdentifier.isInner {t : Text} (h : IsIdentifier t) : ∀ c ∈ t, IsInner c :=
  fun c hc => isInner_of_isNameChar (h.chars c hc)

theorem IsIdentifier.strip_eq {t : Text} (h : IsIdentifier t) : t.strip = t := by
  have hsolid : Text.IsSolid t := fun c hc => (h.isInner c hc).1
  exact hsolid.strip_eq

section Steps

variable {before t w w' n rest : Text} {m c d : Char}

theorem quoteName_eq_none (hc : c ≠ '{' ∧ c ≠ ',') (before rest : Text) : quoteName ⟨before, c :: rest⟩ = none := by
  have hmark : (c == '{' || c == ',') = false := by simp [hc]
  unfold quoteName
  dsimp only
  rw [Pattern.ends_mark_eq_nil hmark, List.findSome?_nil]

theorem quoteValue_eq_none (hc : c ≠ ':') (before rest : Text) : quoteValue ⟨before, c :: rest⟩ = none := by
  have hnone : (Pattern.one (· == ':') >> Pattern.space).ends ⟨before, c :: rest⟩ = [] := by
    apply Pattern.ends_mark_eq_nil
    simp [hc]
  unfold quoteValue
  dsimp only
  rw [hnone, List.findSome?_nil]

theorem dropComma_eq_none (hc : c ≠ ',') (before rest : Text) : dropComma ⟨before, c :: rest⟩ = none := by
  have hnone : (Pattern.one (· == ',') >> Pattern.space).ends ⟨before, c :: rest⟩ = [] := by
    apply Pattern.ends_mark_eq_nil
    simp [hc]
  unfold dropComma
  dsimp only
  rw [hnone, List.findSome?_nil]

def inName (c : Char) : Bool :=
  isBlankChar c || isNameChar c

theorem within_inName_space : Pattern.space.Within (inName · = true) :=
  Pattern.within_most fun c hc => by simp [inName, hc]

theorem within_inName_name : (Pattern.one isNameStart >>
    Pattern.least fun c => c.isAlphanum || c == '_' || c == ' ').Within (inName · = true) := by
  refine Pattern.within_seq (Pattern.within_one fun c hc => ?_) (Pattern.within_least fun c hc => ?_)
  · simp [inName, isNameChar_of_isNameStart hc]
  · rw [Bool.or_eq_true, beq_iff_eq] at hc
    rcases hc with hc | rfl
    · simp [inName, isNameChar, hc]
    · decide

/-- No name is found where the first character that cannot be in one is not a colon. -/
theorem quoteName_eq_none_of_dropWhile (h : (t.dropWhile inName).head? ≠ some ':') (before : Text) (m : Char) :
    quoteName ⟨before, m :: t⟩ = none := by
  by_contra hfound
  obtain ⟨result, hfound⟩ := Option.ne_none_iff_exists'.mp hfound
  obtain ⟨b, hb, hfound⟩ := List.exists_of_findSome?_eq_some hfound
  obtain ⟨e, he, hfound⟩ := List.exists_of_findSome?_eq_some hfound
  obtain ⟨d, hd, -⟩ := Option.map_eq_some_iff.mp hfound
  obtain ⟨x, hx, hcolon⟩ := Pattern.mem_ends_seq_iff.mp (Pattern.mem_ends_of_end? hd)
  obtain ⟨c, rest, hafter, hc, -⟩ := Pattern.mem_ends_one_iff.mp hcolon
  have hopened := within_inName_space _ _ (Pattern.mem_ends_mark hb)
  obtain ⟨skipped, hskipped, -, hin⟩ :=
    (hopened.trans (within_inName_name _ _ he)).trans (within_inName_space _ _ hx)
  apply h
  have hcolon : inName ':' = false := by decide
  have hall : skipped.dropWhile inName = [] := List.dropWhile_eq_nil_iff.mpr hin
  change t = skipped ++ x.after at hskipped
  rw [hskipped, hafter, eq_of_beq hc]
  simp [List.dropWhile_append, hall, hcolon]

/-- No value is found where the first character after the colon and blanks begins no name. -/
theorem quoteValue_eq_none_of_dropWhile (h : (t.dropWhile isBlankChar).head?.any isNameStart = false)
    (before : Text) : quoteValue ⟨before, ':' :: t⟩ = none := by
  by_contra hfound
  obtain ⟨result, hfound⟩ := Option.ne_none_iff_exists'.mp hfound
  obtain ⟨b, hb, hfound⟩ := List.exists_of_findSome?_eq_some hfound
  obtain ⟨e, he, -⟩ := List.exists_of_findSome?_eq_some hfound
  obtain ⟨x, hx, -⟩ := Pattern.mem_ends_seq_iff.mp he
  have hstart : x ∈ (Pattern.space >> Pattern.one isNameStart).ends ⟨':' :: before, t⟩ :=
    Pattern.mem_ends_seq_iff.mpr ⟨b, Pattern.mem_ends_mark hb, hx⟩
  have hsolid : ∀ d, isNameStart d = true → isBlankChar d = false :=
    fun d hd => (isInner_of_isNameChar (isNameChar_of_isNameStart hd)).1
  obtain ⟨d, hd, hnameStart⟩ := Pattern.of_mem_ends_space_one hsolid hstart
  change (t.dropWhile isBlankChar).head? = some d at hd
  simp [hd, hnameStart] at h

def isClosing (c : Char) : Bool :=
  c == '}' || c == ']'

theorem isBlankChar_of_isClosing (h : isClosing c = true) : isBlankChar c = false := by
  simp only [isClosing, Bool.or_eq_true, beq_iff_eq] at h
  rcases h with rfl | rfl <;> decide

/-- No comma is dropped where the first character after it and blanks is no closing bracket. -/
theorem dropComma_eq_none_of_dropWhile (h : (t.dropWhile isBlankChar).head?.any isClosing = false)
    (before : Text) : dropComma ⟨before, ',' :: t⟩ = none := by
  by_contra hfound
  obtain ⟨result, hfound⟩ := Option.ne_none_iff_exists'.mp hfound
  obtain ⟨b, hb, hfound⟩ := List.exists_of_findSome?_eq_some hfound
  obtain ⟨d, hd, -⟩ := Option.map_eq_some_iff.mp hfound
  have hbracket : d ∈ (Pattern.space >> Pattern.one isClosing).ends ⟨',' :: before, t⟩ :=
    Pattern.mem_ends_seq_iff.mpr ⟨b, Pattern.mem_ends_mark hb, Pattern.mem_ends_of_end? hd⟩
  obtain ⟨e, he, hclosing⟩ := Pattern.of_mem_ends_space_one (fun _ => isBlankChar_of_isClosing) hbracket
  change (t.dropWhile isBlankChar).head? = some e at he
  simp [he, hclosing] at h

theorem dropComma_eq_some (hw : ∀ e ∈ w, isBlankChar e = true) (hc : isClosing c = true) (before rest : Text) :
    dropComma ⟨before, ',' :: (w ++ c :: rest)⟩ = some ([c], w.length + 2) := by
  have hhead : (c :: rest).head?.any isBlankChar = false := by simpa using isBlankChar_of_isClosing hc
  obtain ⟨nearer, hspace⟩ := Pattern.ends_space_append hw hhead (',' :: before)
  have hbracket : (Pattern.one fun c => c == '}' || c == ']').end? ⟨w.reverse ++ ',' :: before, c :: rest⟩ =
      some ⟨c :: (w.reverse ++ ',' :: before), rest⟩ := by
    have hone : (c == '}' || c == ']') = true := hc
    simp [Pattern.end?, Pattern.ends, hone]
  unfold dropComma
  dsimp only
  rw [Pattern.ends_mark (by decide), hspace, List.findSome?_cons, hbracket]
  simp only [Option.map_some]
  rw [Cursor.textTo_eq (w := [c]) rfl, Cursor.distance_eq (w := ',' :: w ++ [c]) (by simp)]
  simp

/-- The end of a name is the first place of it after which a character of some class follows blanks. -/
theorem findSome?_name {β : Type} {test closes : Char → Bool} (f : Cursor → Cursor → β) (hn : IsIdentifier n)
    (htest : ∀ e ∈ n, test e = true) (hinner : ∀ e ∈ n, closes e = false)
    (hsolid : ∀ e, closes e = true → isBlankChar e = false) (hw : ∀ e ∈ w, isBlankChar e = true)
    (hd : closes d = true) (before : Text) :
    ((Pattern.one isNameStart >> Pattern.least test).ends ⟨before, n ++ (w ++ d :: rest)⟩).findSome?
      (fun e => ((Pattern.space >> Pattern.one closes).end? e).map (f e)) =
      some (f ⟨n.reverse ++ before, w ++ d :: rest⟩ ⟨d :: (w.reverse ++ (n.reverse ++ before)), rest⟩) := by
  have hinside := hn.isInner
  obtain ⟨c, n, rfl⟩ := List.exists_cons_of_ne_nil hn.ne_nil
  have hstart : isNameStart c = true := by simpa using hn.starts
  rw [List.cons_append, Pattern.ends_mark hstart]
  refine Pattern.findSome?_overRun (c :: before) (fun e he => htest e (List.mem_cons_of_mem c he)) ?_ ?_
  · intro u v huv hv
    obtain ⟨e, v, rfl⟩ := List.exists_cons_of_ne_nil hv
    have hmem : e ∈ c :: n := by simp [huv]
    rw [Option.map_eq_none_iff]
    cases hend : (Pattern.space >> Pattern.one closes).end? ⟨u.reverse ++ c :: before, e :: v ++ (w ++ d :: rest)⟩ with
    | none => rfl
    | some b =>
      obtain ⟨x, hx, hxcloses⟩ := Pattern.of_mem_ends_space_one hsolid (Pattern.mem_ends_of_end? hend)
      obtain rfl : e = x := by simpa [(hinside e hmem).1] using hx
      rw [hinner e hmem] at hxcloses
      cases hxcloses
  · rw [Pattern.end?_space_one hw (hsolid d hd) hd]
    simp

theorem ne_of_isInner (hc : IsInner c) (hd : d ∈ signs) : c ≠ d := by
  rintro rfl
  exact hc.2 hd

theorem ends_space_name (hw : ∀ e ∈ w, isBlankChar e = true) (hn : IsIdentifier n) (before t : Text) :
    ∃ nearer, Pattern.space.ends ⟨before, w ++ (n ++ t)⟩ = ⟨w.reverse ++ before, n ++ t⟩ :: nearer := by
  apply Pattern.ends_space_append hw
  obtain ⟨c, n, rfl⟩ := List.exists_cons_of_ne_nil hn.ne_nil
  simpa using (hn.isInner c List.mem_cons_self).1

theorem quoteName_eq_some (hm : m = '{' ∨ m = ',') (hw : ∀ e ∈ w, isBlankChar e = true) (hn : IsIdentifier n)
    (hw' : ∀ e ∈ w', isBlankChar e = true) (before rest : Text) :
    quoteName ⟨before, m :: (w ++ (n ++ (w' ++ ':' :: rest)))⟩ =
      some (m :: w ++ ('"' :: n ++ ['"']) ++ (w' ++ [':']), (w ++ (n ++ (w' ++ [':']))).length + 1) := by
  have hmark : (m == '{' || m == ',') = true := by
    rcases hm with rfl | rfl <;> decide
  obtain ⟨nearer, hspace⟩ := ends_space_name hw hn (m :: before) (w' ++ ':' :: rest)
  have htest : ∀ e ∈ n, (e.isAlphanum || e == '_' || e == ' ') = true := by
    intro e he
    have hchar := hn.chars e he
    unfold isNameChar at hchar
    rw [hchar, Bool.true_or]
  have hinner : ∀ e ∈ n, (e == ':') = false :=
    fun e he => beq_eq_false_iff_ne.mpr (ne_of_isInner (hn.isInner e he) (by decide))
  have hsolid : ∀ e, (e == ':') = true → isBlankChar e = false := by
    intro e he
    rw [eq_of_beq he]
    decide
  unfold quoteName
  dsimp only
  rw [Pattern.ends_mark hmark, hspace, List.findSome?_cons,
    findSome?_name _ hn htest hinner hsolid hw' (by decide)]
  rw [Cursor.textTo_eq (w := m :: w) (by simp), Cursor.textTo_eq (w := n) rfl, hn.strip_eq,
    Cursor.textTo_eq (w := w' ++ [':']) (by simp),
    Cursor.distance_eq (w := m :: (w ++ (n ++ (w' ++ [':'])))) (by simp)]
  simp

def isStop (c : Char) : Bool :=
  c == ',' || c == '}' || c == ']'

private theorem isBlankChar_of_isStop (h : isStop c = true) : isBlankChar c = false := by
  simp only [isStop, Bool.or_eq_true, beq_iff_eq] at h
  rcases h with (rfl | rfl) | rfl <;> decide

theorem quoteValue_eq_some (hw : ∀ e ∈ w, isBlankChar e = true) (hn : IsIdentifier n)
    (hw' : ∀ e ∈ w', isBlankChar e = true) (hd : isStop d = true) (before rest : Text) :
    quoteValue ⟨before, ':' :: (w ++ (n ++ (w' ++ d :: rest)))⟩ =
      some (':' :: w ++ (if isLiteral n then n else '"' :: n ++ ['"']) ++ (w' ++ [d]),
        (w ++ (n ++ (w' ++ [d]))).length + 1) := by
  obtain ⟨nearer, hspace⟩ := ends_space_name hw hn (':' :: before) (w' ++ d :: rest)
  have hne : ∀ e ∈ n, e ≠ ',' ∧ e ≠ '}' ∧ e ≠ ']' ∧ e ≠ '"' := by
    intro e he
    have hinner := hn.isInner e he
    exact ⟨ne_of_isInner hinner (by decide), ne_of_isInner hinner (by decide), ne_of_isInner hinner (by decide),
      ne_of_isInner hinner (by decide)⟩
  have htest : ∀ e ∈ n, (e != ',' && e != '}' && e != ']' && e != '"' && e != '\n') = true := by
    intro e he
    have hline : e ≠ '\n' := by
      rintro rfl
      exact absurd (hn.isInner _ he).1 (by decide)
    simp [hne e he, hline]
  have hinner : ∀ e ∈ n, (e == ',' || e == '}' || e == ']') = false := by
    intro e he
    simp [hne e he]
  unfold quoteValue
  dsimp only
  rw [Pattern.ends_mark (by decide), hspace, List.findSome?_cons,
    findSome?_name _ hn htest hinner (fun _ => isBlankChar_of_isStop) hw' hd]
  rw [Cursor.textTo_eq (w := n) rfl, hn.strip_eq, Cursor.textTo_eq (w := ':' :: (w ++ (n ++ (w' ++ [d])))) (by simp),
    Cursor.textTo_eq (w := ':' :: w) (by simp),
    Cursor.textTo_eq (w := w' ++ [d]) (by simp),
    Cursor.distance_eq (w := ':' :: (w ++ (n ++ (w' ++ [d])))) (by simp)]
  split_ifs <;> simp

end Steps

end Json
end AskTable
