import AskTable.Proofs.Numeral

/-! How numbers are written. A numeral has a sign, digits in which single underscores may stand, a fraction and
a power of ten. A text is read as a decimal number exactly if it is a numeral, apart from blanks around it and
the script of its digits. -/
namespace AskTable

inductive Sign where
  | none
  | plus
  | minus
  deriving DecidableEq, Repr

/-- Decimal digits, single underscores between some of them. -/
inductive IsDigits : Text → Prop
  | one {d : Char} (hd : isAsciiDigit d = true) : IsDigits [d]
  | next {d : Char} {t : Text} (hd : isAsciiDigit d = true) (ht : IsDigits t) : IsDigits (d :: t)
  | parted {d : Char} {t : Text} (hd : isAsciiDigit d = true) (ht : IsDigits t) : IsDigits (d :: '_' :: t)

structure DigitRun where
  text : Text
  isDigits : IsDigits text

structure Power where
  letter : Char
  sign : Sign
  digits : DigitRun
  isLetter : letter = 'e' ∨ letter = 'E'

/-- The digits of a number and the point in it. Digits may be missing on one side of the point. -/
inductive Mantissa where
  | whole (digits : DigitRun)
  | pointed (digits : DigitRun) (fraction : Option DigitRun)
  | fraction (digits : DigitRun)

structure Numeral where
  sign : Sign
  mantissa : Mantissa
  power : Option Power

namespace Sign

def text : Sign → Text
  | none => []
  | plus => ['+']
  | minus => ['-']

def isMinus : Sign → Bool
  | minus => true
  | _ => false

def apply (s : Sign) (n : Nat) : Int :=
  if s.isMinus then -(n : Int) else n

end Sign

namespace DigitRun

/-- The digits without underscores. -/
def plain (run : DigitRun) : Text :=
  run.text.filter (· != '_')

def optionText : Option DigitRun → Text
  | none => []
  | some run => run.text

def optionPlain : Option DigitRun → Text
  | none => []
  | some run => run.plain

end DigitRun

namespace Power

/-- The power of ten as it is written, nothing if there is none. -/
def text : Option Power → Text
  | none => []
  | some p => p.letter :: (p.sign.text ++ p.digits.text)

def plain : Option Power → Text
  | none => []
  | some p => p.letter :: (p.sign.text ++ p.digits.plain)

def exponent : Option Power → Int
  | none => 0
  | some p => p.sign.apply (natOfDigits p.digits.plain)

end Power

namespace Mantissa

def text : Mantissa → Text
  | whole w => w.text
  | pointed w f => w.text ++ '.' :: DigitRun.optionText f
  | fraction f => '.' :: f.text

def front : Mantissa → Text
  | whole w | pointed w _ => w.plain
  | fraction _ => []

def back : Mantissa → Text
  | whole _ => []
  | pointed _ f => DigitRun.optionPlain f
  | fraction f => f.plain

def plain : Mantissa → Text
  | whole w => w.plain
  | pointed w f => w.plain ++ '.' :: DigitRun.optionPlain f
  | fraction f => '.' :: f.plain

end Mantissa

namespace Numeral

def text (n : Numeral) : Text :=
  n.sign.text ++ (n.mantissa.text ++ Power.text n.power)

def decimal (n : Numeral) : Decimal :=
  ⟨n.sign.isMinus, natOfDigits (n.mantissa.front ++ n.mantissa.back),
    Power.exponent n.power - n.mantissa.back.length⟩

end Numeral

namespace IsDigits

variable {t : Text}

theorem exists_first (h : IsDigits t) : ∃ c rest, t = c :: rest ∧ isAsciiDigit c = true := by
  cases h with
  | one hd => exact ⟨_, _, rfl, hd⟩
  | next hd ht => exact ⟨_, _, rfl, hd⟩
  | parted hd ht => exact ⟨_, _, rfl, hd⟩

theorem ne_underscore {c : Char} (h : isAsciiDigit c = true) : c ≠ '_' := by
  rintro rfl
  cases h

theorem of_all (hne : t ≠ []) (h : ∀ c ∈ t, isAsciiDigit c = true) : IsDigits t := by
  induction t with
  | nil => exact absurd rfl hne
  | cons c rest ih =>
    obtain ⟨hc, hrest⟩ := List.forall_mem_cons.mp h
    by_cases hlast : rest = []
    · rw [hlast]
      exact .one hc
    · exact .next hc (ih hlast hrest)

theorem mem_cases (h : IsDigits t) {c : Char} (hc : c ∈ t) : c = '_' ∨ isAsciiDigit c = true := by
  induction h with
  | one hd =>
    rw [List.mem_singleton] at hc
    exact .inr (hc ▸ hd)
  | next hd ht ih =>
    rcases List.mem_cons.mp hc with rfl | hc
    · exact .inr hd
    · exact ih hc
  | parted hd ht ih =>
    rcases List.mem_cons.mp hc with rfl | hc
    · exact .inr hd
    rcases List.mem_cons.mp hc with rfl | hc
    · exact .inl rfl
    · exact ih hc

end IsDigits

namespace DigitRun

theorem isAsciiDigit_of_mem_plain {run : DigitRun} {c : Char} (hc : c ∈ run.plain) : isAsciiDigit c = true := by
  obtain ⟨hmem, hplain⟩ := List.mem_filter.mp hc
  exact (run.isDigits.mem_cases hmem).resolve_left (by simpa using hplain)

theorem plain_ne_nil (run : DigitRun) : run.plain ≠ [] := by
  obtain ⟨c, rest, htext, hc⟩ := run.isDigits.exists_first
  apply List.ne_nil_of_mem (a := c)
  rw [plain, htext, List.mem_filter]
  exact ⟨List.mem_cons_self, by simpa using IsDigits.ne_underscore hc⟩

theorem plain_of_all {run : DigitRun} (h : ∀ c ∈ run.text, isAsciiDigit c = true) : run.plain = run.text := by
  apply List.filter_eq_self.mpr
  intro c hc
  simpa using IsDigits.ne_underscore (h c hc)

end DigitRun

namespace Numeral

variable {c : Char}

def chars : List Char :=
  ['+', '-', '.', '_', 'e', 'E'] ++ Text.plainDigits

/-- No character of a numeral is a blank, a comma or a digit of another script. -/
theorem of_mem_chars : ∀ c ∈ chars, isBlankChar c = false ∧ c ≠ ',' ∧ Decimal.isMargin c = false ∧
    Decimal.plainDigit c = c := by
  decide

theorem mem_chars_of_isAsciiDigit (h : isAsciiDigit c = true) : c ∈ chars :=
  List.mem_append_right _ (Text.mem_plainDigits_of_isAsciiDigit h)

theorem mem_chars_of_sign {s : Sign} (hc : c ∈ s.text) : c ∈ chars := by
  have hall : ∀ s : Sign, ∀ c ∈ s.text, c ∈ chars := by
    intro s
    cases s <;> decide
  exact hall s c hc

theorem mem_chars_of_digits {run : DigitRun} (hc : c ∈ run.text) : c ∈ chars := by
  rcases run.isDigits.mem_cases hc with rfl | hdigit
  · decide
  · exact mem_chars_of_isAsciiDigit hdigit

theorem mem_chars_of_optionDigits {run : Option DigitRun} (hc : c ∈ DigitRun.optionText run) : c ∈ chars := by
  cases run with
  | none => cases hc
  | some run => exact mem_chars_of_digits hc

theorem mem_chars_of_power {power : Option Power} (hc : c ∈ Power.text power) : c ∈ chars := by
  cases power with
  | none => cases hc
  | some power =>
    rcases List.mem_cons.mp hc with rfl | hc
    · rcases power.isLetter with hletter | hletter <;> rw [hletter] <;> decide
    · rcases List.mem_append.mp hc with hsign | hdigits
      · exact mem_chars_of_sign hsign
      · exact mem_chars_of_digits hdigits

theorem mem_chars_of_mem_text {n : Numeral} (hc : c ∈ n.text) : c ∈ chars := by
  have hpoint : '.' ∈ chars := by decide
  rcases List.mem_append.mp hc with hsign | hc
  · exact mem_chars_of_sign hsign
  rcases List.mem_append.mp hc with hmantissa | hpower
  · cases hm : n.mantissa with
    | whole w =>
      rw [hm] at hmantissa
      exact mem_chars_of_digits hmantissa
    | pointed w f =>
      rw [hm, Mantissa.text, List.mem_append, List.mem_cons] at hmantissa
      rcases hmantissa with hfront | rfl | hback
      · exact mem_chars_of_digits hfront
      · exact hpoint
      · exact mem_chars_of_optionDigits hback
    | fraction f =>
      rw [hm, Mantissa.text, List.mem_cons] at hmantissa
      rcases hmantissa with rfl | hback
      · exact hpoint
      · exact mem_chars_of_digits hback
  · exact mem_chars_of_power hpower

end Numeral

namespace Decimal

variable {t u p q plain rest : Text} {c : Char} {afterDigit : Bool}

theorem withoutSeparators_cons (hc : c ≠ '_') :
    withoutSeparators afterDigit (c :: t) = (withoutSeparators (isAsciiDigit c) t).map (c :: ·) := by
  rw [withoutSeparators.eq_def]
  split <;> simp_all

theorem withoutSeparators_underscore (hc : isAsciiDigit c = true) :
    withoutSeparators true ('_' :: c :: t) = (withoutSeparators true t).map (c :: ·) := by
  rw [withoutSeparators, hc]
  rfl

/-- Digits are passed, and their underscores are left out. -/
theorem withoutSeparators_digits (ht : IsDigits t) (afterDigit : Bool) :
    withoutSeparators afterDigit (t ++ rest) =
      (withoutSeparators true rest).map (t.filter (· != '_') ++ ·) := by
  induction ht generalizing afterDigit with
  | one hd =>
    have hplain := IsDigits.ne_underscore hd
    rw [List.singleton_append, withoutSeparators_cons hplain, hd]
    simp [hplain]
  | next hd ht ih =>
    have hplain := IsDigits.ne_underscore hd
    rw [List.cons_append, withoutSeparators_cons hplain, hd, ih, Option.map_map]
    simp [hplain, Function.comp_def]
  | @parted d t hd ht ih =>
    have hplain := IsDigits.ne_underscore hd
    have hskip : withoutSeparators true ('_' :: (t ++ rest)) = withoutSeparators true (t ++ rest) := by
      obtain ⟨e, after, rfl, he⟩ := ht.exists_first
      rw [List.cons_append, withoutSeparators_underscore he, withoutSeparators_cons (IsDigits.ne_underscore he), he]
    rw [List.cons_append, List.cons_append, withoutSeparators_cons hplain, hd, hskip, ih, Option.map_map]
    simp [hplain, Function.comp_def]

theorem withoutSeparators_sign (s : Sign) : withoutSeparators false (s.text ++ t) =
    (withoutSeparators false t).map (s.text ++ ·) := by
  have hnone : isAsciiDigit '+' = false ∧ isAsciiDigit '-' = false := by decide
  cases s with
  | none => simp [Sign.text]
  | plus =>
    rw [Sign.text, List.singleton_append, withoutSeparators_cons (by decide), hnone.1]
    rfl
  | minus =>
    rw [Sign.text, List.singleton_append, withoutSeparators_cons (by decide), hnone.2]
    rfl

theorem ne_of_isLetter (h : c = 'e' ∨ c = 'E') : c ≠ '_' ∧ isAsciiDigit c = false := by
  rcases h with rfl | rfl <;> decide

theorem withoutSeparators_power (afterDigit : Bool) (power : Option Power) :
    withoutSeparators afterDigit (Power.text power) = some (Power.plain power) := by
  cases power with
  | none => rfl
  | some power =>
    obtain ⟨hplain, hdigit⟩ := ne_of_isLetter power.isLetter
    have hdigits : withoutSeparators false (power.digits.text ++ []) = _ := withoutSeparators_digits power.digits.isDigits false
    rw [List.append_nil] at hdigits
    rw [Power.text, withoutSeparators_cons hplain, hdigit, withoutSeparators_sign, hdigits]
    simp [Power.plain, DigitRun.plain, withoutSeparators]

theorem withoutSeparators_point : withoutSeparators afterDigit ('.' :: t) =
    (withoutSeparators false t).map ('.' :: ·) :=
  withoutSeparators_cons (by decide)

theorem withoutSeparators_mantissa (m : Mantissa) (power : Option Power) :
    withoutSeparators false (m.text ++ Power.text power) = some (m.plain ++ Power.plain power) := by
  have hpower := withoutSeparators_power true power
  cases m with
  | whole w =>
    rw [Mantissa.text, withoutSeparators_digits w.isDigits, hpower]
    rfl
  | pointed w f =>
    have hfraction : withoutSeparators false (DigitRun.optionText f ++ Power.text power) =
        some (DigitRun.optionPlain f ++ Power.plain power) := by
      cases f with
      | none => exact withoutSeparators_power false power
      | some f =>
        rw [DigitRun.optionText, withoutSeparators_digits f.isDigits, hpower]
        rfl
    rw [Mantissa.text, List.append_assoc, withoutSeparators_digits w.isDigits, List.cons_append,
      withoutSeparators_point, hfraction]
    simp [Mantissa.plain, DigitRun.plain]
  | fraction f =>
    rw [Mantissa.text, List.cons_append, withoutSeparators_point, withoutSeparators_digits f.isDigits, hpower]
    rfl

theorem splitSign_text (s : Sign) (h : ∀ c ∈ t.head?, c ≠ '-' ∧ c ≠ '+') : splitSign (s.text ++ t) = (s.isMinus, t) := by
  cases s with
  | none =>
    rw [Sign.text, List.nil_append, splitSign.eq_def]
    split
    · exact absurd rfl (h '-' rfl).1
    · exact absurd rfl (h '+' rfl).2
    · rfl
  | plus | minus => rfl

theorem ne_sign {d : Char} (h : isAsciiDigit d = true) : d ≠ '-' ∧ d ≠ '+' := by
  constructor
  · rintro rfl
    cases h
  · rintro rfl
    cases h

theorem exponentOf_plain (power : Option Power) : exponentOf (Power.plain power) = some (Power.exponent power) := by
  cases power with
  | none => rfl
  | some power =>
    have hdigits : power.digits.plain.all isAsciiDigit = true :=
      List.all_eq_true.mpr fun c hc => DigitRun.isAsciiDigit_of_mem_plain hc
    have hsplit : splitSign (power.sign.text ++ power.digits.plain) = (power.sign.isMinus, power.digits.plain) :=
      splitSign_text power.sign fun c hc =>
        ne_sign (DigitRun.isAsciiDigit_of_mem_plain (List.mem_of_mem_head? hc))
    rw [Power.plain, exponentOf, hsplit]
    dsimp only
    rw [if_pos ⟨power.isLetter, power.digits.plain_ne_nil, hdigits⟩]
    rfl

theorem takeWhile_power (power : Option Power) : (Power.plain power).takeWhile isAsciiDigit = [] ∧
    (Power.plain power).dropWhile isAsciiDigit = Power.plain power := by
  cases power with
  | none => exact ⟨rfl, rfl⟩
  | some power =>
    have hdigit := (ne_of_isLetter power.isLetter).2
    constructor
    · rw [Power.plain, List.takeWhile_cons_of_neg (by simp [hdigit])]
    · rw [Power.plain, List.dropWhile_cons_of_neg (by simp [hdigit])]

/-- How a number is read when there is a point behind its first digits. -/
theorem ofPlain_of_point {negative : Bool} {after : Text} (h : t.dropWhile isAsciiDigit = '.' :: after) :
    ofPlain negative t = if (t.takeWhile isAsciiDigit).isEmpty && (after.takeWhile isAsciiDigit).isEmpty then none
      else (exponentOf (after.dropWhile isAsciiDigit)).map fun power =>
        ⟨negative, natOfDigits (t.takeWhile isAsciiDigit ++ after.takeWhile isAsciiDigit),
          power - (after.takeWhile isAsciiDigit).length⟩ := by
  unfold ofPlain
  rw [h]
  rfl

/-- How a number is read when there is no point behind its first digits. -/
theorem ofPlain_of_no_point {negative : Bool} (h : ∀ after, t.dropWhile isAsciiDigit ≠ '.' :: after) :
    ofPlain negative t = if (t.takeWhile isAsciiDigit).isEmpty then none
      else (exponentOf (t.dropWhile isAsciiDigit)).map fun power =>
        ⟨negative, natOfDigits (t.takeWhile isAsciiDigit), power⟩ := by
  unfold ofPlain
  dsimp only
  split
  · next after heq => exact absurd heq (h after)
  · simp

theorem ofPlain_point {front back : Text} (hfront : ∀ c ∈ front, isAsciiDigit c = true)
    (hback : ∀ c ∈ back, isAsciiDigit c = true) (hfilled : front ≠ [] ∨ back ≠ []) (negative : Bool)
    (power : Option Power) : ofPlain negative (front ++ '.' :: (back ++ Power.plain power)) =
      some ⟨negative, natOfDigits (front ++ back), Power.exponent power - back.length⟩ := by
  obtain ⟨htake, hdrop⟩ := takeWhile_power power
  have hpoint : ¬ isAsciiDigit '.' = true := by decide
  have hne : (front.isEmpty && back.isEmpty) = false := by
    rw [Bool.and_eq_false_iff, List.isEmpty_eq_false_iff, List.isEmpty_eq_false_iff]
    exact hfilled
  have hrest : (front ++ '.' :: (back ++ Power.plain power)).dropWhile isAsciiDigit =
      '.' :: (back ++ Power.plain power) := by
    rw [List.dropWhile_append_of_pos hfront, List.dropWhile_cons_of_neg hpoint]
  rw [ofPlain_of_point hrest, List.takeWhile_append_of_pos hfront, List.takeWhile_cons_of_neg hpoint,
    List.takeWhile_append_of_pos hback, List.dropWhile_append_of_pos hback, htake, hdrop]
  simp [hne, exponentOf_plain]

theorem ofPlain_whole {front : Text} (hfront : ∀ c ∈ front, isAsciiDigit c = true) (hfilled : front ≠ [])
    (negative : Bool) (power : Option Power) : ofPlain negative (front ++ Power.plain power) =
      some ⟨negative, natOfDigits front, Power.exponent power⟩ := by
  obtain ⟨htake, hdrop⟩ := takeWhile_power power
  have hne : front.isEmpty = false := List.isEmpty_eq_false_iff.mpr hfilled
  have hrest : (front ++ Power.plain power).dropWhile isAsciiDigit = Power.plain power := by
    rw [List.dropWhile_append_of_pos hfront, hdrop]
  have hno : ∀ after, (front ++ Power.plain power).dropWhile isAsciiDigit ≠ '.' :: after := by
    intro after heq
    rw [hrest] at heq
    cases power with
    | none => cases heq
    | some power =>
      have hletter : power.letter = '.' := (List.cons.inj heq).1
      have hforms := power.isLetter
      rw [hletter] at hforms
      revert hforms
      decide
  rw [ofPlain_of_no_point hno, hrest, List.takeWhile_append_of_pos hfront, htake]
  simp [hne, exponentOf_plain]

theorem ofPlain_mantissa (negative : Bool) (m : Mantissa) (power : Option Power) :
    ofPlain negative (m.plain ++ Power.plain power) =
      some ⟨negative, natOfDigits (m.front ++ m.back), Power.exponent power - m.back.length⟩ := by
  have hdigits (run : DigitRun) : ∀ c ∈ run.plain, isAsciiDigit c = true :=
    fun c hc => DigitRun.isAsciiDigit_of_mem_plain hc
  have hnone : ∀ c ∈ ([] : Text), isAsciiDigit c = true := fun c hc => absurd hc List.not_mem_nil
  cases m with
  | whole w =>
    rw [Mantissa.plain, ofPlain_whole (hdigits w) w.plain_ne_nil]
    simp [Mantissa.front, Mantissa.back]
  | pointed w f =>
    have hback : ∀ c ∈ DigitRun.optionPlain f, isAsciiDigit c = true := by
      cases f with
      | none => exact hnone
      | some f => exact hdigits f
    rw [Mantissa.plain, List.append_assoc, List.cons_append,
      ofPlain_point (hdigits w) hback (.inl w.plain_ne_nil)]
    rfl
  | fraction f =>
    exact ofPlain_point hnone (hdigits f) (.inr f.plain_ne_nil) negative power

/-- The last step of a walk that has kept a character. -/
theorem withoutSeparators_eq_cons (h : withoutSeparators afterDigit u = some (c :: q)) :
    (c ≠ '_' ∧ ∃ w, u = c :: w ∧ withoutSeparators (isAsciiDigit c) w = some q) ∨
    (afterDigit = true ∧ isAsciiDigit c = true ∧ ∃ w, u = '_' :: c :: w ∧ withoutSeparators true w = some q) := by
  match u with
  | [] => cases h
  | first :: rest =>
    by_cases hfirst : first = '_'
    · subst hfirst
      match rest with
      | [] => cases h
      | d :: rest =>
        rw [withoutSeparators] at h
        split_ifs at h with hpart
        obtain ⟨kept, hkept, heq⟩ := Option.map_eq_some_iff.mp h
        obtain ⟨rfl, rfl⟩ := List.cons.inj heq
        obtain ⟨hflag, hd⟩ := Bool.and_eq_true_iff.mp hpart
        exact .inr ⟨hflag, hd, rest, rfl, hkept⟩
    · rw [withoutSeparators_cons hfirst] at h
      obtain ⟨kept, hkept, heq⟩ := Option.map_eq_some_iff.mp h
      obtain ⟨rfl, rfl⟩ := List.cons.inj heq
      exact .inl ⟨hfirst, rest, rfl, hkept⟩

theorem withoutSeparators_eq_nil (h : withoutSeparators afterDigit u = some []) : u = [] := by
  match u with
  | [] => rfl
  | first :: rest =>
    by_cases hfirst : first = '_'
    · subst hfirst
      match rest with
      | [] => cases h
      | d :: rest =>
        rw [withoutSeparators] at h
        split_ifs at h
        obtain ⟨kept, -, heq⟩ := Option.map_eq_some_iff.mp h
        cases heq
    · rw [withoutSeparators_cons hfirst] at h
      obtain ⟨kept, -, heq⟩ := Option.map_eq_some_iff.mp h
      cases heq

/-- Digits that have been kept are digits as they are written, behind an underscore if digits went before. -/
theorem exists_digits_of_withoutSeparators (hp : ∀ d ∈ p, isAsciiDigit d = true) (hne : p ≠ [])
    (h : withoutSeparators afterDigit u = some (p ++ q)) : ∃ v w, IsDigits v ∧ v.filter (· != '_') = p ∧
      withoutSeparators true w = some q ∧ (u = v ++ w ∨ afterDigit = true ∧ u = '_' :: (v ++ w)) := by
  induction p generalizing u afterDigit with
  | nil => exact absurd rfl hne
  | cons c p ih =>
    obtain ⟨hc, hp⟩ := List.forall_mem_cons.mp hp
    have hplain := IsDigits.ne_underscore hc
    -- What stands behind the first digit, whether or not an underscore stands before it.
    have hrest {w : Text} (hw : withoutSeparators true w = some (p ++ q)) : ∃ v after, IsDigits (c :: v) ∧
        (c :: v).filter (· != '_') = c :: p ∧ withoutSeparators true after = some q ∧ w = v ++ after := by
      by_cases hlast : p = []
      · subst hlast
        exact ⟨[], w, .one hc, by simp [hplain], hw, rfl⟩
      · obtain ⟨v, after, hv, hkept, hafter, rfl | ⟨-, rfl⟩⟩ := ih hp hlast hw
        · exact ⟨v, after, .next hc hv, by simp [hplain, hkept], hafter, rfl⟩
        · exact ⟨'_' :: v, after, .parted hc hv, by simp [hplain, hkept], hafter, rfl⟩
    rcases withoutSeparators_eq_cons h with ⟨-, w, rfl, hw⟩ | ⟨hflag, -, w, rfl, hw⟩
    · rw [hc] at hw
      obtain ⟨v, after, hv, hkept, hafter, rfl⟩ := hrest hw
      exact ⟨c :: v, after, hv, hkept, hafter, .inl rfl⟩
    · obtain ⟨v, after, hv, hkept, hafter, rfl⟩ := hrest hw
      exact ⟨c :: v, after, hv, hkept, hafter, .inr ⟨hflag, rfl⟩⟩

/-- A run of digits at the start of what has been kept, empty or not. -/
theorem exists_run_of_withoutSeparators (hp : ∀ d ∈ p, isAsciiDigit d = true)
    (h : withoutSeparators false u = some (p ++ q)) : ∃ (run : Option DigitRun) (w : Text) (flag : Bool),
      u = DigitRun.optionText run ++ w ∧ DigitRun.optionPlain run = p ∧ withoutSeparators flag w = some q := by
  by_cases hne : p = []
  · subst hne
    exact ⟨none, u, false, rfl, rfl, h⟩
  · obtain ⟨v, w, hv, hkept, hw, rfl | ⟨hflag, -⟩⟩ := exists_digits_of_withoutSeparators hp hne h
    · exact ⟨some ⟨v, hv⟩, w, true, rfl, hkept, hw⟩
    · cases hflag

theorem eq_cons_of_withoutSeparators (hc : isAsciiDigit c = false)
    (h : withoutSeparators afterDigit u = some (c :: q)) :
    ∃ w, u = c :: w ∧ withoutSeparators false w = some q := by
  rcases withoutSeparators_eq_cons h with ⟨-, w, hu, hw⟩ | ⟨-, hdigit, -⟩
  · exact ⟨w, hu, hc ▸ hw⟩
  · rw [hc] at hdigit
    cases hdigit

/-- A text begins with the sign that is split off from it. -/
theorem exists_sign (t : Text) : ∃ s : Sign, t = s.text ++ (splitSign t).2 ∧ s.isMinus = (splitSign t).1 := by
  unfold splitSign
  split
  · exact ⟨.minus, rfl, rfl⟩
  · exact ⟨.plus, rfl, rfl⟩
  · exact ⟨.none, rfl, rfl⟩

/-- What is read as a power of ten is one. -/
theorem exists_power {k : Int} (hk : exponentOf t = some k) (h : withoutSeparators afterDigit u = some t) :
    ∃ power : Option Power, u = Power.text power ∧ Power.exponent power = k := by
  cases t with
  | nil => exact ⟨none, withoutSeparators_eq_nil h, Option.some.inj hk⟩
  | cons c rest =>
    unfold exponentOf at hk
    dsimp only at hk
    have hform : (c = 'e' ∨ c = 'E') ∧ (splitSign rest).2 ≠ [] ∧ (splitSign rest).2.all isAsciiDigit = true := by
      by_contra hno
      rw [if_neg hno] at hk
      cases hk
    obtain ⟨s, hrest, hminus⟩ := exists_sign rest
    rw [if_pos hform, ← hminus] at hk
    obtain ⟨hletter, hne, hdigits⟩ := hform
    obtain ⟨w, rfl, hw⟩ := eq_cons_of_withoutSeparators (ne_of_isLetter hletter).2 h
    generalize (splitSign rest).2 = digits at hk hne hdigits hrest
    have hsplit : ∃ v, w = s.text ++ v ∧ withoutSeparators false v = some digits := by
      subst hrest
      cases s with
      | none => exact ⟨w, rfl, hw⟩
      | plus | minus => exact eq_cons_of_withoutSeparators (by decide) hw
    obtain ⟨v, rfl, hv⟩ := hsplit
    rw [← List.append_nil digits] at hv
    obtain ⟨run, after, hrun, hkept, hafter, rfl | ⟨hflag, -⟩⟩ :=
      exists_digits_of_withoutSeparators (List.all_eq_true.mp hdigits) hne hv
    · obtain rfl := withoutSeparators_eq_nil hafter
      refine ⟨some ⟨c, s, ⟨run, hrun⟩, hletter⟩, by rw [List.append_nil]; rfl, ?_⟩
      have hplain : DigitRun.plain ⟨run, hrun⟩ = digits := hkept
      rw [Power.exponent, hplain]
      exact Option.some.inj hk
    · cases hflag

/-- What is read as a number without its sign is digits with a point and a power of ten. -/
theorem exists_mantissa {negative : Bool} {d : Decimal} (hd : ofPlain negative t = some d)
    (h : withoutSeparators false u = some t) :
    ∃ (m : Mantissa) (power : Option Power), u = m.text ++ Power.text power ∧
      d = ⟨negative, natOfDigits (m.front ++ m.back), Power.exponent power - m.back.length⟩ := by
  have htake (w : Text) : ∀ c ∈ w.takeWhile isAsciiDigit, isAsciiDigit c = true := fun c hc =>
    List.mem_takeWhile_imp hc
  have hsplit : t = t.takeWhile isAsciiDigit ++ t.dropWhile isAsciiDigit := List.takeWhile_append_dropWhile.symm
  rw [hsplit] at h
  obtain ⟨front, w, flag, rfl, hfront, hw⟩ := exists_run_of_withoutSeparators (htake t) h
  by_cases hpoint : ∃ after, t.dropWhile isAsciiDigit = '.' :: after
  · obtain ⟨after, hafter⟩ := hpoint
    rw [ofPlain_of_point hafter, ← hfront] at hd
    rw [hafter] at hw
    obtain ⟨v, rfl, hv⟩ := eq_cons_of_withoutSeparators (by decide) hw
    have hbehind : after = after.takeWhile isAsciiDigit ++ after.dropWhile isAsciiDigit :=
      List.takeWhile_append_dropWhile.symm
    rw [hbehind] at hv
    obtain ⟨back, x, flag', rfl, hback, hx⟩ := exists_run_of_withoutSeparators (htake after) hv
    rw [← hback] at hd
    split_ifs at hd with hnone
    obtain ⟨k, hk, rfl⟩ := Option.map_eq_some_iff.mp hd
    obtain ⟨power, rfl, rfl⟩ := exists_power hk hx
    cases front with
    | some w => exact ⟨.pointed w back, power, by simp [Mantissa.text, DigitRun.optionText], rfl⟩
    | none =>
      cases back with
      | some f => exact ⟨.fraction f, power, by simp [Mantissa.text, DigitRun.optionText], rfl⟩
      | none => exact absurd rfl hnone
  · rw [not_exists] at hpoint
    rw [ofPlain_of_no_point hpoint, ← hfront] at hd
    split_ifs at hd with hnone
    obtain ⟨k, hk, rfl⟩ := Option.map_eq_some_iff.mp hd
    obtain ⟨power, rfl, rfl⟩ := exists_power hk hw
    cases front with
    | some w =>
      refine ⟨.whole w, power, rfl, ?_⟩
      simp [Mantissa.front, Mantissa.back, DigitRun.optionPlain]
    | none => exact absurd rfl hnone

theorem exists_first_mantissa (m : Mantissa) :
    ∃ c rest, m.text = c :: rest ∧ (isAsciiDigit c = true ∨ c = '.') := by
  cases m with
  | whole w =>
    obtain ⟨c, rest, htext, hc⟩ := w.isDigits.exists_first
    exact ⟨c, rest, htext, .inl hc⟩
  | pointed w f =>
    obtain ⟨c, rest, htext, hc⟩ := w.isDigits.exists_first
    exact ⟨c, rest ++ '.' :: DigitRun.optionText f, by rw [Mantissa.text, htext, List.cons_append], .inl hc⟩
  | fraction f => exact ⟨'.', f.text, rfl, .inr rfl⟩

theorem splitSign_numeral (n : Numeral) :
    splitSign n.text = (n.sign.isMinus, n.mantissa.text ++ Power.text n.power) := by
  apply splitSign_text
  intro c hc
  obtain ⟨first, rest, htext, hfirst⟩ := exists_first_mantissa n.mantissa
  rw [htext, List.cons_append, List.head?_cons] at hc
  obtain rfl := Option.some.inj hc
  rcases hfirst with hdigit | rfl
  · exact ne_sign hdigit
  · decide

/-- A text is read as a decimal number exactly if it is a numeral, apart from blanks around it and the script of
its digits. -/
theorem ofText?_eq_some_iff {d : Decimal} : ofText? t = some d ↔
    ∃ n : Numeral, (Text.trim isMargin t).map plainDigit = n.text ∧ n.decimal = d := by
  unfold ofText?
  generalize (Text.trim isMargin t).map plainDigit = body
  constructor
  · intro h
    obtain ⟨s, hbody, hminus⟩ := exists_sign body
    obtain ⟨plain, hplain, hd⟩ := Option.bind_eq_some_iff.mp h
    obtain ⟨m, power, htext, rfl⟩ := exists_mantissa hd hplain
    refine ⟨⟨s, m, power⟩, ?_, ?_⟩
    · rw [hbody, htext, Numeral.text]
    · rw [← hminus, Numeral.decimal]
  · intro h
    obtain ⟨n, rfl, rfl⟩ := h
    rw [splitSign_numeral]
    dsimp only
    rw [withoutSeparators_mantissa, Option.bind_some, ofPlain_mantissa, Numeral.decimal]

end Decimal

namespace Number

variable {t : Text} {n : Number}

/-- A number does not begin like a word. -/
theorem ofWord?_mantissa (negative : Bool) (m : Mantissa) (rest : Text) :
    Binary64.ofWord? negative (m.text ++ rest) = none := by
  obtain ⟨c, after, htext, hc⟩ := Decimal.exists_first_mantissa m
  have hletter : c.toLower ∉ ['i', 'n'] := by
    rcases hc with hdigit | rfl
    · exact (Decimal.of_mem_plainDigits c (Text.mem_plainDigits_of_isAsciiDigit hdigit)).2.2.2.2
    · decide
  have hword {word : Text} {d : Char} (hd : d ∈ ['i', 'n']) (hhead : word.head? = some d) :
      (m.text ++ rest).map Char.toLower ≠ word := by
    rintro rfl
    rw [htext, List.cons_append, List.map_cons, List.head?_cons] at hhead
    exact hletter (Option.some.inj hhead ▸ hd)
  unfold Binary64.ofWord?
  dsimp only
  rw [if_neg, if_neg]
  · exact hword (d := 'n') (by decide) rfl
  · rintro (heq | heq)
    · exact hword (d := 'i') (by decide) rfl heq
    · exact hword (d := 'i') (by decide) rfl heq

/-- A decimal number is read as the value nearest to it. -/
theorem ofBinary_of_decimal {d : Decimal} (h : Decimal.ofText? t = some d) :
    Binary64.ofText? t = some d.toBinary := by
  obtain ⟨n, htext, rfl⟩ := Decimal.ofText?_eq_some_iff.mp h
  unfold Decimal.ofText? at h
  unfold Binary64.ofText?
  rw [htext, Decimal.splitSign_numeral] at h ⊢
  dsimp only at h ⊢
  obtain ⟨plain, hplain, hd⟩ := Option.bind_eq_some_iff.mp h
  rw [ofWord?_mantissa]
  dsimp only
  rw [hplain, Option.bind_some, hd, Option.map_some]

/-- A text is read as a number exactly if it is a numeral, apart from blanks around it and the script of its
digits, and the value nearest to the number is finite. -/
theorem exists_ofText?_iff : (∃ n, ofText? t = some n) ↔
    ∃ n : Numeral, (Text.trim Decimal.isMargin t).map Decimal.plainDigit = n.text ∧
      n.decimal.toBinary.isFinite = true := by
  constructor
  · intro h
    obtain ⟨n, hn⟩ := h
    obtain ⟨x, hx, hfinite, -⟩ := exists_binary_of_ofText? hn
    obtain ⟨d, hd, rfl⟩ := Binary64.exists_decimal_of_ofText? hx hfinite
    obtain ⟨numeral, htext, rfl⟩ := Decimal.ofText?_eq_some_iff.mp hd
    exact ⟨numeral, htext, hfinite⟩
  · intro h
    obtain ⟨numeral, htext, hfinite⟩ := h
    have hx := ofBinary_of_decimal (Decimal.ofText?_eq_some_iff.mpr ⟨numeral, htext, rfl⟩)
    unfold ofText?
    rw [hx]
    simp only [hfinite, if_true]
    exact ⟨_, rfl⟩

end Number
end AskTable
