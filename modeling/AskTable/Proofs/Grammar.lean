import AskTable.Proofs.Numeral
import AskTable.Proofs.Repairing

/-! The grammar of JSON. The repair leaves every object of it as it is, with all its blanks, numbers and escapes. -/
namespace AskTable.Json

def IsSpace (w : Text) : Prop :=
  ∀ c ∈ w, isJsonBlank c = true

instance (w : Text) : Decidable (IsSpace w) :=
  inferInstanceAs (Decidable (∀ c ∈ w, isJsonBlank c = true))

structure IsDigits (t : Text) : Prop where
  ne_nil : t ≠ []
  digits : ∀ c ∈ t, isAsciiDigit c = true

/-- A zero alone, or digits that begin with another one. -/
inductive IsWhole : Text → Prop
  | zero : IsWhole ['0']
  | digits {c : Char} {t : Text} (hc : isAsciiDigit c = true) (hne : c ≠ '0') (ht : ∀ d ∈ t, isAsciiDigit d = true) :
    IsWhole (c :: t)

/-- Nothing, or digits after a point. -/
inductive IsFraction : Text → Prop
  | none : IsFraction []
  | digits {t : Text} (ht : IsDigits t) : IsFraction ('.' :: t)

/-- Nothing, or the letter of a power of ten, a sign or none, and digits. -/
inductive IsPower : Text → Prop
  | none : IsPower []
  | digits {e : Char} {sign t : Text} (he : e = 'e' ∨ e = 'E') (hsign : sign = [] ∨ sign = ['+'] ∨ sign = ['-'])
    (ht : IsDigits t) : IsPower (e :: (sign ++ t))

inductive IsNumber : Text → Prop
  | parts {sign whole fraction power : Text} (hsign : sign = [] ∨ sign = ['-']) (hwhole : IsWhole whole)
    (hfraction : IsFraction fraction) (hpower : IsPower power) : IsNumber (sign ++ (whole ++ (fraction ++ power)))

/-- What stands between the quotes of a string: characters, and escapes of one letter or of four digits. -/
inductive IsBody : Text → Prop
  | nil : IsBody []
  | plain {c : Char} {t : Text} (hc : 32 ≤ c.toNat) (hquote : c ≠ '"') (hback : c ≠ '\\') (ht : IsBody t) :
    IsBody (c :: t)
  | escape {c : Char} {t : Text} (hc : c ∈ (['"', '\\', '/', 'b', 'f', 'n', 'r', 't'] : List Char)) (ht : IsBody t) :
    IsBody ('\\' :: c :: t)
  | code {digits t : Text} (hlength : digits.length = 4) (hdigits : ∀ c ∈ digits, (hexValue? c).isSome = true)
    (ht : IsBody t) : IsBody ('\\' :: 'u' :: (digits ++ t))

/-- What the grammar tells of: values, among them groups between brackets, single items of a group, and all. -/
inductive Symbol where
  | value
  | group (b : Bracket)
  | item (b : Bracket)
  | items (b : Bracket)

/-- The texts of a symbol. An item has the blanks after it. -/
inductive Derives : Symbol → Text → Prop
  | literal {t : Text} (ht : t ∈ (["true", "false", "null"] : List Text)) : Derives .value t
  | number {t : Text} (ht : IsNumber t) : Derives .value t
  | string {t : Text} (ht : IsBody t) : Derives .value ('"' :: (t ++ ['"']))
  | bracketed {b : Bracket} {t : Text} (ht : Derives (.group b) t) : Derives .value t
  | empty {b : Bracket} {w : Text} (hw : IsSpace w) : Derives (.group b) (b.opening :: (w ++ [b.closing]))
  | full {b : Bracket} {w t : Text} (hw : IsSpace w) (ht : Derives (.items b) t) :
    Derives (.group b) (b.opening :: (w ++ (t ++ [b.closing])))
  | element {t w : Text} (ht : Derives .value t) (hw : IsSpace w) : Derives (.item .square) (t ++ w)
  | member {name t w₁ w₂ w₃ : Text} (hname : IsBody name) (hw₁ : IsSpace w₁) (hw₂ : IsSpace w₂)
    (ht : Derives .value t) (hw₃ : IsSpace w₃) :
    Derives (.item .brace) ('"' :: (name ++ ['"']) ++ (w₁ ++ ':' :: (w₂ ++ (t ++ w₃))))
  | one {b : Bracket} {t : Text} (ht : Derives (.item b) t) : Derives (.items b) t
  | more {b : Bracket} {t w u : Text} (ht : Derives (.item b) t) (hw : IsSpace w) (hu : Derives (.items b) u) :
    Derives (.items b) (t ++ ',' :: (w ++ u))

/-- The texts of objects, with blanks around them. -/
inductive IsObjectText : Text → Prop
  | intro {w t w' : Text} (hw : IsSpace w) (ht : Derives (.group .brace) t) (hw' : IsSpace w') :
    IsObjectText (w ++ (t ++ w'))

theorem IsSpace.isBlankChar {w : Text} (h : IsSpace w) : ∀ c ∈ w, isBlankChar c = true := by
  intro c hc
  have hblank := h c hc
  simp only [isJsonBlank, Bool.or_eq_true, beq_iff_eq] at hblank
  rcases hblank with ((rfl | rfl) | rfl) | rfl <;> decide

theorem body_cons {c : Char} (hquote : c ≠ '"') (hback : c ≠ '\\') (t : Text) :
    literalLength.body (c :: t) = (literalLength.body t).map (· + 1) := by
  rw [literalLength.body]
  · exact hquote
  · intro hc
    exact absurd hc hback
  · intro d rest hc
    exact absurd hc hback

private theorem body_append {w : Text} (hw : ∀ c ∈ w, c ≠ '"' ∧ c ≠ '\\') (t : Text) :
    literalLength.body (w ++ t) = (literalLength.body t).map (· + w.length) := by
  induction w with
  | nil => simp
  | cons c w ih =>
    obtain ⟨hc, hw⟩ := List.forall_mem_cons.mp hw
    rw [List.cons_append, body_cons hc.1 hc.2, ih hw, Option.map_map]
    rfl

private theorem body_escape {c : Char} (hc : c ≠ '\n') (t : Text) :
    literalLength.body ('\\' :: c :: t) = (literalLength.body t).map (· + 2) := by
  rw [literalLength.body, if_neg hc]

theorem IsBody.append {w t : Text} (hw : ∀ c ∈ w, 32 ≤ c.toNat ∧ c ≠ '"' ∧ c ≠ '\\') (ht : IsBody t) :
    IsBody (w ++ t) := by
  induction w with
  | nil => exact ht
  | cons c w ih =>
    obtain ⟨hc, hw⟩ := List.forall_mem_cons.mp hw
    exact .plain hc.1 hc.2.1 hc.2.2 (ih hw)

/-- The place where a string literal ends is the one the grammar says. -/
theorem IsBody.isContent {t : Text} (h : IsBody t) : IsContent t := by
  intro rest
  induction h with
  | nil => rfl
  | plain hc hquote hback ht ih =>
    rw [List.cons_append, body_cons hquote hback, ih]
    rfl
  | @escape c t hc ht ih =>
    have hletters : ∀ d ∈ (['"', '\\', '/', 'b', 'f', 'n', 'r', 't'] : List Char), d ≠ '\n' := by decide
    rw [List.cons_append, List.cons_append, body_escape (hletters c hc), ih]
    rfl
  | @code digits t hlength hdigits ht ih =>
    have hplain : ∀ c ∈ digits, c ≠ '"' ∧ c ≠ '\\' := by
      intro c hc
      have hsome := hdigits c hc
      constructor
      · rintro rfl
        exact absurd hsome (by decide)
      · rintro rfl
        exact absurd hsome (by decide)
    rw [List.cons_append, List.cons_append, List.append_assoc, body_escape (by decide), body_append hplain, ih]
    simp only [Option.map_some, List.length_cons, List.length_append, hlength, Option.some.injEq]
    omega

theorem of_mem_plainDigits : ∀ c ∈ Text.plainDigits, c ∈ numeralChars ∧ isNameStart c = false := by
  decide

theorem mem_numeralChars_of_isAsciiDigit {c : Char} (h : isAsciiDigit c = true) : c ∈ numeralChars :=
  (of_mem_plainDigits c (Text.mem_plainDigits_of_isAsciiDigit h)).1

theorem IsDigits.chars {t : Text} (h : IsDigits t) : ∀ c ∈ t, c ∈ numeralChars :=
  fun c hc => mem_numeralChars_of_isAsciiDigit (h.digits c hc)

theorem IsWhole.chars {t : Text} (h : IsWhole t) : ∀ c ∈ t, c ∈ numeralChars := by
  cases h with
  | zero => decide
  | digits hc hne ht =>
    exact List.forall_mem_cons.mpr ⟨mem_numeralChars_of_isAsciiDigit hc,
      fun d hd => mem_numeralChars_of_isAsciiDigit (ht d hd)⟩

theorem IsFraction.chars {t : Text} (h : IsFraction t) : ∀ c ∈ t, c ∈ numeralChars := by
  cases h with
  | none => simp
  | digits ht => exact List.forall_mem_cons.mpr ⟨by decide, ht.chars⟩

theorem IsPower.chars {t : Text} (h : IsPower t) : ∀ c ∈ t, c ∈ numeralChars := by
  cases h with
  | none => simp
  | digits he hsign ht =>
    refine List.forall_mem_cons.mpr ⟨?_, List.forall_mem_append.mpr ⟨?_, ht.chars⟩⟩
    · rcases he with rfl | rfl <;> decide
    · rcases hsign with rfl | rfl | rfl <;> decide

private theorem IsNumber.isNumeral {t : Text} (h : IsNumber t) : IsNumeral t := by
  cases h with
  | @parts sign whole fraction power hsign hwhole hfraction hpower =>
    have hfirst : ∃ c rest, whole = c :: rest ∧ isNameStart c = false := by
      cases hwhole with
      | zero => exact ⟨'0', [], rfl, rfl⟩
      | @digits c t hc hne ht =>
        exact ⟨c, t, rfl, (of_mem_plainDigits c (Text.mem_plainDigits_of_isAsciiDigit hc)).2⟩
    obtain ⟨c, rest, rfl, hc⟩ := hfirst
    refine ⟨by simp, ?_, ?_⟩
    · rcases hsign with rfl | rfl
      · simpa using hc
      · rfl
    · refine List.forall_mem_append.mpr ⟨?_, List.forall_mem_append.mpr ⟨hwhole.chars,
        List.forall_mem_append.mpr ⟨hfraction.chars, hpower.chars⟩⟩⟩
      rcases hsign with rfl | rfl <;> decide

theorem startsValue_precedes {x y : Lexeme} (hx : x = .comma ∨ x = .colon ∨ ∃ b, x = .opening b)
    (hy : y.startsValue = true) : x.precedes y = true := by
  rcases hx with rfl | rfl | ⟨b, rfl⟩ <;> cases y <;> simp_all [Lexeme.startsValue, Lexeme.precedes]

/-- Tokens of JSON: every name and every word has its quotes, and there is no comma too many. -/
structure IsStandard (ts : List Token) : Prop extends IsRow Lexeme.startsValue ts where
  mended : mend ts = ts

namespace IsStandard

variable {ts us : List Token} {x : Token} {b : Bracket} {w w' : Text}

theorem single (hx : x.IsValid) (hstarts : x.lexeme.startsValue = true) (hends : x.lexeme.endsValue = true)
    (hmend : mend [x] = [x]) : IsStandard [x] where
  toIsRow := .single hx hstarts hends
  mended := hmend

/-- A name, a colon and a value. -/
theorem member {name : Text} (h : IsStandard ts) (hname : IsContent name) (hw : ∀ c ∈ w, isBlankChar c = true)
    (hw' : ∀ c ∈ w', isBlankChar c = true) : IsStandard (⟨.quote name, w⟩ :: ⟨.colon, w'⟩ :: ts) where
  toIsRow := by
    have hvalue : IsRow (· = .colon) (⟨.colon, w'⟩ :: ts) :=
      h.toIsRow.cons ⟨trivial, hw'⟩ (by simp) fun y => startsValue_precedes (.inr (.inl rfl))
    refine hvalue.cons ⟨hname, hw⟩ rfl fun y hy => ?_
    rw [of_decide_eq_true hy]
    rfl
  mended := by
    rw [mend_cons, mend_cons ⟨.colon, w'⟩, h.mended]
    rfl

theorem comma (h : IsStandard ts) (h' : IsStandard us) (hw : ∀ c ∈ w, isBlankChar c = true) :
    IsStandard (ts ++ ⟨.comma, w⟩ :: us) where
  toIsRow := h.toIsRow.comma h'.toIsRow hw fun y => startsValue_precedes (.inl rfl)
  mended := by
    rw [mend_append, mend_cons, h.mended, h'.mended]
    rfl

theorem group (h : IsStandard ts) (hw : ∀ c ∈ w, isBlankChar c = true) (hw' : ∀ c ∈ w', isBlankChar c = true) :
    IsStandard (⟨.opening b, w⟩ :: (ts ++ [⟨.closing b, w'⟩])) where
  toIsRow := by
    have hnone : ([] : List Token) = [] ∨ ([] : List Token) = [⟨.extra, []⟩] := .inl rfl
    exact h.toIsRow.group hw hw' (fun y => startsValue_precedes (.inr (.inr ⟨b, rfl⟩))) hnone
  mended := by
    rw [mend_cons, mend_append, h.mended]
    rfl

theorem empty (hw : ∀ c ∈ w, isBlankChar c = true) (hw' : ∀ c ∈ w', isBlankChar c = true) :
    IsStandard [⟨.opening b, w⟩, ⟨.closing b, w'⟩] where
  toIsRow := .empty hw hw'
  mended := rfl

end IsStandard

theorem isIdentifier_of_literal : ∀ t ∈ (["true", "false", "null"] : List Text), IsIdentifier t := by
  intro t ht
  simp only [List.mem_cons, List.not_mem_nil, or_false] at ht
  rcases ht with rfl | rfl | rfl <;> exact ⟨by decide, by decide⟩

/-- What the tokens of a symbol's text are. Values and groups have blanks after them. -/
def Symbol.IsSpelled (t : Text) : Symbol → Prop
  | .value => ∀ w, IsSpace w → ∃ ts, IsStandard ts ∧ spell ts = t ++ w
  | .group b => ∀ w, IsSpace w → ∃ ts, IsStandard (ts ++ [⟨.closing b, w⟩]) ∧ spell (ts ++ [⟨.closing b, w⟩]) = t ++ w
  | .item _ | .items _ => ∃ ts, IsStandard ts ∧ spell ts = t

theorem Derives.isSpelled {symbol : Symbol} {t : Text} (h : Derives symbol t) : symbol.IsSpelled t := by
  induction h with
  | @literal t ht =>
    intro w hw
    have hliteral : isLiteral t = true := List.contains_iff_mem.mpr ht
    refine ⟨[⟨.word t, w⟩], .single ⟨isIdentifier_of_literal t ht, hw.isBlankChar⟩ hliteral rfl ?_, by simp⟩
    simp [mend, Token.map, Lexeme.named, Lexeme.valued, hliteral, Token.isKept]
  | @number t ht =>
    intro w hw
    exact ⟨[⟨.number t, w⟩], .single ⟨ht.isNumeral, hw.isBlankChar⟩ rfl rfl rfl, by simp [Lexeme.text]⟩
  | @string t ht =>
    intro w hw
    exact ⟨[⟨.quote t, w⟩], .single ⟨ht.isContent, hw.isBlankChar⟩ rfl rfl rfl, by simp⟩
  | bracketed ht ih =>
    intro w hw
    obtain ⟨ts, hts, htext⟩ := ih w hw
    exact ⟨_, hts, htext⟩
  | @empty b w hw =>
    intro w' hw'
    refine ⟨[⟨.opening b, w⟩], .empty hw.isBlankChar hw'.isBlankChar, ?_⟩
    simp [Lexeme.text]
  | @full b w t hw ht ih =>
    intro w' hw'
    obtain ⟨ts, hts, rfl⟩ := ih
    refine ⟨⟨.opening b, w⟩ :: ts, hts.group hw.isBlankChar hw'.isBlankChar, ?_⟩
    simp [Lexeme.text]
  | element ht hw ih => exact ih _ hw
  | @member name t w₁ w₂ w₃ hname hw₁ hw₂ ht hw₃ ih =>
    obtain ⟨ts, hts, htext⟩ := ih w₃ hw₃
    refine ⟨_, hts.member hname.isContent hw₁.isBlankChar hw₂.isBlankChar, ?_⟩
    simp [htext]
  | one ht ih => exact ih
  | @more b t w u ht hw hu ih ih' =>
    obtain ⟨ts, hts, rfl⟩ := ih
    obtain ⟨us, hus, rfl⟩ := ih'
    refine ⟨_, hts.comma hus hw.isBlankChar, ?_⟩
    simp [Lexeme.text]

/-- The repair leaves an object of JSON as it is. -/
theorem repair_of_isObjectText {t : Text} (h : IsObjectText t) : repair t = t := by
  obtain ⟨hw, ht, hw'⟩ := h
  obtain ⟨ts, hts, htext⟩ := ht.isSpelled _ hw'
  rw [← htext, hts.repair_eq hw.isBlankChar, hts.mended]

/-- A list with a number and an object in it, and a name that looks like members. -/
def nestedText : Text :=
  " \x7b\"a\" : [-1.50e+3 , \x7b \x7d], \"it's, b: \\\"\\u00e9\":true \x7d\n"

private theorem isObjectText_nestedText : IsObjectText nestedText := by
  have hspace : IsSpace [' '] := by decide
  have hnone : IsSpace [] := by decide
  have hwhole : IsWhole "1" := .digits (by decide) (by decide) (by decide)
  have hfraction : IsFraction ".50" := .digits ⟨by decide, by decide⟩
  have hsign : (['+'] : Text) = [] ∨ ['+'] = ['+'] ∨ ['+'] = ['-'] := .inr (.inl rfl)
  have hpower : IsPower "e+3" := .digits (.inl rfl) hsign ⟨by decide, by decide⟩
  have hnumber : Derives .value "-1.50e+3" := .number (.parts (.inr rfl) hwhole hfraction hpower)
  have hempty : Derives .value "\x7b \x7d" := .bracketed (.empty (b := .brace) hspace)
  have hlist : Derives .value "[-1.50e+3 , \x7b \x7d]" :=
    .bracketed (.full (b := .square) hnone (.more (.element hnumber hspace) hspace (.one (.element hempty hnone))))
  have hcode : IsBody "\\\"\\u00e9" :=
    .escape (by decide) (@IsBody.code "00e9" [] rfl (by decide) .nil)
  have hname : IsBody "it's, b: \\\"\\u00e9" := .append (w := "it's, b: ") (by decide) hcode
  have hsecond : Derives (.items .brace) "\"it's, b: \\\"\\u00e9\":true " :=
    .one (.member hname hnone hnone (.literal (t := "true") (by decide)) hspace)
  have hletter : IsBody ['a'] := .append (w := ['a']) (by decide) .nil
  have hfirst : Derives (.item .brace) "\"a\" : [-1.50e+3 , \x7b \x7d]" :=
    .member hletter hspace hspace hlist hnone
  have hline : IsSpace ['\n'] := by decide
  exact .intro hspace (.full hnone (.more hfirst hspace hsecond)) hline

theorem repair_nestedText : IsObjectText nestedText ∧ repair nestedText = nestedText :=
  ⟨isObjectText_nestedText, repair_of_isObjectText isObjectText_nestedText⟩

end AskTable.Json
