import AskTable.Proofs.Corrections

/-! What the repair makes of a row of tokens: string literals stay, and all between them is corrected. -/
namespace AskTable.Json

theorem IsGap.map {f : Lexeme → Lexeme} {ts : List Token} (h : IsGap ts)
    (htame : ∀ x : Token, x.IsTame → (x.map f).IsTame)
    (hprecedes : ∀ x y : Lexeme, x.precedes y = true → (f x).precedes (f y) = true)
    (hlast : ∀ x : Lexeme, x.canBeLast = true → (f x).canBeLast = true) : IsGap (ts.map (Token.map f)) where
  tame := by
    intro y hy
    obtain ⟨x, hx, rfl⟩ := List.mem_map.mp hy
    exact htame x (h.tame x hx)
  orderly := by
    unfold IsOrderly
    rw [List.isChain_map]
    exact h.orderly.imp fun x y hxy => hprecedes _ _ hxy
  ends := by
    intro y hy
    rw [List.getLast?_map] at hy
    obtain ⟨x, hx, rfl⟩ := Option.map_eq_some_iff.mp hy
    exact hlast _ (h.ends x hx)

/-- The tokens with their quotes, and without commas behind last items. -/
def mend (ts : List Token) : List Token :=
  ((ts.map (Token.map Lexeme.named)).map (Token.map Lexeme.valued)).filter Token.isKept

theorem mend_append (ts us : List Token) : mend (ts ++ us) = mend ts ++ mend us := by
  simp [mend]

theorem mend_cons (x : Token) (ts : List Token) : mend (x :: ts) = mend [x] ++ mend ts :=
  mend_append [x] ts

/-- A row of tokens begins with what needs no quotes, or with nothing. -/
def StartsPlain (ts : List Token) : Prop :=
  ∀ x ∈ ts.head?, x.lexeme.isBare = false

theorem mendGap_spell {ts : List Token} {w : Text} (hw : ∀ c ∈ w, isBlankChar c = true) (h : IsGap ts)
    (hstart : StartsPlain ts) : mendGap (w ++ spell ts) = w ++ spell (mend ts) := by
  have hsolid : ∀ c ∈ w, c ∉ signs := fun c hc => not_mem_signs_of_isBlankChar (hw c hc)
  have hnames : ∀ x ∈ ts.head?, ∀ t, x.lexeme ≠ .name t := by
    intro x hx t ht
    have hbare := hstart x hx
    rw [ht] at hbare
    cases hbare
  have hvalues : ∀ x ∈ (ts.map (Token.map Lexeme.named)).head?, x.lexeme.valued = x.lexeme := by
    intro y hy
    rw [List.head?_map] at hy
    obtain ⟨x, hx, rfl⟩ := Option.map_eq_some_iff.mp hy
    have hbare := hstart x hx
    revert hbare
    unfold Token.map
    cases x.lexeme with
    | word t => cases hliteral : isLiteral t <;> simp [Lexeme.isBare, Lexeme.named, Lexeme.valued, hliteral]
    | name t => simp [Lexeme.isBare]
    | _ => exact fun _ => rfl
  have hnamed : IsGap (ts.map (Token.map Lexeme.named)) :=
    h.map (fun _ => Token.IsTame.map_named) (fun _ _ => Lexeme.precedes_named) fun _ => Lexeme.canBeLast_named
  have hvalued := hnamed.map (fun _ => Token.IsTame.map_valued) (fun _ _ => Lexeme.precedes_valued)
    fun _ => Lexeme.canBeLast_valued
  have hfirst : Rewrites quoteName (w ++ spell ts) (w ++ spell (ts.map (Token.map Lexeme.named))) :=
    .append (fun c hc => quoteName_starts c fun hmem => hsolid c hc (quoteName_starts_subset hmem))
      (rewrites_quoteName ts h hnames)
  have hsecond : Rewrites quoteValue (w ++ spell (ts.map (Token.map Lexeme.named)))
      (w ++ spell ((ts.map (Token.map Lexeme.named)).map (Token.map Lexeme.valued))) :=
    .append (fun c hc => quoteValue_starts c fun hmem => hsolid c hc (quoteValue_starts_subset hmem))
      (rewrites_quoteValue _ hnamed hvalues)
  have hthird : Rewrites dropComma (w ++ spell ((ts.map (Token.map Lexeme.named)).map (Token.map Lexeme.valued)))
      (w ++ spell (mend ts)) :=
    .append (fun c hc => dropComma_starts c fun hmem => hsolid c hc (dropComma_starts_subset hmem))
      (rewrites_dropComma _ hvalued)
  rw [mendGap, hfirst.substitute_eq, hsecond.substitute_eq, hthird.substitute_eq]

/-- Tokens with any text between quotes. -/
def Token.IsValid (x : Token) : Prop :=
  (match x.lexeme with
    | .name t | .word t => IsIdentifier t
    | .number t => IsNumeral t
    | .quote t => IsContent t
    | _ => True) ∧
  ∀ c ∈ x.blanks, isBlankChar c = true

theorem Token.IsValid.isTame {x : Token} (h : x.IsValid) (hquote : x.lexeme.quote? = none) : x.IsTame := by
  obtain ⟨lexeme, blanks⟩ := x
  obtain ⟨hlexeme, hblanks⟩ := h
  refine ⟨?_, hblanks⟩
  cases lexeme with
  | quote t => cases hquote
  | _ => exact hlexeme

private theorem literalAt_quote {t : Text} (h : IsContent t) (before rest : Text) :
    literalAt ⟨before, '"' :: (t ++ '"' :: rest)⟩ = some ('"' :: (t ++ ['"']), t.length + 2) := by
  have hlength : literalLength ('"' :: (t ++ '"' :: rest)) = some (t.length + 2) := by
    change (literalLength.body (t ++ '"' :: rest)).map (· + 1) = _
    rw [h rest]
    rfl
  have htake : ('"' :: (t ++ '"' :: rest)).take (t.length + 2) = '"' :: (t ++ ['"']) := by
    have hsplit : '"' :: (t ++ '"' :: rest) = ('"' :: (t ++ ['"'])) ++ rest := by simp
    rw [hsplit]
    exact List.take_left' (by simp)
  unfold literalAt
  dsimp only
  rw [hlength, Option.map_some, htake]

private theorem literalAt_eq_none {c : Char} (hc : c ≠ '"') (before rest : Text) :
    literalAt ⟨before, c :: rest⟩ = none := by
  have hlength : literalLength (c :: rest) = none := by
    unfold literalLength
    split
    · next heq => exact absurd (List.cons.inj heq).1 hc
    · rfl
  unfold literalAt
  dsimp only
  rw [hlength]
  rfl

theorem mendAround_inl (gap w : Text) (pieces : List (Char ⊕ Text)) :
    mendAround gap (w.map .inl ++ pieces) = mendAround (w.reverse ++ gap) pieces := by
  induction w generalizing gap with
  | nil => rfl
  | cons c w ih => simp [mendAround, ih]

theorem mendAround_literal (gap before w rest : Text) (ht : IsContent w) :
    mendAround gap (Text.piecesFrom literalAt 0 before ('"' :: (w ++ '"' :: rest))) =
      mendGap gap.reverse ++ ('"' :: (w ++ ['"'])) ++
        mendAround [] (Text.piecesFrom literalAt 0 ((w ++ ['"']).reverse ++ '"' :: before) rest) := by
  rw [Text.piecesFrom_of_some (literalAt_quote ht before rest)]
  have hlength : w.length + 2 - 1 = (w ++ ['"']).length := by simp
  have hsplit : w ++ '"' :: rest = (w ++ ['"']) ++ rest := by simp
  rw [hlength, hsplit, Text.piecesFrom_skip]
  rfl

theorem piecesFrom_literalAt {w : Text} (hw : '"' ∉ w) (before rest : Text) :
    Text.piecesFrom literalAt 0 before (w ++ rest) =
      w.map .inl ++ Text.piecesFrom literalAt 0 (w.reverse ++ before) rest := by
  apply Text.piecesFrom_append
  intro u v huv hv
  obtain ⟨c, v, rfl⟩ := List.exists_cons_of_ne_nil hv
  refine literalAt_eq_none ?_ _ _
  rintro rfl
  exact hw (by simp [huv])

private theorem Token.IsTame.quote_not_mem {x : Token} (h : x.IsTame) (hquote : x.lexeme.quote? = none) :
    '"' ∉ x.lexeme.text ++ x.blanks := by
  intro hc
  rcases List.mem_append.mp hc with hc | hc
  · exact Lexeme.quote?_ne_none_of_sign? (h.sign?_eq hc (by decide)) hquote
  · exact h.blank_not_mem_signs hc (by decide)

/-- A tame token joins the gap. -/
theorem mendAround_tame {x : Token} (h : x.IsTame) (hquote : x.lexeme.quote? = none) (ts : List Token)
    (gap before : Text) :
    mendAround gap (Text.piecesFrom literalAt 0 before (spell (x :: ts))) =
      mendAround ((x.lexeme.text ++ x.blanks).reverse ++ gap)
        (Text.piecesFrom literalAt 0 ((x.lexeme.text ++ x.blanks).reverse ++ before) (spell ts)) := by
  have hfree := h.quote_not_mem hquote
  rw [spell_cons, ← List.append_assoc, piecesFrom_literalAt hfree, mendAround_inl]

/-- A string literal closes the gap, and another begins with the blanks behind it. -/
theorem mendAround_quote {t blanks : Text} (h : Token.IsValid ⟨.quote t, blanks⟩) (ts : List Token)
    (gap before : Text) :
    ∃ passed, mendAround gap (Text.piecesFrom literalAt 0 before (spell (⟨.quote t, blanks⟩ :: ts))) =
      mendGap gap.reverse ++ (Lexeme.quote t).text ++
        mendAround blanks.reverse (Text.piecesFrom literalAt 0 passed (spell ts)) := by
  have hfree : '"' ∉ blanks := by
    intro hc
    exact absurd (h.2 _ hc) (by decide)
  have htext : spell (⟨.quote t, blanks⟩ :: ts) = '"' :: (t ++ '"' :: (blanks ++ spell ts)) := by simp
  refine ⟨blanks.reverse ++ ((t ++ ['"']).reverse ++ '"' :: before), ?_⟩
  rw [htext, mendAround_literal _ _ _ _ h.1, piecesFrom_literalAt hfree, mendAround_inl, List.append_nil]
  simp

private theorem IsOrderly.isGap_before_quote {gap ts : List Token} {t blanks : Text}
    (h : IsOrderly (gap ++ ⟨.quote t, blanks⟩ :: ts)) (hgap : ∀ x ∈ gap, x.IsTame) : IsGap gap := by
  obtain ⟨hfront, -, hjoin⟩ := List.isChain_append.mp h
  exact ⟨hgap, hfront, fun y hy => Lexeme.canBeLast_of_precedes_quote (hjoin y hy _ rfl)⟩

private theorem IsOrderly.startsPlain_behind_quote {ts : List Token} {t blanks : Text}
    (h : IsOrderly (⟨.quote t, blanks⟩ :: ts)) : StartsPlain ts :=
  fun y hy => Lexeme.not_isBare_of_precedes ((List.isChain_cons.mp h).1 y hy)

/-- The repair of a row of tokens, some of which have been passed since the last string literal. -/
theorem mendAround_spell {w : Text} {gap ts : List Token} (hw : ∀ c ∈ w, isBlankChar c = true)
    (hgap : ∀ x ∈ gap, x.IsTame) (hvalid : ∀ x ∈ ts, x.IsValid) (horderly : IsOrderly (gap ++ ts))
    (hlast : ∀ x ∈ (gap ++ ts).getLast?, x.lexeme.canBeLast = true) (hstart : StartsPlain (gap ++ ts))
    (before : Text) :
    mendAround (w ++ spell gap).reverse (Text.piecesFrom literalAt 0 before (spell ts)) =
      w ++ spell (mend (gap ++ ts)) := by
  induction ts generalizing w gap before with
  | nil =>
    rw [List.append_nil] at horderly hlast hstart
    change mendGap (w ++ spell gap).reverse.reverse = _
    rw [List.reverse_reverse, mendGap_spell hw ⟨hgap, horderly, hlast⟩ hstart, List.append_nil]
  | cons x ts ih =>
    obtain ⟨hx, htail⟩ := List.forall_mem_cons.mp hvalid
    cases hquote : x.lexeme.quote? with
    | none =>
      have htame := hx.isTame hquote
      have hmore : gap ++ x :: ts = (gap ++ [x]) ++ ts := by simp
      rw [hmore] at horderly hlast hstart ⊢
      have hgap : ∀ y ∈ gap ++ [x], y.IsTame :=
        List.forall_mem_append.mpr ⟨hgap, List.forall_mem_singleton.mpr htame⟩
      have hpassed : (x.lexeme.text ++ x.blanks).reverse ++ (w ++ spell gap).reverse =
          (w ++ spell (gap ++ [x])).reverse := by simp
      rw [mendAround_tame htame hquote, hpassed, ih hw hgap htail horderly hlast hstart]
    | some t =>
      obtain ⟨lexeme, blanks⟩ := x
      obtain rfl : lexeme = .quote t := Lexeme.eq_quote_of_quote? hquote
      have hclosed := horderly.isGap_before_quote hgap
      have hback := (List.isChain_append.mp horderly).2.1
      have hplain : StartsPlain gap := by
        intro y hy
        apply hstart y
        rw [List.head?_append, hy]
        rfl
      have hend : ∀ y ∈ ts.getLast?, y.lexeme.canBeLast = true := by
        intro y hy
        apply hlast y
        rw [List.getLast?_append, List.getLast?_cons, hy]
        rfl
      obtain ⟨passed, hstep⟩ := mendAround_quote hx ts (w ++ spell gap).reverse before
      have hrest := @ih blanks [] hx.2 (by simp) htail hback.tail hend
        (IsOrderly.startsPlain_behind_quote hback) passed
      have hmend : mend (⟨.quote t, blanks⟩ :: ts) = ⟨.quote t, blanks⟩ :: mend ts := rfl
      rw [spell_nil, List.append_nil, List.nil_append] at hrest
      rw [hstep, hrest, List.reverse_reverse, mendGap_spell hw hclosed hplain, mend_append, hmend]
      simp

/-- An apostrophe stands between quotes only. -/
theorem quote_mem_spell {ts : List Token} (hvalid : ∀ x ∈ ts, x.IsValid) (h : '\'' ∈ spell ts) : '"' ∈ spell ts := by
  obtain ⟨x, hx, hc⟩ := List.mem_flatMap.mp h
  refine List.mem_flatMap.mpr ⟨x, hx, ?_⟩
  cases hquote : x.lexeme.quote? with
  | some t => simp [Token.text, Lexeme.eq_quote_of_quote? hquote]
  | none =>
    have htame := (hvalid x hx).isTame hquote
    rcases List.mem_append.mp hc with hc | hc
    · exact absurd (htame.sign?_eq hc (by decide)) x.lexeme.sign?_ne_apostrophe
    · exact absurd (by decide) (htame.blank_not_mem_signs hc)

/-- What the repair makes of a row of tokens, with blanks before it. -/
theorem repair_spell {w : Text} {ts : List Token} (hw : ∀ c ∈ w, isBlankChar c = true)
    (hvalid : ∀ x ∈ ts, x.IsValid) (horderly : IsOrderly ts)
    (hlast : ∀ x ∈ ts.getLast?, x.lexeme.canBeLast = true) (hstart : StartsPlain ts) :
    repair (w ++ spell ts) = w ++ spell (mend ts) := by
  have hfree : ∀ c ∈ w, c ≠ '"' ∧ c ≠ '\'' := by
    intro c hc
    constructor
    · rintro rfl
      exact absurd (hw _ hc) (by decide)
    · rintro rfl
      exact absurd (hw _ hc) (by decide)
  have hquotes : ((w ++ spell ts).elem '\'' && !(w ++ spell ts).elem '"') = false := by
    rw [Bool.and_eq_false_iff, Bool.not_eq_false', List.elem_eq_mem, List.elem_eq_mem, decide_eq_false_iff_not,
      decide_eq_true_eq]
    by_cases hapostrophe : '\'' ∈ w ++ spell ts
    · rcases List.mem_append.mp hapostrophe with hc | hc
      · exact absurd rfl (hfree _ hc).2
      · exact .inr (List.mem_append_right w (quote_mem_spell hvalid hc))
    · exact .inl hapostrophe
  have hmended := @mendAround_spell w [] ts hw (by simp) hvalid horderly hlast hstart (w.reverse ++ [])
  unfold repair
  dsimp only
  rw [hquotes, if_neg Bool.false_ne_true, Text.pieces,
    piecesFrom_literalAt fun hc => (hfree _ hc).1 rfl, mendAround_inl]
  simpa using hmended

/-- A row of tokens that is one item of a list or an object, or several with commas between them. -/
structure IsRow (starts : Lexeme → Bool) (ts : List Token) : Prop where
  ne_nil : ts ≠ []
  valid : ∀ x ∈ ts, x.IsValid
  orderly : IsOrderly ts
  first : ∀ x ∈ ts.head?, starts x.lexeme = true
  last : ∀ x ∈ ts.getLast?, x.lexeme.endsValue = true

namespace IsRow

variable {starts starts' : Lexeme → Bool} {ts us : List Token} {x : Token} {b : Bracket} {w w' : Text}

theorem mono (h : IsRow starts ts) (hstarts : ∀ x, starts x = true → starts' x = true) : IsRow starts' ts :=
  { h with first := fun x hx => hstarts _ (h.first x hx) }

theorem single (hx : x.IsValid) (hstarts : starts x.lexeme = true) (hends : x.lexeme.endsValue = true) :
    IsRow starts [x] where
  ne_nil := List.cons_ne_nil _ _
  valid := by simpa using hx
  orderly := List.isChain_singleton x
  first := by simpa using hstarts
  last := by simpa using hends

/-- A row after a lexeme that any of its first lexemes can follow. -/
theorem cons (h : IsRow starts ts) (hx : x.IsValid) (hstarts : starts' x.lexeme = true)
    (hprecedes : ∀ y, starts y = true → x.lexeme.precedes y = true) : IsRow starts' (x :: ts) where
  ne_nil := List.cons_ne_nil _ _
  valid := List.forall_mem_cons.mpr ⟨hx, h.valid⟩
  orderly := List.isChain_cons.mpr ⟨fun y hy => hprecedes _ (h.first y hy), h.orderly⟩
  first := by simpa using hstarts
  last := by
    intro y hy
    obtain ⟨z, rest, rfl⟩ := List.exists_cons_of_ne_nil h.ne_nil
    exact h.last y (by rwa [List.getLast?_cons_cons] at hy)

/-- A row before other tokens, the first of which can come after an item. -/
theorem append (h : IsRow starts ts) (hvalid : ∀ y ∈ us, y.IsValid) (horderly : IsOrderly us)
    (hfirst : ∀ y ∈ us.head?, y.lexeme.endsItem = true) (hne : us ≠ [])
    (hlast : ∀ y ∈ us.getLast?, y.lexeme.endsValue = true) : IsRow starts (ts ++ us) where
  ne_nil := by simp [h.ne_nil]
  valid := List.forall_mem_append.mpr ⟨h.valid, hvalid⟩
  orderly := List.isChain_append.mpr
    ⟨h.orderly, horderly, fun y hy z hz => Lexeme.precedes_of_endsValue (h.last y hy) (hfirst z hz)⟩
  first := by
    obtain ⟨z, rest, rfl⟩ := List.exists_cons_of_ne_nil h.ne_nil
    exact h.first
  last := by
    intro y hy
    rw [List.getLast?_append] at hy
    obtain ⟨z, hz⟩ := Option.isSome_iff_exists.mp (List.getLast?_isSome.mpr hne)
    rw [hz] at hy
    exact hlast y (hz.trans hy)

/-- Two rows with a comma between them. -/
theorem comma (h : IsRow starts ts) (h' : IsRow starts' us) (hw : ∀ c ∈ w, isBlankChar c = true)
    (hprecedes : ∀ y, starts' y = true → Lexeme.comma.precedes y = true) :
    IsRow starts (ts ++ ⟨.comma, w⟩ :: us) := by
  have hlater : IsRow Lexeme.endsItem (⟨.comma, w⟩ :: us) := h'.cons ⟨trivial, hw⟩ rfl hprecedes
  exact h.append hlater.valid hlater.orderly hlater.first hlater.ne_nil hlater.last

/-- A row between brackets, with or without a comma behind it. -/
theorem group (h : IsRow starts ts) (hw : ∀ c ∈ w, isBlankChar c = true) (hw' : ∀ c ∈ w', isBlankChar c = true)
    (hprecedes : ∀ y, starts y = true → (Lexeme.opening b).precedes y = true) {trailing : List Token}
    (htrailing : trailing = [] ∨ trailing = [⟨.extra, []⟩]) :
    IsRow Lexeme.startsValue (⟨.opening b, w⟩ :: (ts ++ (trailing ++ [⟨.closing b, w'⟩]))) := by
  have hinside : IsRow starts (ts ++ (trailing ++ [⟨.closing b, w'⟩])) := by
    have hclosing : Token.IsValid ⟨.closing b, w'⟩ := ⟨trivial, hw'⟩
    rcases htrailing with rfl | rfl
    · exact h.append (by simpa using hclosing) (List.isChain_singleton _) (by simp [Lexeme.endsItem]) (by simp)
        (by simp [Lexeme.endsValue])
    · have hextra : Token.IsValid ⟨.extra, []⟩ := ⟨trivial, by simp⟩
      refine h.append ?_ ?_ (by simp [Lexeme.endsItem]) (by simp) (by simp [Lexeme.endsValue])
      · simp [hextra, hclosing]
      · exact List.isChain_cons_cons.mpr ⟨rfl, List.isChain_singleton _⟩
  exact hinside.cons ⟨trivial, hw⟩ rfl hprecedes

/-- Brackets with nothing between them. -/
theorem empty (hw : ∀ c ∈ w, isBlankChar c = true) (hw' : ∀ c ∈ w', isBlankChar c = true) :
    IsRow Lexeme.startsValue [⟨.opening b, w⟩, ⟨.closing b, w'⟩] := by
  have hclosing : IsRow (· = .closing b) [⟨.closing b, w'⟩] := single ⟨trivial, hw'⟩ (by simp) rfl
  refine hclosing.cons ⟨trivial, hw⟩ rfl fun y hy => ?_
  rw [of_decide_eq_true hy]
  rfl

end IsRow

/-- A row whose last token is a bracket is repaired token by token. -/
theorem IsRow.repair_eq {ts : List Token} {w w' : Text} {b : Bracket}
    (h : IsRow Lexeme.startsValue (ts ++ [⟨.closing b, w'⟩])) (hw : ∀ c ∈ w, isBlankChar c = true) :
    repair (w ++ spell (ts ++ [⟨.closing b, w'⟩])) = w ++ spell (mend (ts ++ [⟨.closing b, w'⟩])) := by
  refine repair_spell hw h.valid h.orderly (by simp [Lexeme.canBeLast]) fun x hx => ?_
  have hfirst := h.first x hx
  revert hfirst
  cases x.lexeme <;> simp [Lexeme.startsValue, Lexeme.isBare]

end AskTable.Json
