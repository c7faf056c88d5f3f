import AskTable.Proofs.Lexeme

/-! The three corrections on a row of tokens without string literals: names get quotes, then words that are values,
and commas behind the last item are dropped. -/
namespace AskTable.Json

namespace Rewrites

variable {step : Cursor → Option (Text × Nat)} {starts : List Char} {x : Token} {t u : Text}

theorem blanks (hstep : ∀ c, c ∉ starts → ∀ before rest, step ⟨before, c :: rest⟩ = none) (hstarts : starts ⊆ signs)
    (hx : x.IsTame) (h : Rewrites step t u) : Rewrites step (x.blanks ++ t) (x.blanks ++ u) :=
  append (fun c hc => hstep c fun hmem => hx.blank_not_mem_signs hc (hstarts hmem)) h

/-- A token in which nothing is found stays. -/
theorem token (hstep : ∀ c, c ∉ starts → ∀ before rest, step ⟨before, c :: rest⟩ = none) (hstarts : starts ⊆ signs)
    (hx : x.IsTame) (hsign : ∀ c ∈ starts, x.lexeme.sign? ≠ some c) (h : Rewrites step t u) :
    Rewrites step (x.lexeme.text ++ (x.blanks ++ t)) (x.lexeme.text ++ (x.blanks ++ u)) := by
  refine append (fun c hc => hstep c fun hmem => ?_) (blanks hstep hstarts hx h)
  exact hsign c hmem (hx.sign?_eq hc (hstarts hmem))

end Rewrites

/-- The tokens between two string literals, or between one and an end of the text. -/
structure IsGap (ts : List Token) : Prop where
  tame : ∀ x ∈ ts, x.IsTame
  orderly : IsOrderly ts
  ends : ∀ x ∈ ts.getLast?, x.lexeme.canBeLast = true

namespace IsGap

variable {x y : Token} {ts : List Token}

theorem tail (h : IsGap (x :: ts)) : IsGap ts where
  tame := (List.forall_mem_cons.mp h.tame).2
  orderly := h.orderly.tail
  ends := by
    intro y hy
    apply h.ends
    rw [List.getLast?_cons, hy]
    rfl

theorem precedes (h : IsGap (x :: y :: ts)) : x.lexeme.precedes y.lexeme = true :=
  (List.isChain_cons_cons.mp h.orderly).1

theorem canBeLast (h : IsGap [x]) : x.lexeme.canBeLast = true :=
  h.ends x rfl

end IsGap

theorem quoteName_starts (c : Char) (hc : c ∉ (['{', ','] : List Char)) (before rest : Text) :
    quoteName ⟨before, c :: rest⟩ = none := by
  apply quoteName_eq_none
  simpa using hc

private theorem head?_dropWhile_inName {w rest : Text} (hw : ':' ∉ w) (hrest : rest.head?.any inName = false)
    (hcolon : rest.head? ≠ some ':') : ((w ++ rest).dropWhile inName).head? ≠ some ':' := by
  induction w with
  | nil =>
    cases rest with
    | nil => simp
    | cons c rest =>
      have hc : inName c = false := by simpa using hrest
      simpa [hc] using hcolon
  | cons c w ih =>
    simp only [List.mem_cons, not_or] at hw
    cases hc : inName c with
    | true => simpa [hc] using ih hw.2
    | false => simpa [hc] using Ne.symm hw.1

private theorem inName_of_mem_signs : ∀ c ∈ signs, inName c = false := by
  decide

/-- Behind a brace or a comma that no name follows, no name is found. -/
theorem head?_dropWhile_spell {x : Token} {ts : List Token} (hx : x.IsTame) (h : IsGap ts)
    (hnext : ∀ y ∈ ts.head?, y.lexeme ≠ .colon ∧ ∀ t, y.lexeme ≠ .name t) :
    ((x.blanks ++ spell ts).dropWhile inName).head? ≠ some ':' := by
  have hblanks : ':' ∉ x.blanks := fun hc => hx.blank_not_mem_signs hc (by decide)
  cases ts with
  | nil => exact head?_dropWhile_inName hblanks rfl (by simp)
  | cons y ts =>
    obtain ⟨hcolon, hname⟩ := hnext y rfl
    have hy := h.tame y List.mem_cons_self
    cases hsign : y.lexeme.sign? with
    | some c =>
      obtain ⟨hc, rest, htext⟩ := Lexeme.text_of_sign? hsign
      have hne : c ≠ ':' := by
        rintro rfl
        exact hcolon (Lexeme.sign?_eq_colon_iff.mp hsign)
      apply head?_dropWhile_inName hblanks
      · simp [htext, inName_of_mem_signs c hc]
      · simp [htext, hne]
    | none =>
      have hfree : ':' ∉ y.lexeme.text := by
        intro hc
        have hsome := hy.sign?_eq hc (by decide)
        rw [hsign] at hsome
        cases hsome
      have hfreeBlanks : ':' ∉ y.blanks := fun hc => hy.blank_not_mem_signs hc (by decide)
      -- A word or a number has the end of an item behind it.
      have hitem : y.lexeme.canBeLast = false ∧ ∀ z : Lexeme, y.lexeme.precedes z = true → z.endsItem = true := by
        revert hsign hname
        cases y.lexeme <;> simp [Lexeme.sign?, Lexeme.canBeLast, Lexeme.precedes]
      cases ts with
      | nil =>
        have hlast := h.canBeLast
        rw [hitem.1] at hlast
        cases hlast
      | cons z ts =>
        obtain ⟨d, htext, hd⟩ := Lexeme.text_of_endsItem (hitem.2 _ h.precedes)
        have hstop : inName d = false ∧ d ≠ ':' := by
          simp only [isStop, Bool.or_eq_true, beq_iff_eq] at hd
          rcases hd with (rfl | rfl) | rfl <;> decide
        have hall : ':' ∉ x.blanks ++ (y.lexeme.text ++ y.blanks) := by
          simp [hblanks, hfree, hfreeBlanks]
        have hname : (spell (z :: ts)).head?.any inName = false := by simp [htext, hstop.1]
        have hcolon : (spell (z :: ts)).head? ≠ some ':' := by simp [htext, hstop.2]
        have hdrop := head?_dropWhile_inName hall hname hcolon
        simpa using hdrop

theorem quoteName_starts_subset : (['{', ','] : List Char) ⊆ signs := by
  decide

private theorem eq_colon_of_name {x : Token} {ts : List Token} {n : Text} (h : IsGap (x :: ts))
    (hx : x.lexeme = .name n) : ∃ y rest, ts = y :: rest ∧ y.lexeme = .colon := by
  cases ts with
  | nil =>
    have hlast := h.canBeLast
    rw [hx] at hlast
    cases hlast
  | cons y rest =>
    have hnext := h.precedes
    rw [hx] at hnext
    exact ⟨y, rest, rfl, by simpa [Lexeme.precedes] using hnext⟩

/-- Nothing is found at a token that is no name and that no name follows. -/
theorem rewrites_quoteName_cons {x : Token} {ts : List Token} {u : Text} (h : IsGap (x :: ts))
    (hnext : ∀ y ∈ ts.head?, ∀ t, y.lexeme ≠ .name t) (ih : Rewrites quoteName (spell ts) u) :
    Rewrites quoteName (spell (x :: ts)) (x.lexeme.text ++ (x.blanks ++ u)) := by
  have hx := h.tame x List.mem_cons_self
  rw [spell_cons]
  by_cases hmark : ∃ m, (m = '{' ∨ m = ',') ∧ x.lexeme.sign? = some m
  · obtain ⟨m, hm, hsign⟩ := hmark
    obtain ⟨htext, hcolon⟩ := Lexeme.text_of_mark hsign hm
    have hdrop : ((x.blanks ++ spell ts).dropWhile inName).head? ≠ some ':' := by
      refine head?_dropWhile_spell hx h.tail fun y hy => ⟨fun heq => ?_, hnext y hy⟩
      have hprecedes := (List.isChain_cons.mp h.orderly).1 y hy
      rw [heq, hcolon] at hprecedes
      cases hprecedes
    rw [htext]
    exact Rewrites.cons (fun before => quoteName_eq_none_of_dropWhile hdrop before m)
      (Rewrites.blanks quoteName_starts quoteName_starts_subset hx ih)
  · refine Rewrites.token quoteName_starts quoteName_starts_subset hx (fun c hc hsign => hmark ?_) ih
    exact ⟨c, by simpa using hc, hsign⟩

/-- Names get their quotes. -/
theorem rewrites_quoteName (ts : List Token) (h : IsGap ts) (hstart : ∀ x ∈ ts.head?, ∀ t, x.lexeme ≠ .name t) :
    Rewrites quoteName (spell ts) (spell (ts.map (Token.map Lexeme.named))) := by
  match ts with
  | [] => exact .nil
  | [x] =>
    have hself : x.lexeme.named = x.lexeme := Lexeme.named_of_ne (hstart x rfl)
    simpa [Token.map, hself] using rewrites_quoteName_cons h (by simp) .nil
  | x :: y :: rest =>
    have hx := h.tame x List.mem_cons_self
    have hself : x.lexeme.named = x.lexeme := Lexeme.named_of_ne (hstart x rfl)
    by_cases hname : ∃ n, y.lexeme = .name n
    · obtain ⟨n, hn⟩ := hname
      have hprecedes := h.precedes
      rw [hn] at hprecedes
      obtain ⟨m, hm, htext, -⟩ := Lexeme.text_of_precedes_name hprecedes
      obtain ⟨z, rest, rfl, hz⟩ := eq_colon_of_name h.tail hn
      have hy := h.tame y (by simp)
      have hidentifier : IsIdentifier n := by
        have hlexeme := hy.1
        rwa [hn] at hlexeme
      have hnext : ∀ x ∈ rest.head?, ∀ t, x.lexeme ≠ .name t := by
        intro x hx t heq
        have hprecedes := (List.isChain_cons.mp h.tail.tail.orderly).1 x hx
        rw [hz, heq] at hprecedes
        cases hprecedes
      have ih := rewrites_quoteName rest h.tail.tail.tail hnext
      have hlater := Rewrites.blanks quoteName_starts quoteName_starts_subset (h.tame z (by simp)) ih
      -- The find takes the mark, the name and the colon at once, so the walk goes on behind the colon.
      have hfound : Rewrites quoteName (m :: ((x.blanks ++ (n ++ (y.blanks ++ [':']))) ++ (z.blanks ++ spell rest)))
          (m :: x.blanks ++ ('"' :: n ++ ['"']) ++ (y.blanks ++ [':']) ++
            (z.blanks ++ spell (rest.map (Token.map Lexeme.named)))) := by
        refine Rewrites.found (fun before => ?_) hlater
        simpa using quoteName_eq_some hm hx.2 hidentifier hy.2 before (z.blanks ++ spell rest)
      simpa [Token.map, htext, hn, hz, hself] using hfound
    · have hnext : ∀ t, y.lexeme ≠ .name t := fun t ht => hname ⟨t, ht⟩
      have ih := rewrites_quoteName (y :: rest) h.tail fun _ hy => by
        obtain rfl := Option.some.inj hy
        exact hnext
      have hcons := rewrites_quoteName_cons h (by simpa using hnext) ih
      simpa [Token.map, hself] using hcons
termination_by ts.length

theorem quoteValue_starts (c : Char) (hc : c ∉ ([':'] : List Char)) (before rest : Text) :
    quoteValue ⟨before, c :: rest⟩ = none := by
  apply quoteValue_eq_none
  simpa using hc

theorem quoteValue_starts_subset : ([':'] : List Char) ⊆ signs := by
  decide

/-- The text of a lexeme begins with a character that is no blank. -/
theorem Token.IsTame.exists_first {x : Token} (h : x.IsTame) : ∃ c rest, x.lexeme.text = c :: rest ∧
    isBlankChar c = false ∧ (x.lexeme.sign? = some c ∨ x.lexeme.sign? = none ∧ IsInner c) := by
  have hinner {t : Text} (hne : t ≠ []) (ht : ∀ c ∈ t, IsInner c) : ∃ c rest, t = c :: rest ∧
      isBlankChar c = false ∧ IsInner c := by
    obtain ⟨c, rest, rfl⟩ := List.exists_cons_of_ne_nil hne
    have hc := ht c List.mem_cons_self
    exact ⟨c, rest, rfl, hc.1, hc⟩
  cases hsign : x.lexeme.sign? with
  | some c =>
    obtain ⟨hc, rest, htext⟩ := Lexeme.text_of_sign? hsign
    exact ⟨c, rest, htext, (of_mem_signs c hc).1, .inl rfl⟩
  | none =>
    obtain ⟨lexeme, blanks⟩ := x
    obtain ⟨hlexeme, -⟩ := h
    cases lexeme with
    | name t | word t =>
      obtain ⟨c, rest, htext, hblank, hc⟩ := hinner (IsIdentifier.ne_nil hlexeme) (IsIdentifier.isInner hlexeme)
      exact ⟨c, rest, htext, hblank, .inr ⟨rfl, hc⟩⟩
    | number t =>
      obtain ⟨c, rest, htext, hblank, hc⟩ := hinner (IsNumeral.ne_nil hlexeme) (IsNumeral.isInner hlexeme)
      exact ⟨c, rest, htext, hblank, .inr ⟨rfl, hc⟩⟩
    | opening b | closing b | comma | extra | colon | quote t => cases hsign

theorem dropWhile_blanks {x y : Token} {c : Char} {t : Text} (ts : List Token) (hx : x.IsTame)
    (htext : y.lexeme.text = c :: t) (hc : isBlankChar c = false) :
    ((x.blanks ++ spell (y :: ts)).dropWhile isBlankChar).head? = some c := by
  rw [spell_cons, htext, List.cons_append, Pattern.head?_dropWhile_append hx.2 hc, List.head?_cons]

theorem dropWhile_blanks_nil {x : Token} (hx : x.IsTame) : (x.blanks ++ spell []).dropWhile isBlankChar = [] := by
  rw [spell_nil, List.append_nil, List.dropWhile_eq_nil_iff]
  exact hx.2

/-- Nothing is found at a colon behind which no word stands. -/
theorem quoteValue_eq_none_of_tokens {x : Token} {ts : List Token} (h : IsGap (x :: ts)) (hx : x.lexeme = .colon)
    (hnext : ∀ y ∈ ts.head?, ∀ t, y.lexeme ≠ .word t) (before : Text) :
    quoteValue ⟨before, ':' :: (x.blanks ++ spell ts)⟩ = none := by
  have htame := h.tame x List.mem_cons_self
  apply quoteValue_eq_none_of_dropWhile
  cases ts with
  | nil => rw [dropWhile_blanks_nil htame]; rfl
  | cons y ts =>
    have hy := h.tame y (by simp)
    obtain ⟨c, rest, htext, hblank, hfirst⟩ := hy.exists_first
    rw [dropWhile_blanks ts htame htext hblank]
    have hprecedes := h.precedes
    rw [hx] at hprecedes
    have hname : isNameStart c = false := by
      rcases hfirst with hsign | ⟨hsign, -⟩
      · exact (of_mem_signs c (Lexeme.text_of_sign? hsign).1).2.1
      · obtain ⟨lexeme, blanks⟩ := y
        cases lexeme with
        | number t =>
          have hstarts := IsNumeral.starts hy.1
          change t = c :: rest at htext
          simpa [htext] using hstarts
        | word t => exact absurd rfl (hnext _ rfl t)
        | name t => cases hprecedes
        | opening b | closing b | comma | extra | colon | quote t => cases hsign
    simpa using hname

theorem rewrites_quoteValue_cons {x : Token} {ts : List Token} {u : Text} (h : IsGap (x :: ts))
    (hnext : x.lexeme = .colon → ∀ y ∈ ts.head?, ∀ t, y.lexeme ≠ .word t) (ih : Rewrites quoteValue (spell ts) u) :
    Rewrites quoteValue (spell (x :: ts)) (x.lexeme.text ++ (x.blanks ++ u)) := by
  have hx := h.tame x List.mem_cons_self
  have hblanks := Rewrites.blanks quoteValue_starts quoteValue_starts_subset hx ih
  rw [spell_cons]
  by_cases hcolon : x.lexeme = .colon
  · rw [hcolon]
    exact Rewrites.cons (quoteValue_eq_none_of_tokens h hcolon (hnext hcolon)) hblanks
  · refine Rewrites.token quoteValue_starts quoteValue_starts_subset hx (fun c hc hsign => hcolon ?_) ih
    rw [List.mem_singleton.mp hc] at hsign
    exact Lexeme.sign?_eq_colon_iff.mp hsign

private theorem exists_endsItem_of_word {x : Token} {ts : List Token} {n : Text} (h : IsGap (x :: ts))
    (hx : x.lexeme = .word n) : ∃ y rest, ts = y :: rest ∧ y.lexeme.endsItem = true := by
  cases ts with
  | nil =>
    have hlast := h.canBeLast
    rw [hx] at hlast
    cases hlast
  | cons y rest =>
    have hnext := h.precedes
    rw [hx] at hnext
    exact ⟨y, rest, rfl, hnext⟩

/-- Words that are values get their quotes, save for literals. -/
theorem rewrites_quoteValue (ts : List Token) (h : IsGap ts)
    (hstart : ∀ x ∈ ts.head?, x.lexeme.valued = x.lexeme) :
    Rewrites quoteValue (spell ts) (spell (ts.map (Token.map Lexeme.valued))) := by
  match ts with
  | [] => exact .nil
  | [x] =>
    have hself := hstart x rfl
    simpa [Token.map, hself] using rewrites_quoteValue_cons h (by simp) .nil
  | x :: y :: rest =>
    have hself := hstart x rfl
    by_cases hword : x.lexeme = .colon ∧ ∃ n, y.lexeme = .word n
    · obtain ⟨hx, n, hn⟩ := hword
      obtain ⟨z, rest, rfl, hz⟩ := exists_endsItem_of_word h.tail hn
      obtain ⟨d, htext, hd⟩ := Lexeme.text_of_endsItem hz
      have hy := h.tame y (by simp)
      have hidentifier : IsIdentifier n := by
        have hlexeme := hy.1
        rwa [hn] at hlexeme
      have hzself : z.lexeme.valued = z.lexeme := by
        apply Lexeme.valued_of_ne
        intro t ht
        rw [ht] at hz
        cases hz
      have hnext : ∀ x ∈ rest.head?, x.lexeme.valued = x.lexeme := by
        intro x hx
        refine Lexeme.valued_of_precedes ((List.isChain_cons.mp h.tail.tail.orderly).1 x hx) ?_
        intro hcolon
        rw [hcolon] at hz
        cases hz
      have ih := rewrites_quoteValue rest h.tail.tail.tail hnext
      have hlater := Rewrites.blanks quoteValue_starts quoteValue_starts_subset (h.tame z (by simp)) ih
      -- The find takes the colon, the word and what ends the item, which itself begins no other find.
      have hfound : Rewrites quoteValue (':' :: ((x.blanks ++ (n ++ (y.blanks ++ [d]))) ++ (z.blanks ++ spell rest)))
          (':' :: x.blanks ++ (if isLiteral n then n else '"' :: n ++ ['"']) ++ (y.blanks ++ [d]) ++
            (z.blanks ++ spell (rest.map (Token.map Lexeme.valued)))) := by
        refine Rewrites.found (fun before => ?_) hlater
        have hblanks := (h.tame x (by simp)).2
        simpa using quoteValue_eq_some hblanks hidentifier hy.2 hd before (z.blanks ++ spell rest)
      rw [← Lexeme.text_valued_word] at hfound
      simpa [Token.map, htext, hn, hx, hzself] using hfound
    · have hnext : x.lexeme = .colon → ∀ t, y.lexeme ≠ .word t := fun hx t ht => hword ⟨hx, t, ht⟩
      have hyself : y.lexeme.valued = y.lexeme := by
        by_cases hx : x.lexeme = .colon
        · exact Lexeme.valued_of_ne (hnext hx)
        · exact Lexeme.valued_of_precedes h.precedes hx
      have ih := rewrites_quoteValue (y :: rest) h.tail fun _ hy => by
        obtain rfl := Option.some.inj hy
        exact hyself
      have hcons := rewrites_quoteValue_cons h (by simpa using hnext) ih
      simpa [Token.map, hself] using hcons
termination_by ts.length

theorem dropComma_starts (c : Char) (hc : c ∉ ([','] : List Char)) (before rest : Text) :
    dropComma ⟨before, c :: rest⟩ = none := by
  apply dropComma_eq_none
  simpa using hc

theorem dropComma_starts_subset : ([','] : List Char) ⊆ signs := by
  decide

/-- A comma that an item follows stays. -/
theorem dropComma_eq_none_of_tokens {x : Token} {ts : List Token} (h : IsGap (x :: ts)) (hx : x.lexeme = .comma)
    (before : Text) : dropComma ⟨before, ',' :: (x.blanks ++ spell ts)⟩ = none := by
  have htame := h.tame x List.mem_cons_self
  apply dropComma_eq_none_of_dropWhile
  cases ts with
  | nil => rw [dropWhile_blanks_nil htame]; rfl
  | cons y ts =>
    have hy := h.tame y (by simp)
    obtain ⟨c, rest, htext, hblank, hfirst⟩ := hy.exists_first
    rw [dropWhile_blanks ts htame htext hblank]
    have hprecedes := h.precedes
    rw [hx] at hprecedes
    have hclosing : isClosing c = false := by
      rcases hfirst with hsign | ⟨-, hinner⟩
      · cases hlexeme : y.lexeme with
        | opening b =>
          rw [hlexeme] at hsign
          obtain rfl := Option.some.inj hsign
          cases b <;> rfl
        | quote t =>
          rw [hlexeme] at hsign
          obtain rfl := Option.some.inj hsign
          rfl
        | name t | word t | number t =>
          rw [hlexeme] at hsign
          cases hsign
        | closing b | comma | extra | colon =>
          rw [hlexeme] at hprecedes
          cases hprecedes
      · have hne := ne_of_isInner (d := '}') hinner (by decide)
        have hne' := ne_of_isInner (d := ']') hinner (by decide)
        simp [isClosing, hne, hne']
    simpa using hclosing

theorem rewrites_dropComma_cons {x : Token} {ts : List Token} {u : Text} (h : IsGap (x :: ts))
    (hextra : x.lexeme ≠ .extra) (ih : Rewrites dropComma (spell ts) u) :
    Rewrites dropComma (spell (x :: ts)) (x.lexeme.text ++ (x.blanks ++ u)) := by
  have hx := h.tame x List.mem_cons_self
  have hblanks := Rewrites.blanks dropComma_starts dropComma_starts_subset hx ih
  rw [spell_cons]
  by_cases hcomma : x.lexeme = .comma
  · rw [hcomma]
    exact Rewrites.cons (dropComma_eq_none_of_tokens h hcomma) hblanks
  · refine Rewrites.token dropComma_starts dropComma_starts_subset hx (fun c hc hsign => hcomma ?_) ih
    rw [List.mem_singleton.mp hc] at hsign
    exact (Lexeme.sign?_eq_comma_iff.mp hsign).resolve_right hextra

private theorem exists_closing_of_extra {x : Token} {ts : List Token} (h : IsGap (x :: ts)) (hx : x.lexeme = .extra) :
    ∃ y rest b, ts = y :: rest ∧ y.lexeme = .closing b := by
  cases ts with
  | nil =>
    have hlast := h.canBeLast
    rw [hx] at hlast
    cases hlast
  | cons y rest =>
    have hnext := h.precedes
    rw [hx] at hnext
    cases hy : y.lexeme with
    | closing b => exact ⟨y, rest, b, rfl, hy⟩
    | _ => simp [hy, Lexeme.precedes] at hnext

/-- All but the commas behind the last item. -/
def Token.isKept (x : Token) : Bool :=
  x.lexeme ≠ .extra

/-- Commas behind the last item are dropped, with the blanks after them. -/
theorem rewrites_dropComma (ts : List Token) (h : IsGap ts) :
    Rewrites dropComma (spell ts) (spell (ts.filter Token.isKept)) := by
  match ts with
  | [] => exact .nil
  | x :: rest =>
    by_cases hx : x.lexeme = .extra
    · obtain ⟨y, rest, b, rfl, hy⟩ := exists_closing_of_extra h hx
      have ih := rewrites_dropComma rest h.tail.tail
      have hlater := Rewrites.blanks dropComma_starts dropComma_starts_subset (h.tame y (by simp)) ih
      have hclosing : isClosing b.closing = true := by cases b <;> rfl
      have hfound : Rewrites dropComma (',' :: ((x.blanks ++ [b.closing]) ++ (y.blanks ++ spell rest)))
          ([b.closing] ++ (y.blanks ++ spell (rest.filter Token.isKept))) := by
        refine Rewrites.found (fun before => ?_) hlater
        have hblanks := (h.tame x (by simp)).2
        simpa using dropComma_eq_some hblanks hclosing before (y.blanks ++ spell rest)
      simpa [Token.isKept, hx, hy, Lexeme.text] using hfound
    · have ih := rewrites_dropComma rest h.tail
      have hcons := rewrites_dropComma_cons h hx ih
      simpa [Token.isKept, hx] using hcons
termination_by ts.length

end AskTable.Json
