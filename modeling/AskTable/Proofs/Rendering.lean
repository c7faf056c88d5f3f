import AskTable.Proofs.Reading

/-! Objects written with bare names and words, either kind of quotes, and commas behind last items. The repair makes
JSON of them. -/
namespace AskTable.Json

inductive Mark where
  | double
  | single
  deriving DecidableEq

def Mark.char : Mark → Char
  | double => '"'
  | single => '\''

/-- How a text is written: its quotes, and whether it also has what JSON does not have. -/
structure Style where
  mark : Mark
  isRelaxed : Bool
  deriving DecidableEq

namespace Style

def standard : Style :=
  ⟨.double, false⟩

def quoted (s : Style) (t : Text) : Text :=
  s.mark.char :: (t ++ [s.mark.char])

/-- What may stand behind the last item of a list or an object. -/
def Trails (s : Style) (comma : Text) : Prop :=
  comma = [] ∨ s.isRelaxed = true ∧ comma = [',']

end Style

/-- A text without quotes, backslashes and control characters. -/
def IsSimple (t : Text) : Prop :=
  ∀ c ∈ t, 32 ≤ c.toNat ∧ c ∉ (['"', '\'', '\\'] : List Char)

instance (t : Text) : Decidable (IsSimple t) :=
  inferInstanceAs (Decidable (∀ c ∈ t, 32 ≤ c.toNat ∧ c ∉ (['"', '\'', '\\'] : List Char)))

/-- What is written: a value, one behind a name, a member, and the items of a list or an object. -/
inductive Subject where
  | value (v : Value)
  | content (v : Value)
  | member (name : Text) (v : Value)
  | elements (items : List Value)
  | members (entries : List (Value × Value))

inductive Written (s : Style) : Subject → Text → Prop
  | null : Written s (.value .null) "null"
  | yes : Written s (.value (.bool true)) "true"
  | no : Written s (.value (.bool false)) "false"
  | int (n : Int) : Written s (.value (.int n)) (Text.ofInt n)
  | text {t : Text} (ht : IsSimple t) : Written s (.value (.text t)) (s.quoted t)
  | emptyList : Written s (.value (.list [])) "[]"
  | list {items : List Value} {t comma : Text} (ht : Written s (.elements items) t) (hcomma : s.Trails comma) :
    Written s (.value (.list items)) ('[' :: (t ++ (comma ++ [']'])))
  | emptyDict : Written s (.value (.dict [])) "\x7b\x7d"
  | dict {entries : List (Value × Value)} {t comma : Text} (hnames : (entries.map Prod.fst).Nodup)
    (ht : Written s (.members entries) t) (hcomma : s.Trails comma) :
    Written s (.value (.dict entries)) ('{' :: (t ++ (comma ++ ['}'])))
  | whole {v : Value} {t : Text} (ht : Written s (.value v) t) : Written s (.content v) t
  | bare {t : Text} (hs : s.isRelaxed = true) (ht : IsIdentifier t) (hword : t ∉ valueWords) :
    Written s (.content (.text t)) t
  | member {name head t : Text} {v : Value} (hname : IsIdentifier name)
    (hhead : head = s.quoted name ∨ s.isRelaxed = true ∧ head = name) (ht : Written s (.content v) t) :
    Written s (.member name v) (head ++ ':' :: ' ' :: t)
  | lastElement {v : Value} {t : Text} (ht : Written s (.value v) t) : Written s (.elements [v]) t
  | moreElements {v : Value} {items : List Value} {t u : Text} (ht : Written s (.value v) t)
    (hu : Written s (.elements items) u) : Written s (.elements (v :: items)) (t ++ ',' :: ' ' :: u)
  | lastMember {name t : Text} {v : Value} (ht : Written s (.member name v) t) :
    Written s (.members [(.text name, v)]) t
  | moreMembers {name t u : Text} {v : Value} {entries : List (Value × Value)} (ht : Written s (.member name v) t)
    (hu : Written s (.members entries) u) : Written s (.members ((.text name, v) :: entries)) (t ++ ',' :: ' ' :: u)

theorem IsSimple.isPlain {t : Text} (h : IsSimple t) : IsPlain t := by
  intro c hc
  obtain ⟨hcode, hmem⟩ := h c hc
  simp only [List.mem_cons, List.not_mem_nil, or_false, not_or] at hmem
  exact ⟨hcode, hmem.1, hmem.2.2⟩

theorem IsIdentifier.isSimple {t : Text} (h : IsIdentifier t) : IsSimple t := by
  intro c hc
  have hname := h.chars c hc
  have hcode := toNat_of_isNameChar hname
  refine ⟨by omega, fun hmem => ?_⟩
  have hall : ∀ d ∈ (['"', '\'', '\\'] : List Char), isNameChar d = false := by decide
  rw [hall c hmem] at hname
  cases hname

theorem of_mem_ofInt {n : Int} {c : Char} (hc : c ∈ Text.ofInt n) : c ∈ numeralChars ∧ isNameStart c = false := by
  rcases Text.mem_ofInt hc with rfl | hc
  · decide
  · exact of_mem_plainDigits c hc

theorem isNumeral_ofInt (n : Int) : IsNumeral (Text.ofInt n) where
  ne_nil := by
    cases n with
    | ofNat n => exact Nat.toDigits_ne_nil
    | negSucc n => exact List.cons_ne_nil _ _
  starts := by
    cases hfirst : (Text.ofInt n).head? with
    | none => rfl
    | some c => exact (of_mem_ofInt (List.mem_of_mem_head? hfirst)).2
  chars c hc := (of_mem_ofInt hc).1

/-- The first character of what is written. -/
theorem Written.exists_first {s : Style} {subject : Subject} {t : Text} (h : Written s subject t) :
    ∃ c rest, t = c :: rest ∧ isJsonBlank c = false ∧ isClosing c = false := by
  have hinner {t : Text} (hne : t ≠ []) (ht : ∀ c ∈ t, IsInner c) :
      ∃ c rest, t = c :: rest ∧ isJsonBlank c = false ∧ isClosing c = false := by
    obtain ⟨c, rest, rfl⟩ := List.exists_cons_of_ne_nil hne
    exact ⟨c, rest, rfl, (ht c List.mem_cons_self).isSolid⟩
  have hquoted (t : Text) : ∃ c rest, s.quoted t = c :: rest ∧ isJsonBlank c = false ∧ isClosing c = false := by
    refine ⟨_, _, rfl, ?_⟩
    cases s.mark <;> decide
  induction h with
  | null | yes | no | emptyList | emptyDict => exact ⟨_, _, rfl, by decide⟩
  | int n => exact hinner (isNumeral_ofInt n).ne_nil (isNumeral_ofInt n).isInner
  | text ht => exact hquoted _
  | list | dict => exact ⟨_, _, rfl, by decide⟩
  | whole ht ih | lastElement ht ih | lastMember ht ih => exact ih
  | bare hs ht hword => exact hinner ht.ne_nil ht.isInner
  | member hname hhead ht ih =>
    rcases hhead with rfl | ⟨-, rfl⟩
    · obtain ⟨c, rest, htext, hc⟩ := hquoted _
      exact ⟨c, _, by rw [htext]; rfl, hc⟩
    · obtain ⟨c, rest, htext, hc⟩ := hinner hname.ne_nil hname.isInner
      exact ⟨c, _, by rw [htext]; rfl, hc⟩
  | moreElements ht hu ih | moreMembers ht hu ih =>
    obtain ⟨c, rest, rfl, hc⟩ := ih
    exact ⟨c, _, rfl, hc⟩

section Quotes

def quotes : List Char :=
  ['"', '\'']

theorem IsInner.not_mem_quotes {c : Char} (h : IsInner c) : c ∉ quotes := by
  intro hc
  have hsubset : quotes ⊆ signs := by decide
  exact h.2 (hsubset hc)

theorem IsSimple.not_mem_quotes {t : Text} (h : IsSimple t) : ∀ c ∈ t, c ∉ quotes := by
  intro c hc hquote
  have hsubset : quotes ⊆ ['"', '\'', '\\'] := by decide
  exact (h c hc).2 (hsubset hquote)

/-- Of quotes there is only one kind. -/
def Agrees (mark : Char) (t : Text) : Prop :=
  ∀ c ∈ t, c ∈ quotes → c = mark

variable {mark c : Char} {t u : Text}

@[simp] theorem agrees_append : Agrees mark (t ++ u) ↔ Agrees mark t ∧ Agrees mark u :=
  List.forall_mem_append

@[simp] theorem agrees_cons : Agrees mark (c :: t) ↔ (c ∈ quotes → c = mark) ∧ Agrees mark t :=
  List.forall_mem_cons

@[simp] theorem agrees_nil : Agrees mark [] :=
  fun _ hc => absurd hc List.not_mem_nil

theorem agrees_of_free (h : ∀ c ∈ t, c ∉ quotes) : Agrees mark t :=
  fun c hc hquote => absurd hquote (h c hc)

def toDouble (c : Char) : Char :=
  if c = '\'' then '"' else c

theorem map_toDouble_eq (h : '\'' ∉ t) : t.map toDouble = t := by
  have hsame : ∀ c ∈ t, toDouble c = id c := by
    intro c hc
    have hne : c ≠ '\'' := fun heq => h (heq ▸ hc)
    exact if_neg hne
  rw [List.map_congr_left hsame, List.map_id]

private theorem map_toDouble_of_free (h : ∀ c ∈ t, c ∉ quotes) : t.map toDouble = t :=
  map_toDouble_eq fun hc => h _ hc (by decide)

variable {s : Style} {subject : Subject}

private theorem agrees_quoted (ht : IsSimple t) : Agrees s.mark.char (s.quoted t) := by
  simp [Style.quoted, agrees_of_free ht.not_mem_quotes]

theorem Style.Trails.free {comma : Text} (h : s.Trails comma) : ∀ c ∈ comma, c ∉ quotes := by
  rcases h with rfl | ⟨-, rfl⟩ <;> decide

theorem Written.agrees (h : Written s subject t) : Agrees s.mark.char t := by
  induction h with
  | null | yes | no | emptyList | emptyDict => exact agrees_of_free (by decide)
  | int n => exact agrees_of_free fun c hc => ((isNumeral_ofInt n).isInner c hc).not_mem_quotes
  | text ht => exact agrees_quoted ht
  | list ht hcomma ih | dict hnames ht hcomma ih =>
    simp [ih, agrees_of_free hcomma.free, quotes]
  | whole ht ih | lastElement ht ih | lastMember ht ih => exact ih
  | bare hs ht hword => exact agrees_of_free ht.isSimple.not_mem_quotes
  | @member name head t v hname hhead ht ih =>
    have hfirst : Agrees s.mark.char head := by
      rcases hhead with rfl | ⟨-, rfl⟩
      · exact agrees_quoted hname.isSimple
      · exact agrees_of_free hname.isSimple.not_mem_quotes
    simp [hfirst, ih, quotes]
  | moreElements ht hu ih ih' | moreMembers ht hu ih ih' => simp [ih, ih', quotes]

/-- With double quotes the same is written. -/
theorem Written.map_toDouble (h : Written s subject t) :
    Written ⟨.double, s.isRelaxed⟩ subject (t.map toDouble) := by
  have hquoted {t : Text} (ht : IsSimple t) :
      (s.quoted t).map toDouble = Style.quoted ⟨.double, s.isRelaxed⟩ t := by
    have hmark : toDouble s.mark.char = '"' := by cases s.mark <;> rfl
    rw [Style.quoted, List.map_cons, List.map_append, List.map_singleton, hmark,
      map_toDouble_of_free ht.not_mem_quotes]
    rfl
  induction h with
  | null => exact .null
  | yes => exact .yes
  | no => exact .no
  | int n =>
    rw [map_toDouble_of_free fun c hc => ((isNumeral_ofInt n).isInner c hc).not_mem_quotes]
    exact .int n
  | text ht =>
    rw [hquoted ht]
    exact .text ht
  | emptyList => exact .emptyList
  | list ht hcomma ih =>
    have hlist := Written.list ih hcomma
    simpa [map_toDouble_of_free hcomma.free, toDouble] using hlist
  | emptyDict => exact .emptyDict
  | dict hnames ht hcomma ih =>
    have hdict := Written.dict hnames ih hcomma
    simpa [map_toDouble_of_free hcomma.free, toDouble] using hdict
  | whole ht ih => exact .whole ih
  | bare hs ht hword =>
    rw [map_toDouble_of_free ht.isSimple.not_mem_quotes]
    exact .bare hs ht hword
  | @member name head t v hname hhead ht ih =>
    have hfirst : head.map toDouble = Style.quoted ⟨.double, s.isRelaxed⟩ name ∨
        s.isRelaxed = true ∧ head.map toDouble = name := by
      rcases hhead with rfl | ⟨hs, rfl⟩
      · exact .inl (hquoted hname.isSimple)
      · exact .inr ⟨hs, map_toDouble_of_free hname.isSimple.not_mem_quotes⟩
    have hmember := Written.member hname hfirst ih
    simpa [toDouble] using hmember
  | lastElement ht ih => exact .lastElement ih
  | moreElements ht hu ih ih' =>
    have helements := Written.moreElements ih ih'
    simpa [toDouble] using helements
  | lastMember ht ih => exact .lastMember ih
  | moreMembers ht hu ih ih' =>
    have hmembers := Written.moreMembers ih ih'
    simpa [toDouble] using hmembers

private theorem toDouble_ne (c : Char) : toDouble c ≠ '\'' := by
  unfold toDouble
  split_ifs with hc
  · decide
  · exact hc

/-- The repair works on the text with double quotes. -/
theorem Written.repair_map (h : Written s subject t) : repair (t.map toDouble) = repair t := by
  by_cases hapostrophe : '\'' ∈ t
  · have hsingle : '\'' = s.mark.char := h.agrees _ hapostrophe (by decide)
    have hdouble : '"' ∉ t := by
      intro hmem
      have heq := (h.agrees _ hmem (by decide)).trans hsingle.symm
      exact absurd heq (by decide)
    have hnone : '\'' ∉ t.map toDouble := by
      intro hmem
      obtain ⟨c, -, hc⟩ := List.mem_map.mp hmem
      exact toDouble_ne c hc
    have hbefore : (t.elem '\'' && !t.elem '"') = true := by simp [hapostrophe, hdouble]
    have hafter : ((t.map toDouble).elem '\'' && !(t.map toDouble).elem '"') = false := by simp [hnone]
    unfold repair
    dsimp only
    rw [hbefore, hafter, if_pos rfl, if_neg Bool.false_ne_true]
    rfl
  · rw [map_toDouble_eq hapostrophe]

end Quotes

section Tokens

def Lexeme.startsContent : Lexeme → Bool
  | word _ => true
  | x => x.startsValue

def Lexeme.startsMember : Lexeme → Bool
  | name _ | quote _ => true
  | _ => false

def Subject.starts : Subject → Lexeme → Bool
  | value _ | elements _ => Lexeme.startsValue
  | content _ => Lexeme.startsContent
  | member _ _ | members _ => Lexeme.startsMember

theorem precedes_of_startsMember {x y : Lexeme} (hx : x = .comma ∨ x = .opening .brace) (hy : y.startsMember = true) :
    x.precedes y = true := by
  rcases hx with rfl | rfl <;> cases y <;> simp_all [Lexeme.startsMember, Lexeme.precedes, Lexeme.startsValue]

private theorem precedes_of_startsContent {y : Lexeme} (hy : y.startsContent = true) :
    Lexeme.colon.precedes y = true := by
  cases y <;> simp_all [Lexeme.startsContent, Lexeme.precedes, Lexeme.startsValue]

private theorem startsContent_of_startsValue {x : Lexeme} (h : x.startsValue = true) : x.startsContent = true := by
  cases x <;> simp_all [Lexeme.startsContent, Lexeme.startsValue]

theorem IsSimple.isContent {t : Text} (h : IsSimple t) : IsContent t := by
  have hbody : IsBody (t ++ []) := .append h.isPlain .nil
  rw [List.append_nil] at hbody
  exact hbody.isContent

/-- A comma behind the last item as tokens. -/
theorem Style.Trails.exists_tokens {s : Style} {comma : Text} (h : s.Trails comma) : ∃ trailing : List Token,
    (trailing = [] ∨ trailing = [⟨.extra, []⟩]) ∧ spell trailing = comma ∧ mend trailing = [] := by
  rcases h with rfl | ⟨-, rfl⟩
  · exact ⟨[], .inl rfl, rfl, rfl⟩
  · exact ⟨[⟨.extra, []⟩], .inr rfl, rfl, rfl⟩

theorem spell_quote (r : Bool) (t : Text) : spell [⟨.quote t, []⟩] = Style.quoted ⟨.double, r⟩ t := by
  simp [Style.quoted, Mark.char]

theorem spell_group (b : Bracket) (ts trailing : List Token) :
    spell (⟨.opening b, []⟩ :: (ts ++ (trailing ++ [⟨.closing b, []⟩]))) =
      b.opening :: (spell ts ++ (spell trailing ++ [b.closing])) := by
  simp [Lexeme.text]

theorem spell_mend_group (b : Bracket) (ts : List Token) {trailing : List Token} (h : mend trailing = []) :
    spell (mend (⟨.opening b, []⟩ :: (ts ++ (trailing ++ [⟨.closing b, []⟩])))) =
      b.opening :: (spell (mend ts) ++ [b.closing]) := by
  have hopening : mend [⟨.opening b, []⟩] = [⟨.opening b, []⟩] := rfl
  have hclosing : mend [⟨.closing b, []⟩] = [⟨.closing b, []⟩] := rfl
  rw [mend_cons, mend_append, mend_append, h, hopening, hclosing]
  simp [Lexeme.text]

theorem isRow_braces {ts trailing : List Token} (h : IsRow Lexeme.startsMember ts)
    (htrailing : trailing = [] ∨ trailing = [⟨.extra, []⟩]) :
    IsRow Lexeme.startsValue (⟨.opening .brace, []⟩ :: (ts ++ (trailing ++ [⟨.closing .brace, []⟩]))) :=
  h.group (by simp) (by simp) (fun _ => precedes_of_startsMember (.inr rfl)) htrailing

theorem spell_mend_comma (ts us : List Token) :
    spell (mend (ts ++ ⟨.comma, [' ']⟩ :: us)) = spell (mend ts) ++ ',' :: ' ' :: spell (mend us) := by
  have hcomma : mend [⟨.comma, [' ']⟩] = [⟨.comma, [' ']⟩] := rfl
  rw [mend_append, mend_cons, hcomma]
  simp [Lexeme.text]

/-- A row of tokens is a subject in writing. With all quotes, and no commas behind last items, it is the subject in
JSON. -/
structure Spells (subject : Subject) (t : Text) (ts : List Token) : Prop where
  row : IsRow subject.starts ts
  text : spell ts = t
  mended : Written .standard subject (spell (mend ts))

namespace Spells

variable {s : Style} {v : Value} {items : List Value} {entries : List (Value × Value)} {name head t u comma : Text}
  {ts us : List Token}

/-- Literals are words that stay without quotes. -/
theorem literal (ht : t ∈ (["true", "false", "null"] : List Text)) (hv : Written .standard (.value v) t) :
    Spells (.value v) t [⟨.word t, []⟩] where
  row := .single ⟨isIdentifier_of_literal t ht, by simp⟩ (List.contains_iff_mem.mpr ht) rfl
  text := by simp
  mended := by
    have hword : isLiteral t = true := List.contains_iff_mem.mpr ht
    have hmend : mend [⟨.word t, []⟩] = [⟨.word t, []⟩] := by
      simp [mend, Token.map, Lexeme.named, Lexeme.valued, hword, Token.isKept]
    simpa [hmend] using hv

theorem int (n : Int) : Spells (.value (.int n)) (Text.ofInt n) [⟨.number (Text.ofInt n), []⟩] where
  row := .single ⟨isNumeral_ofInt n, by simp⟩ rfl rfl
  text := by simp [Lexeme.text]
  mended := by
    have hmend : mend [⟨.number (Text.ofInt n), []⟩] = [⟨.number (Text.ofInt n), []⟩] := rfl
    simpa [hmend, Lexeme.text] using Written.int n

theorem quote (ht : IsSimple t) (r : Bool) :
    Spells (.value (.text t)) (Style.quoted ⟨.double, r⟩ t) [⟨.quote t, []⟩] where
  row := .single ⟨ht.isContent, by simp⟩ rfl rfl
  text := spell_quote r t
  mended := by
    have hmend : mend [⟨.quote t, []⟩] = [⟨.quote t, []⟩] := rfl
    rw [hmend, spell_quote false]
    exact .text ht

theorem emptyList : Spells (.value (.list [])) "[]" [⟨.opening .square, []⟩, ⟨.closing .square, []⟩] :=
  ⟨.empty (by simp) (by simp), rfl, .emptyList⟩

theorem emptyDict : Spells (.value (.dict [])) "\x7b\x7d" [⟨.opening .brace, []⟩, ⟨.closing .brace, []⟩] :=
  ⟨.empty (by simp) (by simp), rfl, .emptyDict⟩

theorem exists_list (h : Spells (.elements items) t ts) (hcomma : s.Trails comma) :
    ∃ us, Spells (.value (.list items)) ('[' :: (t ++ (comma ++ [']']))) us := by
  obtain ⟨hts, rfl, hmend⟩ := h
  obtain ⟨trailing, htrailing, rfl, hdropped⟩ := hcomma.exists_tokens
  have hrow : IsRow Lexeme.startsValue (⟨.opening .square, []⟩ :: (ts ++ (trailing ++ [⟨.closing .square, []⟩]))) :=
    hts.group (by simp) (by simp) (fun y => startsValue_precedes (.inr (.inr ⟨.square, rfl⟩))) htrailing
  refine ⟨_, hrow, spell_group .square ts trailing, ?_⟩
  rw [spell_mend_group .square ts hdropped]
  exact .list hmend (.inl rfl)

theorem exists_dict (hnames : (entries.map Prod.fst).Nodup) (h : Spells (.members entries) t ts)
    (hcomma : s.Trails comma) : ∃ us, Spells (.value (.dict entries)) ('{' :: (t ++ (comma ++ ['}']))) us := by
  obtain ⟨hts, rfl, hmend⟩ := h
  obtain ⟨trailing, htrailing, rfl, hdropped⟩ := hcomma.exists_tokens
  refine ⟨_, isRow_braces hts htrailing, spell_group .brace ts trailing, ?_⟩
  rw [spell_mend_group .brace ts hdropped]
  exact .dict hnames hmend (.inl rfl)

theorem whole (h : Spells (.value v) t ts) : Spells (.content v) t ts :=
  ⟨h.row.mono fun _ => startsContent_of_startsValue, h.text, .whole h.mended⟩

/-- A word that is no value gets its quotes. -/
theorem bare (ht : IsIdentifier t) (hword : t ∉ valueWords) : Spells (.content (.text t)) t [⟨.word t, []⟩] where
  row := .single ⟨ht, by simp⟩ rfl rfl
  text := by simp
  mended := by
    have hplain : isLiteral t = false := by
      by_contra hliteral
      have hmem : t ∈ (["true", "false", "null"] : List Text) :=
        List.contains_iff_mem.mp (Bool.of_not_eq_false hliteral)
      have hsubset : (["true", "false", "null"] : List Text) ⊆ valueWords := by decide
      exact hword (hsubset hmem)
    have hmend : mend [⟨.word t, []⟩] = [⟨.quote t, []⟩] := by
      simp [mend, Token.map, Lexeme.named, Lexeme.valued, hplain, Token.isKept]
    rw [hmend, spell_quote false]
    exact .whole (.text ht.isSimple)

/-- The name of a member is one token, which becomes the name in quotes. -/
theorem exists_member {r : Bool} (hname : IsIdentifier name)
    (hhead : head = Style.quoted ⟨.double, r⟩ name ∨ r = true ∧ head = name) (h : Spells (.content v) t ts) :
    ∃ us, Spells (.member name v) (head ++ ':' :: ' ' :: t) us := by
  obtain ⟨hts, rfl, hmend⟩ := h
  obtain ⟨x, hx, hstarts, hprecedes, hspell, hquote⟩ : ∃ x : Lexeme, Token.IsValid ⟨x, []⟩ ∧ x.startsMember = true ∧
      x.precedes .colon = true ∧ x.text = head ∧ mend [⟨x, []⟩] = [⟨.quote name, []⟩] := by
    rcases hhead with rfl | ⟨-, rfl⟩
    · exact ⟨.quote name, ⟨hname.isSimple.isContent, by simp⟩, rfl, rfl, rfl, rfl⟩
    · exact ⟨.name head, ⟨hname, by simp⟩, rfl, rfl, rfl, rfl⟩
  have hvalue : IsRow (· = .colon) (⟨.colon, [' ']⟩ :: ts) :=
    hts.cons ⟨trivial, by decide⟩ (by simp) fun y => precedes_of_startsContent
  refine ⟨⟨x, []⟩ :: ⟨.colon, [' ']⟩ :: ts, hvalue.cons hx hstarts fun y hy => ?_, ?_, ?_⟩
  · rwa [of_decide_eq_true hy]
  · simp [hspell]
  · rw [mend_cons, hquote, mend_cons]
    have hmember := Written.member (s := .standard) hname (.inl rfl) hmend
    simpa [mend, Token.map, Token.isKept, Style.quoted, Style.standard, Mark.char] using hmember

theorem moreElements (h : Spells (.value v) t ts) (h' : Spells (.elements items) u us) :
    Spells (.elements (v :: items)) (t ++ ',' :: ' ' :: u) (ts ++ ⟨.comma, [' ']⟩ :: us) where
  row := h.row.comma h'.row (by decide) fun y => startsValue_precedes (.inl rfl)
  text := by simp [Lexeme.text, h.text, h'.text]
  mended := by
    rw [spell_mend_comma]
    exact .moreElements h.mended h'.mended

theorem moreMembers (h : Spells (.member name v) t ts) (h' : Spells (.members entries) u us) :
    Spells (.members ((.text name, v) :: entries)) (t ++ ',' :: ' ' :: u) (ts ++ ⟨.comma, [' ']⟩ :: us) where
  row := h.row.comma h'.row (by decide) fun y => precedes_of_startsMember (.inl rfl)
  text := by simp [Lexeme.text, h.text, h'.text]
  mended := by
    rw [spell_mend_comma]
    exact .moreMembers h.mended h'.mended

end Spells

/-- A subject with double quotes is written with a row of tokens. -/
theorem Written.exists_tokens {r : Bool} {subject : Subject} {t : Text} (h : Written ⟨.double, r⟩ subject t) :
    ∃ ts, Spells subject t ts := by
  induction h with
  | null => exact ⟨_, .literal (by decide) .null⟩
  | yes => exact ⟨_, .literal (by decide) .yes⟩
  | no => exact ⟨_, .literal (by decide) .no⟩
  | int n => exact ⟨_, .int n⟩
  | text ht => exact ⟨_, .quote ht r⟩
  | emptyList => exact ⟨_, .emptyList⟩
  | list _ hcomma ih =>
    obtain ⟨ts, hts⟩ := ih
    exact hts.exists_list hcomma
  | emptyDict => exact ⟨_, .emptyDict⟩
  | dict hnames _ hcomma ih =>
    obtain ⟨ts, hts⟩ := ih
    exact hts.exists_dict hnames hcomma
  | whole _ ih =>
    obtain ⟨ts, hts⟩ := ih
    exact ⟨ts, hts.whole⟩
  | bare _ ht hword => exact ⟨_, .bare ht hword⟩
  | member hname hhead _ ih =>
    obtain ⟨ts, hts⟩ := ih
    exact hts.exists_member hname hhead
  | lastElement _ ih =>
    obtain ⟨ts, hts⟩ := ih
    exact ⟨ts, hts.row, hts.text, .lastElement hts.mended⟩
  | moreElements _ _ ih ih' =>
    obtain ⟨ts, hts⟩ := ih
    obtain ⟨us, hus⟩ := ih'
    exact ⟨_, hts.moreElements hus⟩
  | lastMember _ ih =>
    obtain ⟨ts, hts⟩ := ih
    exact ⟨ts, hts.row, hts.text, .lastMember hts.mended⟩
  | moreMembers _ _ ih ih' =>
    obtain ⟨ts, hts⟩ := ih
    obtain ⟨us, hus⟩ := ih'
    exact ⟨_, hts.moreMembers hus⟩

/-- The repair makes JSON of an object however it is written. -/
theorem Written.repair {s : Style} {entries : List (Value × Value)} {t : Text}
    (h : Written s (.value (.dict entries)) t) : Written .standard (.value (.dict entries)) (Json.repair t) := by
  rw [← h.repair_map]
  have hdouble := h.map_toDouble
  generalize t.map toDouble = u at hdouble
  cases hdouble with
  | emptyDict =>
    have hrow : IsRow Lexeme.startsValue ([⟨.opening .brace, []⟩] ++ [⟨.closing .brace, []⟩]) :=
      .empty (by simp) (by simp)
    have hrepair : Json.repair "\x7b\x7d" = "\x7b\x7d" := hrow.repair_eq (w := []) (by simp)
    rw [hrepair]
    exact .emptyDict
  | dict hnames ht hcomma =>
    obtain ⟨ts, hts, rfl, hmend⟩ := ht.exists_tokens
    obtain ⟨trailing, htrailing, rfl, hdropped⟩ := hcomma.exists_tokens
    have hrow := isRow_braces hts htrailing
    have htext := spell_group .brace ts trailing
    have hmended := spell_mend_group .brace ts hdropped
    have hsplit : (⟨.opening .brace, []⟩ :: (ts ++ (trailing ++ [⟨.closing .brace, []⟩])) : List Token) =
        (⟨.opening .brace, []⟩ :: (ts ++ trailing)) ++ [⟨.closing .brace, []⟩] := by simp
    rw [hsplit] at hrow htext hmended
    have hrow' := hrow.repair_eq (w := []) (by simp)
    rw [List.nil_append, List.nil_append, htext, hmended] at hrow'
    have hrepair : Json.repair ('{' :: (spell ts ++ (spell trailing ++ ['}']))) = '{' :: (spell (mend ts) ++ ['}']) :=
      hrow'
    rw [hrepair]
    exact .dict hnames hmend (.inl rfl)

end Tokens

end AskTable.Json
