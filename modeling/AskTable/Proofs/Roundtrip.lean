import AskTable.Proofs.Recovery
import AskTable.Proofs.Rendering

/-! Within the limits of the reader an object is read back from a reply, however it is written. -/
namespace AskTable.Json

/-- Within the limits of the reader: how long integers are, and how many brackets stand inside one another. -/
inductive Fits : Nat → Value → Prop
  | null (depth : Nat) : Fits depth .null
  | bool (depth : Nat) (b : Bool) : Fits depth (.bool b)
  | int (depth : Nat) {n : Int} (hn : n.natAbs < 10 ^ integerDigitLimit) : Fits depth (.int n)
  | text (depth : Nat) (t : Text) : Fits depth (.text t)
  | list {depth : Nat} {items : List Value} (h : ∀ v ∈ items, Fits depth v) : Fits (depth + 1) (.list items)
  | dict {depth : Nat} {entries : List (Value × Value)} (h : ∀ entry ∈ entries, Fits depth entry.2) :
    Fits (depth + 1) (.dict entries)

section Reader

/-- A reading gives what was written, or it tells of a defect in a text that is not JSON. -/
def Reads {α : Type} (s : Style) (a : α) (rest : Text) (r : Except Problem (α × Text)) : Prop :=
  r = .ok (a, rest) ∨ s ≠ .standard ∧ IsDefective r

variable {α β : Type} {s : Style} {a : α} {rest : Text} {r : Except Problem (α × Text)}

theorem Reads.map (h : Reads s a rest r) (f : α → β) :
    Reads s (f a) rest (r.map fun (a, rest) => (f a, rest)) := by
  rcases h with rfl | ⟨hs, h⟩
  · exact .inl rfl
  · exact .inr ⟨hs, h.map _⟩

theorem ne_standard_of_single (h : s.mark = .single) : s ≠ .standard := by
  rintro rfl
  cases h

theorem ne_standard_of_isRelaxed (h : s.isRelaxed = true) : s ≠ .standard := by
  rintro rfl
  cases h

/-- What the reader makes of a written subject, with what comes behind it. -/
def Subject.IsRead (s : Style) (t : Text) : Subject → Prop
  | .value v => ∀ depth fuel rest, Fits depth v → 2 * t.length ≤ fuel → Stops rest →
    Reads s v rest (Json.value fuel depth (t ++ rest))
  | .content v => ∀ depth fuel rest, Fits depth v → 2 * t.length ≤ fuel → Stops rest →
    Reads s v rest (Json.value fuel depth (t ++ rest)) ∨
      s ≠ .standard ∧ ∃ w c u, Json.value fuel depth (t ++ rest) = .ok (w, c :: u) ∧ isNameChar c = true
  | .member name v => ∀ depth fuel done rest, Fits depth v → 2 * t.length ≤ fuel → Stops rest →
    Json.members (fuel + 1) depth done (t ++ rest) = afterMember fuel depth (Value.setKey done (.text name) v) rest ∨
      s ≠ .standard ∧ IsDefective (Json.members (fuel + 1) depth done (t ++ rest))
  | .elements items => ∀ depth fuel comma tail, (∀ v ∈ items, Fits depth v) → 2 * t.length < fuel → s.Trails comma →
    Reads s items tail (Json.elements fuel depth (t ++ (comma ++ ']' :: tail)))
  | .members entries => ∀ depth fuel done comma tail, (∀ entry ∈ entries, Fits depth entry.2) → 2 * t.length < fuel →
    s.Trails comma → ((done ++ entries).map Prod.fst).Nodup →
    Reads s (done ++ entries) tail (Json.members fuel depth done (t ++ (comma ++ '}' :: tail)))

theorem Style.Trails.stops {comma : Text} {c : Char} (h : s.Trails comma) (hc : isStop c = true) (tail : Text) :
    Stops (comma ++ c :: tail) := by
  rcases h with rfl | ⟨-, rfl⟩
  · simpa [Stops] using hc
  · simp [Stops, isStop]

namespace Subject.IsRead

variable {t u comma : Text} {v : Value} {items : List Value} {entries : List (Value × Value)} {name : Text}

/-- Every value takes some fuel. -/
theorem exists_fuel {fuel : Nat} (hne : t ≠ []) (hfuel : 2 * t.length ≤ fuel) : ∃ k, fuel = k + 1 := by
  have hpos := List.length_pos_iff.mpr hne
  exact ⟨fuel - 1, by omega⟩

theorem literal (ht : t ∈ (["true", "false", "null"] : List Text)) (hv : ∀ rest, scalar (t ++ rest) = .ok (v, rest)) :
    (value v).IsRead s t := by
  intro depth fuel rest _ hfuel _
  have hidentifier := isIdentifier_of_literal t ht
  obtain ⟨fuel, rfl⟩ := exists_fuel hidentifier.ne_nil hfuel
  left
  rw [value_of_isInner hidentifier.ne_nil hidentifier.isInner, hv]

theorem int (n : Int) : (value (.int n)).IsRead s (Text.ofInt n) := by
  intro depth fuel rest hfits hfuel hrest
  have hnumeral := isNumeral_ofInt n
  obtain ⟨fuel, rfl⟩ := exists_fuel hnumeral.ne_nil hfuel
  cases hfits with
  | int _ hn =>
    left
    rw [value_of_isInner hnumeral.ne_nil hnumeral.isInner, scalar_ofInt, number_ofInt n hrest,
      if_neg (Text.not_lt_length_ofNat hn)]

theorem text (ht : IsSimple t) : (value (.text t)).IsRead s (s.quoted t) := by
  intro depth fuel rest _ hfuel _
  obtain ⟨fuel, rfl⟩ := exists_fuel (List.cons_ne_nil _ _) hfuel
  cases hmark : s.mark with
  | double =>
    left
    have htext : s.quoted t ++ rest = '"' :: (t ++ '"' :: rest) := by simp [Style.quoted, hmark, Mark.char]
    rw [htext, value_text ht.isPlain]
  | single =>
    have htext : s.quoted t ++ rest = '\'' :: (t ++ '\'' :: rest) := by simp [Style.quoted, hmark, Mark.char]
    refine .inr ⟨ne_standard_of_single hmark, ?_⟩
    rw [htext]
    exact isDefective_value (.inl rfl) _ depth _

theorem emptyList : (value (.list [])).IsRead s "[]" := by
  intro depth fuel rest hfits hfuel _
  obtain ⟨fuel, rfl⟩ := exists_fuel (List.cons_ne_nil _ _) hfuel
  cases hfits with
  | list _ => exact .inl (value_emptyList fuel _ rest)

theorem emptyDict : (value (.dict [])).IsRead s "\x7b\x7d" := by
  intro depth fuel rest hfits hfuel _
  obtain ⟨fuel, rfl⟩ := exists_fuel (List.cons_ne_nil _ _) hfuel
  cases hfits with
  | dict _ => exact .inl (value_emptyDict fuel _ rest)

theorem list (ht : Written s (.elements items) t) (hcomma : s.Trails comma) (h : (elements items).IsRead s t) :
    (value (.list items)).IsRead s ('[' :: (t ++ (comma ++ [']']))) := by
  intro depth fuel rest hfits hfuel _
  obtain ⟨fuel, rfl⟩ := exists_fuel (List.cons_ne_nil _ _) hfuel
  cases hfits with
  | @list depth _ hfits =>
    have hshorter : 2 * t.length < fuel := by
      simp only [List.length_cons, List.length_append] at hfuel
      omega
    have helements := h depth fuel comma rest hfits hshorter hcomma
    obtain ⟨c, u, rfl, hblank, hclosing⟩ := ht.exists_first
    have htext : '[' :: (c :: u ++ (comma ++ [']'])) ++ rest = '[' :: c :: (u ++ (comma ++ ']' :: rest)) := by simp
    rw [htext, value_list hblank hclosing]
    exact helements.map Value.list

theorem dict (hnames : (entries.map Prod.fst).Nodup) (ht : Written s (.members entries) t) (hcomma : s.Trails comma)
    (h : (members entries).IsRead s t) : (value (.dict entries)).IsRead s ('{' :: (t ++ (comma ++ ['}']))) := by
  intro depth fuel rest hfits hfuel _
  obtain ⟨fuel, rfl⟩ := exists_fuel (List.cons_ne_nil _ _) hfuel
  cases hfits with
  | @dict depth _ hfits =>
    have hshorter : 2 * t.length < fuel := by
      simp only [List.length_cons, List.length_append] at hfuel
      omega
    have hmembers := h depth fuel [] comma rest hfits hshorter hcomma hnames
    obtain ⟨c, u, rfl, hblank, hclosing⟩ := ht.exists_first
    have htext : '{' :: (c :: u ++ (comma ++ ['}'])) ++ rest = '{' :: c :: (u ++ (comma ++ '}' :: rest)) := by simp
    rw [htext, value_dict hblank hclosing]
    exact hmembers.map Value.dict

theorem bare (hs : s.isRelaxed = true) (ht : IsIdentifier t) (hword : t ∉ valueWords) :
    (content (.text t)).IsRead s t := by
  intro depth fuel rest _ hfuel hrest
  obtain ⟨fuel, rfl⟩ := exists_fuel ht.ne_nil hfuel
  rw [value_of_isInner ht.ne_nil ht.isInner]
  rcases scalar_word ht hword hrest with hdefect | hmore
  · exact .inl (.inr ⟨ne_standard_of_isRelaxed hs, hdefect⟩)
  · exact .inr ⟨ne_standard_of_isRelaxed hs, hmore⟩

/-- A member with its name in the quotes of JSON is read up to the end of its value. -/
theorem members_quoted (hname : IsIdentifier name) (ht : Written s (.content v) t) (fuel depth : Nat)
    (done : List (Value × Value)) (rest : Text) :
    Json.members (fuel + 1) depth done ('"' :: (name ++ ['"']) ++ ':' :: ' ' :: t ++ rest) =
      (Json.value fuel depth (t ++ rest)).bind fun (v, rest) =>
        afterMember fuel depth (Value.setKey done (.text name) v) rest := by
  obtain ⟨c, u, rfl, hblank, -⟩ := ht.exists_first
  have htext : '"' :: (name ++ ['"']) ++ ':' :: ' ' :: (c :: u) ++ rest =
      '"' :: (name ++ '"' :: ':' :: ' ' :: c :: (u ++ rest)) := by simp
  rw [htext, members_succ hname.isSimple.isPlain, skipBlanks_space hblank]
  rfl

theorem member {head : Text} (hname : IsIdentifier name)
    (hhead : head = s.quoted name ∨ s.isRelaxed = true ∧ head = name) (ht : Written s (.content v) t)
    (h : (content v).IsRead s t) : (Subject.member name v).IsRead s (head ++ ':' :: ' ' :: t) := by
  intro depth fuel done rest hfits hfuel hrest
  have hshorter : 2 * t.length ≤ fuel := by
    simp only [List.length_cons, List.length_append] at hfuel
    omega
  by_cases hquoted : head = '"' :: (name ++ ['"'])
  · rw [hquoted, members_quoted hname ht]
    rcases h depth fuel rest hfits hshorter hrest with (hvalue | ⟨hs, hdefect⟩) | ⟨hs, w, c, u, hvalue, hc⟩
    · left
      rw [hvalue]
      rfl
    · exact .inr ⟨hs, hdefect.bind _⟩
    · refine .inr ⟨hs, .noComma, c :: u, ?_⟩
      rw [hvalue]
      exact afterMember_eq_error hc fuel depth _ u
  · -- No other text is taken for a name.
    obtain ⟨c, u, rfl, hs, hc⟩ : ∃ c u, head = c :: u ∧ s ≠ .standard ∧ c ≠ '"' := by
      rcases hhead with rfl | ⟨hs, rfl⟩
      · cases hmark : s.mark with
        | double => exact absurd (by simp [Style.quoted, hmark, Mark.char]) hquoted
        | single => exact ⟨s.mark.char, _, rfl, ne_standard_of_single hmark, by simp [hmark, Mark.char]⟩
      · obtain ⟨c, u, rfl⟩ := List.exists_cons_of_ne_nil hname.ne_nil
        exact ⟨c, u, rfl, ne_standard_of_isRelaxed hs, ne_of_isInner (hname.isInner c (by simp)) (by decide)⟩
    exact .inr ⟨hs, isDefective_members hc _ depth done _⟩

theorem lastElement (h : (value v).IsRead s t) : (elements [v]).IsRead s t := by
  intro depth fuel comma tail hfits hfuel hcomma
  obtain ⟨fuel, rfl⟩ : ∃ k, fuel = k + 1 := ⟨fuel - 1, by omega⟩
  have hvalue := h depth fuel (comma ++ ']' :: tail) (hfits v (by simp)) (by omega) (hcomma.stops rfl tail)
  rw [elements_succ]
  rcases hvalue with hvalue | ⟨hs, hdefect⟩
  · rw [hvalue]
    rcases hcomma with rfl | ⟨hs, rfl⟩
    · exact .inl rfl
    · exact .inr ⟨ne_standard_of_isRelaxed hs, (isDefective_elements fuel depth tail).map _⟩
  · exact .inr ⟨hs, hdefect.bind _⟩

theorem moreElements (hu : Written s (.elements items) u) (h : (value v).IsRead s t)
    (h' : (elements items).IsRead s u) : (elements (v :: items)).IsRead s (t ++ ',' :: ' ' :: u) := by
  intro depth fuel comma tail hfits hfuel hcomma
  obtain ⟨hv, hitems⟩ := List.forall_mem_cons.mp hfits
  simp only [List.length_append, List.length_cons] at hfuel
  obtain ⟨fuel, rfl⟩ : ∃ k, fuel = k + 1 := ⟨fuel - 1, by omega⟩
  have htext : t ++ ',' :: ' ' :: u ++ (comma ++ ']' :: tail) = t ++ ',' :: ' ' :: (u ++ (comma ++ ']' :: tail)) := by
    simp
  have hvalue := h depth fuel (',' :: ' ' :: (u ++ (comma ++ ']' :: tail))) hv (by omega) (by simp [Stops, isStop])
  have helements := h' depth fuel comma tail hitems (by omega) hcomma
  rw [htext, elements_succ]
  rcases hvalue with hvalue | ⟨hs, hdefect⟩
  · rw [hvalue]
    obtain ⟨c, u, rfl, hblank, -⟩ := hu.exists_first
    have hmap := helements.map (v :: ·)
    rw [List.cons_append, ← afterElement_comma hblank] at hmap
    exact hmap
  · exact .inr ⟨hs, hdefect.bind _⟩

theorem not_mem_of_nodup {done : List (Value × Value)}
    (h : ((done ++ (.text name, v) :: entries).map Prod.fst).Nodup) : .text name ∉ done.map Prod.fst := by
  rw [List.map_append] at h
  exact fun hmem => List.disjoint_of_nodup_append h hmem List.mem_cons_self

theorem lastMember (h : (Subject.member name v).IsRead s t) : (members [(.text name, v)]).IsRead s t := by
  intro depth fuel done comma tail hfits hfuel hcomma hnames
  obtain ⟨fuel, rfl⟩ : ∃ k, fuel = k + 1 := ⟨fuel - 1, by omega⟩
  have hv : Fits depth v := hfits (.text name, v) (by simp)
  have hnew := not_mem_of_nodup hnames
  rcases h depth fuel done (comma ++ '}' :: tail) hv (by omega) (hcomma.stops rfl tail) with hmember | hdefect
  · rw [hmember, Value.setKey_of_not_mem hnew]
    rcases hcomma with rfl | ⟨hs, rfl⟩
    · exact .inl rfl
    · exact .inr ⟨ne_standard_of_isRelaxed hs, isDefective_members (by decide) fuel depth _ tail⟩
  · exact .inr hdefect

theorem moreMembers (hu : Written s (.members entries) u) (h : (Subject.member name v).IsRead s t)
    (h' : (members entries).IsRead s u) :
    (members ((.text name, v) :: entries)).IsRead s (t ++ ',' :: ' ' :: u) := by
  intro depth fuel done comma tail hfits hfuel hcomma hnames
  obtain ⟨hv, hentries⟩ := List.forall_mem_cons.mp hfits
  simp only [List.length_append, List.length_cons] at hfuel
  obtain ⟨fuel, rfl⟩ : ∃ k, fuel = k + 1 := ⟨fuel - 1, by omega⟩
  have htext : t ++ ',' :: ' ' :: u ++ (comma ++ '}' :: tail) = t ++ ',' :: ' ' :: (u ++ (comma ++ '}' :: tail)) := by
    simp
  have hnew := not_mem_of_nodup hnames
  have hsplit : done ++ (.text name, v) :: entries = done ++ [(.text name, v)] ++ entries := by simp
  rw [hsplit] at hnames ⊢
  have hmembers := h' depth fuel _ comma tail hentries (by omega) hcomma hnames
  rw [htext]
  rcases h depth fuel done (',' :: ' ' :: (u ++ (comma ++ '}' :: tail))) hv (by omega) (by simp [Stops, isStop])
    with hmember | hdefect
  · rw [hmember, Value.setKey_of_not_mem hnew]
    obtain ⟨c, u, rfl, hblank, -⟩ := hu.exists_first
    rw [List.cons_append] at hmembers ⊢
    rw [afterMember_comma hblank]
    exact hmembers
  · exact .inr hdefect

end Subject.IsRead

theorem Written.isRead {subject : Subject} {t : Text} (h : Written s subject t) : subject.IsRead s t := by
  induction h with
  | null => exact .literal (by decide) fun _ => rfl
  | yes => exact .literal (by decide) fun _ => rfl
  | no => exact .literal (by decide) fun _ => rfl
  | int n => exact .int n
  | text ht => exact .text ht
  | emptyList => exact .emptyList
  | list ht hcomma ih => exact .list ht hcomma ih
  | emptyDict => exact .emptyDict
  | dict hnames ht hcomma ih => exact .dict hnames ht hcomma ih
  | whole ht ih => exact fun depth fuel rest hfits hfuel hrest => .inl (ih depth fuel rest hfits hfuel hrest)
  | bare hs ht hword => exact .bare hs ht hword
  | member hname hhead ht ih => exact .member hname hhead ht ih
  | lastElement ht ih => exact .lastElement ih
  | moreElements ht hu ih ih' => exact .moreElements hu ih ih'
  | lastMember ht ih => exact .lastMember ih
  | moreMembers ht hu ih ih' => exact .moreMembers hu ih ih'

theorem Written.read {v : Value} {t : Text} (h : Written s (.value v) t) (hfits : Fits nestingLimit v) :
    Json.read t = .ok v ∨ s ≠ .standard ∧ IsDefective (Json.read t) := by
  have hblanks : skipBlanks t = t := by
    obtain ⟨c, u, rfl, hblank, -⟩ := h.exists_first
    exact skipBlanks_cons hblank
  have hvalue := h.isRead nestingLimit (2 * t.length + 2) [] hfits (by omega) (by simp [Stops])
  rw [List.append_nil] at hvalue
  unfold Json.read
  rw [hblanks]
  rcases hvalue with hvalue | ⟨hs, hdefect⟩
  · left
    rw [hvalue]
    rfl
  · exact .inr ⟨hs, hdefect.bind _⟩

theorem Written.isBraced {entries : List (Value × Value)} {t : Text} (h : Written s (.value (.dict entries)) t) :
    IsBraced t := by
  cases h with
  | emptyDict => exact ⟨rfl, rfl⟩
  | @dict _ t comma =>
    refine ⟨rfl, ?_⟩
    have hsplit : '{' :: (t ++ (comma ++ ['}'])) = '{' :: (t ++ comma) ++ ['}'] := by simp
    rw [hsplit, List.getLast?_concat]

theorem readReply_of_isBraced {t : Text} (h : IsBraced t) :
    readReply t =
      match readRepaired t with
      | .ok (.dict entries) => .ok entries
      | .ok _ => .error .notAnObject
      | .error fault => .error fault :=
  readReply_of_isWithin h ⟨[], [], by simp, by simp, by simp⟩

/-- However an object is written, a reply that is this text is read as the object. -/
theorem Written.readReply_eq {entries : List (Value × Value)} {t : Text} (h : Written s (.value (.dict entries)) t)
    (hfits : Fits nestingLimit (.dict entries)) : readReply t = .ok entries := by
  have hrepaired : readRepaired t = .ok (.dict entries) := by
    unfold readRepaired
    -- A text that can be read as it is gives the object, and any other one comes to the repair.
    rcases h.read hfits with hread | ⟨-, kind, u, hread⟩
    · rw [hread]
    · have hrepair : Json.read (Json.repair t) = .ok (.dict entries) := by
        rcases h.repair.read hfits with hrepair | ⟨hne, -⟩
        · exact hrepair
        · exact absurd rfl hne
      rw [hread]
      dsimp only
      rw [hrepair]
  rw [readReply_of_isBraced h.isBraced, hrepaired]

end Reader

def relaxedText : Text :=
  "\x7bkind: count, 'items': [\x7bname_1: Date, 'n': -6,\x7d, [], 'a: b, c', null,], _x: true,\x7d"

def relaxedEntries : List (Value × Value) :=
  [("kind", "count"), ("items", .list [.dict [("name_1", "Date"), ("n", .int (-6))], .list [], "a: b, c", .null]),
    ("_x", .bool true)]

private theorem written_relaxedText : Written ⟨.single, true⟩ (.value (.dict relaxedEntries)) relaxedText := by
  have hcomma : Style.Trails ⟨.single, true⟩ [','] := .inr ⟨rfl, rfl⟩
  have hname : Written ⟨.single, true⟩ (.member "name_1" "Date") "name_1: Date" :=
    .member ⟨by decide, by decide⟩ (.inr ⟨rfl, rfl⟩) (.bare rfl ⟨by decide, by decide⟩ (by decide))
  have hshort : IsIdentifier "n" := ⟨by decide, by decide⟩
  have hmarked : ("'n'" : Text) = Style.quoted ⟨.single, true⟩ "n" := rfl
  have hn : Written ⟨.single, true⟩ (.member "n" (.int (-6))) "'n': -6" :=
    .member hshort (.inl hmarked) (.whole (.int (-6)))
  have hitem : Written ⟨.single, true⟩ (.value (.dict [("name_1", "Date"), ("n", .int (-6))]))
      "\x7bname_1: Date, 'n': -6,\x7d" :=
    .dict (by simp) (.moreMembers hname (.lastMember hn)) hcomma
  have htext : Written ⟨.single, true⟩ (.value "a: b, c") "'a: b, c'" := .text (t := "a: b, c") (by decide)
  have hitems : Written ⟨.single, true⟩
      (.elements [.dict [("name_1", "Date"), ("n", .int (-6))], .list [], "a: b, c", .null])
      "\x7bname_1: Date, 'n': -6,\x7d, [], 'a: b, c', null" :=
    .moreElements hitem (.moreElements .emptyList (.moreElements htext (.lastElement .null)))
  have hkind : Written ⟨.single, true⟩ (.member "kind" "count") "kind: count" :=
    .member ⟨by decide, by decide⟩ (.inr ⟨rfl, rfl⟩) (.bare rfl ⟨by decide, by decide⟩ (by decide))
  have hquoted : ("'items'" : Text) = Style.quoted ⟨.single, true⟩ "items" := rfl
  have hlist := Written.member ⟨by decide, by decide⟩ (.inl hquoted) (.whole (.list hitems hcomma))
  have hx : Written ⟨.single, true⟩ (.member "_x" (.bool true)) "_x: true" :=
    .member ⟨by decide, by decide⟩ (.inr ⟨rfl, rfl⟩) (.whole .yes)
  have hnames : (relaxedEntries.map Prod.fst).Nodup := by simp [relaxedEntries]
  exact .dict hnames (.moreMembers hkind (.moreMembers hlist (.lastMember hx))) hcomma

private theorem fits_relaxedEntries : Fits nestingLimit (.dict relaxedEntries) := by
  have hshort : (-6 : Int).natAbs < 10 ^ integerDigitLimit := by
    have hpower : 10 ^ 1 ≤ 10 ^ integerDigitLimit := Nat.pow_le_pow_right (by decide) (by decide)
    exact Nat.lt_of_lt_of_le (by decide) hpower
  refine .dict ?_
  simp only [relaxedEntries, List.forall_mem_cons, List.not_mem_nil, false_imp_iff, implies_true, and_true]
  refine ⟨.text _ _, .list ?_, .bool _ _⟩
  simp only [List.forall_mem_cons, List.not_mem_nil, false_imp_iff, implies_true, and_true]
  refine ⟨.dict ?_, .list ?_, .text _ _, .null _⟩
  · simp only [List.forall_mem_cons, List.not_mem_nil, false_imp_iff, implies_true, and_true]
    exact ⟨.text _ _, .int _ hshort⟩
  · simp

theorem readReply_relaxedText : Written ⟨.single, true⟩ (.value (.dict relaxedEntries)) relaxedText ∧
    Fits nestingLimit (.dict relaxedEntries) ∧ readReply relaxedText = .ok relaxedEntries :=
  ⟨written_relaxedText, fits_relaxedEntries, written_relaxedText.readReply_eq fits_relaxedEntries⟩

section Limits

def onlyMember (u : Text) : Text :=
  '{' :: '"' :: 'a' :: '"' :: ':' :: ' ' :: (u ++ ['}'])

private theorem written_onlyMember {s : Style} {v : Value} {u : Text} (hs : s.mark = .double)
    (h : Written s (.value v) u) : Written s (.value (.dict [("a", v)])) (onlyMember u) := by
  have hname : IsIdentifier ['a'] := ⟨by decide, by decide⟩
  have hmember := Written.member hname (.inl rfl) (.whole h)
  have hcomma : s.Trails [] := .inl rfl
  have hdict := Written.dict (by simp) (.lastMember hmember) hcomma
  simpa [Style.quoted, hs, Mark.char, onlyMember] using hdict

/-- A member that is not read makes the object unread. -/
theorem read_onlyMember {s : Style} {v : Value} {u : Text} {problem : Problem} (h : Written s (.value v) u)
    (hvalue : ∀ fuel, 2 * u.length + 14 ≤ fuel → value fuel 984 (u ++ ['}']) = .error problem) :
    read (onlyMember u) = .error problem := by
  obtain ⟨c, rest, rfl, hblank, -⟩ := h.exists_first
  have hrest : skipBlanks (' ' :: (c :: rest ++ ['}'])) = c :: rest ++ ['}'] := skipBlanks_space hblank
  have hname : IsPlain ['a'] := by decide
  have hmembers := members_succ hname (2 * (c :: rest).length + 14) 984 []
    (' ' :: (c :: rest ++ ['}']))
  rw [hrest, hvalue _ le_rfl] at hmembers
  have hfuel : 2 * (onlyMember (c :: rest)).length + 2 = (2 * (c :: rest).length + 14) + 1 + 1 := by
    simp only [onlyMember, List.length_cons, List.length_append, List.length_nil]
    omega
  have hobject : value (2 * (onlyMember (c :: rest)).length + 2) nestingLimit (onlyMember (c :: rest)) =
      .error problem := by
    rw [hfuel]
    have hdict := value_dict (c := '"') (by decide) (by decide) (2 * (c :: rest).length + 14 + 1) 984
      ('a' :: '"' :: ':' :: ' ' :: (c :: rest ++ ['}']))
    refine hdict.trans ?_
    change Except.map _ (members _ 984 [] ('"' :: (['a'] ++ '"' :: ':' :: ' ' :: (c :: rest ++ ['}'])))) = _
    rw [hmembers]
    rfl
  have hblanks : skipBlanks (onlyMember (c :: rest)) = onlyMember (c :: rest) := skipBlanks_cons (by decide)
  unfold read
  rw [hblanks, hobject]
  rfl

def nested : Nat → Value
  | 0 => .null
  | n + 1 => .list [nested n]

def nestedLists (n : Nat) : Text :=
  List.replicate n '[' ++ ("null" ++ List.replicate n ']')

private theorem written_nested (s : Style) (n : Nat) : Written s (.value (nested n)) (nestedLists n) := by
  induction n with
  | zero => exact .null
  | succ n ih =>
    have hcomma : s.Trails [] := .inl rfl
    have hlist := Written.list (.lastElement ih) hcomma
    have htext : nestedLists (n + 1) = '[' :: (nestedLists n ++ ([] ++ [']'])) := by
      have hclosing : List.replicate (n + 1) ']' = List.replicate n ']' ++ [']'] := List.replicate_succ'
      rw [nestedLists, hclosing, List.replicate_succ]
      simp [nestedLists]
    rw [htext]
    exact hlist

def tooLong : Nat :=
  10 ^ integerDigitLimit

/-- There are objects beyond the limits: one with an integer of too many digits, and one with too many brackets
inside one another. -/
theorem unread_beyond_limits :
    (Written ⟨.double, true⟩ (.value (.dict [("a", .int tooLong)])) (onlyMember (Text.ofNat tooLong)) ∧
      readReply (onlyMember (Text.ofNat tooLong)) = .error (.tooManyDigits (Text.ofNat tooLong).length)) ∧
    Written ⟨.double, true⟩ (.value (.dict [("a", nested nestingLimit)])) (onlyMember (nestedLists nestingLimit)) ∧
      readReply (onlyMember (nestedLists nestingLimit)) = .error .tooDeep := by
  constructor
  · have hwritten : Written ⟨.double, true⟩ (.value (.int tooLong)) (Text.ofNat tooLong) := .int tooLong
    have hread : read (onlyMember (Text.ofNat tooLong)) = .error (.tooManyDigits (Text.ofNat tooLong).length) := by
      refine read_onlyMember hwritten fun fuel hfuel => ?_
      obtain ⟨fuel, rfl⟩ : ∃ k, fuel = k + 1 := ⟨fuel - 1, by omega⟩
      have hnumeral := isNumeral_ofInt tooLong
      have hstops : Stops ['}'] := by simp [Stops, isStop]
      have hnumber := number_ofInt tooLong hstops
      have hlong : integerDigitLimit < (Text.ofNat tooLong).length := Text.lt_length_ofNat (n := tooLong) le_rfl
      rw [Int.natAbs_natCast, if_pos hlong, ← scalar_ofInt] at hnumber
      exact (value_of_isInner hnumeral.ne_nil hnumeral.isInner fuel 984 ['}']).trans hnumber
    have hobject := written_onlyMember rfl hwritten
    refine ⟨hobject, ?_⟩
    rw [readReply_of_isBraced hobject.isBraced, readRepaired, hread]
  · have hwritten := written_nested ⟨.double, true⟩ nestingLimit
    have hread : read (onlyMember (nestedLists nestingLimit)) = .error .tooDeep := by
      refine read_onlyMember hwritten fun fuel hfuel => ?_
      have hlength : 984 < (nestedLists nestingLimit).length := by
        rw [nestedLists, List.length_append, List.length_replicate]
        exact Nat.lt_add_right _ (by decide)
      have hfuel : 2 * 984 < fuel := by omega
      rw [nestedLists, List.append_assoc]
      exact value_replicate hfuel _
    have hobject := written_onlyMember rfl hwritten
    refine ⟨hobject, ?_⟩
    rw [readReply_of_isBraced hobject.isBraced, readRepaired, hread]

end Limits

end AskTable.Json
