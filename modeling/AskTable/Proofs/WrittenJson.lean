import AskTable.Json.Writer
import AskTable.Proofs.Roundtrip

/-! What is written as JSON is read back: the characters of a text from their escapes, and lists and objects item by
item. -/
namespace AskTable.Json

section Escapes

variable {t w rest opening : Text} {c : Char} {n d high low : Nat}

def hexNumber? (t : Text) : Option Nat :=
  (t.mapM hexValue?).map fun digits => digits.foldl (fun n d => 16 * n + d) 0

private theorem hexNumber?_concat (ht : hexNumber? t = some n) (hc : hexValue? c = some d) :
    hexNumber? (t ++ [c]) = some (16 * n + d) := by
  obtain ⟨digits, hdigits, rfl⟩ := Option.map_eq_some_iff.mp ht
  simp [hexNumber?, List.mapM_append, hdigits, hc]

private theorem hexNumber?_zeros (k : Nat) (t : Text) : hexNumber? (List.replicate k '0' ++ t) = hexNumber? t := by
  induction k with
  | zero => rfl
  | succ k ih =>
    rw [← ih, List.replicate_succ, List.cons_append, hexNumber?, hexNumber?, List.mapM_cons]
    cases (List.replicate k '0' ++ t).mapM hexValue? <;> rfl

private theorem hexValue?_digitChar : ∀ d < 16, hexValue? d.digitChar = some d := by
  decide

theorem hexNumber?_toDigits (n : Nat) : hexNumber? (Nat.toDigits 16 n) = some n := by
  induction n using Nat.strong_induction_on with
  | _ n ih =>
    by_cases hshort : n < 16
    · rw [Nat.toDigits_of_lt_base hshort, hexNumber?, List.mapM_cons, hexValue?_digitChar n hshort]
      simp
    · rw [Nat.toDigits_of_base_le (by decide) (by omega),
        hexNumber?_concat (ih (n / 16) (by omega)) (hexValue?_digitChar (n % 16) (by omega))]
      exact congrArg some (by omega)

theorem length_hexDigits (h : n < 16 ^ 4) : (Value.hexDigits 4 n).length = 4 := by
  have hlength := (Nat.length_toDigits_le_iff (b := 16) (by decide) (by decide)).mpr h
  rw [Value.hexDigits, List.length_append, List.length_replicate]
  omega

theorem codeUnit?_hexDigits (h : n < 16 ^ 4) (rest : Text) :
    codeUnit? (Value.hexDigits 4 n ++ rest) = some n ∧ (Value.hexDigits 4 n ++ rest).drop 4 = rest := by
  have hlength := length_hexDigits h
  have htake : (Value.hexDigits 4 n ++ rest).take 4 = Value.hexDigits 4 n := List.take_left' hlength
  refine ⟨?_, List.drop_left' hlength⟩
  rw [codeUnit?, htake, if_pos hlength, ← hexNumber?, Value.hexDigits, hexNumber?_zeros, hexNumber?_toDigits]

private theorem codeEscape_hexDigits (h : n < 16 ^ 4) (hwhole : n < 0xD800 ∨ 0xE000 ≤ n) (hrest : rest ≠ []) :
    codeEscape (Value.hexDigits 4 n ++ rest) = .ok (Char.ofNat n, 4) := by
  obtain ⟨hunit, hdrop⟩ := codeUnit?_hexDigits h rest
  obtain ⟨c, u, rfl⟩ := List.exists_cons_of_ne_nil hrest
  have hchar : charOfCode n = Char.ofNat n := if_neg (by omega)
  unfold codeEscape
  simp only [hunit, hdrop, hchar]
  split
  · rw [if_neg (by omega)]
  · rfl

private theorem codeEscape_pair (hhigh : 0xD800 ≤ high ∧ high < 0xDC00) (hlow : 0xDC00 ≤ low ∧ low < 0xE000)
    (hrest : rest ≠ []) :
    codeEscape (Value.hexDigits 4 high ++ '\\' :: 'u' :: (Value.hexDigits 4 low ++ rest)) =
      .ok (charOfCode (joinPair high low), 10) := by
  obtain ⟨hunit, hdrop⟩ := codeUnit?_hexDigits (n := high) (by omega) ('\\' :: 'u' :: (Value.hexDigits 4 low ++ rest))
  obtain ⟨hunit', -⟩ := codeUnit?_hexDigits (n := low) (by omega) rest
  have hlong : 4 < (Value.hexDigits 4 low ++ rest).length := by
    have hpos := List.length_pos_iff.mpr hrest
    rw [List.length_append, length_hexDigits (by omega)]
    omega
  unfold codeEscape
  simp only [hunit, hdrop]
  rw [if_pos ⟨hhigh.1, hhigh.2, hlong⟩, hunit']
  dsimp only
  rw [if_pos hlow]

theorem stringBody_skip (opening w rest : Text) :
    stringBody opening w.length (w ++ rest) = stringBody opening 0 rest := by
  induction w with
  | nil => rfl
  | cons c w ih => exact ih

theorem stringBody_escape (h : escape opening (w ++ rest) = .ok (c, w.length)) :
    stringBody opening 0 ('\\' :: (w ++ rest)) =
      (stringBody opening 0 rest).map fun (t, tail) => (c :: t, tail) := by
  rw [stringBody, if_neg (by decide), if_pos rfl, h]
  dsimp only
  rw [stringBody_skip]

private theorem escape_unit (h : n < 16 ^ 4) (hwhole : n < 0xD800 ∨ 0xE000 ≤ n) (hrest : rest ≠ []) :
    escape opening ('u' :: Value.hexDigits 4 n ++ rest) = .ok (Char.ofNat n, ('u' :: Value.hexDigits 4 n).length) := by
  rw [List.cons_append, escape, codeEscape_hexDigits h hwhole hrest, List.length_cons, length_hexDigits h]
  rfl

/-- The code point of a character above the first plane is joined from its halves. -/
theorem charOfCode_joinPair (h : 0x10000 ≤ n) :
    charOfCode (joinPair (0xD800 + (n - 0x10000) / 0x400) (0xDC00 + (n - 0x10000) % 0x400)) = Char.ofNat n := by
  have hjoined : joinPair (0xD800 + (n - 0x10000) / 0x400) (0xDC00 + (n - 0x10000) % 0x400) = n := by
    unfold joinPair
    omega
  rw [hjoined]
  exact if_neg (by omega)

private theorem escape_pair (hhigh : 0xD800 ≤ high ∧ high < 0xDC00) (hlow : 0xDC00 ≤ low ∧ low < 0xE000)
    (hrest : rest ≠ []) :
    escape opening ('u' :: (Value.hexDigits 4 high ++ '\\' :: 'u' :: Value.hexDigits 4 low) ++ rest) =
      .ok (charOfCode (joinPair high low),
        ('u' :: (Value.hexDigits 4 high ++ '\\' :: 'u' :: Value.hexDigits 4 low)).length) := by
  have hpair := codeEscape_pair hhigh hlow hrest
  have htext : Value.hexDigits 4 high ++ '\\' :: 'u' :: Value.hexDigits 4 low ++ rest =
      Value.hexDigits 4 high ++ '\\' :: 'u' :: (Value.hexDigits 4 low ++ rest) := by
    simp
  have hlength : ('u' :: (Value.hexDigits 4 high ++ '\\' :: 'u' :: Value.hexDigits 4 low)).length = 11 := by
    simp [length_hexDigits (n := high) (by omega), length_hexDigits (n := low) (by omega)]
  rw [List.cons_append, escape, htext, hpair, hlength]
  rfl

/-- No character is a half of a pair. -/
theorem toNat_cases (c : Char) : c.toNat < 0xD800 ∨ 0xE000 ≤ c.toNat ∧ c.toNat < 0x110000 := by
  have hvalid := c.valid
  simp only [UInt32.isValidChar, Nat.isValidChar] at hvalid
  simp only [Char.toNat]
  omega

theorem escapeUnit_eq (n : Nat) : escapeUnit n = '\\' :: 'u' :: Value.hexDigits 4 n :=
  rfl

theorem stringBody_unit (h : n < 16 ^ 4) (hwhole : n < 0xD800 ∨ 0xE000 ≤ n) (hrest : rest ≠ []) :
    stringBody opening 0 (escapeUnit n ++ rest) =
      (stringBody opening 0 rest).map fun (t, tail) => (Char.ofNat n :: t, tail) := by
  rw [escapeUnit_eq]
  exact stringBody_escape (escape_unit h hwhole hrest)

theorem stringBody_pair (hhigh : 0xD800 ≤ high ∧ high < 0xDC00) (hlow : 0xDC00 ≤ low ∧ low < 0xE000)
    (hrest : rest ≠ []) :
    stringBody opening 0 (escapeUnit high ++ escapeUnit low ++ rest) =
      (stringBody opening 0 rest).map fun (t, tail) => (charOfCode (joinPair high low) :: t, tail) := by
  rw [escapeUnit_eq, escapeUnit_eq]
  exact stringBody_escape (escape_pair hhigh hlow hrest)

/-- A character is read back from what is written for it, if more of the string follows. -/
theorem stringBody_writeChar (c : Char) (hrest : rest ≠ []) :
    stringBody opening 0 (writeChar c ++ rest) =
      (stringBody opening 0 rest).map fun (t, tail) => (c :: t, tail) := by
  unfold writeChar
  dsimp only
  split
  · exact stringBody_escape (w := ['"']) rfl
  · exact stringBody_escape (w := ['\\']) rfl
  · exact stringBody_escape (w := ['n']) rfl
  · exact stringBody_escape (w := ['r']) rfl
  · exact stringBody_escape (w := ['t']) rfl
  · next hquote hback _ _ _ =>
    have hcode : c = Char.ofNat c.toNat := (Char.ofNat_toNat c).symm
    split_ifs with hbackspace hfeed hplain hlow
    · rw [hbackspace] at hcode
      subst hcode
      exact stringBody_escape (w := ['b']) rfl
    · rw [hfeed] at hcode
      subst hcode
      exact stringBody_escape (w := ['f']) rfl
    · have hneither : c ≠ '"' ∧ c ≠ '\\' := ⟨hquote, hback⟩
      rw [List.singleton_append, stringBody, if_neg hneither.1, if_neg hneither.2, if_neg (by omega)]
    · rw [stringBody_unit hlow ((toNat_cases c).imp_right And.left) hrest, ← hcode]
    · have hcases := toNat_cases c
      rw [stringBody_pair (by omega) (by omega) hrest, charOfCode_joinPair (by omega), ← hcode]

/-- A text is read back from its characters between quotes. -/
theorem stringBody_flatMap (opening t rest : Text) :
    stringBody opening 0 (t.flatMap writeChar ++ '"' :: rest) = .ok (t, rest) := by
  induction t with
  | nil => rfl
  | cons c t ih =>
    rw [List.flatMap_cons, List.append_assoc, stringBody_writeChar c (by simp), ih]
    rfl

end Escapes

/-- Values that JSON has a form of its own for: the keys of dictionaries are different texts, and there are no floating
values and no dates. -/
inductive HasForm : Value → Prop
  | null : HasForm .null
  | bool (b : Bool) : HasForm (.bool b)
  | int (n : Int) : HasForm (.int n)
  | text (t : Text) : HasForm (.text t)
  | list {items : List Value} (h : ∀ v ∈ items, HasForm v) : HasForm (.list items)
  | dict {entries : List (Value × Value)} (h : ∀ entry ∈ entries, HasForm entry.2)
    (hnames : ∀ entry ∈ entries, ∃ name, entry.1 = .text name) (hnodup : (entries.map Prod.fst).Nodup) :
    HasForm (.dict entries)

section Values

variable {v : Value} {items : List Value} {entries : List (Value × Value)} {name tail : Text}

theorem HasForm.exists_first (h : HasForm v) :
    ∃ c u, write v = c :: u ∧ isJsonBlank c = false ∧ isClosing c = false := by
  cases h with
  | null => exact ⟨'n', _, rfl, rfl, rfl⟩
  | bool b => cases b <;> exact ⟨_, _, rfl, rfl, rfl⟩
  | int n =>
    have hnumeral := isNumeral_ofInt n
    obtain ⟨c, u, htext⟩ := List.exists_cons_of_ne_nil hnumeral.ne_nil
    have hinner := hnumeral.isInner c (by simp [htext])
    exact ⟨c, u, by rw [write, htext], hinner.isSolid⟩
  | text t => exact ⟨'"', _, rfl, rfl, rfl⟩
  | list => exact ⟨'[', _, by rw [write]; rfl, rfl, rfl⟩
  | dict => exact ⟨'{', _, by rw [write]; rfl, rfl, rfl⟩

/-- The reader makes the value of what is written for it, whatever comes behind. -/
def IsReadBack (v : Value) : Prop :=
  ∀ depth fuel rest, Fits depth v → 2 * (write v).length ≤ fuel → Stops rest →
    value fuel depth (write v ++ rest) = .ok (v, rest)

theorem join_cons (sep : Text) (c : Char) (u : Text) (more : List Text) :
    Text.join sep ((c :: u) :: more) = c :: Text.join sep (u :: more) := by
  cases more <;> rfl

theorem join_comma (t u : Text) (more : List Text) :
    Text.join ", " (t :: u :: more) = t ++ ',' :: ' ' :: Text.join ", " (u :: more) := by
  rw [Text.join_cons_cons, List.append_assoc]
  rfl

theorem elements_writeItems (hform : ∀ v ∈ items, HasForm v) (h : ∀ v ∈ items, IsReadBack v) (hne : items ≠ [])
    {depth fuel : Nat} (hfits : ∀ v ∈ items, Fits depth v)
    (hfuel : 2 * (Text.join ", " (writeItems items)).length < fuel) (tail : Text) :
    elements fuel depth (Text.join ", " (writeItems items) ++ ']' :: tail) = .ok (items, tail) := by
  induction items generalizing fuel with
  | nil => exact absurd rfl hne
  | cons v items ih =>
    obtain ⟨fuel, rfl⟩ : ∃ k, fuel = k + 1 := ⟨fuel - 1, by omega⟩
    obtain ⟨hv, hitems⟩ := List.forall_mem_cons.mp h
    obtain ⟨hfit, hfits⟩ := List.forall_mem_cons.mp hfits
    obtain ⟨-, hform⟩ := List.forall_mem_cons.mp hform
    cases items with
    | nil =>
      have hvalue := hv depth fuel (']' :: tail) hfit (Nat.lt_succ_iff.mp hfuel) (by simp [Stops, isStop])
      change elements (fuel + 1) depth (write v ++ ']' :: tail) = _
      rw [elements_succ, hvalue]
      rfl
    | cons w items =>
      have hmore (hshort : 2 * (Text.join ", " (writeItems (w :: items))).length < fuel) :=
        ih hform hitems (List.cons_ne_nil _ _) hfits hshort
      obtain ⟨c, u, hfirst, hblank, -⟩ := (hform w List.mem_cons_self).exists_first
      simp only [writeItems, hfirst, join_cons, join_comma, List.append_assoc, List.cons_append, List.length_append,
        List.length_cons] at hfuel hmore ⊢
      rw [elements_succ, hv depth fuel _ hfit (by omega) (by simp [Stops, isStop])]
      dsimp only [Except.bind]
      rw [afterElement_comma hblank, hmore (by omega)]
      rfl

/-- A member is read up to the end of its value. -/
theorem members_writeText (hform : HasForm v) (h : IsReadBack v) {depth fuel : Nat} (hfit : Fits depth v)
    (hfuel : 2 * (write v).length ≤ fuel) (name : Text) (done : List (Value × Value)) (rest : Text) (hrest : Stops rest) :
    members (fuel + 1) depth done (writeText name ++ ": " ++ write v ++ rest) =
      afterMember fuel depth (Value.setKey done (.text name) v) rest := by
  obtain ⟨c, u, hfirst, hblank, -⟩ := hform.exists_first
  have htext : writeText name ++ ": " ++ write v ++ rest =
      '"' :: (name.flatMap writeChar ++ '"' :: ':' :: ' ' :: c :: (u ++ rest)) := by
    simp [writeText, hfirst]
  have hvalue := h depth fuel rest hfit hfuel hrest
  rw [hfirst, List.cons_append] at hvalue
  rw [htext, members_of_stringBody (stringBody_flatMap _ name _), skipBlanks_space hblank, hvalue]
  rfl

theorem members_writeEntries (hform : ∀ entry ∈ entries, HasForm entry.2)
    (h : ∀ entry ∈ entries, IsReadBack entry.2) (hnames : ∀ entry ∈ entries, ∃ name, entry.1 = .text name)
    (hne : entries ≠ []) {depth fuel : Nat} (hfits : ∀ entry ∈ entries, Fits depth entry.2)
    (hfuel : 2 * (Text.join ", " (writeEntries entries)).length < fuel) (done : List (Value × Value))
    (hnodup : ((done ++ entries).map Prod.fst).Nodup) (tail : Text) :
    members fuel depth done (Text.join ", " (writeEntries entries) ++ '}' :: tail) = .ok (done ++ entries, tail) := by
  induction entries generalizing fuel done with
  | nil => exact absurd rfl hne
  | cons entry entries ih =>
    obtain ⟨fuel, rfl⟩ : ∃ k, fuel = k + 1 := ⟨fuel - 1, by omega⟩
    obtain ⟨⟨name, hname⟩, hnames'⟩ := List.forall_mem_cons.mp hnames
    obtain ⟨hv, hentries⟩ := List.forall_mem_cons.mp h
    obtain ⟨hfit, hfits'⟩ := List.forall_mem_cons.mp hfits
    obtain ⟨hvform, hform'⟩ := List.forall_mem_cons.mp hform
    obtain ⟨k, v⟩ := entry
    obtain rfl : k = .text name := hname
    have hset := Value.setKey_of_not_mem (Subject.IsRead.not_mem_of_nodup hnodup) v
    cases entries with
    | nil =>
      have hshort : 2 * (write v).length ≤ fuel := by
        simp only [writeEntries, Text.join, List.length_append] at hfuel
        omega
      have hmember := members_writeText hvform hv hfit hshort name done ('}' :: tail) (by simp [Stops, isStop])
      rw [hset] at hmember
      exact hmember
    | cons other entries =>
      have hsplit : done ++ (.text name, v) :: other :: entries = done ++ [(.text name, v)] ++ other :: entries := by
        simp
      rw [hsplit] at hnodup ⊢
      have hmore (hshort : 2 * (Text.join ", " (writeEntries (other :: entries))).length < fuel) :=
        ih hform' hentries hnames' (List.cons_ne_nil _ _) hfits' hshort _ hnodup
      obtain ⟨u, hfirst⟩ : ∃ u, Text.join ", " (writeEntries (other :: entries)) = '"' :: u := by
        obtain ⟨k, w⟩ := other
        exact ⟨_, join_cons _ _ _ _⟩
      have htext : Text.join ", " (writeEntries ((.text name, v) :: other :: entries)) =
          writeText name ++ ": " ++ write v ++ ',' :: ' ' :: Text.join ", " (writeEntries (other :: entries)) :=
        join_comma _ _ _
      rw [htext] at hfuel ⊢
      rw [hfirst] at hfuel hmore ⊢
      simp only [List.length_append, List.length_cons] at hfuel hmore
      have hshort : 2 * (write v).length ≤ fuel := by omega
      rw [List.append_assoc, List.cons_append, List.cons_append,
        members_writeText hvform hv hfit hshort name done _ (by simp [Stops, isStop]), hset]
      exact (afterMember_comma (by decide) fuel depth _ _).trans (hmore (by omega))

theorem isReadBack_of_isRead (h : (Subject.value v).IsRead .standard (write v)) : IsReadBack v := by
  intro depth fuel rest hfits hfuel hrest
  rcases h depth fuel rest hfits hfuel hrest with hread | ⟨hne, -⟩
  · exact hread
  · exact absurd rfl hne

/-- What is written for a value that has a form in JSON is read as the value, within the limits of the reader. -/
theorem HasForm.isReadBack (h : HasForm v) : IsReadBack v := by
  induction h with
  | null => exact isReadBack_of_isRead (.literal (by decide) fun _ => rfl)
  | bool b => cases b <;> exact isReadBack_of_isRead (.literal (by decide) fun _ => rfl)
  | int n => exact isReadBack_of_isRead (.int n)
  | text t =>
    intro depth fuel rest _ hfuel _
    obtain ⟨fuel, rfl⟩ := Subject.IsRead.exists_fuel (List.cons_ne_nil _ _) hfuel
    have htext : write (.text t) ++ rest = '"' :: (t.flatMap writeChar ++ '"' :: rest) := by simp [write, writeText]
    rw [htext, value, stringBody_flatMap]
    rfl
  | @list items hform ih =>
    cases items with
    | nil => exact isReadBack_of_isRead .emptyList
    | cons v items =>
      intro depth fuel rest hfits hfuel _
      cases hfits with
      | @list depth _ hfits =>
        have htext : write (.list (v :: items)) ++ rest =
            '[' :: (Text.join ", " (writeItems (v :: items)) ++ ']' :: rest) := by
          simp [write]
        have hlength := congrArg List.length htext
        simp only [List.length_append, List.length_cons] at hlength
        obtain ⟨fuel, rfl⟩ : ∃ k, fuel = k + 1 := ⟨fuel - 1, by omega⟩
        have hshort : 2 * (Text.join ", " (writeItems (v :: items))).length < fuel := by omega
        have helements := elements_writeItems hform ih (List.cons_ne_nil _ _) hfits hshort rest
        obtain ⟨c, u, hfirst, hblank, hclosing⟩ := (hform v List.mem_cons_self).exists_first
        have hjoin : Text.join ", " (writeItems (v :: items)) = c :: Text.join ", " (u :: writeItems items) := by
          rw [writeItems, hfirst, join_cons]
        rw [hjoin, List.cons_append] at htext helements
        rw [htext, value_list hblank hclosing, helements]
        rfl
  | @dict entries hform hnames hnodup ih =>
    cases entries with
    | nil => exact isReadBack_of_isRead .emptyDict
    | cons entry entries =>
      intro depth fuel rest hfits hfuel _
      cases hfits with
      | @dict depth _ hfits =>
        have htext : write (.dict (entry :: entries)) ++ rest =
            '{' :: (Text.join ", " (writeEntries (entry :: entries)) ++ '}' :: rest) := by
          simp [write]
        have hlength := congrArg List.length htext
        simp only [List.length_append, List.length_cons] at hlength
        obtain ⟨fuel, rfl⟩ : ∃ k, fuel = k + 1 := ⟨fuel - 1, by omega⟩
        have hshort : 2 * (Text.join ", " (writeEntries (entry :: entries))).length < fuel := by omega
        have hmembers := members_writeEntries hform ih hnames (List.cons_ne_nil _ _) hfits hshort [] hnodup rest
        obtain ⟨u, hjoin⟩ : ∃ u, Text.join ", " (writeEntries (entry :: entries)) = '"' :: u := by
          obtain ⟨k, w⟩ := entry
          exact ⟨_, join_cons _ _ _ _⟩
        rw [hjoin, List.cons_append] at htext hmembers
        rw [htext, value_dict (by decide) (by decide), hmembers]
        rfl

/-- Written as JSON and read again, a value is itself. -/
theorem read_write (h : HasForm v) (hfits : Fits nestingLimit v) : read (write v) = .ok v := by
  obtain ⟨c, u, hfirst, hblank, -⟩ := h.exists_first
  have hblanks : skipBlanks (write v) = write v := by
    rw [hfirst, skipBlanks_cons hblank]
  have hvalue := h.isReadBack nestingLimit (2 * (write v).length + 2) [] hfits (by omega) (by simp [Stops])
  rw [List.append_nil] at hvalue
  unfold read
  rw [hblanks, hvalue]
  rfl

end Values
end AskTable.Json
