import AskTable.Proofs.Record
import AskTable.Proofs.Text

/-! Names of columns. However a header was written, each of its columns has a name that is not empty and has
no blanks at its ends. -/
namespace AskTable

namespace Text

variable {t w : Text}

theorem strip_eq_self_iff : t.strip = t ↔
    t.dropWhile isBlankChar = t ∧ t.rdropWhile isBlankChar = t := by
  rw [strip, trim_eq_rdropWhile]
  constructor
  · intro h
    -- A blank in front would be lost, and cutting at the other end brings nothing back.
    have hfront : t.dropWhile isBlankChar = t := by
      refine (List.dropWhile_suffix isBlankChar).eq_of_length_le ?_
      have hlength := (List.rdropWhile_prefix isBlankChar (t.dropWhile isBlankChar)).length_le
      rwa [h] at hlength
    exact ⟨hfront, by rwa [hfront] at h⟩
  · intro h
    rw [h.1, h.2]

/-- A text without blanks at its ends has content there. -/
theorem exists_ends_of_strip (h : t.strip = t) (hne : t ≠ []) :
    (∃ c rest, t = c :: rest ∧ isBlankChar c = false) ∧ ∃ rest c, t = rest ++ [c] ∧ isBlankChar c = false := by
  obtain ⟨hfront, hback⟩ := strip_eq_self_iff.mp h
  constructor
  · obtain ⟨c, rest, rfl⟩ := List.exists_cons_of_ne_nil hne
    have hc := List.dropWhile_eq_self_iff.mp hfront (by simp)
    exact ⟨c, rest, rfl, by simpa using hc⟩
  · obtain ⟨rest, c, rfl⟩ := (List.eq_nil_or_concat' t).resolve_left hne
    have hc := List.rdropWhile_eq_self_iff.mp hback (by simp)
    exact ⟨rest, c, rfl, by simpa using hc⟩

/-- A text with other characters at its ends than those of a class is not trimmed of that class. -/
theorem trim_of_ends {cut : Char → Bool} (hfront : ∃ c rest, t = c :: rest ∧ cut c = false)
    (hback : ∃ rest c, t = rest ++ [c] ∧ cut c = false) : trim cut t = t := by
  obtain ⟨c, rest, hfront, hc⟩ := hfront
  obtain ⟨front, d, hback, hd⟩ := hback
  have hkept : t.dropWhile cut = t := by simp [hfront, hc]
  rw [trim_eq_rdropWhile, hkept, List.rdropWhile_eq_self_iff]
  simp [hback, hd]

theorem strip_of_ends (hfront : ∃ c rest, t = c :: rest ∧ isBlankChar c = false)
    (hback : ∃ rest c, t = rest ++ [c] ∧ isBlankChar c = false) : t.strip = t :=
  trim_of_ends hfront hback

theorem strip_infix (t : Text) : t.strip <:+: t :=
  (List.rdropWhile_prefix isBlankChar _).isInfix.trans (List.dropWhile_suffix isBlankChar).isInfix

/-- A text is what remains of it between the blanks that are cut off its ends. -/
theorem exists_blank_ends (t : Text) :
    ∃ lead trail, t = lead ++ t.strip ++ trail ∧ lead.isBlank = true ∧ trail.isBlank = true := by
  let back := (t.dropWhile isBlankChar).reverse
  refine ⟨t.takeWhile isBlankChar, (back.takeWhile isBlankChar).reverse, ?_, ?_, ?_⟩
  · have hback : t.strip ++ (back.takeWhile isBlankChar).reverse = t.dropWhile isBlankChar := by
      rw [strip, trim, ← List.reverse_append, List.takeWhile_append_dropWhile, List.reverse_reverse]
    rw [List.append_assoc, hback, List.takeWhile_append_dropWhile]
  · exact List.all_takeWhile
  · rw [isBlank, List.all_reverse]
    exact List.all_takeWhile

/-- A text that begins and ends with content has no blanks at its front. -/
theorem eq_nil_of_isBlank_prefix (ht : t.strip = t) (hw : w.isBlank = true) (h : w <+: t) : w = [] := by
  by_contra hne
  obtain ⟨c, rest, rfl⟩ := List.exists_cons_of_ne_nil hne
  obtain ⟨later, rfl⟩ := h
  obtain ⟨⟨d, back, heq, hd⟩, -⟩ := exists_ends_of_strip ht (by simp)
  obtain ⟨rfl, -⟩ := List.cons.inj heq
  rw [isBlank, List.all_cons, hd] at hw
  cases hw

theorem eq_nil_of_isBlank_suffix (ht : t.strip = t) (hw : w.isBlank = true) (h : w <:+ t) : w = [] := by
  by_contra hne
  obtain ⟨front, c, rfl⟩ := (List.eq_nil_or_concat' w).resolve_left hne
  obtain ⟨earlier, rfl⟩ := h
  obtain ⟨-, rest, d, heq, hd⟩ := exists_ends_of_strip ht (by simp)
  rw [← List.append_assoc] at heq
  obtain ⟨-, hlast⟩ := List.append_inj' heq rfl
  obtain rfl := List.singleton_inj.mp hlast
  rw [isBlank, List.all_append, List.all_cons, hd] at hw
  simp at hw

def IsSolid (t : Text) : Prop :=
  ∀ c ∈ t, isBlankChar c = false

@[simp] theorem isSolid_nil : IsSolid [] := by
  simp [IsSolid]

@[simp] theorem isSolid_cons {c : Char} : IsSolid (c :: t) ↔ isBlankChar c = false ∧ IsSolid t := by
  simp [IsSolid]

@[simp] theorem isSolid_append : IsSolid (t ++ w) ↔ IsSolid t ∧ IsSolid w := by
  simp [IsSolid, or_imp, forall_and]

theorem IsSolid.of_subset (h : IsSolid t) (hw : w ⊆ t) : IsSolid w :=
  fun c hc => h c (hw hc)

theorem isSolid_replicate_zero (n : Nat) : IsSolid (List.replicate n '0') := by
  intro c hc
  obtain rfl := List.eq_of_mem_replicate hc
  decide

theorem IsSolid.strip_eq (h : IsSolid t) : t.strip = t :=
  trim_eq_self h

theorem strip_append_of_isSolid (ht : t.dropWhile isBlankChar = t) (hne : t ≠ []) (hw : IsSolid w)
    (hlong : w ≠ []) : (t ++ w).strip = t ++ w := by
  rw [strip_eq_self_iff, List.dropWhile_eq_self_iff, List.rdropWhile_eq_self_iff]
  refine ⟨fun _ => ?_, fun _ => ?_⟩
  · have hpos : 0 < t.length := List.length_pos_iff.mpr hne
    have hfront := List.dropWhile_eq_self_iff.mp ht hpos
    have hfirst : (t ++ w)[0] = t[0] := List.getElem_append_left hpos
    rwa [← hfirst] at hfront
  · rw [List.getLast_append_right hlong]
    simp [hw _ (List.getLast_mem hlong)]

theorem isSolid_ofNat (n : Nat) : IsSolid (ofNat n) := by
  intro c hc
  have hdigit : c.isDigit = true := Nat.isDigit_of_mem_toDigits (by decide) (by decide) hc
  simp only [Char.isDigit, Bool.and_eq_true, decide_eq_true_eq] at hdigit
  have hlow : 48 ≤ c.toNat := UInt32.le_iff_toNat_le.mp hdigit.1
  have hhigh : c.toNat ≤ 57 := UInt32.le_iff_toNat_le.mp hdigit.2
  simp only [isBlankChar, Bool.or_eq_false_iff, Bool.and_eq_false_iff, decide_eq_false_iff_not,
    beq_eq_false_iff_ne]
  omega

theorem isSolid_ofInt (n : Int) : IsSolid (ofInt n) := by
  cases n with
  | ofNat n => exact isSolid_ofNat n
  | negSucc n => exact isSolid_cons.mpr ⟨by decide, isSolid_ofNat (n + 1)⟩

theorem isSolid_padded (width n : Nat) : IsSolid (padded width n) :=
  isSolid_append.mpr ⟨isSolid_replicate_zero _, isSolid_ofNat n⟩

end Text

open Text (IsSolid)

namespace Binary64

theorem isSolid_shortest (i : RoundingInterval) : IsSolid i.shortest.1 := by
  unfold RoundingInterval.shortest
  dsimp only
  split
  · split_ifs
    · simp [isBlankChar]
    · exact Text.isSolid_ofNat _
  · simp [isBlankChar]

theorem isSolid_positional {digits : Text} (h : IsSolid digits) (place : Int) :
    IsSolid (positional digits place) := by
  have htake := h.of_subset (List.take_subset place.toNat digits)
  have hdrop := h.of_subset (List.drop_subset place.toNat digits)
  unfold positional
  split_ifs <;> simp [h, htake, hdrop, Text.isSolid_replicate_zero, isBlankChar]

theorem isSolid_scientific {digits : Text} (h : IsSolid digits) (place : Int) :
    IsSolid (scientific digits place) := by
  have htake := h.of_subset (List.take_subset 1 digits)
  have htail := h.of_subset ((List.tail_sublist digits).subset)
  unfold scientific
  dsimp only
  split_ifs <;> simp [htake, htail, Text.isSolid_padded, isBlankChar]

theorem isSolid_text (x : Binary64) : IsSolid x.text := by
  have hbody (m : Nat) (e : Int) : IsSolid (text (.finite false m e)) := by
    have hdigits := isSolid_shortest (RoundingInterval.ofBinary m e)
    simp only [text, Bool.false_eq_true, if_false]
    split_ifs
    · simp [isBlankChar]
    · exact isSolid_positional hdigits _
    · exact isSolid_scientific hdigits _
  cases x with
  | nan => simp [text, isBlankChar]
  | infinite negative => cases negative <;> simp [text, isBlankChar]
  | finite negative m e =>
    cases negative with
    | false => exact hbody m e
    | true => exact Text.isSolid_cons.mpr ⟨by decide, hbody m e⟩

end Binary64

theorem Date.isSolid_iso (d : Date) : IsSolid d.iso := by
  simp [iso, Text.isSolid_padded, isBlankChar]

theorem Moment.isSolid_offsetText (seconds : Int) : IsSolid (offsetText seconds) := by
  unfold offsetText
  dsimp only
  split_ifs <;> simp [Text.isSolid_padded, isBlankChar]

theorem Moment.isSolid_iso (m : Moment) : IsSolid m.iso := by
  unfold iso isoWith
  dsimp only
  cases m.offset <;> split_ifs <;>
    simp [Date.isSolid_iso, Text.isSolid_padded, isSolid_offsetText, isBlankChar]

/-- The text of a cell has no blanks at its ends, whatever the cell is. -/
@[simp] theorem Value.strip_cellText (v : Value) : v.cellText.strip = v.cellText := by
  unfold cellText
  split_ifs with hblank
  · rfl
  · cases v with
    | bool b => cases b <;> rfl
    | float x =>
      dsimp only
      cases x.toInt? with
      | some n => exact (Text.isSolid_ofInt n).strip_eq
      | none => exact x.isSolid_text.strip_eq
    | moment m =>
      dsimp only
      split_ifs
      · exact m.date.isSolid_iso.strip_eq
      · exact m.isSolid_iso.strip_eq
    | null | int n | text t | date d | list items | dict entries => exact Text.strip_strip _

/-- A name: a text that is not empty and has no blanks at its ends. -/
structure Text.IsName (t : Text) : Prop where
  ne_nil : t ≠ []
  strip_eq : t.strip = t

namespace Header

variable {header : List Value} {earlier : List Text} {name : Text}

theorem isName_append_ofNat {t : Text} (ht : t.dropWhile isBlankChar = t) (hne : t ≠ []) (n : Nat) :
    Text.IsName (t ++ Text.ofNat n) where
  ne_nil := by simp [hne]
  strip_eq := by
    refine Text.strip_append_of_isSolid ht hne (Text.isSolid_ofNat n) ?_
    exact Nat.toDigits_ne_nil

theorem isName_of_mem_names (h : name ∈ names header) : name.IsName := by
  obtain ⟨i, hi, rfl⟩ := List.mem_mapIdx.mp h
  dsimp only
  split_ifs with hempty
  · exact isName_append_ofNat (by decide) (by decide) _
  · exact ⟨by simpa using hempty, Value.strip_cellText _⟩

theorem isName_of_mem_numberedAfter {given : List Text} (hgiven : ∀ name ∈ given, name.IsName)
    (h : name ∈ numberedAfter earlier given) : name.IsName := by
  induction given generalizing earlier with
  | nil => simp [numberedAfter] at h
  | cons first rest ih =>
    obtain ⟨hfirst, hrest⟩ := List.forall_mem_cons.mp hgiven
    rcases List.mem_cons.mp h with rfl | h
    · split_ifs
      · exact hfirst
      · have hfront := (Text.strip_eq_self_iff.mp hfirst.strip_eq).1
        refine isName_append_ofNat ?_ (by simp) _
        simp [List.dropWhile_append, hfront, hfirst.ne_nil]
    · exact ih hrest h

/-- Every column has a name, whatever stands in the header. -/
theorem isName_of_mem_columns (h : name ∈ columns header) : name.IsName :=
  isName_of_mem_numberedAfter (fun _ => isName_of_mem_names) h

end Header

theorem Table.isName_of_load {header rows : List Value} {table : Table}
    (h : load header rows = .ok table) {column : Text} (hcolumn : column ∈ table.columns) :
    column.IsName :=
  Header.isName_of_mem_columns (columns_of_load h ▸ hcolumn)

theorem Snapshot.isName_of_build {source : Dataset} {s : Snapshot} (h : build source = .ok s)
    {column : Text} (hcolumn : column ∈ s.columns) : column.IsName := by
  obtain ⟨table, htable, hcolumns, -⟩ := load_of_build h
  exact Table.isName_of_load htable (hcolumns ▸ hcolumn)

end AskTable
