import AskTable.Proofs.Header
import AskTable.Proofs.Words
import AskTable.Query.Plan

/-! Lines of a text. A text that is put together from lines has just these lines, and whatever a value looks like inside
quotes, it stays on one line. -/
namespace AskTable

namespace Text

variable {t u : Text} {ts : List Text} {c : Char}

def IsLine (t : Text) : Prop :=
  '\n' ∉ t

instance (t : Text) : Decidable t.IsLine :=
  inferInstanceAs (Decidable ('\n' ∉ t))

@[simp] theorem isLine_nil : IsLine [] :=
  List.not_mem_nil

@[simp] theorem isLine_cons : IsLine (c :: t) ↔ c ≠ '\n' ∧ IsLine t := by
  rw [IsLine, List.mem_cons, not_or, IsLine, ne_comm]

@[simp] theorem isLine_append : IsLine (t ++ u) ↔ IsLine t ∧ IsLine u := by
  simp [IsLine]

@[simp] theorem isLine_concat : IsLine (concat ts) ↔ ∀ t ∈ ts, IsLine t := by
  simp [IsLine, concat]

@[simp] theorem isLine_join {sep : Text} (hsep : IsLine sep) {ts : List Text} :
    IsLine (join sep ts) ↔ ∀ t ∈ ts, IsLine t := by
  match ts with
  | [] => simp [join]
  | [t] => simp [join]
  | t :: u :: rest =>
    rw [join_cons_cons, isLine_append, isLine_append, isLine_join hsep, List.forall_mem_cons]
    simp [hsep]

theorem IsSolid.isLine (h : IsSolid t) : IsLine t :=
  fun hc => absurd (h '\n' hc) (by decide)

@[simp] theorem isLine_ofNat (n : Nat) : IsLine (ofNat n) :=
  (isSolid_ofNat n).isLine

@[simp] theorem isLine_ofInt (n : Int) : IsLine (ofInt n) :=
  (isSolid_ofInt n).isLine

/-- The lines of a text, empty ones included. -/
def lines (t : Text) : List Text :=
  splitWhen (· == '\n') t

theorem IsLine.lines_eq (h : IsLine t) : lines t = [t] :=
  splitWhen_of_forall fun _ hc => beq_eq_false_iff_ne.mpr (ne_of_mem_of_not_mem hc h)

theorem lines_append_break (t u : Text) : lines (t ++ '\n' :: u) = lines t ++ lines u :=
  splitWhen_append (by decide) t u

/-- Lines with breaks between them are the lines of the whole. -/
theorem lines_join {ts : List Text} (h : ∀ t ∈ ts, IsLine t) (hne : ts ≠ []) : lines (join "\n" ts) = ts := by
  match ts with
  | [] => exact absurd rfl hne
  | [t] => exact (h t List.mem_cons_self).lines_eq
  | t :: u :: rest =>
    obtain ⟨ht, hrest⟩ := List.forall_mem_cons.mp h
    have hstep : join "\n" (t :: u :: rest) = t ++ '\n' :: join "\n" (u :: rest) := by simp [join]
    rw [hstep, lines_append_break, ht.lines_eq, lines_join hrest (List.cons_ne_nil u rest)]
    rfl

/-- An empty line stands between two paragraphs. -/
theorem lines_append_gap (t u : Text) : lines (t ++ "\n\n" ++ u) = lines t ++ [] :: lines u := by
  have hgap : t ++ "\n\n" ++ u = t ++ '\n' :: ([] ++ '\n' :: u) := by simp
  rw [hgap, lines_append_break, lines_append_break]
  rfl

theorem lines_join_gap {ts : List Text} (hne : ts ≠ []) : lines (join "\n\n" ts) = List.intercalate [[]] (ts.map lines) := by
  match ts with
  | [] => exact absurd rfl hne
  | [t] => simp [join]
  | t :: u :: rest =>
    have hrest := lines_join_gap (List.cons_ne_nil u rest)
    rw [List.map_cons] at hrest
    rw [join_cons_cons, lines_append_gap, hrest, List.map_cons, List.map_cons, List.intercalate_cons_cons, List.append_assoc]
    rfl

end Text

theorem Moment.isLine_isoWith {mark : Char} (hmark : mark ≠ '\n') (m : Moment) : (m.isoWith mark).IsLine := by
  unfold isoWith
  dsimp only
  cases m.offset <;> split_ifs <;>
    simp [hmark, m.date.isSolid_iso.isLine, (Text.isSolid_padded _ _).isLine, (isSolid_offsetText _).isLine]

namespace Value

open Text (IsLine)

variable {mark : Char}

theorem isLine_hexDigits (width n : Nat) : IsLine (hexDigits width n) := by
  have hdigit : ∀ d < 16, d.digitChar ≠ '\n' := by decide
  have hdigits (n : Nat) : IsLine (Nat.toDigits 16 n) := by
    induction n using Nat.strong_induction_on with
    | _ n ih =>
      by_cases hshort : n < 16
      · rw [Nat.toDigits_of_lt_base hshort]
        simp [hdigit n hshort]
      · rw [Nat.toDigits_of_base_le (by decide) (by omega)]
        simp [ih (n / 16) (by omega), hdigit (n % 16) (by omega)]
  rw [hexDigits]
  simp [hdigits, (Text.isSolid_replicate_zero _).isLine]

theorem isLine_quoteChar (hmark : mark ≠ '\n') (c : Char) : IsLine (quoteChar mark c) := by
  unfold quoteChar
  split_ifs with hquote htab hbreak hreturn hvisible hshort hplane
  · rcases hquote with rfl | rfl
    · simp [hmark]
    · decide
  all_goals simp [isLine_hexDigits, *]

theorem isLine_quoteText (t : Text) : IsLine (quoteText t) := by
  have hmark : quoteMark t ≠ '\n' := by
    unfold quoteMark
    split_ifs <;> decide
  have hinner : IsLine (t.flatMap (quoteChar (quoteMark t))) := by
    intro hbreak
    obtain ⟨c, -, hc⟩ := List.mem_flatMap.mp hbreak
    exact isLine_quoteChar hmark c hc
  unfold quoteText
  simp [hmark, hinner]

theorem isLine_quoteDate (d : Date) : IsLine (quoteDate d) := by
  unfold quoteDate
  simp

theorem isLine_quoteOffset (seconds : Int) : IsLine (quoteOffset seconds) := by
  unfold quoteOffset
  dsimp only
  split_ifs <;> simp [Text.join]

theorem isLine_quoteMoment (m : Moment) : IsLine (quoteMoment m) := by
  unfold quoteMoment
  dsimp only
  cases m.offset with
  | none => simp
  | some seconds => simp [or_imp, forall_and, isLine_quoteOffset]

theorem isLine_float (x : Binary64) : IsLine x.text :=
  x.isSolid_text.isLine

mutual

/-- The form of a value inside a list is on one line. -/
theorem isLine_quoted (v : Value) : IsLine v.quoted := by
  match v with
  | .null => decide
  | .bool b => cases b <;> decide
  | .int n => exact Text.isLine_ofInt n
  | .float x => exact isLine_float x
  | .text t => exact isLine_quoteText t
  | .date d => exact isLine_quoteDate d
  | .moment m => exact isLine_quoteMoment m
  | .list items =>
    have hitems := isLine_quotedItems items
    simpa [quoted] using hitems
  | .dict entries =>
    have hentries := isLine_quotedEntries entries
    simpa [quoted] using hentries

theorem isLine_quotedItems (items : List Value) : ∀ t ∈ quotedItems items, IsLine t := by
  match items with
  | [] => simp [quotedItems]
  | v :: rest =>
    rw [quotedItems]
    exact List.forall_mem_cons.mpr ⟨isLine_quoted v, isLine_quotedItems rest⟩

theorem isLine_quotedEntries (entries : List (Value × Value)) : ∀ t ∈ quotedEntries entries, IsLine t := by
  match entries with
  | [] => simp [quotedEntries]
  | (k, v) :: rest =>
    rw [quotedEntries]
    refine List.forall_mem_cons.mpr ⟨?_, isLine_quotedEntries rest⟩
    simp [isLine_quoted k, isLine_quoted v]

end

/-- The shown form of a value is on one line, unless the value is a text with more than one. -/
theorem isLine_shown {v : Value} (h : ∀ t, v = .text t → IsLine t) : IsLine v.shown := by
  cases v with
  | text t => exact h t rfl
  | date d => exact d.isSolid_iso.isLine
  | moment m => exact m.isLine_isoWith (by decide)
  | null | bool b | int n | float x | list items | dict entries => exact isLine_quoted _

end Value

end AskTable
