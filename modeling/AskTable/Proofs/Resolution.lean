import AskTable.Proofs.Contents
import AskTable.Proofs.Newest

/-! The order in which the ways from a name to a column are tried: the column's own name, the patterns of what the name
stands for or the name as a part of a column's, and likeness last. However likeness is measured, a name means the column
that the first open way leads to, and nothing where none is open. -/
namespace AskTable

section Choices

variable {α : Type} {p : α → Prop} {score : α → Rat} {l : List α} {a b : α}

def IsFirst (p : α → Prop) (l : List α) (a : α) : Prop :=
  ∃ before after, l = before ++ a :: after ∧ p a ∧ ∀ b ∈ before, ¬ p b

theorem find?_eq_some_iff_isFirst {test : α → Bool} (h : ∀ b, test b = true ↔ p b) :
    l.find? test = some a ↔ IsFirst p l a := by
  have hnot (b : α) : (!test b) = true ↔ ¬ p b := by
    rw [Bool.not_eq_true', ← Bool.not_eq_true, h]
  simp only [List.find?_eq_some_iff_append, h, hnot]
  exact ⟨fun ⟨ha, before, after, hl, hbefore⟩ => ⟨before, after, hl, ha, hbefore⟩,
    fun ⟨before, after, hl, ha, hbefore⟩ => ⟨ha, before, after, hl, hbefore⟩⟩

def IsFirstBest (score : α → Rat) (l : List α) (a : α) : Prop :=
  ∃ before after, l = before ++ a :: after ∧ (∀ b ∈ before, score b < score a) ∧ ∀ b ∈ after, score b ≤ score a

theorem IsFirstBest.mem (h : IsFirstBest score l a) : a ∈ l := by
  obtain ⟨before, after, rfl, -, -⟩ := h
  simp

theorem Field.firstBest_eq_some_iff [DecidableEq α] : firstBest score l = some a ↔ IsFirstBest score l a := by
  rw [firstBest_eq_argmax]
  exact argmax_eq_some_iff_append

/-- The members with a new mark stand in the order of their first occurrence. -/
theorem pairwise_idxOf_eraseDups [BEq α] [LawfulBEq α] (l : List α) :
    l.eraseDups.Pairwise fun a b => l.idxOf a < l.idxOf b := by
  have hplace : ∀ entry ∈ l.zipIdx, ((l.take entry.2).all fun b => !b == entry.1) = true →
      l.idxOf entry.1 = entry.2 := by
    rintro ⟨a, i⟩ hentry hnew
    obtain ⟨hi, ha⟩ := List.mem_zipIdx' hentry
    have hfree : a ∉ l.take i := by
      intro hmem
      simpa using List.all_eq_true.mp hnew a hmem
    have hsplit : l = l.take i ++ a :: l.drop (i + 1) := by
      rw [ha, List.cons_getElem_drop_succ, List.take_append_drop]
    have hlength : (l.take i).length = i := List.length_take_of_le hi.le
    rw [hsplit, List.idxOf_append, if_neg hfree, List.idxOf_cons_self, hlength]
    exact Nat.zero_add i
  have hfirsts : l.eraseDups = firstsBy id l := eraseDupsBy_eq_firstsBy id l
  rw [hfirsts, firstsBy, List.pairwise_map]
  refine ((pairwise_zipIdx l).filter _).imp_of_mem fun hx hy hlt => ?_
  obtain ⟨hx, hxnew⟩ := List.mem_filter.mp hx
  obtain ⟨hy, hynew⟩ := List.mem_filter.mp hy
  rw [hplace _ hx hxnew, hplace _ hy hynew]
  exact hlt

end Choices

namespace Text

variable {t : Text}

@[simp] theorem lower_lower (t : Text) : t.lower.lower = t.lower :=
  lower_of_lowerChar fun _ => lowerChar_of_mem_lower

theorem lower_eq_nil_iff : t.lower = [] ↔ t = [] := by
  constructor
  · intro h
    by_contra hne
    exact lower_ne_nil hne h
  · rintro rfl
    rfl

theorem strip_eq_nil_iff : t.strip = [] ↔ t.isBlank = true :=
  ⟨isBlank_of_strip_eq_nil, strip_eq_nil_of_isBlank⟩

end Text

namespace SemanticField

variable {field : SemanticField} {columns : List Text} {column word : Text}

def IsWord (field : SemanticField) (word : Text) : Prop :=
  word = field.name ∨ word ∈ field.aliases

/-- No word stands for two fields. -/
theorem eq_of_isWord {other : SemanticField} (h : field.IsWord word) (h' : other.IsWord word) : field = other := by
  have hapart : ∀ field ∈ all, ∀ other ∈ all, ∀ word ∈ field.name :: field.aliases,
      word ∈ other.name :: other.aliases → field = other := by decide
  have hall (field : SemanticField) : field ∈ all := by cases field <;> decide
  exact hapart field (hall field) other (hall other) word (List.mem_cons.mpr h) (List.mem_cons.mpr h')

theorem isWord_iff : (field.name == word || field.aliases.contains word) = true ↔ field.IsWord word := by
  rw [Bool.or_eq_true, beq_iff_eq, List.contains_iff_mem, IsWord, eq_comm]

private theorem isWord_of_ofWord? (h : ofWord? word = some field) : field.IsWord word := by
  rw [ofWord?] at h
  have hword := List.find?_some h
  exact isWord_iff.mp hword

theorem ofWord?_eq_some_iff : ofWord? word = some field ↔ field.IsWord word := by
  refine ⟨isWord_of_ofWord?, fun h => ?_⟩
  have hmem : field ∈ all := by cases field <;> decide
  have hfound : (ofWord? word).isSome = true := List.find?_isSome.mpr ⟨field, hmem, isWord_iff.mpr h⟩
  obtain ⟨other, hother⟩ := Option.isSome_iff_exists.mp hfound
  rw [hother, eq_of_isWord (isWord_of_ofWord? hother) h]

theorem ofWord?_eq_none_iff : ofWord? word = none ↔ ∀ field : SemanticField, ¬ field.IsWord word := by
  simp only [Option.eq_none_iff_forall_ne_some, ne_eq, ofWord?_eq_some_iff]

/-- The pattern of a rank occurs in the name of the column at a place. -/
def Occurs (field : SemanticField) (columns : List Text) (rank place : Nat) : Prop :=
  ∃ pattern column, field.patterns[rank]? = some pattern ∧ columns[place]? = some column ∧ pattern <:+: column.lower

/-- The column with the least rank of an occurring pattern, and the first one of those. -/
def IsPreferred (field : SemanticField) (columns : List Text) (column : Text) : Prop :=
  ∃ rank place, columns[place]? = some column ∧ field.Occurs columns rank place ∧
    ∀ rank' place', field.Occurs columns rank' place' → rank < rank' ∨ rank = rank' ∧ place ≤ place'

theorem IsPreferred.unique {other : Text} (h : field.IsPreferred columns column)
    (h' : field.IsPreferred columns other) : column = other := by
  obtain ⟨rank, place, hcolumn, hoccurs, hleast⟩ := h
  obtain ⟨rank', place', hother, hoccurs', hleast'⟩ := h'
  have hle := hleast rank' place' hoccurs'
  have hge := hleast' rank place hoccurs
  obtain rfl : place = place' := by omega
  exact Option.some.inj (hcolumn.symm.trans hother)

theorem column?_eq_none_iff : field.column? columns = none ↔ ∀ rank place, ¬ field.Occurs columns rank place := by
  unfold column?
  simp only [List.findSome?_eq_none_iff, List.find?_eq_none, Text.contains_eq_true_iff]
  constructor
  · rintro hnone rank place ⟨pattern, column, hpattern, hcolumn, hinside⟩
    exact hnone pattern (List.mem_of_getElem? hpattern) column (List.mem_of_getElem? hcolumn) hinside
  · intro hnone pattern hpattern column hcolumn hinside
    obtain ⟨rank, hrank⟩ := List.mem_iff_getElem?.mp hpattern
    obtain ⟨place, hplace⟩ := List.mem_iff_getElem?.mp hcolumn
    exact hnone rank place ⟨pattern, column, hrank, hplace, hinside⟩

private theorem isPreferred_of_column? (h : field.column? columns = some column) :
    field.IsPreferred columns column := by
  obtain ⟨better, pattern, worse, hpatterns, hfound, hbetter⟩ := List.findSome?_eq_some_iff.mp h
  obtain ⟨before, after, hcolumns, hinside, hbefore⟩ :=
    (find?_eq_some_iff_isFirst fun column : Text =>
      Text.contains_eq_true_iff (t := column.lower) (w := pattern)).mp hfound
  have hrank : field.patterns[better.length]? = some pattern := by simp [hpatterns]
  have hplace : columns[before.length]? = some column := by simp [hcolumns]
  refine ⟨better.length, before.length, hplace, ⟨pattern, column, hrank, hplace, hinside⟩, ?_⟩
  rintro rank place ⟨pattern', column', hpattern', hcolumn', hinside'⟩
  rcases lt_trichotomy rank better.length with hless | rfl | hmore
  · -- No column has a pattern of a lesser rank in its name.
    rw [hpatterns, List.getElem?_append_left hless] at hpattern'
    have hnone := List.find?_eq_none.mp (hbetter pattern' (List.mem_of_getElem? hpattern')) column'
      (List.mem_of_getElem? hcolumn')
    exact absurd (Text.contains_eq_true_iff.mpr hinside') hnone
  · obtain rfl := Option.some.inj (hrank.symm.trans hpattern')
    refine .inr ⟨rfl, not_lt.mp fun hless => ?_⟩
    rw [hcolumns, List.getElem?_append_left hless] at hcolumn'
    exact hbefore column' (List.mem_of_getElem? hcolumn') hinside'
  · exact .inl hmore

theorem column?_eq_some_iff : field.column? columns = some column ↔ field.IsPreferred columns column := by
  refine ⟨isPreferred_of_column?, fun h => ?_⟩
  cases hfound : field.column? columns with
  | none =>
    obtain ⟨rank, place, -, hoccurs, -⟩ := h
    exact absurd hoccurs (column?_eq_none_iff.mp hfound rank place)
  | some other => rw [h.unique (isPreferred_of_column? hfound)]

end SemanticField

namespace Field

open AskTable.SemanticField (ofWord?_eq_some_iff ofWord?_eq_none_iff column?_eq_some_iff column?_eq_none_iff)

variable {likeness : Text → Text → Rat} {name column : Text} {names columns : List Text}

theorem plain_eq_nil_iff : plain name = [] ↔ name.isBlank = true := by
  rw [plain, Text.lower_eq_nil_iff, Text.strip_eq_nil_iff]

@[simp] theorem plain_plain (name : Text) : plain (plain name) = plain name := by
  have hstrip : (plain name).strip = plain name := Text.strip_lower (Text.strip_strip name)
  rw [plain, hstrip, plain, Text.lower_lower]

private theorem skeleton_plain (name : Text) : skeleton (plain name) = skeleton name := by
  rw [skeleton, plain_plain, skeleton]

/-- The way by which a name leads to a column. Each way is open only where those before it lead to none. -/
inductive Means (likeness : Text → Text → Rat) (name : Text) (columns : List Text) (column : Text) : Prop
  | byName (first : IsFirst (fun c => plain c = plain name) columns column)
  | byPattern (field : SemanticField) (word : field.IsWord (plain name))
      (unnamed : ∀ c ∈ columns, plain c ≠ plain name) (preferred : field.IsPreferred columns column)
  | byPart (noWord : ∀ field : SemanticField, ¬ field.IsWord (plain name))
      (unnamed : ∀ c ∈ columns, plain c ≠ plain name)
      (first : IsFirst (fun c => plain name <:+: c.lower) columns column)
  | byLikeness (unnamed : ∀ c ∈ columns, plain c ≠ plain name)
      (noPattern : ∀ field : SemanticField, field.IsWord (plain name) →
        ∀ rank place, ¬ field.Occurs columns rank place)
      (noPart : (∀ field : SemanticField, ¬ field.IsWord (plain name)) → ∀ c ∈ columns, ¬ plain name <:+: c.lower)
      (best : IsFirstBest (fun c => likeness (skeleton name) (skeleton c)) columns column)
      (alike : 85 ≤ likeness (skeleton name) (skeleton column))

theorem Means.mem (h : Means likeness name columns column) : column ∈ columns := by
  cases h with
  | byName first =>
    obtain ⟨before, after, rfl, -, -⟩ := first
    simp
  | byPattern field word unnamed preferred =>
    obtain ⟨rank, place, hplace, -⟩ := preferred
    exact List.mem_of_getElem? hplace
  | byPart noWord unnamed first =>
    obtain ⟨before, after, rfl, -, -⟩ := first
    simp
  | byLikeness unnamed noPattern noPart best alike => exact best.mem

/-- The second way: the patterns of a field for a word that stands for one, the name as a part for any other. -/
def middle? (name : Text) (columns : List Text) : Option Text :=
  match SemanticField.ofWord? (plain name) with
  | some field => field.column? columns
  | none => columns.find? fun column => column.lower.contains (plain name)

theorem resolveUnder_eq_or (likeness : Text → Text → Rat) (hname : name.isBlank = false) (columns : List Text) :
    resolveUnder likeness name columns = (columns.find? fun column => plain column == plain name).or
      ((middle? name columns).or (closestUnder likeness (plain name) columns)) := by
  have hplain : (plain name).isEmpty = false := by
    rw [List.isEmpty_eq_false_iff, Ne, plain_eq_nil_iff, hname]
    decide
  unfold resolveUnder
  dsimp only
  rw [hplain, if_neg Bool.false_ne_true]
  simp only [Option.orElse_eq_orElse, Option.orElse_eq_or]
  rfl

theorem closestUnder_eq_some_iff : closestUnder likeness (plain name) columns = some column ↔
    IsFirstBest (fun c => likeness (skeleton name) (skeleton c)) columns column ∧
      85 ≤ likeness (skeleton name) (skeleton column) := by
  unfold closestUnder
  dsimp only
  rw [Option.filter_eq_some_iff, firstBest_eq_some_iff, skeleton_plain, decide_eq_true_eq]
  rfl

theorem middle?_eq_some_iff : middle? name columns = some column ↔
    (∃ field : SemanticField, field.IsWord (plain name) ∧ field.IsPreferred columns column) ∨
      (∀ field : SemanticField, ¬ field.IsWord (plain name)) ∧
        IsFirst (fun c => plain name <:+: c.lower) columns column := by
  unfold middle?
  cases hword : SemanticField.ofWord? (plain name) with
  | some field =>
    have hfield := ofWord?_eq_some_iff.mp hword
    dsimp only
    rw [column?_eq_some_iff]
    constructor
    · exact fun h => .inl ⟨field, hfield, h⟩
    · rintro (⟨other, hother, h⟩ | ⟨hnone, -⟩)
      · rwa [SemanticField.eq_of_isWord hfield hother]
      · exact absurd hfield (hnone field)
  | none =>
    have hnone := ofWord?_eq_none_iff.mp hword
    dsimp only
    rw [find?_eq_some_iff_isFirst fun _ => Text.contains_eq_true_iff]
    constructor
    · exact fun h => .inr ⟨hnone, h⟩
    · rintro (⟨field, hfield, -⟩ | ⟨-, h⟩)
      · exact absurd hfield (hnone field)
      · exact h

theorem middle?_eq_none_iff : middle? name columns = none ↔
    (∀ field : SemanticField, field.IsWord (plain name) → ∀ rank place, ¬ field.Occurs columns rank place) ∧
      ((∀ field : SemanticField, ¬ field.IsWord (plain name)) → ∀ c ∈ columns, ¬ plain name <:+: c.lower) := by
  unfold middle?
  cases hword : SemanticField.ofWord? (plain name) with
  | some field =>
    have hfield := ofWord?_eq_some_iff.mp hword
    dsimp only
    rw [column?_eq_none_iff]
    constructor
    · refine fun h => ⟨fun other hother => ?_, fun hnone => absurd hfield (hnone field)⟩
      rwa [← SemanticField.eq_of_isWord hfield hother]
    · exact fun h => h.1 field hfield
  | none =>
    have hnone := ofWord?_eq_none_iff.mp hword
    dsimp only
    simp only [List.find?_eq_none, Text.contains_eq_true_iff]
    exact ⟨fun h => ⟨fun field hfield => absurd hfield (hnone field), fun _ => h⟩, fun h => h.2 hnone⟩

/-- A name that is not blank means what the first open way leads to. -/
theorem resolveUnder_eq_some_iff : resolveUnder likeness name columns = some column ↔
    name.isBlank = false ∧ Means likeness name columns column := by
  cases hname : name.isBlank with
  | true =>
    have hplain : (plain name).isEmpty = true := List.isEmpty_iff.mpr (plain_eq_nil_iff.mpr hname)
    unfold resolveUnder
    simp [hplain]
  | false =>
    have hunnamed : columns.find? (fun c => plain c == plain name) = none ↔ ∀ c ∈ columns, plain c ≠ plain name := by
      simp only [List.find?_eq_none, beq_iff_eq, ne_eq]
    rw [resolveUnder_eq_or likeness hname, Option.or_eq_some_iff, Option.or_eq_some_iff, hunnamed,
      find?_eq_some_iff_isFirst fun _ => beq_iff_eq, middle?_eq_some_iff, middle?_eq_none_iff,
      closestUnder_eq_some_iff]
    simp only [true_and]
    constructor
    · rintro (hfirst | ⟨hnone, (⟨field, hfield, hpreferred⟩ | ⟨hnoWord, hfirst⟩) |
        ⟨⟨hnoPattern, hnoPart⟩, hbest, halike⟩⟩)
      · exact .byName hfirst
      · exact .byPattern field hfield hnone hpreferred
      · exact .byPart hnoWord hnone hfirst
      · exact .byLikeness hnone hnoPattern hnoPart hbest halike
    · intro h
      cases h with
      | byName first => exact .inl first
      | byPattern field word unnamed preferred => exact .inr ⟨unnamed, .inl (.inl ⟨field, word, preferred⟩)⟩
      | byPart noWord unnamed first => exact .inr ⟨unnamed, .inl (.inr ⟨noWord, first⟩)⟩
      | byLikeness unnamed noPattern noPart best alike => exact .inr ⟨unnamed, .inr ⟨⟨noPattern, noPart⟩, best, alike⟩⟩

/-- The columns that some names mean, where likeness is measured in some way. -/
def resolveAllUnder (likeness : Text → Text → Rat) (names columns : List Text) : List Text :=
  (names.filterMap (resolveUnder likeness · columns)).eraseDups

theorem resolveAll_eq_resolveAllUnder : resolveAll = resolveAllUnder Text.similarity := rfl

/-- A name means the column that the first open way leads to, however likeness is measured, and nothing if it is blank or
no way is open. Some names mean the columns that each of them means, every column once, in the order in which they are
first meant. -/
theorem resolve_follows_order (likeness : Text → Text → Rat) (name : Text) (names columns : List Text) :
    (resolve? = resolveUnder Text.similarity ∧ resolveAll = resolveAllUnder Text.similarity) ∧
    (∀ column, resolveUnder likeness name columns = some column ↔
      name.isBlank = false ∧ column ∈ columns ∧ Means likeness name columns column) ∧
    (resolveUnder likeness name columns = none ↔
      name.isBlank = true ∨ columns = [] ∨ ∀ column ∈ columns, ¬ Means likeness name columns column) ∧
    (∀ column, column ∈ resolveAllUnder likeness names columns ↔
      ∃ name ∈ names, resolveUnder likeness name columns = some column) ∧
    (resolveAllUnder likeness names columns).Nodup ∧
    (resolveAllUnder likeness names columns).Pairwise fun a b =>
      (names.filterMap (resolveUnder likeness · columns)).idxOf a <
        (names.filterMap (resolveUnder likeness · columns)).idxOf b := by
  refine ⟨⟨resolve?_eq_resolveUnder, resolveAll_eq_resolveAllUnder⟩, fun column => ?_, ?_, fun column => ?_,
    nodup_eraseDups _, pairwise_idxOf_eraseDups _⟩
  · rw [resolveUnder_eq_some_iff]
    exact ⟨fun ⟨hname, h⟩ => ⟨hname, h.mem, h⟩, fun ⟨hname, _, h⟩ => ⟨hname, h⟩⟩
  · rw [Option.eq_none_iff_forall_ne_some]
    simp only [ne_eq, resolveUnder_eq_some_iff, not_and]
    constructor
    · intro h
      cases hname : name.isBlank with
      | true => exact .inl rfl
      | false => exact .inr (.inr fun column _ => h column hname)
    · rintro (hname | rfl | hnone) column hfilled hmeans
      · rw [hname] at hfilled
        cases hfilled
      · exact absurd hmeans.mem List.not_mem_nil
      · exact hnone column hmeans.mem hmeans
  · rw [resolveAllUnder, List.mem_eraseDups, List.mem_filterMap]

end Field
end AskTable
