import AskTable.Proofs.Pattern

/-! Phrases behind a passage of a text. Of what stands before a phrase only the last character matters, and
that only for whether a word begins; so behind a passage that has no phrase and ends no word, the phrases are
those of the rest. -/
namespace AskTable

namespace Cursor

def placesFrom (before : Text) : Text → Text → List Cursor
  | [], _ => []
  | c :: t, rest => ⟨before, c :: t ++ rest⟩ :: placesFrom (c :: before) t rest

private theorem mem_placesFrom {before u v : Text} (hv : v ≠ []) (rest : Text) :
    ⟨u.reverse ++ before, v ++ rest⟩ ∈ placesFrom before (u ++ v) rest := by
  induction u generalizing before with
  | nil =>
    obtain ⟨c, v, rfl⟩ := List.exists_cons_of_ne_nil hv
    exact List.mem_cons_self
  | cons c u ih =>
    rw [List.reverse_cons, List.append_assoc]
    exact List.mem_cons_of_mem _ ih

private theorem allFrom_append (before t rest : Text) :
    allFrom before (t ++ rest) = placesFrom before t rest ++ allFrom (t.reverse ++ before) rest := by
  induction t generalizing before with
  | nil => rfl
  | cons c t ih => simp [allFrom, placesFrom, ih]

def behind (passage : Text) (a : Cursor) : Cursor :=
  ⟨a.before ++ passage, a.after⟩

variable {a b : Cursor} {passage : Text}

theorem allFrom_behind (before t passage : Text) :
    allFrom (before ++ passage) t = (allFrom before t).map (behind passage) := by
  induction t generalizing before with
  | nil => rfl
  | cons c t ih =>
    have hrest := ih (c :: before)
    simp only [allFrom, List.map_cons, ← hrest]
    rfl

theorem overRun_behind (test : Char → Bool) (before t passage : Text) :
    overRun test (before ++ passage) t = (overRun test before t).map (behind passage) := by
  induction t generalizing before with
  | nil => rfl
  | cons c t ih =>
    have hrest := ih (c :: before)
    simp only [overRun, List.map_cons]
    split_ifs
    · rw [← hrest]
      rfl
    · rfl

theorem atWordEdge_behind (h : passage.head?.any isWordChar = false) (a : Cursor) :
    (a.behind passage).atWordEdge = a.atWordEdge := by
  obtain ⟨before, after⟩ := a
  cases before with
  | nil => simp [behind, atWordEdge, h]
  | cons c before => rfl

theorem distance_behind : (a.behind passage).distance (b.behind passage) = a.distance b := by
  simp only [distance, behind, List.length_append]
  omega

theorem textTo_behind : (a.behind passage).textTo (b.behind passage) = a.textTo b := by
  have hlength : (b.before ++ passage).length - (a.before ++ passage).length = b.before.length - a.before.length :=
    distance_behind (a := a)
  rw [textTo, textTo, behind, behind, hlength, List.take_append_of_le_length (Nat.sub_le _ _)]

/-- A search that finds nothing in a passage goes on behind it as if nothing were there. -/
theorem findSome?_all_append {β : Type} {f : Cursor → Option β} {t : Text}
    (hf : ∀ a : Cursor, f (a.behind passage.reverse) = f a) (hnone : ∀ a ∈ placesFrom [] passage t, f a = none) :
    (all (passage ++ t)).findSome? f = (all t).findSome? f := by
  have hall := allFrom_behind [] t passage.reverse
  rw [List.nil_append] at hall
  rw [all, all, allFrom_append, List.findSome?_append, List.findSome?_eq_none_iff.mpr hnone, Option.none_or,
    List.append_nil, hall, List.findSome?_map]
  exact congrArg (List.findSome? · _) (funext hf)

end Cursor

namespace Pattern

variable {p opening middle closing : Pattern} {passage t : Text}

/-- Whether a phrase may stand anywhere in a text. -/
def isFree : Pattern → Bool
  | start => false
  | done | one _ | most _ | least _ | edge | finish => true
  | before phrase => phrase.isFree
  | seq first second | alt first second => first.isFree && second.isFree

/-- A passage before the text moves the ends of a phrase, if no word goes on from it into the text. -/
theorem ends_behind (hp : p.isFree = true) (hpassage : passage.head?.any isWordChar = false) (a : Cursor) :
    p.ends (a.behind passage) = (p.ends a).map (Cursor.behind passage) := by
  induction p generalizing a with
  | done => rfl
  | one test =>
    obtain ⟨before, after⟩ := a
    cases after with
    | nil => rfl
    | cons c rest =>
      simp only [Cursor.behind, ends]
      split_ifs <;> rfl
  | most test =>
    simp only [ends, Cursor.behind, Cursor.overRun_behind, List.map_reverse]
  | least test => exact Cursor.overRun_behind _ _ _ _
  | edge =>
    simp only [ends, Cursor.atWordEdge_behind hpassage]
    split_ifs <;> rfl
  | start => cases hp
  | finish =>
    have hafter : (a.behind passage).after = a.after := rfl
    simp only [ends, hafter]
    split_ifs <;> rfl
  | before phrase ih =>
    simp only [ends, ih hp, List.isEmpty_map]
    split_ifs <;> rfl
  | seq p q hp' hq' =>
    obtain ⟨hfirst, hsecond⟩ := Bool.and_eq_true_iff.mp hp
    simp only [ends, hp' hfirst, List.flatMap_map, List.map_flatMap, hq' hsecond]
  | alt p q hp' hq' =>
    obtain ⟨hfirst, hsecond⟩ := Bool.and_eq_true_iff.mp hp
    simp only [ends, hp' hfirst, hq' hsecond, List.map_append]

theorem partAt?_behind (hopening : opening.isFree = true) (hmiddle : middle.isFree = true)
    (hclosing : closing.isFree = true) (hpassage : passage.head?.any isWordChar = false) (a : Cursor) :
    partAt? opening middle closing (a.behind passage) = partAt? opening middle closing a := by
  simp only [partAt?, end?, ends_behind hopening hpassage, ends_behind hmiddle hpassage, ends_behind hclosing hpassage,
    List.findSome?_map, List.head?_map, Option.map_map, Function.comp_def, Cursor.textTo_behind, Cursor.distance_behind]

theorem occursIn_eq_isSome (p : Pattern) (t : Text) :
    p.occursIn t = ((Cursor.all t).findSome? fun a => (p.end? a).map fun _ => ()).isSome := by
  rw [Bool.eq_iff_iff, occursIn, find?, List.findSome?_isSome_iff, List.findSome?_isSome_iff]
  simp only [Option.isSome_map]

/-- A passage in which no phrase begins and no word ends does not matter for whether there is one. -/
theorem occursIn_append (hp : p.isFree = true) (hpassage : passage.getLast?.any isWordChar = false)
    (hnone : ∀ a ∈ Cursor.placesFrom [] passage t, p.ends a = []) : p.occursIn (passage ++ t) = p.occursIn t := by
  have hback : passage.reverse.head?.any isWordChar = false := by rwa [List.head?_reverse]
  rw [occursIn_eq_isSome, occursIn_eq_isSome, Cursor.findSome?_all_append]
  · intro a
    rw [end?, end?, ends_behind hp hback, List.head?_map, Option.map_map]
  · intro a ha
    rw [end?, hnone a ha]
    rfl

theorem findPart?_append (hopening : opening.isFree = true) (hmiddle : middle.isFree = true)
    (hclosing : closing.isFree = true) (hpassage : passage.getLast?.any isWordChar = false)
    (hnone : ∀ a ∈ Cursor.placesFrom [] passage t, partAt? opening middle closing a = none) :
    findPart? opening middle closing (passage ++ t) = findPart? opening middle closing t := by
  have hback : passage.reverse.head?.any isWordChar = false := by rwa [List.head?_reverse]
  refine Cursor.findSome?_all_append (fun a => ?_) fun a ha => by rw [hnone a ha, Option.map_none]
  rw [partAt?_behind hopening hmiddle hclosing hback]

end Pattern

namespace Text

section Pieces

variable {α : Type} {step : Cursor → Option (α × Nat)} {passage t : Text}

theorem piecesFrom_behind (hstep : ∀ a : Cursor, step (a.behind passage) = step a) (n : Nat) (before t : Text) :
    piecesFrom step n (before ++ passage) t = piecesFrom step n before t := by
  induction t generalizing n before with
  | nil => cases n <;> rfl
  | cons c rest ih =>
    cases n with
    | succ n => exact ih n (c :: before)
    | zero =>
      have hsame : step ⟨before ++ passage, c :: rest⟩ = step ⟨before, c :: rest⟩ := hstep ⟨before, c :: rest⟩
      have hrest (n : Nat) : piecesFrom step n (c :: (before ++ passage)) rest = piecesFrom step n (c :: before) rest :=
        ih n (c :: before)
      simp only [piecesFrom, hsame, hrest]

/-- A text is cut into the characters of a passage without phrases, and the pieces of what is behind it. -/
theorem pieces_append (hstep : ∀ a : Cursor, step (a.behind passage.reverse) = step a)
    (hnone : ∀ a ∈ Cursor.placesFrom [] passage t, step a = none) :
    pieces step (passage ++ t) = passage.map .inl ++ pieces step t := by
  have hpieces : pieces step (passage ++ t) = passage.map .inl ++ piecesFrom step 0 (passage.reverse ++ []) t := by
    refine piecesFrom_append fun u v huv hv => hnone _ ?_
    rw [huv]
    exact Cursor.mem_placesFrom hv t
  have hbehind := piecesFrom_behind hstep 0 [] t
  rw [hpieces, List.append_nil]
  exact congrArg _ hbehind

end Pieces

variable {p : Pattern} {filler passage t : Text}

/-- What is put in place of phrases leaves a passage without phrases as it is. -/
theorem replace_passage (hp : p.isFree = true) (hpassage : passage.getLast?.any isWordChar = false)
    (hnone : ∀ a ∈ Cursor.placesFrom [] passage t, p.ends a = []) (filler : Text) :
    replace p filler (passage ++ t) = passage ++ replace p filler t := by
  have hback : passage.reverse.head?.any isWordChar = false := by rwa [List.head?_reverse]
  rw [replace, substitute, pieces_append, List.flatMap_append, flatMap_map_inl]
  · rfl
  · intro a
    rw [Pattern.end?, Pattern.end?, Pattern.ends_behind hp hback, List.head?_map, Option.map_map]
    simp only [Function.comp_def, Cursor.distance_behind]
  · intro a ha
    rw [Pattern.end?, hnone a ha]
    rfl

end Text
end AskTable
