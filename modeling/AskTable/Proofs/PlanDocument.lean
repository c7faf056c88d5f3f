import AskTable.Proofs.Header
import AskTable.Query.PlanDocument

/-! Plans and their documents. A plan is read back from its document, and a reply of the right shape has the
document of a well-formed plan as its canonical form. -/
namespace AskTable

namespace Value

variable {entries : List (Value × Value)} {name : Text}

theorem elements_list (items : List Value) : elements (.list items) = .ok items := by
  cases items <;> rfl

theorem required_eq_ok {v : Value} (h : member entries name = v) (hv : v ≠ .null) :
    required entries name = .ok v := by
  unfold member at h
  unfold required
  cases hfound : member? entries name with
  | none =>
    rw [hfound] at h
    exact absurd h.symm hv
  | some found =>
    rw [hfound] at h
    exact congrArg Except.ok h

theorem eq_text_of_text? {v : Value} {t : Text} (h : v.text? = some t) : v = .text t := by
  cases v with
  | text found => exact congrArg Value.text (Option.some.inj h)
  | null | bool b | int n | float x | date d | moment m | list items | dict entries => cases h

end Value

namespace Filter

/-- A filter whose field is a text without blanks at its ends, with a known operator and a value that is
not nested. -/
structure IsWellFormed (f : Filter) : Prop where
  field : ∃ t, f.field = .text t ∧ t.strip = t
  operator : f.operator?.isSome = true
  operand : f.operand.isScalar = true

theorem canonical_of_isShaped {v : Value} (h : isShaped v = true) :
    ∃ f : Filter, canonical v = .ok (.dict f.members) ∧ f.IsWellFormed := by
  cases v with
  | dict entries =>
    simp only [isShaped, Bool.and_eq_true] at h
    obtain ⟨⟨hfield, hoperator⟩, hoperand⟩ := h
    obtain ⟨name, hname, -⟩ := (Option.any_eq_true _ _).mp hfield
    have hname : Value.member entries "field" = .text name := Value.eq_text_of_text? hname
    obtain ⟨operator, hoperator⟩ := Option.isSome_iff_exists.mp hoperator
    obtain ⟨word, hword, hknown⟩ := Option.bind_eq_some_iff.mp hoperator
    have hword : Value.member entries "operator" = .text word := Value.eq_text_of_text? hword
    refine ⟨⟨[("field", .text name.strip), ("operator", .text word),
      ("value", Value.member entries "value")]⟩, ?_, ⟨name.strip, rfl, name.strip_strip⟩, ?_, hoperand⟩
    · simp only [canonical, Value.required_eq_ok hname (by simp), Value.required_eq_ok hword (by simp)]
      rfl
    · exact Option.isSome_iff_exists.mpr ⟨operator, hknown⟩
  | null | bool b | int n | float x | text t | date d | moment m | list items =>
    simp [isShaped] at h

theorem mapM_canonical_of_isShaped {items : List Value} (h : ∀ v ∈ items, isShaped v = true) :
    ∃ filters : List Filter, items.mapM canonical = .ok (filters.map fun f => .dict f.members) ∧
      ∀ f ∈ filters, f.IsWellFormed := by
  induction items with
  | nil => exact ⟨[], rfl, by simp⟩
  | cons v rest ih =>
    obtain ⟨hv, hrest⟩ := List.forall_mem_cons.mp h
    obtain ⟨f, hf, hwell⟩ := canonical_of_isShaped hv
    obtain ⟨filters, hfilters, hall⟩ := ih hrest
    refine ⟨f :: filters, ?_, List.forall_mem_cons.mpr ⟨hwell, hall⟩⟩
    rw [List.mapM_cons, hf, hfilters]
    rfl

theorem mapM_read (filters : List Filter) :
    (filters.map fun f => Value.dict f.members).mapM read = .ok filters := by
  rw [mapM_eq_ok_iff, List.forall₂_map_left_iff, List.forall₂_same]
  exact fun _ _ => rfl

end Filter

theorem Intent.ofName?_name (intent : Intent) : ofName? intent.name = some intent := by
  cases intent <;> decide

private theorem Intent.name_of_ofName? {word : Text} {intent : Intent} (h : ofName? word = some intent) :
    intent.name = word := by
  simpa using List.find?_some h

namespace Plan

variable {entries : List (Value × Value)}

/-- A plan with a known intent, well-formed filters, and names for fields. -/
structure IsWellFormed (p : Plan) : Prop where
  intent : p.intent ∈ Intent.all
  filters : ∀ f ∈ p.filters, f.IsWellFormed
  fields : ∃ names : List Text, p.fields = .list (names.map .text) ∧ ∀ name ∈ names, name.IsName

theorem intent_mem_all (p : Plan) : p.intent ∈ Intent.all := by
  cases p.intent <;> decide

theorem isWellFormed_default : ({} : Plan).IsWellFormed :=
  ⟨intent_mem_all _, by simp, [], rfl, by simp⟩

theorem read_toValue (p : Plan) : read p.toValue = .ok p := by
  have hfilters : Value.member [("filters", .list (p.filters.map fun f => .dict f.members)),
      ("fields", p.fields), ("intent", .text p.intent.name)] "filters" =
      .list (p.filters.map fun f => .dict f.members) := rfl
  have hintent : Value.member [("filters", .list (p.filters.map fun f => .dict f.members)),
      ("fields", p.fields), ("intent", .text p.intent.name)] "intent" = .text p.intent.name := rfl
  unfold read toValue
  simp only [Value.isTrue, List.isEmpty_cons, Bool.not_false, if_true, hfilters, hintent,
    Value.elements_list, Value.text?, Option.bind_some, Intent.ofName?_name]
  exact bind_eq_ok_iff.mpr ⟨_, rfl, bind_eq_ok_iff.mpr ⟨_, Filter.mapM_read p.filters, rfl⟩⟩

/-- The parts of a reply of the right shape. -/
theorem parts_of_isShaped (h : isShaped entries = true) :
    (∃ items, Value.member entries "filters" = .list items ∧ ∀ v ∈ items, Filter.isShaped v = true) ∧
    (∃ names, (Value.member entries "fields").elements = .ok names) ∧
    ∃ intent : Intent, Value.member entries "intent" = .text intent.name := by
  simp only [isShaped, Bool.and_eq_true] at h
  obtain ⟨⟨hfilters, hfields⟩, hintent⟩ := h
  refine ⟨?_, ?_, ?_⟩
  · split at hfilters
    · rename_i items hitems
      exact ⟨items, hitems, List.all_eq_true.mp hfilters⟩
    · cases hfilters
  · unfold Value.member
    split at hfields
    · rename_i items hitems
      exact ⟨items, by rw [hitems]; exact Value.elements_list items⟩
    · cases hfields
    · rename_i hnone
      exact ⟨[], by rw [hnone]; rfl⟩
  · obtain ⟨intent, hintent⟩ := Option.isSome_iff_exists.mp hintent
    obtain ⟨word, hword, hknown⟩ := Option.bind_eq_some_iff.mp hintent
    refine ⟨intent, ?_⟩
    rw [Intent.name_of_ofName? hknown]
    exact Value.eq_text_of_text? hword

/-- A reply of the right shape has a canonical form, the document of a well-formed plan. -/
theorem canonical_of_isShaped (h : isShaped entries = true) :
    ∃ p : Plan, canonical entries = .ok p.toValue ∧ p.IsWellFormed := by
  obtain ⟨⟨items, hitems, hshaped⟩, ⟨given, hgiven⟩, intent, hintent⟩ := parts_of_isShaped h
  obtain ⟨filters, hfilters, hwell⟩ := Filter.mapM_canonical_of_isShaped hshaped
  let names : List Text := (given.map fun v => v.shown.strip).filter fun name => !name.isEmpty
  have hnames : ∀ name ∈ names, name.IsName := by
    intro name hname
    obtain ⟨hmem, hfilled⟩ := List.mem_filter.mp hname
    obtain ⟨v, -, rfl⟩ := List.mem_map.mp hmem
    exact ⟨by simpa using hfilled, Text.strip_strip _⟩
  refine ⟨⟨intent, filters, .list (names.map .text)⟩, ?_, intent_mem_all _, hwell, names, rfl, hnames⟩
  simp only [canonical, hitems, Value.elements_list, hgiven, Value.required_eq_ok hintent (by simp)]
  exact bind_eq_ok_iff.mpr ⟨items, rfl, bind_eq_ok_iff.mpr ⟨_, hfilters, rfl⟩⟩

end Plan
end AskTable
