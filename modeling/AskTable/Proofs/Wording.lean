import AskTable.Proofs.Reading
import AskTable.Proofs.Unavailable

/-! Whose words an answer is in. The model's own words are taken over as they are if its last reply keeps to the agreed
form; in every other case the answer is the plain one, after a note if the model was lost or a note was given. -/
namespace AskTable

open Dialogue (Attempt isUnavailable)

private theorem Value.mem_keys_of_member {entries : List (Value × Value)} {name t : Text}
    (h : member entries name = .text t) : .text name ∈ entries.map (·.1) := by
  unfold member member? lookup? at h
  cases hfound : entries.find? fun entry => entry.1.sameKey (.text name) with
  | none =>
    rw [hfound] at h
    cases h
  | some entry =>
    have hkey : entry.1.sameKey (.text name) = true := by simpa using List.find?_some hfound
    exact List.mem_map.mpr ⟨entry, List.mem_of_find?_eq_some hfound, sameKey_text_iff.mp hkey⟩

namespace Answering

/-- A reply has an object with an answer that is not empty, a text on its source, and no other member. -/
def Offers (reply : Reply) (words : Text) : Prop :=
  ∃ t entries source, reply = .ok t ∧ Json.readReply t = .ok entries ∧
    (∀ key, key ∈ entries.map (·.1) ↔ key = .text "answer" ∨ key = .text "source") ∧
    Value.member entries "answer" = .text words ∧ words ≠ [] ∧
    Value.member entries "source" = .text source

variable {s : Snapshot} {question : Text} {p : Plan} {r : Result} {model : Option Model} {note : Text} {limit : Int}
  {log : List Exchange} {reply : Reply} {t words : Text}

theorem isAnswerShaped_iff {entries : List (Value × Value)} (hanswer : Value.member entries "answer" = .text words) :
    isAnswerShaped entries = true ↔
      (∀ key, key ∈ entries.map (·.1) ↔ key = .text "answer" ∨ key = .text "source") ∧ words ≠ [] ∧
        ∃ source, Value.member entries "source" = .text source := by
  have hkey (v : Value) (name : Text) : v.isText name = true ↔ v = .text name := by
    rw [Value.isText, beq_iff_eq]
    constructor
    · exact Value.eq_text_of_text?
    · rintro rfl
      rfl
  have hsource : (Value.member entries "source").text?.isSome = true ↔
      ∃ source, Value.member entries "source" = .text source := by
    rw [Option.isSome_iff_exists]
    refine exists_congr fun source => ⟨Value.eq_text_of_text?, fun h => ?_⟩
    rw [h]
    rfl
  have hfilled : ((Value.member entries "answer").text?.any fun t => !t.isEmpty) = true ↔ words ≠ [] := by
    rw [hanswer]
    simp [Value.text?]
  simp only [isAnswerShaped, Bool.and_eq_true, List.all_eq_true, Bool.or_eq_true, hkey, hfilled, hsource]
  constructor
  · rintro ⟨⟨hne, source, hsource⟩, hkeys⟩
    refine ⟨fun key => ⟨fun hmem => ?_, ?_⟩, hne, source, hsource⟩
    · obtain ⟨entry, hentry, rfl⟩ := List.mem_map.mp hmem
      exact hkeys entry hentry
    · rintro (rfl | rfl)
      · exact Value.mem_keys_of_member hanswer
      · exact Value.mem_keys_of_member hsource
  · rintro ⟨hkeys, hne, hsource⟩
    exact ⟨⟨hne, hsource⟩, fun entry hentry => (hkeys entry.1).mp (List.mem_map_of_mem hentry)⟩

/-- An answer is taken from a text exactly if the text offers it in the agreed form. -/
theorem answerOfText?_eq_some_iff : answerOfText? t = some words ↔ Offers (.ok t) words := by
  unfold answerOfText? Json.readShaped Offers
  cases hread : Json.readReply t with
  | error fault => simp [hread, Except.toOption]
  | ok entries =>
    constructor
    · intro h
      dsimp only at h
      by_cases hshaped : isAnswerShaped entries = true
      · have hanswer : Value.member entries "answer" = .text words := by
          rw [if_pos hshaped] at h
          exact Value.eq_text_of_text? h
        obtain ⟨hkeys, hne, source, hsource⟩ := (isAnswerShaped_iff hanswer).mp hshaped
        exact ⟨t, entries, source, rfl, hread, hkeys, hanswer, hne, hsource⟩
      · rw [if_neg hshaped] at h
        cases h
    · rintro ⟨t', entries', source, htext, hread', hkeys, hanswer, hne, hsource⟩
      obtain rfl := Except.ok.inj htext
      obtain rfl := Except.ok.inj (hread.symm.trans hread')
      have hshaped := (isAnswerShaped_iff hanswer).mpr ⟨hkeys, hne, source, hsource⟩
      dsimp only
      rw [if_pos hshaped]
      change (Value.member entries "answer").text? = some words
      rw [hanswer]
      rfl

def lastReply? (log : List Exchange) : Option Reply :=
  log.getLast?.map (·.2)

/-- How the answer to a question came about, given the exchanges for it. -/
structure IsWorded (s : Snapshot) (p : Plan) (r : Result) (model : Option Model) (note : Text)
    (log : List Exchange) (a : Answered) : Prop where
  /-- The model is asked once, or once more if it is busy at first. -/
  stage : log = [] ∨ ∃ m prompt last, model = some m ∧ Attempt prompt Answering.instructions m.alternate log last
  /-- It is asked if there is one, without a note, and with records whose columns can be told. -/
  asked_iff : log ≠ [] ↔ model.isSome = true ∧ note = [] ∧ r.hits ≠ [] ∧ Succeeds p.fieldNames
  model_iff : a.source = .model ↔ model.isSome = true ∧ note = [] ∧ r.hits ≠ [] ∧
    ∃ last words, lastReply? log = some last ∧ Offers last words
  verbatim : ∀ last words, lastReply? log = some last → Offers last words → a.answer = words
  manual : a.source = .manual →
    r.answer s p (if a.unreachable = true then Report.unavailableNote else note) = .ok a.answer
  unreachable_iff : a.unreachable = true ↔ ∃ last, lastReply? log = some last ∧ isUnavailable last = true

theorem isWorded_of_not_asked {plain : Text} (hplain : r.answer s p note = .ok plain)
    (hskip : ¬ (model.isSome = true ∧ note = [] ∧ r.hits ≠ [] ∧ Succeeds p.fieldNames)) :
    IsWorded s p r model note [] ⟨plain, .manual, false⟩ where
  stage := .inl rfl
  asked_iff := iff_of_false (by simp) hskip
  model_iff := by simp [lastReply?]
  verbatim := by simp [lastReply?]
  manual _ := hplain
  unreachable_iff := by simp [lastReply?]

theorem exists_text_of_offers (h : Offers reply words) : ∃ t, reply = .ok t ∧ answerOfText? t = some words := by
  obtain ⟨t, _, _, rfl, _⟩ := id h
  exact ⟨t, rfl, answerOfText?_eq_some_iff.mpr h⟩

theorem ofReply_of_offers (h : Offers reply words) : ofReply s p r reply = .ok ⟨words, .model, false⟩ := by
  obtain ⟨t, rfl, hanswer⟩ := exists_text_of_offers h
  rw [ofReply, hanswer]

private theorem not_offers_of_isUnavailable (h : isUnavailable reply = true) : ¬ Offers reply words := by
  intro hoffers
  obtain ⟨t, rfl, -⟩ := exists_text_of_offers hoffers
  cases h

theorem ofReply_of_isUnavailable (h : isUnavailable reply = true) :
    ofReply s p r reply = manual s p r Report.unavailableNote true := by
  cases reply with
  | ok t => cases h
  | error failure =>
    have hkind : failure.kind = .unavailable := by simpa [isUnavailable] using h
    rw [ofReply, if_pos hkind]

theorem ofReply_of_not_offers (hlost : isUnavailable reply = false) (hnone : ∀ words, ¬ Offers reply words) :
    ofReply s p r reply = manual s p r [] false := by
  cases reply with
  | error failure =>
    have hkind : failure.kind ≠ .unavailable := by simpa [isUnavailable] using hlost
    rw [ofReply, if_neg hkind]
  | ok t =>
    cases hanswer : answerOfText? t with
    | none => rw [ofReply, hanswer]
    | some words => exact absurd (answerOfText?_eq_some_iff.mp hanswer) (hnone words)

/-- What a reply leads to where the plain answer can be made. -/
theorem exists_ofReply (hplain : Succeeds (r.answer s p [])) (last : Reply) :
    ∃ a, ofReply s p r last = .ok a ∧ (a.source = .model ↔ ∃ words, Offers last words) ∧
      (∀ words, Offers last words → a.answer = words) ∧
      (a.source = .manual →
        r.answer s p (if a.unreachable = true then Report.unavailableNote else []) = .ok a.answer) ∧
      (a.unreachable = true ↔ isUnavailable last = true) := by
  obtain ⟨plain, hplain⟩ := hplain
  have hmanual (note : Text) (lost : Bool) : manual s p r note lost = .ok ⟨Report.noted note plain, .manual, lost⟩ :=
    manual_eq_ok_iff.mpr ⟨plain, hplain, rfl⟩
  by_cases hlost : isUnavailable last = true
  · have hnone (words : Text) : ¬ Offers last words := not_offers_of_isUnavailable hlost
    have hnoted : r.answer s p Report.unavailableNote = .ok (Report.noted Report.unavailableNote plain) :=
      Result.answer_eq_ok_iff.mpr ⟨plain, hplain, rfl⟩
    refine ⟨_, (ofReply_of_isUnavailable hlost).trans (hmanual _ _), ?_, ?_, fun _ => ?_, iff_of_true rfl hlost⟩
    · exact iff_of_false nofun fun ⟨words, h⟩ => hnone words h
    · exact fun words h => absurd h (hnone words)
    · rw [if_pos rfl, hnoted]
  · rw [Bool.not_eq_true] at hlost
    by_cases hoffers : ∃ words, Offers last words
    · obtain ⟨words, hwords⟩ := hoffers
      refine ⟨_, ofReply_of_offers hwords, iff_of_true rfl ⟨words, hwords⟩, fun other hother => ?_, nofun, ?_⟩
      · have hsame := (ofReply_of_offers (s := s) (p := p) (r := r) hwords).symm.trans (ofReply_of_offers hother)
        exact congrArg Answered.answer (Except.ok.inj hsame)
      · simp [hlost]
    · have hnone : ∀ words, ¬ Offers last words := not_exists.mp hoffers
      refine ⟨_, (ofReply_of_not_offers hlost hnone).trans (hmanual _ _), ?_, ?_, fun _ => ?_, ?_⟩
      · exact iff_of_false nofun hoffers
      · exact fun words h => absurd h (hnone words)
      · rw [if_neg Bool.false_ne_true, hplain]
        rfl
      · simp [hlost]

/-- Whoever replies, a question whose plain answer can be made is answered, in the words of the model if its last reply
offers an answer and in the plain ones otherwise. -/
theorem answer_isWorded {σ : Type} (replies : σ → Reply × σ) (state : σ) (hplain : Succeeds (r.answer s p [])) :
    ∃ a, ((answer s question p r model note limit).runWith replies state).1 = .ok a ∧
      IsWorded s p r model note ((answer s question p r model note limit).exchanges replies state) a := by
  have hrun := Dialogue.runs_exchanges replies (answer s question p r model note limit) state
  generalize (answer s question p r model note limit).exchanges replies state = log at hrun
  generalize ((answer s question p r model note limit).runWith replies state).1 = outcome at hrun
  obtain ⟨rfl, rfl, hskip⟩ | ⟨m, prompt, last, rfl, rfl, hhits, hnames, hcalls, rfl⟩ := runs_answer_cases hrun
  · obtain ⟨plain, hplain⟩ := hplain
    have hnoted : r.answer s p note = .ok (Report.noted note plain) :=
      Result.answer_eq_ok_iff.mpr ⟨plain, hplain, rfl⟩
    exact ⟨_, manual_eq_ok_iff.mpr ⟨plain, hplain, rfl⟩, isWorded_of_not_asked hnoted hskip⟩
  · obtain ⟨a, ha, hmodel, hverbatim, hmanual, hunreachable⟩ := exists_ofReply hplain last
    have hlast : lastReply? log = some last := by
      obtain ⟨before, c, rfl, -⟩ := hcalls.exists_last
      simp [lastReply?]
    refine ⟨a, ha, ?_⟩
    constructor
    case stage => exact .inr ⟨m, prompt, last, rfl, hcalls⟩
    case asked_iff => exact iff_of_true hcalls.ne_nil ⟨rfl, rfl, hhits, hnames⟩
    case model_iff => simp [hmodel, hhits, hlast]
    case verbatim =>
      intro other words hother hoffers
      obtain rfl := Option.some.inj (hlast.symm.trans hother)
      exact hverbatim words hoffers
    case manual => exact hmanual
    case unreachable_iff => simpa [hlast] using hunreachable

def delayedAnswer : List Reply :=
  [.error ⟨.overloaded, "busy"⟩, .ok "Sure: \x7b'answer': 'One note.', source: 'record 1'\x7d"]

theorem answer_with_delayedAnswer : ∃ s r a, Snapshot.build ⟨["Note"], [.list ["x"]], []⟩ = .ok s ∧
    s.execute {} = .ok r ∧ Succeeds (r.answer s {} []) ∧
    ((answer s "Which?" {} r (some ⟨none⟩) [] 50).runWith Dialogue.nextReply delayedAnswer).1 = .ok a ∧
    a = ⟨"One note.", .model, false⟩ ∧
    IsWorded s {} r (some ⟨none⟩) []
      ((answer s "Which?" {} r (some ⟨none⟩) [] 50).exchanges Dialogue.nextReply delayedAnswer) a := by
  have hrun : (Snapshot.build ⟨["Note"], [.list ["x"]], []⟩ >>= fun s => (s.execute {}).map fun r =>
      ((answer s "Which?" {} r (some ⟨none⟩) [] 50).runWith Dialogue.nextReply delayedAnswer).1 ==
        .ok ⟨"One note.", .model, false⟩) = .ok true := by
    decide +kernel
  obtain ⟨s, hs, hrun⟩ := bind_eq_ok_iff.mp hrun
  obtain ⟨r, hr, hanswered⟩ := map_eq_ok_iff.mp hrun
  have hplain : Succeeds (r.answer s {} []) := Result.succeeds_answer ⟨[], rfl⟩
  obtain ⟨a, ha, hworded⟩ :
      ∃ a, ((answer s "Which?" {} r (some ⟨none⟩) [] 50).runWith Dialogue.nextReply delayedAnswer).1 = .ok a ∧
        IsWorded s {} r (some ⟨none⟩) []
          ((answer s "Which?" {} r (some ⟨none⟩) [] 50).exchanges Dialogue.nextReply delayedAnswer) a :=
    answer_isWorded Dialogue.nextReply delayedAnswer hplain
  rw [ha, beq_iff_eq] at hanswered
  exact ⟨s, r, a, hs, hr, hplain, ha, Except.ok.inj hanswered, hworded⟩

end Answering
end AskTable
