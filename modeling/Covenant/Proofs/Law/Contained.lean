import Covenant.Builtin.Rules
import Covenant.Proofs.Builtin.Spelled
import Covenant.Proofs.Code.Contained
import Covenant.Table.Lookup

/-! What a regime adds to the code is contained, whatever the contract, when the texts
that the regime itself is made of are. Those of the built-in regimes are. -/
namespace Covenant.Law

open Text (lexed_opening contained_literal harmless_constantCase)
open Code (ContainedTest)

/-! ### Texts of a regime -/

/-- Every text of a feature that is written into code. -/
def Feature.texts (f : Feature) : List String :=
  f.declarations ++ f.note.toList ++ f.failure :: f.functions.flatten ++ f.tests.flatMap (·.body)

/-- Every text of a regime that is written into code. -/
def Regime.texts (r : Regime) : List String :=
  r.officer :: r.authority :: r.escalation :: r.functions.flatten ++ r.features.flatMap Feature.texts

def Regime.Contained (r : Regime) : Prop := ∀ s ∈ r.texts, Text.Contained s.toList

structure Feature.Contained (f : Feature) : Prop where
  declarations : ∀ l ∈ f.declarations, Text.Contained l.toList
  note : ∀ l ∈ f.note.toList, Text.Contained l.toList
  failure : Text.Contained f.failure.toList
  functions : ∀ body ∈ f.functions, ∀ l ∈ body, Text.Contained l.toList
  tests : ∀ t ∈ f.tests, ContainedTest t

theorem Feature.contained_of_texts {f : Feature} (h : ∀ s ∈ f.texts, Text.Contained s.toList) :
    f.Contained := by
  simp only [Feature.texts, List.forall_mem_append, List.forall_mem_cons] at h
  obtain ⟨⟨⟨hdeclarations, hnote⟩, hfailure, hfunctions⟩, htests⟩ := h
  exact {
    declarations := hdeclarations
    note := hnote
    failure := hfailure
    functions := fun body hbody l hl => hfunctions l (List.mem_flatten.2 ⟨body, hbody, hl⟩)
    tests := fun t ht l hl => htests l (List.mem_flatMap.2 ⟨t, ht, hl⟩) }

namespace Regime

variable {r : Regime} (ctx : Context)

theorem Contained.officer (h : r.Contained) : Text.Contained r.officer.toList :=
  h r.officer (by simp [texts])

theorem Contained.authority (h : r.Contained) : Text.Contained r.authority.toList :=
  h r.authority (by simp [texts])

theorem Contained.escalation (h : r.Contained) : Text.Contained r.escalation.toList :=
  h r.escalation (by simp [texts])

theorem Contained.functions (h : r.Contained) {body : List String} (hbody : body ∈ r.functions) :
    ∀ l ∈ body, Text.Contained l.toList := by
  intro l hl
  have hmem := List.mem_flatten.2 ⟨body, hbody, hl⟩
  exact h l (by simp [texts, List.mem_flatten.1 hmem])

theorem Contained.feature (h : r.Contained) {f : Feature} (hf : f ∈ r.features) : f.Contained := by
  refine Feature.contained_of_texts fun s hs => h s ?_
  exact List.mem_append_right _ (List.mem_flatMap.2 ⟨f, hf, hs⟩)

theorem mem_features_of_active {f : Feature} (h : f ∈ r.active ctx) : f ∈ r.features :=
  (List.mem_filter.1 h).1

/-! ### Its lines -/

theorem contained_commentLine {text : String} (h : Text.Contained text.toList) :
    Text.Contained (commentLine text).toList :=
  (lexed_opening rfl rfl h).contained rfl

theorem contained_failIf {condition : String} (h : Text.Contained condition.toList) :
    ∀ l ∈ failIf condition, Text.Contained l.toList := by
  simp only [failIf, List.forall_mem_cons]
  refine ⟨?_, contained_literal rfl rfl, contained_literal rfl rfl, by simp⟩
  exact ((lexed_opening rfl rfl h).closing rfl rfl).contained rfl

theorem contained_check {f : Feature} (h : f.Contained) : ∀ l ∈ f.check, Text.Contained l.toList := by
  rw [Feature.check, List.forall_mem_append]
  refine ⟨?_, contained_failIf h.failure⟩
  intro l hl
  obtain ⟨note, hnote, rfl⟩ := Option.map_eq_some_iff.1 (Option.mem_toList.1 hl)
  exact contained_commentLine (h.note note (Option.mem_toList.2 hnote))

theorem Contained.state (h : r.Contained) :
    (∀ l ∈ (r.state ctx).declarations, Text.Contained l.toList) ∧
      ∀ l ∈ (r.state ctx).initialization, Text.Contained l.toList := by
  constructor
  · rw [Regime.state, List.forall_mem_cons]
    refine ⟨((lexed_opening rfl rfl h.officer).closing rfl rfl).contained rfl, ?_⟩
    intro l hl
    obtain ⟨f, hf, hmem⟩ := List.mem_flatMap.1 hl
    exact (h.feature (mem_features_of_active ctx hf)).declarations l hmem
  · rw [Regime.state, List.forall_mem_singleton]
    exact (h.officer.closing rfl rfl).contained rfl

theorem Contained.ceiling (h : r.Contained) : ∀ l ∈ r.ceiling ctx, Text.Contained l.toList := by
  unfold Regime.ceiling
  split
  · rw [List.forall_mem_cons]
    exact ⟨contained_commentLine ((h.authority.closing rfl rfl).contained rfl),
      contained_failIf (contained_literal rfl rfl)⟩
  · simp

theorem Contained.compliance (h : r.Contained) : ∀ l ∈ r.compliance ctx, Text.Contained l.toList := by
  rw [Regime.compliance, List.forall_mem_append]
  refine ⟨?_, h.ceiling ctx⟩
  intro l hl
  obtain ⟨f, hf, hmem⟩ := List.mem_flatMap.1 hl
  exact contained_check (h.feature (mem_features_of_active ctx hf)) l hmem

theorem contained_deadline (r : Regime) : Text.Contained (r.deadline ctx).toList := by
  unfold deadline
  split
  · exact ((lexed_opening rfl rfl (harmless_constantCase _).contained).closing rfl rfl).contained rfl
  · exact contained_literal rfl rfl

theorem Contained.dispute (h : r.Contained) : ∀ l ∈ r.dispute ctx, Text.Contained l.toList := by
  simp only [Regime.dispute, List.forall_mem_cons]
  refine ⟨contained_commentLine h.escalation, ?_, contained_literal rfl rfl, by simp⟩
  exact ((lexed_opening rfl rfl (contained_deadline ctx r)).closing rfl rfl).contained rfl

theorem Contained.functionLines (h : r.Contained) :
    ∀ l ∈ r.functionLines ctx, Text.Contained l.toList := by
  intro l hl
  obtain ⟨body, hbody, hmem⟩ := List.mem_flatMap.1 hl
  rcases List.mem_cons.1 hmem with rfl | hmem
  · exact Text.contained_nil
  · rcases List.mem_append.1 hbody with hbody | hbody
    · exact h.functions hbody l hmem
    · obtain ⟨f, hf, hfunction⟩ := List.mem_flatMap.1 hbody
      exact (h.feature (mem_features_of_active ctx hf)).functions body hfunction l hmem

theorem Contained.tests (h : r.Contained) : ∀ t ∈ r.handler.tests ctx, ContainedTest t := by
  intro t ht
  obtain ⟨f, hf, hmem⟩ := List.mem_flatMap.1 ht
  exact (h.feature (mem_features_of_active ctx hf)).tests t hmem

end Regime

/-! ### Handlers -/

/-- Every line that a handler gives for a contract. -/
def Handler.lines (h : Handler) (ctx : Context) : List String :=
  (h.state ctx).declarations ++ (h.state ctx).initialization ++ h.compliance ctx ++ h.dispute ctx ++
    h.functions ctx ++ (h.tests ctx).flatMap (·.body)

theorem Regime.Contained.lines {r : Regime} (h : r.Contained) (ctx : Context) :
    ∀ l ∈ r.handler.lines ctx, Text.Contained l.toList := by
  simp only [Handler.lines, List.forall_mem_append]
  refine ⟨⟨⟨⟨h.state ctx, h.compliance ctx⟩, h.dispute ctx⟩, h.functionLines ctx⟩, ?_⟩
  intro l hl
  obtain ⟨t, ht, hmem⟩ := List.mem_flatMap.1 hl
  exact h.tests ctx t ht l hmem

/-- The handler gives the same lines whatever the contract. -/
structure Handler.Fixed (h : Handler) : Prop where
  state : ∀ ctx ctx', h.state ctx = h.state ctx'
  compliance : ∀ ctx ctx', h.compliance ctx = h.compliance ctx'
  dispute : ∀ ctx ctx', h.dispute ctx = h.dispute ctx'
  functions : ∀ ctx ctx', h.functions ctx = h.functions ctx'
  tests : ∀ ctx ctx', h.tests ctx = h.tests ctx'

/-- The handler of a built-in regime, or one that gives fixed lines. -/
def Handler.Known (h : Handler) : Prop := (∃ r ∈ Builtin.regimes, h = r.handler) ∨ h.Fixed

theorem Handler.Fixed.lines_eq {h : Handler} (hh : h.Fixed) (ctx ctx' : Context) :
    h.lines ctx = h.lines ctx' := by
  rw [Handler.lines, Handler.lines, hh.state ctx ctx', hh.compliance ctx ctx', hh.dispute ctx ctx',
    hh.functions ctx ctx', hh.tests ctx ctx']

/-! ### Built-in regimes -/

theorem Regime.contained_of_spelled {r : Regime} {ls : List (List Char)}
    (h : Text.Spelled r.texts ls) (hls : ls.all Text.isContained = true) : r.Contained := by
  intro s hs
  refine Text.contained_of_isContained (List.all_eq_true.1 hls s.toList ?_)
  rw [← h.chars]
  exact List.mem_map_of_mem hs

theorem contained_india : India.regime.Contained := by
  apply Regime.contained_of_spelled
  · repeat (apply Text.Spelled.cons; exact rfl)
    exact .nil
  · decide +kernel

theorem contained_europeanUnion : EuropeanUnion.regime.Contained := by
  apply Regime.contained_of_spelled
  · repeat (apply Text.Spelled.cons; exact rfl)
    exact .nil
  · decide +kernel

theorem contained_unitedStates : UnitedStates.regime.Contained := by
  apply Regime.contained_of_spelled
  · repeat (apply Text.Spelled.cons; exact rfl)
    exact .nil
  · decide +kernel

theorem contained_builtin {r : Regime} (h : r ∈ Builtin.regimes) : r.Contained := by
  simp only [Builtin.regimes, List.mem_cons, List.not_mem_nil, or_false] at h
  rcases h with rfl | rfl | rfl
  · exact contained_india
  · exact contained_europeanUnion
  · exact contained_unitedStates

/-- A built-in jurisdiction has the handler of its regime. -/
theorem get?_builtin {jurisdiction : String} {h : Handler}
    (hget : Builtin.handlers.get? jurisdiction = some h) :
    ∃ r ∈ Builtin.regimes, h = r.handler := by
  unfold Builtin.handlers at hget
  have hmem := Table.mem_of_mem_ofList (Table.mem_entries.2 hget)
  obtain ⟨r, hr, heq⟩ := List.mem_map.1 hmem
  cases heq
  exact ⟨r, hr, rfl⟩

end Covenant.Law
