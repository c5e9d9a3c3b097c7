import Covenant.Code.Tests
import Covenant.Law.Context
import Covenant.Proofs.Number.Text
import Covenant.Proofs.Text.Contained

/-! Generated code is contained: every line made from a rule set whose names are
identifiers, and from conditions whose verbs are, whatever else is in them. -/
namespace Covenant.Code

open Text (Contained Harmless contained_literal lexed_opening contained_safe harmless_of_isIdent
  harmless_toString)
open Law (Context TestCase)

/-! ### Constants -/

theorem contained_declareConstant (name : String) (value : Nat) :
    Contained (declareConstant name value).toList :=
  (((lexed_opening rfl rfl (Text.harmless_constantCase name).contained).joint rfl rfl
    (harmless_toString value).contained).closing rfl rfl).contained rfl

theorem contained_timeLimitConstants (r : Rules.RuleSet) :
    ∀ l ∈ timeLimitConstants r, Contained l.toList := by
  intro l hl
  obtain ⟨e, _, rfl⟩ := List.mem_map.1 hl
  exact contained_declareConstant e.1 e.2

theorem contained_constraintLine {name : String} (h : Ident.isIdent name = true) (value : Double) :
    Contained (constraintLine name value).toList := by
  unfold constraintLine
  split
  · exact contained_declareConstant name _
  · exact (((lexed_opening rfl rfl (harmless_of_isIdent h).contained).joint rfl rfl
      (Double.harmless_text value).contained).closing rfl rfl).contained rfl

theorem contained_constraintConstants {r : Rules.RuleSet}
    (h : ∀ e ∈ r.constraints.entries, Ident.isIdent e.1 = true) :
    ∀ l ∈ constraintConstants r, Contained l.toList := by
  intro l hl
  obtain ⟨e, he, rfl⟩ := List.mem_map.1 hl
  exact contained_constraintLine (h e he) e.2

/-! ### Names -/

theorem harmless_freeName {taken : List String} {name : String} (h : Harmless name.toList) :
    Harmless (freeName taken name).toList := by
  induction taken, name using freeName.induct with
  | case1 taken name htaken ih =>
    rw [freeName, if_pos htaken]
    refine ih ?_
    rw [String.toList_append]
    exact h.append (List.all_eq_true.1 rfl)
  | case2 taken name htaken => rwa [freeName, if_neg htaken]

theorem harmless_nameFrom {bases used todo : List String} {i : Nat}
    (h : ∀ base ∈ todo, Harmless base.toList) :
    ∀ name ∈ nameFrom bases used i todo, Harmless name.toList := by
  induction todo generalizing used i with
  | nil => simp [nameFrom]
  | cons base rest ih =>
    have hbase := h base List.mem_cons_self
    rw [nameFrom, List.forall_mem_cons]
    refine ⟨harmless_freeName ?_, ih fun b hb => h b (List.mem_cons_of_mem _ hb)⟩
    split
    · rw [String.toList_append]
      exact hbase.append (harmless_toString i)
    · exact hbase

/-! ### Conditions -/

/-- The verbs of a condition are identifiers. -/
structure Named (c : Condition) : Prop where
  trigger : Ident.isIdent c.trigger = true
  action : Ident.isIdent c.action = true

theorem harmless_baseName {trigger : String} (h : Ident.isIdent trigger = true) :
    Harmless (baseName trigger).toList := by
  rw [baseName, String.toList_append]
  exact Harmless.append (List.all_eq_true.1 rfl) (Text.harmless_pascalCase (harmless_of_isIdent h))

theorem named_harmless {cs : List Condition} (h : ∀ c ∈ cs, Named c) :
    ∀ e ∈ named cs, Harmless e.1.toList ∧ Named e.2 := by
  rintro ⟨name, c⟩ he
  obtain ⟨hname, hc⟩ := List.of_mem_zip he
  refine ⟨harmless_nameFrom ?_ name hname, h c hc⟩
  intro base hbase
  obtain ⟨trigger, htrigger, rfl⟩ := List.mem_map.1 hbase
  obtain ⟨c', hc', rfl⟩ := List.mem_map.1 htrigger
  exact harmless_baseName (h c' hc').trigger

theorem contained_conditionFunction {i : Nat} {name : String} {c : Condition}
    (hname : Harmless name.toList) (hc : Named c) :
    ∀ l ∈ conditionFunction i name c, Contained l.toList := by
  have hindex := (harmless_toString i).contained
  have htrigger := (harmless_of_isIdent hc.trigger).contained
  have haction := (harmless_of_isIdent hc.action).contained
  simp only [conditionFunction, List.forall_mem_append, List.forall_mem_cons]
  refine ⟨⟨⟨⟨?_, ?_, ?_, ?_⟩, ?_⟩, ?_⟩, ?_, ?_, ?_, ?_, ?_, ?_⟩
  · exact ((lexed_opening rfl rfl htrigger).joint rfl rfl haction).contained rfl
  · exact ((lexed_opening rfl rfl hname.contained).closing rfl rfl).contained rfl
  · exact ((lexed_opening rfl rfl hindex).closing rfl rfl).contained rfl
  · simp
  · intro l hl
    obtain ⟨days, _, rfl⟩ := Option.map_eq_some_iff.1 (Option.mem_toList.1 hl)
    exact ((lexed_opening rfl rfl (harmless_toString days).contained).closing rfl rfl).contained rfl
  · intro l hl
    obtain ⟨e, _, rfl⟩ := List.mem_map.1 hl
    exact ((lexed_opening rfl rfl (contained_safe e.1)).joint rfl rfl (contained_safe _)).contained rfl
  · exact ((lexed_opening rfl rfl hindex).closing rfl rfl).contained rfl
  · exact ((lexed_opening rfl rfl haction).closing rfl rfl).contained rfl
  · exact ((((lexed_opening rfl rfl hindex).joint rfl rfl htrigger).joint rfl rfl haction).closing
      rfl rfl).contained rfl
  · exact contained_literal rfl rfl
  · exact contained_literal rfl rfl
  · simp

theorem contained_conditionFunctionsFrom {i : Nat} {es : List (String × Condition)}
    (h : ∀ e ∈ es, Harmless e.1.toList ∧ Named e.2) :
    ∀ l ∈ conditionFunctionsFrom i es, Contained l.toList := by
  induction es generalizing i with
  | nil => simp [conditionFunctionsFrom]
  | cons e rest ih =>
    obtain ⟨name, c⟩ := e
    obtain ⟨hname, hc⟩ := h (name, c) List.mem_cons_self
    rw [conditionFunctionsFrom, List.forall_mem_append]
    exact ⟨contained_conditionFunction hname hc, ih fun e he => h e (List.mem_cons_of_mem _ he)⟩

theorem contained_conditionFunctions {cs : List Condition} (h : ∀ c ∈ cs, Named c) :
    ∀ l ∈ conditionFunctions cs, Contained l.toList :=
  contained_conditionFunctionsFrom (named_harmless h)

/-! ### Tests -/

/-- The lines in the body of a test are clean; its name need not be. -/
def ContainedTest (t : TestCase) : Prop := ∀ l ∈ t.body, Contained l.toList

theorem containedTest_creation {jurisdiction : String} (h : Harmless jurisdiction.toList) :
    ContainedTest (creationTest jurisdiction) := by
  simp only [ContainedTest, creationTest, List.forall_mem_cons]
  refine ⟨?_, ?_, ?_, ?_⟩
  · exact contained_literal rfl rfl
  · exact contained_literal rfl rfl
  · exact ((lexed_opening rfl rfl h.contained).closing rfl rfl).contained rfl
  · simp

theorem containedTest_compliance (requirements : List String) :
    ContainedTest (complianceTest requirements) := by
  simp only [ContainedTest, complianceTest, List.forall_mem_cons]
  refine ⟨?_, ?_, ?_, ?_⟩
  · exact contained_literal rfl rfl
  · exact ((lexed_opening rfl rfl (Text.contained_quotedList requirements)).closing rfl rfl).contained rfl
  · exact contained_literal rfl rfl
  · simp

theorem containedTest_condition {i : Nat} {name : String} {c : Condition}
    (h : Harmless name.toList) : ContainedTest (conditionTest i name c) := by
  simp only [ContainedTest, conditionTest, List.forall_mem_cons]
  refine ⟨?_, ?_⟩
  · exact ((lexed_opening rfl rfl h.contained).closing rfl rfl).contained rfl
  · simp

theorem containedTest_conditionTestsFrom {i : Nat} {es : List (String × Condition)}
    (h : ∀ e ∈ es, Harmless e.1.toList ∧ Named e.2) :
    ∀ t ∈ conditionTestsFrom i es, ContainedTest t := by
  induction es generalizing i with
  | nil => simp [conditionTestsFrom]
  | cons e rest ih =>
    obtain ⟨name, c⟩ := e
    rw [conditionTestsFrom, List.forall_mem_cons]
    exact ⟨containedTest_condition (h (name, c) List.mem_cons_self).1,
      ih fun e he => h e (List.mem_cons_of_mem _ he)⟩

theorem containedTest_contractTests {ctx : Context}
    (hjurisdiction : Ident.isIdent ctx.definition.jurisdiction = true)
    (hconditions : ∀ c ∈ ctx.definition.conditions, Named c) :
    ∀ t ∈ contractTests ctx, ContainedTest t := by
  rw [contractTests, List.forall_mem_append, List.forall_mem_cons, List.forall_mem_cons]
  refine ⟨⟨?_, ?_, ?_⟩, containedTest_conditionTestsFrom (named_harmless hconditions)⟩
  · exact containedTest_creation (harmless_of_isIdent hjurisdiction)
  · exact containedTest_compliance ctx.requirements
  · simp

section Suites

/-! What is true of contained lines, and stays true of a line that is set in, is true of the lines
of tests when it is true of what the tests do. -/

variable {P : String → Prop} (hcontained : ∀ l, Contained l.toList → P l)
  (hindented : ∀ l, P l → P ("  " ++ l))

include hcontained hindented

theorem forall_testLines {t : TestCase} (h : ∀ l ∈ t.body, P l) : ∀ l ∈ testLines t, P l := by
  rw [testLines, List.forall_mem_append, List.forall_mem_append, List.forall_mem_singleton,
    List.forall_mem_singleton]
  refine ⟨⟨?_, ?_⟩, hcontained _ (contained_literal rfl rfl)⟩
  · exact hcontained _ (((lexed_opening rfl rfl (contained_safe t.name)).closing rfl rfl).contained rfl)
  · intro l hl
    obtain ⟨line, hline, rfl⟩ := List.mem_map.1 hl
    exact hindented line (h line hline)

theorem forall_testSuite {ts : List TestCase} (h : ∀ t ∈ ts, ∀ l ∈ t.body, P l) :
    ∀ l ∈ testSuite ts, P l := by
  cases ts with
  | nil => simp [testSuite]
  | cons t rest =>
    have hlines := fun t' ht' => forall_testLines hcontained hindented (h t' ht')
    rw [testSuite, List.forall_mem_append]
    refine ⟨hlines t List.mem_cons_self, ?_⟩
    intro l hl
    obtain ⟨t', ht', hmem⟩ := List.mem_flatMap.1 hl
    rcases List.mem_cons.1 hmem with rfl | hmem
    · exact hcontained _ Text.contained_nil
    · exact hlines t' (List.mem_cons_of_mem _ ht') l hmem

end Suites

/-- Every line of what a test does stands in the suite, set in. -/
theorem mem_testSuite {ts : List TestCase} {t : TestCase} {l : String} (ht : t ∈ ts)
    (hl : l ∈ t.body) : "  " ++ l ∈ testSuite ts := by
  have hline : "  " ++ l ∈ testLines t :=
    List.mem_append_left _ (List.mem_append_right _ (List.mem_map_of_mem hl))
  cases ts with
  | nil => cases ht
  | cons first rest =>
    rcases List.mem_cons.1 ht with rfl | ht
    · exact List.mem_append_left _ hline
    · exact List.mem_append_right _ (List.mem_flatMap.2 ⟨t, ht, List.mem_cons_of_mem _ hline⟩)

end Covenant.Code
