import Covenant.Proofs.Compiler.Completeness
import Covenant.Proofs.Definition.Rereading

/-! Runs of a compiler whose parts are replaced between one use and the next. A definition is
held against the rules when it is read. When it is compiled, the compiler looks for a rule set
for its pair and takes the rest on trust, so that an artifact contradicts the rule set that it
records exactly when the text of its definition would no longer be accepted. -/
namespace Covenant.Compiler

open Rules (Rulebook)
open Definition (Complies)

/-- What can be done with a compiler. Definitions are compiled by their place among those that
have been accepted. -/
inductive Step where
  | replaceRules (rules : Rulebook)
  | replaceTemplates (templates : Template.Library)
  | replaceVocabulary (vocabulary : Vocabulary)
  | replaceHandlers (handlers : Law.Handlers)
  | parse (text : String)
  | compile (place : Nat)

/-- A compiler in use, with what it has accepted and what it has made so far. -/
structure Session where
  compiler : Compiler
  accepted : List Definition
  artifacts : List Artifact

namespace Session

def start (c : Compiler) : Session := ⟨c, [], []⟩

/-- Nothing comes of a text that is refused, and of a definition that does not compile. -/
def step (s : Session) : Step → Session
  | .replaceRules rules => { s with compiler := { s.compiler with rules } }
  | .replaceTemplates templates => { s with compiler := { s.compiler with templates } }
  | .replaceVocabulary vocabulary => { s with compiler := { s.compiler with vocabulary } }
  | .replaceHandlers handlers => { s with compiler := { s.compiler with handlers } }
  | .parse text => { s with accepted := s.accepted ++ (s.compiler.parse text).toOption.toList }
  | .compile place => { s with artifacts := s.artifacts ++
      (s.accepted[place]?.bind fun d => (s.compiler.compile d).toOption).toList }

def run (s : Session) (steps : List Step) : Session := steps.foldl step s

@[simp] theorem run_nil (s : Session) : s.run [] = s := rfl

theorem run_append (s : Session) (before after : List Step) :
    s.run (before ++ after) = (s.run before).run after := List.foldl_append

theorem run_concat (s : Session) (steps : List Step) (last : Step) :
    s.run (steps ++ [last]) = (s.run steps).step last := run_append s steps [last]

/-! ### What a step adds -/

variable {s : Session} {d : Definition} {a : Artifact}

theorem mem_accepted_step {st : Step} : d ∈ (s.step st).accepted ↔
    d ∈ s.accepted ∨ ∃ text, st = .parse text ∧ s.compiler.parse text = .ok d := by
  cases st with
  | parse text => simp [step, Outcome.toOption_eq_some_iff]
  | replaceRules | replaceTemplates | replaceVocabulary | replaceHandlers | compile => simp [step]

theorem mem_artifacts_step {st : Step} : a ∈ (s.step st).artifacts ↔
    a ∈ s.artifacts ∨
      ∃ place, st = .compile place ∧ ∃ d ∈ s.accepted, s.accepted[place]? = some d ∧
        s.compiler.compile d = .ok a := by
  cases st with
  | compile place =>
    simp only [step, List.mem_append, Option.mem_toList, Option.bind_eq_some_iff,
      Outcome.toOption_eq_some_iff, Step.compile.injEq, exists_eq_left']
    refine or_congr_right (exists_congr fun d => ?_)
    rw [iff_and_self]
    exact fun h => List.mem_of_getElem? h.1
  | replaceRules | replaceTemplates | replaceVocabulary | replaceHandlers | parse => simp [step]

/-- Only a replacement of the rules changes the rules. -/
theorem rules_step {st : Step} (h : ∀ rules, st ≠ .replaceRules rules) :
    (s.step st).compiler.rules = s.compiler.rules := by
  cases st with
  | replaceRules rules => exact absurd rfl (h rules)
  | replaceTemplates | replaceVocabulary | replaceHandlers | parse | compile => rfl

/-! ### What a run adds -/

theorem rules_run {steps : List Step} (h : ∀ rules, .replaceRules rules ∉ steps) :
    (s.run steps).compiler.rules = s.compiler.rules := by
  induction steps generalizing s with
  | nil => rfl
  | cons st steps ih =>
    have hfirst := @rules_step s st fun rules heq => h rules (heq ▸ List.mem_cons_self)
    exact (ih fun rules hmem => h rules (List.mem_cons_of_mem _ hmem)).trans hfirst

/-- What has been accepted was accepted at some step, from a text. -/
theorem exists_parse_of_mem_accepted {c : Compiler} {steps : List Step}
    (h : d ∈ ((start c).run steps).accepted) : ∃ before text after,
      steps = before ++ .parse text :: after ∧
        ((start c).run before).compiler.parse text = .ok d := by
  induction steps using List.reverseRecOn with
  | nil => cases h
  | append_singleton steps last ih =>
    rw [run_concat, mem_accepted_step] at h
    rcases h with h | ⟨text, rfl, hparse⟩
    · obtain ⟨before, text, after, rfl, hparse⟩ := ih h
      exact ⟨before, text, after ++ [last], by simp, hparse⟩
    · exact ⟨steps, text, [], rfl, hparse⟩

/-- What has been made was made at some step, from a definition that had been accepted. -/
theorem exists_compile_of_mem_artifacts {c : Compiler} {steps : List Step}
    (h : a ∈ ((start c).run steps).artifacts) : ∃ before place after,
      steps = before ++ .compile place :: after ∧
        ∃ d ∈ ((start c).run before).accepted, ((start c).run before).accepted[place]? = some d ∧
          ((start c).run before).compiler.compile d = .ok a := by
  induction steps using List.reverseRecOn with
  | nil => cases h
  | append_singleton steps last ih =>
    rw [run_concat, mem_artifacts_step] at h
    rcases h with h | ⟨place, rfl, hcompile⟩
    · obtain ⟨before, place, after, rfl, hcompile⟩ := ih h
      exact ⟨before, place, after ++ [last], by simp, hcompile⟩
    · exact ⟨steps, place, [], rfl, hcompile⟩

theorem accepted_prefix (s : Session) (steps : List Step) :
    s.accepted <+: (s.run steps).accepted := by
  induction steps generalizing s with
  | nil => exact List.prefix_rfl
  | cons st steps ih =>
    refine List.IsPrefix.trans ?_ (ih (s.step st))
    cases st with
    | parse => exact List.prefix_append _ _
    | replaceRules | replaceTemplates | replaceVocabulary | replaceHandlers | compile =>
      exact List.prefix_rfl

/-- The first definition that is accepted can be compiled after whatever other steps. -/
theorem mem_artifacts_of_parse {c : Compiler} {text : String} (between : List Step)
    (hparse : c.parse text = .ok d)
    (hcompile : ((start c).run (.parse text :: between)).compiler.compile d = .ok a) :
    a ∈ ((start c).run (.parse text :: between ++ [.compile 0])).artifacts := by
  have hfirst : ((start c).step (.parse text)).accepted = [d] := by
    simp [step, start, hparse, Except.toOption]
  have haccepted : ((start c).run (.parse text :: between)).accepted[0]? = some d := by
    obtain ⟨rest, hrest⟩ := accepted_prefix ((start c).step (.parse text)) between
    rw [hfirst] at hrest
    rw [run, List.foldl_cons, ← run, ← hrest]
    rfl
  rw [run_concat, mem_artifacts_step]
  exact .inr ⟨0, rfl, d, List.mem_of_getElem? haccepted, haccepted, hcompile⟩

end Session

/-! ### Artifacts and their rules -/

open Session (start)

/-- In every run an artifact is made at a step, from a definition that had been read at an earlier
one. It complies with the rule set it records exactly when the text of the definition would be
accepted again under the rules of the later step, and so it does if the rules are still the same. -/
theorem artifact_complies_iff {c : Compiler} {steps : List Step} {a : Artifact}
    (ha : a ∈ ((start c).run steps).artifacts) : ∃ before text between place after,
      steps = before ++ .parse text :: between ++ .compile place :: after ∧
      ∃ reader maker : Compiler, reader = ((start c).run before).compiler ∧
        maker = ((start c).run (before ++ .parse text :: between)).compiler ∧
        reader.parse text = .ok a.definition ∧ maker.compile a.definition = .ok a ∧
        (Complies a.rules a.definition ↔
          Definition.read maker.rules reader.vocabulary text = .ok a.definition) ∧
        ((∀ rules, .replaceRules rules ∉ between) → Complies a.rules a.definition) := by
  obtain ⟨earlier, place, after, rfl, d, hd, _, hcompile⟩ :=
    Session.exists_compile_of_mem_artifacts ha
  obtain ⟨before, text, between, rfl, hparse⟩ := Session.exists_parse_of_mem_accepted hd
  obtain ⟨rfl, hlookup⟩ := recorded_of_compile hcompile
  have hcomplies : Complies a.rules a.definition ↔
      Definition.read ((start c).run (before ++ .parse text :: between)).compiler.rules
        ((start c).run before).compiler.vocabulary text = .ok a.definition := by
    rw [Definition.read_again_iff hparse, hlookup]
    simp
  refine ⟨before, text, between, place, after, rfl, _, _, rfl, rfl, hparse, hcompile, hcomplies, ?_⟩
  intro hsame
  have hrules : ((start c).run (before ++ .parse text :: between)).compiler.rules =
      ((start c).run before).compiler.rules := by
    rw [Session.run_append, ← List.singleton_append, Session.run_append]
    exact Session.rules_run hsame
  rw [hcomplies, hrules]
  exact hparse

/-! The deposit, and rules that mandate one more requirement than it asks for. -/

def strictRules : String :=
  "\x7bindia: \x7bescrow: \x7blegal_requirements: [kyc_verification, gst_compliance]\x7d\x7d\x7d"

def strictRulebook : Rulebook :=
  ⟨Table.ofList [("india", Table.ofList [("escrow",
    ⟨"india", "escrow", ["kyc_verification", "gst_compliance"], [], ∅, ∅⟩)])]⟩

theorem strictRulebook_load : Rulebook.load [strictRules] = .ok strictRulebook := by
  decide +kernel

/-- The deposit compiles under any rules that have a rule set for it. -/
theorem deposit_compiles_under {rules : Rulebook} (hrules : rules.Sound) {r : Rules.RuleSet}
    (hr : rules.lookup "india" "escrow" = some r) :
    ∃ a, Compiler.compile ⟨rules, Builtin.templates, Vocabulary.builtin, Builtin.handlers⟩
      Builtin.deposit = .ok a :=
  Builtin.compile_of_lookup (c := ⟨rules, Builtin.templates, Vocabulary.builtin, Builtin.handlers⟩)
    Builtin.templates_holds rfl hrules Vocabulary.Built.builtin.verbsNamed
    (Definition.accepted_of_read Builtin.deposit_read) hr (List.mem_of_elem_eq_true rfl)
    (List.mem_of_elem_eq_true rfl)

theorem deposit_run_complies :
    ∃ a ∈ ((start ⟨Builtin.depositRulebook, Builtin.templates, Vocabulary.builtin,
        Builtin.handlers⟩).run [.parse Builtin.depositDocument.text, .compile 0]).artifacts,
      Complies a.rules a.definition := by
  obtain ⟨a, ha⟩ := deposit_compiles_under
    (Rules.Rulebook.sound_of_load Builtin.depositRulebook_load) rfl
  have hmem : a ∈ ((start ⟨Builtin.depositRulebook, Builtin.templates, Vocabulary.builtin,
      Builtin.handlers⟩).run [.parse Builtin.depositDocument.text, .compile 0]).artifacts :=
    Session.mem_artifacts_of_parse [] Builtin.deposit_read ha
  obtain ⟨before, text, between, place, after, hsteps, _, _, _, _, _, _, _, hsame⟩ :=
    artifact_complies_iff hmem
  refine ⟨a, hmem, hsame fun rules hmem => ?_⟩
  have hreplaced : Step.replaceRules rules ∈
      [Step.parse Builtin.depositDocument.text, .compile 0] := by
    rw [hsteps]
    simp [hmem]
  simp at hreplaced

/-- Read under the old rules and compiled under the strict ones, the deposit comes to an artifact
whose rule set mandates what it does not request. -/
theorem strict_run_contradicts :
    Rulebook.load [Builtin.depositRules] = .ok Builtin.depositRulebook ∧
      Rulebook.load [strictRules] = .ok strictRulebook ∧
      ∃ a ∈ ((start ⟨Builtin.depositRulebook, Builtin.templates, Vocabulary.builtin,
          Builtin.handlers⟩).run [.parse Builtin.depositDocument.text,
            .replaceRules strictRulebook, .compile 0]).artifacts,
        "gst_compliance" ∈ a.rules.legalRequirements ∧
          "gst_compliance" ∉ a.definition.legalRequirements := by
  have hlookup : strictRulebook.lookup "india" "escrow" =
      some ⟨"india", "escrow", ["kyc_verification", "gst_compliance"], [], ∅, ∅⟩ := by
    decide +kernel
  obtain ⟨a, ha⟩ := deposit_compiles_under
    (Rules.Rulebook.sound_of_load strictRulebook_load) hlookup
  obtain ⟨hdefinition, hrules⟩ := recorded_of_compile ha
  obtain heq := Option.some.inj (hlookup.symm.trans hrules)
  refine ⟨Builtin.depositRulebook_load, strictRulebook_load, a, ?_, ?_, ?_⟩
  · exact Session.mem_artifacts_of_parse [.replaceRules strictRulebook] Builtin.deposit_read ha
  · rw [← heq]
    decide
  · rw [hdefinition]
    decide

end Covenant.Compiler
