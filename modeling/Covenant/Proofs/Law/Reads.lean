import Covenant.Proofs.Code.Declared
import Covenant.Proofs.Law.Contained
import Covenant.Proofs.Text.LineEnds

/-! The rule constants that the code of a handler reads. The texts of a built-in regime read none,
alone or in the statements made of them; what is left is the check of the ceiling and the deadline
of a dispute, and each of these is written only when its constant is declared. -/
namespace Covenant.Law

open Code (reads constantsRead)

/-! ### Texts of a regime -/

/-- The statements that a regime makes of a text. -/
def statementsOf (cs : List Char) : List (List Char) :=
  [cs, "address public ".toList ++ cs ++ ";".toList, cs ++ " = msg.sender;".toList,
    "if (".toList ++ cs ++ ") \x7b".toList]

/-- No statement made of the text reads a rule constant. -/
def isSilent (cs : List Char) : Bool := (statementsOf cs).all fun l => (constantsRead l).isEmpty

/-- Every text of a feature that stands in code, and not in a comment. -/
def Feature.codeTexts (f : Feature) : List String :=
  f.declarations ++ f.failure :: f.functions.flatten

/-- Every text of a regime that stands in code. -/
def Regime.codeTexts (r : Regime) : List String :=
  r.officer :: r.functions.flatten ++ r.features.flatMap Feature.codeTexts

def Regime.Silent (r : Regime) : Prop := ∀ s ∈ r.codeTexts, isSilent s.toList = true

theorem isSilent_iff {cs : List Char} :
    isSilent cs = true ↔ ∀ l ∈ statementsOf cs, constantsRead l = [] := by
  simp [isSilent]

/-- What is written of a feature reads no rule constant. -/
structure Feature.Silent (f : Feature) : Prop where
  declarations : ∀ l ∈ f.declarations, constantsRead l.toList = []
  failure : constantsRead ("if (".toList ++ f.failure.toList ++ ") \x7b".toList) = []
  functions : ∀ body ∈ f.functions, ∀ l ∈ body, constantsRead l.toList = []

namespace Regime

variable {r : Regime}

theorem Silent.text (h : r.Silent) {s : String} (hs : s ∈ r.codeTexts) :
    constantsRead s.toList = [] :=
  isSilent_iff.1 (h s hs) _ (by simp [statementsOf])

theorem Silent.feature (h : r.Silent) {f : Feature} (hf : f ∈ r.features) : f.Silent := by
  have hmem : ∀ s ∈ f.codeTexts, s ∈ r.codeTexts := fun s hs =>
    List.mem_append_right _ (List.mem_flatMap.2 ⟨f, hf, hs⟩)
  refine ⟨fun l hl => h.text (hmem l ?_), ?_, fun body hbody l hl => h.text (hmem l ?_)⟩
  · exact List.mem_append_left _ hl
  · refine isSilent_iff.1 (h f.failure (hmem _ ?_)) _ (by simp [statementsOf])
    simp [Feature.codeTexts]
  · refine List.mem_append_right _ (List.mem_cons_of_mem _ ?_)
    exact List.mem_flatten.2 ⟨body, hbody, hl⟩

/-! ### What its statements read -/

/-- Every rule constant that a line reads is one that the contract declares. -/
def Declared (ctx : Context) (l : String) : Prop :=
  ∀ constant ∈ constantsRead l.toList,
    ∃ name, ctx.hasConstant name = true ∧ Ident.constantCase name = constant

theorem declared_of_nil {ctx : Context} {l : String} (h : constantsRead l.toList = []) :
    Declared ctx l := by
  simp [Declared, h]

variable (ctx : Context)

theorem declared_commentLine (text : String) : Declared ctx (commentLine text) := by
  refine declared_of_nil ?_
  rw [commentLine, String.toList_append]
  rfl

theorem declared_failIf {condition : String}
    (h : constantsRead ("if (".toList ++ condition.toList ++ ") \x7b".toList) = []) :
    ∀ l ∈ failIf condition, Declared ctx l := by
  have hreturn : constantsRead "    return false;".toList = [] := by decide +kernel
  have hclose : constantsRead "\x7d".toList = [] := by decide +kernel
  simp only [failIf, List.forall_mem_cons]
  refine ⟨declared_of_nil ?_, declared_of_nil hreturn, declared_of_nil hclose, by simp⟩
  rw [String.toList_append, String.toList_append, h]

theorem Silent.state (h : r.Silent) :
    (∀ l ∈ (r.state ctx).declarations, Declared ctx l) ∧
      ∀ l ∈ (r.state ctx).initialization, Declared ctx l := by
  have hofficer := isSilent_iff.1 (h r.officer (by simp [codeTexts]))
  constructor
  · rw [Regime.state, List.forall_mem_cons]
    refine ⟨declared_of_nil ?_, fun l hl => ?_⟩
    · rw [String.toList_append, String.toList_append]
      exact hofficer _ (by simp [statementsOf])
    · obtain ⟨f, hf, hmem⟩ := List.mem_flatMap.1 hl
      exact declared_of_nil ((h.feature (mem_features_of_active ctx hf)).declarations l hmem)
  · rw [Regime.state, List.forall_mem_singleton]
    refine declared_of_nil ?_
    rw [String.toList_append]
    exact hofficer _ (by simp [statementsOf])

theorem declared_check {f : Feature} (h : f.Silent) : ∀ l ∈ f.check, Declared ctx l := by
  rw [Feature.check, List.forall_mem_append]
  refine ⟨fun l hl => ?_, declared_failIf ctx h.failure⟩
  obtain ⟨note, _, rfl⟩ := Option.map_eq_some_iff.1 (Option.mem_toList.1 hl)
  exact declared_commentLine ctx note

/-- The ceiling is checked only when it is declared. -/
theorem declared_ceiling (r : Regime) : ∀ l ∈ r.ceiling ctx, Declared ctx l := by
  unfold Regime.ceiling
  split
  · next hceiling =>
    have hreads : constantsRead "if (amount > MAX_AMOUNT) \x7b".toList = ["MAX_AMOUNT"] := by
      decide +kernel
    have hname : Ident.constantCase "max_amount" = "MAX_AMOUNT" := by decide +kernel
    have hreturn : constantsRead "    return false;".toList = [] := by decide +kernel
    have hclose : constantsRead "\x7d".toList = [] := by decide +kernel
    simp only [failIf, List.forall_mem_cons]
    refine ⟨declared_commentLine ctx _, ?_, declared_of_nil hreturn, declared_of_nil hclose, by simp⟩
    intro constant hconstant
    rw [show "if (" ++ "amount > MAX_AMOUNT" ++ ") \x7b" = "if (amount > MAX_AMOUNT) \x7b" from rfl,
      hreads, List.mem_singleton] at hconstant
    exact ⟨"max_amount", hceiling, hname.trans hconstant.symm⟩
  · simp

theorem Silent.compliance (h : r.Silent) : ∀ l ∈ r.compliance ctx, Declared ctx l := by
  rw [Regime.compliance, List.forall_mem_append]
  refine ⟨fun l hl => ?_, declared_ceiling ctx r⟩
  obtain ⟨f, hf, hmem⟩ := List.mem_flatMap.1 hl
  exact declared_check ctx (h.feature (mem_features_of_active ctx hf)) l hmem

/-- The deadline is the first of the time limits that is declared. -/
theorem declared_deadline (r : Regime) :
    Declared ctx ("disputeDeadline = " ++ r.deadline ctx ++ ";") := by
  unfold deadline
  split
  · next name hname =>
    intro constant hconstant
    refine ⟨name, List.find?_some hname, ?_⟩
    have hchars := Ident.isConstantChar_constantCase name
    generalize Ident.constantCase name = word at hchars hconstant ⊢
    have hplain : ∀ c ∈ word.toList, c ≠ '"' ∧ c ≠ '/' ∧ Code.isNameChar c = true := by
      intro c hc
      have hchar := hchars c hc
      refine ⟨?_, ?_, Code.isNameChar_of_isConstantChar hchar⟩ <;>
      · rintro rfl
        exact Bool.noConfusion hchar
    have hline : ("disputeDeadline = " ++ ("block.timestamp + " ++ word ++ " * 1 days") ++ ";").toList =
        "disputeDeadline = block.timestamp +".toList ++
          ' ' :: (word.toList ++ ' ' :: "* 1 days;".toList) := by simp
    have hrest : ∀ name ∈ Code.names "disputeDeadline = block.timestamp +".toList ++
        Code.names "* 1 days;".toList, Code.isConstantName name = false := by decide +kernel
    rw [hline] at hconstant
    rcases Code.mem_constantsRead_append (by simpa using fun h => (hplain _ h).1 rfl)
      (by simpa using fun h => (hplain _ h).2.1 rfl) (fun c hc => (hplain c hc).2.2) hconstant with
      rfl | ⟨other, hother, hconst, -⟩
    · exact String.ofList_toList.symm
    · rw [hrest other hother] at hconst
      exact Bool.noConfusion hconst
  · have hsilent : constantsRead "disputeDeadline = block.timestamp;".toList = [] := by decide +kernel
    exact declared_of_nil hsilent

theorem declared_dispute (r : Regime) : ∀ l ∈ r.dispute ctx, Declared ctx l := by
  have hemit : constantsRead "emit DisputeEscalated(DISPUTE_FORUM, disputeDeadline);".toList = [] := by
    decide +kernel
  simp only [Regime.dispute, List.forall_mem_cons]
  exact ⟨declared_commentLine ctx _, declared_deadline ctx r, declared_of_nil hemit, by simp⟩

theorem Silent.functionLines (h : r.Silent) : ∀ l ∈ r.functionLines ctx, Declared ctx l := by
  intro l hl
  obtain ⟨body, hbody, hmem⟩ := List.mem_flatMap.1 hl
  rcases List.mem_cons.1 hmem with rfl | hmem
  · exact declared_of_nil rfl
  · rcases List.mem_append.1 hbody with hbody | hbody
    · refine declared_of_nil (h.text ?_)
      have hfunction := List.mem_flatten.2 ⟨body, hbody, hmem⟩
      simp only [codeTexts, List.mem_append, List.mem_cons, hfunction, or_true, true_or]
    · obtain ⟨f, hf, hfunction⟩ := List.mem_flatMap.1 hbody
      exact declared_of_nil
        ((h.feature (mem_features_of_active ctx hf)).functions body hfunction l hmem)

end Regime

/-! ### Handlers -/

/-- The lines that a handler gives for the contract itself. -/
def Handler.contractLines (h : Handler) (ctx : Context) : List String :=
  (h.state ctx).declarations ++ (h.state ctx).initialization ++ h.compliance ctx ++ h.dispute ctx ++
    h.functions ctx

theorem Regime.Silent.lines {r : Regime} (h : r.Silent) (ctx : Context) :
    ∀ l ∈ r.handler.contractLines ctx, Regime.Declared ctx l := by
  simp only [Handler.contractLines, List.forall_mem_append]
  exact ⟨⟨⟨h.state ctx, h.compliance ctx⟩, Regime.declared_dispute ctx r⟩, h.functionLines ctx⟩

/-! ### Built-in regimes -/

theorem Regime.silent_of_spelled {r : Regime} {ls : List (List Char)}
    (h : Text.Spelled r.codeTexts ls) (hls : ls.all isSilent = true) : r.Silent := by
  intro s hs
  refine List.all_eq_true.1 hls s.toList ?_
  rw [← h.chars]
  exact List.mem_map_of_mem hs

theorem silent_india : India.regime.Silent := by
  apply Regime.silent_of_spelled
  · repeat (apply Text.Spelled.cons; exact rfl)
    exact .nil
  · decide +kernel

theorem silent_europeanUnion : EuropeanUnion.regime.Silent := by
  apply Regime.silent_of_spelled
  · repeat (apply Text.Spelled.cons; exact rfl)
    exact .nil
  · decide +kernel

theorem silent_unitedStates : UnitedStates.regime.Silent := by
  apply Regime.silent_of_spelled
  · repeat (apply Text.Spelled.cons; exact rfl)
    exact .nil
  · decide +kernel

theorem silent_builtin {r : Regime} (h : r ∈ Builtin.regimes) : r.Silent := by
  simp only [Builtin.regimes, List.mem_cons, List.not_mem_nil, or_false] at h
  rcases h with rfl | rfl | rfl
  · exact silent_india
  · exact silent_europeanUnion
  · exact silent_unitedStates

/-- What a built-in handler gives for the contract reads constants that the contract declares. -/
theorem reads_contractLines {jurisdiction : String} {h : Handler}
    (hget : Builtin.handlers.get? jurisdiction = some h) (ctx : Context) {l : String}
    (hl : l ∈ h.contractLines ctx) {constant : String} (hreads : constant ∈ reads l.toList) :
    ∃ name, ctx.hasConstant name = true ∧ Ident.constantCase name = constant := by
  obtain ⟨r, hr, rfl⟩ := get?_builtin hget
  have hcontained : Text.Contained l.toList :=
    (contained_builtin hr).lines ctx l (List.mem_append_left _ hl)
  rw [Code.reads_of_line (Text.newline_not_mem_of_clean hcontained.clean)] at hreads
  exact (silent_builtin hr).lines ctx l hl constant hreads

-- names in a string or in a comment are not read
example : reads "if (amount > MAX_AMOUNT) revert(\"FEE_RATE\"); // MIN_AMOUNT".toList =
    ["MAX_AMOUNT"] := by
  decide +kernel

end Covenant.Law
