import Covenant.Proofs.Artifact.Filling
import Covenant.Proofs.Builtin.Spelled
import Covenant.Proofs.Code.Names
import Covenant.Proofs.Definition.Accepted
import Covenant.Proofs.Ident

/-! The name of a contract. It is the type of the contract in capitals, without its underscores, and
so consists of letters and digits. An identifier does not start with a digit, but it may have one
after the underscores that it starts with, and the name of the contract starts with that. -/
namespace Covenant

/-! ### The first character -/

namespace Ident

theorem head?_capitalized (cs : List Char) :
    ((Text.pieces '_' cs).flatMap capitalize).head? = (cs.find? (· != '_')).map upperChar := by
  induction cs with
  | nil => rfl
  | cons c cs ih =>
    by_cases hc : c = '_'
    · subst hc
      exact ih
    · obtain ⟨p, ps, hps⟩ := List.exists_cons_of_ne_nil (Text.pieces_ne_nil '_' cs)
      have hpieces : Text.pieces '_' (c :: cs) = (c :: p) :: ps := by simp [Text.pieces, hc, hps]
      rw [hpieces, List.find?_cons_of_pos (by simpa using hc)]
      rfl

/-- The words of an identifier start with its first character that is no underscore. -/
theorem head?_pascalCase (s : String) :
    (pascalCase s).toList.head? = (s.toList.find? (· != '_')).map upperChar := by
  rw [pascalCase, String.toList_ofList, head?_capitalized]

end Ident

namespace Code

/-- Digits have no capitals, and no capital is a digit. -/
theorem isDigit_upperChar (c : Char) : isDigit (Ident.upperChar c) = isDigit c := by
  cases h : isDigit c with
  | false =>
    have hnot := Ident.upperChar_of (p := fun c => !isDigit c) (by decide) (c := c) (by simp [h])
    simpa using hnot
  | true =>
    have hlarge : ('a' ≤ c && c ≤ 'z') = false := by
      simp only [isDigit, Bool.and_eq_true, decide_eq_true_eq, Bool.and_eq_false_iff,
        decide_eq_false_iff_not, Char.le_def, UInt32.le_iff_toNat_le] at h ⊢
      have ha : ('a'.val.toNat = 97) := rfl
      have h9 : ('9'.val.toNat = 57) := rfl
      omega
    rw [Ident.upperChar, hlarge, if_neg Bool.false_ne_true, h]

theorem isNameChar_of_isPart {c : Char} (h : Ident.isPart c = true) : isNameChar c = true := by
  simp only [Ident.isPart, Ident.isStart, isNameChar, isDigit, Bool.or_eq_true] at h ⊢
  tauto

theorem isNameChar_pascalCase {s : String} (h : Ident.isIdent s = true) :
    ∀ c ∈ (Ident.pascalCase s).toList, isNameChar c = true :=
  Ident.pascalCase_of (by decide) fun c hc => isNameChar_of_isPart (Ident.isPart_of_isIdent h c hc)

/-- A name in the target languages: letters, digits, underscores and dollar signs, and no digit at
the start. -/
structure IsName (cs : List Char) : Prop where
  nonempty : cs ≠ []
  chars : ∀ c ∈ cs, isNameChar c = true
  start : ∀ c ∈ cs.head?, isDigit c = false

end Code

/-! ### Contracts -/

namespace Artifact

open Builtin (plainDefinition plainDocument plainRules)
open Rules (Rulebook RuleSet)
open Template (Resolved)
open Code (IsName isNameChar isDigit)

theorem toList_contractName (d : Definition) :
    (contractName d).toList = (Ident.pascalCase d.contractType).toList ++ "Contract".toList :=
  String.toList_append

theorem contractName_chars {d : Definition} (h : Ident.isIdent d.contractType = true) :
    ∀ c ∈ (contractName d).toList, isNameChar c = true := by
  rw [toList_contractName, List.forall_mem_append]
  exact ⟨Code.isNameChar_pascalCase h, List.all_eq_true.1 (by decide)⟩

theorem contractName_start_iff {d : Definition} :
    (∀ c ∈ (contractName d).toList.head?, isDigit c = false) ↔
      ∀ c ∈ d.contractType.toList.find? (· != '_'), isDigit c = false := by
  rw [toList_contractName, List.head?_append, Ident.head?_pascalCase]
  cases d.contractType.toList.find? (· != '_') with
  | none => simp [isDigit]
  | some c => simp [Code.isDigit_upperChar]

/-- The slot for the name of a contract is filled with letters and digits, one at least, for every
definition that is accepted. They are a name exactly when the first character of the type of the
contract that is no underscore, if it has one, is no digit. -/
theorem contractName_isName_iff {rules : Rulebook} {vocabulary : Vocabulary} {text : String}
    {d : Definition} (hd : Definition.read rules vocabulary text = .ok d) :
    (∀ (s : RuleSet) (r : Resolved) (h : Law.Handler) (f : Fills),
      Fills.build ⟨d, s⟩ r h = .ok f →
        f.get? "contract_name" = some (.scalar (contractName d))) ∧
    contractName d ≠ "" ∧ (∀ c ∈ (contractName d).toList, isNameChar c = true) ∧
    (IsName (contractName d).toList ↔
      ∀ c ∈ d.contractType.toList.find? (· != '_'), isDigit c = false) := by
  have hchars := contractName_chars (Definition.accepted_of_read hd).contractType
  have hne : (contractName d).toList ≠ [] := by
    rw [toList_contractName]
    simp
  refine ⟨fun s r h f hf => ?_, fun hempty => hne (by rw [hempty]; rfl), hchars, ?_⟩
  · rw [get?_build hf]
    simp [facts, scalars]
  · rw [← contractName_start_iff]
    exact ⟨fun h => h.start, fun h => ⟨hne, hchars, h⟩⟩

/-! Two types that start with underscores, one of them with a digit after that. -/

def oddTypes : String :=
  "\x7bindia: \x7b_2fa: \x7blegal_requirements: [kyc_verification]\x7d, " ++
    "__net_30: \x7blegal_requirements: [kyc_verification]\x7d\x7d\x7d"

def oddRulebook : Rulebook :=
  ⟨Table.ofList [("india", Table.ofList [
    ("_2fa", plainRules "india" "_2fa"), ("__net_30", plainRules "india" "__net_30")])]⟩

theorem oddRulebook_load : Rulebook.load [oddTypes] = .ok oddRulebook := by decide +kernel

theorem net30_read : Definition.read oddRulebook .builtin
    (plainDocument "  type: __net_30" "  jurisdiction: india").text =
      .ok (plainDefinition "__net_30" "india") := by
  apply Builtin.definition_of_spelled
  · repeat (apply Text.Spelled.cons; exact rfl)
    exact .nil
  · decide +kernel

theorem net30_isName :
    Definition.read oddRulebook .builtin
        (plainDocument "  type: __net_30" "  jurisdiction: india").text =
          .ok (plainDefinition "__net_30" "india") ∧
      contractName (plainDefinition "__net_30" "india") = "Net30Contract" ∧
      IsName (contractName (plainDefinition "__net_30" "india")).toList := by
  have hfirst : "__net_30".toList.find? (· != '_') = some 'n' := by decide +kernel
  refine ⟨net30_read, by decide +kernel, (contractName_isName_iff net30_read).2.2.2.2 ?_⟩
  intro c hc
  obtain rfl : 'n' = c := Option.some.inj (hfirst.symm.trans hc)
  rfl

theorem secondFactor_read : Definition.read oddRulebook .builtin
    (plainDocument "  type: _2fa" "  jurisdiction: india").text =
      .ok (plainDefinition "_2fa" "india") := by
  apply Builtin.definition_of_spelled
  · repeat (apply Text.Spelled.cons; exact rfl)
    exact .nil
  · decide +kernel

/-- A template of nothing. -/
def bare : Resolved :=
  ⟨⟨"_2fa", "1", ∅, ∅, ⟨⟨[], []⟩, ⟨[], []⟩, ⟨[], []⟩⟩⟩, none, "india"⟩

/-- The type `_2fa` is an identifier, and what the slot for the name of its contract is filled with
is no name. -/
theorem secondFactor_not_isName :
    Rulebook.load [oddTypes] = .ok oddRulebook ∧
      Definition.read oddRulebook .builtin
          (plainDocument "  type: _2fa" "  jurisdiction: india").text =
        .ok (plainDefinition "_2fa" "india") ∧
      oddRulebook.lookup "india" "_2fa" = some (plainRules "india" "_2fa") ∧
      (∀ h : Law.Handler, ∃ f,
        Fills.build ⟨plainDefinition "_2fa" "india", plainRules "india" "_2fa"⟩ bare h = .ok f ∧
          f.get? "contract_name" = some (.scalar "2faContract")) ∧
      ¬IsName "2faContract".toList := by
  have hname : contractName (plainDefinition "_2fa" "india") = "2faContract" := by decide +kernel
  refine ⟨oddRulebook_load, secondFactor_read, by decide +kernel, fun h => ?_, fun h => ?_⟩
  · obtain ⟨f, hf⟩ := exists_build (r := bare)
      ⟨plainDefinition "_2fa" "india", plainRules "india" "_2fa"⟩ h
      fun slot hslot => (List.not_mem_nil hslot).elim
    refine ⟨f, hf, ?_⟩
    rw [get?_build hf, ← hname]
    simp [facts, scalars]
  · have hdigit := h.start '2' rfl
    cases hdigit

end Artifact
end Covenant
