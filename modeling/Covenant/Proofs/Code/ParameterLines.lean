import Covenant.Proofs.Code.FunctionNames
import Covenant.Proofs.Definition.Bounds
import Covenant.Proofs.Definition.Parameters
import Covenant.Proofs.Number.Shortest
import Covenant.Proofs.Text.Contained

/-! The comments for integer parameters. An integer that a word of 64 bits with a sign holds is written
in the function of its condition as it is. One beyond it is read as well, but goes through double
precision, and is written with its digits only if it is the integer that stands for the number that it
is rounded to. -/
namespace Covenant

open Yaml (Value)
open Rules (Rulebook)

/-! ### Digits -/

namespace Text

theorem isBlank_of_isDigit {c : Char} (h : c.isDigit = true) : isBlank c = false := by
  refine Ident.isBlank_of_isPart ?_
  have hdigit : ('0' ≤ c && c ≤ '9') = true := by
    rwa [Char.isDigit] at h
  rw [Ident.isPart, hdigit, Bool.or_true]

/-- Digits and signs are left as they are. -/
theorem safe_of_digits {s : String} (h : ∀ c ∈ s.toList, c = '-' ∨ c.isDigit = true) :
    safe s = s := by
  have hharmless : Harmless s.toList := by
    intro c hc
    rcases h c hc with rfl | hdigit
    · rfl
    · exact isHarmless_of_isDigit hdigit
  refine safe_eq_self hharmless.clean (fun hmem => (isHarmless_iff.1 (hharmless _ hmem)).1 rfl)
    (tight_of_not_blank fun c hc => ?_)
  rcases h c hc with rfl | hdigit
  · rfl
  · exact isBlank_of_isDigit hdigit

theorem isDigit_of_mem_toString {n : Nat} {c : Char} (hc : c ∈ (toString n).toList) :
    c.isDigit = true := by
  rw [Nat.toString_eq_ofList_toDigits, String.toList_ofList] at hc
  exact Nat.isDigit_of_mem_toDigits (by decide) (by decide) hc

theorem safe_toString (n : Int) : safe (toString n) = toString n := by
  refine safe_of_digits fun c hc => ?_
  cases n with
  | ofNat k => exact .inr (isDigit_of_mem_toString hc)
  | negSucc k =>
    rw [show toString (Int.negSucc k) = "-" ++ toString (k + 1) from rfl, String.toList_append,
      List.mem_append] at hc
    rcases hc with hc | hc
    · exact .inl (List.mem_singleton.1 hc)
    · exact .inr (isDigit_of_mem_toString hc)

end Text

namespace Code

/-! ### The value of a parameter -/

/-- An integer of 64 bits is shown with its digits exactly when it has a sign or stands for the number
that it is rounded to. -/
theorem safe_display_eq_iff {n : Int} (hn : Word.holds 64 n = true) {p : ParamValue}
    (hp : Draft.paramValue? (.number (.int n)) = some p) :
    Text.safe p.display = toString n ↔ n < 2 ^ 63 ∨ Double.Roundest n.toNat := by
  rw [Draft.paramValue?_eq_some_iff] at hp
  cases hp with
  | int h => exact iff_of_true (Text.safe_toString n) (.inl h)
  | wide h =>
    rw [Word.holds, Bool.and_eq_true, decide_eq_true_eq, decide_eq_true_eq] at hn
    have hlow : (2 : Int) ^ 63 ≤ n := h
    have hhigh : n < (2 : Int) ^ 64 := hn.2
    obtain ⟨k, rfl⟩ := Int.eq_ofNat_of_zero_le (show 0 ≤ n by omega)
    obtain ⟨l, -, -, htext⟩ := Double.text_ofNat (k := k) (by omega) (by omega)
    have hshown : Text.safe (ParamValue.double (Double.ofInt (k : Int))).display =
        (Double.ofNat k).text := by
      show Text.safe (Double.ofNat k).text = _
      rw [htext]
      exact Text.safe_toString (l : Int)
    rw [hshown, or_iff_right (by omega), Int.toNat_natCast]
    exact Double.text_ofNat_eq_iff (by omega) (by omega)

theorem parameterComment_eq_iff {name digits : String} {p : ParamValue} :
    parameterComment name p = "    // " ++ Text.safe name ++ " = " ++ digits ↔
      Text.safe p.display = digits :=
  String.append_right_inj _

/-! ### Functions -/

theorem conditionFunctionsFrom_split {es : List (String × Condition)} (start : Nat) {i : Nat}
    {name : String} {c : Condition} (h : es[i]? = some (name, c)) :
    ∃ before after, conditionFunctionsFrom start es =
      before ++ conditionFunction (start + i) name c ++ after := by
  induction es generalizing start i with
  | nil => cases h
  | cons e es ih =>
    cases i with
    | zero =>
      obtain rfl := Option.some.inj h
      exact ⟨[], _, rfl⟩
    | succ i =>
      obtain ⟨before, after, hsplit⟩ := ih (start + 1) h
      refine ⟨conditionFunction start e.1 e.2 ++ before, after, ?_⟩
      rw [conditionFunctionsFrom, hsplit, Nat.add_right_comm, Nat.add_assoc start,
        List.append_assoc, List.append_assoc, List.append_assoc]

/-- Every condition has its function among those of the contract. -/
theorem conditionFunctions_split {cs : List Condition} {i : Nat} {c : Condition}
    (h : cs[i]? = some c) : ∃ name before after,
      conditionFunctions cs = before ++ conditionFunction i name c ++ after := by
  have hlength : (functionNames (cs.map (·.trigger))).length = cs.length := by
    rw [functionNames, length_nameFrom, List.length_map, List.length_map]
  have hlt : i < cs.length := (List.getElem?_eq_some_iff.1 h).1
  obtain ⟨name, hname⟩ : ∃ name, (functionNames (cs.map (·.trigger)))[i]? = some name :=
    ⟨_, List.getElem?_eq_getElem (hlength ▸ hlt)⟩
  have hnamed : (named cs)[i]? = some (name, c) := by
    rw [named, List.getElem?_zip_eq_some]
    exact ⟨hname, h⟩
  obtain ⟨before, after, hsplit⟩ := conditionFunctionsFrom_split 0 hnamed
  rw [Nat.zero_add] at hsplit
  exact ⟨name, before, after, hsplit⟩

theorem parameterComment_mem {i : Nat} {function name : String} {c : Condition} {p : ParamValue}
    (h : c.parameters.get? name = some p) :
    parameterComment name p ∈ conditionFunction i function c := by
  have hmem : parameterComment name p ∈ c.parameters.entries.map fun e => parameterComment e.1 e.2 :=
    List.mem_map.2 ⟨(name, p), Table.mem_entries.2 h, rfl⟩
  simp only [conditionFunction, List.mem_append]
  exact .inl (.inr hmem)

/-- For every accepted definition and every integer that its document gives a condition as a parameter,
the function of the condition has a comment for the parameter. The comment shows just the decimal digits
of the integer if that is below `2 ^ 63`; if it is not, it does so exactly when the integer stands for
the number of double precision that it is rounded to. -/
theorem integer_shown_iff {rules : Rulebook} {vocabulary : Vocabulary} {text : String} {doc : Value}
    {d : Definition} (hdoc : Value.read text = some doc)
    (hread : Definition.read rules vocabulary text = .ok d) {place : Nat} {name : String} {n : Int}
    (hgives : Definition.GivesInteger doc place name n) :
    ∃ c function before after p, d.conditions[place]? = some c ∧
      conditionFunctions d.conditions = before ++ conditionFunction place function c ++ after ∧
      c.parameters.get? name = some p ∧
      parameterComment name p ∈ conditionFunction place function c ∧
      (parameterComment name p = "    // " ++ Text.safe name ++ " = " ++ toString n ↔
        n < 2 ^ 63 ∨ Double.Roundest n.toNat) := by
  have hholds := hgives.holds (Value.sound_of_read hdoc)
  obtain ⟨p, hp⟩ : ∃ p, Draft.paramValue? (.number (.int n)) = some p := by
    rcases lt_or_ge n (Word.count 63 : Int) with hsigned | hwide
    · exact ⟨_, Draft.paramValue?_eq_some_iff.2 (.int hsigned)⟩
    · exact ⟨_, Draft.paramValue?_eq_some_iff.2 (.wide hwide)⟩
  obtain ⟨c, hc, hparameter⟩ := Definition.parameter_of_read hdoc hread hgives hp
  obtain ⟨function, before, after, hsplit⟩ := conditionFunctions_split hc
  refine ⟨c, function, before, after, p, hc, hsplit, hparameter, parameterComment_mem hparameter, ?_⟩
  rw [parameterComment_eq_iff]
  exact safe_display_eq_iff hholds hp

/-! ### Amounts of tokens -/

/-- The parameter of a document that has one condition with one parameter, when that is an integer. -/
def soleInteger? (doc : Value) : Option (String × Int) :=
  ((doc.get? "contract").bind fun contract => Draft.present? contract "conditions").bind fun
    | .sequence [item] => (Draft.present? item "parameters").bind fun
      | .mapping [(.text name, .number (.int n))] => some (name, n)
      | _ => none
    | _ => none

theorem givesInteger_of_sole {doc : Value} {name : String} {n : Int}
    (h : soleInteger? doc = some (name, n)) : Definition.GivesInteger doc 0 name n := by
  obtain ⟨conditions, hconditions, h⟩ := Option.bind_eq_some_iff.1 h
  obtain ⟨contract, hcontract, hconditions⟩ := Option.bind_eq_some_iff.1 hconditions
  split at h
  · next item _ =>
    obtain ⟨parameters, hparameters, h⟩ := Option.bind_eq_some_iff.1 h
    split at h
    · obtain ⟨rfl, rfl⟩ := Prod.mk.inj (Option.some.inj h)
      exact ⟨contract, [item], item, _, hcontract, hconditions, rfl, hparameters, [], _, [], rfl,
        rfl, fun e he => by cases he⟩
    · cases h
  · cases h

/-- A definition with tokens as the only parameter, in double precision. -/
def holding (n : Int) : Definition :=
  { Definition.amounting n with
    conditions := [⟨"delivery_confirmed", "release_funds", none,
      Table.ofList [("tokens", .double (Double.ofInt n))]⟩] }

/-- Ten tokens of eighteen decimal places, which no word with a sign holds. -/
def tenTokens : Builtin.Document := Definition.amountDocument "        tokens: 10000000000000000000"

/-- The largest number of tokens that is read as an integer. -/
def allTokens : Builtin.Document := Definition.amountDocument "        tokens: 18446744073709551615"

/-- A document that is read and accepted, with the integer that it gives. -/
structure GivesTokens (doc : Builtin.Document) (n : Int) (v : Value) : Prop where
  read : Value.read doc.text = some v
  accepted : Definition.read Definition.capRulebook Vocabulary.builtin doc.text = .ok (holding n)
  given : Definition.GivesInteger v 0 "tokens" n

theorem givesTokens_of_spelled {doc : Builtin.Document} {n : Int} {ls : List (List Char)}
    (h : Text.Spelled doc.lines ls)
    (hls : ((((Yaml.tokens (Builtin.spellOut ls)).bind Yaml.Graph.ofTokens).bind
      Yaml.Graph.value?).any fun v => decide (soleInteger? v = some ("tokens", n) ∧
        Definition.ofValue Definition.capRulebook Vocabulary.builtin v = .ok (holding n))) = true) :
    ∃ v, GivesTokens doc n v := by
  obtain ⟨v, hv, hp⟩ := Builtin.value_of_spelled h hls
  obtain ⟨hsole, haccepted⟩ := of_decide_eq_true hp
  refine ⟨v, hv, ?_, givesInteger_of_sole hsole⟩
  rw [Definition.read, hv]
  exact haccepted

theorem tenTokens_given : ∃ v, GivesTokens tenTokens 10000000000000000000 v := by
  apply givesTokens_of_spelled
  · repeat (apply Text.Spelled.cons; exact rfl)
    exact .nil
  · decide +kernel

theorem allTokens_given : ∃ v, GivesTokens allTokens 18446744073709551615 v := by
  apply givesTokens_of_spelled
  · repeat (apply Text.Spelled.cons; exact rfl)
    exact .nil
  · decide +kernel

/-- Ten tokens are shown as they are. -/
theorem tenTokens_shown : ∃ v, GivesTokens tenTokens 10000000000000000000 v ∧
    Double.Roundest 10000000000000000000 ∧
    "    // tokens = 10000000000000000000" ∈
      conditionFunctions (holding 10000000000000000000).conditions := by
  obtain ⟨v, hv⟩ := tenTokens_given
  have hround : Double.Roundest 10000000000000000000 :=
    (Double.text_ofNat_eq_iff (by decide) (by decide)).1 (by decide +kernel)
  obtain ⟨c, function, before, after, p, -, hsplit, -, hmem, hshown⟩ :=
    integer_shown_iff hv.read hv.accepted hv.given
  have hline : parameterComment "tokens" p = "    // tokens = 10000000000000000000" :=
    (hshown.2 (.inr hround)).trans (by decide +kernel)
  refine ⟨v, hv, hround, ?_⟩
  rw [hsplit, ← hline]
  exact List.mem_append_left _ (List.mem_append_right _ hmem)

/-- All tokens are read as the integer that they are, and shown as another one. -/
theorem allTokens_rounded : ∃ v, GivesTokens allTokens 18446744073709551615 v ∧
    "    // tokens = 18446744073709552000" ∈
      conditionFunctions (holding 18446744073709551615).conditions ∧
    "    // tokens = 18446744073709551615" ∉
      conditionFunctions (holding 18446744073709551615).conditions := by
  obtain ⟨v, hv⟩ := allTokens_given
  exact ⟨v, hv, by decide +kernel, by decide +kernel⟩

end Code
end Covenant
