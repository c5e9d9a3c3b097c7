import Mathlib.Data.List.Nodup
import Covenant.Law.Context
import Covenant.Proofs.Code.Names
import Covenant.Proofs.Ident
import Covenant.Proofs.Rules.Loaded
import Covenant.Proofs.Text.Clean

/-! The constants that a contract declares for its rules. A time limit is always declared, a
constraint only when its value is a whole number of 64 bits, and writing the names in capitals keeps
identifiers apart. So two of the names meet exactly when one identifier names a time limit and a
constraint that are both declared: each of the two tables is free of duplicates, but nothing
compares one with the other, nor with the names that the templates declare themselves. -/
namespace Covenant

/-! ### Names in capitals -/

namespace Ident

/-- The small letter of a capital. -/
def smallChar (c : Char) : Char := if 'A' ≤ c && c ≤ 'Z' then Char.ofNat (c.toNat + 32) else c

theorem smallChar_constant {c : Char} (h : isPart c = true) :
    smallChar (if isAlphanumeric c then upperChar c else '_') = c := by
  have hcodes : ∀ n < 128, isPart (Char.ofNat n) = true →
      smallChar (if isAlphanumeric (Char.ofNat n) then upperChar (Char.ofNat n) else '_') =
        Char.ofNat n := by decide
  have hlt : c.toNat < 128 := by
    rw [isPart_iff] at h
    omega
  simpa using hcodes c.toNat hlt (by simpa using h)

theorem small_constantCase {s : String} (h : isIdent s = true) :
    (constantCase s).toList.map smallChar = s.toList := by
  rw [constantCase, String.toList_ofList, List.map_map]
  conv_rhs => rw [← List.map_id s.toList]
  exact List.map_congr_left fun c hc => smallChar_constant (isPart_of_isIdent h c hc)

/-- Identifiers are kept apart in capitals. -/
theorem constantCase_inj {s t : String} (hs : isIdent s = true) (ht : isIdent t = true)
    (h : constantCase s = constantCase t) : s = t := by
  rw [← String.toList_inj, ← small_constantCase hs, ← small_constantCase ht, h]

theorem constantCase_ne_nil {s : String} (h : isIdent s = true) : (constantCase s).toList ≠ [] := by
  intro hnil
  have hs := small_constantCase h
  rw [hnil, List.map_nil] at hs
  rw [isIdent, ← hs] at h
  exact Bool.noConfusion h

theorem isConstantChar_constant (c : Char) :
    Code.isConstantChar (if isAlphanumeric c then upperChar c else '_') = true := by
  have hcodes : ∀ n < 128, isAlphanumeric (Char.ofNat n) = true →
      Code.isConstantChar (upperChar (Char.ofNat n)) = true := by decide
  split
  · next h =>
    have hlt : c.toNat < 128 := by
      simp only [isAlphanumeric, Bool.or_eq_true, Bool.and_eq_true, decide_eq_true_eq, Char.le_def,
        UInt32.le_iff_toNat_le] at h
      simp only [Char.toNat]
      have hz : ('z'.val.toNat = 122) := rfl
      have hZ : ('Z'.val.toNat = 90) := rfl
      have hnine : ('9'.val.toNat = 57) := rfl
      omega
    simpa using hcodes c.toNat hlt (by simpa using h)
  · rfl

theorem isConstantChar_constantCase (s : String) :
    ∀ c ∈ (constantCase s).toList, Code.isConstantChar c = true := by
  rw [constantCase, String.toList_ofList]
  intro c hc
  obtain ⟨d, _, rfl⟩ := List.mem_map.1 hc
  exact isConstantChar_constant d

end Ident

namespace Code

open Rules (RuleSet)

/-! ### Lines -/

theorem words_append {word : List Char} (hblank : ' ' ∉ word) (hne : word ≠ []) (rest : List Char) :
    words (word ++ ' ' :: rest) = word :: words rest := by
  simp [words, Text.pieces_append hblank, hne]

theorem not_blank_of_isIdent {name : String} (h : Ident.isIdent name = true) :
    ' ' ∉ name.toList ∧ ' ' ∉ (Ident.constantCase name).toList ∧ name.toList ≠ [] := by
  refine ⟨fun hmem => ?_, fun hmem => ?_, fun hnil => ?_⟩
  · exact Bool.noConfusion (Ident.isPart_of_isIdent h _ hmem)
  · exact Bool.noConfusion (Ident.isConstantChar_constantCase _ _ hmem)
  · rw [Ident.isIdent, hnil] at h
    exact Bool.noConfusion h

theorem declared?_declareConstant {name : String} (h : Ident.isIdent name = true) (value : Nat) :
    declared? (declareConstant name value).toList = some (Ident.constantCase name) := by
  obtain ⟨-, hblank, -⟩ := not_blank_of_isIdent h
  have hline : (declareConstant name value).toList =
      "uint256".toList ++ ' ' :: ("public".toList ++ ' ' :: ("constant".toList ++
        ' ' :: ((Ident.constantCase name).toList ++ ' ' :: ("= " ++ toString value ++ ";").toList))) := by
    unfold declareConstant
    -- the number would be computed when strings are compared
    generalize Ident.constantCase name = word
    generalize toString value = digits
    simp
  rw [declared?, hline, words_append (by simp) (by simp), words_append (by simp) (by simp),
    words_append (by simp) (by simp), words_append hblank (Ident.constantCase_ne_nil h)]
  simp

/-- A constraint is declared when its value is a whole number of 64 bits, else it is a comment. -/
theorem declared?_constraintLine {name : String} (h : Ident.isIdent name = true) (value : Double) :
    declared? (constraintLine name value).toList =
      (Law.wholeConstant value).map fun _ => Ident.constantCase name := by
  unfold constraintLine
  split
  · next n hn => rw [declared?_declareConstant h, hn]; rfl
  · next hn =>
    obtain ⟨hblank, -, hne⟩ := not_blank_of_isIdent h
    have hline : ("// " ++ name ++ " = " ++ value.text ++ " (not representable as uint256)").toList =
        "//".toList ++ ' ' :: (name.toList ++ ' ' :: (['='] ++
          ' ' :: (value.text ++ " (not representable as uint256)").toList)) := by
      simp
    rw [declared?, hline, words_append (by simp) (by simp), words_append hblank hne,
      words_append (by simp) (by simp), hn]
    split
    · next heq =>
      simp only [List.cons.injEq] at heq
      obtain ⟨-, -, rfl, -⟩ := heq
      simp
    · rfl

/-! ### Rule sets -/

/-- The lines of a contract that declare its time limits and constraints, as characters. -/
def ruleConstants (r : RuleSet) : List (List Char) :=
  (timeLimitConstants r ++ constraintConstants r).map String.toList

/-- The constraints with whole values, by name. -/
def wholeConstraints (r : RuleSet) : List String :=
  (r.constraints.entries.filter fun e => (Law.wholeConstant e.2).isSome).map (·.1)

/-- A rule set names a constant: a time limit, or a constraint with a whole value. -/
def declares (r : RuleSet) (name : String) : Bool :=
  (r.timeLimit? name).isSome || ((r.constraint? name).bind Law.wholeConstant).isSome

variable {r : RuleSet}

theorem declaredNames_timeLimits (h : r.WellFormed) :
    declaredNames ((timeLimitConstants r).map String.toList) =
      r.timeLimits.keys.map Ident.constantCase := by
  simp only [declaredNames, timeLimitConstants, Table.keys, List.map_map, List.filterMap_map]
  rw [← List.filterMap_eq_map]
  refine List.filterMap_congr fun e he => ?_
  simp only [Function.comp_apply]
  rw [declared?_declareConstant (h.timeLimits e he).1]

theorem declaredNames_constraints (h : r.WellFormed) :
    declaredNames ((constraintConstants r).map String.toList) =
      (wholeConstraints r).map Ident.constantCase := by
  simp only [declaredNames, constraintConstants, wholeConstraints, List.map_map,
    List.filterMap_map]
  rw [← List.filterMap_eq_map, List.filterMap_filter]
  refine List.filterMap_congr fun e he => ?_
  refine (declared?_constraintLine (h.constraints e he).1 _).trans ?_
  cases Law.wholeConstant e.2 <;> rfl

theorem declaredNames_ruleConstants (h : r.WellFormed) :
    declaredNames (ruleConstants r) =
      (r.timeLimits.keys ++ wholeConstraints r).map Ident.constantCase := by
  rw [List.map_append, ← declaredNames_timeLimits h, ← declaredNames_constraints h, ruleConstants,
    List.map_append, declaredNames, List.filterMap_append]
  rfl

-- a fraction is no whole number, and no constant is declared for it
example : declaredNames (ruleConstants ⟨"us", "escrow", [], [], Table.ofList [("notice_days", 3)],
    Table.ofList [("fee_rate", .ofRatio false 3 2), ("max_amount", .ofNat 5)]⟩) =
      ["NOTICE_DAYS", "MAX_AMOUNT"] := by
  decide +kernel

theorem mem_wholeConstraints {name : String} :
    name ∈ wholeConstraints r ↔ ((r.constraint? name).bind Law.wholeConstant).isSome = true := by
  simp only [wholeConstraints, List.mem_map, List.mem_filter, Option.isSome_bind]
  constructor
  · rintro ⟨⟨_, value⟩, ⟨he, hvalue⟩, rfl⟩
    rw [RuleSet.constraint?, Table.mem_entries.1 he]
    exact hvalue
  · intro h
    cases hget : r.constraint? name with
    | none => simp [hget] at h
    | some value => exact ⟨(name, value), ⟨Table.mem_entries.2 hget, by simpa [hget] using h⟩, rfl⟩

theorem mem_names_iff {name : String} :
    name ∈ r.timeLimits.keys ++ wholeConstraints r ↔ declares r name = true := by
  rw [List.mem_append, Table.mem_keys, mem_wholeConstraints, declares, Bool.or_eq_true]
  rfl

theorem isIdent_of_declares (h : r.WellFormed) {name : String} (hname : declares r name = true) :
    Ident.isIdent name = true := by
  rcases List.mem_append.1 (mem_names_iff.2 hname) with hmem | hmem
  · obtain ⟨e, he, rfl⟩ := List.mem_map.1 hmem
    exact (h.timeLimits e he).1
  · obtain ⟨e, he, rfl⟩ := List.mem_map.1 hmem
    exact (h.constraints e (List.mem_filter.1 he).1).1

/-- The constants declared are those that the rule set names. -/
theorem mem_declaredNames_iff (h : r.WellFormed) {constant : String} :
    constant ∈ declaredNames (ruleConstants r) ↔
      ∃ name, declares r name = true ∧ Ident.constantCase name = constant := by
  simp only [declaredNames_ruleConstants h, List.mem_map, mem_names_iff]

theorem constantCase_mem_iff (h : r.WellFormed) {name : String} (hname : Ident.isIdent name = true) :
    Ident.constantCase name ∈ declaredNames (ruleConstants r) ↔ declares r name = true := by
  rw [mem_declaredNames_iff h]
  constructor
  · rintro ⟨other, hother, heq⟩
    rwa [← Ident.constantCase_inj (isIdent_of_declares h hother) hname heq]
  · exact fun hdeclares => ⟨name, hdeclares, rfl⟩

theorem wholeConstraints_nodup (r : RuleSet) : (wholeConstraints r).Nodup :=
  r.constraints.keys_nodup.sublist (List.filter_sublist.map _)

/-- No two declared constants have one name just when no name is both a time limit and a constraint
that is declared. -/
theorem nodup_declaredNames_iff (h : r.WellFormed) :
    (declaredNames (ruleConstants r)).Nodup ↔
      ∀ name, (r.timeLimit? name).isSome = true →
        (r.constraint? name).bind Law.wholeConstant = none := by
  have hinj : ∀ x ∈ r.timeLimits.keys ++ wholeConstraints r,
      ∀ y ∈ r.timeLimits.keys ++ wholeConstraints r,
        Ident.constantCase x = Ident.constantCase y → x = y := fun x hx y hy =>
    Ident.constantCase_inj (isIdent_of_declares h (mem_names_iff.1 hx))
      (isIdent_of_declares h (mem_names_iff.1 hy))
  have hmap : (declaredNames (ruleConstants r)).Nodup ↔
      (r.timeLimits.keys ++ wholeConstraints r).Nodup := by
    rw [declaredNames_ruleConstants h]
    exact ⟨List.Nodup.of_map _, List.Nodup.map_on hinj⟩
  rw [hmap, List.nodup_append]
  constructor
  · rintro ⟨-, -, hapart⟩ name hlimit
    by_contra hwhole
    refine hapart name (Table.mem_keys.2 hlimit) name (mem_wholeConstraints.2 ?_) rfl
    exact Option.isSome_iff_ne_none.2 hwhole
  · refine fun hfree => ⟨r.timeLimits.keys_nodup, wholeConstraints_nodup r, ?_⟩
    rintro name hlimit _ hwhole rfl
    rw [mem_wholeConstraints, hfree name (Table.mem_keys.1 hlimit)] at hwhole
    exact Bool.noConfusion hwhole

/-- The constants of the rules are apart from those of the templates just when the rule set names
none of the latter. -/
theorem forall_notMem_ownConstants_iff (h : r.WellFormed) :
    (∀ name ∈ declaredNames (ruleConstants r), name ∉ ownConstants) ↔
      ∀ name ∈ ["contract_type", "jurisdiction", "dispute_forum", "legal_requirement_count"],
        declares r name = false := by
  have hown : ownConstants = ["contract_type", "jurisdiction", "dispute_forum",
      "legal_requirement_count"].map Ident.constantCase := by decide +kernel
  have hidents : ∀ name ∈ ["contract_type", "jurisdiction", "dispute_forum",
      "legal_requirement_count"], Ident.isIdent name = true := by decide +kernel
  constructor
  · intro hapart name hname
    by_contra hdeclares
    refine hapart _ ((constantCase_mem_iff h (hidents name hname)).2 (by simpa using hdeclares)) ?_
    rw [hown]
    exact List.mem_map_of_mem hname
  · intro hfree constant hconstant hmem
    rw [hown, List.mem_map] at hmem
    obtain ⟨name, hname, rfl⟩ := hmem
    rw [constantCase_mem_iff h (hidents name hname), hfree name hname] at hconstant
    exact Bool.noConfusion hconstant

end Code
end Covenant
