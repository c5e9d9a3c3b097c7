import Covenant.Proofs.Code.Declared
import Covenant.Proofs.Number.Value

/-! The lines that declare the constants of a rule set. Whether a contract has a constant is looked up
by name, and the lines are written entry by entry under names in capitals. The two agree because a line
determines both its name and its value, and because a constraint is declared exactly when its exact
value is a natural number of 64 bits: a zero with a sign is one, and `2 ^ 64` is not. -/
namespace Covenant

/-- The values that become constants are the natural numbers of 64 bits. -/
theorem Law.wholeConstant_eq_some_iff {x : Double} {k : Nat} :
    wholeConstant x = some k ↔ x.value? = some (k : ℚ) ∧ k < 2 ^ 64 := by
  rw [wholeConstant, Option.filter_eq_some_iff, Double.toNat?_eq_some_iff]
  exact and_congr_right fun _ => decide_eq_true_iff

namespace Code

open Rules (Rulebook RuleSet)

/-! ### Lines -/

/-- The line that declares a constant, with its value as it is written. -/
def constantLine (name value : String) : String :=
  "uint256 public constant " ++ Ident.constantCase name ++ " = " ++ value ++ ";"

/-- The line of a constraint that is not declared. -/
def remarkLine (name : String) (value : Double) : String :=
  "// " ++ name ++ " = " ++ value.text ++ " (not representable as uint256)"

theorem append_blank_inj {as bs cs ds : List Char} (has : ' ' ∉ as) (hbs : ' ' ∉ bs)
    (h : as ++ ' ' :: cs = bs ++ ' ' :: ds) : as = bs ∧ cs = ds := by
  have hpieces := congrArg (Text.pieces ' ') h
  rw [Text.pieces_append has, Text.pieces_append hbs] at hpieces
  obtain rfl := (List.cons.inj hpieces).1
  exact ⟨rfl, (List.cons.inj (List.append_cancel_left h)).2⟩

/-- A line determines the constant that it declares, and its value. -/
theorem constantLine_inj {name other v w : String} (hname : Ident.isIdent name = true)
    (hother : Ident.isIdent other = true) (h : constantLine name v = constantLine other w) :
    name = other ∧ v = w := by
  have hchars : ∀ n s, (constantLine n s).toList = "uint256 public constant ".toList ++
      ((Ident.constantCase n).toList ++ ' ' :: ("= ".toList ++ (s.toList ++ [';']))) := by
    intro n s
    unfold constantLine
    -- the name would be computed when strings are compared
    generalize Ident.constantCase n = word
    simp
  have hlists := congrArg String.toList h
  rw [hchars, hchars, List.append_cancel_left_eq] at hlists
  obtain ⟨hcase, hrest⟩ := append_blank_inj (not_blank_of_isIdent hname).2.1
    (not_blank_of_isIdent hother).2.1 hlists
  rw [List.append_cancel_left_eq, List.append_cancel_right_eq] at hrest
  exact ⟨Ident.constantCase_inj hname hother (String.toList_inj.1 hcase), String.toList_inj.1 hrest⟩

theorem remarkLine_ne (name other v : String) (value : Double) :
    remarkLine name value ≠ constantLine other v := by
  unfold remarkLine constantLine
  generalize value.text = text
  generalize Ident.constantCase other = word
  intro h
  have hhead := congrArg (fun s => s.toList.head?) h
  simp at hhead

theorem constraintLine_of_some {name : String} {x : Double} {k : Nat}
    (h : Law.wholeConstant x = some k) :
    constraintLine name x = constantLine name (toString k) := by
  rw [constraintLine, h]
  rfl

theorem constraintLine_of_none {name : String} {x : Double} (h : Law.wholeConstant x = none) :
    constraintLine name x = remarkLine name x := by
  rw [constraintLine, h]
  rfl

/-- The line of a constraint declares a value just when it is that of the constraint. -/
theorem constraintLine_eq_iff {name other v : String} (hname : Ident.isIdent name = true)
    (hother : Ident.isIdent other = true) {x : Double} :
    constraintLine name x = constantLine other v ↔
      ∃ k, Law.wholeConstant x = some k ∧ name = other ∧ v = toString k := by
  cases hwhole : Law.wholeConstant x with
  | some k =>
    rw [constraintLine_of_some hwhole]
    constructor
    · intro h
      obtain ⟨rfl, rfl⟩ := constantLine_inj hname hother h
      exact ⟨k, rfl, rfl, rfl⟩
    · rintro ⟨l, hl, rfl, rfl⟩
      rw [Option.some.inj hl]
  | none =>
    rw [constraintLine_of_none hwhole]
    refine iff_of_false (remarkLine_ne name other v x) ?_
    rintro ⟨k, hk, -⟩
    cases hk

/-! ### The lines of a rule set -/

variable {r : RuleSet}

theorem mem_timeLimitConstants_iff (h : r.WellFormed) {name : String}
    (hname : Ident.isIdent name = true) {v : String} :
    constantLine name v ∈ timeLimitConstants r ↔
      ∃ days, r.timeLimit? name = some days ∧ v = toString days := by
  rw [timeLimitConstants, List.mem_map]
  constructor
  · rintro ⟨⟨other, days⟩, he, hline⟩
    obtain ⟨rfl, rfl⟩ := constantLine_inj (h.timeLimits _ he).1 hname hline
    exact ⟨days, Table.mem_entries.1 he, rfl⟩
  · rintro ⟨days, hdays, rfl⟩
    exact ⟨(name, days), Table.mem_entries.2 hdays, rfl⟩

theorem mem_constraintConstants_iff (h : r.WellFormed) {name : String}
    (hname : Ident.isIdent name = true) {v : String} :
    constantLine name v ∈ constraintConstants r ↔
      ∃ x k, r.constraint? name = some x ∧ Law.wholeConstant x = some k ∧ v = toString k := by
  rw [constraintConstants, List.mem_map]
  constructor
  · rintro ⟨⟨other, x⟩, he, hline⟩
    obtain ⟨k, hk, rfl, rfl⟩ := (constraintLine_eq_iff (h.constraints _ he).1 hname).1 hline
    exact ⟨x, k, Table.mem_entries.1 he, hk, rfl⟩
  · rintro ⟨x, k, hx, hk, rfl⟩
    exact ⟨(name, x), Table.mem_entries.2 hx, constraintLine_of_some hk⟩

/-- A constant is known by its name exactly when a line declares it. -/
theorem declares_iff_line (h : r.WellFormed) {name : String} (hname : Ident.isIdent name = true) :
    declares r name = true ↔
      ∃ v, constantLine name v ∈ timeLimitConstants r ++ constraintConstants r := by
  simp only [List.mem_append, mem_timeLimitConstants_iff h hname,
    mem_constraintConstants_iff h hname]
  rw [declares, Bool.or_eq_true]
  constructor
  · rintro (hlimit | hwhole)
    · obtain ⟨days, hdays⟩ := Option.isSome_iff_exists.1 hlimit
      exact ⟨_, .inl ⟨days, hdays, rfl⟩⟩
    · obtain ⟨k, hk⟩ := Option.isSome_iff_exists.1 hwhole
      obtain ⟨x, hx, hk⟩ := Option.bind_eq_some_iff.1 hk
      exact ⟨_, .inr ⟨x, k, hx, hk, rfl⟩⟩
  · rintro ⟨v, ⟨days, hdays, -⟩ | ⟨x, k, hx, hk, -⟩⟩
    · exact .inl (Option.isSome_of_eq_some hdays)
    · exact .inr (Option.isSome_of_eq_some (Option.bind_eq_some_iff.2 ⟨x, hx, hk⟩))

/-- What the line of a constraint says: its exact value when that is a natural number of 64 bits, and
a remark otherwise. -/
theorem constraintLine_declares (h : r.WellFormed) {name : String} {x : Double}
    (hx : r.constraint? name = some x) :
    constraintLine name x ∈ constraintConstants r ∧ ∃ value, x.value? = some value ∧
      ((∃ v, constraintLine name x = constantLine name v) ↔
        ∃ k : Nat, k < 2 ^ 64 ∧ value = k) ∧
      ((¬∃ k : Nat, k < 2 ^ 64 ∧ value = k) → constraintLine name x = remarkLine name x) := by
  have hentry := h.constraints _ (Table.mem_entries.2 hx)
  obtain ⟨value, hvalue⟩ := Double.exists_value hentry.2
  have hwhole : ∀ k, Law.wholeConstant x = some k ↔ k < 2 ^ 64 ∧ value = k := by
    intro k
    rw [Law.wholeConstant_eq_some_iff, hvalue, Option.some_inj, and_comm]
  refine ⟨List.mem_map.2 ⟨(name, x), Table.mem_entries.2 hx, rfl⟩, value, hvalue, ?_, ?_⟩
  · constructor
    · rintro ⟨v, hv⟩
      obtain ⟨k, hk, -⟩ := (constraintLine_eq_iff hentry.1 hentry.1).1 hv
      exact ⟨k, (hwhole k).1 hk⟩
    · rintro ⟨k, hk⟩
      exact ⟨_, constraintLine_of_some ((hwhole k).2 hk)⟩
  · intro hnone
    refine constraintLine_of_none (Option.eq_none_iff_forall_ne_some.2 fun k hk => ?_)
    exact hnone ⟨k, (hwhole k).1 hk⟩

/-- For every rule set of a loaded rulebook and every identifier, a contract is said to have the
constant exactly when one of the lines for time limits and constraints declares it, with some value.
That value is then the number of days of the time limit, or the exact value of the constraint, in
decimal digits. The line of a constraint is a declaration exactly when its exact value is a natural
number below `2 ^ 64`, and otherwise a remark. -/
theorem hasConstant_iff_line {texts : List String} {b : Rulebook}
    (hload : Rulebook.load texts = .ok b) {jurisdiction contractType : String} {r : RuleSet}
    (hr : b.lookup jurisdiction contractType = some r) (d : Definition) {name : String}
    (hname : Ident.isIdent name = true) :
    ((⟨d, r⟩ : Law.Context).hasConstant name = true ↔
      ∃ v, constantLine name v ∈ timeLimitConstants r ++ constraintConstants r) ∧
    (∀ v, constantLine name v ∈ timeLimitConstants r ↔
      ∃ days, r.timeLimit? name = some days ∧ v = toString days) ∧
    (∀ v, constantLine name v ∈ constraintConstants r ↔
      ∃ x, ∃ k : Nat, r.constraint? name = some x ∧ x.value? = some (k : ℚ) ∧ k < 2 ^ 64 ∧
        v = toString k) ∧
    ∀ x, r.constraint? name = some x →
      constraintLine name x ∈ constraintConstants r ∧ ∃ value, x.value? = some value ∧
        ((∃ v, constraintLine name x = constantLine name v) ↔
          ∃ k : Nat, k < 2 ^ 64 ∧ value = k) ∧
        ((¬∃ k : Nat, k < 2 ^ 64 ∧ value = k) → constraintLine name x = remarkLine name x) := by
  have hformed := (Rulebook.lookup_sound (Rulebook.sound_of_load hload) hr).1
  refine ⟨declares_iff_line hformed hname, fun v => mem_timeLimitConstants_iff hformed hname,
    fun v => ?_, fun x hx => constraintLine_declares hformed hx⟩
  rw [mem_constraintConstants_iff hformed hname]
  simp only [Law.wholeConstant_eq_some_iff, and_assoc]

/-! ### A rule set with values at the edge -/

/-- A fraction, a power of two that is out of range by one, and a zero with a sign. -/
def edgeSource : String :=
  "\x7bus: \x7bescrow: \x7blegal_requirements: [kyc_verification], time_limits: \x7bnotice_days: 3\x7d, " ++
    "constraints: \x7bfee_rate: 1.5, max_amount: 18446744073709551616, min_amount: -0.0\x7d\x7d\x7d\x7d"

def edgeRules : RuleSet :=
  ⟨"us", "escrow", ["kyc_verification"], [], Table.ofList [("notice_days", 3)],
    Table.ofList [("fee_rate", .ofRatio false 3 2), ("max_amount", .ofNat (2 ^ 64)),
      ("min_amount", .finite true 0 0)]⟩

def edgeRulebook : Rulebook := ⟨Table.ofList [("us", Table.ofList [("escrow", edgeRules)])]⟩

theorem edgeRulebook_load : Rulebook.load [edgeSource] = .ok edgeRulebook := by
  decide +kernel

theorem edgeRulebook_lookup : edgeRulebook.lookup "us" "escrow" = some edgeRules := by
  decide +kernel

/-- The zero is declared, the number that is out of range is not. -/
theorem edge_lines : Rulebook.load [edgeSource] = .ok edgeRulebook ∧
    edgeRulebook.lookup "us" "escrow" = some edgeRules ∧
    Ident.isIdent "min_amount" = true ∧ Ident.isIdent "max_amount" = true ∧
    constantLine "min_amount" "0" ∈ constraintConstants edgeRules ∧
    (⟨⟨"escrow", "us", [], [], [], {}⟩, edgeRules⟩ : Law.Context).hasConstant "min_amount" = true ∧
    ¬∃ v, constantLine "max_amount" v ∈
      timeLimitConstants edgeRules ++ constraintConstants edgeRules := by
  have hmin : Ident.isIdent "min_amount" = true := by decide +kernel
  have hmax : Ident.isIdent "max_amount" = true := by decide +kernel
  let d : Definition := ⟨"escrow", "us", [], [], [], {}⟩
  obtain ⟨hknown, -, hline, -⟩ :=
    hasConstant_iff_line edgeRulebook_load edgeRulebook_lookup d hmin
  have hzero : constantLine "min_amount" "0" ∈ constraintConstants edgeRules :=
    (hline "0").2 ⟨.finite true 0 0, 0, by decide +kernel,
      Double.toNat?_eq_some_iff.1 (by decide +kernel), by decide, by decide⟩
  refine ⟨edgeRulebook_load, edgeRulebook_lookup, hmin, hmax, hzero,
    hknown.2 ⟨"0", List.mem_append_right _ hzero⟩, ?_⟩
  rw [← (hasConstant_iff_line edgeRulebook_load edgeRulebook_lookup d hmax).1]
  decide +kernel

end Code
end Covenant
