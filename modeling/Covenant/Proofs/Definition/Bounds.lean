import Covenant.Proofs.Builtin.Spelled
import Covenant.Proofs.Definition.Rereading
import Covenant.Proofs.Number.Integer
import Covenant.Proofs.Rules.Limits

/-! Integers and the bounds of constraints. An integer is compared with a limit in double precision,
so an accepted definition keeps the limit as exact numbers, or it has an integer that is rounded to
the limit itself. That takes more than 53 bits. -/
namespace Covenant.Definition

open Rules (Rulebook RuleSet)

/-- An integer other than the limit that is rounded to it. -/
structure RoundedOnto (n : Int) (limit : ℚ) : Prop where
  rounded : (Double.ofInt n).value? = some limit
  large : 2 ^ 53 < n.natAbs
  near : 2 ^ 53 * |(n : ℚ) - limit| ≤ |(n : ℚ)|

theorem roundedOnto_of_ne {n : Int} {v : ℚ} (h : (Double.ofInt n).value? = some v)
    (hne : (n : ℚ) ≠ v) : RoundedOnto n v where
  rounded := h
  large := by
    by_contra hsmall
    rw [Double.ofInt_value?_of_small (not_lt.1 hsmall)] at h
    exact hne (Option.some.inj h)
  near := Double.near_of_ofInt_value? h

section Within

variable {p : String} (hp : p ≠ "") {limit : Double} (hlimit : limit.Precise) {v : ℚ}
  (hv : limit.value? = some v) {n : Int}

include hp hlimit hv

theorem withinBound_max_iff : WithinBound ("max_" ++ p) limit p (.int n) ↔
    n ≤ v ∨ (Double.ofInt n).value? = some v := by
  rw [← Double.ofInt_le_iff_of_value? hlimit hv]
  constructor
  · intro h
    obtain ⟨x, hx, hle⟩ := (h hp).1 rfl
    rwa [← Option.some.inj hx] at hle
  · intro h _
    refine ⟨fun _ => ⟨_, rfl, h⟩, fun hname => ?_⟩
    have hchars := congrArg String.toList hname
    simp at hchars

theorem withinBound_min_iff : WithinBound ("min_" ++ p) limit p (.int n) ↔
    v ≤ n ∨ (Double.ofInt n).value? = some v := by
  rw [← Double.le_ofInt_iff_of_value? hlimit hv]
  constructor
  · intro h
    obtain ⟨x, hx, hle⟩ := (h hp).2 rfl
    rwa [← Option.some.inj hx] at hle
  · intro h _
    refine ⟨fun hname => ?_, fun _ => ⟨_, rfl, h⟩⟩
    have hchars := congrArg String.toList hname
    simp at hchars

end Within

/-- Whatever the sources of the rules and the text of the definition: an integer of an accepted
definition is at most every limit from above and at least every limit from below, as exact numbers,
unless it is rounded onto the limit. -/
theorem integers_bounded {texts : List String} {rules : Rulebook}
    (hload : Rulebook.load texts = .ok rules) {vocabulary : Vocabulary} {text : String}
    {d : Definition} (h : read rules vocabulary text = .ok d) :
    ∃ r, rules.lookup d.jurisdiction d.contractType = some r ∧
      ∀ p ≠ "", ∀ c ∈ d.conditions, ∀ n, c.parameters.get? p = some (.int n) →
        (∀ limit, r.constraint? ("max_" ++ p) = some limit →
          ∃ v, limit.value? = some v ∧ (n ≤ v ∨ RoundedOnto n v)) ∧
        ∀ limit, r.constraint? ("min_" ++ p) = some limit →
          ∃ v, limit.value? = some v ∧ (v ≤ n ∨ RoundedOnto n v) := by
  obtain ⟨r, hr, hcomplies⟩ := complies_of_read h
  refine ⟨r, hr, fun p hp c hc n hn => ⟨fun limit hlimit => ?_, fun limit hlimit => ?_⟩⟩
  · obtain ⟨hprecise, v, hv⟩ := Rulebook.limit_of_load hload hr hlimit
    refine ⟨v, hv, ?_⟩
    rcases le_or_gt (n : ℚ) v with hle | hgt
    · exact .inl hle
    · have hwithin := hcomplies.bounds _ _ hlimit c hc p _ hn
      have hrounded := ((withinBound_max_iff hp hprecise hv).1 hwithin).resolve_left (not_le.2 hgt)
      exact .inr (roundedOnto_of_ne hrounded hgt.ne')
  · obtain ⟨hprecise, v, hv⟩ := Rulebook.limit_of_load hload hr hlimit
    refine ⟨v, hv, ?_⟩
    rcases le_or_gt v (n : ℚ) with hle | hgt
    · exact .inl hle
    · have hwithin := hcomplies.bounds _ _ hlimit c hc p _ hn
      have hrounded := ((withinBound_min_iff hp hprecise hv).1 hwithin).resolve_left (not_le.2 hgt)
      exact .inr (roundedOnto_of_ne hrounded hgt.ne)

-- the first integer that is rounded, onto the one before it
example : Double.ofInt 9007199254740993 = Double.ofInt 9007199254740992 := by decide +kernel

/-! Rules with a ceiling of amounts at the first integer past which not every one is a number of
double precision. -/

def cap : Int := 9007199254740992

def capSource : String :=
  "\x7bindia: \x7bescrow: \x7blegal_requirements: [kyc_verification], " ++
    "constraints: \x7bmax_amount: 9007199254740992\x7d\x7d\x7d\x7d"

def capRules : RuleSet :=
  ⟨"india", "escrow", ["kyc_verification"], [], ∅, Table.ofList [("max_amount", .ofInt cap)]⟩

def capRulebook : Rulebook := ⟨Table.ofList [("india", Table.ofList [("escrow", capRules)])]⟩

/-- The document of an escrow, with the line of its amount. -/
def amountDocument (line : String) : Builtin.Document :=
  ⟨"amount.yaml", [
    "contract:",
    "  type: escrow",
    "  jurisdiction: india",
    "  parties:",
    "    - \x7bname: A, role: payer\x7d",
    "    - \x7bname: B, role: payee\x7d",
    "  conditions:",
    "    - trigger: delivery_confirmed",
    "      action: release_funds",
    "      parameters:",
    line,
    "  legal_requirements: [kyc_verification]"]⟩

def amounting (n : Int) : Definition :=
  ⟨"escrow", "india", [⟨"A", ⟨"payer", .payer⟩, none, true⟩, ⟨"B", ⟨"payee", .payee⟩, none, true⟩],
    [⟨"delivery_confirmed", "release_funds", none, Table.ofList [("amount", .int n)]⟩],
    ["kyc_verification"], {}⟩

theorem capRulebook_loaded : Rulebook.load [capSource] = .ok capRulebook := by
  decide +kernel

theorem capRulebook_lookup : capRulebook.lookup "india" "escrow" = some capRules := by
  decide +kernel

/-- An amount at the ceiling. -/
theorem cap_read : read capRulebook Vocabulary.builtin
    (amountDocument "        amount: 9007199254740992").text = .ok (amounting cap) := by
  apply Builtin.definition_of_spelled
  · repeat (apply Text.Spelled.cons; exact rfl)
    exact .nil
  · decide +kernel

/-- An amount past the ceiling by one. -/
theorem pastCap_read : read capRulebook Vocabulary.builtin
    (amountDocument "        amount: 9007199254740993").text = .ok (amounting (cap + 1)) := by
  apply Builtin.definition_of_spelled
  · repeat (apply Text.Spelled.cons; exact rfl)
    exact .nil
  · decide +kernel

theorem capRules_limit : capRules.constraint? ("max_" ++ "amount") = some (.ofInt cap) := by
  decide +kernel

theorem amounting_amount (n : Int) : ∃ c ∈ (amounting n).conditions,
    c.parameters.get? "amount" = some (.int n) :=
  ⟨_, List.mem_cons_self, by rw [Table.get?_ofList]; rfl⟩

theorem cap_value? : (Double.ofInt cap).value? = some 9007199254740992 :=
  Double.ofInt_value?_of_small (by decide)

/-- An amount at the ceiling keeps it. -/
theorem cap_kept : ∃ r, capRulebook.lookup "india" "escrow" = some r ∧
    ∃ limit, r.constraint? ("max_" ++ "amount") = some limit ∧
      ∃ v, limit.value? = some v ∧ (cap : ℚ) ≤ v := by
  obtain ⟨r, hr, hbounds⟩ := integers_bounded capRulebook_loaded cap_read
  obtain rfl := Option.some.inj (capRulebook_lookup.symm.trans hr)
  obtain ⟨c, hc, hamount⟩ := amounting_amount cap
  obtain ⟨v, hv, hle⟩ := (hbounds "amount" (by decide) c hc cap hamount).1 _ capRules_limit
  refine ⟨_, hr, _, capRules_limit, v, hv, hle.resolve_right fun h => ?_⟩
  exact absurd h.large (by decide)

/-- An amount that is past the ceiling by one is accepted. -/
theorem cap_exceeded : Rulebook.load [capSource] = .ok capRulebook ∧
    read capRulebook Vocabulary.builtin
      (amountDocument "        amount: 9007199254740993").text = .ok (amounting (cap + 1)) ∧
    capRulebook.lookup "india" "escrow" = some capRules ∧
    capRules.constraint? ("max_" ++ "amount") = some (.ofInt cap) ∧
    (∃ c ∈ (amounting (cap + 1)).conditions, c.parameters.get? "amount" = some (.int (cap + 1))) ∧
    ∃ v, (Double.ofInt cap).value? = some v ∧ v < (cap + 1 : Int) := by
  refine ⟨capRulebook_loaded, pastCap_read, capRulebook_lookup, capRules_limit,
    amounting_amount _, _, cap_value?, ?_⟩
  norm_num [cap]

end Covenant.Definition
