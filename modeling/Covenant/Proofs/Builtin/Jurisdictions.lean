import Covenant.Builtin.Rules
import Covenant.Proofs.Builtin.Spelled
import Covenant.Proofs.Outcome

/-! The built-in rulebook. Its source can be loaded; it is read in the kernel, once. -/
namespace Covenant.Builtin

open Rules (Rulebook RuleSet Source)

/-- The rulebook of a source by its characters. -/
def readRulebook (cs : List Char) : Option Rulebook :=
  (((Yaml.tokens cs).bind Yaml.Graph.ofTokens).bind fun g => (Source.readGraph g).run 0).bind
    fun s => (Rulebook.empty.addSource s.1).toOption

theorem load_of_readRulebook {d : Document} {r : Rulebook}
    (h : readRulebook (spellOut (d.lines.map String.toList)) = some r) :
    Rulebook.load [d.text] = .ok r := by
  rw [spellOut_lines] at h
  obtain ⟨s, hs, hr⟩ := Option.bind_eq_some_iff.1 h
  have hread : Source.read d.text = some s.1 := by
    obtain ⟨g, hg, hs⟩ := Option.bind_eq_some_iff.1 hs
    exact Option.bind_eq_some_iff.2 ⟨g, hg, Option.bind_eq_some_iff.2 ⟨s, hs, rfl⟩⟩
  refine Outcome.foldlM_cons_of_ok ?_ rfl
  rw [Rulebook.addText, hread]
  exact ok_of_toOption hr

/-- A list is no rulebook. -/
example : (readRulebook "- india".toList).isNone = true := by decide +kernel

/-- A rulebook that is loaded, with what is checked of it. -/
theorem rulebook_of_spelled {d : Document} {P : Rulebook → Prop} [DecidablePred P]
    {ls : List (List Char)} (h : Text.Spelled d.lines ls)
    (hls : ((readRulebook (spellOut ls)).any fun r => decide (P r)) = true) :
    ∃ r, Rulebook.load [d.text] = .ok r ∧ P r := by
  obtain ⟨r, hr, hp⟩ := (Option.any_eq_true _ _).1 hls
  rw [← h.chars] at hr
  exact ⟨r, load_of_readRulebook hr, of_decide_eq_true hp⟩

/-- The rules of escrows in India. -/
def indiaEscrowRules : RuleSet :=
  ⟨"india", "escrow", ["kyc_verification", "gst_compliance"],
    ["dispute_resolution", "refund_policy", "governing_law"],
    Table.ofList [("dispute_resolution_days", 30), ("refund_window_days", 7)],
    Table.ofList [("max_amount", Double.ofNat 1000000)]⟩

theorem jurisdictions_load : ∃ r, Rulebook.load [jurisdictions.text] = .ok r ∧
    r.lookup "india" "escrow" = some indiaEscrowRules := by
  apply rulebook_of_spelled
  · unfold jurisdictions
    dsimp only
    repeat (apply Text.Spelled.cons; exact rfl)
    exact .nil
  · decide +kernel

theorem rules_eq {r : Rulebook} (h : Rulebook.load [jurisdictions.text] = .ok r) : rules = r := by
  rw [rules, rules?, h]
  rfl

/-- The built-in rulebook is the one its source makes. -/
theorem rules_load : Rulebook.load [jurisdictions.text] = .ok rules := by
  obtain ⟨r, hr, _⟩ := jurisdictions_load
  rw [rules_eq hr, hr]

theorem rules_lookup : rules.lookup "india" "escrow" = some indiaEscrowRules := by
  obtain ⟨r, hr, hlookup⟩ := jurisdictions_load
  rwa [rules_eq hr]

end Covenant.Builtin
