import Covenant.Proofs.Compiler.Inputs
import Covenant.Proofs.Compiler.LexicalSafety
import Covenant.Proofs.Compiler.LineStructure

/-! The legal requirements of a contract. One list of them is made from the rules and the
definition, and all that is generated from it agrees on it: what a handler is told is required, the
statements that register the requirements, their number, and the list that is written into the
contract and expected by its test, which can be read back from its text. -/
namespace Covenant

/-! ### Reading a list back -/

namespace Text

/-- Every other piece, from the second on. -/
def secondPieces : List (List Char) → List (List Char)
  | _ :: p :: rest => p :: secondPieces rest
  | _ => []

/-- The texts between double quotes, in order. -/
def readQuoted (s : String) : List String :=
  (secondPieces (pieces '"' s.toList)).map String.ofList

/-- The rest of a list of identifiers, each behind a comma. -/
def listRest (ids : List String) : List Char :=
  ids.flatMap fun id => [',', ' ', '"'] ++ id.toList ++ ['"']

theorem toList_joinQuoted (id : String) (ids : List String) :
    (", ".intercalate ((id :: ids).map fun id => "\"" ++ id ++ "\"")).toList =
      '"' :: (id.toList ++ '"' :: listRest ids) := by
  induction ids generalizing id with
  | nil => simp [listRest, String.toList_append]
  | cons next ids ih =>
    have hrest := ih next
    rw [List.map_cons] at hrest
    rw [List.map_cons, List.map_cons, String.intercalate_cons_cons, String.toList_append, hrest]
    simp [listRest, String.toList_append]

/-- What is read of the rest of a list, behind a text without quotes. -/
theorem secondPieces_rest {ids : List String} (h : ∀ id ∈ ids, '"' ∉ id.toList) {before : List Char}
    (hbefore : '"' ∉ before) :
    secondPieces (pieces '"' (before ++ (listRest ids ++ [']']))) = ids.map String.toList := by
  induction ids generalizing before with
  | nil =>
    rw [listRest, List.flatMap_nil, List.nil_append, pieces_of_not_mem (by simpa using hbefore)]
    rfl
  | cons id ids ih =>
    have hsplit : before ++ (listRest (id :: ids) ++ [']']) =
        (before ++ [',', ' ']) ++ '"' :: (id.toList ++ '"' :: ([] ++ (listRest ids ++ [']']))) := by
      simp [listRest]
    rw [hsplit, pieces_append (by simpa using hbefore), pieces_append (h id List.mem_cons_self),
      secondPieces, ih (fun x hx => h x (List.mem_cons_of_mem _ hx)) List.not_mem_nil, List.map_cons]

/-- A list of identifiers is read back from its text. -/
theorem readQuoted_quotedList {ids : List String} (h : ∀ id ∈ ids, Ident.isIdent id = true) :
    readQuoted (quotedList ids) = ids := by
  have hquotes : ∀ id ∈ ids, '"' ∉ id.toList := fun id hid hmem =>
    Bool.noConfusion (Ident.isPart_of_isIdent (h id hid) _ hmem)
  have hpieces : secondPieces (pieces '"' (quotedList ids).toList) = ids.map String.toList := by
    rw [quotedList_of_isIdent h, String.toList_append, String.toList_append]
    cases ids with
    | nil => rfl
    | cons id ids =>
      have hsplit : "[".toList ++ '"' :: (id.toList ++ '"' :: listRest ids) ++ "]".toList =
          ['['] ++ '"' :: (id.toList ++ '"' :: ([] ++ (listRest ids ++ [']']))) := by
        simp
      rw [toList_joinQuoted, hsplit, pieces_append (by simp), pieces_append (hquotes id List.mem_cons_self),
        secondPieces, secondPieces_rest (fun x hx => hquotes x (List.mem_cons_of_mem _ hx))
          List.not_mem_nil, List.map_cons]
  rw [readQuoted, hpieces, List.map_map,
    List.map_congr_left fun id _ => Function.comp_apply.trans String.ofList_toList, List.map_id']

example : readQuoted "[\"kyc_verification\", \"gst_compliance\"]" =
    ["kyc_verification", "gst_compliance"] := by
  decide +kernel

end Text

namespace Artifact

open Law (Context Handler)
open Rules (RuleSet Rulebook)
open Template (Resolved)

/-! ### The list -/

theorem foldl_new_eq {as bs : List String} (h : bs.Nodup) :
    bs.foldl (fun list b => if list.contains b then list else list ++ [b]) as =
      as ++ bs.filter fun b => b ∉ as := by
  induction bs generalizing as with
  | nil => simp
  | cons b bs ih =>
    rw [List.nodup_cons] at h
    rw [List.foldl_cons]
    by_cases hb : b ∈ as
    · rw [if_pos (List.contains_iff_mem.2 hb), ih h.2, List.filter_cons_of_neg (by simpa using hb)]
    · rw [if_neg (by simpa using hb), ih h.2, List.filter_cons_of_pos (by simpa using hb),
        List.append_assoc, List.singleton_append]
      have hfilter : (bs.filter fun x => x ∉ as ++ [b]) = bs.filter fun x => x ∉ as :=
        List.filter_congr fun x hx => by
          have hne : x ≠ b := fun heq => h.1 (heq ▸ hx)
          simp [hne]
      rw [hfilter]

/-- A list of requirements: those of the rules, then the others that are asked for. -/
structure Lists (d : Definition) (s : RuleSet) (ids : List String) : Prop where
  distinct : ids.Nodup
  ordered : ids = s.legalRequirements ++ d.legalRequirements.filter (· ∉ s.legalRequirements)
  requires : ∀ id, Context.requires ⟨d, s⟩ id = true ↔ id ∈ ids

theorem lists_requirements {d : Definition} {s : RuleSet} (hd : d.legalRequirements.Nodup)
    (hs : s.WellFormed) : Lists d s (Context.requirements ⟨d, s⟩) where
  distinct := requirements_nodup hs
  ordered := foldl_new_eq hd
  requires := fun id => by
    rw [mem_requirements, Context.requires, Bool.or_eq_true, RuleSet.requires, Definition.requests,
      List.contains_iff_mem, List.contains_iff_mem]

/-! ### What is generated -/

/-- The lines of the test that expects a list with this text. -/
def expectation (list : String) : List String :=
  ["it(\"Legal Compliance\", async function () \x7b",
    "  const requirements = await contract.getLegalRequirements();",
    "  expect(requirements).to.deep.equal(" ++ list ++ ");",
    "  expect(await contract.verifyLegalCompliance()).to.equal(false);",
    "\x7d);"]

/-- The fills that show a list of requirements: its text is the same in the contract and in the
test, and the list is what is read between the quotes of it. -/
structure Shows (f : Fills) (ids : List String) (text : String) : Prop where
  registration : f.get? "requirement_registration" =
    some (.block (ids.map fun id => "legalRequirements.push(\"" ++ id ++ "\");"))
  count : f.get? "legal_requirement_count" = some (.scalar (toString ids.length))
  list : f.get? "legal_requirements" = some (.scalar text)
  test : ∃ before after, f.get? "test_cases" = some (.block (before ++ expectation text ++ after))
  readBack : Text.readQuoted text = ids

theorem testLines_complianceTest (ids : List String) :
    Code.testLines (Code.complianceTest ids) = expectation (Text.quotedList ids) := by
  have hname : "it(\"" ++ Text.safe "Legal Compliance" ++ "\", async function () \x7b" =
      "it(\"Legal Compliance\", async function () \x7b" := by decide +kernel
  have hline : "  " ++ ("expect(requirements).to.deep.equal(" ++ Text.quotedList ids ++ ");") =
      "  expect(requirements).to.deep.equal(" ++ Text.quotedList ids ++ ");" := by
    rw [← String.append_assoc, ← String.append_assoc]
    rfl
  rw [Code.testLines, Code.complianceTest, hname, List.map_cons, List.map_cons, hline]
  rfl

theorem get?_scalar {ctx : Context} {r : Resolved} {h : Handler} {f : Fills}
    (hf : Fills.build ctx r h = .ok f) {slot text : String} (hmem : (slot, text) ∈ scalars ctx r h) :
    f.get? slot = some (.scalar text) :=
  (get?_build hf).2 (List.mem_append_left _ (List.mem_append_left _ (List.mem_map_of_mem hmem)))

theorem get?_block {ctx : Context} {r : Resolved} {h : Handler} {f : Fills}
    (hf : Fills.build ctx r h = .ok f) {slot : String} {lines : List String}
    (hmem : (slot, lines) ∈ blocks ctx h) : f.get? slot = some (.block lines) :=
  (get?_build hf).2 (List.mem_append_left _ (List.mem_append_right _ (List.mem_map_of_mem hmem)))

theorem shows_requirements {ctx : Context} {r : Resolved} {h : Handler} {f : Fills}
    (hf : Fills.build ctx r h = .ok f) (hids : ∀ id ∈ ctx.requirements, Ident.isIdent id = true) :
    Shows f ctx.requirements (Text.quotedList ctx.requirements) where
  registration := by
    have hmem : ("requirement_registration", ctx.requirements.map registerRequirement) ∈
        blocks ctx h := by
      simp [blocks]
    rw [get?_block hf hmem]
    rfl
  count := get?_scalar hf (by simp [scalars])
  list := get?_scalar hf (by simp [scalars])
  test := by
    have hmem : ("test_cases", Code.testSuite (Code.contractTests ctx ++ h.tests ctx)) ∈
        blocks ctx h := by
      simp [blocks]
    refine ⟨Code.testLines (Code.creationTest ctx.definition.jurisdiction) ++ [""],
      (Code.conditionTestsFrom 0 (Code.named ctx.definition.conditions) ++ h.tests ctx).flatMap
        fun t => "" :: Code.testLines t, ?_⟩
    rw [get?_block hf hmem, ← testLines_complianceTest]
    simp [Code.contractTests, Code.testSuite]
  readBack := Text.readQuoted_quotedList hids

/-- All that is generated from the legal requirements of an accepted definition agrees on one list,
whichever rule set it is compiled with. -/
theorem requirements_agree {rules : Rulebook} {vocabulary : Vocabulary} {source : String}
    {d : Definition} (hd : Definition.read rules vocabulary source = .ok d) {texts : List String}
    {loaded : Rulebook} (hload : Rulebook.load texts = .ok loaded) {s : RuleSet}
    (hs : s ∈ loaded.ruleSets) :
    Lists d s (Context.requirements ⟨d, s⟩) ∧
      ∀ (r : Resolved) (h : Handler) (f : Fills), Fills.build ⟨d, s⟩ r h = .ok f →
        ∃ text, Shows f (Context.requirements ⟨d, s⟩) text := by
  have haccepted := Definition.accepted_of_read hd
  have hsound := Rulebook.sound_of_load hload
  have hformed : s.WellFormed := (Rulebook.typesOf_get? hsound (hsound.mem_ruleSets.1 hs)).2.2.1
  have hidents : ∀ id ∈ Context.requirements ⟨d, s⟩, Ident.isIdent id = true := fun id hid =>
    (mem_requirements.1 hid).elim (hformed.requirements id) (haccepted.requirements id)
  exact ⟨lists_requirements haccepted.distinct hformed,
    fun r h f hf => ⟨_, shows_requirements hf hidents⟩⟩

/-- An escrow that asks for a second requirement beside the one of the rules. -/
theorem escrow_requirements_agree :
    Definition.read Compiler.builtin.rules Compiler.builtin.vocabulary Builtin.namedDocument.text =
        .ok (Builtin.escrowOf "A") ∧
      Rulebook.load [Builtin.depositRules] = .ok Builtin.depositRulebook ∧
      kycRules ∈ Builtin.depositRulebook.ruleSets ∧
      Lists (Builtin.escrowOf "A") kycRules ["kyc_verification", "gst_compliance"] ∧
      ∃ h f text, Fills.build ⟨Builtin.escrowOf "A", kycRules⟩ blank h = .ok f ∧
        Shows f ["kyc_verification", "gst_compliance"] text := by
  have hrules : kycRules ∈ Builtin.depositRulebook.ruleSets := by decide +kernel
  have hlist : Context.requirements ⟨Builtin.escrowOf "A", kycRules⟩ =
      ["kyc_verification", "gst_compliance"] := by decide +kernel
  obtain ⟨regime, _, _⟩ := Builtin.handlers_get? (j := "india") (by decide)
  obtain ⟨f, hf⟩ := exists_build ⟨Builtin.escrowOf "A", kycRules⟩ (r := blank) regime.handler
    fun slot hslot => (List.not_mem_nil hslot).elim
  have hagree := requirements_agree Builtin.named_parse Builtin.depositRulebook_load hrules
  obtain ⟨text, htext⟩ := hagree.2 _ _ _ hf
  rw [hlist] at hagree htext
  exact ⟨Builtin.named_parse, Builtin.depositRulebook_load, hrules, hagree.1, _, f, text, hf, htext⟩

end Artifact
end Covenant
