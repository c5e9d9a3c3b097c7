import Covenant.Proofs.Artifact.Shown
import Covenant.Proofs.Compiler.Independence

/-! Provenance. Whatever the templates and the handlers, the three texts of an artifact
state the same origin: the contract type, the jurisdiction, and one list of requirements,
which has each requirement of the rules and each that is asked for once. Registration only
lets a template in whose bodies refer to all three, so what remains is that rendering shows
what is referred to. -/
namespace Covenant

namespace Text

/-- Identifiers in brackets, each quoted. -/
theorem quotedList_of_isIdent {ids : List String} (h : ∀ id ∈ ids, Ident.isIdent id = true) :
    quotedList ids = "[" ++ ", ".intercalate (ids.map fun id => "\"" ++ id ++ "\"") ++ "]" := by
  rw [quotedList, List.map_congr_left fun id hid => by rw [safe_of_isIdent (h id hid)]]

theorem tight_of_isIdent {id : String} (h : Ident.isIdent id = true) : Tight id.toList :=
  tight_of_not_blank fun c hc => Ident.isBlank_of_isPart (Ident.isPart_of_isIdent h c hc)

theorem tight_quotedList (ss : List String) : Tight (quotedList ss).toList := by
  rw [quotedList, String.toList_append, String.toList_append]
  refine ⟨?_, ?_⟩
  · rintro c hc
    obtain rfl := Option.some.inj hc
    rfl
  · intro c hc
    rw [List.getLast?_append_of_ne_nil _ (by decide)] at hc
    obtain rfl := Option.some.inj hc
    rfl

end Text

namespace Artifact

open Law (Context Handler Handlers)
open Rules (RuleSet)
open Template (Resolved)

theorem nodup_foldl_new {as bs : List String} (h : as.Nodup) :
    (bs.foldl (fun list b => if list.contains b then list else list ++ [b]) as).Nodup := by
  induction bs generalizing as with
  | nil => exact h
  | cons b bs ih =>
    rw [List.foldl_cons]
    refine ih ?_
    split
    · exact h
    · next hb =>
      rw [List.contains_iff_mem] at hb
      refine List.nodup_append.2 ⟨h, List.nodup_singleton b, ?_⟩
      rintro a ha a' ha' rfl
      exact hb (List.mem_singleton.1 ha' ▸ ha)

/-- No requirement of a contract is listed twice. -/
theorem requirements_nodup {ctx : Context} (h : ctx.rules.WellFormed) : ctx.requirements.Nodup :=
  nodup_foldl_new h.distinct

/-- A scalar of the contract stands in every body that refers to it. -/
theorem isInfix_of_made {handlers : Handlers} {d : Definition} {r : Resolved} {rules : RuleSet}
    {h : Handler} {f : Fills} {bodies : Bodies String}
    (hmade : Made handlers d r rules h f bodies) (hproblems : r.base.problems = []) {role : BodyRole}
    {slot t : String} (hslot : (slot, t) ∈ scalars ⟨d, rules⟩ r h) (htight : Text.Tight t.toList)
    (href : ∃ ref ∈ (r.base.bodies.get role).references, ref.name.value = slot) :
    t.toList <:+: (bodies.get role).toList := by
  obtain ⟨⟨name, kind⟩, href, rfl⟩ := href
  have hget : f.get? name.value = some (.scalar t) := by
    refine (get?_build hmade.built).2 (List.mem_append_left _ (List.mem_append_left _ ?_))
    exact List.mem_map.2 ⟨_, hslot, rfl⟩
  have hkind : kind = .scalar := by
    have hdeclared : r.slots.get? name.value = some kind :=
      Template.Base.declares_of_problems hproblems role _ href
    rw [← Fills.verify_eq_ok_iff.1 hmade.verified name.value, hget] at hdeclared
    exact (Option.some.inj hdeclared).symm
  subst hkind
  obtain ⟨text, htext, _, hbody⟩ := renderBody_eq_ok_iff.1 (hmade.rendered role)
  rw [hbody, String.toList_ofList]
  exact Fills.isInfix_renderSegments htext href (by rw [Fills.text, hget]) htight

end Artifact

namespace Compiler

open Artifact
open Rules (Rulebook)

/-- Whenever a definition compiles, the three texts state its contract type, its jurisdiction and
one list of requirements, which has those of the rules and those of the definition, each once. -/
theorem provenance_stated {c : Compiler} {texts : List String}
    (hrules : Rulebook.load texts = .ok c.rules) {offers : List Template.Offer}
    (hoffers : ∀ x ∈ offers, x.Read) (htemplates : c.templates = Template.Library.ofOffers offers)
    {rules : Rulebook} {vocabulary : Vocabulary} {source : String} {d : Definition}
    (hd : Definition.read rules vocabulary source = .ok d) {a : Artifact}
    (ha : c.compile d = .ok a) :
    a.definition = d ∧ ∃ ids : List String, ids.Nodup ∧
      (∀ id, id ∈ ids ↔ id ∈ a.rules.legalRequirements ∨ id ∈ a.definition.legalRequirements) ∧
      ∀ role, d.contractType.toList <:+: (a.bodies.get role).toList ∧
        d.jurisdiction.toList <:+: (a.bodies.get role).toList ∧
        ("[" ++ ", ".intercalate (ids.map fun id => "\"" ++ id ++ "\"") ++ "]").toList <:+:
          (a.bodies.get role).toList := by
  obtain ⟨s, r, hlookup, hresolve, hcompose⟩ := compile_eq_ok_iff.1 ha
  obtain ⟨h, f, bodies, hmade, rfl⟩ := compose_eq_ok_iff.1 hcompose
  have haccepted := Definition.accepted_of_read hd
  have hformed := (Rulebook.lookup_sound (Rulebook.sound_of_load hrules) hlookup).1
  have hsound : c.templates.Sound := htemplates ▸ (Template.Library.loaded_ofOffers hoffers).sound
  have hproblems : r.base.problems = [] :=
    (hsound.bases _ _ (Template.Library.resolve_eq_ok_iff.1 hresolve).1).2
  have hidents : ∀ id ∈ Law.Context.requirements ⟨d, s⟩, Ident.isIdent id = true := fun id hid =>
    (mem_requirements.1 hid).elim (hformed.requirements id) (haccepted.requirements id)
  have hshown : ∀ role slot t, slot ∈ Template.provenanceSlots → (slot, t) ∈ scalars ⟨d, s⟩ r h →
      Text.Tight t.toList → t.toList <:+: (bodies.get role).toList := fun role slot t hslot ht htight =>
    isInfix_of_made hmade hproblems ht htight
      (Template.Base.exists_provenance_reference hproblems role hslot)
  refine ⟨rfl, Law.Context.requirements ⟨d, s⟩, requirements_nodup hformed,
    fun _ => mem_requirements, fun role => ⟨?_, ?_, ?_⟩⟩
  · exact hshown role "contract_type" _ (by decide) (by simp [scalars])
      (Text.tight_of_isIdent haccepted.contractType)
  · exact hshown role "jurisdiction" _ (by decide) (by simp [scalars])
      (Text.tight_of_isIdent haccepted.jurisdiction)
  · rw [← Text.quotedList_of_isIdent hidents]
    exact hshown role "legal_requirements" _ (by decide) (by simp [scalars]) (Text.tight_quotedList _)

/-! The deposit, with a template in whose bodies each of the three stands once. -/

theorem deposit_compiles_openName {b : Template.Base} (hread : (Template.Offer.base b).Read)
    (hb : OpenName b) : ∃ a, (openNameCompiler b).compile Builtin.deposit = .ok a ∧
      a.rules = ⟨"india", "escrow", ["kyc_verification"], [], ∅, ∅⟩ := by
  have hlookup : Builtin.depositRulebook.lookup Builtin.deposit.jurisdiction
      Builtin.deposit.contractType = some ⟨"india", "escrow", ["kyc_verification"], [], ∅, ∅⟩ := by
    decide +kernel
  have hresolve : (Template.Library.ofOffers [.base b]).resolve Builtin.deposit.contractType
      Builtin.deposit.jurisdiction = .ok ⟨b, none, "india"⟩ := resolve_openName hb
  have hcomposes : ¬(openNameCompiler b).Miscomposes Builtin.deposit := by
    rw [miscomposes_openName_iff hread hb Builtin.deposit_read rfl]
    decide +kernel
  cases hcompose : Artifact.compose Builtin.handlers Builtin.deposit ⟨b, none, "india"⟩
      ⟨"india", "escrow", ["kyc_verification"], [], ∅, ∅⟩ with
  | ok a =>
    obtain ⟨h, f, bodies, _, rfl⟩ := compose_eq_ok_iff.1 hcompose
    exact ⟨_, compile_eq_ok_iff.2 ⟨_, _, hlookup, hresolve, hcompose⟩, rfl⟩
  | error e =>
    exact absurd ⟨e, compile_eq_composition_error_iff.2 ⟨_, _, hlookup, hresolve, hcompose⟩⟩ hcomposes

theorem deposit_provenance : ∃ b a,
    Template.Base.read openName.text openName.name = .ok b ∧
      (openNameCompiler b).compile Builtin.deposit = .ok a ∧
      ∀ role, "escrow".toList <:+: (a.bodies.get role).toList ∧
        "india".toList <:+: (a.bodies.get role).toList ∧
        "[\"kyc_verification\"]".toList <:+: (a.bodies.get role).toList := by
  obtain ⟨b, hread, hb⟩ := openName_read
  have hoffers : ∀ x ∈ [Template.Offer.base b], x.Read := List.forall_mem_singleton.2 ⟨_, _, hread⟩
  obtain ⟨a, ha, hrules⟩ := deposit_compiles_openName ⟨_, _, hread⟩ hb
  obtain ⟨hdefinition, ids, hnodup, hids, hshown⟩ := provenance_stated (c := openNameCompiler b)
    Builtin.depositRulebook_load hoffers rfl Builtin.deposit_read ha
  have hone : ∀ id, id ∈ ids ↔ id ∈ ["kyc_verification"] := by
    intro id
    rw [hids id, hrules, hdefinition]
    exact or_self_iff
  obtain rfl := List.perm_singleton.1
    ((List.perm_ext_iff_of_nodup hnodup (List.nodup_singleton _)).2 hone)
  exact ⟨b, a, hread, ha, hshown⟩

end Compiler
end Covenant
