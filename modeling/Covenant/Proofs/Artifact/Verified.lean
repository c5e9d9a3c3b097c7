import Covenant.Proofs.Artifact.Filling
import Covenant.Proofs.Artifact.Rendering
import Covenant.Proofs.Builtin.Spelled
import Covenant.Proofs.Template.Registration

/-! Verified fills always render. Rendering a body reads the slots that the body reaches,
and no others. A template of a library that registration has made declares each of them
with the kind it is used as; fills that were verified against the template then have a
fill of that kind for it, so that no slot is found empty or of the wrong kind. -/
namespace Covenant.Artifact

open Template

namespace Fills

/-- Reading the slot gives its fill, which has the kind that the slot is used as. -/
def Answers (f : Fills) (ref : Reference) : Prop :=
  match ref.kind with
  | .scalar => ∃ t, f.get? ref.name.value = some (.scalar t) ∧ f.text ref.name.value = .ok t
  | .block =>
    ∃ ss, f.get? ref.name.value = some (.block ss) ∧ f.statements ref.name.value = .ok ss

theorem answers_of_meets {f : Fills} {ref : Reference} (h : f.Meets ref) : f.Answers ref := by
  obtain ⟨name, kind⟩ := ref
  obtain ⟨fill, hget, hkind⟩ := Option.map_eq_some_iff.1 h
  cases fill with
  | scalar t =>
    cases hkind
    exact ⟨t, hget, by rw [text, hget]⟩
  | block ss =>
    cases hkind
    exact ⟨ss, hget, by rw [statements, hget]⟩

/-- A body renders exactly when the slots it reaches have fills of the kinds they are used as. -/
theorem render_ok_iff {f : Fills} {r : Resolved} {body : Markup} (hr : r.InlineExtensions) :
    (∃ text, f.render r body = .ok text) ↔ ∀ ref, r.Reaches body ref → f.Meets ref := by
  rw [render, renderSegments_ok_iff]
  constructor
  · rintro ⟨hbody, hextensions⟩ ref href
    cases href with
    | body h => exact hbody ref h
    | extension hb ht h =>
      exact hextensions _ hb _ ht ref (Markup.mem_inlines_of_references (hr _ _ ht) h)
  · intro h
    refine ⟨fun ref href => h ref (.body href), fun b hb t ht ref href => ?_⟩
    exact h ref (.extension hb ht (Markup.mem_references_of_inlines href))

theorem meets_of_fits {f : Fills} {slots : Table SlotKind} (hf : f.Fits slots)
    {refs : List Reference} (hrefs : Declares slots refs) : ∀ ref ∈ refs, f.Meets ref := by
  intro ref href
  rw [Meets, hf, hrefs ref href]

/-- Fills that fit a sound template render its bodies. -/
theorem render_of_fits {f : Fills} {r : Resolved} (hr : r.Sound) (hf : f.Fits r.slots)
    (role : BodyRole) : ∃ text, f.render r (r.body role) = .ok text := by
  refine renderSegments_ok_iff.2 ⟨meets_of_fits hf (hr.bodies role), ?_⟩
  intro b _ t ht ref href
  exact meets_of_fits hf (hr.extensions _ t ht) ref (Markup.mem_references_of_inlines href)

end Fills

/-- A template that comes out of a library, whatever has been registered there and whatever
has been refused, renders with any fills that were verified against it. The slots reached
are declared for their use, and reading them gives their fills. -/
theorem render_of_verified {offers : List Offer} (hoffers : ∀ x ∈ offers, x.Read)
    {contractType jurisdiction : String} {r : Resolved}
    (hr : (Library.ofOffers offers).resolve contractType jurisdiction = .ok r) {f : Fills}
    (hf : f.verify r.slots = .ok ()) (role : BodyRole) :
    (∃ text, f.render r (r.body role) = .ok text) ∧
      ∀ ref, r.Reaches (r.body role) ref →
        r.slots.get? ref.name.value = some ref.kind ∧ f.Answers ref := by
  have hloaded := Library.loaded_ofOffers hoffers
  have hsound := (hloaded.sound.resolve hr).1
  have hfits := Fills.verify_eq_ok_iff.1 hf
  refine ⟨Fills.render_of_fits hsound hfits role, fun ref href => ?_⟩
  have hdeclared := hsound.declares href
  exact ⟨hdeclared, Fills.answers_of_meets (by rw [Fills.Meets, hfits, hdeclared])⟩

/-! A note of one block, which an override for one place adds to. -/

def note : Builtin.Document :=
  ⟨"note.toml", [
    "[template]",
    "name = 'note'",
    "version = '1'",
    "[slots]",
    "jurisdiction = 'scalar'",
    "contract_type = 'scalar'",
    "legal_requirements = 'scalar'",
    "clauses = 'block'",
    "[bodies]",
    "primary = '''",
    "\x7b\x7bjurisdiction\x7d\x7d \x7b\x7bcontract_type\x7d\x7d \x7b\x7blegal_requirements\x7d\x7d",
    "\x7b\x7b#block clauses\x7d\x7d", "\x7b\x7b/block\x7d\x7d", "'''",
    "deploy = '''",
    "\x7b\x7bjurisdiction\x7d\x7d \x7b\x7bcontract_type\x7d\x7d \x7b\x7blegal_requirements\x7d\x7d",
    "'''",
    "test = '''",
    "\x7b\x7bjurisdiction\x7d\x7d \x7b\x7bcontract_type\x7d\x7d \x7b\x7blegal_requirements\x7d\x7d",
    "'''"]⟩

def noteOverride : Builtin.Document :=
  ⟨"note_here.toml", [
    "[override]",
    "contract_type = 'note'",
    "jurisdiction = 'here'",
    "version = '1'",
    "[blocks]",
    "clauses = '\x7b\x7bcontract_type\x7d\x7d'"]⟩

/-- The library when the override comes first and the base is offered twice. -/
def noteOffers (b : Base) (o : Override) : List Offer := [.override o, .base b, .base b]

theorem noteOffers_read {b : Base} {o : Override} (hb : Base.read note.text note.name = .ok b)
    (ho : Override.read noteOverride.text noteOverride.name = .ok o) :
    ∀ x ∈ noteOffers b o, x.Read := by
  have hbase : (Offer.base b).Read := ⟨_, _, hb⟩
  have hoverride : (Offer.override o).Read := ⟨_, _, ho⟩
  simp [noteOffers, hbase, hoverride]

def noteFills : Fills :=
  ⟨Table.ofList [("jurisdiction", .scalar "here"), ("contract_type", .scalar "note"),
    ("legal_requirements", .scalar "[]"), ("clauses", .block ["a;", "b;"])]⟩

/-- The fills fit the note for the place of the override. -/
def noteFits (b : Base) (o : Override) : Bool :=
  ((Library.ofOffers (noteOffers b o)).resolve "note" "here").toOption.any fun r =>
    r.overlay.isSome && decide (noteFills.verify r.slots = .ok ())

set_option maxRecDepth 4000 in
theorem note_read : ∃ b o, Base.read note.text note.name = .ok b ∧
    Override.read noteOverride.text noteOverride.name = .ok o ∧ noteFits b o = true := by
  apply Builtin.pair_of_spelled
  · repeat (apply Text.Spelled.cons; exact rfl)
    exact .nil
  · repeat (apply Text.Spelled.cons; exact rfl)
    exact .nil
  · decide +kernel

theorem note_renders : ∃ b o r,
    (∀ x ∈ noteOffers b o, x.Read) ∧
      (Library.ofOffers (noteOffers b o)).resolve "note" "here" = .ok r ∧
      r.overlay.isSome = true ∧ noteFills.verify r.slots = .ok () ∧
      (∃ text, noteFills.render r (r.body .primary) = .ok text) ∧
      ∀ ref, r.Reaches (r.body .primary) ref →
        r.slots.get? ref.name.value = some ref.kind ∧ noteFills.Answers ref := by
  obtain ⟨b, o, hb, ho, hfits⟩ := note_read
  obtain ⟨r, hr, hfits⟩ := (Option.any_eq_true _ _).1 hfits
  rw [Bool.and_eq_true, decide_eq_true_eq] at hfits
  have hresolve := Builtin.ok_of_toOption hr
  have hoffers := noteOffers_read hb ho
  exact ⟨b, o, r, hoffers, hresolve, hfits.1, hfits.2,
    render_of_verified hoffers hresolve hfits.2 .primary⟩

end Covenant.Artifact
