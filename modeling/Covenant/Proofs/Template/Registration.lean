import Covenant.Proofs.Template.Blocks
import Covenant.Proofs.Template.Library

/-! Libraries as registration makes them. Templates that were read from documents are
offered one after the other, bases and overrides in any order. An offer changes the library in
place, and one that is refused has been refused before it changed anything. One step keeps the
library sound and made of templates that were read, so every row of offers does. -/
namespace Covenant.Template

/-- A template that is offered to a library. -/
inductive Offer where
  | base (b : Base)
  | override (o : Override)

/-- The template was read from a document. -/
def Offer.Read : Offer → Prop
  | .base b => ∃ source origin, Base.read source origin = .ok b
  | .override o => ∃ source origin, Override.read source origin = .ok o

namespace Override

theorem readBlock_eq_ok_iff {label slot : String} {source : List Char} {t : Markup} :
    readBlock label slot source = .ok t ↔
      Markup.ofChars (terminated source) = .ok t ∧ t.isInlineOnly = true := by
  unfold readBlock
  split
  · next h => simp [h]
  · next t' h =>
    rw [h, Except.ok.injEq]
    split
    · next honly =>
      rw [Except.ok.injEq]
      constructor
      · rintro rfl
        exact ⟨rfl, honly⟩
      · exact fun h => h.1
    · next honly =>
      simp only [reduceCtorEq, false_iff, not_and]
      rintro rfl
      exact honly

theorem source_of_readBlocks {label : String} {sources : List (String × List Char)}
    {texts : List (String × Markup)} (h : readBlocks label sources = .ok texts) :
    ∀ e ∈ texts, ∃ source, readBlock label e.1 source = .ok e.2 := by
  induction sources generalizing texts with
  | nil =>
    obtain rfl := Except.ok.inj h
    simp
  | cons source rest ih =>
    obtain ⟨slot, cs⟩ := source
    obtain ⟨text, htext, h⟩ := Outcome.bind_eq_ok_iff.1 h
    obtain ⟨texts', htexts, heq⟩ := Outcome.bind_eq_ok_iff.1 h
    obtain rfl := Except.ok.inj heq
    exact List.forall_mem_cons.2 ⟨⟨cs, htext⟩, ih htexts⟩

/-- The texts that an override adds have been read, and hold no blocks. -/
theorem source_of_read {source origin : String} {o : Override} (h : read source origin = .ok o)
    {slot : String} {t : Markup} (ht : o.blocks.get? slot = some t) :
    ∃ cs, Markup.ofChars (terminated cs) = .ok t ∧ t.isInlineOnly = true := by
  unfold read at h
  split at h
  · unfold ofDraft at h
    simp only at h
    split at h
    · cases h
    · split at h
      · cases h
      · obtain ⟨texts, htexts, heq⟩ := Outcome.bind_eq_ok_iff.1 h
        obtain rfl := Except.ok.inj heq
        obtain ⟨cs, hcs⟩ :=
          source_of_readBlocks htexts _ (Table.mem_of_mem_ofList (Table.mem_entries.2 ht))
        exact ⟨cs, readBlock_eq_ok_iff.1 hcs⟩
  · cases h

end Override

/-- The bodies of a base have been read. -/
theorem Base.source_of_read {source origin : String} {b : Base} (h : read source origin = .ok b)
    (role : BodyRole) : ∃ cs, Markup.ofChars cs = .ok (b.bodies.get role) := by
  unfold read at h
  split at h
  · obtain ⟨_, _, _, hbodies, _, rfl⟩ := ofDraft_eq_ok_iff.1 h
    exact ⟨_, hbodies role⟩
  · cases h

namespace Library

/-! ### One offer -/

/-- Adds a template that is offered. -/
def offer (l : Library) : Offer → Except Error Library
  | .base b => l.register b
  | .override o => l.registerOverride o

end Library

namespace Offer

/-- Adds the template to the library at hand. -/
def enter : Offer → ExceptT Error (StateM Library) Unit
  | .base b => b.enter
  | .override o => o.enter

/-- What the offer of the template answers, and the library after it. -/
def run (x : Offer) (l : Library) : Except Error Unit × Library := l.run x.enter

theorem apply_enter (x : Offer) (l : Library) : l.apply x.enter = l.offer x := by
  cases x with
  | base b => rfl
  | override o => rfl

/-- An offer is refused before anything has been changed. -/
theorem eq_of_refused {x : Offer} {l l' : Library} {e : Error} (h : x.run l = (.error e, l')) :
    l' = l := by
  cases x with
  | base b => exact Library.eq_of_guarded (Base.run_enter b l) h
  | override o => exact Library.eq_of_guarded (Override.run_enter o l) h

theorem run_eq_ok_iff {x : Offer} {l l' : Library} :
    x.run l = (.ok (), l') ↔ l.offer x = .ok l' := by
  rw [← apply_enter, Library.apply_eq_ok_iff, run]

theorem run_eq_error_iff {x : Offer} {l l' : Library} {e : Error} :
    x.run l = (.error e, l') ↔ l.offer x = .error e ∧ l' = l := by
  rw [← apply_enter, Library.apply_eq_error_iff]
  constructor
  · intro h
    exact ⟨⟨l', h⟩, eq_of_refused h⟩
  · rintro ⟨⟨l₁, h⟩, rfl⟩
    obtain rfl := eq_of_refused h
    exact h

end Offer

namespace Library

/-- The library after an offer, which may have been refused. -/
def after (l : Library) (x : Offer) : Library := (x.run l).2

theorem after_of_taken {l l' : Library} {x : Offer} (h : l.offer x = .ok l') : l.after x = l' := by
  rw [after, Offer.run_eq_ok_iff.2 h]

theorem after_of_refused {l : Library} {x : Offer} {e : Error} (h : l.offer x = .error e) :
    l.after x = l := by
  rw [after, Offer.run_eq_error_iff.2 ⟨h, rfl⟩]

theorem eq_of_register {l l' : Library} {b : Base} (h : l.register b = .ok l') :
    l' = { l with bases := l.bases.insert b.name b } := by
  rw [register_eq] at h
  split at h
  · cases h
  · exact (accept_eq_ok_iff.1 h).2.symm

theorem eq_of_registerOverride {l l' : Library} {o : Override}
    (h : l.registerOverride o = .ok l') :
    l' = { l with
      overrides := l.overrides.insert o.contractType
        ((l.overridesOf o.contractType).insert o.jurisdiction o) } := by
  rw [registerOverride_eq] at h
  split at h
  · cases h
  · exact (accept_eq_ok_iff.1 h).2.symm

/-- A sound library whose templates were all read from documents. -/
structure Loaded (l : Library) : Prop where
  sound : l.Sound
  bases : ∀ t b, l.bases.get? t = some b → (Offer.base b).Read
  overrides : ∀ t j o, (l.overridesOf t).get? j = some o → (Offer.override o).Read

theorem loaded_empty : empty.Loaded :=
  ⟨sound_empty, fun _ _ h => (nomatch h), fun _ _ _ h => (nomatch h)⟩

theorem Loaded.register {l l' : Library} {b : Base} (hl : l.Loaded) (hb : (Offer.base b).Read)
    (h : l.register b = .ok l') : l'.Loaded := by
  obtain ⟨source, origin, hread⟩ := hb
  refine ⟨hl.sound.register (Base.problems_of_read hread) h, ?_, ?_⟩
  · intro t b' hget
    rw [eq_of_register h, Table.get?_insert] at hget
    split at hget
    · obtain rfl := Option.some.inj hget
      exact ⟨source, origin, hread⟩
    · exact hl.bases t b' hget
  · rw [eq_of_register h]
    exact hl.overrides

theorem Loaded.registerOverride {l l' : Library} {o : Override} (hl : l.Loaded)
    (ho : (Offer.override o).Read) (h : l.registerOverride o = .ok l') : l'.Loaded := by
  refine ⟨hl.sound.registerOverride h, ?_, ?_⟩
  · rw [eq_of_registerOverride h]
    exact hl.bases
  · intro t j o' hget
    rw [eq_of_registerOverride h, get?_overridesOf_insert] at hget
    split at hget
    · obtain rfl := Option.some.inj hget
      exact ho
    · exact hl.overrides t j o' hget

/-- An offer, taken or refused, leaves a loaded library loaded. -/
theorem Loaded.after {l : Library} {x : Offer} (hl : l.Loaded) (hx : x.Read) :
    (l.after x).Loaded := by
  cases hoffer : l.offer x with
  | error e =>
    rw [after_of_refused hoffer]
    exact hl
  | ok l' =>
    rw [after_of_taken hoffer]
    cases x with
    | base b => exact hl.register hx hoffer
    | override o => exact hl.registerOverride hx hoffer

/-! ### A row of offers -/

/-- The library that offers made in a row lead to. -/
def ofOffers (offers : List Offer) : Library := offers.foldl after empty

theorem loaded_foldl {l : Library} (hl : l.Loaded) {offers : List Offer}
    (h : ∀ x ∈ offers, x.Read) : (offers.foldl after l).Loaded := by
  induction offers generalizing l with
  | nil => exact hl
  | cons x rest ih =>
    rw [List.forall_mem_cons] at h
    exact ih (hl.after h.1) h.2

theorem loaded_ofOffers {offers : List Offer} (h : ∀ x ∈ offers, x.Read) :
    (ofOffers offers).Loaded :=
  loaded_foldl loaded_empty h

end Library

/-! ### Resolved templates -/

namespace Resolved

/-- A use of a slot that the rendering of a body comes to: in the body, in the content its
blocks have there, or in what the override adds to one of its blocks. -/
inductive Reaches (r : Resolved) (body : Markup) : Reference → Prop where
  | body {ref : Reference} (h : ref ∈ body.references) : Reaches r body ref
  | extension {b : Block} {t : Markup} {ref : Reference} (hb : b ∈ body.blocks)
      (ht : r.extension? b.name.value = some t) (h : ref ∈ t.references) : Reaches r body ref

/-- What the override adds to blocks holds no blocks. -/
def InlineExtensions (r : Resolved) : Prop :=
  ∀ slot t, r.extension? slot = some t → t.isInlineOnly = true

/-- A sound template declares every slot it reaches, with the kind it is used as. -/
theorem Sound.declares {r : Resolved} (hr : r.Sound) {role : BodyRole} {ref : Reference}
    (h : r.Reaches (r.body role) ref) : r.slots.get? ref.name.value = some ref.kind := by
  cases h with
  | body h => exact hr.bodies role ref h
  | extension _ ht h => exact hr.extensions _ _ ht ref h

end Resolved

namespace Library

variable {l : Library} {contractType jurisdiction : String} {r : Resolved}

theorem Loaded.source_of_body (hl : l.Loaded) (h : l.resolve contractType jurisdiction = .ok r)
    (role : BodyRole) : ∃ cs, Markup.ofChars cs = .ok (r.body role) := by
  obtain ⟨source, origin, hread⟩ := hl.bases _ _ (resolve_eq_ok_iff.1 h).1
  exact Base.source_of_read hread role

theorem Loaded.source_of_extension (hl : l.Loaded)
    (h : l.resolve contractType jurisdiction = .ok r) {slot : String} {t : Markup}
    (ht : r.extension? slot = some t) :
    ∃ cs, Markup.ofChars (Override.terminated cs) = .ok t ∧ t.isInlineOnly = true := by
  obtain ⟨o, ho, ht⟩ := Option.bind_eq_some_iff.1 ht
  rw [(resolve_eq_ok_iff.1 h).2.1] at ho
  obtain ⟨source, origin, hread⟩ := hl.overrides _ _ o ho
  exact Override.source_of_read hread ht

theorem Loaded.inlineExtensions (hl : l.Loaded)
    (h : l.resolve contractType jurisdiction = .ok r) : r.InlineExtensions := by
  intro slot t ht
  obtain ⟨_, _, honly⟩ := hl.source_of_extension h ht
  exact honly

end Library
end Covenant.Template
