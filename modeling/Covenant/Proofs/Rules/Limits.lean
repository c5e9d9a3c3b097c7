import Covenant.Proofs.Number.Rounding
import Covenant.Proofs.Rules.Union
import Covenant.Proofs.Yaml.Sound

/-! The limits of loaded rulebooks. Whatever the sources, the limit of every constraint is a finite
number of double precision: what the text of a source is read as is one, and adding a rule set keeps
the limits as they were read. -/
namespace Covenant

theorem Yaml.Plain.precise_of_double? {cs : List Char} {d : Double} (h : double? cs = some d) :
    d.Precise := by
  unfold double? at h
  extract_lets body at h
  split at h
  · cases h
    trivial
  · split at h
    · cases h
      trivial
    · split at h
      · cases h
        trivial
      · split at h
        split at h
        · cases h
        · simp only at h
          split at h
          · cases h
            exact Double.precise_ofDecimal _ _
          · cases h

namespace Rules

open Yaml (Graph Node Reading)
open Yaml.Reading (Always)

/-! ### Reading a source -/

/-- The limits of a draft are numbers of double precision. -/
def RuleDraft.Precise (d : RuleDraft) : Prop := ∀ e ∈ d.constraints, e.2.Precise

namespace Source

theorem always_readLimit (g : Graph) (node : Node) : Always Double.Precise (readLimit g node) := by
  refine Reading.always_bind (Reading.always_true _) fun node _ => ?_
  split
  · split
    · exact Reading.always_lift fun _ h => Yaml.Plain.precise_of_double? h
    · exact Reading.always_failure
  · exact Reading.always_failure

theorem always_readMap {α : Type} {P : α → Prop} {g : Graph} {read : Node → Reading α}
    (h : ∀ node, Always P (read node)) (node : Node) :
    Always (fun es => ∀ e ∈ es, P e.2) (readMap g read node) := by
  refine Reading.always_bind (Reading.always_true _) fun entries _ => ?_
  refine Reading.always_mapM fun e _ => ?_
  refine Reading.always_bind (Reading.always_true _) fun name _ => ?_
  exact Reading.always_bind (h e.2) fun a ha => Reading.always_pure ha

/-- The limits that have been met are numbers of double precision. -/
def Fields.Precise (f : Fields) : Prop :=
  ∀ es, f.constraints = some es → ∀ e ∈ es, e.2.Precise

/-- A field that has not been met is read. -/
theorem always_once {α : Type} {P : α → Prop} {met : Bool} {m : Unit → Reading α}
    (h : Always P (m ())) :
    Always P (if met = true then (failure : Reading Unit) >>= m else m ()) := by
  cases met with
  | true => exact Reading.always_bind (P := fun _ => False) Reading.always_failure nofun
  | false => exact h

theorem always_fields (g : Graph) (f : Fields) (e : Node × Node) (hf : f.Precise) :
    Always Fields.Precise (Fields.read g f e) := by
  refine Reading.always_bind (Reading.always_true _) fun name _ => ?_
  split
  · refine always_once (Reading.always_bind (Reading.always_true _) fun _ _ => ?_)
    exact Reading.always_pure hf
  · refine always_once (Reading.always_bind (Reading.always_true _) fun _ _ => ?_)
    exact Reading.always_pure hf
  · refine always_once (Reading.always_bind (Reading.always_true _) fun _ _ => ?_)
    exact Reading.always_pure hf
  · refine always_once ?_
    refine Reading.always_bind (always_readMap (always_readLimit g) e.2) fun limits h => ?_
    refine Reading.always_pure ?_
    intro es hes
    cases hes
    exact h
  · exact Reading.always_failure

theorem always_readDraft (g : Graph) (node : Node) :
    Always RuleDraft.Precise (readDraft g node) := by
  refine Reading.always_bind (Reading.always_true _) fun entries _ => ?_
  refine Reading.always_bind (P := Fields.Precise) ?_ fun f hf => ?_
  · refine Reading.always_foldlM (always_fields g) ?_
    intro es hes
    cases hes
  · split
    · refine Reading.always_pure ?_
      intro e he
      cases hes : f.constraints with
      | none => simp [hes] at he
      | some es => exact hf es hes e (by simpa [hes] using he)
    · exact Reading.always_failure

theorem precise_of_read {text : String} {s : Source} (h : read text = some s) :
    ∀ e ∈ s, ∀ f ∈ e.2, f.2.Precise := by
  obtain ⟨g, _, h⟩ := Option.bind_eq_some_iff.1 h
  obtain ⟨⟨s', n⟩, hs, h⟩ := Option.bind_eq_some_iff.1 h
  obtain rfl := Option.some.inj h
  have hgraph : Always (fun s : Source => ∀ e ∈ s, ∀ f ∈ e.2, f.2.Precise) (readGraph g) := by
    unfold readGraph
    split
    · exact always_readMap (always_readMap (always_readDraft g)) _
    · exact Reading.always_pure (by simp)
  exact hgraph 0 _ hs

end Source

/-! ### Rulebooks -/

namespace Rulebook

/-- Every text of a rulebook was read as a source. -/
theorem exists_sources {texts : List String} {b b' : Rulebook}
    (h : texts.foldlM addText b = .ok b') :
    ∃ sources : List Source, texts.map Source.read = sources.map some := by
  induction texts generalizing b with
  | nil => exact ⟨[], rfl⟩
  | cons text texts ih =>
    rw [List.foldlM_cons] at h
    obtain ⟨b₁, hb₁, hrest⟩ := Outcome.bind_eq_ok_iff.1 h
    obtain ⟨sources, hsources⟩ := ih hrest
    unfold addText at hb₁
    split at hb₁
    · next s hs => exact ⟨s :: sources, by rw [List.map_cons, List.map_cons, hs, hsources]⟩
    · cases hb₁

theorem mem_sources {texts : List String} {b : Rulebook} (h : load texts = .ok b) {j t : String}
    {r : RuleSet} (hr : b.lookup j t = some r) :
    ∃ text ∈ texts, ∃ s, Source.read text = some s ∧ r ∈ s.ruleSets := by
  obtain ⟨sources, hsources⟩ := exists_sources h
  have hmade := madeOf_ofSources ((foldlM_addText_eq empty hsources).symm.trans h)
  obtain ⟨s, hs, hmem⟩ := List.mem_flatMap.1 ((hmade.rules _ _ _).1 hr).1
  obtain ⟨text, htext, hread⟩ := List.mem_map.1 (hsources ▸ List.mem_map_of_mem hs)
  exact ⟨text, htext, s, hread, hmem⟩

/-- Every limit of a loaded rulebook is a finite number of double precision. -/
theorem limit_of_load {texts : List String} {b : Rulebook} (h : load texts = .ok b) {j t : String}
    {r : RuleSet} (hr : b.lookup j t = some r) {name : String} {limit : Double}
    (hlimit : r.constraint? name = some limit) :
    limit.Precise ∧ ∃ v, limit.value? = some v := by
  have hentry : (name, limit) ∈ r.constraints.entries := Table.mem_entries.2 hlimit
  have hformed := (lookup_sound (sound_of_load h) hr).1
  refine ⟨?_, Double.exists_value (hformed.constraints _ hentry).2⟩
  obtain ⟨text, _, s, hread, hmem⟩ := mem_sources h hr
  obtain ⟨e, he, hmem⟩ := List.mem_flatMap.1 hmem
  obtain ⟨f, hf, rfl⟩ := List.mem_map.1 hmem
  exact Source.precise_of_read hread e he f hf _ (Table.mem_of_mem_ofList hentry)

end Rulebook
end Rules
end Covenant
