import Covenant.Proofs.Definition.Fields
import Covenant.Proofs.Definition.Report.Statement

/-! The problems that the check of a field comes to are those that are reported of it. What is
reported of a contract is put together from the reports on its fields, in their order. -/
namespace Covenant.Report

open Yaml (Value)
open Definition
open Draft (requiredText_cases requiredWord fieldOr_of_lacks fieldOr_of_gives)

variable {α : Type} {v : Value} {path key field : String}

/-! ### Reports in a row -/

/-- The report is the list of problems. -/
def Is (R : Report) (ps : List Problem) : Prop := ∀ qs, R qs ↔ qs = ps

theorem Is.of_unique {R : Report} {ps : List Problem} (h : R ps) (hunique : ∀ qs, R qs → qs = ps) :
    Is R ps := by
  refine fun qs => ⟨hunique qs, ?_⟩
  rintro rfl
  exact h

theorem Is.congr {R : Report} {ps qs : List Problem} (h : Is R ps) (heq : qs = ps) : Is R qs := by
  rwa [heq]

theorem is_exactly (ps : List Problem) : Is (Exactly ps) ps := fun _ => Iff.rfl

theorem is_each_nil {on : α → Report} : Is (Each on []) [] := by
  intro qs
  simp [Each]

theorem is_each_cons {on : α → Report} {a : α} {as : List α} {ps qs : List Problem}
    (ha : Is (on a) ps) (has : Is (Each on as) qs) : Is (Each on (a :: as)) (ps ++ qs) := by
  intro xs
  constructor
  · rintro ⟨pss, hpss, rfl⟩
    obtain ⟨ps', pss', hps, hpss', rfl⟩ := List.forall₂_cons_left_iff.1 hpss
    rw [List.flatten_cons, (ha ps').1 hps, (has pss'.flatten).1 ⟨pss', hpss', rfl⟩]
  · rintro rfl
    obtain ⟨pss, hpss, rfl⟩ := (has qs).2 rfl
    exact ⟨ps :: pss, .cons ((ha ps).2 rfl) hpss, rfl⟩

theorem is_each {on : α → Report} {f : α → List Problem} {as : List α}
    (h : ∀ a ∈ as, Is (on a) (f a)) : Is (Each on as) (as.flatMap f) := by
  induction as with
  | nil => exact is_each_nil
  | cons a as ih =>
    rw [List.flatMap_cons]
    exact is_each_cons (h a List.mem_cons_self) (ih fun b hb => h b (List.mem_cons_of_mem _ hb))

theorem is_inTurn_singleton {R : Report} {ps : List Problem} (hR : Is R ps) :
    Is (InTurn [R]) ps := by
  rw [← List.append_nil ps]
  exact is_each_cons hR is_each_nil

theorem is_inTurn_cons {R : Report} {rs : List Report} {ps qs : List Problem} (hR : Is R ps)
    (hrs : Is (InTurn rs) qs) : Is (InTurn (R :: rs)) (ps ++ qs) := is_each_cons hR hrs

/-! ### Fields -/

theorem is_fieldOr_of_lacks {ps : List Problem} {given : Value → Report} (h : v.Lacks key) :
    Is (v.FieldOr key ps given) ps := fun _ => fieldOr_of_lacks h

theorem is_fieldOr_of_gives (hv : v.Bare) {w : Value} {ps qs : List Problem}
    {given : Value → Report} (h : v.Gives key w) (hw : Is (given w) qs) :
    Is (v.FieldOr key ps given) qs := fun xs => (fieldOr_of_gives hv h).trans (hw xs)

section

variable {Accept : String → Prop} {refusal : String → String} {w : Value}

theorem is_ofText_of_untyped (hno : ∀ raw, w ≠ .text raw) :
    Is (OfText field Accept refusal w) [.schema field "expected a string"] := by
  refine .of_unique (.untyped hno) ?_
  rintro qs (_ | _ | _)
  · rfl
  · exact absurd rfl (hno _)
  · exact absurd rfl (hno _)

theorem is_ofText_of_refused {raw : String} (h : ¬Accept raw) :
    Is (OfText field Accept refusal (.text raw)) [.schema field (refusal raw)] := by
  refine .of_unique (.refused h) ?_
  rintro qs (hno | _ | haccept)
  · exact absurd rfl (hno raw)
  · rfl
  · exact absurd haccept h

theorem is_ofText_of_fine {raw : String} (h : Accept raw) :
    Is (OfText field Accept refusal (.text raw)) [] := by
  refine .of_unique (.fine h) ?_
  rintro qs (hno | hrefused | _)
  · exact absurd rfl (hno raw)
  · exact absurd h hrefused
  · rfl

end

theorem is_ofSequence_of_shapeless {w : Value} {reason : String} {given : List Value → Report}
    (h : ∀ items, w ≠ .sequence items) :
    Is (OfSequence field reason given w) [.schema field reason] := by
  refine .of_unique (.shapeless h) ?_
  rintro qs (_ | _)
  · rfl
  · exact absurd rfl (h _)

theorem is_ofSequence_of_items {items : List Value} {reason : String}
    {given : List Value → Report} {ps : List Problem} (h : Is (given items) ps) :
    Is (OfSequence field reason given (.sequence items)) ps := by
  intro qs
  constructor
  · rintro (hno | hqs)
    · exact absurd rfl (hno items)
    · exact (h qs).1 hqs
  · exact fun hqs => .items ((h qs).2 hqs)

theorem is_ofMapping_of_shapeless {w : Value} {reason : String}
    {given : List (Value × Value) → Report} (h : ∀ entries, w ≠ .mapping entries) :
    Is (OfMapping field reason given w) [.schema field reason] := by
  refine .of_unique (.shapeless h) ?_
  rintro qs (_ | _)
  · rfl
  · exact absurd rfl (h _)

theorem is_ofMapping_of_entries {entries : List (Value × Value)} {reason : String}
    {given : List (Value × Value) → Report} {ps : List Problem} (h : Is (given entries) ps) :
    Is (OfMapping field reason given (.mapping entries)) ps := by
  intro qs
  constructor
  · rintro (hno | hqs)
    · exact absurd rfl (hno entries)
    · exact (h qs).1 hqs
  · exact fun hqs => .entries ((h qs).2 hqs)

theorem isMapping_iff (hv : v.Bare) : v.isMapping = true ↔ ∃ entries, v = .mapping entries := by
  rw [Value.isMapping, hv.untagged.untagged_eq]
  cases v <;> simp

theorem ne_mapping (hv : v.Bare) (h : v.isMapping = false) (entries : List (Value × Value)) :
    v ≠ .mapping entries := by
  intro hentries
  rw [(isMapping_iff hv).2 ⟨entries, hentries⟩] at h
  cases h

theorem dotted {key dotKey : String} (path : String) (h : "." ++ key = dotKey) :
    path ++ "." ++ key = path ++ dotKey := by
  rw [String.append_assoc, h]

/-- A text that must be there and pass a test. -/
theorem is_requiredWord (hv : v.Bare) {accept : String → Option α} {refusal : String → String}
    {Accept : String → Prop} (hfield : path ++ "." ++ key = field)
    (haccept : ∀ raw, Accept raw ↔ (accept raw).isSome = true) :
    Is (Required v path key (OfText field Accept refusal))
      (requiredWord v path key accept refusal).problems := by
  subst hfield
  rcases requiredText_cases hv path key with ⟨hl, hc⟩ | ⟨raw, hw, hc⟩ | ⟨w, hw, hno, hc⟩
  · exact (is_fieldOr_of_lacks hl).congr (by simp [requiredWord, hc, Checked.missing])
  · cases ha : accept raw with
    | none =>
      exact (is_fieldOr_of_gives hv hw (is_ofText_of_refused (by simp [haccept, ha]))).congr
        (by simp [requiredWord, hc, ha, Checked.ok])
    | some a =>
      exact (is_fieldOr_of_gives hv hw (is_ofText_of_fine (by simp [haccept, ha]))).congr
        (by simp [requiredWord, hc, ha, Checked.ok])
  · exact (is_fieldOr_of_gives hv hw (is_ofText_of_untyped hno)).congr
      (by simp [requiredWord, hc, Checked.fail])

theorem is_idField (hv : v.Bare) (hfield : path ++ "." ++ key = field) :
    Is (Required v path key (OfId field)) (Draft.idField v path key).problems :=
  is_requiredWord hv hfield fun raw => by simp

theorem is_verb (hv : v.Bare) {accept : String → Bool} :
    Is (Required v path key (OfVerb accept path key)) (Draft.verb accept key v path).problems :=
  is_requiredWord hv rfl fun raw => by simp

end Covenant.Report
