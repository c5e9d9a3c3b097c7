import Covenant.Proofs.Definition.Bounds
import Covenant.Proofs.Vocabulary.Extended

/-! Reading under an extended vocabulary. A check that has no problem keeps its outcome when more words
are known: it has found every word that it looked up, and finds the same again. So a document that has
been accepted is accepted as the same definition, although the checks of one that is refused may come
to something else. -/
namespace Covenant

open Yaml (Value)
open Rules (Rulebook)

namespace Checked

variable {α β γ : Type}

/-- The second check has the outcome of the first, provided that the first has no problem. -/
def Kept (c c' : Checked α) : Prop := c.problems = [] → c' = c

theorem Kept.refl (c : Checked α) : c.Kept c := fun _ => rfl

theorem Kept.map {c c' : Checked α} (h : c.Kept c') (f : α → β) : (c.map f).Kept (c'.map f) :=
  fun hc => by rw [h hc]

theorem kept_sequence {cs cs' : List (Checked α)} (h : List.Forall₂ Kept cs cs') :
    (sequence cs).Kept (sequence cs') := by
  intro hp
  have heq : cs' = cs := by
    induction h with
    | nil => rfl
    | cons hc _ ih =>
      obtain ⟨hfirst, hrest⟩ := List.append_eq_nil_iff.1 hp
      rw [hc hfirst, ih hrest]
  rw [heq]

theorem kept_sequence_map {f g : γ → Checked α} (h : ∀ a, (f a).Kept (g a)) (as : List γ) :
    (sequence (as.map f)).Kept (sequence (as.map g)) := by
  refine kept_sequence ?_
  rw [List.forall₂_map_left_iff, List.forall₂_map_right_iff, List.forall₂_same]
  exact fun a _ => h a

end Checked

namespace Draft

open Vocabulary (Extends)

variable {v : Value} {path : String}

/-! ### Fields -/

theorem kept_requiredWord {α : Type} {accept accept' : String → Option α}
    (h : ∀ raw a, accept raw = some a → accept' raw = some a) (key : String)
    (refusal : String → String) :
    (requiredWord v path key accept refusal).Kept (requiredWord v path key accept' refusal) := by
  intro hp
  obtain ⟨a, ha⟩ := requiredWord_problems_eq_nil_iff.1 hp
  unfold requiredWord at ha ⊢
  simp only at ha ⊢
  cases hvalue : (requiredText v path key).value with
  | none => simp only [hvalue, reduceCtorEq] at ha
  | some raw =>
    cases hraw : accept raw with
    | none =>
      rw [hvalue] at ha
      simp only [hraw, reduceCtorEq] at ha
    | some b => simp only [hraw, h raw b hraw]

theorem kept_verb {accept accept' : String → Bool} (h : ∀ w, accept w = true → accept' w = true)
    (kind : String) : (verb accept kind v path).Kept (verb accept' kind v path) := by
  refine kept_requiredWord (fun raw w hw => ?_) kind _
  simp only [Option.ite_none_right_eq_some] at hw ⊢
  exact ⟨h _ hw.1, hw.2⟩

variable {vocabulary extended : Vocabulary} (h : vocabulary.Extends extended)

include h

/-! ### Parties -/

theorem kept_partyRole : (partyRole vocabulary v path).Kept (partyRole extended v path) :=
  kept_requiredWord (fun _ _ => h.role _ _) "role" _

theorem kept_party (earlier : List String) :
    (party vocabulary earlier v path).Kept (party extended earlier v path) := by
  intro hp
  unfold party at hp ⊢
  split
  · next hmap =>
    simp only [hmap, ↓reduceIte, List.append_eq_nil_iff] at hp
    rw [kept_partyRole h hp.1.1.2]
  · rfl

/-- The names that are remembered on the way are those of the document, whatever the words. -/
theorem kept_partyEntries (items : List Value) (earlier : List String) (i : Nat) :
    List.Forall₂ Checked.Kept (partyEntries vocabulary earlier i items)
      (partyEntries extended earlier i items) := by
  induction items generalizing earlier i with
  | nil => exact .nil
  | cons w items ih => exact .cons (kept_party h earlier) (ih _ _)

theorem kept_partyList : (partyList vocabulary v).Kept (partyList extended v) := by
  intro hp
  unfold partyList at hp ⊢
  split
  · rfl
  · next items hitems =>
    simp only [hitems, List.append_eq_nil_iff] at hp
    have hentries := Checked.kept_sequence (kept_partyEntries h items [] 0) hp.1.2
    rw [hentries]
  · rfl

/-! ### Conditions -/

theorem kept_condition (v : Value) (path : String) :
    (condition vocabulary v path).Kept (condition extended v path) := by
  intro hp
  unfold condition at hp ⊢
  split
  · next hmap =>
    simp only [hmap, ↓reduceIte, List.append_eq_nil_iff] at hp
    rw [kept_verb h.trigger "trigger" hp.1.1.1, kept_verb h.action "action" hp.1.1.2]
  · rfl

theorem kept_conditionList : (conditionList vocabulary v).Kept (conditionList extended v) := by
  intro hp
  unfold conditionList at hp ⊢
  split
  · rfl
  · next items hitems =>
    simp only [hitems, List.append_eq_nil_iff] at hp
    have hentries := Checked.kept_sequence_map (fun e : Value × Nat =>
      (kept_condition h e.1 (indexed conditionsPath e.2)).map fun c => (c.1, (e.2, c.2)))
      items.zipIdx hp.2
    rw [hentries]
  · rfl

/-! ### The whole -/

theorem kept_ofContract : (ofContract vocabulary v).Kept (ofContract extended v) := by
  intro hp
  unfold ofContract at hp ⊢
  simp only [List.append_eq_nil_iff] at hp
  rw [kept_partyList h hp.1.1.1.2, kept_conditionList h hp.1.1.2]

theorem kept_ofValue (v : Value) : (ofValue vocabulary v).Kept (ofValue extended v) := by
  unfold ofValue
  split
  · exact Checked.Kept.refl _
  · split
    · exact (kept_ofContract h).map some
    · exact Checked.Kept.refl _

end Draft

namespace Definition

open Vocabulary (Addition Extends)

variable {rules : Rulebook} {vocabulary extended : Vocabulary} {d : Definition}

/-- A document that is accepted is accepted as the same definition when more words are known. -/
theorem ofValue_of_extends (h : vocabulary.Extends extended) {v : Value}
    (hd : ofValue rules vocabulary v = .ok d) : ofValue rules extended v = .ok d := by
  rw [ofValue_eq_ok_iff_yields] at hd ⊢
  obtain ⟨⟨hproblems, hvalue⟩, hlaw⟩ := hd
  refine ⟨?_, hlaw⟩
  rw [Draft.kept_ofValue h v hproblems]
  exact ⟨hproblems, hvalue⟩

theorem read_of_extends (h : vocabulary.Extends extended) {text : String}
    (hd : read rules vocabulary text = .ok d) : read rules extended text = .ok d := by
  unfold read at hd ⊢
  split at hd
  · exact ofValue_of_extends h hd
  · cases hd

/-- Adding words to a vocabulary, whether they are taken or refused, none of them a role that it has
already: whatever the rules, a document that has been accepted is accepted as the same definition, and
all words are identifiers if they were. -/
theorem read_attemptAll {vocabulary : Vocabulary} {additions : List Addition}
    (hnew : ∀ a ∈ additions, a.New vocabulary) :
    (∀ rules text d, read rules vocabulary text = .ok d →
      read rules (vocabulary.attemptAll additions) text = .ok d) ∧
    (vocabulary.Named → (vocabulary.attemptAll additions).Named) := by
  have hextends : vocabulary.Extends (vocabulary.attemptAll additions) :=
    (Extends.refl vocabulary).attemptAll hnew
  exact ⟨fun rules text d hd => read_of_extends hextends hd, fun h => h.attemptAll additions⟩

/-- Four words, of which the second one is refused and the last one changes the third. -/
def milestones : List Addition :=
  [.trigger " Milestone_Reached ", .action "pay milestone", .role "Guarantor" .payer,
    .role "guarantor" .payee]

/-- A document that has been accepted before milestones were known is accepted after it. -/
theorem cap_read_milestones :
    (∀ a ∈ milestones, a.New Vocabulary.builtin) ∧
      read capRulebook Vocabulary.builtin
        (amountDocument "        amount: 9007199254740992").text = .ok (amounting cap) ∧
      read capRulebook (Vocabulary.builtin.attemptAll milestones)
        (amountDocument "        amount: 9007199254740992").text = .ok (amounting cap) ∧
      Vocabulary.builtin.Named ∧ (Vocabulary.builtin.attemptAll milestones).Named ∧
      (Vocabulary.builtin.attemptAll milestones).isTrigger "milestone_reached" = true ∧
      (Vocabulary.builtin.attemptAll milestones).role? "guarantor" = some ⟨"guarantor", .payee⟩ := by
  have hnew : ∀ a ∈ milestones, a.New Vocabulary.builtin := by
    have hrole : Vocabulary.builtin.roles.contains (Ident.normalize "Guarantor") = false ∧
        Vocabulary.builtin.roles.contains (Ident.normalize "guarantor") = false := by
      decide +kernel
    simp [milestones, Addition.New, hrole]
  obtain ⟨hread, hnamed⟩ := read_attemptAll hnew
  refine ⟨hnew, cap_read, hread _ _ _ cap_read, Vocabulary.named_builtin,
    hnamed Vocabulary.named_builtin, ?_, ?_⟩
  · decide +kernel
  · decide +kernel

end Definition
end Covenant
