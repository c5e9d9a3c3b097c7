import Covenant.Proofs.Outcome
import Covenant.Table.Lookup
import Covenant.Vocabulary

/-! Vocabularies that can come about: the empty and the built-in one, with words added.
All their verbs are identifiers. -/
namespace Covenant.Vocabulary

inductive Built : Vocabulary → Prop
  | empty : Built empty
  | builtin : Built builtin
  | addTrigger {v v' : Vocabulary} {word : String} (built : Built v)
      (h : v.addTrigger word = .ok v') : Built v'
  | addAction {v v' : Vocabulary} {word : String} (built : Built v)
      (h : v.addAction word = .ok v') : Built v'
  | addRole {v v' : Vocabulary} {word : String} {c : RoleClass} (built : Built v)
      (h : v.addRole word c = .ok v') : Built v'

/-- Every verb is an identifier. -/
def VerbsNamed (v : Vocabulary) : Prop :=
  ∀ w, v.isTrigger w = true ∨ v.isAction w = true → Ident.isIdent w = true

theorem isIdent_of_checkWord {kind : WordKind} {word w : String}
    (h : checkWord kind word = .ok w) : Ident.isIdent w = true := by
  unfold checkWord at h
  simp only at h
  split at h
  · next hid =>
    obtain rfl := Except.ok.inj h
    exact hid
  · cases h

theorem verbsNamed_builtin : VerbsNamed builtin := by
  have listed : ∀ {words : List String} {w : String},
      (Table.ofList (words.map (·, ()))).contains w = true → w ∈ words := by
    intro words w h
    rw [Table.contains, Option.isSome_iff_exists] at h
    obtain ⟨u, hu⟩ := h
    have hmem := Table.mem_of_mem_ofList (Table.mem_entries.2 hu)
    obtain ⟨x, hx, heq⟩ := List.mem_map.1 hmem
    cases heq
    exact hx
  rintro w (h | h)
  · exact List.all_eq_true.1 (by decide +kernel) w (listed h)
  · exact List.all_eq_true.1 (by decide +kernel) w (listed h)

theorem Built.verbsNamed {v : Vocabulary} (h : Built v) : VerbsNamed v := by
  induction h with
  | empty =>
    rintro w (h | h)
    · cases h
    · cases h
  | builtin => exact verbsNamed_builtin
  | @addTrigger v v' word _ h ih =>
    obtain ⟨w, hw, rfl⟩ := Outcome.map_eq_ok_iff.1 h
    intro x hx
    simp only [isTrigger, Table.contains_insert, Bool.or_eq_true, decide_eq_true_eq] at hx
    rcases hx with (rfl | hx) | hx
    · exact isIdent_of_checkWord hw
    · exact ih x (.inl hx)
    · exact ih x (.inr hx)
  | @addAction v v' word _ h ih =>
    obtain ⟨w, hw, rfl⟩ := Outcome.map_eq_ok_iff.1 h
    intro x hx
    simp only [isAction, Table.contains_insert, Bool.or_eq_true, decide_eq_true_eq] at hx
    rcases hx with hx | rfl | hx
    · exact ih x (.inl hx)
    · exact isIdent_of_checkWord hw
    · exact ih x (.inr hx)
  | addRole _ h ih =>
    obtain ⟨w, _, rfl⟩ := Outcome.map_eq_ok_iff.1 h
    exact ih

end Covenant.Vocabulary
