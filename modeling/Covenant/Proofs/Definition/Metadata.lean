import Covenant.Proofs.Definition.Fields
import Covenant.Proofs.Text.Trim

/-! The legal requirements and the metadata of a contract, either of which may be left out. -/
namespace Covenant.Draft

open Yaml (Value)
open Definition

variable {v : Value}

/-! ### Legal requirements -/

theorem statesRequirement_unique {w : Value} {a b : String} (ha : StatesRequirement w a)
    (hb : StatesRequirement w b) : a = b := by
  obtain ⟨raw, rfl, rfl, _⟩ := ha
  obtain ⟨_, hraw, rfl, _⟩ := hb
  cases hraw
  rfl

/-- An entry that states a new requirement adds it. -/
theorem requirementEntries_of_new {w : Value} {rest : List Value} {found : List String} {i : Nat}
    {id : String} (h : StatesRequirement w id) (hnew : id ∉ found) :
    requirementEntries found i (w :: rest) = requirementEntries (found ++ [id]) (i + 1) rest := by
  obtain ⟨raw, rfl, rfl, hid⟩ := h
  simp [requirementEntries, Value.asText?, Value.untagged, hid, hnew]

/-- Any other entry is a problem. -/
theorem requirementEntries_of_not_new {w : Value} {rest : List Value} {found : List String}
    {i : Nat} (hw : w.Bare) (h : ∀ id, StatesRequirement w id → id ∈ found) :
    (requirementEntries found i (w :: rest)).problems ≠ [] := by
  unfold requirementEntries
  cases htext : w.asText? with
  | none => simp
  | some raw =>
    rw [hw.asText?_eq_some_iff] at htext
    subst htext
    cases hid : Ident.isIdent (Text.trimmed raw) with
    | false => simp [hid]
    | true =>
      have hmem := h _ ⟨raw, rfl, rfl, hid⟩
      simp [hid, hmem]

/-- The entries come through exactly when they state requirements that are new and differ:
by induction on the entries, what has been found growing by one for each. -/
theorem requirementEntries_yields {items : List Value} (hv : ∀ w ∈ items, w.Bare)
    {found ids : List String} {i : Nat} :
    (requirementEntries found i items).Yields ids ↔
      ∃ new, ids = found ++ new ∧ List.Forall₂ StatesRequirement items new ∧ new.Nodup ∧
        ∀ id ∈ new, id ∉ found := by
  induction items generalizing found i with
  | nil => simp [requirementEntries, eq_comm]
  | cons w items ih =>
    have hw := hv w List.mem_cons_self
    have hrest := fun u hu => hv u (List.mem_cons_of_mem _ hu)
    by_cases hnew : ∃ id, StatesRequirement w id ∧ id ∉ found
    · obtain ⟨id, hid, hnew⟩ := hnew
      rw [requirementEntries_of_new hid hnew, ih hrest]
      constructor
      · rintro ⟨new, rfl, hnews, hfresh⟩
        exact ⟨id :: new, by simp, .cons hid hnews, nodup_cons_new_iff.2 ⟨hnew, hfresh⟩⟩
      · rintro ⟨new, rfl, hnews, hfresh⟩
        obtain ⟨id', new', hid', hnews', rfl⟩ := List.forall₂_cons_left_iff.1 hnews
        obtain rfl := statesRequirement_unique hid hid'
        exact ⟨new', by simp, hnews', (nodup_cons_new_iff.1 hfresh).2⟩
    · have hbad : (requirementEntries found i (w :: items)).problems ≠ [] := by
        refine requirementEntries_of_not_new hw fun id hid => ?_
        by_contra hmem
        exact hnew ⟨id, hid, hmem⟩
      constructor
      · rintro ⟨hp, _⟩
        exact absurd hp hbad
      · rintro ⟨new, _, hnews, _, hout⟩
        obtain ⟨id, new', hid, _, rfl⟩ := List.forall₂_cons_left_iff.1 hnews
        exact absurd ⟨id, hid, hout id List.mem_cons_self⟩ hnew

theorem requirementList_yields (hv : v.Bare) {ids : List String} :
    (requirementList v).Yields ids ↔
      v.FieldOr "legal_requirements" [] StatesRequirements ids := by
  unfold requirementList
  rcases present?_cases hv "legal_requirements" with ⟨hp, hl⟩ | ⟨w, hp, hw, hbare⟩
  · rw [hp, fieldOr_of_lacks hl]
    simp [eq_comm]
  · rw [hp, fieldOr_of_gives hv hw]
    cases w with
    | sequence items =>
      rw [requirementEntries_yields fun u hu => hbare.of_mem_items hu]
      simp [StatesRequirements]
    | _ => simp [StatesRequirements]

/-! ### Metadata -/

theorem description_yields {m : Value} (hm : m.Bare) {s : String} :
    ((optionalText m metadataPath "description").map fun x => x.elim "" Text.trimmed).Yields s ↔
      m.FieldOr "description" "" StatesText s := by
  rcases optionalText_cases hm metadataPath "description" with
    ⟨hl, hc⟩ | ⟨raw, hw, hc⟩ | ⟨w, hw, hno, hc⟩
  · rw [fieldOr_of_lacks hl]
    simp [hc, Checked.map_yields, eq_comm]
  · rw [fieldOr_of_gives hm hw]
    simp [hc, Checked.map_yields, StatesText, eq_comm]
  · rw [fieldOr_of_gives hm hw]
    simp [hc, hno, Checked.map_yields, StatesText]

/-- The version of the metadata, which is not blank when it is given. -/
def versionOf (m : Value) : Checked String :=
  let version := optionalText m metadataPath "version"
  let blank := version.value.any Text.allBlank
  { value := if blank then "1.0.0" else version.value.elim "1.0.0" Text.trimmed
    problems := version.problems ++
      if blank then [.schema (metadataPath ++ ".version") "must not be empty"] else [] }

theorem versionOf_yields {m : Value} (hm : m.Bare) {s : String} :
    (versionOf m).Yields s ↔ m.FieldOr "version" "1.0.0" StatesWords s := by
  rcases optionalText_cases hm metadataPath "version" with
    ⟨hl, hc⟩ | ⟨raw, hw, hc⟩ | ⟨w, hw, hno, hc⟩
  · rw [fieldOr_of_lacks hl]
    simp [versionOf, hc, Checked.ok, Checked.Yields, eq_comm]
  · rw [fieldOr_of_gives hm hw]
    cases hb : Text.allBlank raw with
    | true =>
      have hempty := Text.trimmed_eq_empty_iff.2 hb
      simp [versionOf, hc, hb, Checked.ok, Checked.Yields, StatesWords, hempty]
    | false =>
      have hne : Text.trimmed raw ≠ "" := by
        rw [Ne, Text.trimmed_eq_empty_iff, hb]
        simp
      simp only [versionOf, hc, Checked.ok, Checked.Yields, Option.any_some, hb, StatesWords,
        Value.text.injEq, exists_eq_left', Bool.false_eq_true, ↓reduceIte, List.append_nil,
        Option.elim_some, true_and]
      constructor
      · rintro rfl
        exact ⟨rfl, hne⟩
      · exact fun h => h.1.symm
  · rw [fieldOr_of_gives hm hw]
    simp [versionOf, hc, hno, Checked.fail, Checked.Yields, StatesWords]

theorem metadataOf_mapping {entries : List (Value × Value)}
    (hp : present? v "metadata" = some (.mapping entries)) :
    metadataOf v =
      ⟨⟨(versionOf (.mapping entries)).value,
          (optionalText (.mapping entries) metadataPath "description").value.elim "" Text.trimmed⟩,
        (versionOf (.mapping entries)).problems ++
          (optionalText (.mapping entries) metadataPath "description").problems⟩ := by
  simp only [metadataOf, hp, versionOf]
  cases (optionalText (.mapping entries) metadataPath "version").value with
  | none => rfl
  | some s =>
    cases hb : Text.allBlank s <;> simp [hb]

theorem metadataOf_yields (hv : v.Bare) {m : Metadata} :
    (metadataOf v).Yields m ↔ v.FieldOr "metadata" {} StatesMetadata m := by
  rcases present?_cases hv "metadata" with ⟨hp, hl⟩ | ⟨w, hp, hw, hbare⟩
  · rw [fieldOr_of_lacks hl]
    simp [metadataOf, hp, eq_comm]
  · rw [fieldOr_of_gives hv hw]
    by_cases hmap : ∃ entries, w = .mapping entries
    · obtain ⟨entries, rfl⟩ := hmap
      rw [metadataOf_mapping hp]
      simp only [Checked.Yields, List.append_eq_nil_iff]
      constructor
      · rintro ⟨⟨hversion, hdescription⟩, rfl⟩
        exact ⟨⟨entries, rfl⟩, (versionOf_yields hbare).1 ⟨hversion, rfl⟩,
          (description_yields hbare).1 ⟨hdescription, rfl⟩⟩
      · rintro ⟨_, hversion, hdescription⟩
        have hversion := (versionOf_yields hbare).2 hversion
        have hdescription := (description_yields hbare).2 hdescription
        refine ⟨⟨hversion.1, hdescription.1⟩, ?_⟩
        rw [hversion.2]
        exact congrArg _ hdescription.2
    · have hbad : (metadataOf v).problems ≠ [] := by
        unfold metadataOf
        rw [hp]
        cases w with
        | mapping entries => exact absurd ⟨entries, rfl⟩ hmap
        | null | bool | number | text | sequence | tagged => simp [Checked.fail]
      constructor
      · rintro ⟨hp, _⟩
        exact absurd hp hbad
      · rintro ⟨hmapping, _, _⟩
        exact absurd hmapping hmap

end Covenant.Draft
