import Covenant.Proofs.Definition.Fields
import Covenant.Proofs.Text.Trim

/-! The party list. Its check yields parties exactly when the document states them: the
names that are remembered on the way are those of the parties so far, so that a party
comes through exactly when its name is new. -/
namespace Covenant.Draft

open Yaml (Value)
open Definition

variable {v : Value} {path : String} {vocabulary : Vocabulary}

/-! ### Names -/

theorem nameOf?_eq_some_iff (hv : v.Bare) {s : String} :
    nameOf? v = some s ↔ v.Field "name" StatesWords s := by
  unfold nameOf?
  rcases present?_cases hv "name" with ⟨hp, hl⟩ | ⟨w, hp, hw, _⟩
  · rw [hp]
    simp [not_field_of_lacks hl]
  · rw [hp, field_of_gives hv hw, Option.bind_some]
    cases ht : text? w with
    | none =>
      have hno := ne_text_of_none ht
      simp [StatesWords, hno]
    | some raw =>
      rw [text?_eq_some_iff] at ht
      subst ht
      cases hb : Text.allBlank raw with
      | true =>
        have hempty := Text.trimmed_eq_empty_iff.2 hb
        simp [StatesWords, hb, hempty]
      | false =>
        have hne : Text.trimmed raw ≠ "" := by
          rw [Ne, Text.trimmed_eq_empty_iff, hb]
          simp
        simp only [hb, Bool.false_eq_true, ↓reduceIte, Option.some.injEq, StatesWords]
        constructor
        · rintro rfl
          exact ⟨raw, rfl, rfl, hne⟩
        · rintro ⟨_, hraw, rfl, _⟩
          cases hraw
          rfl

theorem partyName_delivers (hv : v.Bare) {earlier : List String} :
    (partyName earlier v path).Delivers fun s => v.Field "name" StatesWords s ∧ s ∉ earlier := by
  simp only [← nameOf?_eq_some_iff hv]
  rcases requiredText_cases hv path "name" with ⟨hl, hc⟩ | ⟨raw, hw, hc⟩ | ⟨w, hw, hno, hc⟩
  · refine .of_problems (by simp [partyName, hc, Checked.missing]) ?_
    rintro s ⟨hs, _⟩
    exact not_field_of_lacks hl ((nameOf?_eq_some_iff hv).1 hs)
  · cases hn : nameOf? v with
    | none => exact .of_problems (by simp [partyName, hc, hn, Checked.ok, Checked.fail]) (by simp)
    | some s =>
      by_cases hmem : s ∈ earlier
      · refine .of_problems (by simp [partyName, hc, hn, hmem, Checked.ok, Checked.fail]) ?_
        rintro s' ⟨heq, hnew⟩
        exact hnew (Option.some.inj heq ▸ hmem)
      · have hname : partyName earlier v path = .ok (some s) := by
          simp [partyName, hc, hn, hmem, Checked.ok]
        rw [hname]
        refine .of_ok fun s' => ⟨fun h => Option.some.inj h.1, ?_⟩
        rintro rfl
        exact ⟨rfl, hmem⟩
  · refine .of_problems (by simp [partyName, hc, Checked.fail]) ?_
    rintro s ⟨hs, _⟩
    obtain ⟨raw, hraw, _⟩ := (field_of_gives hv hw).1 ((nameOf?_eq_some_iff hv).1 hs)
    exact hno raw hraw

/-! ### The other fields -/

theorem partyRole_delivers (hv : v.Bare) :
    (partyRole vocabulary v path).Delivers (v.Field "role" (StatesRole vocabulary)) :=
  requiredWord_delivers hv

theorem partyAddress_yields (hv : v.Bare) {x : Option String} :
    (partyAddress v path).Yields x ↔ v.FieldOr "address" none StatesAddress x := by
  rcases optionalText_cases hv path "address" with ⟨hl, hc⟩ | ⟨raw, hw, hc⟩ | ⟨w, hw, hno, hc⟩
  · rw [fieldOr_of_lacks hl]
    simp [partyAddress, hc, Checked.ok, Checked.Yields, eq_comm]
  · rw [fieldOr_of_gives hv hw]
    cases hok : Address.isWellFormed (Text.trimmed raw) with
    | true =>
      have haddress : partyAddress v path = .ok (some (Text.trimmed raw)) := by
        simp [partyAddress, hc, hok, Checked.ok]
      rw [haddress, Checked.ok_yields]
      simp only [StatesAddress, Value.text.injEq, exists_eq_left', hok, and_true]
      exact eq_comm
    | false => simp [partyAddress, hc, hok, StatesAddress, Checked.ok, Checked.Yields]
  · rw [fieldOr_of_gives hv hw]
    simp [partyAddress, hc, hno, StatesAddress, Checked.fail, Checked.Yields]

theorem partyVerification_yields (hv : v.Bare) {b : Bool} :
    (partyVerification v path).Yields b ↔
      v.FieldOr "verification_required" true (fun w b => w = .bool b) b := by
  unfold partyVerification
  rcases present?_cases hv "verification_required" with ⟨hp, hl⟩ | ⟨w, hp, hw, _⟩
  · rw [hp, fieldOr_of_lacks hl]
    simp [eq_comm]
  · rw [hp, fieldOr_of_gives hv hw]
    cases w <;> simp

/-! ### Entries -/

theorem party_delivers (hv : v.Bare) {earlier : List String} :
    (party vocabulary earlier v path).Delivers fun p =>
      StatesParty vocabulary v p ∧ p.name ∉ earlier := by
  have hname := @partyName_delivers v path hv earlier
  have hrole := @partyRole_delivers v path vocabulary hv
  intro x
  cases hmap : v.isMapping with
  | false =>
    simp only [party, hmap]
    constructor
    · intro h
      simp at h
    · rintro ⟨p, ⟨hp, _⟩, _⟩
      obtain ⟨w, hw, _⟩ := hp.name
      rw [hw.isMapping] at hmap
      cases hmap
  | true =>
    simp only [party, hmap, ↓reduceIte, Checked.Yields, List.append_eq_nil_iff]
    constructor
    · rintro ⟨⟨⟨⟨hn, hr⟩, ha⟩, hf⟩, rfl⟩
      obtain ⟨s, ⟨hs, hnew⟩, hns⟩ := hname.some_of_problems hn
      obtain ⟨r, hr, hrs⟩ := hrole.some_of_problems hr
      have ha := (partyAddress_yields hv).1 ⟨ha, rfl⟩
      have hf := (partyVerification_yields hv).1 ⟨hf, rfl⟩
      refine ⟨⟨s, r, _, _⟩, ⟨⟨hs, hr, ha, hf⟩, hnew⟩, ?_⟩
      · rw [hns, hrs]
        rfl
    · rintro ⟨p, ⟨hp, hnew⟩, rfl⟩
      have hn := (hname (some p.name)).2 ⟨p.name, ⟨hp.name, hnew⟩, rfl⟩
      have hr := (hrole (some p.role)).2 ⟨p.role, hp.role, rfl⟩
      have ha := (@partyAddress_yields v path hv _).2 hp.address
      have hf := (@partyVerification_yields v path hv _).2 hp.verification
      refine ⟨⟨⟨⟨hn.1, hr.1⟩, ha.1⟩, hf.1⟩, ?_⟩
      rw [hn.2, hr.2, ha.2, hf.2]
      rfl

/-- All entries come through exactly when they state parties whose names are new and differ:
by induction on the entries, with the earlier names growing by one for each. -/
theorem partyEntries_yields {items : List Value} (hv : ∀ w ∈ items, w.Bare)
    {earlier : List String} {i : Nat} {xs : List (Option Party)} :
    (Checked.sequence (partyEntries vocabulary earlier i items)).Yields xs ↔
      ∃ ps, List.Forall₂ (StatesParty vocabulary) items ps ∧
        ((ps.map (·.name)).Nodup ∧ ∀ s ∈ ps.map (·.name), s ∉ earlier) ∧ xs = ps.map some := by
  rw [Checked.sequence_yields]
  induction items generalizing earlier i xs with
  | nil => simp [partyEntries]
  | cons w items ih =>
    have hw := hv w List.mem_cons_self
    have hrest := fun u hu => hv u (List.mem_cons_of_mem _ hu)
    rw [partyEntries, List.forall₂_cons_left_iff]
    constructor
    · rintro ⟨x, xs', hx, hxs, rfl⟩
      obtain ⟨p, ⟨hp, hnew⟩, rfl⟩ := (party_delivers hw x).1 hx
      rw [(nameOf?_eq_some_iff hw).2 hp.name, ih hrest] at hxs
      obtain ⟨ps, hps, hfresh, rfl⟩ := hxs
      exact ⟨p :: ps, .cons hp hps, nodup_cons_new_iff.2 ⟨hnew, hfresh⟩, rfl⟩
    · rintro ⟨ps, hps, hfresh, rfl⟩
      obtain ⟨p, ps', hp, hps', rfl⟩ := List.forall₂_cons_left_iff.1 hps
      obtain ⟨hnew, hlater⟩ := nodup_cons_new_iff.1 hfresh
      refine ⟨some p, ps'.map some, (party_delivers hw (some p)).2 ⟨p, ⟨hp, hnew⟩, rfl⟩, ?_, rfl⟩
      rw [(nameOf?_eq_some_iff hw).2 hp.name, ih hrest]
      exact ⟨ps', hps', hlater, rfl⟩

/-! ### The list -/

theorem coverageProblems_eq_nil_iff {ps : List Party} :
    coverageProblems ps = [] ↔
      (∃ p ∈ ps, p.role.roleClass = .payer) ∧ ∃ p ∈ ps, p.role.roleClass = .payee := by
  simp [coverageProblems]

theorem partyList_yields (hv : v.Bare) {ps : List Party} :
    (partyList vocabulary v).Yields ps ↔ v.Field "parties" (StatesParties vocabulary) ps := by
  unfold partyList
  rcases present?_cases hv "parties" with ⟨hp, hl⟩ | ⟨w, hp, hw, hbare⟩
  · rw [hp]
    simp [not_field_of_lacks hl]
  · rw [hp, field_of_gives hv hw]
    cases w with
    | sequence items =>
      have hentries := @partyEntries_yields vocabulary items (fun u hu => hbare.of_mem_items hu) [] 0
      simp only [Checked.Yields, List.append_eq_nil_iff, StatesParties, Value.sequence.injEq,
        exists_eq_left']
      constructor
      · rintro ⟨⟨⟨hsize, hp⟩, hcover⟩, rfl⟩
        obtain ⟨qs, hqs, ⟨hnodup, _⟩, hvalue⟩ := hentries.1 ⟨hp, rfl⟩
        have hsize : 2 ≤ items.length := by
          by_contra hlt
          simp [show items.length < 2 by omega] at hsize
        have hlen := hqs.length_eq
        have hne : items ≠ [] := by
          rintro rfl
          simp at hsize
        simp only [hvalue, List.filterMap_map, Function.id_comp, List.filterMap_some] at hcover ⊢
        rw [if_pos (by simp [hlen, hne]), coverageProblems_eq_nil_iff] at hcover
        exact ⟨hsize, hqs, hnodup, hcover⟩
      · rintro ⟨hsize, hqs, hnodup, hcover⟩
        obtain ⟨hp, hvalue⟩ := hentries.2 ⟨ps, hqs, ⟨hnodup, by simp⟩, rfl⟩
        simp only [hvalue, List.filterMap_map, Function.id_comp, List.filterMap_some]
        refine ⟨⟨⟨if_neg (by omega), hp⟩, ?_⟩, trivial⟩
        split
        · exact coverageProblems_eq_nil_iff.2 hcover
        · rfl
    | _ => simp [StatesParties]

end Covenant.Draft
