import Covenant.Proofs.Definition.Conditions
import Covenant.Proofs.Definition.Metadata
import Covenant.Proofs.Definition.Report.Fields

/-! The conditions, by their places, and the requirements, each of which is held against those
before it. The metadata comes last. -/
namespace Covenant.Report

open Yaml (Value)
open Definition
open Draft (present?_cases optionalText_cases optionalText conditionsPath requirementsPath
  metadataPath indexed)

variable {v : Value} {path field : String} {vocabulary : Vocabulary}

/-! ### Conditions -/

theorem is_ofDays_of_untyped {w : Value} (h : ∀ n, w ≠ .number (.int n)) :
    Is (OfDays field w) [.schema field "expected a positive integer number of days"] := by
  refine .of_unique (.untyped h) ?_
  rintro qs (_ | _ | _)
  · rfl
  · exact absurd rfl (h _)
  · exact absurd rfl (h _)

theorem is_ofDays_of_refused {n : Int} (h : n ≤ 0) : Is (OfDays field (.number (.int n)))
    [.schema field ("time_limit must be a positive number of days, found " ++ toString n)] := by
  refine .of_unique (.refused h) ?_
  rintro qs (hno | _ | hpos)
  · exact absurd rfl (hno n)
  · rfl
  · omega

theorem is_ofDays_of_fine {n : Int} (h : 0 < n) : Is (OfDays field (.number (.int n))) [] := by
  refine .of_unique (.fine h) ?_
  rintro qs (hno | hneg | _)
  · exact absurd rfl (hno n)
  · omega
  · rfl

theorem is_timeLimit (hv : v.Bare) :
    Is (Optional v "time_limit" (OfDays (path ++ ".time_limit")))
      (Draft.timeLimit v path).problems := by
  unfold Draft.timeLimit
  rcases present?_cases hv "time_limit" with ⟨hp, hl⟩ | ⟨w, hp, hw, _⟩
  · rw [hp]
    exact is_fieldOr_of_lacks hl
  · rw [hp]
    refine is_fieldOr_of_gives hv hw ?_
    cases w with
    | number n => cases n with
      | int n =>
        by_cases hpos : 0 < n
        · simp only [hpos, ↓reduceIte]
          exact is_ofDays_of_fine hpos
        · simp only [hpos, ↓reduceIte]
          exact is_ofDays_of_refused (by omega)
      | double d => exact is_ofDays_of_untyped (by simp)
    | null | bool | text | sequence | mapping | tagged => exact is_ofDays_of_untyped (by simp)

theorem is_ofParam_of_unnamed {e : Value × Value} (hno : ∀ name, e.1 ≠ .text name) :
    Is (OfParam field e) [.schema field "parameter names must be strings"] := by
  refine .of_unique (.unnamed hno) ?_
  rintro qs (_ | _ | _)
  · rfl
  · exact absurd rfl (hno _)
  · exact absurd rfl (hno _)

theorem is_ofParam_of_compound {name : String} {w : Value} (hno : ∀ p, ¬StatesParam w p) :
    Is (OfParam field (.text name, w))
      [.schema (field ++ "." ++ name) "expected a scalar value"] := by
  refine .of_unique (.compound hno) ?_
  rintro qs (hk | _ | hp)
  · exact absurd rfl (hk name)
  · rfl
  · exact absurd hp (hno _)

theorem is_ofParam_of_fine {name : String} {w : Value} {p : ParamValue} (hp : StatesParam w p) :
    Is (OfParam field (.text name, w)) [] := by
  refine .of_unique (.fine hp) ?_
  rintro qs (hk | hno | _)
  · exact absurd rfl (hk name)
  · exact absurd hp (hno p)
  · rfl

theorem is_param {e : Value × Value} (he : e.1.Bare) :
    Is (OfParam field e) (Draft.parameter field e).problems := by
  obtain ⟨k, w⟩ := e
  rcases Draft.parameter_cases he field with ⟨hno, hc⟩ | ⟨name, rfl, hno, hc⟩ | ⟨q, ⟨rfl, hq⟩, hc⟩
  · rw [hc]
    exact is_ofParam_of_unnamed hno
  · rw [hc]
    exact is_ofParam_of_compound hno
  · rw [hc]
    exact is_ofParam_of_fine hq

theorem is_parametersOf (hv : v.Bare) :
    Is (Optional v "parameters" (OfParams (path ++ ".parameters")))
      (Draft.parametersOf v path).problems := by
  unfold Draft.parametersOf
  rcases present?_cases hv "parameters" with ⟨hp, hl⟩ | ⟨w, hp, hw, hbare⟩
  · rw [hp]
    exact is_fieldOr_of_lacks hl
  · rw [hp]
    refine is_fieldOr_of_gives hv hw ?_
    cases w with
    | mapping entries =>
      refine is_ofMapping_of_entries ?_
      simp only [Checked.map, Checked.sequence, List.flatMap_map]
      exact is_each fun e he => is_param (hbare.of_mem_entries he).1
    | null | bool | number | text | sequence | tagged => exact is_ofMapping_of_shapeless (by simp)

theorem is_condition (hv : v.Bare) :
    Is (OfCondition vocabulary path v) (Draft.condition vocabulary v path).problems := by
  cases hmap : v.isMapping with
  | false =>
    simp only [Draft.condition, hmap]
    exact is_ofMapping_of_shapeless (ne_mapping hv hmap)
  | true =>
    obtain ⟨entries, rfl⟩ := (isMapping_iff hv).1 hmap
    simp only [Draft.condition, hmap, ↓reduceIte, List.append_assoc]
    exact is_ofMapping_of_entries <| is_inTurn_cons (is_verb hv) <| is_inTurn_cons (is_verb hv) <|
      is_inTurn_cons (is_timeLimit hv) <| is_inTurn_singleton (is_parametersOf hv)

theorem is_conditionList (hv : v.Bare) :
    Is (Required v "contract" "conditions" (OfConditions vocabulary))
      (Draft.conditionList vocabulary v).problems := by
  unfold Draft.conditionList
  rcases present?_cases hv "conditions" with ⟨hp, hl⟩ | ⟨w, hp, hw, hbare⟩
  · rw [hp]
    exact is_fieldOr_of_lacks hl
  · rw [hp]
    refine is_fieldOr_of_gives hv hw ?_
    cases w with
    | sequence items =>
      have hentries : Is (Each (fun e => OfCondition vocabulary (indexed conditionsPath e.2) e.1)
          items.zipIdx) (items.zipIdx.flatMap fun e =>
            (Draft.condition vocabulary e.1 (indexed conditionsPath e.2)).problems) :=
        is_each fun e he => is_condition (hbare.of_mem_items (List.fst_mem_of_mem_zipIdx he))
      refine is_ofSequence_of_items ?_
      simp only [Checked.sequence, Checked.map, List.flatMap_map, List.isEmpty_iff]
      exact is_inTurn_cons (is_exactly _) (is_inTurn_singleton hentries)
    | null | number | text | bool | mapping | tagged => exact is_ofSequence_of_shapeless (by simp)

/-! ### Requirements and metadata -/

/-- What the entries before are remembered by. -/
def Stated (before : List Value) (ids : List String) : Prop :=
  ∀ id, id ∈ ids ↔ ∃ u ∈ before, StatesRequirement u id

theorem is_ofRequirement_of_untyped {before : List Value} {w : Value} (h : ∀ raw, w ≠ .text raw) :
    Is (OfRequirement before field w) [.schema field "expected a string"] := by
  have hnone : ∀ id, ¬StatesRequirement w id := fun id ⟨raw, hraw, _⟩ => h raw hraw
  refine .of_unique (.untyped h) ?_
  rintro qs (_ | _ | ⟨hid, _, _⟩ | ⟨hid, _⟩)
  · rfl
  · exact absurd rfl (h _)
  · exact absurd hid (hnone _)
  · exact absurd hid (hnone _)

theorem is_ofRequirement_of_refused {before : List Value} {raw : String}
    (h : Ident.isIdent (Text.trimmed raw) = false) : Is (OfRequirement before field (.text raw))
      [.schema field ("invalid legal requirement id '" ++ raw ++
        "': expected a lower-case identifier")] := by
  have hnone : ∀ id, ¬StatesRequirement (.text raw) id := by
    rintro _ ⟨_, hraw, rfl, hid⟩
    cases hraw
    rw [h] at hid
    cases hid
  refine .of_unique (.refused h) ?_
  rintro qs (hno | _ | ⟨hid, _, _⟩ | ⟨hid, _⟩)
  · exact absurd rfl (hno raw)
  · rfl
  · exact absurd hid (hnone _)
  · exact absurd hid (hnone _)

theorem is_ofRequirement_of_states {before : List Value} {found : List String}
    (h : Stated before found) {w : Value} {req : String} (hw : StatesRequirement w req) :
    Is (OfRequirement before field w) (if req ∈ found then
      [.schema field ("duplicate legal requirement '" ++ req ++ "'")] else []) := by
  have honly : ∀ {req'}, StatesRequirement w req' → req' = req := fun hw' =>
    Draft.statesRequirement_unique hw' hw
  obtain ⟨raw, hraw, hreq, hident⟩ := id hw
  intro qs
  constructor
  · rintro (hno | hrefused | ⟨hw', hu, hstates⟩ | ⟨hw', hnew⟩)
    · exact absurd hraw (hno raw)
    · cases hraw
      rw [hreq, hrefused] at hident
      cases hident
    · obtain rfl := honly hw'
      rw [if_pos ((h _).2 ⟨_, hu, hstates⟩)]
    · obtain rfl := honly hw'
      rw [if_neg fun hmem => ?_]
      obtain ⟨u, hu, hstates⟩ := (h _).1 hmem
      exact hnew u hu hstates
  · rintro rfl
    split
    · next hmem =>
      obtain ⟨u, hu, hstates⟩ := (h req).1 hmem
      exact .repeated hw hu hstates
    · next hmem => exact .new hw fun u hu hstates => hmem ((h req).2 ⟨u, hu, hstates⟩)

theorem stated_concat_of_states {before : List Value} {found : List String}
    (h : Stated before found) {w : Value} {req : String} (hw : StatesRequirement w req) :
    Stated (before ++ [w]) (if req ∈ found then found else found ++ [req]) := by
  have hlast : ∀ a, StatesRequirement w a ↔ a = req := fun a =>
    ⟨fun ha => Draft.statesRequirement_unique ha hw, fun ha => ha ▸ hw⟩
  intro a
  have hthere : (∃ u ∈ before ++ [w], StatesRequirement u a) ↔ a ∈ found ∨ a = req := by
    simp only [List.mem_append, List.mem_singleton, or_and_right, exists_or, exists_eq_left, ← h a,
      hlast]
  rw [hthere]
  split
  · next hmem =>
    refine ⟨.inl, ?_⟩
    rintro (ha | rfl)
    · exact ha
    · exact hmem
  · rw [List.mem_append, List.mem_singleton]

theorem stated_concat_of_none {before : List Value} {found : List String} (h : Stated before found)
    {w : Value} (hw : ∀ a, ¬StatesRequirement w a) : Stated (before ++ [w]) found := by
  intro a
  simp only [List.mem_append, List.mem_singleton, or_and_right, exists_or, exists_eq_left, ← h a, hw,
    or_false]

/-- An entry of the requirement list by itself: what has been found after it, and its problems. -/
theorem requirementEntries_cons {before : List Value} {found : List String} {w : Value}
    (hw : w.Bare) (h : Stated before found) (i : Nat) (items : List Value) : ∃ found' ps,
      (Draft.requirementEntries found i (w :: items)).value =
        (Draft.requirementEntries found' (i + 1) items).value ∧
      (Draft.requirementEntries found i (w :: items)).problems =
        ps ++ (Draft.requirementEntries found' (i + 1) items).problems ∧
      Stated (before ++ [w]) found' ∧
      Is (OfRequirement before (indexed requirementsPath i) w) ps := by
  rw [Draft.requirementEntries]
  cases htext : w.asText? with
  | none =>
    have hno : ∀ raw, w ≠ .text raw := by
      intro raw hraw
      rw [hw.asText?_eq_some_iff.2 hraw] at htext
      cases htext
    have hnone : ∀ a, ¬StatesRequirement w a := by
      rintro _ ⟨raw, hraw, _⟩
      exact hno raw hraw
    exact ⟨found, _, rfl, rfl, stated_concat_of_none h hnone, is_ofRequirement_of_untyped hno⟩
  | some raw =>
    obtain rfl := hw.asText?_eq_some_iff.1 htext
    cases hid : Ident.isIdent (Text.trimmed raw) with
    | false =>
      have hnone : ∀ a, ¬StatesRequirement (.text raw) a := by
        rintro _ ⟨_, hraw, rfl, hident⟩
        cases hraw
        rw [hid] at hident
        cases hident
      refine ⟨found, _, ?_, ?_, stated_concat_of_none h hnone, is_ofRequirement_of_refused hid⟩
      · simp [hid]
      · simp [hid]
    | true =>
      have hstates : StatesRequirement (.text raw) (Text.trimmed raw) := ⟨raw, rfl, rfl, hid⟩
      refine ⟨_, _, ?_, ?_, stated_concat_of_states h hstates, is_ofRequirement_of_states h hstates⟩
      · by_cases hmem : Text.trimmed raw ∈ found
        · simp [hid, hmem]
        · simp [hid, hmem]
      · by_cases hmem : Text.trimmed raw ∈ found
        · simp [hid, hmem]
        · simp [hid, hmem]

theorem is_requirementEntries {before items : List Value} (hv : ∀ w ∈ items, w.Bare)
    {found : List String} (h : Stated before found) :
    Is (Each (fun e => OfRequirement ((before ++ items).take e.2) (indexed requirementsPath e.2) e.1)
        (items.zipIdx before.length))
      (Draft.requirementEntries found before.length items).problems := by
  induction items generalizing before found with
  | nil => exact is_each_nil
  | cons w items ih =>
    obtain ⟨found', ps, _, hproblems, hstated, hps⟩ :=
      requirementEntries_cons (hv w List.mem_cons_self) h before.length items
    have hrest := ih (fun u hu => hv u (List.mem_cons_of_mem _ hu)) hstated
    rw [List.length_append, List.length_singleton, List.append_assoc, List.singleton_append] at hrest
    rw [List.zipIdx_cons, hproblems]
    refine is_each_cons ?_ hrest
    rw [List.take_left]
    exact hps

theorem stated_requirementEntries {before items : List Value} (hv : ∀ w ∈ items, w.Bare)
    {found : List String} (h : Stated before found) (i : Nat) :
    Stated (before ++ items) (Draft.requirementEntries found i items).value := by
  induction items generalizing before found i with
  | nil => rwa [List.append_nil]
  | cons w items ih =>
    obtain ⟨found', _, hvalue, _, hstated, _⟩ :=
      requirementEntries_cons (hv w List.mem_cons_self) h i items
    have hrest := ih (fun u hu => hv u (List.mem_cons_of_mem _ hu)) hstated (i + 1)
    rw [List.append_assoc, List.singleton_append] at hrest
    rwa [hvalue]

theorem stated_nil : Stated [] [] := by simp [Stated]

theorem is_requirementList (hv : v.Bare) :
    Is (Optional v "legal_requirements" OfRequirements) (Draft.requirementList v).problems := by
  unfold Draft.requirementList
  rcases present?_cases hv "legal_requirements" with ⟨hp, hl⟩ | ⟨w, hp, hw, hbare⟩
  · rw [hp]
    exact is_fieldOr_of_lacks hl
  · rw [hp]
    refine is_fieldOr_of_gives hv hw ?_
    cases w with
    | sequence items =>
      exact is_ofSequence_of_items
        (is_requirementEntries (fun u hu => hbare.of_mem_items hu) stated_nil)
    | null | number | text | bool | mapping | tagged => exact is_ofSequence_of_shapeless (by simp)

theorem is_version {m : Value} (hm : m.Bare) :
    Is (Optional m "version" (OfText (metadataPath ++ ".version")
      (fun raw => Text.trimmed raw ≠ "") fun _ => "must not be empty"))
    (Draft.versionOf m).problems := by
  have hfield : metadataPath ++ "." ++ "version" = metadataPath ++ ".version" := dotted _ rfl
  rcases optionalText_cases hm metadataPath "version" with
    ⟨hl, hc⟩ | ⟨raw, hw, hc⟩ | ⟨w, hw, hno, hc⟩
  · exact (is_fieldOr_of_lacks hl).congr (by simp [Draft.versionOf, hc, Checked.ok])
  · cases hblank : Text.allBlank raw with
    | true =>
      have hempty := Text.trimmed_eq_empty_iff.2 hblank
      exact (is_fieldOr_of_gives hm hw (is_ofText_of_refused (not_not.2 hempty))).congr
        (by simp [Draft.versionOf, hc, hblank, Checked.ok])
    | false =>
      have hne : Text.trimmed raw ≠ "" := by
        rw [Ne, Text.trimmed_eq_empty_iff, hblank]
        simp
      exact (is_fieldOr_of_gives hm hw (is_ofText_of_fine hne)).congr
        (by simp [Draft.versionOf, hc, hblank, Checked.ok])
  · exact (is_fieldOr_of_gives hm hw (is_ofText_of_untyped hno)).congr
      (by simp [Draft.versionOf, hc, Checked.fail, ← hfield])

theorem is_description {m : Value} (hm : m.Bare) :
    Is (Optional m "description" (OfText (metadataPath ++ ".description") (fun _ => True) id))
      (optionalText m metadataPath "description").problems := by
  have hfield : metadataPath ++ "." ++ "description" = metadataPath ++ ".description" :=
    dotted _ rfl
  rcases optionalText_cases hm metadataPath "description" with
    ⟨hl, hc⟩ | ⟨raw, hw, hc⟩ | ⟨w, hw, hno, hc⟩
  · exact (is_fieldOr_of_lacks hl).congr (by rw [hc]; rfl)
  · exact (is_fieldOr_of_gives hm hw (is_ofText_of_fine trivial)).congr (by rw [hc]; rfl)
  · exact (is_fieldOr_of_gives hm hw (is_ofText_of_untyped hno)).congr (by rw [hc, hfield]; rfl)

theorem is_metadataOf (hv : v.Bare) :
    Is (Optional v "metadata" OfMetadata) (Draft.metadataOf v).problems := by
  rcases present?_cases hv "metadata" with ⟨hp, hl⟩ | ⟨w, hp, hw, hbare⟩
  · simp only [Draft.metadataOf, hp]
    exact is_fieldOr_of_lacks hl
  · refine is_fieldOr_of_gives hv hw ?_
    cases w with
    | mapping entries =>
      rw [Draft.metadataOf_mapping hp]
      exact is_ofMapping_of_entries
        (is_inTurn_cons (is_version hbare) (is_inTurn_singleton (is_description hbare)))
    | null | number | text | bool | sequence | tagged =>
      simp only [Draft.metadataOf, hp]
      exact is_ofMapping_of_shapeless (by simp)

end Covenant.Report
