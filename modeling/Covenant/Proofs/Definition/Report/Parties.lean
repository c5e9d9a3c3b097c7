import Mathlib.Data.List.ReduceOption
import Covenant.Proofs.Definition.Parties
import Covenant.Proofs.Definition.Report.Fields

/-! The party list. It is followed from the first entry on: what the check remembers of the
entries before is what can be told from those entries by themselves. -/
namespace Covenant.Report

open Yaml (Value)
open Definition
open Draft (present?_cases requiredText_cases optionalText_cases requiredText nameOf?
  nameOf?_eq_some_iff partiesPath indexed)

variable {α : Type} {v : Value} {path field : String} {vocabulary : Vocabulary}

/-! ### Entries -/

/-- What the entries before are remembered by. -/
def Names (before : List Value) (names : List String) : Prop :=
  ∀ s, s ∈ names ↔ ∃ u ∈ before, u.Field "name" StatesWords s

theorem names_concat {before : List Value} {names : List String} (h : Names before names)
    {w : Value} (hw : w.Bare) : Names (before ++ [w])
      (match nameOf? w with
        | some name => names ++ [name]
        | none => names) := by
  intro s
  have hlast : (∃ u ∈ before ++ [w], u.Field "name" StatesWords s) ↔
      s ∈ names ∨ nameOf? w = some s := by
    simp only [List.mem_append, List.mem_singleton, or_and_right, exists_or, exists_eq_left, h s,
      nameOf?_eq_some_iff hw]
  rw [hlast]
  cases nameOf? w with
  | none => simp
  | some name => simp [eq_comm]

theorem statesWords_unique {w : Value} {s t : String} (hs : StatesWords w s)
    (ht : StatesWords w t) : s = t := by
  obtain ⟨raw, rfl, rfl, _⟩ := hs
  obtain ⟨_, hraw, rfl, _⟩ := ht
  cases hraw
  rfl

theorem is_ofName_of_untyped {before : List Value} {w : Value} (hno : ∀ raw, w ≠ .text raw) :
    Is (OfName before field w) [.schema field "expected a string"] := by
  have hnone : ∀ s, ¬StatesWords w s := fun s ⟨raw, hraw, _⟩ => hno raw hraw
  refine .of_unique (.untyped hno) ?_
  rintro qs (_ | _ | ⟨hs, _, _⟩ | ⟨hs, _⟩)
  · rfl
  · exact absurd rfl (hno _)
  · exact absurd hs (hnone _)
  · exact absurd hs (hnone _)

theorem is_ofName_of_blank {before : List Value} {raw : String} (h : Text.trimmed raw = "") :
    Is (OfName before field (.text raw)) [.schema field "must not be empty"] := by
  have hnone : ∀ s, ¬StatesWords (.text raw) s := by
    rintro _ ⟨_, hraw, rfl, hne⟩
    cases hraw
    exact hne h
  refine .of_unique (.blank h) ?_
  rintro qs (hno | _ | ⟨hs, _, _⟩ | ⟨hs, _⟩)
  · exact absurd rfl (hno raw)
  · rfl
  · exact absurd hs (hnone _)
  · exact absurd hs (hnone _)

theorem is_ofName_of_words {before : List Value} {names : List String} (h : Names before names)
    {w : Value} {s : String} (hs : StatesWords w s) :
    Is (OfName before field w) (if s ∈ names then
      [.schema field ("duplicate party name '" ++ s ++ "'")] else []) := by
  have honly : ∀ {t}, StatesWords w t → t = s := fun ht => statesWords_unique ht hs
  obtain ⟨raw, hraw, hs', hne⟩ := id hs
  intro qs
  constructor
  · rintro (hno | hblank | ⟨ht, hu, hut⟩ | ⟨ht, hnew⟩)
    · exact absurd hraw (hno raw)
    · cases hraw
      exact absurd hblank (hs' ▸ hne)
    · obtain rfl := honly ht
      rw [if_pos ((h _).2 ⟨_, hu, hut⟩)]
    · obtain rfl := honly ht
      rw [if_neg fun hmem => ?_]
      obtain ⟨u, hu, hut⟩ := (h _).1 hmem
      exact hnew u hu hut
  · rintro rfl
    split
    · next hmem =>
      obtain ⟨u, hu, hut⟩ := (h s).1 hmem
      exact .repeated hs hu hut
    · next hmem => exact .new hs fun u hu hut => hmem ((h s).2 ⟨u, hu, hut⟩)

theorem is_partyName (hv : v.Bare) {before : List Value} {names : List String}
    (h : Names before names) : Is (Required v path "name" (OfName before (path ++ ".name")))
      (Draft.partyName names v path).problems := by
  have hfield := @dotted "name" ".name" path rfl
  rcases requiredText_cases hv path "name" with ⟨hl, hc⟩ | ⟨raw, hw, hc⟩ | ⟨w, hw, hno, hc⟩
  · exact (is_fieldOr_of_lacks hl).congr (by simp [Draft.partyName, hc, Checked.missing])
  · have hwords := @nameOf?_eq_some_iff v hv
    simp only [Draft.field_of_gives hv hw] at hwords
    cases hn : nameOf? v with
    | none =>
      have hblank : Text.trimmed raw = "" := by
        by_contra hne
        rw [hwords.2 ⟨raw, rfl, rfl, hne⟩] at hn
        cases hn
      exact (is_fieldOr_of_gives hv hw (is_ofName_of_blank hblank)).congr
        (by simp [Draft.partyName, hc, hn, Checked.ok, Checked.fail])
    | some s =>
      refine (is_fieldOr_of_gives hv hw (is_ofName_of_words h (hwords.1 hn))).congr ?_
      by_cases hmem : s ∈ names
      · simp [Draft.partyName, hc, hn, hmem, Checked.ok, Checked.fail]
      · simp [Draft.partyName, hc, hn, hmem, Checked.ok]
  · exact (is_fieldOr_of_gives hv hw (is_ofName_of_untyped hno)).congr
      (by simp [Draft.partyName, hc, Checked.fail, ← hfield])

theorem is_partyRole (hv : v.Bare) : Is (Required v path "role" (OfText (path ++ ".role")
      (fun raw => (vocabulary.role? (Ident.normalize raw)).isSome = true)
      fun raw => "unregistered role '" ++ raw ++ "'"))
    (Draft.partyRole vocabulary v path).problems :=
  is_requiredWord hv (dotted path rfl) fun _ => Iff.rfl

theorem is_partyAddress (hv : v.Bare) : Is (Optional v "address" (OfText (path ++ ".address")
      (fun raw => Address.isWellFormed (Text.trimmed raw) = true)
      fun raw => "malformed address '" ++ raw ++ "': expected 0x followed by 40 hex digits"))
    (Draft.partyAddress v path).problems := by
  have hfield := @dotted "address" ".address" path rfl
  rcases optionalText_cases hv path "address" with ⟨hl, hc⟩ | ⟨raw, hw, hc⟩ | ⟨w, hw, hno, hc⟩
  · exact (is_fieldOr_of_lacks hl).congr (by simp [Draft.partyAddress, hc, Checked.ok])
  · cases hok : Address.isWellFormed (Text.trimmed raw) with
    | true =>
      exact (is_fieldOr_of_gives hv hw (is_ofText_of_fine hok)).congr
        (by simp [Draft.partyAddress, hc, hok, Checked.ok])
    | false =>
      exact (is_fieldOr_of_gives hv hw (is_ofText_of_refused (by simp [hok]))).congr
        (by simp [Draft.partyAddress, hc, hok, Checked.ok])
  · exact (is_fieldOr_of_gives hv hw (is_ofText_of_untyped hno)).congr
      (by simp [Draft.partyAddress, hc, Checked.fail, ← hfield])

theorem is_ofFlag_of_untyped {w : Value} (h : ∀ b, w ≠ .bool b) :
    Is (OfFlag field w) [.schema field "expected a boolean"] := by
  refine .of_unique (.untyped h) ?_
  rintro qs (_ | b)
  · rfl
  · exact absurd rfl (h b)

theorem is_ofFlag_of_bool (b : Bool) : Is (OfFlag field (.bool b)) [] := by
  refine .of_unique (.fine b) ?_
  rintro qs (hno | _)
  · exact absurd rfl (hno b)
  · rfl

theorem is_partyVerification (hv : v.Bare) :
    Is (Optional v "verification_required" (OfFlag (path ++ ".verification_required")))
      (Draft.partyVerification v path).problems := by
  unfold Draft.partyVerification
  rcases present?_cases hv "verification_required" with ⟨hp, hl⟩ | ⟨w, hp, hw, _⟩
  · rw [hp]
    exact is_fieldOr_of_lacks hl
  · rw [hp]
    refine is_fieldOr_of_gives hv hw ?_
    cases w with
    | bool b => exact is_ofFlag_of_bool b
    | null | number | text | sequence | mapping | tagged => exact is_ofFlag_of_untyped (by simp)

/-- The problems of an entry are those of its fields; of the entries before it they take the
names. -/
theorem is_party (hv : v.Bare) {before : List Value} {names : List String}
    (h : Names before names) :
    Is (OfParty vocabulary before path v) (Draft.party vocabulary names v path).problems := by
  cases hmap : v.isMapping with
  | false =>
    simp only [Draft.party, hmap]
    exact is_ofMapping_of_shapeless (ne_mapping hv hmap)
  | true =>
    obtain ⟨entries, rfl⟩ := (isMapping_iff hv).1 hmap
    simp only [Draft.party, hmap, ↓reduceIte, List.append_assoc]
    exact is_ofMapping_of_entries <| is_inTurn_cons (is_partyName hv h) <|
      is_inTurn_cons (is_partyRole hv) <| is_inTurn_cons (is_partyAddress hv) <|
      is_inTurn_singleton (is_partyVerification hv)

/-- By induction on the entries that are left, `before` being those that have been looked at. -/
theorem is_partyEntries {before items : List Value} (hv : ∀ w ∈ items, w.Bare)
    {names : List String} (h : Names before names) :
    Is (Each (fun e => OfParty vocabulary ((before ++ items).take e.2) (indexed partiesPath e.2) e.1)
        (items.zipIdx before.length))
      (Checked.sequence
        (Draft.partyEntries vocabulary names before.length items)).problems := by
  induction items generalizing before names with
  | nil => exact is_each_nil
  | cons w items ih =>
    have hw := hv w List.mem_cons_self
    have hrest := ih (fun u hu => hv u (List.mem_cons_of_mem _ hu)) (names_concat h hw)
    rw [List.length_append, List.length_singleton, List.append_assoc, List.singleton_append] at hrest
    rw [List.zipIdx_cons]
    refine is_each_cons ?_ hrest
    rw [List.take_left]
    exact is_party hw h

/-! ### Who is missing -/

theorem partyName_value_iff (hv : v.Bare) {names : List String} {s : String} :
    (Draft.partyName names v path).value = some s ↔
      v.Field "name" StatesWords s ∧ s ∉ names := by
  refine (Draft.partyName_delivers hv).value_iff fun a ha => ?_
  unfold Draft.partyName at ha ⊢
  simp only at ha ⊢
  cases hc : (requiredText v path "name").value with
  | none => simp [hc] at ha
  | some raw =>
    cases hn : nameOf? v with
    | none => simp [hc, hn, Checked.fail] at ha
    | some name =>
      by_cases hmem : name ∈ names
      · simp [hc, hn, hmem, Checked.fail] at ha
      · simp [hmem, Checked.ok]

theorem partyRole_value_iff (hv : v.Bare) {r : PartyRole} :
    (Draft.partyRole vocabulary v path).value = some r ↔
      v.Field "role" (StatesRole vocabulary) r :=
  (Draft.partyRole_delivers hv).value_iff fun a ha =>
    Draft.requiredWord_problems_eq_nil_iff.2 ⟨a, ha⟩

/-- What an entry comes to tells who can be made of it. -/
def Found (vocabulary : Vocabulary) (before : List Value) (v : Value) (x : Option Party) : Prop :=
  ∀ r, Makes vocabulary before v r ↔ ∃ p, x = some p ∧ p.role = r

theorem found_party (hv : v.Bare) {before : List Value} {names : List String}
    (h : Names before names) :
    Found vocabulary before v (Draft.party vocabulary names v path).value := by
  intro r
  have hmakes : Makes vocabulary before v r ↔
      ∃ s, (Draft.partyName names v path).value = some s ∧
        (Draft.partyRole vocabulary v path).value = some r := by
    simp only [partyName_value_iff hv, partyRole_value_iff hv, h _, not_exists, not_and]
    constructor
    · rintro ⟨⟨s, hs, hnew⟩, hr⟩
      exact ⟨s, ⟨hs, hnew⟩, hr⟩
    · rintro ⟨s, ⟨hs, hnew⟩, hr⟩
      exact ⟨⟨s, hs, hnew⟩, hr⟩
  rw [hmakes]
  cases hmap : v.isMapping with
  | false =>
    simp only [Draft.party, hmap, Checked.fail]
    constructor
    · rintro ⟨s, hs, _⟩
      obtain ⟨⟨w, hw, _⟩, _⟩ := (partyName_value_iff hv).1 hs
      rw [hw.isMapping] at hmap
      cases hmap
    · rintro ⟨p, hp, _⟩
      cases hp
  | true =>
    simp only [Draft.party, hmap, ↓reduceIte]
    cases (Draft.partyName names v path).value with
    | none => simp
    | some s =>
      cases (Draft.partyRole vocabulary v path).value with
      | none => simp
      | some r' => simp

theorem found_partyEntries {before items : List Value} (hv : ∀ w ∈ items, w.Bare)
    {names : List String} (h : Names before names) :
    List.Forall₂ (fun e => Found vocabulary ((before ++ items).take e.2) e.1)
      (items.zipIdx before.length)
      (Checked.sequence (Draft.partyEntries vocabulary names before.length items)).value := by
  induction items generalizing before names with
  | nil => exact .nil
  | cons w items ih =>
    have hw := hv w List.mem_cons_self
    have hrest := ih (fun u hu => hv u (List.mem_cons_of_mem _ hu)) (names_concat h hw)
    rw [List.length_append, List.length_singleton, List.append_assoc, List.singleton_append] at hrest
    rw [List.zipIdx_cons]
    refine .cons ?_ hrest
    rw [List.take_left]
    exact found_party hw h

theorem lacking_eq (c : RoleClass) (ps : List Party) (reason : String) :
    lacking c (ps.map (·.role)) reason =
      if !ps.any fun p => p.role.roleClass == c then [.schema partiesPath reason] else [] := by
  have hany : c ∈ (ps.map (·.role)).map (·.roleClass) ↔
      (ps.any fun p => p.role.roleClass == c) = true := by
    simp
  rw [lacking]
  cases hc : ps.any fun p => p.role.roleClass == c with
  | true => rw [if_pos (hany.2 hc)]; rfl
  | false =>
    rw [if_neg fun hmem => by rw [hany.1 hmem] at hc; cases hc]
    rfl

theorem makes_iff_roles {es : List (Value × Nat)} {items : List Value} {ps : List Party}
    (h : List.Forall₂ (fun e => Found vocabulary (items.take e.2) e.1) es (ps.map some))
    (roles : List PartyRole) :
    List.Forall₂ (fun e r => Makes vocabulary (items.take e.2) e.1 r) es roles ↔
      roles = ps.map (·.role) := by
  induction ps generalizing es roles with
  | nil =>
    rw [List.map_nil, List.forall₂_nil_right_iff] at h
    subst h
    simp
  | cons p ps ih =>
    rw [List.map_cons, List.forall₂_cons_right_iff] at h
    obtain ⟨e, es', he, hes, rfl⟩ := h
    rw [List.forall₂_cons_left_iff, List.map_cons]
    simp only [he _, ih hes]
    simp

theorem exists_eq_map_some {xs : List (Option α)} (h : ∀ x ∈ xs, x.isSome = true) :
    ∃ as : List α, xs = as.map some := by
  induction xs with
  | nil => exact ⟨[], rfl⟩
  | cons x xs ih =>
    obtain ⟨a, rfl⟩ := Option.isSome_iff_exists.1 (h x List.mem_cons_self)
    obtain ⟨as, rfl⟩ := ih fun y hy => h y (List.mem_cons_of_mem _ hy)
    exact ⟨a :: as, rfl⟩

theorem is_coverage_of_some {items : List Value} (hne : items ≠ []) {ps : List Party}
    (h : List.Forall₂ (fun e => Found vocabulary (items.take e.2) e.1) items.zipIdx (ps.map some)) :
    Is (OfCoverage vocabulary items) (Draft.coverageProblems ps) := by
  have hproblems : Draft.coverageProblems ps =
      lacking .payer (ps.map (·.role)) "at least one payer-equivalent party is required" ++
        lacking .payee (ps.map (·.role)) "at least one payee-equivalent party is required" := by
    rw [lacking_eq, lacking_eq]
    rfl
  rw [hproblems]
  refine .of_unique (.known hne ((makes_iff_roles h _).2 rfl)) ?_
  rintro qs (hunknown | ⟨_, hroles⟩)
  · rcases hunknown with hempty | ⟨e, he, hnone⟩
    · exact absurd hempty hne
    · obtain ⟨x, hx, hfound⟩ := Checked.mem_right_of_forall₂ h he
      obtain ⟨p, _, rfl⟩ := List.mem_map.1 hx
      exact absurd ((hfound p.role).2 ⟨p, rfl, rfl⟩) (hnone _)
  · rw [(makes_iff_roles h _).1 hroles]

theorem is_coverage_of_none {items : List Value} {xs : List (Option Party)}
    (h : List.Forall₂ (fun e => Found vocabulary (items.take e.2) e.1) items.zipIdx xs)
    (hnone : items = [] ∨ none ∈ xs) : Is (OfCoverage vocabulary items) [] := by
  have hunknown : items = [] ∨
      ∃ e ∈ items.zipIdx, ∀ r, ¬Makes vocabulary (items.take e.2) e.1 r := by
    refine hnone.imp_right fun hmem => ?_
    obtain ⟨e, he, hfound⟩ := Checked.mem_left_of_forall₂ h hmem
    exact ⟨e, he, fun r hr => by obtain ⟨p, hp, _⟩ := (hfound r).1 hr; cases hp⟩
  refine .of_unique (.unknown hunknown) ?_
  rintro qs (_ | ⟨hne, hroles⟩)
  · rfl
  · obtain ⟨e, he, hno⟩ := hunknown.resolve_left hne
    obtain ⟨r, _, hr⟩ := Checked.mem_right_of_forall₂ hroles he
    exact absurd hr (hno r)

/-- Who is missing can be told when something has been made of every entry. -/
theorem is_coverage {items : List Value} {xs : List (Option Party)}
    (h : List.Forall₂ (fun e => Found vocabulary (items.take e.2) e.1) items.zipIdx xs) :
    Is (OfCoverage vocabulary items)
      (if (xs.filterMap id).length = items.length && !items.isEmpty then
        Draft.coverageProblems (xs.filterMap id) else []) := by
  have hlength : (xs.filterMap id).length = items.length ↔ ∀ x ∈ xs, x.isSome = true := by
    rw [← @List.length_zipIdx _ items 0, h.length_eq]
    exact List.reduceOption_length_eq_iff
  by_cases hmade : items ≠ [] ∧ ∀ x ∈ xs, x.isSome = true
  · obtain ⟨hne, hsome⟩ := hmade
    rw [hlength.2 hsome, if_pos (by simp [hne])]
    obtain ⟨ps, rfl⟩ := exists_eq_map_some hsome
    rw [List.filterMap_map, Function.id_comp, List.filterMap_some]
    exact is_coverage_of_some hne h
  · have hopen : ¬(decide ((xs.filterMap id).length = items.length) && !items.isEmpty) = true := by
      rw [Bool.and_eq_true, decide_eq_true_eq, hlength, Bool.not_eq_true',
        List.isEmpty_eq_false_iff, and_comm]
      exact hmade
    rw [if_neg hopen]
    refine is_coverage_of_none h ?_
    by_contra hno
    rw [not_or] at hno
    refine hmade ⟨hno.1, fun x hx => ?_⟩
    cases x with
    | none => exact absurd hx hno.2
    | some _ => rfl

theorem is_partyList (hv : v.Bare) :
    Is (Required v "contract" "parties" (OfParties vocabulary))
      (Draft.partyList vocabulary v).problems := by
  unfold Draft.partyList
  rcases present?_cases hv "parties" with ⟨hp, hl⟩ | ⟨w, hp, hw, hbare⟩
  · rw [hp]
    exact is_fieldOr_of_lacks hl
  · rw [hp]
    refine is_fieldOr_of_gives hv hw ?_
    cases w with
    | sequence items =>
      have hitems : ∀ u ∈ items, u.Bare := fun u hu => hbare.of_mem_items hu
      have hnames : Names [] [] := by simp [Names]
      refine is_ofSequence_of_items ?_
      simp only [List.append_assoc]
      exact is_inTurn_cons (is_exactly _) <| is_inTurn_cons (is_partyEntries hitems hnames) <|
        is_inTurn_singleton (is_coverage (found_partyEntries hitems hnames))
    | null | number | text | bool | mapping | tagged => exact is_ofSequence_of_shapeless (by simp)

end Covenant.Report
