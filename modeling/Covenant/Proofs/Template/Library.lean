import Covenant.Proofs.Artifact.Compose
import Covenant.Proofs.Table.Nested
import Covenant.Table.Lookup
import Covenant.Template.Library

/-! Libraries that have been checked. A base has no problems exactly when its slot set is
closed: it declares the slots it refers to, each with the kind it is used as. An override
that has none over its base refers to declared slots, too. Registration keeps it so for the
whole library, in whatever order the templates come, and a template that is resolved from
the library inherits it. -/
namespace Covenant.Template

theorem accept_eq_ok_iff {α : Type} {problems : List Error} {a b : α} :
    accept problems a = .ok b ↔ problems = [] ∧ a = b := by
  cases problems with
  | nil => simp [accept]
  | cons _ _ => simp [accept]

theorem useProblem_eq_none_iff {template slot : String} {declared : Option SlotKind}
    {used : SlotKind} : useProblem template declared slot used = none ↔ declared = some used := by
  cases declared with
  | none => simp [useProblem]
  | some kind => simp [useProblem]

/-- Every use of a slot is one that the slots are declared for. -/
def Declares (slots : Table SlotKind) (refs : List Reference) : Prop :=
  ∀ ref ∈ refs, slots.get? ref.name.value = some ref.kind

theorem mem_toList {α : Type} (bodies : Bodies α) (role : BodyRole) :
    (role, bodies.get role) ∈ bodies.toList := by
  cases role with
  | primary => simp [Bodies.toList, BodyRole.all]
  | deploy => simp [Bodies.toList, BodyRole.all]
  | test => simp [Bodies.toList, BodyRole.all]

/-- The slots that are declared are the slots that the bodies refer to, each as what it is declared
as; every body refers to those that state its origin, and what is preset is a declared scalar. -/
structure SlotsClosed (slots : Table SlotKind) (presets : Table String)
    (refs : BodyRole → List Reference) : Prop where
  declared : ∀ role, Declares slots (refs role)
  stated : ∀ role, ∀ slot ∈ provenanceSlots, ∃ ref ∈ refs role, ref.name.value = slot
  used : ∀ slot ∈ slots.keys, ∃ role, ∃ ref ∈ refs role, ref.name.value = slot
  preset : ∀ slot ∈ presets.keys, slots.get? slot = some .scalar

theorem SlotsClosed.get?_eq_some_iff {slots : Table SlotKind} {presets : Table String}
    {refs : BodyRole → List Reference} (h : SlotsClosed slots presets refs) {slot : String}
    {kind : SlotKind} : slots.get? slot = some kind ↔
      ∃ role, ∃ ref ∈ refs role, ref.name.value = slot ∧ ref.kind = kind := by
  constructor
  · intro hget
    have hslot : slot ∈ slots.keys := Table.mem_keys.2 (by rw [Table.contains, hget]; rfl)
    obtain ⟨role, ref, href, rfl⟩ := h.used slot hslot
    have hkind := h.declared role ref href
    rw [hget] at hkind
    exact ⟨role, ref, href, rfl, (Option.some.inj hkind).symm⟩
  · rintro ⟨role, ref, href, rfl, rfl⟩
    exact h.declared role ref href

namespace Base

theorem bodyProblems_eq_nil_iff {b : Base} {role : BodyRole} {text : Markup} :
    b.bodyProblems role text = [] ↔ Declares b.slots text.references ∧
      ∀ slot ∈ provenanceSlots, ∃ ref ∈ text.references, ref.name.value = slot := by
  simp only [bodyProblems, List.append_eq_nil_iff, List.filterMap_eq_nil_iff,
    useProblem_eq_none_iff, ite_eq_left_iff, reduceCtorEq, imp_false, Classical.not_not,
    List.any_eq_true, beq_iff_eq]
  rfl

theorem isUsed_iff {b : Base} {slot : String} : b.isUsed slot = true ↔
    ∃ role, ∃ ref ∈ (b.bodies.get role).references, ref.name.value = slot := by
  simp only [isUsed, List.any_eq_true, beq_iff_eq]
  constructor
  · rintro ⟨p, hp, href⟩
    obtain ⟨role, _, rfl⟩ := List.mem_map.1 hp
    exact ⟨role, href⟩
  · rintro ⟨role, href⟩
    exact ⟨_, mem_toList b.bodies role, href⟩

theorem presetProblem_eq_none_iff {b : Base} {slot : String} :
    b.presetProblem slot = none ↔ b.slots.get? slot = some .scalar := by
  unfold presetProblem
  cases b.slots.get? slot with
  | none => simp
  | some kind =>
    cases kind with
    | scalar => simp
    | block => simp

/-- A base has no problems when its slot set is closed. -/
theorem problems_eq_nil_iff_closed {b : Base} : b.problems = [] ↔
    SlotsClosed b.slots b.presets fun role => (b.bodies.get role).references := by
  simp only [problems, List.append_eq_nil_iff, List.flatMap_eq_nil_iff, List.filterMap_eq_nil_iff,
    bodyProblems_eq_nil_iff, presetProblem_eq_none_iff, ite_eq_left_iff, reduceCtorEq, imp_false,
    Classical.not_not, isUsed_iff]
  constructor
  · rintro ⟨⟨hbodies, hused⟩, hpreset⟩
    have hbody := fun role => hbodies _ (mem_toList b.bodies role)
    exact ⟨fun role => (hbody role).1, fun role => (hbody role).2, hused, hpreset⟩
  · intro h
    refine ⟨⟨fun p hp => ?_, h.used⟩, h.preset⟩
    obtain ⟨role, _, rfl⟩ := List.mem_map.1 hp
    exact ⟨h.declared role, h.stated role⟩

theorem declares_of_problems {b : Base} (h : b.problems = []) (role : BodyRole) :
    Declares b.slots (b.bodies.get role).references :=
  (problems_eq_nil_iff_closed.1 h).declared role

/-- Every declared slot is referred to in a body, as what it is declared as. -/
theorem exists_reference_of_declared {b : Base} (h : b.problems = []) {slot : String}
    {kind : SlotKind} (hslot : b.slots.get? slot = some kind) :
    ∃ role, ∃ ref ∈ (b.bodies.get role).references, ref.name.value = slot ∧ ref.kind = kind :=
  (problems_eq_nil_iff_closed.1 h).get?_eq_some_iff.1 hslot

/-- Every body refers to the slots that state what it was generated for. -/
theorem exists_provenance_reference {b : Base} (h : b.problems = []) (role : BodyRole)
    {slot : String} (hslot : slot ∈ provenanceSlots) :
    ∃ ref ∈ (b.bodies.get role).references, ref.name.value = slot :=
  (problems_eq_nil_iff_closed.1 h).stated role slot hslot

theorem presets_declared {b : Base} (h : b.problems = []) :
    ∀ slot ∈ b.presets.keys, b.slots.get? slot = some .scalar :=
  (problems_eq_nil_iff_closed.1 h).preset

theorem readBody_eq_ok_iff {name : String} {role : BodyRole} {source : List Char} {t : Markup} :
    readBody name role source = .ok t ↔ Markup.ofChars source = .ok t := by
  unfold readBody
  cases Markup.ofChars source with
  | error _ => simp
  | ok _ => simp

theorem ofDraft_eq_ok_iff {origin : String} {d : BaseDraft} {b : Base} :
    ofDraft origin d = .ok b ↔ Ident.isIdent (Ident.normalize d.name) = true ∧
      (∀ slot ∈ d.slots.keys, Ident.isIdent slot = true) ∧
      ∃ bodies : Bodies Markup,
        (∀ role, Markup.ofChars (d.bodies.get role) = .ok (bodies.get role)) ∧
        b.problems = [] ∧ b = ⟨Ident.normalize d.name, d.version, d.slots, d.presets, bodies⟩ := by
  unfold ofDraft
  simp only
  split
  · next hname =>
    rw [Bool.not_eq_true'] at hname
    exact iff_of_false nofun fun h => Bool.false_ne_true (hname.symm.trans h.1)
  · next hname =>
    rw [Bool.not_eq_true', Bool.not_eq_false] at hname
    split
    · next bad hbad =>
      have hslot : Ident.isIdent bad = false := by simpa using List.find?_some hbad
      refine iff_of_false nofun fun h => Bool.false_ne_true (hslot.symm.trans ?_)
      exact h.2.1 bad (List.mem_of_find?_eq_some hbad)
    · next hnone =>
      have hslots : ∀ slot ∈ d.slots.keys, Ident.isIdent slot = true := by
        simpa using List.find?_eq_none.1 hnone
      simp only [Outcome.bind_eq_ok_iff, Artifact.mapM_eq_ok_iff, readBody_eq_ok_iff,
        accept_eq_ok_iff]
      constructor
      · rintro ⟨bodies, hbodies, hproblems, rfl⟩
        exact ⟨hname, hslots, bodies, hbodies, hproblems, rfl⟩
      · rintro ⟨_, _, bodies, hbodies, hproblems, rfl⟩
        exact ⟨bodies, hbodies, hproblems, rfl⟩

theorem problems_of_read {source origin : String} {b : Base} (h : read source origin = .ok b) :
    b.problems = [] := by
  unfold read at h
  split at h
  · obtain ⟨_, _, _, _, hproblems, _⟩ := ofDraft_eq_ok_iff.1 h
    exact hproblems
  · cases h

end Base

namespace Override

theorem problems_eq_nil_iff {o : Override} {base : Base} :
    o.problems base = [] ↔
      (∀ slot ∈ o.scalars.keys, base.slots.get? slot = some .scalar) ∧
        ∀ e ∈ o.blocks.entries, base.slots.get? e.1 = some .block ∧
          Declares base.slots e.2.references := by
  simp only [problems, List.append_eq_nil_iff, List.filterMap_eq_nil_iff, List.flatMap_eq_nil_iff,
    Option.toList_eq_nil_iff, useProblem_eq_none_iff]
  rfl

end Override

/-! ### Changes in place -/

section

variable {α β : Type}

/-- A change of two parts goes on with the library that the first part leaves. -/
theorem run_bind (x : ExceptT Error (StateM Library) α)
    (f : α → ExceptT Error (StateM Library) β) (l : Library) :
    (x >>= f).run.run l = match x.run.run l with
      | (.ok a, l') => (f a).run.run l'
      | (.error e, l') => (.error e, l') := by
  rw [ExceptT.run_bind, StateT.run_bind]
  obtain ⟨answer, l'⟩ := x.run.run l
  cases answer with
  | ok _ => rfl
  | error _ => rfl

theorem run_ofExcept (x : Except Error α) (l : Library) :
    (MonadExcept.ofExcept x : ExceptT Error (StateM Library) α).run.run l = (x, l) := by
  cases x with
  | ok _ => rfl
  | error _ => rfl

end

/-- Checks leave the library, and the first problem that they meet counts. -/
theorem run_checks (os : List Override) (b : Base) (l : Library) :
    (os.forM fun o =>
        (MonadExcept.ofExcept (o.check b) : ExceptT Error (StateM Library) Unit)).run.run l =
      (accept (os.flatMap (·.problems b)) (), l) := by
  induction os with
  | nil => rfl
  | cons o os ih =>
    rw [List.forM_eq_forM, List.forM_cons, run_bind, run_ofExcept, Override.check,
      List.flatMap_cons]
    cases o.problems b with
    | nil => exact ih
    | cons e _ => rfl

/-- A change whose checks leave the library is made when they are passed, and leaves it else. -/
theorem run_guarded (taken : Bool) (refusal : Error)
    {checks : ExceptT Error (StateM Library) Unit} {l : Library} {answer : Except Error Unit}
    (hchecks : checks.run.run l = (answer, l)) (f : Library → Library) :
    (if taken then throw refusal else do checks; modify f :
        ExceptT Error (StateM Library) Unit).run.run l =
      match if taken then .error refusal else answer with
      | .ok () => (.ok (), f l)
      | .error e => (.error e, l) := by
  split
  · rfl
  · rw [run_bind, hchecks]
    cases answer with
    | ok _ => rfl
    | error _ => rfl

/-- A base is entered when its name is free and the overrides there fit it; else nothing is. -/
theorem Base.run_enter (b : Base) (l : Library) : l.run b.enter =
    match if l.bases.contains b.name then .error (.duplicate b.name)
      else accept ((l.overridesOf b.name).values.flatMap (·.problems b)) () with
    | .ok () => (.ok (), { l with bases := l.bases.insert b.name b })
    | .error e => (.error e, l) := by
  rw [Library.run, enter, run_bind]
  exact run_guarded _ _ (run_checks _ b l) fun l => { l with bases := l.bases.insert b.name b }

/-- An override is entered when its pair is free and it fits the base there; else nothing is. -/
theorem Override.run_enter (o : Override) (l : Library) : l.run o.enter =
    match if (l.overridesOf o.contractType).contains o.jurisdiction then
        .error (.duplicateOverride o.contractType o.jurisdiction)
      else accept ((l.bases.get? o.contractType).elim [] o.problems) () with
    | .ok () => (.ok (), { l with
      overrides := l.overrides.insert o.contractType
        ((l.overridesOf o.contractType).insert o.jurisdiction o) })
    | .error e => (.error e, l) := by
  have hchecks : ((l.bases.get? o.contractType).forM fun base =>
        (MonadExcept.ofExcept (o.check base) : ExceptT Error (StateM Library) Unit)).run.run l =
      (accept ((l.bases.get? o.contractType).elim [] o.problems) (), l) := by
    cases l.bases.get? o.contractType with
    | none => rfl
    | some base => exact run_ofExcept _ l
  rw [Library.run, enter, run_bind]
  exact run_guarded _ _ hchecks fun l => { l with
    overrides := l.overrides.insert o.contractType
      ((l.overridesOf o.contractType).insert o.jurisdiction o) }

namespace Library

variable {l l' : Library} {change : ExceptT Error (StateM Library) Unit}

theorem apply_eq_ok_iff : l.apply change = .ok l' ↔ l.run change = (.ok (), l') := by
  unfold apply
  obtain ⟨answer, l₁⟩ := l.run change
  cases answer with
  | ok _ => simp [Except.map]
  | error _ => simp [Except.map]

theorem apply_eq_error_iff {e : Error} :
    l.apply change = .error e ↔ ∃ l', l.run change = (.error e, l') := by
  unfold apply
  obtain ⟨answer, l₁⟩ := l.run change
  cases answer with
  | ok _ => simp [Except.map]
  | error _ => simp [Except.map]

/-- A change that is made when its checks are passed leads to the library that it makes then. -/
theorem apply_of_guarded {taken : Bool} {refusal : Error} {problems : List Error}
    (h : l.run change = match if taken then .error refusal else accept problems () with
      | .ok () => (.ok (), l')
      | .error e => (.error e, l)) :
    l.apply change = if taken then .error refusal else accept problems l' := by
  rw [apply, h]
  cases taken with
  | true => rfl
  | false =>
    cases problems with
    | nil => rfl
    | cons _ _ => rfl

theorem eq_of_guarded {answer : Except Error Unit} {e : Error} {l₁ : Library}
    (h : l.run change = match answer with
      | .ok () => (.ok (), l')
      | .error e => (.error e, l))
    (hrefused : l.run change = (.error e, l₁)) : l₁ = l := by
  rw [h] at hrefused
  cases answer with
  | ok _ => cases hrefused
  | error _ => exact (Prod.mk.inj hrefused).2.symm

theorem register_eq (l : Library) (b : Base) : l.register b =
    if l.bases.contains b.name then .error (.duplicate b.name)
    else accept ((l.overridesOf b.name).values.flatMap (·.problems b))
      { l with bases := l.bases.insert b.name b } :=
  apply_of_guarded (Base.run_enter b l)

theorem registerOverride_eq (l : Library) (o : Override) : l.registerOverride o =
    if (l.overridesOf o.contractType).contains o.jurisdiction then
      .error (.duplicateOverride o.contractType o.jurisdiction)
    else accept ((l.bases.get? o.contractType).elim [] o.problems) { l with
      overrides := l.overrides.insert o.contractType
        ((l.overridesOf o.contractType).insert o.jurisdiction o) } :=
  apply_of_guarded (Override.run_enter o l)

end Library

/-! ### Registration -/

namespace Library

/-- Templates are kept under their names and have been checked, overrides against the
base of their contract type as soon as there is one. -/
structure Sound (l : Library) : Prop where
  bases : ∀ t b, l.bases.get? t = some b → b.name = t ∧ b.problems = []
  overrides : ∀ t j o b, (l.overridesOf t).get? j = some o → l.bases.get? t = some b →
    o.problems b = []

theorem sound_empty : empty.Sound :=
  ⟨fun _ _ h => (nomatch h), fun _ _ _ _ _ h => (nomatch h)⟩

theorem get?_overridesOf_insert (l : Library) (o : Override) (t j : String) :
    (overridesOf { l with
      overrides := l.overrides.insert o.contractType
        ((l.overridesOf o.contractType).insert o.jurisdiction o) } t).get? j =
      if o.contractType = t ∧ o.jurisdiction = j then some o else (l.overridesOf t).get? j :=
  Table.get?_under_insertUnder l.overrides _ _ t j o

theorem mem_values_of_get? {t : Table Override} {j : String} {o : Override}
    (h : t.get? j = some o) : o ∈ t.values :=
  List.mem_map.2 ⟨(j, o), Table.mem_entries.2 h, rfl⟩

theorem Sound.register {l l' : Library} {b : Base} (hl : l.Sound) (hb : b.problems = [])
    (h : l.register b = .ok l') : l'.Sound := by
  rw [register_eq] at h
  split at h
  · cases h
  · obtain ⟨hproblems, rfl⟩ := accept_eq_ok_iff.1 h
    rw [List.flatMap_eq_nil_iff] at hproblems
    constructor
    · intro t b' hget
      rw [Table.get?_insert] at hget
      split at hget
      · next heq =>
        obtain rfl := Option.some.inj hget
        exact ⟨heq, hb⟩
      · exact hl.bases t b' hget
    · intro t j o b' ho hget
      rw [Table.get?_insert] at hget
      split at hget
      · next heq =>
        obtain rfl := Option.some.inj hget
        subst heq
        exact hproblems o (mem_values_of_get? ho)
      · exact hl.overrides t j o b' ho hget

theorem Sound.registerOverride {l l' : Library} {o : Override} (hl : l.Sound)
    (h : l.registerOverride o = .ok l') : l'.Sound := by
  rw [registerOverride_eq] at h
  split at h
  · cases h
  · obtain ⟨hproblems, rfl⟩ := accept_eq_ok_iff.1 h
    refine ⟨hl.bases, ?_⟩
    intro t j o' b ho hget
    rw [get?_overridesOf_insert] at ho
    split at ho
    · next heq =>
      obtain rfl := Option.some.inj ho
      obtain ⟨rfl, rfl⟩ := heq
      have hget : l.bases.get? o.contractType = some b := hget
      rwa [hget] at hproblems
    · exact hl.overrides t j o' b ho hget

end Library

/-! ### Resolved templates -/

namespace Resolved

/-- The slots of a resolved template are declared for every use in it. -/
structure Sound (r : Resolved) : Prop where
  bodies : ∀ role, Declares r.slots (r.body role).references
  extensions : ∀ slot t, r.extension? slot = some t → Declares r.slots t.references

end Resolved

theorem Library.resolve_eq_ok_iff {l : Library} {contractType jurisdiction : String}
    {r : Resolved} : l.resolve contractType jurisdiction = .ok r ↔
      l.get? contractType = some r.base ∧ r.overlay = l.getOverride? contractType jurisdiction ∧
        r.jurisdiction = Ident.normalize jurisdiction := by
  unfold resolve
  cases l.get? contractType with
  | none => simp
  | some base =>
    constructor
    · intro h
      obtain rfl := Except.ok.inj h
      exact ⟨rfl, rfl, rfl⟩
    · rintro ⟨hbase, hoverlay, hjurisdiction⟩
      simp only
      rw [Option.some.inj hbase, ← hoverlay, ← hjurisdiction]

theorem Library.Sound.resolve {l : Library} (hl : l.Sound) {contractType jurisdiction : String}
    {r : Resolved} (h : l.resolve contractType jurisdiction = .ok r) :
    r.Sound ∧ r.contractType = Ident.normalize contractType := by
  obtain ⟨hbase, hoverlay, _⟩ := resolve_eq_ok_iff.1 h
  obtain ⟨hname, hproblems⟩ := hl.bases _ _ hbase
  refine ⟨⟨Base.declares_of_problems hproblems, ?_⟩, hname⟩
  intro slot t ht
  obtain ⟨o, ho, ht⟩ := Option.bind_eq_some_iff.1 ht
  rw [hoverlay] at ho
  have hproblems := Override.problems_eq_nil_iff.1 (hl.overrides _ _ o _ ho hbase)
  exact (hproblems.2 (slot, t) (Table.mem_entries.2 ht)).2

/-- The slots that a resolved template presets are declared as scalars. -/
theorem Library.Sound.presets_declared {l : Library} (hl : l.Sound)
    {contractType jurisdiction : String} {r : Resolved}
    (h : l.resolve contractType jurisdiction = .ok r) :
    ∀ slot ∈ r.presets.keys, r.slots.get? slot = some .scalar := by
  obtain ⟨hbase, hoverlay, _⟩ := resolve_eq_ok_iff.1 h
  have hbasePresets := Base.presets_declared (hl.bases _ _ hbase).2
  intro slot hslot
  unfold Resolved.presets at hslot
  split at hslot
  · next o ho =>
    rw [hoverlay] at ho
    have hproblems := Override.problems_eq_nil_iff.1 (hl.overrides _ _ o _ ho hbase)
    exact (Table.mem_keys_merge hslot).elim (hbasePresets slot) (hproblems.1 slot)
  · exact hbasePresets slot hslot

end Covenant.Template
