import Covenant.Proofs.Additions
import Covenant.Proofs.Table.Nested
import Covenant.Proofs.Template.Registration

/-! The order of registration. Whether a template is taken depends on two things only, which do
not depend on when it comes: that its key is free, and that overrides fit their base. So a row of
offers is taken in every order or in none, and leads to the same library; what has been refused
on the way leaves no trace. -/
namespace Covenant.Template

/-- Two templates that can stand in one library: they have different keys, and an override fits
the base of its contract type. -/
def Offer.Agrees : Offer → Offer → Prop
  | .base b, .base b' => b.name ≠ b'.name
  | .override o, .override o' =>
    ¬(o.contractType = o'.contractType ∧ o.jurisdiction = o'.jurisdiction)
  | .base b, .override o => o.contractType = b.name → o.problems b = []
  | .override o, .base b => o.contractType = b.name → o.problems b = []

theorem Offer.Agrees.symm {x y : Offer} (h : x.Agrees y) : y.Agrees x := by
  cases x with
  | base b =>
    cases y with
    | base b' => exact Ne.symm h
    | override o => exact h
  | override o =>
    cases y with
    | base b => exact h
    | override o' => exact fun heq => h ⟨heq.1.symm, heq.2.symm⟩

namespace Library

/-- The key of the offer is free, and what is there already fits it. -/
def Admits (l : Library) : Offer → Prop
  | .base b => l.bases.get? b.name = none ∧
      ∀ j o, (l.overridesOf b.name).get? j = some o → o.problems b = []
  | .override o => (l.overridesOf o.contractType).get? o.jurisdiction = none ∧
      ∀ b, l.bases.get? o.contractType = some b → o.problems b = []

/-- The library with one more template. -/
def put (l : Library) : Offer → Library
  | .base b => { l with bases := l.bases.insert b.name b }
  | .override o =>
    { l with overrides := l.overrides.insertUnder o.contractType o.jurisdiction o }

variable {l l' : Library} {x y : Offer} {o : Override}

theorem get?_overridesOf_put (l : Library) (o : Override) (t j : String) :
    ((l.put (.override o)).overridesOf t).get? j =
      if o.contractType = t ∧ o.jurisdiction = j then some o else (l.overridesOf t).get? j :=
  Table.get?_under_insertUnder l.overrides _ _ t j o

/-! ### One offer -/

theorem register_eq_ok_iff {b : Base} :
    l.register b = .ok l' ↔ l.Admits (.base b) ∧ l' = l.put (.base b) := by
  rw [register_eq, Admits, Table.contains]
  cases hget : l.bases.get? b.name with
  | some _ => simp
  | none =>
    simp only [Option.isSome_none, Bool.false_eq_true, ↓reduceIte, accept_eq_ok_iff,
      List.flatMap_eq_nil_iff, true_and, put]
    refine and_congr ⟨fun h j o ho => h o (mem_values_of_get? ho), fun h o ho => ?_⟩ eq_comm
    obtain ⟨⟨j, _⟩, he, rfl⟩ := List.mem_map.1 ho
    exact h j _ (Table.mem_entries.1 he)

theorem registerOverride_eq_ok_iff :
    l.registerOverride o = .ok l' ↔ l.Admits (.override o) ∧ l' = l.put (.override o) := by
  rw [registerOverride_eq, Admits, Table.contains]
  cases hget : (l.overridesOf o.contractType).get? o.jurisdiction with
  | some _ => simp
  | none =>
    simp only [Option.isSome_none, Bool.false_eq_true, ↓reduceIte, accept_eq_ok_iff, true_and, put]
    refine and_congr ?_ eq_comm
    cases l.bases.get? o.contractType with
    | none => simp
    | some b => simp

theorem offer_eq_ok_iff : l.offer x = .ok l' ↔ l.Admits x ∧ l' = l.put x := by
  cases x with
  | base b => exact register_eq_ok_iff
  | override o => exact registerOverride_eq_ok_iff

theorem run_eq_ok_iff : x.run l = (.ok (), l') ↔ l.Admits x ∧ l' = l.put x :=
  Offer.run_eq_ok_iff.trans offer_eq_ok_iff

theorem not_admits_of_refused {e : Error} (h : x.run l = (.error e, l')) : ¬l.Admits x := by
  intro hadmits
  have hok : x.run l = (.ok (), l.put x) := run_eq_ok_iff.2 ⟨hadmits, rfl⟩
  rw [h] at hok
  cases hok

/-! ### The next offer -/

theorem admits_put (hx : l.Admits x) : (l.put x).Admits y ↔ l.Admits y ∧ x.Agrees y := by
  cases x with
  | base b =>
    cases y with
    | base b' =>
      simp only [Admits, put, Offer.Agrees, Table.get?_insert]
      by_cases heq : b.name = b'.name
      · simp [heq]
      · simp [heq, overridesOf]
    | override o =>
      simp only [Admits, put, Offer.Agrees, Table.get?_insert]
      by_cases heq : b.name = o.contractType
      · rw [← heq, hx.1]
        simp [overridesOf]
      · simp [heq, overridesOf, Ne.symm heq]
  | override o =>
    cases y with
    | base b =>
      simp only [Admits, get?_overridesOf_put, Offer.Agrees]
      constructor
      · rintro ⟨hfree, hfit⟩
        refine ⟨⟨hfree, fun j o' ho' => hfit j o' ?_⟩, fun heq => hfit _ o (if_pos ⟨heq, rfl⟩)⟩
        -- the key of the new override was free, so it takes the place of no other
        rwa [if_neg]
        rintro ⟨heq, rfl⟩
        rw [← heq, hx.1] at ho'
        cases ho'
      · rintro ⟨⟨hfree, hfit⟩, hagrees⟩
        refine ⟨hfree, fun j o' ho' => ?_⟩
        split at ho'
        · next heq =>
          obtain rfl := Option.some.inj ho'
          exact hagrees heq.1
        · exact hfit j o' ho'
    | override o' =>
      simp only [Admits, get?_overridesOf_put, Offer.Agrees]
      by_cases heq : o.contractType = o'.contractType ∧ o.jurisdiction = o'.jurisdiction
      · simp [heq]
      · simp [heq, put]

theorem put_comm (h : x.Agrees y) : (l.put x).put y = (l.put y).put x := by
  cases x with
  | base b =>
    cases y with
    | base b' => simp only [put, Table.insert_comm _ h]
    | override o => rfl
  | override o =>
    cases y with
    | base b => rfl
    | override o' => simp only [put, Table.insertUnder_comm _ h]

/-- Offers as additions to a library. -/
def additions : Additions offer where
  Admits := Admits
  put := put
  Agrees := Offer.Agrees
  add_eq_ok_iff _ _ _ := offer_eq_ok_iff
  admits_put _ _ _ := admits_put
  agrees_symm _ _ := Offer.Agrees.symm
  put_comm _ _ _ := put_comm

/-! ### A row of offers -/

/-- The members of a row that are taken, each by the library that those before it leave. -/
def taken (l : Library) : List Offer → List Offer
  | [] => []
  | x :: rest =>
    match (x.run l).1 with
    | .ok () => x :: (l.after x).taken rest
    | .error _ => (l.after x).taken rest

theorem taken_cons_of_ok {rest : List Offer} (h : l.offer x = .ok l') :
    l.taken (x :: rest) = x :: l'.taken rest := by
  rw [taken, Offer.run_eq_ok_iff.2 h, after_of_taken h]

theorem taken_cons_of_error {rest : List Offer} {e : Error} (h : l.offer x = .error e) :
    l.taken (x :: rest) = l.taken rest := by
  rw [taken, Offer.run_eq_error_iff.2 ⟨h, rfl⟩, after_of_refused h]

variable {row row' : List Offer}

theorem taken_sublist : (l.taken row).Sublist row := by
  induction row generalizing l with
  | nil => exact .slnil
  | cons x row ih =>
    cases hx : l.offer x with
    | ok l' =>
      rw [taken_cons_of_ok hx]
      exact ih.cons_cons x
    | error e =>
      rw [taken_cons_of_error hx]
      exact ih.cons x

/-- A row leads where its members that are taken lead by themselves. -/
theorem foldlM_taken : (l.taken row).foldlM offer l = .ok (row.foldl after l) := by
  induction row generalizing l with
  | nil => rfl
  | cons x row ih =>
    rw [List.foldl_cons]
    cases hx : l.offer x with
    | ok l' =>
      rw [taken_cons_of_ok hx, after_of_taken hx]
      exact Outcome.foldlM_cons_of_ok hx ih
    | error e =>
      rw [taken_cons_of_error hx, after_of_refused hx]
      exact ih

theorem taken_eq_self_iff : l.taken row = row ↔ ∃ l', row.foldlM offer l = .ok l' := by
  constructor
  · intro h
    exact ⟨_, h ▸ foldlM_taken⟩
  · rintro ⟨l', h⟩
    induction row generalizing l with
    | nil => rfl
    | cons x row ih =>
      rw [List.foldlM_cons] at h
      obtain ⟨l₁, hfirst, hrest⟩ := Outcome.bind_eq_ok_iff.1 h
      rw [taken_cons_of_ok hfirst]
      exact congrArg (x :: ·) (ih hrest)

/-- Every member of a row is taken when the library admits each of them and any two agree. -/
theorem taken_eq_self_iff_agrees :
    l.taken row = row ↔ (∀ x ∈ row, l.Admits x) ∧ row.Pairwise Offer.Agrees :=
  taken_eq_self_iff.trans additions.exists_foldlM_iff

/-- A row of which every member is taken is taken in every order, and leads to the same library. -/
theorem taken_perm (hperm : row.Perm row') (h : l.taken row = row) :
    l.taken row' = row' ∧ row'.foldl after l = row.foldl after l := by
  have hok : row.foldlM offer l = .ok (row.foldl after l) := by
    rw [← foldlM_taken, h]
  have hok' := additions.foldlM_perm hperm hok
  have htaken : l.taken row' = row' := taken_eq_self_iff.2 ⟨_, hok'⟩
  have hlast : row'.foldlM offer l = .ok (row'.foldl after l) := by
    rw [← foldlM_taken, htaken]
  exact ⟨htaken, Except.ok.inj (hlast.symm.trans hok')⟩

/-! ### Resolved templates -/

/-- An override is added to the template of its own pair, and to no other. -/
theorem resolve_put_override (l : Library) (o : Override) (t j : String) :
    (l.put (.override o)).resolve t j =
      if Ident.normalize t = o.contractType ∧ Ident.normalize j = o.jurisdiction then
        (l.resolve t j).map fun r => { r with overlay := some o }
      else l.resolve t j := by
  have hoverlay := get?_overridesOf_put l o (Ident.normalize t) (Ident.normalize j)
  have hbase : (l.put (.override o)).get? t = l.get? t := rfl
  simp only [resolve, hbase, getOverride?, hoverlay, eq_comm]
  cases l.get? t with
  | none => simp [Except.map]
  | some base =>
    split
    · rfl
    · rfl

/-- The order of registration does not matter. A call succeeds exactly when the library admits the
template, and adds it; a call that fails leaves the library as it was, so that a row of calls leads
where those of its calls lead that succeed. All calls of a row succeed exactly when
the library admits each and any two agree, so exactly when all of them succeed in every order, and
then every order leads to the same library and the same templates. Registering an override changes
the template of its own pair alone. -/
theorem registration_order (l : Library) (row : List Offer) :
    (∀ x l', x.run l = (.ok (), l') ↔ l.Admits x ∧ l' = l.put x) ∧
      (∀ x e l', x.run l = (.error e, l') → ¬l.Admits x ∧ l' = l) ∧
      ((l.taken row).Sublist row ∧ (l.taken row).foldlM offer l = .ok (row.foldl after l)) ∧
      (l.taken row = row ↔ (∀ x ∈ row, l.Admits x) ∧ row.Pairwise Offer.Agrees) ∧
      (l.taken row = row ↔ ∀ row' : List Offer, row'.Perm row → l.taken row' = row') ∧
      (l.taken row = row → ∀ row' : List Offer, row'.Perm row →
        row'.foldl after l = row.foldl after l ∧
        ∀ t j, (row'.foldl after l).resolve t j = (row.foldl after l).resolve t j) ∧
      ∀ o l', (Offer.override o).run l = (.ok (), l') → ∀ t j, l'.resolve t j =
        if Ident.normalize t = o.contractType ∧ Ident.normalize j = o.jurisdiction then
          (l.resolve t j).map fun r => { r with overlay := some o }
        else l.resolve t j := by
  refine ⟨fun x l' => run_eq_ok_iff, fun x e l' h => ⟨not_admits_of_refused h, x.eq_of_refused h⟩,
    ⟨taken_sublist, foldlM_taken⟩, taken_eq_self_iff_agrees, ?_, ?_, ?_⟩
  · exact ⟨fun h row' hperm => (taken_perm hperm.symm h).1, fun h => h row (.refl row)⟩
  · intro h row' hperm
    have hsame := (taken_perm hperm.symm h).2
    exact ⟨hsame, fun t j => by rw [hsame]⟩
  · intro o l' h
    rw [(run_eq_ok_iff.1 h).2]
    exact resolve_put_override l o

end Library
end Covenant.Template
