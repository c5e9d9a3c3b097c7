import Mathlib.Data.List.Induction
import Covenant.Config
import Covenant.Proofs.Vocabulary.Extended

/-! Configured roles. A configuration lists classes under names as they are written, and a vocabulary
looks roles up under normalized names. Entries whose names are normalized to one role are set one after
the other, so that the last of them counts; and whatever an entry says of `payer` and `payee`, these
keep their class. So a configuration that has been accepted means what it says about roles exactly when
no two of its entries contradict each other and none contradicts these two. -/
namespace Covenant

namespace Table

/-- Looking a name up from the end of a sorted list whose names are rewritten finds the entry of the
last name that is rewritten to it. -/
theorem find?_reverse_map_eq_some_iff {α : Type} {f : String → String} {es : List (String × α)}
    (sorted : es.Pairwise fun a b => a.1 < b.1) {name : String} {a : α} :
    find? name (es.map fun e => (f e.1, e.2)).reverse = some a ↔
      ∃ k, (k, a) ∈ es ∧ f k = name ∧ ∀ e ∈ es, k < e.1 → f e.1 ≠ name := by
  induction es using List.reverseRecOn with
  | nil => simp [find?]
  | append_singleton es e ih =>
    obtain ⟨hes, -, hlast⟩ := List.pairwise_append.1 sorted
    rw [List.map_append, List.reverse_append, List.map_singleton, List.reverse_singleton,
      List.singleton_append, find?]
    split
    · next hname =>
      constructor
      · intro h
        obtain rfl := Option.some.inj h
        refine ⟨e.1, List.mem_append_right _ List.mem_cons_self, hname, fun d hd hlt => ?_⟩
        rcases List.mem_append.1 hd with hd | hd
        · exact absurd (String.lt_trans hlt (hlast d hd e List.mem_cons_self)) (String.lt_irrefl _)
        · rw [List.mem_singleton.1 hd] at hlt
          exact absurd hlt (String.lt_irrefl _)
      · rintro ⟨k, hk, -, hlater⟩
        rcases List.mem_append.1 hk with hk | hk
        · have hlt := hlast _ hk e List.mem_cons_self
          exact absurd hname (hlater e (List.mem_append_right _ List.mem_cons_self) hlt)
        · rw [← List.mem_singleton.1 hk]
    · next hname =>
      rw [ih hes]
      constructor
      · rintro ⟨k, hk, hkname, hlater⟩
        refine ⟨k, List.mem_append_left _ hk, hkname, fun d hd hlt => ?_⟩
        rcases List.mem_append.1 hd with hd | hd
        · exact hlater d hd hlt
        · rwa [List.mem_singleton.1 hd]
      · rintro ⟨k, hk, hkname, hlater⟩
        rcases List.mem_append.1 hk with hk | hk
        · exact ⟨k, hk, hkname, fun d hd hlt => hlater d (List.mem_append_left _ hd) hlt⟩
        · rw [← List.mem_singleton.1 hk] at hname
          exact absurd hkname hname

theorem exists_find?_of_mem {α : Type} {es : List (String × α)} {e : String × α} (h : e ∈ es) :
    ∃ a, find? e.1 es = some a := by
  induction es with
  | nil => cases h
  | cons d es ih =>
    rw [find?]
    split
    · exact ⟨d.2, rfl⟩
    · next hne =>
      rcases List.mem_cons.1 h with rfl | h
      · exact absurd rfl hne
      · exact ih h

end Table

namespace Vocabulary

/-- Adding roles one after the other sets them under their normalized names. -/
theorem roles_of_addRoles {es : List (String × RoleClass)} {v w : Vocabulary}
    (h : es.foldlM (fun v e => v.addRole e.1 e.2) v = .ok w) :
    w.roles = (es.map fun e => (Ident.normalize e.1, e.2)).foldl (fun t e => t.insert e.1 e.2)
      v.roles := by
  induction es generalizing v with
  | nil => rw [Except.ok.inj h]; rfl
  | cons e es ih =>
    rw [List.foldlM_cons] at h
    obtain ⟨u, hu, hrest⟩ := Outcome.bind_eq_ok_iff.1 h
    obtain ⟨-, rfl⟩ := addRole_eq_ok_iff.1 hu
    exact ih hrest

theorem roles_of_addTrigger {v w : Vocabulary} {word : String} (h : v.addTrigger word = .ok w) :
    w.roles = v.roles := by
  obtain ⟨_, -, rfl⟩ := Outcome.map_eq_ok_iff.1 h
  rfl

theorem roles_of_addAction {v w : Vocabulary} {word : String} (h : v.addAction word = .ok w) :
    w.roles = v.roles := by
  obtain ⟨_, -, rfl⟩ := Outcome.map_eq_ok_iff.1 h
  rfl

end Vocabulary

namespace Config

/-- Of the entries for a role, the one of the last name has the class. -/
def Settles (c : Config) (role : String) (k : RoleClass) : Prop :=
  ∃ name, c.roles.get? name = some k ∧ Ident.normalize name = role ∧
    ∀ later ∈ c.roles.keys, name < later → Ident.normalize later ≠ role

/-- The class that an entry gives is the one that its role has: no later entry is for the same role,
and the two roles that are always known keep their class. -/
structure Prevails (c : Config) (role : String) (k : RoleClass) : Prop where
  payer : role = "payer" → k = .payer
  payee : role = "payee" → k = .payee
  last : role ≠ "payer" → role ≠ "payee" → c.Settles role k

/-- No entry contradicts another one, or what is always known. -/
structure Consistent (c : Config) : Prop where
  payer : ∀ name k, c.roles.get? name = some k → Ident.normalize name = "payer" → k = .payer
  payee : ∀ name k, c.roles.get? name = some k → Ident.normalize name = "payee" → k = .payee
  alike : ∀ name other k l, c.roles.get? name = some k → c.roles.get? other = some l →
    Ident.normalize name = Ident.normalize other → k = l

/-- The configured roles, the last one first, under the names that they are looked up by. -/
def lookedUp (c : Config) : List (String × RoleClass) :=
  (c.roles.entries.map fun e => (Ident.normalize e.1, e.2)).reverse

variable {c : Config} {v : Vocabulary}

theorem find?_lookedUp {role : String} {k : RoleClass} :
    Table.find? role c.lookedUp = some k ↔ c.Settles role k := by
  simp only [lookedUp, Table.find?_reverse_map_eq_some_iff c.roles.sorted, Settles,
    Table.mem_entries, Table.keys, List.forall_mem_map]

/-- Of the entries for a role, if there are any, one is the last. -/
theorem exists_settles {name : String} {k : RoleClass} (h : c.roles.get? name = some k) :
    ∃ l, c.Settles (Ident.normalize name) l := by
  have hmem : (Ident.normalize name, k) ∈ c.lookedUp :=
    List.mem_reverse.2 (List.mem_map.2 ⟨(name, k), Table.mem_entries.2 h, rfl⟩)
  obtain ⟨l, hl⟩ := Table.exists_find?_of_mem hmem
  exact ⟨l, find?_lookedUp.1 hl⟩

theorem Settles.unique {role : String} {k l : RoleClass} (hk : c.Settles role k)
    (hl : c.Settles role l) : k = l := by
  rw [← find?_lookedUp] at hk hl
  exact Option.some.inj (hk.symm.trans hl)

/-- The table of roles: the configured ones before the built-in ones. -/
theorem roles_get? (h : c.vocabulary = .ok v) (role : String) :
    v.roles.get? role = (Table.find? role c.lookedUp).or (Vocabulary.builtin.roles.get? role) := by
  rw [vocabulary, Outcome.mapError_eq_ok_iff, vocabulary?] at h
  obtain ⟨u, hu, h⟩ := Outcome.bind_eq_ok_iff.1 h
  obtain ⟨w, hw, h⟩ := Outcome.bind_eq_ok_iff.1 h
  have hbuiltin : w.roles = Vocabulary.builtin.roles := by
    have hsame : u.roles = Vocabulary.builtin.roles :=
      Outcome.foldlM_invariant (I := fun v => v.roles = Vocabulary.builtin.roles)
        (fun _ _ _ hv hadd => (Vocabulary.roles_of_addTrigger hadd).trans hv) rfl hu
    exact Outcome.foldlM_invariant (I := fun v => v.roles = Vocabulary.builtin.roles)
      (fun _ _ _ hv hadd => (Vocabulary.roles_of_addAction hadd).trans hv) hsame hw
  rw [Vocabulary.roles_of_addRoles h, Table.get?_foldl_insert, hbuiltin]
  rfl

/-- The role that an entry is for is known, and has the class of the entry when that prevails. -/
theorem role?_configured (h : c.vocabulary = .ok v) {name : String} {k : RoleClass}
    (hentry : c.roles.get? name = some k) :
    ∃ r, v.role? (Ident.normalize name) = some r ∧
      (r.roleClass = k ↔ c.Prevails (Ident.normalize name) k) := by
  obtain ⟨l, hl⟩ := exists_settles hentry
  generalize Ident.normalize name = role at hl ⊢
  by_cases hpayer : role = "payer"
  · subst hpayer
    refine ⟨⟨"payer", .payer⟩, rfl, ?_, fun hk => (hk.payer rfl).symm⟩
    rintro rfl
    exact ⟨fun _ => rfl, fun hne => absurd hne (by decide), fun hne _ => absurd rfl hne⟩
  · by_cases hpayee : role = "payee"
    · subst hpayee
      refine ⟨⟨"payee", .payee⟩, rfl, ?_, fun hk => (hk.payee rfl).symm⟩
      rintro rfl
      exact ⟨fun hne => absurd hne (by decide), fun _ => rfl, fun _ hne => absurd rfl hne⟩
    · have hfound : v.role? role = some ⟨role, l⟩ := by
        rw [Vocabulary.role?, if_neg hpayer, if_neg hpayee, roles_get? h, find?_lookedUp.2 hl]
        rfl
      refine ⟨_, hfound, ?_⟩
      constructor
      · rintro rfl
        exact ⟨fun heq => absurd heq hpayer, fun heq => absurd heq hpayee, fun _ _ => hl⟩
      · exact fun hk => hl.unique (hk.last hpayer hpayee)

/-- A role that no entry is for is looked up as in the built-in vocabulary. -/
theorem role?_unconfigured (h : c.vocabulary = .ok v) {role : String}
    (hrole : ∀ name ∈ c.roles.keys, Ident.normalize name ≠ role) :
    v.role? role = Vocabulary.builtin.role? role := by
  have hnone : Table.find? role c.lookedUp = none := by
    refine Option.eq_none_iff_forall_ne_some.2 fun k hk => ?_
    obtain ⟨name, hname, heq, -⟩ := find?_lookedUp.1 hk
    exact hrole name (Table.mem_keys.2 (by rw [Table.contains, hname]; rfl)) heq
  unfold Vocabulary.role?
  rw [roles_get? h, hnone, Option.none_or]

/-- All entries prevail when none contradicts another. -/
theorem prevails_iff_consistent :
    (∀ name k, c.roles.get? name = some k → c.Prevails (Ident.normalize name) k) ↔ c.Consistent := by
  constructor
  · intro h
    refine ⟨fun name k hk heq => (h name k hk).payer heq, fun name k hk heq => (h name k hk).payee heq,
      fun name other k l hk hl heq => ?_⟩
    have hfirst := h name k hk
    have hsecond := h other l hl
    rw [← heq] at hsecond
    by_cases hpayer : Ident.normalize name = "payer"
    · rw [hfirst.payer hpayer, hsecond.payer hpayer]
    · by_cases hpayee : Ident.normalize name = "payee"
      · rw [hfirst.payee hpayee, hsecond.payee hpayee]
      · exact (hfirst.last hpayer hpayee).unique (hsecond.last hpayer hpayee)
  · intro h name k hk
    refine ⟨h.payer name k hk, h.payee name k hk, fun _ _ => ?_⟩
    obtain ⟨l, other, hother, heq, hlast⟩ := exists_settles hk
    obtain rfl := h.alike name other k l hk hother heq.symm
    exact ⟨other, hother, heq, hlast⟩

theorem exists_vocabulary_of_read {text : String} (h : read text = .ok c) :
    ∃ v, c.vocabulary = .ok v := by
  unfold read at h
  split at h
  · cases h
  · next c' _ =>
    obtain ⟨v, hv, rfl⟩ := Outcome.map_eq_ok_iff.1 h
    exact ⟨v, hv⟩

/-- A configuration that is read has a vocabulary. In the vocabulary of a configuration every
configured role is known; it has the class of an entry for it exactly when that is the entry of the
last name that is normalized to the role, or has the class that `payer` or `payee` has in any case; so
all entries mean what they say exactly when none contradicts another. Every role that no entry is for
is what it is in the built-in vocabulary. -/
theorem role?_class_iff (c : Config) :
    (∀ text, read text = .ok c → ∃ v, c.vocabulary = .ok v) ∧
    ∀ v, c.vocabulary = .ok v →
      (∀ name k, c.roles.get? name = some k → ∃ r, v.role? (Ident.normalize name) = some r ∧
        (r.roleClass = k ↔ c.Prevails (Ident.normalize name) k)) ∧
      ((∀ name k, c.roles.get? name = some k →
        (v.role? (Ident.normalize name)).map (·.roleClass) = some k) ↔ c.Consistent) ∧
      ∀ role, (∀ name ∈ c.roles.keys, Ident.normalize name ≠ role) →
        v.role? role = Vocabulary.builtin.role? role := by
  refine ⟨fun text h => exists_vocabulary_of_read h, fun v h => ?_⟩
  refine ⟨fun name k hk => role?_configured h hk, ?_, fun role => role?_unconfigured h⟩
  rw [← prevails_iff_consistent]
  refine forall_congr' fun name => forall_congr' fun k => imp_congr_right fun hk => ?_
  obtain ⟨r, hr, hclass⟩ := role?_configured h hk
  rw [hr, Option.map_some, Option.some_inj, hclass]

/-! ### Configurations at work -/

/-- A configuration that is read, with what is checked of it and of its vocabulary. -/
theorem read_of_any {text : String} {p : Config → Vocabulary → Bool}
    (h : ((read text).toOption.any fun c => c.vocabulary.toOption.any (p c)) = true) :
    ∃ c v, read text = .ok c ∧ c.vocabulary = .ok v ∧ p c v = true := by
  obtain ⟨c, hc, h⟩ := (Option.any_eq_true _ _).1 h
  obtain ⟨v, hv, h⟩ := (Option.any_eq_true _ _).1 h
  exact ⟨c, v, Outcome.toOption_eq_some_iff.1 hc, Outcome.toOption_eq_some_iff.1 hv, h⟩

theorem consistent_of_entries
    (hpayer : ∀ e ∈ c.roles.entries, Ident.normalize e.1 = "payer" → e.2 = .payer)
    (hpayee : ∀ e ∈ c.roles.entries, Ident.normalize e.1 = "payee" → e.2 = .payee)
    (halike : ∀ e ∈ c.roles.entries, ∀ f ∈ c.roles.entries,
      Ident.normalize e.1 = Ident.normalize f.1 → e.2 = f.2) : c.Consistent where
  payer name k hk := hpayer (name, k) (Table.mem_entries.2 hk)
  payee name k hk := hpayee (name, k) (Table.mem_entries.2 hk)
  alike name other k l hk hl :=
    halike (name, k) (Table.mem_entries.2 hk) (other, l) (Table.mem_entries.2 hl)

/-- A new role, and another class for a built-in one. -/
def guarantorsText : String := "[roles]\nGuarantor = \"payer\"\ninsured = \"neutral\"\n"

def guarantors : Table RoleClass := Table.ofList [("Guarantor", .payer), ("insured", .neutral)]

theorem guarantors_read : ∃ c v, read guarantorsText = .ok c ∧ c.vocabulary = .ok v ∧
    c.roles = guarantors := by
  obtain ⟨c, v, hread, hv, hroles⟩ :=
    @read_of_any guarantorsText (fun c _ => decide (c.roles = guarantors)) (by decide +kernel)
  exact ⟨c, v, hread, hv, of_decide_eq_true hroles⟩

/-- Both entries count, and a role without entry is the built-in one. -/
theorem guarantors_class : ∃ c v, read guarantorsText = .ok c ∧ c.vocabulary = .ok v ∧
    c.roles = guarantors ∧ c.Consistent ∧
    (∀ name k, c.roles.get? name = some k →
      (v.role? (Ident.normalize name)).map (·.roleClass) = some k) ∧
    v.role? "insurer" = some ⟨"insurer", .payee⟩ := by
  obtain ⟨c, v, hread, hv, hroles⟩ := guarantors_read
  have hconsistent : c.Consistent := by
    refine consistent_of_entries ?_ ?_ ?_ <;> rw [hroles] <;> decide +kernel
  have hfree : ∀ name ∈ c.roles.keys, Ident.normalize name ≠ "insurer" := by
    rw [hroles]
    decide +kernel
  obtain ⟨-, hall, hothers⟩ := (role?_class_iff c).2 v hv
  refine ⟨c, v, hread, hv, hroles, hconsistent, hall.2 hconsistent, ?_⟩
  rw [hothers "insurer" hfree]
  decide +kernel

/-- An entry for `payer`, and two for one role under different spellings. -/
def contestedText : String :=
  "[roles]\nGuarantor = \"payer\"\nguarantor = \"payee\"\npayer = \"payee\"\n"

/-- The configuration is accepted, the entry for `payer` is never looked up, and that for `Guarantor`
gives way to the one for `guarantor`. -/
theorem contested_class : ∃ c v, read contestedText = .ok c ∧ c.vocabulary = .ok v ∧
    c.roles.get? "payer" = some .payee ∧
    v.role? (Ident.normalize "payer") = some ⟨"payer", .payer⟩ ∧
    c.roles.get? "Guarantor" = some .payer ∧
    v.role? (Ident.normalize "Guarantor") = some ⟨"guarantor", .payee⟩ := by
  obtain ⟨c, v, hread, hv, hall⟩ := @read_of_any contestedText
    (fun c v => decide (c.roles.get? "payer" = some .payee ∧
      v.role? (Ident.normalize "payer") = some ⟨"payer", .payer⟩ ∧
      c.roles.get? "Guarantor" = some .payer ∧
      v.role? (Ident.normalize "Guarantor") = some ⟨"guarantor", .payee⟩)) (by decide +kernel)
  exact ⟨c, v, hread, hv, of_decide_eq_true hall⟩

end Config
end Covenant
