import Covenant.Proofs.Vocabulary.Built

/-! Extending a vocabulary. Words are added one after the other, and one that is refused leaves the
vocabulary as it was. As long as no role is added that the vocabulary has already, every look-up that
has found something goes on finding the same: the verbs only grow, and so do the roles. -/
namespace Covenant.Vocabulary

/-! ### Additions -/

/-- A word to be added. -/
inductive Addition where
  | trigger (word : String)
  | action (word : String)
  | role (word : String) (c : RoleClass)
  deriving DecidableEq, Repr

/-- The vocabulary with a word added, or why the word is refused. -/
def add (v : Vocabulary) : Addition → Except InvalidWord Vocabulary
  | .trigger word => v.addTrigger word
  | .action word => v.addAction word
  | .role word c => v.addRole word c

/-- The vocabulary after an attempt to add a word. -/
def attempt (v : Vocabulary) (a : Addition) : Vocabulary :=
  match v.add a with
  | .ok w => w
  | .error _ => v

/-- The vocabulary after attempts to add words, one after the other. -/
def attemptAll (v : Vocabulary) (as : List Addition) : Vocabulary := as.foldl attempt v

theorem checkWord_eq_ok_iff {kind : WordKind} {word w : String} :
    checkWord kind word = .ok w ↔ Ident.isIdent w = true ∧ Ident.normalize word = w := by
  unfold checkWord
  simp only
  split
  · next hid =>
    rw [Except.ok.injEq]
    constructor
    · rintro rfl
      exact ⟨hid, rfl⟩
    · exact And.right
  · next hid =>
    refine iff_of_false nofun ?_
    rintro ⟨hw, rfl⟩
    exact hid hw

theorem addRole_eq_ok_iff {v w : Vocabulary} {word : String} {c : RoleClass} :
    v.addRole word c = .ok w ↔ Ident.isIdent (Ident.normalize word) = true ∧
      { v with roles := v.roles.insert (Ident.normalize word) c } = w := by
  simp only [addRole, Outcome.map_eq_ok_iff, checkWord_eq_ok_iff]
  constructor
  · rintro ⟨_, ⟨hid, rfl⟩, rfl⟩
    exact ⟨hid, rfl⟩
  · rintro ⟨hid, rfl⟩
    exact ⟨_, ⟨hid, rfl⟩, rfl⟩

/-- What an attempt can do: nothing, or set one identifier in one of the tables. -/
theorem attempt_cases (v : Vocabulary) (a : Addition) :
    v.attempt a = v ∨ ∃ name, Ident.isIdent name = true ∧
      (v.attempt a = { v with triggers := v.triggers.insert name () } ∨
        v.attempt a = { v with actions := v.actions.insert name () } ∨
        ∃ word c, a = .role word c ∧ Ident.normalize word = name ∧
          v.attempt a = { v with roles := v.roles.insert name c }) := by
  unfold attempt
  split
  · next w hw =>
    cases a with
    | trigger word =>
      rw [add, addTrigger, Outcome.map_eq_ok_iff] at hw
      obtain ⟨name, hname, rfl⟩ := hw
      exact .inr ⟨name, (checkWord_eq_ok_iff.1 hname).1, .inl rfl⟩
    | action word =>
      rw [add, addAction, Outcome.map_eq_ok_iff] at hw
      obtain ⟨name, hname, rfl⟩ := hw
      exact .inr ⟨name, (checkWord_eq_ok_iff.1 hname).1, .inr (.inl rfl)⟩
    | role word c =>
      rw [add, addRole_eq_ok_iff] at hw
      obtain ⟨hid, rfl⟩ := hw
      exact .inr ⟨_, hid, .inr (.inr ⟨word, c, rfl, rfl, rfl⟩)⟩
  · exact .inl rfl

/-! ### Look-ups -/

/-- A vocabulary that finds whatever another one finds. -/
structure Extends (v w : Vocabulary) : Prop where
  trigger : ∀ word, v.isTrigger word = true → w.isTrigger word = true
  action : ∀ word, v.isAction word = true → w.isAction word = true
  role : ∀ name r, v.role? name = some r → w.role? name = some r

theorem Extends.refl (v : Vocabulary) : v.Extends v := ⟨fun _ h => h, fun _ h => h, fun _ _ h => h⟩

/-- An addition of no role that the vocabulary has. The roles `payer` and `payee` stand outside the
table, so that an entry for one of them is never looked up. -/
def Addition.New (v : Vocabulary) : Addition → Prop
  | .trigger _ | .action _ => True
  | .role word _ => v.roles.contains (Ident.normalize word) = false

theorem role?_insert {v : Vocabulary} {name : String} {c : RoleClass} {other : String}
    (h : other ≠ name) :
    ({ v with roles := v.roles.insert name c } : Vocabulary).role? other = v.role? other := by
  simp only [role?, Table.get?_insert, if_neg (Ne.symm h)]

/-- A role that is found without the table is found in every vocabulary. -/
theorem role?_of_not_contains {v : Vocabulary} {name : String} {r : PartyRole}
    (hr : v.role? name = some r) (h : v.roles.contains name = false) (w : Vocabulary) :
    w.role? name = some r := by
  unfold role? at hr ⊢
  split
  · next hpayer => rwa [if_pos hpayer] at hr
  · next hpayer =>
    split
    · next hpayee => rwa [if_neg hpayer, if_pos hpayee] at hr
    · next hpayee =>
      rw [if_neg hpayer, if_neg hpayee, Option.map_eq_some_iff] at hr
      obtain ⟨c, hc, -⟩ := hr
      rw [Table.contains, hc] at h
      cases h

/-- What `v` finds is still found after an attempt to add what is new to `v`. -/
theorem Extends.attempt {v u : Vocabulary} (h : v.Extends u) {a : Addition} (ha : a.New v) :
    v.Extends (u.attempt a) := by
  rcases u.attempt_cases a with heq | ⟨name, -, heq | heq | ⟨word, c, rfl, rfl, heq⟩⟩ <;> rw [heq]
  · exact h
  · refine ⟨fun word hword => ?_, h.action, h.role⟩
    rw [isTrigger, Table.contains_insert, Bool.or_eq_true]
    exact .inr (h.trigger word hword)
  · refine ⟨h.trigger, fun word hword => ?_, h.role⟩
    rw [isAction, Table.contains_insert, Bool.or_eq_true]
    exact .inr (h.action word hword)
  · refine ⟨h.trigger, h.action, fun name r hr => ?_⟩
    by_cases hname : name = Ident.normalize word
    · exact role?_of_not_contains hr (hname ▸ ha) _
    · rw [role?_insert hname]
      exact h.role name r hr

/-- By induction on the additions; that each is new is asked of the first vocabulary only. -/
theorem Extends.attemptAll {v : Vocabulary} {as : List Addition} (has : ∀ a ∈ as, a.New v)
    {u : Vocabulary} (h : v.Extends u) : v.Extends (u.attemptAll as) := by
  induction as generalizing u with
  | nil => exact h
  | cons a as ih =>
    exact ih (fun b hb => has b (List.mem_cons_of_mem _ hb)) (h.attempt (has a List.mem_cons_self))

/-! ### Identifiers -/

/-- Every verb and every role that the vocabulary holds is an identifier. -/
structure Named (v : Vocabulary) : Prop where
  triggers : ∀ w, v.triggers.contains w = true → Ident.isIdent w = true
  actions : ∀ w, v.actions.contains w = true → Ident.isIdent w = true
  roles : ∀ w, v.roles.contains w = true → Ident.isIdent w = true

theorem named_builtin : builtin.Named where
  triggers w h := verbsNamed_builtin w (.inl h)
  actions w h := verbsNamed_builtin w (.inr h)
  roles w h := by
    have hall : ∀ e ∈ builtin.roles.entries, Ident.isIdent e.1 = true := by decide +kernel
    obtain ⟨e, he, rfl⟩ := List.mem_map.1 (Table.mem_keys.2 h)
    exact hall e he

theorem isIdent_of_insert {α : Type} {t : Table α} {name : String} {a : α}
    (h : ∀ w, t.contains w = true → Ident.isIdent w = true) (hname : Ident.isIdent name = true) :
    ∀ w, (t.insert name a).contains w = true → Ident.isIdent w = true := by
  intro w hw
  rw [Table.contains_insert, Bool.or_eq_true, decide_eq_true_eq] at hw
  rcases hw with rfl | hw
  · exact hname
  · exact h w hw

theorem Named.attempt {v : Vocabulary} (h : v.Named) (a : Addition) : (v.attempt a).Named := by
  rcases v.attempt_cases a with heq | ⟨name, hname, heq | heq | ⟨_, c, -, -, heq⟩⟩ <;> rw [heq]
  · exact h
  · exact ⟨isIdent_of_insert h.triggers hname, h.actions, h.roles⟩
  · exact ⟨h.triggers, isIdent_of_insert h.actions hname, h.roles⟩
  · exact ⟨h.triggers, h.actions, isIdent_of_insert h.roles hname⟩

theorem Named.attemptAll {v : Vocabulary} (h : v.Named) (as : List Addition) :
    (v.attemptAll as).Named := by
  induction as generalizing v with
  | nil => exact h
  | cons a as ih => exact ih (h.attempt a)

end Covenant.Vocabulary
