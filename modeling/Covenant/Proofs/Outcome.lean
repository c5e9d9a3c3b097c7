/-! Outcomes that are values or errors: when a chain of them comes to a value,
and when to an error. -/
namespace Covenant.Outcome

variable {ε α β : Type}

theorem toOption_eq_some_iff {x : Except ε α} {a : α} : x.toOption = some a ↔ x = .ok a := by
  cases x with
  | error _ => simp [Except.toOption]
  | ok _ => simp [Except.toOption]

theorem map_eq_ok_iff {f : α → β} {x : Except ε α} {b : β} :
    x.map f = .ok b ↔ ∃ a, x = .ok a ∧ f a = b := by
  cases x with
  | error e => simp [Except.map]
  | ok a => simp [Except.map]

theorem bind_eq_ok_iff {x : Except ε α} {f : α → Except ε β} {b : β} :
    (x >>= f) = .ok b ↔ ∃ a, x = .ok a ∧ f a = .ok b := by
  cases x with
  | error e => simp [bind, Except.bind]
  | ok a => simp [bind, Except.bind]

theorem bind_eq_error_iff {x : Except ε α} {f : α → Except ε β} {e : ε} :
    (x >>= f) = .error e ↔ x = .error e ∨ ∃ a, x = .ok a ∧ f a = .error e := by
  cases x with
  | error e' => simp [bind, Except.bind]
  | ok a => simp [bind, Except.bind]

theorem mapError_eq_ok_iff {ε' : Type} {f : ε → ε'} {x : Except ε α} {a : α} :
    x.mapError f = .ok a ↔ x = .ok a := by
  cases x with
  | error e => exact iff_of_false nofun nofun
  | ok b => exact ⟨fun h => congrArg _ (Except.ok.inj h), fun h => congrArg _ (Except.ok.inj h)⟩

theorem mapError_eq_error_iff {ε' : Type} {f : ε → ε'} {x : Except ε α} {e' : ε'} :
    x.mapError f = .error e' ↔ ∃ e, x = .error e ∧ f e = e' := by
  cases x with
  | error e =>
    constructor
    · exact fun h => ⟨e, rfl, Except.error.inj h⟩
    · rintro ⟨_, heq, rfl⟩
      rw [Except.error.inj heq]
      rfl
  | ok b =>
    constructor
    · intro h
      cases h
    · rintro ⟨_, heq, _⟩
      cases heq

/-- Two texts after each other: what is come to is the two of them in a row. -/
theorem append_eq_ok_iff {x y : Except ε (List α)} {cs : List α} :
    (x >>= fun as => y >>= fun bs => .ok (as ++ bs)) = .ok cs ↔
      ∃ as bs, x = .ok as ∧ y = .ok bs ∧ cs = as ++ bs := by
  rw [bind_eq_ok_iff]
  constructor
  · rintro ⟨as, has, h⟩
    obtain ⟨bs, hbs, heq⟩ := bind_eq_ok_iff.1 h
    exact ⟨as, bs, has, hbs, (Except.ok.inj heq).symm⟩
  · rintro ⟨as, bs, has, hbs, rfl⟩
    exact ⟨as, has, bind_eq_ok_iff.2 ⟨bs, hbs, rfl⟩⟩

theorem exists_append_ok_iff {x y : Except ε (List α)} :
    (∃ cs, ∃ as bs, x = .ok as ∧ y = .ok bs ∧ cs = as ++ bs) ↔
      (∃ as, x = .ok as) ∧ ∃ bs, y = .ok bs := by
  constructor
  · rintro ⟨_, as, bs, has, hbs, _⟩
    exact ⟨⟨as, has⟩, ⟨bs, hbs⟩⟩
  · rintro ⟨⟨as, has⟩, ⟨bs, hbs⟩⟩
    exact ⟨_, as, bs, has, hbs, rfl⟩

theorem foldlM_cons_of_ok {f : β → α → Except ε β} {a : α} {as : List α} {b b' r : β}
    (h : f b a = .ok b') (hrest : as.foldlM f b' = .ok r) : (a :: as).foldlM f b = .ok r := by
  rw [List.foldlM_cons]
  exact bind_eq_ok_iff.2 ⟨b', h, hrest⟩

/-- What one step keeps, a whole fold keeps. -/
theorem foldlM_invariant {f : β → α → Except ε β} {I : β → Prop}
    (step : ∀ b a b', I b → f b a = .ok b' → I b') {as : List α} {b r : β} (hb : I b)
    (h : as.foldlM f b = .ok r) : I r := by
  induction as generalizing b with
  | nil =>
    obtain rfl := Except.ok.inj h
    exact hb
  | cons a as ih =>
    rw [List.foldlM_cons] at h
    obtain ⟨b', hb', hrest⟩ := bind_eq_ok_iff.1 h
    exact ih (step b a b' hb hb') hrest

end Covenant.Outcome
