import Covenant.Proofs.Additions
import Covenant.Proofs.Definition.Form

/-! Fields of a document. A check yields a value when it comes to it without a problem;
for each kind of field this happens exactly when the document has the field in its form.
A check of a field that must be there never yields nothing. -/
namespace Covenant

open Yaml (Value)

/-! ### Checks -/

namespace Checked

variable {α β : Type}

/-- The check comes to the value and has no problem. -/
def Yields (c : Checked α) (a : α) : Prop := c.problems = [] ∧ c.value = a

/-- The check comes to a value with the property, or else has a problem. -/
def Delivers (c : Checked (Option α)) (P : α → Prop) : Prop :=
  ∀ x, c.Yields x ↔ ∃ a, P a ∧ x = some a

@[simp] theorem ok_yields {a b : α} : (ok a).Yields b ↔ a = b := by simp [Yields, ok]

@[simp] theorem fail_yields {field reason : String} {a b : α} :
    (fail field reason a).Yields b ↔ False := by
  simp [Yields, fail]

@[simp] theorem missing_yields {field : String} {a b : α} :
    (missing field a).Yields b ↔ False := by
  simp [Yields, missing]

theorem map_yields {f : α → β} {c : Checked α} {b : β} :
    (c.map f).Yields b ↔ ∃ a, c.Yields a ∧ f a = b := by
  simp [Yields, map]

theorem sequence_yields {cs : List (Checked α)} {as : List α} :
    (sequence cs).Yields as ↔ List.Forall₂ Yields cs as := by
  induction cs generalizing as with
  | nil =>
    rw [List.forall₂_nil_left_iff]
    exact ⟨fun h => h.2.symm, fun h => ⟨rfl, h.symm⟩⟩
  | cons c cs ih =>
    rw [List.forall₂_cons_left_iff]
    have hsplit : ∀ {as : List α}, (sequence (c :: cs)).Yields as ↔
        ∃ b bs, c.Yields b ∧ (sequence cs).Yields bs ∧ as = b :: bs := by
      intro as
      constructor
      · rintro ⟨hp, rfl⟩
        obtain ⟨hc, hcs⟩ := List.append_eq_nil_iff.1 hp
        exact ⟨c.value, _, ⟨hc, rfl⟩, ⟨hcs, rfl⟩, rfl⟩
      · rintro ⟨b, bs, ⟨hc, rfl⟩, ⟨hcs, rfl⟩, rfl⟩
        exact ⟨List.append_eq_nil_iff.2 ⟨hc, hcs⟩, rfl⟩
    rw [hsplit]
    simp only [ih]

/-- No problem means that there is a value. -/
theorem Delivers.some_of_problems {c : Checked (Option α)} {P : α → Prop} (h : c.Delivers P)
    (hc : c.problems = []) : ∃ a, P a ∧ c.value = some a :=
  (h c.value).1 ⟨hc, rfl⟩

theorem Delivers.congr {c : Checked (Option α)} {P Q : α → Prop} (h : c.Delivers P)
    (hPQ : ∀ a, P a ↔ Q a) : c.Delivers Q := by
  intro x
  rw [h x]
  simp only [hPQ]

theorem not_yields {c : Checked α} (h : c.problems ≠ []) (a : α) : ¬c.Yields a := fun hc => h hc.1

theorem Delivers.of_problems {c : Checked (Option α)} {P : α → Prop} (h : c.problems ≠ [])
    (hP : ∀ a, ¬P a) : c.Delivers P := by
  intro x
  simp [hP, not_yields h]

theorem Delivers.of_ok {a : α} {P : α → Prop} (hP : ∀ b, P b ↔ a = b) :
    (ok (some a)).Delivers P := by
  intro x
  simp [hP, eq_comm]

/-- A check that comes to a value only when it has no problem tells the property by its value. -/
theorem Delivers.value_iff {c : Checked (Option α)} {P : α → Prop} (h : c.Delivers P)
    (hc : ∀ a, c.value = some a → c.problems = []) {a : α} : c.value = some a ↔ P a := by
  constructor
  · intro hvalue
    obtain ⟨b, hb, heq⟩ := (h (some a)).1 ⟨hc a hvalue, hvalue⟩
    rwa [Option.some.inj heq]
  · exact fun ha => ((h (some a)).2 ⟨a, ha, rfl⟩).2

/-! ### Related lists -/

theorem mem_left_of_forall₂ {R : α → β → Prop} {as : List α} {bs : List β}
    (h : List.Forall₂ R as bs) {b : β} (hb : b ∈ bs) : ∃ a ∈ as, R a b := by
  induction h with
  | nil => cases hb
  | cons hr _ ih =>
    rcases List.mem_cons.1 hb with rfl | hb
    · exact ⟨_, List.mem_cons_self, hr⟩
    · obtain ⟨a, ha, hab⟩ := ih hb
      exact ⟨a, List.mem_cons_of_mem _ ha, hab⟩

theorem mem_right_of_forall₂ {R : α → β → Prop} {as : List α} {bs : List β}
    (h : List.Forall₂ R as bs) {a : α} (ha : a ∈ as) : ∃ b ∈ bs, R a b :=
  @mem_left_of_forall₂ _ _ (flip R) _ _ (List.Forall₂.flip h) _ ha

theorem exists_forall₂ {R : α → β → Prop} {as : List α} (h : ∀ a ∈ as, ∃ b, R a b) :
    ∃ bs, List.Forall₂ R as bs := by
  induction as with
  | nil => exact ⟨[], .nil⟩
  | cons a as ih =>
    obtain ⟨b, hb⟩ := h a List.mem_cons_self
    obtain ⟨bs, hbs⟩ := ih fun a ha => h a (List.mem_cons_of_mem _ ha)
    exact ⟨b :: bs, .cons hb hbs⟩

theorem map_eq_of_forall₂ {γ : Type} {R : α → β → Prop} {f : α → γ} {g : β → γ} {as : List α}
    {bs : List β} (h : List.Forall₂ R as bs) (hR : ∀ {a b}, R a b → f a = g b) : as.map f = bs.map g := by
  induction h with
  | nil => rfl
  | cons hab _ ih => rw [List.map_cons, List.map_cons, hR hab, ih]

/-- When each check delivers, all of them come through exactly when each has its value. -/
theorem sequence_delivers {as : List α} {f : α → Checked (Option β)} {P : α → β → Prop}
    (h : ∀ a ∈ as, (f a).Delivers (P a)) {xs : List (Option β)} :
    (sequence (as.map f)).Yields xs ↔ ∃ bs, List.Forall₂ P as bs ∧ xs = bs.map some := by
  rw [sequence_yields, List.forall₂_map_left_iff]
  induction as generalizing xs with
  | nil => simp
  | cons a as ih =>
    have ha := h a List.mem_cons_self
    have hrest := fun a ha => h a (List.mem_cons_of_mem _ ha)
    rw [List.forall₂_cons_left_iff]
    constructor
    · rintro ⟨x, xs', hx, hxs, rfl⟩
      obtain ⟨b, hb, rfl⟩ := (ha x).1 hx
      obtain ⟨bs, hbs, rfl⟩ := (ih hrest).1 hxs
      exact ⟨b :: bs, .cons hb hbs, rfl⟩
    · rintro ⟨bs, hbs, rfl⟩
      obtain ⟨b, bs', hb, hbs', rfl⟩ := List.forall₂_cons_left_iff.1 hbs
      exact ⟨some b, bs'.map some, (ha _).2 ⟨b, hb, rfl⟩, (ih hrest).2 ⟨bs', hbs', rfl⟩, rfl⟩

end Checked

/-! ### Entries of a mapping -/

namespace Yaml.Value

theorem Untagged.untagged_eq {v : Value} (h : v.Untagged) : v.untagged = v := by
  cases h <;> rfl

theorem Bare.of_mem_items {items : List Value} (h : Bare (.sequence items)) {v : Value}
    (hv : v ∈ items) : v.Bare := by
  obtain ⟨hs, hu⟩ := h
  exact ⟨sound_sequence_iff.1 hs v hv, untagged_sequence_iff.1 hu v hv⟩

theorem Bare.of_mem_entries {entries : List (Value × Value)} (h : Bare (.mapping entries))
    {e : Value × Value} (he : e ∈ entries) : e.1.Bare ∧ e.2.Bare := by
  obtain ⟨hs, hu⟩ := h
  have hsound := (sound_mapping_iff.1 hs).2 e he
  have huntagged := untagged_mapping_iff.1 hu e he
  exact ⟨⟨hsound.1, huntagged.1⟩, ⟨hsound.2, huntagged.2⟩⟩

theorem Bare.distinct {entries : List (Value × Value)} (h : Bare (.mapping entries)) :
    entries.Pairwise fun e f => e.1.same f.1 = false :=
  (sound_mapping_iff.1 h.sound).1

/-- The entry of a text key is the only one. -/
theorem find_text_eq_some_iff {entries : List (Value × Value)}
    (distinct : entries.Pairwise fun e f => e.1.same f.1 = false) {key : String} {w : Value} :
    (entries.find? fun e => match e.1 with
      | .text s => s == key
      | _ => false).map (·.2) = some w ↔ (.text key, w) ∈ entries := by
  induction entries with
  | nil => simp
  | cons e rest ih =>
    obtain ⟨hd, hrest⟩ := List.pairwise_cons.1 distinct
    obtain ⟨k, u⟩ := e
    by_cases hk : k = .text key
    · subst hk
      have hnot : (.text key, w) ∉ rest := by
        intro hmem
        simpa [same] using hd _ hmem
      simp [hnot, eq_comm]
    · have hne : ((.text key, w) : Value × Value) ≠ (k, u) := by
        intro heq
        exact hk (congrArg Prod.fst heq).symm
      rw [List.mem_cons, or_iff_right hne, ← ih hrest]
      cases k with
      | text s =>
        have hs : (s == key) = false := by simpa using hk
        simp only [List.find?_cons, hs]
      | _ => simp only [List.find?_cons]

theorem Bare.get?_eq_some_iff {v : Value} (hv : v.Bare) {key : String} {w : Value} :
    v.get? key = some w ↔ ∃ entries, v = .mapping entries ∧ (.text key, w) ∈ entries := by
  unfold get?
  rw [hv.untagged.untagged_eq]
  cases v with
  | mapping entries =>
    simp only [mapping.injEq, exists_eq_left']
    exact find_text_eq_some_iff hv.distinct
  | _ => simp

theorem Bare.asText?_eq_some_iff {v : Value} (hv : v.Bare) {s : String} :
    v.asText? = some s ↔ v = .text s := by
  unfold asText?
  rw [hv.untagged.untagged_eq]
  cases v <;> simp

theorem Gives.bare {v : Value} {key : String} {w : Value} (h : v.Gives key w) (hv : v.Bare) :
    w.Bare := by
  obtain ⟨entries, rfl, hmem, _⟩ := h
  exact (hv.of_mem_entries hmem).2

theorem Gives.isMapping {v : Value} {key : String} {w : Value} (h : v.Gives key w) :
    v.isMapping = true := by
  obtain ⟨entries, rfl, _, _⟩ := h
  rfl

/-- A field gives one value at most. -/
theorem Gives.unique {v : Value} {key : String} {w u : Value} (h : v.Gives key w)
    (g : v.Gives key u) (hv : v.Bare) : w = u := by
  obtain ⟨entries, rfl, hw, _⟩ := h
  obtain ⟨_, heq, hu, _⟩ := g
  cases heq
  rw [← find_text_eq_some_iff hv.distinct] at hw hu
  rw [hw] at hu
  exact Option.some.inj hu

end Yaml.Value

namespace Draft

variable {α : Type} {v : Value} {path key : String}

theorem present?_eq_some_iff (hv : v.Bare) {w : Value} :
    present? v key = some w ↔ v.Gives key w := by
  have hget : ∀ u, v.get? key = some u ↔
      ∃ entries, v = .mapping entries ∧ (.text key, u) ∈ entries := fun _ => hv.get?_eq_some_iff
  unfold present? Value.Gives
  constructor
  · intro h
    split at h
    · cases h
    · cases h
    · next hnull hu =>
      cases h
      obtain ⟨entries, rfl, hmem⟩ := (hget w).1 hu
      exact ⟨entries, rfl, hmem, hnull⟩
  · rintro ⟨entries, rfl, hmem, hne⟩
    rw [(hget w).2 ⟨entries, rfl, hmem⟩]
    cases w <;> first | rfl | exact absurd rfl hne

theorem present?_eq_none_iff (hv : v.Bare) : present? v key = none ↔ v.Lacks key := by
  constructor
  · intro h w hw
    rw [(present?_eq_some_iff hv).2 hw] at h
    cases h
  · intro h
    cases hp : present? v key with
    | none => rfl
    | some w => exact absurd ((present?_eq_some_iff hv).1 hp) (h w)

/-- What is known of a field: it is left out, or it gives a bare value. -/
theorem present?_cases (hv : v.Bare) (key : String) :
    (present? v key = none ∧ v.Lacks key) ∨
      ∃ w, present? v key = some w ∧ v.Gives key w ∧ w.Bare := by
  cases hp : present? v key with
  | none => exact .inl ⟨rfl, (present?_eq_none_iff hv).1 hp⟩
  | some w =>
    have hw := (present?_eq_some_iff hv).1 hp
    exact .inr ⟨w, rfl, hw, hw.bare hv⟩

theorem fieldOr_of_lacks {a b : α} {States : Value → α → Prop} (h : v.Lacks key) :
    v.FieldOr key a States b ↔ b = a := by
  constructor
  · rintro (⟨_, hb⟩ | ⟨w, hw, _⟩)
    · exact hb
    · exact absurd hw (h w)
  · rintro rfl
    exact .inl ⟨h, rfl⟩

theorem fieldOr_of_gives (hv : v.Bare) {w : Value} {a b : α} {States : Value → α → Prop}
    (h : v.Gives key w) : v.FieldOr key a States b ↔ States w b := by
  constructor
  · rintro (⟨hl, _⟩ | ⟨u, hu, hs⟩)
    · exact absurd h (hl w)
    · rwa [h.unique hu hv]
  · intro hs
    exact .inr ⟨w, h, hs⟩

theorem not_field_of_lacks {a : α} {States : Value → α → Prop} (h : v.Lacks key) :
    ¬v.Field key States a := by
  rintro ⟨w, hw, _⟩
  exact h w hw

theorem field_of_gives (hv : v.Bare) {w : Value} {a : α} {States : Value → α → Prop}
    (h : v.Gives key w) : v.Field key States a ↔ States w a := by
  constructor
  · rintro ⟨u, hu, hs⟩
    rwa [h.unique hu hv]
  · intro hs
    exact ⟨w, h, hs⟩

/-! ### Text fields -/

theorem text?_eq_some_iff {w : Value} {s : String} : text? w = some s ↔ w = .text s := by
  cases w <;> simp [text?]

theorem ne_text_of_none {w : Value} (h : text? w = none) (s : String) : w ≠ .text s := by
  intro hw
  rw [text?_eq_some_iff.2 hw] at h
  cases h

/-- An optional text is left out, or a text, or refused. -/
theorem optionalText_cases (hv : v.Bare) (path key : String) :
    (v.Lacks key ∧ optionalText v path key = .ok none) ∨
    (∃ raw, v.Gives key (.text raw) ∧ optionalText v path key = .ok (some raw)) ∨
    ∃ w, v.Gives key w ∧ (∀ raw, w ≠ .text raw) ∧
      optionalText v path key = .fail (path ++ "." ++ key) "expected a string" none := by
  unfold optionalText
  rcases present?_cases hv key with ⟨hp, hl⟩ | ⟨w, hp, hw, _⟩
  · rw [hp]
    exact .inl ⟨hl, rfl⟩
  · rw [hp]
    cases ht : text? w with
    | none => exact .inr (.inr ⟨w, hw, ne_text_of_none ht, by simp [ht]⟩)
    | some raw =>
      obtain rfl := text?_eq_some_iff.1 ht
      exact .inr (.inl ⟨raw, hw, rfl⟩)

/-- A required text is missing, or a text, or refused. -/
theorem requiredText_cases (hv : v.Bare) (path key : String) :
    (v.Lacks key ∧ requiredText v path key = .missing (path ++ "." ++ key) none) ∨
    (∃ raw, v.Gives key (.text raw) ∧ requiredText v path key = .ok (some raw)) ∨
    ∃ w, v.Gives key w ∧ (∀ raw, w ≠ .text raw) ∧
      requiredText v path key = .fail (path ++ "." ++ key) "expected a string" none := by
  unfold requiredText
  rcases present?_cases hv key with ⟨hp, hl⟩ | ⟨w, hp, hw, _⟩
  · rw [hp]
    exact .inl ⟨hl, rfl⟩
  · rw [hp]
    exact .inr ((optionalText_cases hv path key).resolve_left fun h => h.1 w hw)

theorem requiredWord_delivers (hv : v.Bare) {accept : String → Option α}
    {refusal : String → String} :
    (requiredWord v path key accept refusal).Delivers fun a =>
      v.Field key (fun w a => ∃ raw, w = .text raw ∧ accept raw = some a) a := by
  rcases requiredText_cases hv path key with ⟨hl, hc⟩ | ⟨raw, hw, hc⟩ | ⟨w, hw, hno, hc⟩
  · exact .of_problems (by simp [requiredWord, hc, Checked.missing]) fun a => not_field_of_lacks hl
  · simp only [field_of_gives hv hw, Value.text.injEq, exists_eq_left']
    cases ha : accept raw with
    | none => exact .of_problems (by simp [requiredWord, hc, ha, Checked.ok]) (by simp)
    | some a =>
      have hword : requiredWord v path key accept refusal = .ok (some a) := by
        simp [requiredWord, hc, ha, Checked.ok]
      rw [hword]
      exact .of_ok (by simp)
  · simp only [field_of_gives hv hw, hno, false_and, exists_false]
    exact .of_problems (by simp [requiredWord, hc, Checked.fail]) (by simp)

/-- A text that must be there has come to no problem exactly when it has come to a text. -/
theorem requiredText_problems_eq_nil_iff :
    (requiredText v path key).problems = [] ↔ ∃ s, (requiredText v path key).value = some s := by
  unfold requiredText optionalText
  cases hp : present? v key with
  | none => simp [Checked.missing]
  | some w =>
    cases ht : text? w with
    | none => simp [ht, Checked.fail]
    | some s => simp [ht, Checked.ok]

theorem requiredWord_problems_eq_nil_iff {accept : String → Option α} {refusal : String → String} :
    (requiredWord v path key accept refusal).problems = [] ↔
      ∃ a, (requiredWord v path key accept refusal).value = some a := by
  unfold requiredWord
  simp only
  cases hc : (requiredText v path key).value with
  | none => simp [requiredText_problems_eq_nil_iff, hc]
  | some raw =>
    cases ha : accept raw with
    | none => simp [ha]
    | some a => simp [ha, requiredText_problems_eq_nil_iff, hc]

/-- A text that must pass a test once it is normalized. -/
theorem normalized_delivers (hv : v.Bare) {accept : String → Bool} {refusal : String → String} :
    (requiredWord v path key
      (fun raw => let w := Ident.normalize raw; if accept w then some w else none)
      refusal).Delivers (v.Field key (Definition.StatesVerb accept)) := by
  refine (requiredWord_delivers hv).congr fun w => ?_
  simp only [Value.Field, Definition.StatesVerb, Option.ite_none_right_eq_some, Option.some.injEq]
  constructor
  · rintro ⟨u, hu, raw, rfl, haccept, rfl⟩
    exact ⟨_, hu, raw, rfl, rfl, haccept⟩
  · rintro ⟨u, hu, raw, rfl, rfl, haccept⟩
    exact ⟨_, hu, raw, rfl, haccept, rfl⟩

/-- The type and the jurisdiction of a contract. -/
theorem idField_delivers (hv : v.Bare) :
    (idField v path key).Delivers (v.Field key Definition.StatesId) :=
  normalized_delivers hv

theorem verb_delivers (hv : v.Bare) {accept : String → Bool} :
    (verb accept key v path).Delivers (v.Field key (Definition.StatesVerb accept)) :=
  normalized_delivers hv

end Draft
end Covenant
