import Covenant.Yaml.Value

/-! What a source can hold as a value. Reading a source gives integers that a word of 64
bits holds and mappings without a repeated key, at every depth and through every alias.
Whether a value has tags is the choice of who wrote it. -/
namespace Covenant.Yaml

namespace Value

/-- A value that a source can hold. -/
inductive Sound : Value → Prop
  | null : Sound .null
  | bool (b : Bool) : Sound (.bool b)
  | int {n : Int} (holds : Word.holds 64 n = true) : Sound (.number (.int n))
  | double (d : Double) : Sound (.number (.double d))
  | text (s : String) : Sound (.text s)
  | sequence {items : List Value} (sound : ∀ v ∈ items, Sound v) : Sound (.sequence items)
  | mapping {entries : List (Value × Value)}
      (distinct : entries.Pairwise fun e f => e.1.same f.1 = false)
      (keys : ∀ e ∈ entries, Sound e.1) (values : ∀ e ∈ entries, Sound e.2) :
      Sound (.mapping entries)
  | tagged (tag : String) {v : Value} (sound : Sound v) : Sound (.tagged tag v)

/-- A value without a tag anywhere in it. -/
inductive Untagged : Value → Prop
  | null : Untagged .null
  | bool (b : Bool) : Untagged (.bool b)
  | number (n : Number) : Untagged (.number n)
  | text (s : String) : Untagged (.text s)
  | sequence {items : List Value} (untagged : ∀ v ∈ items, Untagged v) : Untagged (.sequence items)
  | mapping {entries : List (Value × Value)} (keys : ∀ e ∈ entries, Untagged e.1)
      (values : ∀ e ∈ entries, Untagged e.2) : Untagged (.mapping entries)

attribute [simp] Sound.null Sound.bool Sound.double Sound.text
attribute [simp] Untagged.null Untagged.bool Untagged.number Untagged.text

@[simp] theorem sound_int_iff {n : Int} :
    Sound (.number (.int n)) ↔ Word.holds 64 n = true := by
  constructor
  · intro h
    cases h with
    | int holds => exact holds
  · exact .int

@[simp] theorem sound_sequence_iff {items : List Value} :
    Sound (.sequence items) ↔ ∀ v ∈ items, Sound v := by
  constructor
  · intro h
    cases h with
    | sequence sound => exact sound
  · exact .sequence

@[simp] theorem sound_mapping_iff {entries : List (Value × Value)} :
    Sound (.mapping entries) ↔ (entries.Pairwise fun e f => e.1.same f.1 = false) ∧
      ∀ e ∈ entries, Sound e.1 ∧ Sound e.2 := by
  constructor
  · intro h
    cases h with
    | mapping distinct keys values => exact ⟨distinct, fun e he => ⟨keys e he, values e he⟩⟩
  · rintro ⟨distinct, h⟩
    exact .mapping distinct (fun e he => (h e he).1) fun e he => (h e he).2

@[simp] theorem untagged_sequence_iff {items : List Value} :
    Untagged (.sequence items) ↔ ∀ v ∈ items, Untagged v := by
  constructor
  · intro h
    cases h with
    | sequence untagged => exact untagged
  · exact .sequence

@[simp] theorem untagged_mapping_iff {entries : List (Value × Value)} :
    Untagged (.mapping entries) ↔ ∀ e ∈ entries, Untagged e.1 ∧ Untagged e.2 := by
  constructor
  · intro h
    cases h with
    | mapping keys values => exact fun e he => ⟨keys e he, values e he⟩
  · intro h
    exact .mapping (fun e he => (h e he).1) fun e he => (h e he).2

end Value

/-! ### What holds of every outcome -/

namespace Reading

variable {α β : Type}

/-- Every outcome of reading has the property. -/
def Always (P : α → Prop) (m : Reading α) : Prop := ∀ n r, m.run n = some r → P r.1

variable {P : α → Prop} {Q : β → Prop}

theorem always_pure {a : α} (h : P a) : Always P (pure a) := by
  rintro n r hr
  cases hr
  exact h

theorem always_failure : Always P (failure : Reading α) := by
  rintro n r hr
  cases hr

theorem always_lift {o : Option α} (h : ∀ a, o = some a → P a) :
    Always P (liftM o : Reading α) := by
  intro n r hr
  cases o with
  | none => cases hr
  | some a =>
    cases hr
    exact h a rfl

theorem always_bind {m : Reading α} {f : α → Reading β} (hm : Always P m)
    (hf : ∀ a, P a → Always Q (f a)) : Always Q (m >>= f) := by
  intro n r hr
  obtain ⟨p, hp, hr⟩ := Option.bind_eq_some_iff.1 hr
  exact hf p.1 (hm n p hp) p.2 r hr

theorem always_true (m : Reading α) : Always (fun _ => True) m := fun _ _ _ => trivial

theorem always_mapM {f : α → Reading β} {xs : List α} (h : ∀ x ∈ xs, Always Q (f x)) :
    Always (fun ys => ∀ y ∈ ys, Q y) (xs.mapM f) := by
  induction xs with
  | nil =>
    rw [List.mapM_nil]
    exact always_pure (by simp)
  | cons x xs ih =>
    rw [List.mapM_cons]
    refine always_bind (h x List.mem_cons_self) fun y hy => ?_
    refine always_bind (ih fun z hz => h z (List.mem_cons_of_mem _ hz)) fun ys hys => ?_
    refine always_pure ?_
    intro z hz
    rcases List.mem_cons.1 hz with rfl | hz
    · exact hy
    · exact hys z hz

/-- What one step keeps, a whole fold keeps. -/
theorem always_foldlM {f : β → α → Reading β} (step : ∀ b a, Q b → Always Q (f b a)) {as : List α}
    {b : β} (hb : Q b) : Always Q (as.foldlM f b) := by
  induction as generalizing b with
  | nil =>
    rw [List.foldlM_nil]
    exact always_pure hb
  | cons a as ih =>
    rw [List.foldlM_cons]
    exact always_bind (step b a hb) fun b' hb' => ih hb'

end Reading

/-! ### Scalars -/

theorem Plain.holds_of_meaning? {cs : List Char} {n : Int} (h : meaning? cs = some (.int n)) :
    Word.holds 64 n = true := by
  simp only [meaning?] at h
  split at h
  · cases h
  · split at h
    · cases h
    · split at h
      · split at h
        · next hn =>
          cases h
          exact hn
        · cases h
      · split at h
        · cases h
        · split at h <;> cases h

theorem plainValue_sound {cs : List Char} {v : Value} (h : plainValue cs = some v) : v.Sound := by
  obtain ⟨m, hm, rfl⟩ := Option.map_eq_some_iff.1 h
  cases m with
  | null => exact .null
  | bool b => exact .bool b
  | int n => exact .int (Plain.holds_of_meaning? hm)
  | double d => exact .double d
  | text => exact .text _

theorem intValue_sound {cs : List Char} {v : Value} (h : intValue cs = some v) : v.Sound := by
  obtain ⟨n, _, h⟩ := Option.bind_eq_some_iff.1 h
  split at h
  · next hn =>
    cases h
    exact .int hn
  · cases h

theorem tagValue_sound {tag : Option Octets} {v : Value} (h : v.Sound) :
    (tagValue tag v).Sound := by
  unfold tagValue
  split
  · exact .tagged _ h
  · exact h

theorem scalarValue_sound {tag : Option Octets} {style : Style} {cs : List Char} {v : Value}
    (h : scalarValue tag style cs = some v) : v.Sound := by
  unfold scalarValue at h
  split at h
  · obtain ⟨w, hw, rfl⟩ := Option.map_eq_some_iff.1 h
    refine tagValue_sound ?_
    split at hw
    · exact plainValue_sound hw
    · cases hw
      exact .text _
  · split at h
    · obtain ⟨b, _, rfl⟩ := Option.map_eq_some_iff.1 h
      exact .bool b
    · split at h
      · exact intValue_sound h
      · split at h
        · obtain ⟨d, _, rfl⟩ := Option.map_eq_some_iff.1 h
          exact .double d
        · split at h
          · split at h
            · cases h
              exact .null
            · cases h
          · cases h
            exact .text _

/-! ### Collections -/

theorem mappingOf_go_sound {seen entries : List (Value × Value)} {v : Value}
    (distinct : seen.reverse.Pairwise fun e f => e.1.same f.1 = false)
    (hs : ∀ e ∈ seen, e.1.Sound ∧ e.2.Sound) (he : ∀ e ∈ entries, e.1.Sound ∧ e.2.Sound)
    (h : mappingOf?.go seen entries = some v) : v.Sound := by
  induction entries generalizing seen with
  | nil =>
    cases h
    exact .mapping distinct (fun e h => (hs e (List.mem_reverse.1 h)).1)
      fun e h => (hs e (List.mem_reverse.1 h)).2
  | cons e rest ih =>
    unfold mappingOf?.go at h
    split at h
    · cases h
    · next hnew =>
      have hnew : ∀ f ∈ seen, f.1.same e.1 = false := by simpa using hnew
      refine ih ?_ ?_ (fun f hf => he f (List.mem_cons_of_mem _ hf)) h
      · rw [List.reverse_cons, List.pairwise_append]
        refine ⟨distinct, List.pairwise_singleton _ _, ?_⟩
        intro f hf g hg
        rw [List.mem_singleton.1 hg]
        exact hnew f (List.mem_reverse.1 hf)
      · intro f hf
        rcases List.mem_cons.1 hf with rfl | hf
        · exact he f List.mem_cons_self
        · exact hs f hf

theorem mappingOf?_sound {entries : List (Value × Value)} {v : Value}
    (he : ∀ e ∈ entries, e.1.Sound ∧ e.2.Sound) (h : mappingOf? entries = some v) : v.Sound :=
  mappingOf_go_sound List.Pairwise.nil (by simp) he h

/-! ### Nodes -/

open Reading

/-- Whatever a node is read as is sound: by recursion on the room for collections. -/
theorem Graph.valueOf_sound (g : Graph) (depth : Nat) (node : Node) :
    Always Value.Sound (g.valueOf depth node) := by
  induction depth generalizing node with
  | zero =>
    unfold Graph.valueOf
    refine always_bind (always_true _) fun target _ => ?_
    cases target with
    | scalar tag style text => exact always_lift fun v => scalarValue_sound
    | sequence tag items => exact always_failure
    | mapping tag entries => exact always_failure
    | «alias» number => exact always_failure
  | succ depth ih =>
    unfold Graph.valueOf
    refine always_bind (always_true _) fun target _ => ?_
    cases target with
    | scalar tag style text => exact always_lift fun v => scalarValue_sound
    | sequence tag items =>
      refine always_bind (always_mapM fun item _ => ih item) fun vs hvs => ?_
      exact always_pure (tagValue_sound (.sequence hvs))
    | mapping tag entries =>
      have entry : ∀ e ∈ entries, Always (fun p : Value × Value => p.1.Sound ∧ p.2.Sound)
          (do return (← g.valueOf depth e.1, ← g.valueOf depth e.2)) := by
        intro e _
        refine always_bind (ih e.1) fun k hk => always_bind (ih e.2) fun v hv => ?_
        exact always_pure ⟨hk, hv⟩
      refine always_bind (always_mapM entry) fun es hes => ?_
      refine always_bind (always_lift fun v => mappingOf?_sound hes) fun v hv => ?_
      exact always_pure (tagValue_sound hv)
    | «alias» number => exact always_failure

/-- A source is read as a sound value. -/
theorem Value.sound_of_read {source : String} {v : Value} (h : Value.read source = some v) :
    v.Sound := by
  obtain ⟨g, _, h⟩ := Option.bind_eq_some_iff.1 h
  unfold Graph.value? at h
  split at h
  · next node _ =>
    obtain ⟨r, hr, rfl⟩ := Option.map_eq_some_iff.1 h
    exact g.valueOf_sound depthLimit node 0 r hr
  · cases h
    exact .null

end Covenant.Yaml
