import Covenant.Table

/-! Looking up names in tables. An entry is in a table exactly when looking up its name
finds its value, setting a name changes that name alone, and two tables that answer
every look-up alike are equal. -/
namespace Covenant.Table

variable {α β : Type}

@[simp] theorem get?_empty (k : String) : (∅ : Table α).get? k = none := rfl

theorem find?_insertEntry (k l : String) (v : α) (es : List (String × α)) :
    find? l (insertEntry k v es) = if k = l then some v else find? l es := by
  induction es with
  | nil => rfl
  | cons e rest ih =>
    unfold insertEntry
    split
    · simp [find?]
    · split
      · next he => by_cases h : k = l <;> simp [find?, h, ← he]
      · next he =>
        by_cases h : k = l
        · subst h
          simp [find?, Ne.symm he, ih]
        · simp [find?, ih, h]

/-- Setting a name changes what that name is looked up as, and nothing else. -/
theorem get?_insert (t : Table α) (k l : String) (v : α) :
    (t.insert k v).get? l = if k = l then some v else t.get? l :=
  find?_insertEntry k l v t.entries

theorem contains_insert (t : Table α) (k l : String) (v : α) :
    (t.insert k v).contains l = (decide (k = l) || t.contains l) := by
  by_cases h : k = l <;> simp [contains, get?_insert, h]

theorem mem_of_find? {k : String} {v : α} {es : List (String × α)} (h : find? k es = some v) :
    (k, v) ∈ es := by
  induction es with
  | nil => simp [find?] at h
  | cons e rest ih =>
    unfold find? at h
    split at h
    · next he =>
      cases he
      cases h
      exact List.mem_cons_self
    · exact List.mem_cons_of_mem _ (ih h)

theorem find?_of_mem {k : String} {v : α} {es : List (String × α)}
    (sorted : es.Pairwise fun a b => a.1 < b.1) (h : (k, v) ∈ es) : find? k es = some v := by
  induction es with
  | nil => cases h
  | cons e rest ih =>
    have he := List.pairwise_cons.1 sorted
    rcases List.mem_cons.1 h with rfl | h
    · simp [find?]
    · have hne : e.1 ≠ k := fun heq => String.lt_irrefl k (by simpa [heq] using he.1 _ h)
      simp [find?, hne, ih he.2 h]

/-- The entries are the pairs that look-ups find. -/
theorem mem_entries {t : Table α} {k : String} {v : α} :
    (k, v) ∈ t.entries ↔ t.get? k = some v :=
  ⟨find?_of_mem t.sorted, mem_of_find?⟩

theorem mem_keys {t : Table α} {k : String} : k ∈ t.keys ↔ t.contains k = true := by
  simp [keys, contains, Option.isSome_iff_exists, ← mem_entries]

theorem keys_sorted (t : Table α) : t.keys.Pairwise (· < ·) := List.pairwise_map.2 t.sorted

theorem keys_nodup (t : Table α) : t.keys.Nodup := by
  refine t.keys_sorted.imp ?_
  rintro a _ hlt rfl
  exact String.lt_irrefl a hlt

theorem find?_map (f : α → β) (k : String) (es : List (String × α)) :
    find? k (es.map fun e => (e.1, f e.2)) = (find? k es).map f := by
  induction es with
  | nil => rfl
  | cons e rest ih => by_cases h : e.1 = k <;> simp [find?, h, ih]

theorem get?_map (f : α → β) (t : Table α) (k : String) :
    (t.map f).get? k = (t.get? k).map f :=
  find?_map f k t.entries

/-! ### Entries in a row -/

theorem find?_append (k : String) (es fs : List (String × α)) :
    find? k (es ++ fs) = (find? k es).or (find? k fs) := by
  induction es with
  | nil => rfl
  | cons e rest ih => by_cases h : e.1 = k <;> simp [find?, h, ih]

theorem find?_eq_some_iff {k : String} {v : α} {es : List (String × α)}
    (h : (es.map (·.1)).Nodup) : find? k es = some v ↔ (k, v) ∈ es := by
  refine ⟨mem_of_find?, fun hmem => ?_⟩
  induction es with
  | nil => cases hmem
  | cons e rest ih =>
    rw [List.map_cons, List.nodup_cons] at h
    rcases List.mem_cons.1 hmem with rfl | hmem
    · simp [find?]
    · have hne : e.1 ≠ k := by
        rintro rfl
        exact h.1 (List.mem_map_of_mem (f := (·.1)) hmem)
      simp [find?, hne, ih h.2 hmem]

/-- After entries have been set one after the other, the last one of a name counts. -/
theorem get?_foldl_insert (t : Table α) (es : List (String × α)) (k : String) :
    (es.foldl (fun t e => t.insert e.1 e.2) t).get? k = (find? k es.reverse).or (t.get? k) := by
  induction es generalizing t with
  | nil => rfl
  | cons e rest ih =>
    rw [List.foldl_cons, ih, get?_insert, List.reverse_cons, find?_append, Option.or_assoc]
    by_cases h : e.1 = k <;> simp [find?, h]

theorem get?_ofList (es : List (String × α)) (k : String) :
    (ofList es).get? k = find? k es.reverse := by
  rw [ofList, get?_foldl_insert]
  exact Option.or_none

/-- A table made of entries has no others. -/
theorem mem_of_mem_ofList {es : List (String × α)} {e : String × α} (h : e ∈ (ofList es).entries) :
    e ∈ es := by
  have hget := mem_entries.1 (show (e.1, e.2) ∈ (ofList es).entries from h)
  rw [get?_ofList] at hget
  exact List.mem_reverse.1 (mem_of_find? hget)

theorem get?_ofList_eq_some_iff {es : List (String × α)} (h : (es.map (·.1)).Nodup) {k : String}
    {v : α} : (ofList es).get? k = some v ↔ (k, v) ∈ es := by
  have hrev : (es.reverse.map (·.1)).Nodup := by
    rw [List.map_reverse, List.Nodup, List.pairwise_reverse]
    exact h.imp Ne.symm
  rw [get?_ofList, find?_eq_some_iff hrev, List.mem_reverse]

/-! ### Merged tables -/

theorem keys_insertEntry {k : String} {v : α} {es : List (String × α)}
    (sorted : es.Pairwise fun a b => a.1 < b.1) (h : k ∈ es.map (·.1)) :
    (insertEntry k v es).map (·.1) = es.map (·.1) := by
  induction es with
  | nil => cases h
  | cons e rest ih =>
    obtain ⟨hfirst, hrest⟩ := List.pairwise_cons.1 sorted
    have hle : ¬k < e.1 := by
      intro hlt
      rcases List.mem_cons.1 h with rfl | h
      · exact String.lt_irrefl _ hlt
      · obtain ⟨f, hf, rfl⟩ := List.mem_map.1 h
        exact String.lt_irrefl _ (String.lt_trans hlt (hfirst f hf))
    rw [insertEntry, if_neg hle]
    split
    · next heq => rw [List.map_cons, List.map_cons, heq]
    · next hne => rw [List.map_cons, List.map_cons, ih hrest ((List.mem_cons.1 h).resolve_left hne)]

/-- Merging in names that are there already changes values alone. -/
theorem keys_merge {t u : Table α} (h : ∀ k ∈ u.keys, k ∈ t.keys) : (t.merge u).keys = t.keys := by
  have hfold : ∀ (es : List (String × α)) (t : Table α), (∀ e ∈ es, e.1 ∈ t.keys) →
      (es.foldl (fun t e => t.insert e.1 e.2) t).keys = t.keys := by
    intro es
    induction es with
    | nil => exact fun t _ => rfl
    | cons e rest ih =>
      intro t hes
      have hkeys : (t.insert e.1 e.2).keys = t.keys :=
        keys_insertEntry t.sorted (hes e List.mem_cons_self)
      rw [List.foldl_cons, ih _ fun f hf => hkeys ▸ hes f (List.mem_cons_of_mem _ hf), hkeys]
  exact hfold u.entries t fun e he => h e.1 (List.mem_map_of_mem he)

/-- A merged table has no names but those of its parts. -/
theorem mem_keys_merge {t u : Table α} {k : String} (h : k ∈ (t.merge u).keys) :
    k ∈ t.keys ∨ k ∈ u.keys := by
  obtain ⟨⟨_, v⟩, he, rfl⟩ := List.mem_map.1 h
  have hget := mem_entries.1 he
  rw [merge, get?_foldl_insert, Option.or_eq_some_iff] at hget
  rcases hget with hget | ⟨_, hget⟩
  · exact .inr (List.mem_map_of_mem (f := (·.1)) (List.mem_reverse.1 (mem_of_find? hget)))
  · exact .inl (List.mem_map_of_mem (f := (·.1)) (mem_entries.2 hget))

/-- A merged table has no values but those of its parts. -/
theorem mem_values_merge {t u : Table α} {v : α} (h : v ∈ (t.merge u).values) :
    v ∈ t.values ∨ v ∈ u.values := by
  obtain ⟨e, he, rfl⟩ := List.mem_map.1 h
  have hget := mem_entries.1 (show (e.1, e.2) ∈ (t.merge u).entries from he)
  rw [merge, get?_foldl_insert, Option.or_eq_some_iff] at hget
  rcases hget with hget | ⟨_, hget⟩
  · exact .inr (List.mem_map_of_mem (f := (·.2)) (List.mem_reverse.1 (mem_of_find? hget)))
  · exact .inl (List.mem_map_of_mem (f := (·.2)) (mem_entries.2 hget))

/-! ### Equality -/

theorem entries_eq_of_mem {es fs : List (String × α)} (he : es.Pairwise fun a b => a.1 < b.1)
    (hf : fs.Pairwise fun a b => a.1 < b.1) (h : ∀ e, e ∈ es ↔ e ∈ fs) : es = fs := by
  induction es generalizing fs with
  | nil =>
    cases fs with
    | nil => rfl
    | cons f _ => simpa using (h f).2 List.mem_cons_self
  | cons e es ih =>
    cases fs with
    | nil => simpa using (h e).1 List.mem_cons_self
    | cons f fs =>
      have he' := List.pairwise_cons.1 he
      have hf' := List.pairwise_cons.1 hf
      have hef : e = f := by
        rcases List.mem_cons.1 ((h e).1 List.mem_cons_self) with hef | hmem
        · exact hef
        · rcases List.mem_cons.1 ((h f).2 List.mem_cons_self) with hfe | hmem'
          · exact hfe.symm
          · exact absurd (String.lt_trans (hf'.1 e hmem) (he'.1 f hmem')) (String.lt_irrefl _)
      subst hef
      congr 1
      refine ih he'.2 hf'.2 fun a => ⟨fun ha => ?_, fun ha => ?_⟩
      · rcases List.mem_cons.1 ((h a).1 (List.mem_cons_of_mem _ ha)) with rfl | ha'
        · exact absurd (he'.1 a ha) (String.lt_irrefl _)
        · exact ha'
      · rcases List.mem_cons.1 ((h a).2 (List.mem_cons_of_mem _ ha)) with rfl | ha'
        · exact absurd (hf'.1 a ha) (String.lt_irrefl _)
        · exact ha'

/-- Tables that answer every look-up alike are equal. -/
theorem ext_get? {t u : Table α} (h : ∀ k, t.get? k = u.get? k) : t = u := by
  have hes : t.entries = u.entries :=
    entries_eq_of_mem t.sorted u.sorted fun e => by
      rw [show e = (e.1, e.2) from rfl, mem_entries, mem_entries, h]
  cases t
  cases u
  cases hes
  rfl

/-- Names can be set in either order. -/
theorem insert_comm (t : Table α) {k l : String} (h : k ≠ l) (v w : α) :
    (t.insert k v).insert l w = (t.insert l w).insert k v := by
  refine ext_get? fun m => ?_
  simp only [get?_insert]
  by_cases hk : k = m <;> by_cases hl : l = m <;> simp [hk, hl]
  exact absurd (hk.trans hl.symm) h

end Covenant.Table
