import Covenant.Table.Lookup

/-! Tables of tables. A value that is kept under two names is looked up by both, setting it
changes nothing else, and values under different pairs of names can be set in either order. -/
namespace Covenant.Table

variable {α : Type}

/-- The table that is kept under a name, or the empty one. -/
def under (t : Table (Table α)) (k : String) : Table α := (t.get? k).getD ∅

/-- Sets the value of a name in the table that is kept under another. -/
def insertUnder (t : Table (Table α)) (k l : String) (v : α) : Table (Table α) :=
  t.insert k ((t.under k).insert l v)

theorem under_insertUnder (t : Table (Table α)) (k l m : String) (v : α) :
    (t.insertUnder k l v).under m = if k = m then (t.under k).insert l v else t.under m := by
  rw [insertUnder, under, get?_insert]
  split
  · rfl
  · rfl

theorem get?_under_insertUnder (t : Table (Table α)) (k l m n : String) (v : α) :
    ((t.insertUnder k l v).under m).get? n =
      if k = m ∧ l = n then some v else (t.under m).get? n := by
  rw [under_insertUnder]
  by_cases hk : k = m
  · subst hk
    rw [if_pos rfl, get?_insert]
    simp only [true_and]
  · rw [if_neg hk, if_neg fun h => hk h.1]

theorem insertUnder_comm (t : Table (Table α)) {k l k' l' : String} (h : ¬(k = k' ∧ l = l'))
    (v w : α) :
    (t.insertUnder k l v).insertUnder k' l' w = (t.insertUnder k' l' w).insertUnder k l v := by
  by_cases hk : k = k'
  · subst hk
    have hl : l ≠ l' := fun heq => h ⟨rfl, heq⟩
    refine ext_get? fun m => ?_
    simp only [insertUnder, under, get?_insert, ↓reduceIte, Option.getD_some]
    rw [insert_comm _ hl]
    split
    · rfl
    · rfl
  · have hunder : (t.insertUnder k l v).under k' = t.under k' := by
      rw [under_insertUnder, if_neg hk]
    have hunder' : (t.insertUnder k' l' w).under k = t.under k := by
      rw [under_insertUnder, if_neg (Ne.symm hk)]
    calc (t.insertUnder k l v).insertUnder k' l' w
        = (t.insert k ((t.under k).insert l v)).insert k' ((t.under k').insert l' w) := by
          rw [insertUnder, hunder, insertUnder]
      _ = (t.insert k' ((t.under k').insert l' w)).insert k ((t.under k).insert l v) :=
          insert_comm t hk _ _
      _ = (t.insertUnder k' l' w).insertUnder k l v := by
          rw [insertUnder, hunder', insertUnder]

end Covenant.Table
