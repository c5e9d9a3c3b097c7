/-! Tables: finite maps from names to values, kept in the order of the names, so that
two tables with the same entries are equal and listing one is listing it sorted. -/
namespace Covenant

structure Table (α : Type) where
  entries : List (String × α)
  sorted : entries.Pairwise fun a b => a.1 < b.1
  deriving DecidableEq

namespace Table

variable {α β : Type}

def insertEntry (k : String) (v : α) : List (String × α) → List (String × α)
  | [] => [(k, v)]
  | e :: rest =>
    if k < e.1 then (k, v) :: e :: rest
    else if k = e.1 then (k, v) :: rest
    else e :: insertEntry k v rest

theorem mem_insertEntry {k : String} {v : α} {e : String × α} {es : List (String × α)}
    (h : e ∈ insertEntry k v es) : e = (k, v) ∨ e ∈ es := by
  induction es with
  | nil => simpa [insertEntry] using h
  | cons f fs ih =>
    unfold insertEntry at h
    split at h
    · simpa using h
    · split at h
      · simp at h ⊢
        rcases h with h | h <;> simp [h]
      · simp at h ⊢
        rcases h with h | h
        · simp [h]
        · rcases ih h with h | h <;> simp [h]

theorem insertEntry_sorted (k : String) (v : α) {es : List (String × α)}
    (h : es.Pairwise fun a b => a.1 < b.1) :
    (insertEntry k v es).Pairwise fun a b => a.1 < b.1 := by
  induction es with
  | nil => simp [insertEntry]
  | cons f fs ih =>
    have hf := List.pairwise_cons.1 h
    unfold insertEntry
    split
    · next hk =>
      refine List.pairwise_cons.2 ⟨fun e he => ?_, h⟩
      rcases List.mem_cons.1 he with rfl | he
      · exact hk
      · exact String.lt_trans hk (hf.1 e he)
    · next hk =>
      split
      · next he => exact List.pairwise_cons.2 ⟨fun e h => he ▸ hf.1 e h, hf.2⟩
      · next he =>
        refine List.pairwise_cons.2 ⟨fun e h => ?_, ih hf.2⟩
        rcases mem_insertEntry h with rfl | h
        · exact Std.lt_of_le_of_ne (String.not_lt.1 hk) (Ne.symm he)
        · exact hf.1 e h

def empty : Table α := ⟨[], List.Pairwise.nil⟩

instance : EmptyCollection (Table α) := ⟨empty⟩
instance : Inhabited (Table α) := ⟨empty⟩

/-- Sets the value of a name. -/
def insert (t : Table α) (k : String) (v : α) : Table α :=
  ⟨insertEntry k v t.entries, insertEntry_sorted k v t.sorted⟩

def find? (k : String) : List (String × α) → Option α
  | [] => none
  | e :: rest => if e.1 = k then some e.2 else find? k rest

def get? (t : Table α) (k : String) : Option α := find? k t.entries

def contains (t : Table α) (k : String) : Bool := (t.get? k).isSome

/-- The names, sorted. -/
def keys (t : Table α) : List String := t.entries.map (·.1)

def values (t : Table α) : List α := t.entries.map (·.2)

def size (t : Table α) : Nat := t.entries.length

def isEmpty (t : Table α) : Bool := t.entries.isEmpty

/-- The table with the given entries, the later of two of one name winning. -/
def ofList (es : List (String × α)) : Table α := es.foldl (fun t e => t.insert e.1 e.2) empty

/-- The entries of both tables, those of the second winning. -/
def merge (t u : Table α) : Table α := u.entries.foldl (fun t e => t.insert e.1 e.2) t

/-- The table with every value mapped. -/
def map (f : α → β) (t : Table α) : Table β :=
  ⟨t.entries.map fun e => (e.1, f e.2), List.pairwise_map.2 t.sorted⟩

end Table
end Covenant
