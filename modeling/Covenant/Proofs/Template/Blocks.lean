import Covenant.Template.Markup

/-! The blocks of a text, and the texts and slots outside them. -/
namespace Covenant.Template

theorem flatMap_filter_of_nil {α β : Type} {p : α → Bool} {f : α → List β}
    (h : ∀ a, p a = false → f a = []) (as : List α) : (as.filter p).flatMap f = as.flatMap f := by
  induction as with
  | nil => rfl
  | cons a as ih =>
    rw [List.filter_cons, List.flatMap_cons, ← ih]
    cases hp : p a with
    | true => rfl
    | false => exact (congrArg (· ++ _) (h a hp)).symm

/-- The blocks among segments. -/
def Segment.blocks (segs : List Segment) : List Block :=
  segs.filterMap fun
    | .block b => some b
    | .inline _ => none

def Markup.blocks (t : Markup) : List Block := Segment.blocks t.segments

@[simp] theorem Segment.blocks_append (segs segs' : List Segment) :
    Segment.blocks (segs ++ segs') = Segment.blocks segs ++ Segment.blocks segs' :=
  List.filterMap_append

@[simp] theorem Segment.blocks_inline (i : Inline) : Segment.blocks [.inline i] = [] := rfl

@[simp] theorem Segment.blocks_block (b : Block) : Segment.blocks [.block b] = [b] := rfl

@[simp] theorem Segment.blocks_reverse_inline (i : Inline) (before : List Segment) :
    Segment.blocks (.inline i :: before).reverse = Segment.blocks before.reverse := by
  rw [List.reverse_cons, blocks_append, blocks_inline, List.append_nil]

@[simp] theorem Segment.blocks_reverse_block (b : Block) (before : List Segment) :
    Segment.blocks (.block b :: before).reverse = Segment.blocks before.reverse ++ [b] := by
  rw [List.reverse_cons, blocks_append, blocks_block]

theorem Segment.mem_blocks {segs : List Segment} {b : Block} :
    b ∈ Segment.blocks segs ↔ .block b ∈ segs := by
  rw [Segment.blocks, List.mem_filterMap]
  constructor
  · rintro ⟨s, hs, h⟩
    cases s with
    | inline _ => cases h
    | block b' =>
      obtain rfl := Option.some.inj h
      exact hs
  · intro h
    exact ⟨.block b, h, rfl⟩

namespace Markup

/-- A text without blocks is a row of texts and slots. -/
theorem segments_of_isInlineOnly {t : Markup} (ht : t.isInlineOnly = true) :
    t.segments = t.inlines.map .inline := by
  obtain ⟨source, segs⟩ := t
  induction segs with
  | nil => rfl
  | cons s segs ih =>
    rw [isInlineOnly, List.all_cons, Bool.and_eq_true] at ht
    cases s with
    | inline i => exact congrArg (Segment.inline i :: ·) (ih ht.2)
    | block b => cases ht.1

theorem mem_references_of_inlines {t : Markup} {ref : Reference}
    (h : ref ∈ t.inlines.flatMap Inline.references) : ref ∈ t.references := by
  obtain ⟨i, hi, href⟩ := List.mem_flatMap.1 h
  obtain ⟨s, hs, hmem⟩ := List.mem_flatMap.1 hi
  refine List.mem_flatMap.2 ⟨s, hs, ?_⟩
  cases s with
  | inline j =>
    rw [List.mem_singleton.1 hmem] at href
    exact href
  | block _ => cases hmem

/-- A text without blocks refers to the slots outside blocks, and to no others. -/
theorem mem_inlines_of_references {t : Markup} (ht : t.isInlineOnly = true) {ref : Reference}
    (h : ref ∈ t.references) : ref ∈ t.inlines.flatMap Inline.references := by
  obtain ⟨s, hs, href⟩ := List.mem_flatMap.1 h
  cases s with
  | inline i =>
    exact List.mem_flatMap.2 ⟨i, List.mem_flatMap.2 ⟨_, hs, List.mem_singleton_self i⟩, href⟩
  | block b => exact absurd (List.all_eq_true.1 ht _ hs) Bool.false_ne_true

theorem kind_of_inline_reference {i : Inline} {ref : Reference} (h : ref ∈ i.references) :
    ref.kind = .scalar := by
  cases i with
  | text _ => cases h
  | slot name => rw [List.mem_singleton.1 h]

/-- A use of a slot as a block is a block. -/
theorem exists_block_of_reference {t : Markup} {ref : Reference} (h : ref ∈ t.references)
    (hkind : ref.kind = .block) : ∃ b, .block b ∈ t.segments ∧ b.name = ref.name := by
  obtain ⟨s, hs, href⟩ := List.mem_flatMap.1 h
  cases s with
  | inline i =>
    rw [kind_of_inline_reference href] at hkind
    cases hkind
  | block b =>
    rcases List.mem_cons.1 href with rfl | href
    · exact ⟨b, hs, rfl⟩
    · obtain ⟨i, _, hi⟩ := List.mem_flatMap.1 href
      rw [kind_of_inline_reference hi] at hkind
      cases hkind

end Markup
end Covenant.Template
