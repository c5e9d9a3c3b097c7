import Covenant.Artifact.Rendering
import Covenant.Proofs.Outcome
import Covenant.Proofs.Template.Blocks

/-! Rendering comes to a text exactly when every slot that it reads, in the body or in
what the override adds to the blocks of the body, has a fill of the kind it is used as.
The text of segments in a row is made of the texts of its parts. -/
namespace Covenant.Artifact

open Template

namespace Fills

/-- The slot has a fill of the kind it is used as. -/
def Meets (f : Fills) (ref : Reference) : Prop :=
  (f.get? ref.name.value).map Fill.kind = some ref.kind

theorem text_eq_ok_iff {f : Fills} {slot t : String} :
    f.text slot = .ok t ↔ f.get? slot = some (.scalar t) := by
  unfold text
  split
  · next hget => simp [hget]
  · next hget => simp [hget]
  · next hget => simp [hget]

theorem statements_eq_ok_iff {f : Fills} {slot : String} {ss : List String} :
    f.statements slot = .ok ss ↔ f.get? slot = some (.block ss) := by
  unfold statements
  split
  · next hget => simp [hget]
  · next hget => simp [hget]
  · next hget => simp [hget]

theorem text_ok_iff {f : Fills} {name : Spanned String} :
    (∃ t, f.text name.value = .ok t) ↔ f.Meets ⟨name, .scalar⟩ := by
  simp only [text_eq_ok_iff, Meets]
  cases f.get? name.value with
  | none => simp
  | some fill =>
    cases fill with
    | scalar t => simp [Fill.kind]
    | block _ => simp [Fill.kind]

theorem statements_ok_iff {f : Fills} {name : Spanned String} :
    (∃ ss, f.statements name.value = .ok ss) ↔ f.Meets ⟨name, .block⟩ := by
  simp only [statements_eq_ok_iff, Meets]
  cases f.get? name.value with
  | none => simp
  | some fill =>
    cases fill with
    | scalar _ => simp [Fill.kind]
    | block ss => simp [Fill.kind]

/-! ### Texts and slots -/

theorem renderInlines_cons {f : Fills} {i : Inline} {is : List Inline} {text : List Char} :
    f.renderInlines (i :: is) = .ok text ↔
      ∃ a b, f.renderInline i = .ok a ∧ f.renderInlines is = .ok b ∧ text = a ++ b := by
  rw [renderInlines]
  exact Outcome.append_eq_ok_iff

theorem renderInline_ok_iff {f : Fills} {i : Inline} :
    (∃ text, f.renderInline i = .ok text) ↔ ∀ ref ∈ i.references, f.Meets ref := by
  cases i with
  | text cs => simp [renderInline, Inline.references]
  | slot name =>
    rw [Inline.references, List.forall_mem_singleton, ← text_ok_iff]
    simp only [renderInline, Outcome.map_eq_ok_iff]
    constructor
    · rintro ⟨_, t, ht, _⟩
      exact ⟨t, ht⟩
    · rintro ⟨t, ht⟩
      exact ⟨_, t, ht, rfl⟩

theorem renderInlines_ok_iff {f : Fills} {is : List Inline} :
    (∃ text, f.renderInlines is = .ok text) ↔
      ∀ ref ∈ is.flatMap Inline.references, f.Meets ref := by
  induction is with
  | nil => simp [renderInlines]
  | cons i is ih =>
    rw [List.flatMap_cons, List.forall_mem_append, ← ih, ← renderInline_ok_iff]
    simp only [renderInlines_cons]
    exact Outcome.exists_append_ok_iff

/-! ### Segments -/

theorem blockContent_eq_ok_iff {f : Fills} {r : Resolved} {b : Block} {c : BlockContent} :
    f.blockContent r b = .ok c ↔ ∃ ss, f.statements b.name.value = .ok ss ∧
      f.renderInlines b.body = .ok c.base ∧
      (match r.extension? b.name.value with
        | some t => ∃ e, f.renderInlines t.inlines = .ok e ∧ c.extension = some e
        | none => c.extension = none) ∧
      c.statements = ss.map String.toList := by
  unfold blockContent
  rw [Outcome.bind_eq_ok_iff]
  refine exists_congr fun ss => and_congr_right fun _ => ?_
  rw [Outcome.bind_eq_ok_iff]
  cases r.extension? b.name.value with
  | none =>
    constructor
    · rintro ⟨base, hbase, h⟩
      obtain rfl := Except.ok.inj h
      exact ⟨hbase, rfl, rfl⟩
    · rintro ⟨hbase, hext, hss⟩
      refine ⟨c.base, hbase, ?_⟩
      obtain ⟨_, _, _⟩ := c
      cases hext
      cases hss
      rfl
  | some t =>
    constructor
    · rintro ⟨base, hbase, h⟩
      obtain ⟨ext, hext, h⟩ := Outcome.bind_eq_ok_iff.1 h
      obtain ⟨e, he, rfl⟩ := Outcome.map_eq_ok_iff.1 hext
      obtain rfl := Except.ok.inj h
      exact ⟨hbase, ⟨e, he, rfl⟩, rfl⟩
    · rintro ⟨hbase, ⟨e, he, hext⟩, hss⟩
      refine ⟨c.base, hbase, Outcome.bind_eq_ok_iff.2
        ⟨some e, Outcome.map_eq_ok_iff.2 ⟨e, he, rfl⟩, ?_⟩⟩
      obtain ⟨_, _, _⟩ := c
      cases hext
      cases hss
      rfl

/-- Every slot in what the override adds to the block has its fill. -/
def MeetsExtension (f : Fills) (r : Resolved) (b : Block) : Prop :=
  ∀ t, r.extension? b.name.value = some t → ∀ ref ∈ t.inlines.flatMap Inline.references, f.Meets ref

theorem blockContent_ok_iff {f : Fills} {r : Resolved} {b : Block} :
    (∃ c, f.blockContent r b = .ok c) ↔
      (∀ ref ∈ (Segment.block b).references, f.Meets ref) ∧ f.MeetsExtension r b := by
  rw [Segment.references, List.forall_mem_cons, ← statements_ok_iff, ← renderInlines_ok_iff,
    MeetsExtension]
  simp only [blockContent_eq_ok_iff, ← renderInlines_ok_iff]
  constructor
  · rintro ⟨c, ss, hss, hbase, hext, _⟩
    refine ⟨⟨⟨ss, hss⟩, ⟨_, hbase⟩⟩, ?_⟩
    intro t ht
    rw [ht] at hext
    exact hext.imp fun _ he => he.1
  · rintro ⟨⟨⟨ss, hss⟩, ⟨base, hbase⟩⟩, hext⟩
    cases h : r.extension? b.name.value with
    | none => exact ⟨⟨base, none, ss.map String.toList⟩, ss, hss, hbase, rfl, rfl⟩
    | some t =>
      obtain ⟨e, he⟩ := hext t h
      exact ⟨⟨base, some e, ss.map String.toList⟩, ss, hss, hbase, ⟨e, he, rfl⟩, rfl⟩

theorem renderSegment_ok_iff {f : Fills} {r : Resolved} {s : Segment} :
    (∃ text, f.renderSegment r s = .ok text) ↔
      (∀ ref ∈ s.references, f.Meets ref) ∧ ∀ b ∈ Segment.blocks [s], f.MeetsExtension r b := by
  cases s with
  | inline i => simpa [renderSegment, Segment.references] using renderInline_ok_iff
  | block b =>
    rw [Segment.blocks_block, List.forall_mem_singleton, ← blockContent_ok_iff]
    simp only [renderSegment, Outcome.map_eq_ok_iff]
    constructor
    · rintro ⟨_, c, hc, _⟩
      exact ⟨c, hc⟩
    · rintro ⟨c, hc⟩
      exact ⟨_, c, hc, rfl⟩

theorem renderSegments_cons {f : Fills} {r : Resolved} {s : Segment} {ss : List Segment}
    {text : List Char} :
    f.renderSegments r (s :: ss) = .ok text ↔
      ∃ a b, f.renderSegment r s = .ok a ∧ f.renderSegments r ss = .ok b ∧ text = a ++ b := by
  rw [renderSegments]
  exact Outcome.append_eq_ok_iff

theorem renderSegments_ok_iff {f : Fills} {r : Resolved} {segs : List Segment} :
    (∃ text, f.renderSegments r segs = .ok text) ↔
      (∀ ref ∈ segs.flatMap Segment.references, f.Meets ref) ∧
        ∀ b ∈ Segment.blocks segs, f.MeetsExtension r b := by
  induction segs with
  | nil => simp [renderSegments, Segment.blocks]
  | cons s segs ih =>
    rw [List.flatMap_cons, List.forall_mem_append, ← List.singleton_append, Segment.blocks_append,
      List.forall_mem_append, and_and_and_comm, ← ih, ← renderSegment_ok_iff]
    simp only [List.singleton_append, renderSegments_cons]
    exact Outcome.exists_append_ok_iff

/-! ### Segments in a row -/

theorem renderSegments_append {f : Fills} {r : Resolved} {segs segs' : List Segment}
    {text : List Char} :
    f.renderSegments r (segs ++ segs') = .ok text ↔
      ∃ a b, f.renderSegments r segs = .ok a ∧ f.renderSegments r segs' = .ok b ∧
        text = a ++ b := by
  induction segs generalizing text with
  | nil => simp [renderSegments]
  | cons s segs ih =>
    rw [List.cons_append, renderSegments_cons]
    constructor
    · rintro ⟨a, b, ha, hb, rfl⟩
      obtain ⟨a', b', ha', hb', rfl⟩ := ih.1 hb
      exact ⟨a ++ a', b', renderSegments_cons.2 ⟨a, a', ha, ha', rfl⟩, hb', by simp⟩
    · rintro ⟨a, b, ha, hb, rfl⟩
      obtain ⟨c, d, hc, hd, rfl⟩ := renderSegments_cons.1 ha
      exact ⟨c, d ++ b, hc, ih.2 ⟨d, b, hd, hb, rfl⟩, by simp⟩

end Fills
end Covenant.Artifact
