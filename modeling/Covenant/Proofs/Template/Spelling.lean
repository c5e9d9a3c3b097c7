import Covenant.Proofs.Template.Slice
import Covenant.Proofs.Template.Written

/-! How segments spell their source, whatever their markers say: what each segment was before
any line was cut, one after the other, so that the texts, slots and blocks of a source tile
it. -/
namespace Covenant.Template

/-- Texts and slots, and the source they were. -/
inductive Inline.Spell : List Inline → List Char → Prop
  | nil : Spell [] []
  | text {cs ds : List Char} {is : List Inline} (nonempty : cs ≠ []) (rest : Spell is ds) :
      Spell (.text cs :: is) (cs ++ ds)
  | slot (name : Spanned String) {raw ds : List Char} {is : List Inline} (marker : IsMarker raw)
      (rest : Spell is ds) : Spell (.slot name :: is) (raw ++ ds)

/-- Segments from byte `pos` on, the blocks among them, and the source they were. -/
inductive Segment.Spell : Nat → List Segment → List Occurrence → List Char → Prop
  | nil {pos : Nat} : Spell pos [] [] []
  | text {pos : Nat} {cs ds : List Char} {segs : List Segment} {os : List Occurrence}
      (nonempty : cs ≠ []) (unmarked : Opaque cs ds)
      (rest : Spell (pos + byteLength cs) segs os ds) :
      Spell pos (.inline (.text cs) :: segs) os (cs ++ ds)
  | slot {pos : Nat} (name : Spanned String) {raw ds : List Char} {segs : List Segment}
      {os : List Occurrence} (marker : IsMarker raw)
      (rest : Spell (pos + byteLength raw) segs os ds) :
      Spell pos (.inline (.slot name) :: segs) os (raw ++ ds)
  | block {pos : Nat} {b : Block} {opening inner closing ds : List Char} {segs : List Segment}
      {o : Occurrence} {os : List Occurrence} (name : b.name = o.name)
      (unsettled : b.standalone = false) (openMarker : IsMarker opening)
      (body : Inline.Spell b.body inner) (closeMarker : IsMarker closing)
      (openSpan : o.name.span = ⟨pos, pos + byteLength opening⟩)
      (closeSpan : o.close = ⟨pos + byteLength (opening ++ inner),
        pos + byteLength (opening ++ inner ++ closing)⟩)
      (rest : Spell (pos + byteLength (opening ++ inner ++ closing)) segs os ds) :
      Spell pos (.block b :: segs) (o :: os) (opening ++ inner ++ closing ++ ds)

theorem Inline.Written.spell {after cs : List Char} {pos : Nat} {is : List Inline}
    (h : Inline.Written after pos is cs) : Inline.Spell is cs := by
  induction h with
  | nil => exact .nil
  | text nonempty _ _ ih => exact .text nonempty ih
  | slot marker _ ih => exact .slot _ marker.isMarker ih

theorem Segment.Written.spell {pos : Nat} {segs : List Segment} {os : List Occurrence}
    {cs : List Char} (h : Segment.Written pos segs os cs) : Segment.Spell pos segs os cs := by
  induction h with
  | nil => exact .nil
  | @inline pos i raw ds segs os single _ ih =>
    cases i with
    | text cs =>
      obtain ⟨rfl, nonempty, unmarked⟩ := Inline.written_text_iff.1 single
      exact .text nonempty unmarked ih
    | slot name => exact .slot name (Inline.written_slot_iff.1 single).1.isMarker ih
  | block openMarker content closeMarker _ ih =>
    exact .block rfl rfl openMarker.isMarker content.spell closeMarker.isMarker rfl rfl ih

/-- The segments of a source spell it. -/
theorem Segment.spell_of_ofChars {source : List Char} {segs : List Segment}
    (h : Segment.ofChars source = .ok segs) :
    Segment.Spell 0 segs (occurrences source) source ∧ Segment.Apart segs :=
  ⟨(Segment.written_of_ofChars h).1.spell, (Segment.written_of_ofChars h).2⟩

end Covenant.Template
