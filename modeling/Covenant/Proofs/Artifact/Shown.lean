import Covenant.Proofs.Artifact.Rendering
import Covenant.Proofs.Text.Lines
import Covenant.Proofs.Text.Trim

/-! Scalars are shown. A scalar that a body refers to is a part of the rendered body,
wherever the reference stands, when it has no white space at its ends: what a block within
a line is trimmed of and joined with cannot reach into it. -/
namespace Covenant.Artifact

open Template
open Text (Tight trim)

namespace Fills

theorem eq_slot_of_reference {i : Inline} {name : Spanned String}
    (h : ⟨name, .scalar⟩ ∈ i.references) : i = .slot name := by
  cases i with
  | text _ => cases h
  | slot _ => exact congrArg (fun ref => Inline.slot ref.name) (List.mem_singleton.1 h).symm

variable {f : Fills} {r : Resolved} {name : Spanned String} {t : String} {text : List Char}

theorem isInfix_renderInlines {is : List Inline} (h : f.renderInlines is = .ok text)
    (hslot : .slot name ∈ is) (ht : f.text name.value = .ok t) : t.toList <:+: text := by
  induction is generalizing text with
  | nil => cases hslot
  | cons i is ih =>
    obtain ⟨a, b, ha, hb, rfl⟩ := renderInlines_cons.1 h
    rcases List.mem_cons.1 hslot with rfl | hslot
    · rw [renderInline, ht] at ha
      obtain rfl := Except.ok.inj ha
      exact (List.prefix_append _ _).isInfix
    · exact (ih hb hslot).trans (List.suffix_append _ _).isInfix

/-- What stands in the base text of a block stays in the block. -/
theorem isInfix_renderBlock {b : Block} {c : BlockContent} {part : List Char}
    (hpart : part <:+: c.base) (htight : Tight part) :
    part <:+: (if b.standalone then c.renderLines b.indent else c.renderWithin) := by
  split
  · rw [BlockContent.renderLines, List.append_assoc]
    exact hpart.trans (List.prefix_append _ _).isInfix
  · have htrim := Text.isInfix_trim htight hpart
    by_cases hempty : trim c.base = []
    · rw [hempty, List.infix_nil] at htrim
      rw [htrim]
      exact List.nil_infix
    · refine htrim.trans (Text.isInfix_intercalate (List.mem_filter.2 ⟨?_, by simpa using hempty⟩))
      exact List.mem_map.2 ⟨c.base, List.mem_append_left _ List.mem_cons_self, rfl⟩

theorem isInfix_renderSegment {s : Segment} (h : f.renderSegment r s = .ok text)
    (href : ⟨name, .scalar⟩ ∈ s.references) (ht : f.text name.value = .ok t)
    (htight : Tight t.toList) : t.toList <:+: text := by
  cases s with
  | inline i =>
    obtain rfl := eq_slot_of_reference href
    rw [renderSegment, renderInline, ht] at h
    obtain rfl := Except.ok.inj h
    exact List.infix_rfl
  | block b =>
    obtain ⟨c, hc, rfl⟩ := Outcome.map_eq_ok_iff.1 h
    obtain ⟨_, _, hbase, _, _⟩ := blockContent_eq_ok_iff.1 hc
    rcases List.mem_cons.1 href with heq | href
    · cases heq
    · obtain ⟨i, hi, hmem⟩ := List.mem_flatMap.1 href
      obtain rfl := eq_slot_of_reference hmem
      exact isInfix_renderBlock (isInfix_renderInlines hbase hi ht) htight

theorem isInfix_renderSegments {segs : List Segment} (h : f.renderSegments r segs = .ok text)
    (href : ⟨name, .scalar⟩ ∈ segs.flatMap Segment.references) (ht : f.text name.value = .ok t)
    (htight : Tight t.toList) : t.toList <:+: text := by
  induction segs generalizing text with
  | nil => cases href
  | cons s segs ih =>
    obtain ⟨a, b, ha, hb, rfl⟩ := renderSegments_cons.1 h
    rw [List.flatMap_cons] at href
    rcases List.mem_append.1 href with href | href
    · exact (isInfix_renderSegment ha href ht htight).trans (List.prefix_append _ _).isInfix
    · exact (ih hb href).trans (List.suffix_append _ _).isInfix

end Fills
end Covenant.Artifact
