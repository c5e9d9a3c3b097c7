import Covenant.Proofs.Artifact.Rendering
import Covenant.Proofs.Text.LineEnds

/-! Two renderings of one body. As long as the statements of a block are the same in both, or
take up a line each, the renderings have as many more line ends than each other as the fills
have that they show. -/
namespace Covenant.Artifact

open Template
open Text (lines lineEnds isBlank indentLine indentLines lineEnds_append)

/-! ### Statements -/

/-- A statement that takes up one line. -/
structure OneLine (s : List Char) : Prop where
  newline : '\n' ∉ s
  content : s.all isBlank = false

/-- Statements that are the same, or take up one line each. -/
inductive LineByLine : List Char → List Char → Prop
  | same (s : List Char) : LineByLine s s
  | lines {s t : List Char} (hs : OneLine s) (ht : OneLine t) : LineByLine s t

/-- A text that starts with a text that is not blank. -/
theorem not_blank_append {s t : String} (h : s.toList.all isBlank = false) :
    (s ++ t).toList.all isBlank = false := by
  rw [String.toList_append, List.all_append, h, Bool.false_and]

theorem lineEnds_indentLines {s : List Char} (h : OneLine s) (indent : List Char) :
    lineEnds (indentLines indent s) = lineEnds indent + lineEnds s + 1 := by
  have hline : indentLines indent s = indent ++ s ++ ['\n'] := by
    simp [indentLines, Text.lines_of_not_mem h.newline, indentLine, h.content]
  rw [hline, lineEnds_append, lineEnds_append]
  rfl

theorem LineByLine.balance {s t : List Char} (h : LineByLine s t) (indent : List Char) :
    lineEnds (indentLines indent s) + lineEnds t = lineEnds (indentLines indent t) + lineEnds s := by
  cases h with
  | same => rfl
  | lines hs ht =>
    rw [lineEnds_indentLines hs, lineEnds_indentLines ht]
    omega

theorem lineByLine_balance {ss ts : List (List Char)} (h : List.Forall₂ LineByLine ss ts)
    (indent : List Char) :
    lineEnds (ss.flatMap (indentLines indent)) + (ts.map lineEnds).sum =
      lineEnds (ts.flatMap (indentLines indent)) + (ss.map lineEnds).sum := by
  induction h with
  | nil => rfl
  | cons h _ ih =>
    have hhead := h.balance indent
    simp only [List.flatMap_cons, List.map_cons, List.sum_cons, lineEnds_append]
    omega

/-! ### Fills -/

def Fill.lineEnds : Fill → Nat
  | .scalar t => Text.lineEnds t.toList
  | .block ss => (ss.map fun s => Text.lineEnds s.toList).sum

namespace Fills

variable {f f' : Fills} {r : Resolved}

/-- The line ends in what a slot is filled with. -/
def lineEnds (f : Fills) (slot : String) : Nat := (f.get? slot).elim 0 Fill.lineEnds

/-- The line ends in what slots are filled with, for every use of a slot. -/
def lineEndsOf (f : Fills) (slots : List String) : Nat := (slots.map f.lineEnds).sum

theorem lineEndsOf_append (as bs : List String) :
    f.lineEndsOf (as ++ bs) = f.lineEndsOf as + f.lineEndsOf bs := by
  simp [lineEndsOf]

theorem lineEnds_of_text {slot t : String} (h : f.text slot = .ok t) :
    f.lineEnds slot = Text.lineEnds t.toList := by
  rw [lineEnds, text_eq_ok_iff.1 h]
  rfl

theorem lineEnds_of_statements {slot : String} {ss : List String} (h : f.statements slot = .ok ss) :
    f.lineEnds slot = ((ss.map String.toList).map Text.lineEnds).sum := by
  rw [lineEnds, statements_eq_ok_iff.1 h, List.map_map]
  rfl

/-! ### Two renderings -/

/-- The slots that are used, in order. -/
def slotsOf (refs : List Reference) : List String := refs.map (·.name.value)

theorem renderInline_balance {i : Inline} {text text' : List Char} (h : f.renderInline i = .ok text)
    (h' : f'.renderInline i = .ok text') :
    Text.lineEnds text + f'.lineEndsOf (slotsOf i.references) =
      Text.lineEnds text' + f.lineEndsOf (slotsOf i.references) := by
  cases i with
  | text cs =>
    obtain rfl := Except.ok.inj h
    obtain rfl := Except.ok.inj h'
    rfl
  | slot name =>
    obtain ⟨t, ht, rfl⟩ := Outcome.map_eq_ok_iff.1 h
    obtain ⟨t', ht', rfl⟩ := Outcome.map_eq_ok_iff.1 h'
    simp only [Inline.references, slotsOf, lineEndsOf, List.map_cons, List.map_nil,
      List.sum_singleton, lineEnds_of_text ht, lineEnds_of_text ht']
    omega

/-- Without slots the fills do not matter. -/
theorem renderInlines_of_no_references {is : List Inline} (h : is.flatMap Inline.references = []) :
    f.renderInlines is = f'.renderInlines is := by
  induction is with
  | nil => rfl
  | cons i is ih =>
    obtain ⟨hi, his⟩ := List.append_eq_nil_iff.1 h
    cases i with
    | text cs => rw [renderInlines, renderInlines, ih his]; rfl
    | slot name => cases hi

/-- The only slot of the block is its own, and its statements are the same or take up a line
each, which they must have to themselves. -/
structure Balanced (f f' : Fills) (r : Resolved) (b : Block) : Prop where
  body : b.body.flatMap Inline.references = []
  extension : ∀ t, r.extension? b.name.value = some t → t.inlines.flatMap Inline.references = []
  statements : ∀ ss ss', f.statements b.name.value = .ok ss → f'.statements b.name.value = .ok ss' →
    List.Forall₂ LineByLine (ss.map String.toList) (ss'.map String.toList)
  within : b.standalone = false → f.statements b.name.value = f'.statements b.name.value

theorem Balanced.content {b : Block} (hb : f.Balanced f' r b) {c c' : BlockContent}
    (h : f.blockContent r b = .ok c) (h' : f'.blockContent r b = .ok c') :
    c.base = c'.base ∧ c.extension = c'.extension ∧
      List.Forall₂ LineByLine c.statements c'.statements ∧
      f.lineEnds b.name.value = (c.statements.map Text.lineEnds).sum ∧
      f'.lineEnds b.name.value = (c'.statements.map Text.lineEnds).sum := by
  obtain ⟨ss, hss, hbase, hextension, hstatements⟩ := blockContent_eq_ok_iff.1 h
  obtain ⟨ss', hss', hbase', hextension', hstatements'⟩ := blockContent_eq_ok_iff.1 h'
  refine ⟨?_, ?_, ?_, ?_, ?_⟩
  · rw [renderInlines_of_no_references hb.body] at hbase
    exact Except.ok.inj (hbase.symm.trans hbase')
  · cases ht : r.extension? b.name.value with
    | none =>
      rw [ht] at hextension hextension'
      exact hextension.trans hextension'.symm
    | some t =>
      rw [ht] at hextension hextension'
      obtain ⟨e, he, hc⟩ := hextension
      obtain ⟨e', he', hc'⟩ := hextension'
      rw [renderInlines_of_no_references (hb.extension t ht)] at he
      rw [hc, hc', Except.ok.inj (he.symm.trans he')]
  · rw [hstatements, hstatements']
    exact hb.statements ss ss' hss hss'
  · rw [hstatements, lineEnds_of_statements hss]
  · rw [hstatements', lineEnds_of_statements hss']

theorem Balanced.renderBlock {b : Block} (hb : f.Balanced f' r b) {text text' : List Char}
    (h : f.renderSegment r (.block b) = .ok text) (h' : f'.renderSegment r (.block b) = .ok text') :
    Text.lineEnds text + f'.lineEnds b.name.value = Text.lineEnds text' + f.lineEnds b.name.value := by
  obtain ⟨c, hc, rfl⟩ := Outcome.map_eq_ok_iff.1 h
  obtain ⟨c', hc', rfl⟩ := Outcome.map_eq_ok_iff.1 h'
  obtain ⟨hbase, hextension, hstatements, hends, hends'⟩ := hb.content hc hc'
  cases hstandalone : b.standalone with
  | true =>
    have hbalance := lineByLine_balance hstatements b.indent
    simp only [↓reduceIte, BlockContent.renderLines, lineEnds_append, hbase, hextension, hends,
      hends']
    omega
  | false =>
    have hsame : c.statements = c'.statements := by
      obtain ⟨ss, hss, _, _, heq⟩ := blockContent_eq_ok_iff.1 hc
      obtain ⟨ss', hss', _, _, heq'⟩ := blockContent_eq_ok_iff.1 hc'
      rw [hb.within hstandalone, hss'] at hss
      rw [heq, heq', Except.ok.inj hss]
    have hcontent : c = c' := by
      cases c
      cases c'
      cases hbase
      cases hextension
      cases hsame
      rfl
    subst hcontent
    rw [hends, hends']

/-- Two renderings of segments differ by the line ends in the fills of their slots. -/
theorem renderSegments_balance {segs : List Segment} (hsegs : ∀ b ∈ Segment.blocks segs, f.Balanced f' r b)
    {text text' : List Char} (h : f.renderSegments r segs = .ok text)
    (h' : f'.renderSegments r segs = .ok text') :
    Text.lineEnds text + f'.lineEndsOf (slotsOf (segs.flatMap Segment.references)) =
      Text.lineEnds text' + f.lineEndsOf (slotsOf (segs.flatMap Segment.references)) := by
  induction segs generalizing text text' with
  | nil =>
    obtain rfl := Except.ok.inj h
    obtain rfl := Except.ok.inj h'
    rfl
  | cons s segs ih =>
    obtain ⟨a, rest, ha, hrest, rfl⟩ := renderSegments_cons.1 h
    obtain ⟨a', rest', ha', hrest', rfl⟩ := renderSegments_cons.1 h'
    rw [← List.singleton_append, Segment.blocks_append, List.forall_mem_append] at hsegs
    have htail := ih hsegs.2 hrest hrest'
    have hhead : Text.lineEnds a + f'.lineEndsOf (slotsOf s.references) =
        Text.lineEnds a' + f.lineEndsOf (slotsOf s.references) := by
      cases s with
      | inline i => exact renderInline_balance ha ha'
      | block b =>
        have hb := hsegs.1 b (by simp [Segment.blocks_block])
        have hslots : slotsOf (Segment.block b).references = [b.name.value] := by
          simp [slotsOf, Segment.references, hb.body]
        simpa [hslots, lineEndsOf] using hb.renderBlock ha ha'
    simp only [List.flatMap_cons, slotsOf, List.map_append, lineEndsOf_append, lineEnds_append]
      at htail hhead ⊢
    omega

/-- Only the slots that are filled with other numbers of line ends count. -/
theorem lineEndsOf_filter {differs : String → Bool}
    (h : ∀ slot, differs slot = false → f.lineEnds slot = f'.lineEnds slot) (slots : List String) :
    f.lineEndsOf slots + f'.lineEndsOf (slots.filter differs) =
      f'.lineEndsOf slots + f.lineEndsOf (slots.filter differs) := by
  induction slots with
  | nil => rfl
  | cons slot slots ih =>
    simp only [lineEndsOf, List.map_cons, List.sum_cons] at ih ⊢
    cases hdiffers : differs slot with
    | true =>
      simp only [List.filter_cons_of_pos hdiffers, List.map_cons, List.sum_cons]
      omega
    | false =>
      have hsame := h slot hdiffers
      simp only [List.filter_cons, hdiffers, Bool.false_eq_true, ↓reduceIte]
      omega

end Fills
end Covenant.Artifact
