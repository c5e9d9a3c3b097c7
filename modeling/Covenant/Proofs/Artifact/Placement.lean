import Covenant.Proofs.Artifact.Layout
import Covenant.Proofs.Artifact.OwnLines

/-! Where the statements of a body end up. Rendering keeps to the walk: as long as the
template alone determines the last line of the text, the rendered text has that last
line. In a body that is laid out, a standalone block gives every line of every statement
a line of its own, and a block within a line does so exactly when there is nothing to
share the line with. -/
namespace Covenant.Artifact

open Template
open Text (lines isBlank)

variable {f : Fills} {r : Resolved}

/-! ### The walk and the text -/

theorem isLaidOut_cons {line : Option (List Char)} {s : Segment} {segs : List Segment}
    (h : isLaidOut line (s :: segs) = true) : isLaidOut (lineAfter line s) segs = true := by
  cases s with
  | inline i => exact h
  | block b =>
    rw [isLaidOut, Bool.and_eq_true] at h
    exact h.2

theorem isLaidOut_append {line : Option (List Char)} {segs segs' : List Segment}
    (h : isLaidOut line (segs ++ segs') = true) :
    isLaidOut (segs.foldl lineAfter line) segs' = true := by
  induction segs generalizing line with
  | nil => exact h
  | cons s segs ih => exact ih (isLaidOut_cons h)

/-- No block of a body that is laid out has slots in it. -/
theorem references_of_isLaidOut {line : Option (List Char)} {segs : List Segment}
    (h : isLaidOut line segs = true) :
    ∀ b ∈ Segment.blocks segs, b.body.flatMap Inline.references = [] := by
  intro b hb
  obtain ⟨before, after, rfl⟩ := List.append_of_mem (Segment.mem_blocks.1 hb)
  have hblock := isLaidOut_append h
  rw [isLaidOut, hasLines, Bool.and_eq_true] at hblock
  have hbody : b.body.all isBlankText = true := by
    split at hblock
    · simp only [Bool.and_eq_true, List.isEmpty_iff] at hblock
      rw [hblock.1.1.2]
      rfl
    · simp only [Bool.and_eq_true] at hblock
      exact hblock.1.1.1.2
  rw [List.flatMap_eq_nil_iff]
  intro i hi
  have hblank := List.all_eq_true.1 hbody i hi
  cases i with
  | text cs => rfl
  | slot name => cases hblank

theorem lastLine_append_newline (cs : List Char) : lastLine (cs ++ ['\n']) = [] :=
  lastLine_newline List.not_mem_nil

/-- A standalone block without content of its own ends its last line. -/
theorem lastLine_renderLines {pre indent : List Char} {c : BlockContent} (hpre : lastLine pre = [])
    (hbase : c.base = []) : lastLine (pre ++ c.renderLines indent) = [] := by
  rw [renderLines_eq hbase]
  by_cases hnone : ((c.extension.toList.map Text.dropFinalNewline ++ c.statements).flatMap lines).map
      (shown indent) = []
  · rw [hnone, List.flatMap_nil, List.append_nil, hpre]
  · rw [Text.flatMap_newline hnone, ← List.append_assoc, lastLine_append_newline]

/-- One segment keeps the last line to the walk. -/
theorem lastLine_segment {line : Option (List Char)} {s : Segment} {segs : List Segment}
    {pre text : List Char} (hlaid : isLaidOut line (s :: segs) = true)
    (htext : f.renderSegment r s = .ok text) (hline : ∀ l ∈ line, lastLine pre = l) :
    ∀ l ∈ lineAfter line s, lastLine (pre ++ text) = l := by
  intro l hl
  cases s with
  | inline i =>
    cases i with
    | slot name => cases hl
    | text cs =>
      obtain rfl := Except.ok.inj htext
      rw [lineAfter] at hl
      split at hl
      · next hnewline =>
        obtain rfl := Option.some.inj hl
        exact lastLine_of_newline (by simpa [hasNewline] using hnewline)
      · next hnewline =>
        obtain ⟨front, hfront, rfl⟩ := Option.map_eq_some_iff.1 hl
        rw [lastLine_of_not_newline (by simpa [hasNewline] using hnewline), hline front hfront]
  | block b =>
    rw [lineAfter] at hl
    split at hl
    · next hstandalone =>
      obtain rfl := Option.some.inj hl
      obtain ⟨c, hc, rfl⟩ := Outcome.map_eq_ok_iff.1 htext
      obtain ⟨_, _, hbase, _⟩ := Fills.blockContent_eq_ok_iff.1 hc
      rw [isLaidOut, hasLines, if_pos hstandalone, Bool.and_eq_true, Bool.and_eq_true,
        Bool.and_eq_true, beq_iff_eq, List.isEmpty_iff] at hlaid
      obtain ⟨⟨⟨hempty, hbody⟩, _⟩, _⟩ := hlaid
      rw [hbody] at hbase
      rw [if_pos hstandalone]
      exact lastLine_renderLines (hline [] hempty) (Except.ok.inj hbase).symm
    · cases hl

/-- Segments in a row keep the last line to the walk. -/
theorem lastLine_segments {line : Option (List Char)} {segs segs' : List Segment}
    {pre text : List Char} (hlaid : isLaidOut line (segs ++ segs') = true)
    (htext : f.renderSegments r segs = .ok text) (hline : ∀ l ∈ line, lastLine pre = l) :
    ∀ l ∈ segs.foldl lineAfter line, lastLine (pre ++ text) = l := by
  induction segs generalizing line pre text with
  | nil =>
    obtain rfl := Except.ok.inj htext
    simpa using hline
  | cons s segs ih =>
    obtain ⟨a, b, ha, hb, rfl⟩ := Fills.renderSegments_cons.1 htext
    rw [← List.append_assoc]
    exact ih (isLaidOut_cons hlaid) hb (lastLine_segment hlaid ha hline)

/-! ### Blocks -/

/-- The white space that the lines of a block stand behind: the indentation kept with a
standalone block, or what precedes the block on its line. -/
def indentOf (b : Block) (pre : List Char) : List Char :=
  if b.standalone then b.indent else lastLine pre

/-- What a block writes. -/
def regionOf (b : Block) (c : BlockContent) : List Char :=
  if b.standalone then c.renderLines b.indent else c.renderWithin

theorem renderInlines_blank {is : List Inline} {text : List Char}
    (hblank : is.all isBlankText = true) (htext : f.renderInlines is = .ok text) :
    text.all isBlank = true := by
  induction is generalizing text with
  | nil =>
    obtain rfl := Except.ok.inj htext
    rfl
  | cons i is ih =>
    rw [List.all_cons, Bool.and_eq_true] at hblank
    obtain ⟨a, b, ha, hb, rfl⟩ := Fills.renderInlines_cons.1 htext
    rw [List.all_append, ih hblank.2 hb, Bool.and_true]
    cases i with
    | slot name => cases hblank.1
    | text cs =>
      obtain rfl := Except.ok.inj ha
      exact hblank.1

theorem head_of_startsNewline {segs : List Segment} {text : List Char}
    (h : startsNewline segs = true) (htext : f.renderSegments r segs = .ok text) :
    text.head? = some '\n' := by
  unfold startsNewline at h
  split at h
  · obtain ⟨a, b, ha, _, rfl⟩ := Fills.renderSegments_cons.1 htext
    obtain rfl := Except.ok.inj ha
    rfl
  · cases h

/-- What a block finds around it in a body that is laid out. -/
structure Placed (b : Block) (c : BlockContent) (pre post : List Char) : Prop where
  indent : isSpacing (indentOf b pre) = true
  whole : b.standalone = true → lastLine pre = [] ∧ c.base = []
  within : b.standalone = false →
    lastLine pre ≠ [] ∧ c.base.all isBlank = true ∧ post.head? = some '\n'

theorem placed_of_isLaidOut {before after : List Segment} {b : Block} {c : BlockContent}
    {pre post : List Char} (hlaid : isLaidOut (some []) (before ++ .block b :: after) = true)
    (hpre : f.renderSegments r before = .ok pre) (hc : f.blockContent r b = .ok c)
    (hpost : f.renderSegments r after = .ok post) : Placed b c pre post := by
  have hline := @lastLine_segments f r _ _ _ [] _ hlaid hpre (by simp [lastLine])
  rw [List.nil_append] at hline
  obtain ⟨_, _, hbase, _⟩ := Fills.blockContent_eq_ok_iff.1 hc
  have hblock := isLaidOut_append hlaid
  rw [isLaidOut, Bool.and_eq_true] at hblock
  have hlines := hblock.1
  rw [hasLines] at hlines
  cases hstandalone : b.standalone with
  | true =>
    rw [if_pos hstandalone, Bool.and_eq_true, Bool.and_eq_true, beq_iff_eq,
      List.isEmpty_iff] at hlines
    obtain ⟨⟨hempty, hbody⟩, hspacing⟩ := hlines
    rw [hbody] at hbase
    refine ⟨by rwa [indentOf, if_pos hstandalone], fun _ => ⟨hline [] hempty, ?_⟩,
      by simp [hstandalone]⟩
    exact (Except.ok.inj hbase).symm
  | false =>
    rw [hstandalone, if_neg Bool.false_ne_true, Bool.and_eq_true, Bool.and_eq_true, Bool.and_eq_true,
      Option.any_eq_true] at hlines
    obtain ⟨⟨⟨⟨l, hl, hspacing⟩, hblank⟩, _⟩, hnewline⟩ := hlines
    rw [Bool.and_eq_true, Bool.not_eq_true', List.isEmpty_eq_false_iff] at hspacing
    have hlast := hline l hl
    refine ⟨?_, by simp [hstandalone], fun _ => ⟨?_, renderInlines_blank hblank hbase,
      head_of_startsNewline hnewline hpost⟩⟩
    · rw [indentOf, hstandalone, if_neg Bool.false_ne_true, hlast]
      exact hspacing.2
    · rw [hlast]
      exact hspacing.1

/-- In a body that is laid out the statements of a block have lines of their own exactly
when the block is standalone, or there are none, or a single one. -/
theorem Placed.onOwnLines_iff {b : Block} {c : BlockContent} {pre post : List Char}
    (h : Placed b c pre post) :
    OnOwnLines (indentOf b pre) pre (regionOf b c) post (c.statements.flatMap lines) ↔
      b.standalone = true ∨ c.statements = [] ∨ Single c := by
  have hindent := h.indent
  cases hstandalone : b.standalone with
  | true =>
    obtain ⟨hpre, hbase⟩ := h.whole hstandalone
    rw [indentOf, if_pos hstandalone] at hindent
    rw [indentOf, regionOf, if_pos hstandalone, if_pos hstandalone]
    exact iff_of_true (renderLines_onOwnLines hindent hpre hbase) (.inl rfl)
  | false =>
    obtain ⟨hne, hbase, hpost⟩ := h.within hstandalone
    rw [indentOf, hstandalone, if_neg Bool.false_ne_true] at hindent
    rw [indentOf, regionOf, hstandalone, if_neg Bool.false_ne_true, if_neg Bool.false_ne_true,
      renderWithin_onOwnLines_iff hindent hne hbase hpost]
    simp

/-- What a block within a line writes ends the line that it is in. -/
theorem mem_lines_of_region {pre region post : List Char} (hregion : '\n' ∉ region)
    (hpost : post.head? = some '\n') :
    lastLine pre ++ region ∈ lines (pre ++ region ++ post) := by
  obtain ⟨rest, rfl⟩ : ∃ rest, post = '\n' :: rest := by
    cases post with
    | nil => cases hpost
    | cons c rest =>
      obtain rfl := Option.some.inj hpost
      exact ⟨rest, rfl⟩
  rw [lines, Text.pieces_append_separator, ← lines, ← lastLine_of_not_newline hregion]
  exact List.mem_append_left _ (List.mem_of_getLast? (lines_getLast _))

end Covenant.Artifact
