import Covenant.Proofs.Artifact.Placement
import Covenant.Proofs.Artifact.Verified
import Covenant.Proofs.Template.Unmarked

/-! Where a marker in a rendered text comes from. The texts of a template have none, and what
is put between the texts on the way, an indentation, a blank or a newline, makes none. So a
marker stands in a fill, or it arises at a seam: two texts are put next to each other, the
first one ends with a brace and the second one starts with a brace. -/
namespace Covenant.Artifact

open Template

/-! ### Texts in a row -/

/-- There is a place in the row where the text so far ends with a brace and the text that
follows starts with one. -/
def BracesMeet (texts : List (List Char)) : Prop :=
  ∃ before after, texts = before ++ after ∧ before.flatten.getLast? = some '{' ∧
    after.flatten.head? = some '{'

theorem bracesMeet_cons {text : List Char} {texts : List (List Char)} :
    BracesMeet (text :: texts) ↔
      (text.getLast? = some '{' ∧ texts.flatten.head? = some '{') ∨ BracesMeet texts := by
  constructor
  · rintro ⟨before, after, heq, hlast, hhead⟩
    cases before with
    | nil => cases hlast
    | cons first before =>
      rw [List.cons_append] at heq
      obtain ⟨rfl, rfl⟩ := List.cons_eq_cons.1 heq
      rw [List.flatten_cons] at hlast
      by_cases hempty : before.flatten = []
      · rw [hempty, List.append_nil] at hlast
        rw [List.flatten_append, hempty]
        exact .inl ⟨hlast, hhead⟩
      · rw [List.getLast?_append_of_ne_nil _ hempty] at hlast
        exact .inr ⟨before, after, rfl, hlast, hhead⟩
  · rintro (⟨hlast, hhead⟩ | ⟨before, after, rfl, hlast, hhead⟩)
    · exact ⟨[text], texts, rfl, by simpa using hlast, hhead⟩
    · refine ⟨text :: before, after, rfl, ?_, hhead⟩
      rw [List.flatten_cons, List.getLast?_append, hlast]
      rfl

theorem not_bracesMeet_nil : ¬BracesMeet [] := by
  rintro ⟨before, after, heq, hlast, _⟩
  obtain ⟨rfl, _⟩ := List.append_eq_nil_iff.1 heq.symm
  cases hlast

/-- A marker in a row of texts is in one of them, or braces meet between two. -/
theorem marked_flatten_iff {texts : List (List Char)} :
    Marked texts.flatten ↔ (∃ text ∈ texts, Marked text) ∨ BracesMeet texts := by
  induction texts with
  | nil => simp [Marked, not_bracesMeet_nil]
  | cons text texts ih =>
    rw [List.flatten_cons, marked_append_iff, ih, bracesMeet_cons, List.exists_mem_cons_iff,
      or_assoc, or_assoc, or_comm (a := BracesMeet texts)]

/-! ### Blocks -/

theorem marked_regionOf_iff {b : Block} {c : BlockContent} (hb : b.Clear)
    (hbase : b.standalone = true → c.base.getLast? ≠ some '{') :
    Marked (regionOf b c) ↔ c.Marked := by
  unfold regionOf
  split
  · next hstandalone =>
    have hindent := not_mem_of_blank (isBlank_of_isSpacing (hb.indent hstandalone))
    exact (marked_renderLines_iff hindent (hbase hstandalone)).1
  · exact marked_renderWithin_iff

/-! ### Rows -/

section Rows

variable {α : Type} (part : α → Except Error (List Char))
  (whole : List α → Except Error (List Char))

/-- The texts that the parts come to, in a row. -/
def Row (xs : List α) (texts : List (List Char)) : Prop :=
  List.Forall₂ (fun x t => part x = .ok t) xs texts

/-- The whole is rendered part by part. -/
structure RowWise : Prop where
  nil : whole [] = .ok []
  cons : ∀ x xs text, whole (x :: xs) = .ok text ↔
    ∃ a b, part x = .ok a ∧ whole xs = .ok b ∧ text = a ++ b

/-- Braces meet between the texts of parts in a row. -/
def RowSeam (xs : List α) : Prop := ∃ texts, Row part xs texts ∧ BracesMeet texts

variable {part}

theorem exists_marked_iff {P : α → Prop} {xs : List α} {texts : List (List Char)}
    (htexts : Row part xs texts) (h : ∀ x ∈ xs, ∀ t, part x = .ok t → (Marked t ↔ P x)) :
    (∃ t ∈ texts, Marked t) ↔ ∃ x ∈ xs, P x := by
  induction htexts with
  | nil => simp
  | cons hx _ ih =>
    rw [List.forall_mem_cons] at h
    rw [List.exists_mem_cons_iff, List.exists_mem_cons_iff, h.1 _ hx, ih h.2]

variable {whole}

theorem RowWise.eq_ok_iff (h : RowWise part whole) {xs : List α} {text : List Char} :
    whole xs = .ok text ↔ ∃ texts, Row part xs texts ∧ text = texts.flatten := by
  induction xs generalizing text with
  | nil => simp [Row, h.nil, eq_comm]
  | cons x xs ih =>
    rw [h.cons]
    constructor
    · rintro ⟨a, b, ha, hb, rfl⟩
      obtain ⟨texts, htexts, rfl⟩ := ih.1 hb
      exact ⟨a :: texts, .cons ha htexts, rfl⟩
    · rintro ⟨texts, htexts, rfl⟩
      cases htexts with
      | cons ha htexts => exact ⟨_, _, ha, ih.2 ⟨_, htexts, rfl⟩, rfl⟩

/-- What is rendered part by part has a marker when a part has one, or when braces meet. -/
theorem RowWise.marked_iff (h : RowWise part whole) {P : α → Prop} {xs : List α}
    (hparts : ∀ x ∈ xs, ∀ t, part x = .ok t → (Marked t ↔ P x)) {text : List Char}
    (htext : whole xs = .ok text) : Marked text ↔ (∃ x ∈ xs, P x) ∨ RowSeam part xs := by
  obtain ⟨texts, htexts, rfl⟩ := h.eq_ok_iff.1 htext
  rw [marked_flatten_iff, exists_marked_iff htexts hparts]
  constructor
  · exact Or.imp_right fun hmeet => ⟨texts, htexts, hmeet⟩
  · rintro (hmarked | ⟨texts', htexts', hmeet⟩)
    · exact .inl hmarked
    · have heq := h.eq_ok_iff.2 ⟨texts', htexts', rfl⟩
      rw [← exists_marked_iff htexts hparts, ← marked_flatten_iff,
        Except.ok.inj (htext.symm.trans heq)]
      exact marked_flatten_iff.2 (.inr hmeet)

end Rows

namespace Fills

variable {f : Fills} {r : Resolved}

theorem rowWise_renderInlines : RowWise f.renderInline f.renderInlines :=
  ⟨rfl, fun _ _ _ => renderInlines_cons⟩

theorem rowWise_renderSegments : RowWise (f.renderSegment r) (f.renderSegments r) :=
  ⟨rfl, fun _ _ _ => renderSegments_cons⟩

/-- The fill of the slot has a marker in it. -/
def Stains (f : Fills) (slot : String) : Prop := ∃ fill, f.get? slot = some fill ∧ ¬fill.Unmarked

/-- Braces meet in the content that a block has of its own, or in what the override adds to it. -/
def BlockSeam (f : Fills) (r : Resolved) (b : Block) : Prop :=
  RowSeam f.renderInline b.body ∨
    ∃ t, r.extension? b.name.value = some t ∧ RowSeam f.renderInline t.inlines

/-- Braces meet between the segments of a body, or in one of its blocks. -/
def Seam (f : Fills) (r : Resolved) (body : Markup) : Prop :=
  RowSeam (f.renderSegment r) body.segments ∨ ∃ b ∈ body.blocks, f.BlockSeam r b

/-! ### Where markers stand -/

theorem marked_inline_iff {i : Inline} {text : List Char} (hi : i.Unmarked)
    (htext : f.renderInline i = .ok text) :
    Marked text ↔ ∃ ref ∈ i.references, f.Stains ref.name.value := by
  cases i with
  | text cs =>
    obtain rfl := Except.ok.inj htext
    rw [← hasMarker_eq_true_iff, show hasMarker cs = false from hi]
    simp [Inline.references]
  | slot name =>
    obtain ⟨t, ht, rfl⟩ := Outcome.map_eq_ok_iff.1 htext
    simp [Inline.references, Stains, text_eq_ok_iff.1 ht, Fill.Unmarked, hasMarker_eq_true_iff]

theorem marked_inlines_iff {is : List Inline} {text : List Char} (his : ∀ i ∈ is, i.Unmarked)
    (htext : f.renderInlines is = .ok text) :
    Marked text ↔ (∃ ref ∈ is.flatMap Inline.references, f.Stains ref.name.value) ∨
      RowSeam f.renderInline is := by
  rw [rowWise_renderInlines.marked_iff (fun i hi t ht => marked_inline_iff (his i hi) ht) htext]
  refine or_congr ⟨?_, ?_⟩ Iff.rfl
  · rintro ⟨i, hi, ref, href, h⟩
    exact ⟨ref, List.mem_flatMap.2 ⟨i, hi, href⟩, h⟩
  · rintro ⟨ref, href, h⟩
    obtain ⟨i, hi, href⟩ := List.mem_flatMap.1 href
    exact ⟨i, hi, ref, href, h⟩

/-- A fill that the content of a block reads has a marker in it. -/
def BlockStained (f : Fills) (r : Resolved) (b : Block) : Prop :=
  (∃ ref ∈ (Segment.block b).references, f.Stains ref.name.value) ∨
    ∃ t, r.extension? b.name.value = some t ∧
      ∃ ref ∈ t.inlines.flatMap Inline.references, f.Stains ref.name.value

theorem marked_statements_iff {slot : String} {ss : List String} (h : f.statements slot = .ok ss) :
    (∃ s ∈ ss.map String.toList, Marked s) ↔ f.Stains slot := by
  simp [Stains, statements_eq_ok_iff.1 h, Fill.Unmarked, ← hasMarker_eq_true_iff]

theorem marked_blockContent_iff {b : Block} {c : BlockContent} (hb : b.Clear) (hr : r.Clear)
    (hc : f.blockContent r b = .ok c) :
    c.Marked ↔ f.BlockStained r b ∨ f.BlockSeam r b := by
  obtain ⟨ss, hss, hbase, hextension, hstatements⟩ := blockContent_eq_ok_iff.1 hc
  have hadded : (∃ e ∈ c.extension, Artifact.Marked e) ↔ ∃ t, r.extension? b.name.value = some t ∧
      ((∃ ref ∈ t.inlines.flatMap Inline.references, f.Stains ref.name.value) ∨
        RowSeam f.renderInline t.inlines) := by
    cases ht : r.extension? b.name.value with
    | none =>
      rw [ht] at hextension
      simp [hextension]
    | some t =>
      rw [ht] at hextension
      obtain ⟨e, he, heq⟩ := hextension
      simp only [heq, Option.mem_def, Option.some.injEq, exists_eq_left']
      exact marked_inlines_iff (hr.extensions _ t ht) he
  rw [BlockContent.Marked, marked_inlines_iff hb.body hbase, hadded, hstatements,
    marked_statements_iff hss, BlockStained, BlockSeam, Segment.references,
    List.exists_mem_cons_iff]
  simp only [and_or_left, exists_or]
  exact iff_of_eq (by ac_rfl)

theorem getLast_renderInlines {init : List Inline} {cs text : List Char}
    (htext : f.renderInlines (init ++ [.text (cs ++ ['\n'])]) = .ok text) :
    text.getLast? = some '\n' := by
  induction init generalizing text with
  | nil =>
    obtain ⟨a, b, ha, hb, rfl⟩ := renderInlines_cons.1 htext
    obtain rfl := Except.ok.inj ha
    obtain rfl := Except.ok.inj hb
    simp
  | cons i init ih =>
    obtain ⟨a, b, _, hb, rfl⟩ := renderInlines_cons.1 htext
    rw [List.getLast?_append, ih hb]
    rfl

/-- The content that a standalone block has of its own is empty or ends with a line. -/
theorem base_ends {b : Block} {c : BlockContent} (hb : b.Clear) (hstandalone : b.standalone = true)
    (hc : f.blockContent r b = .ok c) : c.base = [] ∨ c.base.getLast? = some '\n' := by
  obtain ⟨_, _, hbase, _⟩ := blockContent_eq_ok_iff.1 hc
  have hends := hb.ends hstandalone
  rcases List.eq_nil_or_concat b.body with hnil | ⟨init, i, heq⟩
  · rw [hnil] at hbase
    exact .inl (Except.ok.inj hbase).symm
  · rw [List.concat_eq_append] at heq
    obtain ⟨cs, rfl⟩ := hends i (by simp [heq])
    rw [heq] at hbase
    exact .inr (getLast_renderInlines hbase)

theorem getLast_base {b : Block} {c : BlockContent} (hb : b.Clear)
    (hstandalone : b.standalone = true) (hc : f.blockContent r b = .ok c) :
    c.base.getLast? ≠ some '{' := by
  rcases base_ends hb hstandalone hc with hnil | hlast
  · simp [hnil]
  · simp [hlast]

/-- A segment comes to a text with a marker. -/
def SegmentMarked (f : Fills) (r : Resolved) : Segment → Prop
  | .inline i => ∃ ref ∈ i.references, f.Stains ref.name.value
  | .block b => f.BlockStained r b ∨ f.BlockSeam r b

theorem marked_segment_iff {s : Segment} {text : List Char} (hs : s.Clear) (hr : r.Clear)
    (htext : f.renderSegment r s = .ok text) : Marked text ↔ f.SegmentMarked r s := by
  cases s with
  | inline i => exact marked_inline_iff hs htext
  | block b =>
    obtain ⟨c, hc, rfl⟩ := Outcome.map_eq_ok_iff.1 htext
    exact (marked_regionOf_iff hs fun h => getLast_base hs h hc).trans
      (marked_blockContent_iff hs hr hc)

theorem exists_segmentMarked_iff {body : Markup} (hinline : r.InlineExtensions) :
    (∃ s ∈ body.segments, f.SegmentMarked r s) ↔
      (∃ ref, r.Reaches body ref ∧ f.Stains ref.name.value) ∨
        ∃ b ∈ body.blocks, f.BlockSeam r b := by
  constructor
  · rintro ⟨s, hs, hmarked⟩
    cases s with
    | inline i =>
      obtain ⟨ref, href, hstains⟩ := hmarked
      exact .inl ⟨ref, .body (List.mem_flatMap.2 ⟨_, hs, href⟩), hstains⟩
    | block b =>
      have hb := Segment.mem_blocks.2 hs
      rcases hmarked with (⟨ref, href, hstains⟩ | ⟨t, ht, ref, href, hstains⟩) | hseam
      · exact .inl ⟨ref, .body (List.mem_flatMap.2 ⟨_, hs, href⟩), hstains⟩
      · exact .inl ⟨ref, .extension hb ht (Markup.mem_references_of_inlines href), hstains⟩
      · exact .inr ⟨b, hb, hseam⟩
  · rintro (⟨ref, hreaches, hstains⟩ | ⟨b, hb, hseam⟩)
    · cases hreaches with
      | body href =>
        obtain ⟨s, hs, href⟩ := List.mem_flatMap.1 href
        refine ⟨s, hs, ?_⟩
        cases s with
        | inline i => exact ⟨ref, href, hstains⟩
        | block b => exact .inl (.inl ⟨ref, href, hstains⟩)
      | @extension b t _ hb ht href =>
        have href := Markup.mem_inlines_of_references (hinline _ _ ht) href
        exact ⟨_, Segment.mem_blocks.1 hb, .inl (.inr ⟨t, ht, ref, href, hstains⟩)⟩
    · exact ⟨_, Segment.mem_blocks.1 hb, .inr hseam⟩

/-- A rendered body has a marker when a slot that it reaches has one in its fill, or when braces
meet at one of its seams, and only then. -/
theorem marked_render_iff {role : BodyRole} {text : List Char} (hr : r.Clear)
    (hinline : r.InlineExtensions) (htext : f.render r (r.body role) = .ok text) :
    Marked text ↔ (∃ ref, r.Reaches (r.body role) ref ∧ f.Stains ref.name.value) ∨
      f.Seam r (r.body role) := by
  have hsegments : ∀ s ∈ (r.body role).segments, ∀ t, f.renderSegment r s = .ok t →
      (Marked t ↔ f.SegmentMarked r s) :=
    fun s hs t ht => marked_segment_iff (hr.bodies role s hs) hr ht
  rw [rowWise_renderSegments.marked_iff hsegments htext, exists_segmentMarked_iff hinline, Seam,
    or_assoc, or_comm (a := RowSeam _ _)]

end Fills

end Covenant.Artifact
