import Mathlib.Data.List.Forall2
import Covenant.Proofs.Template.Printing
import Covenant.Proofs.Template.Standalone

/-! What is left of the text of a source. Reading a source takes its markers out, and for the blocks
that are standalone also the lines that their markers are alone on. All else is kept, once and in
its order: with a marker go at most the spaces and tabs around it on its line, and the end of that
line. -/
namespace Covenant.Template

/-! ### Texts -/

def Inline.chars : Inline → List Char
  | .text cs => cs
  | .slot _ => []

def Block.chars (b : Block) : List Char := b.body.flatMap Inline.chars

def Segment.chars : Segment → List Char
  | .inline i => i.chars
  | .block b => b.chars

/-- The text of all segments in order, that of the blocks included. -/
def Markup.chars (t : Markup) : List Char := t.segments.flatMap Segment.chars

/-! ### What is taken out -/

/-- Spaces and tabs, and the end of a line after them or not. -/
def IsLineEnd (cs : List Char) : Prop :=
  ∃ ws, isSpacing ws = true ∧ (cs = ws ∨ cs = ws ++ ['\n'])

/-- A source without its markers. With a marker spaces and tabs may go that are around it, and the
end of its line if nothing else comes before that. -/
inductive Stripped : List Char → List Char → Prop
  | nil : Stripped [] []
  | keep {c : Char} {cs ds : List Char} (unmarked : ∀ tail, c :: cs ≠ '{' :: '{' :: tail)
      (rest : Stripped cs ds) : Stripped (c :: cs) (c :: ds)
  | marker {m : Marker} {before raw after cs ds : List Char} (spacing : isSpacing before = true)
      (written : m.Written raw) (lineEnd : IsLineEnd after) (rest : Stripped cs ds) :
      Stripped (before ++ (raw ++ (after ++ cs))) ds

/-- A text without some of its spaces, tabs and newlines. -/
inductive Thinned : List Char → List Char → Prop
  | nil : Thinned [] []
  | keep (c : Char) {cs ds : List Char} (rest : Thinned cs ds) : Thinned (c :: cs) (c :: ds)
  | drop {c : Char} {cs ds : List Char} (space : c = ' ' ∨ c = '\t' ∨ c = '\n')
      (rest : Thinned cs ds) : Thinned (c :: cs) ds

/-- A source without its markers, and all of the text between them. -/
def withoutMarkers (source : List Char) : List Char := mapMarkers (fun _ => []) source

section

variable {cs ds ws out : List Char}

theorem IsLineEnd.nil : IsLineEnd [] := ⟨[], rfl, .inl rfl⟩

theorem IsLineEnd.spacing (h : isSpacing ws = true) : IsLineEnd ws := ⟨ws, h, .inl rfl⟩

theorem IsLineEnd.newline (h : isSpacing ws = true) : IsLineEnd (ws ++ ['\n']) :=
  ⟨ws, h, .inr rfl⟩

theorem space_of_isSpacing (h : isSpacing ws = true) :
    ∀ c ∈ ws, c = ' ' ∨ c = '\t' ∨ c = '\n' := by
  intro c hc
  have hspace := List.all_eq_true.1 h c hc
  rw [Text.isSpaceOrTab, Bool.or_eq_true, beq_iff_eq, beq_iff_eq] at hspace
  exact hspace.imp id .inl

theorem IsLineEnd.space (h : IsLineEnd ws) : ∀ c ∈ ws, c = ' ' ∨ c = '\t' ∨ c = '\n' := by
  obtain ⟨ws, hws, rfl | rfl⟩ := h
  · exact space_of_isSpacing hws
  · rw [List.forall_mem_append]
    exact ⟨space_of_isSpacing hws, by simp⟩

theorem Thinned.drop_append (hws : ∀ c ∈ ws, c = ' ' ∨ c = '\t' ∨ c = '\n')
    (h : Thinned cs out) : Thinned (ws ++ cs) out := by
  induction ws with
  | nil => exact h
  | cons w ws ih =>
    rw [List.forall_mem_cons] at hws
    exact .drop hws.1 (ih hws.2)

theorem opaque_of_space (hws : ∀ c ∈ ws, c = ' ' ∨ c = '\t' ∨ c = '\n') : Opaque ws ds := by
  refine opaque_of_braceless fun hmem => ?_
  have hbrace := hws _ hmem
  revert hbrace
  decide

/-- Taking out markers with white space around them thins what is between the markers. -/
theorem Stripped.thinned (h : Stripped cs out) : Thinned (withoutMarkers cs) out := by
  induction h with
  | nil =>
    rw [withoutMarkers, mapMarkers]
    exact .nil
  | @keep c cs ds unmarked _ ih =>
    have hopaque : Opaque [c] cs := by
      intro as bs heq
      cases as with
      | nil => exact absurd heq (unmarked bs)
      | cons => simp
    have hkeep := mapMarkers_opaque (f := fun _ => []) hopaque
    rw [List.singleton_append] at hkeep
    rw [withoutMarkers, hkeep]
    exact .keep c ih
  | @marker m before raw after cs ds spacing written lineEnd _ ih =>
    have hbefore := space_of_isSpacing spacing
    have hmarker : mapMarkers (fun _ => []) (raw ++ (after ++ cs)) =
        mapMarkers (fun _ => []) (after ++ cs) :=
      mapMarkers_written (g := fun _ => []) written fun _ _ => rfl
    rw [withoutMarkers, mapMarkers_opaque (opaque_of_space hbefore), hmarker,
      mapMarkers_opaque (opaque_of_space lineEnd.space)]
    exact .drop_append hbefore (.drop_append lineEnd.space ih)

/-! ### Contents of blocks -/

theorem Opaque.of_append_right {es : List Char} (h : Opaque (cs ++ ds) es) :
    Opaque cs (ds ++ es) := by
  intro as bs heq
  have hlength := h as bs (by rw [List.append_assoc, heq])
  rw [List.length_append] at hlength
  omega

/-- A text is kept where no marker starts in it. -/
theorem Stripped.text (hcs : Opaque cs ds) (h : Stripped ds out) :
    Stripped (cs ++ ds) (cs ++ out) := by
  induction cs with
  | nil => exact h
  | cons c cs ih =>
    refine .keep (fun tail heq => ?_) (ih (Opaque.of_append [c] hcs))
    have hlength := hcs [] tail heq
    cases hlength

/-- A marker by itself is taken out. -/
theorem Stripped.lone {m : Marker} {raw : List Char} (written : m.Written raw)
    (h : Stripped ds out) : Stripped (raw ++ ds) out := by
  show Stripped ([] ++ (raw ++ ([] ++ ds))) out
  exact .marker rfl written .nil h

theorem Inline.Written.stripped {after : List Char} {pos : Nat} {is : List Inline}
    (hwritten : Inline.Written after pos is cs) (h : Stripped after out) :
    Stripped (cs ++ after) (is.flatMap Inline.chars ++ out) := by
  induction hwritten with
  | nil => exact h
  | text _ unmarked _ ih =>
    rw [List.append_assoc, List.flatMap_cons, List.append_assoc]
    exact .text unmarked ih
  | slot marker _ ih =>
    rw [List.append_assoc]
    exact .lone marker ih

/-- A content without its last line is written up to there. -/
theorem Inline.Written.cutLastLine {after : List Char} {pos : Nat} {is js : List Inline}
    (h : Inline.Written after pos is cs) (hcut : Template.cutLastLine is = some js) :
    ∃ front ws, cs = front ++ ws ∧ isSpacing ws = true ∧
      Inline.Written (ws ++ after) pos js front := by
  induction h generalizing js with
  | nil => cases hcut
  | @text pos cs ds is nonempty unmarked rest ih =>
    cases is with
    | nil =>
      cases rest
      rw [Template.cutLastLine] at hcut
      split at hcut
      · next hline =>
        obtain rfl := Option.some.inj hcut
        rw [Bool.and_eq_true, hasNewline_iff] at hline
        obtain ⟨as, bs, rfl, hbs⟩ := exists_last_newline hline.1
        rw [lastLine_newline hbs] at hline
        rw [List.append_nil, beforeLastLine_newline hbs]
        refine ⟨as ++ ['\n'], bs, by simp, hline.2, ?_⟩
        have hopaque : Opaque (as ++ ['\n']) (bs ++ after) := by
          refine Opaque.of_append_right ?_
          rwa [List.append_assoc]
        exact Inline.written_text_iff.2 ⟨rfl, by simp, hopaque⟩
      · cases hcut
    | cons j is =>
      obtain ⟨ks, hks, rfl⟩ := Option.map_eq_some_iff.1 hcut
      obtain ⟨front, ws, rfl, hws, hfront⟩ := ih hks
      rw [List.append_assoc] at unmarked
      exact ⟨cs ++ front, ws, (List.append_assoc _ _ _).symm, hws, .text nonempty unmarked hfront⟩
  | @slot pos name raw ds is marker rest ih =>
    cases is with
    | nil => cases hcut
    | cons j is =>
      obtain ⟨ks, hks, rfl⟩ := Option.map_eq_some_iff.1 hcut
      obtain ⟨front, ws, rfl, hws, hfront⟩ := ih hks
      exact ⟨raw ++ front, ws, (List.append_assoc _ _ _).symm, hws, .slot marker hfront⟩

theorem Inline.chars_of_isEmpty {i : Inline} (h : (!i.isEmpty) = false) : i.chars = [] := by
  match i, h with
  | .text [], _ => rfl

/-- Between its marker lines a content is kept: the end of the first line goes, and what is on the
last line before its marker. -/
theorem Inline.Written.innerLines {after : List Char} {pos : Nat} {is js : List Inline}
    (h : Inline.Written after pos is cs) (hlines : Template.innerLines is = some js) :
    ∃ first rest ws, cs = first ++ rest ++ ws ∧ IsLineEnd first ∧ isSpacing ws = true ∧
      ∀ out, Stripped (ws ++ after) out →
        Stripped (rest ++ (ws ++ after)) (js.flatMap Inline.chars ++ out) := by
  simp only [Template.innerLines, Option.bind_eq_bind, Option.bind_eq_some_iff] at hlines
  obtain ⟨mid, hmid, cut, hcut, heq⟩ := hlines
  obtain rfl := Option.some.inj heq
  obtain ⟨front, ws, rfl, hws, hfront⟩ := h.cutLastLine hmid
  rw [flatMap_filter_of_nil (fun _ => Inline.chars_of_isEmpty)]
  cases hfront with
  | nil => cases hcut
  | slot => cases hcut
  | @text _ cs ds is _ unmarked rest =>
    obtain ⟨line, hline, rfl⟩ := Option.map_eq_some_iff.1 hcut
    obtain ⟨blank, hblank, rfl⟩ := dropBlankLine_eq_some_iff.1 hline
    refine ⟨blank ++ ['\n'], line ++ ds, ws, by simp, .newline hblank, hws, fun out hout => ?_⟩
    have hopaque : Opaque line (ds ++ (ws ++ after)) := by
      refine Opaque.of_append (blank ++ ['\n']) ?_
      simpa using unmarked
    rw [List.append_assoc, List.flatMap_cons, List.append_assoc]
    exact .text hopaque (rest.stripped hout)

/-! ### Settling -/

/-- Segments in reverse with spacing `ws` cut off the text that they start with, if any is cut. -/
inductive Shortened : List Char → List Segment → List Segment → Prop
  | whole (before : List Segment) : Shortened [] before before
  | text {ws cs : List Char} (before : List Segment) (spacing : isSpacing ws = true) :
      Shortened ws (.inline (.text (cs ++ ws)) :: before) (.inline (.text cs) :: before)

theorem Shortened.spacing {ws : List Char} {before before' : List Segment}
    (h : Shortened ws before before') : isSpacing ws = true := by
  cases h with
  | whole => rfl
  | text _ spacing => exact spacing

theorem Shortened.exists_text {ws cs : List Char} {before before' : List Segment}
    (h : Shortened ws (.inline (.text cs) :: before) before') :
    ∃ ds, cs = ds ++ ws ∧ before' = .inline (.text ds) :: before := by
  cases h with
  | whole => exact ⟨cs, (List.append_nil _).symm, rfl⟩
  | text _ _ => exact ⟨_, rfl, rfl⟩

theorem shortened_cutIndent {before : List Segment} {indent : List Char}
    (h : indentAfter before = some indent) : Shortened indent before (cutIndent indent before) := by
  unfold indentAfter at h
  split at h
  · obtain rfl := Option.some.inj h
    exact .whole []
  · next cs before =>
    have hcut : ∀ as, cs = as ++ indent → isSpacing indent = true →
        Shortened indent (.inline (.text cs) :: before)
          (cutIndent indent (.inline (.text cs) :: before)) := by
      rintro as rfl hspacing
      have htake : (as ++ indent).take ((as ++ indent).length - indent.length) = as := by
        simp
      rw [cutIndent, htake]
      exact .text before hspacing
    split at h
    · next hnewline =>
      split at h
      · next hspacing =>
        obtain rfl := Option.some.inj h
        obtain ⟨as, bs, rfl, hbs⟩ := exists_last_newline (hasNewline_iff.1 hnewline)
        rw [lastLine_newline hbs] at hspacing hcut ⊢
        exact hcut (as ++ ['\n']) (by simp) hspacing
      · cases h
    · split at h
      · next hspacing =>
        obtain rfl := Option.some.inj h
        rw [Bool.and_eq_true] at hspacing
        exact hcut [] rfl hspacing.2
      · cases h
  · cases h

/-- What the text after a standalone block loses. -/
theorem exists_cutMarkerLine {cs : List Char} {after : List Segment}
    (h : endsLine (.inline (.text cs) :: after) = true) :
    ∃ gap, IsLineEnd gap ∧ cs = gap ++ cutMarkerLine cs := by
  cases hdrop : dropBlankLine cs with
  | some rest =>
    obtain ⟨blank, hblank, rfl⟩ := dropBlankLine_eq_some_iff.1 hdrop
    refine ⟨blank ++ ['\n'], .newline hblank, ?_⟩
    rw [cutMarkerLine, hdrop, Option.getD_some, List.append_assoc, List.singleton_append]
  | none =>
    rw [endsLine, hdrop, Option.isSome_none, Bool.or_false] at h
    refine ⟨cs, .spacing h, ?_⟩
    rw [cutMarkerLine, hdrop, Option.getD_none, List.append_nil]

/-- Settling segments that the source `cs` is of: the text of those before is kept but for the
spacing before a marker, and that of the others is stripped, after a standalone block without the
end of its line. -/
def Strips (before : List Segment) (cut : Bool) (cs : List Char) (settled : List Segment) : Prop :=
  ∃ ws before' gap rest out, Shortened ws before before' ∧ cs = gap ++ rest ∧ IsLineEnd gap ∧
    (cut = false → gap = []) ∧
    settled.flatMap Segment.chars = before'.reverse.flatMap Segment.chars ++ out ∧
    Stripped (ws ++ rest) out

theorem chars_reverse_cons (s : Segment) (before : List Segment) :
    (s :: before).reverse.flatMap Segment.chars =
      before.reverse.flatMap Segment.chars ++ s.chars := by
  rw [List.reverse_cons, List.flatMap_append, List.flatMap_singleton]

/-- Where nothing of the text before is cut. -/
theorem strips_of_stripped {before settled : List Segment} {cut : Bool}
    (hchars : settled.flatMap Segment.chars = before.reverse.flatMap Segment.chars ++ out)
    (hstripped : Stripped cs out) : Strips before cut cs settled :=
  ⟨[], before, [], cs, out, .whole before, rfl, .nil, fun _ => rfl, hchars, hstripped⟩

/-- Nothing is cut off a segment that is not a text. -/
theorem Strips.after {s : Segment} {before settled : List Segment} {cut : Bool}
    (h : Strips (s :: before) cut cs settled) (hs : ∀ ds, s ≠ .inline (.text ds)) :
    ∃ gap rest out, cs = gap ++ rest ∧ IsLineEnd gap ∧ (cut = false → gap = []) ∧
      settled.flatMap Segment.chars = before.reverse.flatMap Segment.chars ++ (s.chars ++ out) ∧
      Stripped rest out := by
  obtain ⟨ws, before', gap, rest, out, hshort, heq, hgap, hnone, hchars, hstripped⟩ := h
  cases hshort with
  | text => exact absurd rfl (hs _)
  | whole =>
    rw [chars_reverse_cons, List.append_assoc] at hchars
    exact ⟨gap, rest, out, heq, hgap, hnone, hchars, hstripped⟩

theorem Strips.slot {name : Spanned String} {before settled : List Segment} {cut : Bool}
    {raw : List Char} (h : Strips (.inline (.slot name) :: before) false cs settled)
    (written : (Marker.slot name.value).Written raw) : Strips before cut (raw ++ cs) settled := by
  obtain ⟨gap, rest, out, rfl, _, hnone, hchars, hstripped⟩ := h.after (by simp)
  obtain rfl := hnone rfl
  exact strips_of_stripped hchars (.lone written hstripped)

theorem Strips.text {before settled : List Segment} {cut : Bool} {kept gap : List Char}
    (h : Strips (.inline (.text kept) :: before) false cs settled) (hgap : IsLineEnd gap)
    (hnone : cut = false → gap = []) (unmarked : Opaque kept cs) :
    Strips before cut (gap ++ (kept ++ cs)) settled := by
  obtain ⟨ws, before', gap', rest, out, hshort, rfl, _, hnone', hchars, hstripped⟩ := h
  obtain rfl := hnone' rfl
  obtain ⟨as, rfl, rfl⟩ := hshort.exists_text
  rw [chars_reverse_cons, List.append_assoc] at hchars
  refine ⟨[], before, gap, _, _, .whole before, rfl, hgap, hnone, hchars, ?_⟩
  show Stripped (as ++ ws ++ rest) (as ++ out)
  rw [List.append_assoc]
  exact .text unmarked.of_append_right hstripped

/-- A block that is not standalone loses its markers. -/
theorem Strips.block {b : Block} {before settled : List Segment} {cut : Bool} {name : String}
    {pos : Nat} {opening inner closing : List Char}
    (h : Strips (.block b :: before) false cs settled)
    (openMarker : (Marker.openBlock name).Written opening)
    (content : Inline.Written (closing ++ cs) pos b.body inner)
    (closeMarker : Marker.closeBlock.Written closing) :
    Strips before cut (opening ++ (inner ++ (closing ++ cs))) settled := by
  obtain ⟨gap, rest, out, rfl, _, hnone, hchars, hstripped⟩ := h.after (by simp)
  obtain rfl := hnone rfl
  exact strips_of_stripped hchars
    (.lone openMarker (content.stripped (.lone closeMarker hstripped)))

/-- A standalone block loses the lines of its markers. -/
theorem Strips.standalone {b : Block} {before settled : List Segment} {cut : Bool}
    {name : String} {body : List Inline} {pos : Nat} {opening inner closing : List Char}
    (h : Strips (.block b :: cutIndent b.indent before) true cs settled)
    (openMarker : (Marker.openBlock name).Written opening)
    (content : Inline.Written (closing ++ cs) pos body inner)
    (closeMarker : Marker.closeBlock.Written closing)
    (hindent : indentAfter before = some b.indent) (hlines : innerLines body = some b.body) :
    Strips before cut (opening ++ (inner ++ (closing ++ cs))) settled := by
  obtain ⟨gap, rest, out, rfl, hgap, _, hchars, hstripped⟩ := h.after (by simp)
  obtain ⟨first, middle, last, rfl, hfirst, hlast, hmiddle⟩ := content.innerLines hlines
  have hshort := shortened_cutIndent hindent
  refine ⟨b.indent, cutIndent b.indent before, [], _, _, hshort, rfl, .nil, fun _ => rfl, hchars,
    ?_⟩
  have hclose : Stripped (last ++ (closing ++ (gap ++ rest))) out :=
    .marker hlast closeMarker hgap hstripped
  have hopen := Stripped.marker hshort.spacing openMarker hfirst (hmiddle out hclose)
  simpa [Segment.chars, Block.chars] using hopen

/-- By induction along the segments: each step says what the one after it may still cut. -/
theorem Segment.Written.strips {pos : Nat} {segs : List Segment} {os : List Occurrence}
    (h : Segment.Written pos segs os cs) (apart : Segment.Apart segs) (before : List Segment)
    (cut : Bool) (hcut : cut = true → endsLine segs = true) :
    Strips before cut cs (settle before cut segs) := by
  induction h generalizing before cut with
  | nil =>
    refine strips_of_stripped ?_ .nil
    rw [settle, List.append_nil]
  | @inline pos i raw ds segs os single rest ih =>
    cases i with
    | slot name =>
      rw [settle]
      exact (ih apart _ false (by simp)).slot (Inline.written_slot_iff.1 single).1
    | text cs =>
      obtain ⟨rfl, _, unmarked⟩ := Inline.written_text_iff.1 single
      obtain ⟨gap, hgap, hnone, hsplit⟩ : ∃ gap, IsLineEnd gap ∧ (cut = false → gap = []) ∧
          raw = gap ++ (if cut then cutMarkerLine raw else raw) := by
        cases cut with
        | false => exact ⟨[], .nil, fun _ => rfl, rfl⟩
        | true =>
          obtain ⟨gap, hgap, hsplit⟩ := exists_cutMarkerLine (hcut rfl)
          exact ⟨gap, hgap, by simp, hsplit⟩
      rw [settle]
      generalize (if cut then cutMarkerLine raw else raw) = kept at hsplit ⊢
      subst hsplit
      rw [List.append_assoc]
      exact (ih apart.2 _ false (by simp)).text hgap hnone (unmarked.of_append gap)
  | @block pos name body opening inner closing ds segs os openMarker content closeMarker _ ih =>
    rw [settle, List.append_assoc, List.append_assoc]
    split
    · next b hb =>
      obtain ⟨indent, lines, hindent, hends, hlines, rfl⟩ := standalone?_eq_some_iff.1 hb
      have hrest := ih apart.2 (.block ⟨⟨name, ⟨pos, pos + byteLength opening⟩⟩, indent, true,
        lines⟩ :: cutIndent indent before) true fun _ => hends
      exact hrest.standalone openMarker content closeMarker hindent hlines
    · have hrest := ih apart.2 (.block ⟨⟨name, ⟨pos, pos + byteLength opening⟩⟩, [], false, body⟩ ::
        before) false (by simp)
      exact hrest.block openMarker content closeMarker

/-! ### Blocks -/

/-- A block is left as it is, or settled as standalone under the same name. -/
theorem blocks_settle (before segs : List Segment) (cut : Bool) :
    ∃ bs, Segment.blocks (settle before cut segs) = Segment.blocks before.reverse ++ bs ∧
      List.Forall₂ (fun b b' : Block => b'.name = b.name ∧ (b'.standalone = false → b' = b))
        (Segment.blocks segs) bs := by
  fun_induction settle before cut segs with
  | case1 => exact ⟨[], (List.append_nil _).symm, .nil⟩
  | case2 before _ b after b' hb' ih =>
    obtain ⟨indent, body, _, _, _, rfl⟩ := standalone?_eq_some_iff.1 hb'
    obtain ⟨bs, hbs, hall⟩ := ih
    refine ⟨{ b with indent := indent, standalone := true, body := body } :: bs, ?_,
      .cons ⟨rfl, by simp⟩ hall⟩
    rw [hbs, Segment.blocks_reverse_block, blocks_cutIndent, List.append_assoc,
      List.singleton_append]
  | case3 before _ b after _ ih =>
    obtain ⟨bs, hbs, hall⟩ := ih
    refine ⟨b :: bs, ?_, .cons ⟨rfl, fun _ => rfl⟩ hall⟩
    rw [hbs, Segment.blocks_reverse_block, List.append_assoc, List.singleton_append]
  | case4 before cut cs after ih =>
    obtain ⟨bs, hbs, hall⟩ := ih
    exact ⟨bs, by rw [hbs, Segment.blocks_reverse_inline], hall⟩
  | case5 before cut name after ih =>
    obtain ⟨bs, hbs, hall⟩ := ih
    exact ⟨bs, by rw [hbs, Segment.blocks_reverse_inline], hall⟩

/-- A content by itself, without what comes after it in the source. -/
theorem Inline.Written.alone {after : List Char} {pos : Nat} {is : List Inline}
    (h : Inline.Written after pos is cs) : Inline.Written [] pos is cs := by
  induction h with
  | nil => exact .nil
  | slot marker _ ih => exact .slot marker ih
  | text nonempty unmarked _ ih =>
    refine .text nonempty (fun as bs heq => ?_) ih
    rw [List.append_nil] at heq
    exact unmarked as (bs ++ after) (by rw [← List.append_assoc, heq]; simp)

theorem Inline.Written.withoutMarkers {after : List Char} {pos : Nat} {is : List Inline}
    (h : Inline.Written after pos is cs) :
    Template.withoutMarkers cs = is.flatMap Inline.chars := by
  have hmap := h.alone.mapMarkers (f := fun _ => []) (g := fun _ => []) fun _ _ _ => rfl
  rw [List.append_nil, Template.mapMarkers, List.append_nil, List.flatMap_map] at hmap
  rw [Template.withoutMarkers, hmap]
  congr 1
  funext i
  cases i <;> rfl

theorem Segment.Written.blocks {pos : Nat} {segs : List Segment} {os : List Occurrence}
    (h : Segment.Written pos segs os cs) (source pre : List Char) (hsource : source = pre ++ cs)
    (hpos : pos = byteLength pre) :
    List.Forall₂ (fun o b => b.name = o.name ∧
      b.chars = Template.withoutMarkers (o.inner source)) os (Segment.blocks segs) := by
  induction h generalizing pre with
  | nil => exact .nil
  | @inline pos i raw ds segs os _ _ ih =>
    exact ih (pre ++ raw) (by rw [hsource, List.append_assoc])
      (by rw [hpos, byteLength_append])
  | @block pos name body opening inner closing ds segs os _ content _ _ ih =>
    subst hpos
    have hrest := ih (pre ++ (opening ++ inner ++ closing))
      (by rw [hsource, List.append_assoc pre]) (by rw [byteLength_append pre])
    refine .cons ⟨rfl, ?_⟩ hrest
    rw [Occurrence.inner_eq hsource rfl rfl, content.withoutMarkers]
    rfl

end

theorem forall₂_trans {α β γ : Type} {R : α → β → Prop} {S : β → γ → Prop} {T : α → γ → Prop}
    (hT : ∀ a b c, R a b → S b c → T a c) {as : List α} {bs : List β} {cs : List γ}
    (h : List.Forall₂ R as bs) (g : List.Forall₂ S bs cs) : List.Forall₂ T as cs := by
  induction h generalizing cs with
  | nil =>
    cases g
    exact .nil
  | cons hab _ ih =>
    cases g with
    | cons hbc g => exact .cons (hT _ _ _ hab hbc) (ih g)

theorem Segment.chars_of_isEmpty {s : Segment} (h : (!s.isEmpty) = false) : s.chars = [] := by
  cases s with
  | inline i => exact Inline.chars_of_isEmpty h
  | block b => cases h

/-- The text of a source is the source without its markers and without white space on their lines:
only spaces, tabs and newlines are missing beside the markers. Of a block that is not standalone the
whole text is kept. -/
theorem text_of_ofChars {source : List Char} {t : Markup} (h : Markup.ofChars source = .ok t) :
    Stripped source t.chars ∧ Thinned (withoutMarkers source) t.chars ∧
    List.Forall₂ (fun o b => b.name = o.name ∧
      (b.standalone = false → b.chars = withoutMarkers (o.inner source)))
      (occurrences source) t.blocks := by
  obtain ⟨segs, hsegs, rfl⟩ := Markup.ofChars_eq_ok_iff.1 h
  obtain ⟨hwritten, hapart⟩ := Segment.written_of_ofChars hsegs
  have hstripped : Stripped source ((settle [] false segs).flatMap Segment.chars) := by
    obtain ⟨ws, before', gap, rest, out, hshort, rfl, _, hgap, hchars, hstripped⟩ :=
      hwritten.strips hapart [] false (by simp)
    obtain rfl := hgap rfl
    cases hshort
    rw [hchars]
    exact hstripped
  rw [Markup.chars, Markup.blocks, flatMap_filter_of_nil fun _ => Segment.chars_of_isEmpty,
    blocks_filter]
  refine ⟨hstripped, hstripped.thinned, ?_⟩
  obtain ⟨bs, hbs, hsettled⟩ := blocks_settle [] segs false
  rw [hbs]
  have hblocks := hwritten.blocks source [] rfl rfl
  refine forall₂_trans ?_ hblocks hsettled
  rintro o b b' ⟨hname, hchars⟩ ⟨hname', hkept⟩
  exact ⟨hname'.trans hname, fun hstandalone => by rw [hkept hstandalone, hchars]⟩

/-! A block that is standalone, under a tab, and one that is not. -/

def indented : List Char :=
  "a\n\t\x7b\x7b#block b\x7d\x7d \n  x \x7b\x7b y \x7d\x7d\n  \x7b\x7b/block\x7d\x7d\n".toList ++
    "z\x7b\x7b#block c\x7d\x7d w \x7b\x7b/block\x7d\x7d".toList

def indentedMarkup : Markup :=
  ⟨indented, [.inline (.text "a\n".toList),
    .block ⟨⟨"b", ⟨3, 15⟩⟩, "\t".toList, true,
      [.text "  x ".toList, .slot ⟨"y", ⟨21, 28⟩⟩, .text "\n".toList]⟩,
    .inline (.text "z".toList),
    .block ⟨⟨"c", ⟨43, 55⟩⟩, [], false, [.text " w ".toList]⟩]⟩

theorem indented_read : Markup.ofChars indented = .ok indentedMarkup := by decide +kernel

theorem indented_text :
    Markup.ofChars indented = .ok indentedMarkup ∧
      withoutMarkers indented = "a\n\t \n  x \n  \nz w ".toList ∧
      Thinned (withoutMarkers indented) "a\n  x \nz w ".toList :=
  ⟨indented_read, by decide +kernel, (text_of_ofChars indented_read).2.1⟩

end Covenant.Template
