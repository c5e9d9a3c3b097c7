import Mathlib.Data.List.Basic
import Covenant.Proofs.Template.Blocks
import Covenant.Proofs.Template.Lines
import Covenant.Template.Markup

/-! Which blocks are settled as standalone, told from the source. Nearly always these are the
blocks whose markers are alone on their lines. Two things are different, since a block is
settled by the segments next to it alone: a block directly below a standalone one is not
seen to start its line, and a closing marker with blanks between it and another marker
counts as ending its line. -/
namespace Covenant.Template

/-! ### Blocks on their lines -/

namespace Occurrence

variable (source : List Char) (o : Occurrence)

def before : List Char := takeBytes o.name.span.start source

def inner : List Char := slice o.name.span.stop o.close.start source

def after : List Char := dropBytes o.close.stop source

/-- The opening marker is alone on its line, and a later line holds nothing before the
closing marker. -/
structure Framed : Prop where
  starts : isSpacing (lastLine (o.before source)) = true
  newline : '\n' ∈ o.inner source
  opens : isSpacing (firstLine (o.inner source)) = true
  closes : isSpacing (lastLine (o.inner source)) = true

/-- Both markers are alone on their lines. -/
structure Alone : Prop extends Framed source o where
  ends : isSpacing (firstLine (o.after source)) = true

/-- After the closing marker there are blanks, and then a marker. -/
def RunsOn : Prop :=
  ∃ ws rest, ws ≠ [] ∧ isSpacing ws = true ∧ o.after source = ws ++ '{' :: '{' :: rest

/-- The opening marker is on the line below the closing marker of another block, with
nothing in between but spaces and tabs. -/
def Below (above : Occurrence) : Prop :=
  ∃ ws ws', isSpacing ws = true ∧ isSpacing ws' = true ∧
    slice above.close.stop o.name.span.start source = ws ++ '\n' :: ws'

end Occurrence

/-! ### Settling -/

variable {source : List Char}

theorem standalone?_eq_some_iff {before after : List Segment} {b b' : Block} :
    b.standalone? before after = some b' ↔ ∃ indent body, indentAfter before = some indent ∧
      endsLine after = true ∧ innerLines b.body = some body ∧
      b' = { b with indent := indent, standalone := true, body := body } := by
  simp only [Block.standalone?, Option.bind_eq_bind, Option.bind_eq_some_iff]
  constructor
  · rintro ⟨indent, hindent, h⟩
    split at h
    · next hends =>
      obtain ⟨body, hbody, h⟩ := Option.bind_eq_some_iff.1 h
      exact ⟨indent, body, hindent, hends, hbody, (Option.some.inj h).symm⟩
    · cases h
  · rintro ⟨indent, body, hindent, hends, hbody, rfl⟩
    refine ⟨indent, hindent, ?_⟩
    rw [if_pos hends, hbody]
    rfl

/-- The blocks of a source, each settled in view of the one before it. -/
inductive Settled (source : List Char) : Option (Bool × Span) → List Occurrence → List Block → Prop
  | nil {prev : Option (Bool × Span)} : Settled source prev [] []
  | cons {prev : Option (Bool × Span)} {o : Occurrence} {b : Block} {os : List Occurrence}
      {bs : List Block} (name : b.name = o.name)
      (mark : b.standalone = true ↔ o.Framed source ∧
        (isSpacing (firstLine (o.after source)) = true ∨ o.RunsOn source) ∧
        ¬Crowded prev (o.before source))
      (indent : b.standalone = true → b.indent = lastLine (o.before source))
      (rest : Settled source (some (b.standalone, o.close)) os bs) :
      Settled source prev (o :: os) (b :: bs)

/-- What is between the markers of a block, where it is written. -/
theorem Occurrence.inner_eq {o : Occurrence} {pre opening inner closing post : List Char}
    (hsource : source = pre ++ (opening ++ inner ++ closing ++ post))
    (hopen : o.name.span = ⟨byteLength pre, byteLength pre + byteLength opening⟩)
    (hclose : o.close = ⟨byteLength pre + byteLength (opening ++ inner),
      byteLength pre + byteLength (opening ++ inner ++ closing)⟩) : o.inner source = inner := by
  have hcat : source = (pre ++ opening) ++ inner ++ (closing ++ post) := by
    rw [hsource]
    simp
  rw [Occurrence.inner, hopen, hclose, hcat, ← byteLength_append, ← byteLength_append,
    ← List.append_assoc pre, slice_append]

/-- What the neighbours of a block come to, put together. -/
theorem standalone?_isSome_iff {before after : List Segment} {b : Block} {o : Occurrence}
    {pre opening inner closing post : List Char} {prev : Option (Bool × Span)} {pos : Nat}
    {os : List Occurrence} (hsource : source = pre ++ (opening ++ inner ++ closing ++ post))
    (hopen : o.name.span = ⟨byteLength pre, byteLength pre + byteLength opening⟩)
    (hclose : o.close = ⟨byteLength pre + byteLength (opening ++ inner),
      byteLength pre + byteLength (opening ++ inner ++ closing)⟩)
    (hshows : ShowsStart before pre prev) (hbody : Inline.Spell b.body inner)
    (hapart : Inline.Apart b.body) (hafter : Segment.Spell pos after os post)
    (hafterApart : Segment.Apart after) :
    ((b.standalone? before after).isSome = true ↔ o.Framed source ∧
      (isSpacing (firstLine (o.after source)) = true ∨ o.RunsOn source) ∧
      ¬Crowded prev (o.before source)) ∧ o.before source = pre := by
  have hpre : o.before source = pre := by
    rw [Occurrence.before, hopen, hsource, takeBytes_append]
  have hinner := o.inner_eq hsource hopen hclose
  have hpost : o.after source = post := by
    have hcat : source = (pre ++ (opening ++ inner ++ closing)) ++ post := by
      rw [hsource]
      simp
    have hstop : o.close.stop = byteLength (pre ++ (opening ++ inner ++ closing)) := by
      rw [hclose, byteLength_append pre]
    rw [Occurrence.after, hstop, hcat, dropBytes_append]
  refine ⟨?_, hpre⟩
  have hends := endsLine_iff hafter hafterApart
  have hinnerLines := innerLines_isSome_iff hbody hapart
  rw [Occurrence.RunsOn, hpre, hpost, Option.isSome_iff_exists]
  rw [Option.isSome_iff_exists] at hinnerLines
  constructor
  · rintro ⟨b', hb'⟩
    obtain ⟨indent, body, hindent, hend, hlines, _⟩ := standalone?_eq_some_iff.1 hb'
    obtain ⟨_, hstart, hcrowded⟩ := (hshows indent).1 hindent
    obtain ⟨hn, hfirst, hlast⟩ := hinnerLines.1 ⟨body, hlines⟩
    refine ⟨⟨?_, ?_, ?_, ?_⟩, hends.1 hend, hcrowded⟩
    · rw [hpre]
      exact hstart
    · rw [hinner]
      exact hn
    · rw [hinner]
      exact hfirst
    · rw [hinner]
      exact hlast
  · rintro ⟨⟨hstart, hn, hfirst, hlast⟩, hend, hcrowded⟩
    rw [hpre] at hstart
    rw [hinner] at hn hfirst hlast
    obtain ⟨body, hlines⟩ := hinnerLines.2 ⟨hn, hfirst, hlast⟩
    have hindent := (hshows (lastLine pre)).2 ⟨rfl, hstart, hcrowded⟩
    exact ⟨_, standalone?_eq_some_iff.2 ⟨_, body, hindent, hends.2 hend, hlines, rfl⟩⟩

theorem blocks_cutIndent (indent : List Char) (before : List Segment) :
    Segment.blocks (cutIndent indent before).reverse = Segment.blocks before.reverse := by
  unfold cutIndent
  split
  · rw [Segment.blocks_reverse_inline, Segment.blocks_reverse_inline]
  · rfl

/-- What settling does with a block: it goes on after the block, as it is or as standalone. -/
theorem settle_block {b : Block} (unsettled : b.standalone = false) (before after : List Segment)
    (cut : Bool) :
    ∃ b' before', settle before cut (.block b :: after) =
        settle (.block b' :: before') b'.standalone after ∧
      Segment.blocks before'.reverse = Segment.blocks before.reverse ∧ b'.name = b.name ∧
      (b'.standalone = true ↔ (b.standalone? before after).isSome = true) ∧
      (b'.standalone = true → indentAfter before = some b'.indent ∧ endsLine after = true) := by
  cases hsettle : b.standalone? before after with
  | none =>
    refine ⟨b, before, ?_, rfl, rfl, by simp [unsettled], by simp [unsettled]⟩
    rw [settle, hsettle, unsettled]
  | some b' =>
    obtain ⟨indent, body, hindent, hends, _, rfl⟩ := standalone?_eq_some_iff.1 hsettle
    refine ⟨⟨b.name, indent, true, body⟩, cutIndent indent before, ?_,
      blocks_cutIndent indent before, rfl, by simp, fun _ => ⟨hindent, hends⟩⟩
    rw [settle, hsettle]

/-- How far a source has been settled: after `pre`, with `cs` and its segments still to come.
The segments before show whether a line starts here, and a text is only met at a boundary. -/
structure Reached (source : List Char) (before : List Segment) (cut : Bool) (pre : List Char)
    (prev : Option (Bool × Span)) (segs : List Segment) (cs : List Char) : Prop where
  source_eq : source = pre ++ cs
  apart : Segment.Apart segs
  showsStart : ShowsStart before pre prev
  closed : Closed prev pre
  boundary : ∀ ds tail, segs = .inline (.text ds) :: tail → Boundary before cut pre prev
  ends : cut = true → endsLine segs = true

namespace Reached

variable {before segs : List Segment} {cut : Bool} {pre cs ds : List Char}
  {prev : Option (Bool × Span)}

theorem start (apart : Segment.Apart segs) : Reached source [] false [] none segs source where
  source_eq := rfl
  apart := apart
  showsStart := Boundary.start.showsStart
  closed := by rintro _ _ ⟨⟩
  boundary := fun _ _ _ => .start
  ends := by simp

theorem text (h : Reached source before cut pre prev (.inline (.text cs) :: segs) (cs ++ ds)) :
    Reached source (.inline (.text (if cut then cutMarkerLine cs else cs)) :: before) false
      (pre ++ cs) prev segs ds where
  source_eq := by rw [h.source_eq, List.append_assoc]
  apart := h.apart.2
  showsStart := by
    refine (h.boundary cs segs rfl).showsStart_text fun hcut => ?_
    have hends := h.ends hcut
    rwa [endsLine, Bool.or_eq_true] at hends
  closed := h.closed.append cs
  boundary := fun es tail htail => absurd htail (h.apart.1 es tail)
  ends := by simp

theorem slot {name : Spanned String} {raw : List Char} (marker : IsMarker raw)
    (h : Reached source before cut pre prev (.inline (.slot name) :: segs) (raw ++ ds)) :
    Reached source (.inline (.slot name) :: before) false (pre ++ raw) prev segs ds :=
  have boundary : Boundary (.inline (.slot name) :: before) false (pre ++ raw) prev :=
    .slot name before h.closed marker
  { source_eq := by rw [h.source_eq, List.append_assoc]
    apart := h.apart
    showsStart := boundary.showsStart
    closed := h.closed.append raw
    boundary := fun _ _ _ => boundary
    ends := by simp }

/-- The next segment is settled in view of the block, whatever became of it. -/
theorem block {b b' : Block} {before' : List Segment} {opening inner closing : List Char}
    {close : Span} (marker : IsMarker closing)
    (stop : close.stop = byteLength (pre ++ (opening ++ inner ++ closing)))
    (h : Reached source before cut pre prev (.block b :: segs) (opening ++ inner ++ closing ++ ds))
    (ends : b'.standalone = true → endsLine segs = true) :
    Reached source (.block b' :: before') b'.standalone (pre ++ (opening ++ inner ++ closing))
      (some (b'.standalone, close)) segs ds := by
  have boundary : Boundary (.block b' :: before') b'.standalone
      (pre ++ (opening ++ inner ++ closing)) (some (b'.standalone, close)) := by
    rw [← List.append_assoc] at stop ⊢
    exact .block b' before' marker stop
  refine ⟨?_, h.apart.2, boundary.showsStart, ?_, fun _ _ _ => boundary, ends⟩
  · rw [h.source_eq, List.append_assoc pre]
  · intro mark close' hprev
    cases hprev
    exact ⟨_, [], by rw [List.append_nil], stop.symm⟩

end Reached

/-- By induction along the segments, from one place that has been reached to the next. -/
theorem settle_settled {pos : Nat} {segs : List Segment} {os : List Occurrence} {cs : List Char}
    (h : Segment.Spell pos segs os cs) :
    ∀ {before : List Segment} {cut : Bool} {pre : List Char} {prev : Option (Bool × Span)},
      Reached source before cut pre prev segs cs → pos = byteLength pre →
      ∃ bs, Segment.blocks (settle before cut segs) = Segment.blocks before.reverse ++ bs ∧
        Settled source prev os bs := by
  induction h with
  | nil =>
    intro before cut pre prev _ _
    exact ⟨[], by rw [settle, List.append_nil], .nil⟩
  | @text pos cs ds segs os _ _ _ ih =>
    intro before cut pre prev reached hpos
    obtain ⟨bs, hbs, hsettled⟩ := ih reached.text (by rw [hpos, byteLength_append])
    exact ⟨bs, by rw [settle, hbs, Segment.blocks_reverse_inline], hsettled⟩
  | @slot pos name raw ds segs os marker _ ih =>
    intro before cut pre prev reached hpos
    obtain ⟨bs, hbs, hsettled⟩ := ih (reached.slot marker) (by rw [hpos, byteLength_append])
    exact ⟨bs, by rw [settle, hbs, Segment.blocks_reverse_inline], hsettled⟩
  | @block pos b opening inner closing ds segs o os name unsettled _ body closeMarker openSpan
      closeSpan rest ih =>
    intro before cut pre prev reached hpos
    subst hpos
    obtain ⟨hiff, hpre⟩ := standalone?_isSome_iff reached.source_eq openSpan closeSpan
      reached.showsStart body reached.apart.1 rest reached.apart.2
    obtain ⟨b', before', hsettle, hblocks, hname, hmark, hstandalone⟩ :=
      settle_block unsettled before segs cut
    have hstop : o.close.stop = byteLength (pre ++ (opening ++ inner ++ closing)) := by
      rw [closeSpan, byteLength_append pre]
    have hnext : Reached source (.block b' :: before') b'.standalone
        (pre ++ (opening ++ inner ++ closing)) (some (b'.standalone, o.close)) segs ds :=
      reached.block closeMarker hstop fun h => (hstandalone h).2
    obtain ⟨bs, hbs, hsettled⟩ := ih hnext (byteLength_append _ _).symm
    refine ⟨b' :: bs, ?_, .cons (hname.trans name) (hmark.trans hiff) (fun h => ?_) hsettled⟩
    · rw [hsettle, hbs, Segment.blocks_reverse_block, hblocks, List.append_assoc,
        List.singleton_append]
    · rw [hpre]
      exact ((reached.showsStart _).1 (hstandalone h).1).1

theorem blocks_filter (segs : List Segment) :
    Segment.blocks (segs.filter fun s => !s.isEmpty) = Segment.blocks segs := by
  induction segs with
  | nil => rfl
  | cons s segs ih =>
    cases s with
    | block b =>
      rw [List.filter_cons_of_pos (by rfl)]
      exact congrArg (b :: ·) ih
    | inline i =>
      have hskip : Segment.blocks (.inline i :: segs) = Segment.blocks segs := rfl
      rw [hskip, ← ih, List.filter_cons]
      split
      · rfl
      · rfl

/-- Reading settles every block of the source. -/
theorem settled_of_ofChars {t : Markup} (h : Markup.ofChars source = .ok t) :
    Settled source none (occurrences source) t.blocks := by
  obtain ⟨segs, hsegs, rfl⟩ := Markup.ofChars_eq_ok_iff.1 h
  obtain ⟨hspell, hapart⟩ := Segment.spell_of_ofChars hsegs
  obtain ⟨bs, hbs, hsettled⟩ := settle_settled hspell (Reached.start hapart) rfl
  rw [Markup.blocks, blocks_filter, hbs]
  exact hsettled

/-! ### Each block -/

/-- The block at place `i`, with these markers, is directly below a standalone one. -/
def Occurrence.BelowStandalone (source : List Char) (bs : List Block) (i : Nat)
    (o : Occurrence) : Prop :=
  ∃ j b above, i = j + 1 ∧ bs[j]? = some b ∧ b.standalone = true ∧
    (occurrences source)[j]? = some above ∧ o.Below source above

/-- The block before place `i`, with its mark and the span of its closing marker. -/
def previousTo (first : Option (Bool × Span)) (os : List Occurrence) (bs : List Block) :
    Nat → Option (Bool × Span)
  | 0 => first
  | i + 1 => do
    let b ← bs[i]?
    let o ← os[i]?
    return (b.standalone, o.close)

theorem Settled.names {prev : Option (Bool × Span)} {os : List Occurrence} {bs : List Block}
    (h : Settled source prev os bs) : bs.map (·.name) = os.map (·.name) := by
  induction h with
  | nil => rfl
  | cons name _ _ _ ih => rw [List.map_cons, List.map_cons, name, ih]

theorem Settled.get {prev : Option (Bool × Span)} {os : List Occurrence} {bs : List Block}
    (h : Settled source prev os bs) {i : Nat} {b : Block} {o : Occurrence}
    (hb : bs[i]? = some b) (ho : os[i]? = some o) :
    (b.standalone = true ↔ o.Framed source ∧
      (isSpacing (firstLine (o.after source)) = true ∨ o.RunsOn source) ∧
      ¬Crowded (previousTo prev os bs i) (o.before source)) ∧
    (b.standalone = true → b.indent = lastLine (o.before source)) := by
  induction h generalizing i with
  | nil => cases hb
  | @cons prev o' b' os bs _ mark indent _ ih =>
    cases i with
    | zero =>
      cases hb
      cases ho
      exact ⟨mark, indent⟩
    | succ i =>
      have hget := ih hb ho
      cases i with
      | zero => exact hget
      | succ i => exact hget

theorem crowded_previousTo_iff {bs : List Block} {i : Nat} {o : Occurrence} :
    Crowded (previousTo none (occurrences source) bs i) (o.before source) ↔
      o.BelowStandalone source bs i := by
  constructor
  · rintro ⟨close, hprev, hbreak⟩
    cases i with
    | zero => cases hprev
    | succ j =>
      obtain ⟨b, hb, hprev⟩ := Option.bind_eq_some_iff.1 hprev
      obtain ⟨above, habove, hprev⟩ := Option.bind_eq_some_iff.1 hprev
      obtain ⟨hmark, rfl⟩ := Prod.mk.inj (Option.some.inj hprev)
      exact ⟨j, b, above, rfl, hb, hmark, habove, hbreak⟩
  · rintro ⟨j, b, above, rfl, hb, hmark, habove, hbreak⟩
    refine ⟨above.close, ?_, hbreak⟩
    rw [previousTo, hb, habove, ← hmark]
    rfl

/-- A line that goes on with a marker does not end in blanks. -/
theorem Occurrence.RunsOn.not_ends {o : Occurrence} (h : o.RunsOn source) :
    isSpacing (firstLine (o.after source)) = false := by
  obtain ⟨ws, rest, _, hws, hafter⟩ := h
  rw [hafter, firstLine_of_not_newline (newline_not_mem_of_isSpacing hws), ← Bool.not_eq_true,
    isSpacing_append, not_isSpacing_firstLine_brace]
  simp

/-- The blocks of a source are those between its markers, in their order. A block is settled
as standalone exactly when it is alone on its lines, unless it is directly below a standalone
block, or its closing line goes on with a marker; and its indentation is what stands before
its opening marker. -/
theorem standalone_iff_alone_iff {t : Markup} (h : Markup.ofChars source = .ok t) :
    t.blocks.map (·.name) = (occurrences source).map (·.name) ∧
      ∀ i (b : Block) (o : Occurrence), t.blocks[i]? = some b →
        (occurrences source)[i]? = some o →
        ((b.standalone = true ↔ o.Alone source) ↔
          ¬(o.Alone source ∧ o.BelowStandalone source t.blocks i) ∧
          ¬(o.Framed source ∧ o.RunsOn source ∧ ¬o.BelowStandalone source t.blocks i)) ∧
        (b.standalone = true → b.indent = lastLine (o.before source)) := by
  have hsettled := settled_of_ofChars h
  refine ⟨hsettled.names, ?_⟩
  intro i b o hb ho
  obtain ⟨hmark, hindent⟩ := hsettled.get hb ho
  rw [crowded_previousTo_iff] at hmark
  have halone : o.Alone source ↔
      o.Framed source ∧ isSpacing (firstLine (o.after source)) = true :=
    ⟨fun h => ⟨h.toFramed, h.ends⟩, fun h => ⟨h.1, h.2⟩⟩
  have hexclusive : o.RunsOn source → ¬isSpacing (firstLine (o.after source)) = true := by
    intro hruns
    rw [hruns.not_ends]
    simp
  refine ⟨?_, hindent⟩
  rw [hmark, halone]
  by_cases hframed : o.Framed source
  · by_cases hends : isSpacing (firstLine (o.after source)) = true
    · have hruns : ¬o.RunsOn source := fun h => hexclusive h hends
      simp [hframed, hends, hruns]
    · simp [hframed, hends]
  · simp [hframed]

/-! Two blocks on neighbouring lines, and a block whose closing line goes on with a slot. -/

def neighbours : List Char :=
  "\x7b\x7b#block a\x7d\x7d\n\x7b\x7b/block\x7d\x7d\n\x7b\x7b#block b\x7d\x7d\n\x7b\x7b/block\x7d\x7d".toList

def neighboursMarkup : Markup :=
  ⟨neighbours, [.block ⟨⟨"a", ⟨0, 12⟩⟩, [], true, []⟩,
    .block ⟨⟨"b", ⟨24, 36⟩⟩, [], false, [.text ['\n']]⟩]⟩

def slotAfter : List Char :=
  "\x7b\x7b#block a\x7d\x7d\n\x7b\x7b/block\x7d\x7d \x7b\x7b x \x7d\x7d".toList

def slotAfterMarkup : Markup :=
  ⟨slotAfter, [.block ⟨⟨"a", ⟨0, 12⟩⟩, [], true, []⟩, .inline (.slot ⟨"x", ⟨24, 31⟩⟩)]⟩

theorem neighbours_read : Markup.ofChars neighbours = .ok neighboursMarkup := by decide +kernel

theorem neighbours_occurrences :
    occurrences neighbours = [⟨⟨"a", ⟨0, 12⟩⟩, ⟨13, 23⟩⟩, ⟨⟨"b", ⟨24, 36⟩⟩, ⟨37, 47⟩⟩] := by
  decide +kernel

theorem neighbours_alone : ∀ o ∈ occurrences neighbours, o.Alone neighbours := by
  rw [neighbours_occurrences]
  intro o ho
  simp only [List.mem_cons, List.not_mem_nil, or_false] at ho
  rcases ho with rfl | rfl
  · refine ⟨⟨?_, ?_, ?_, ?_⟩, ?_⟩ <;> decide +kernel
  · refine ⟨⟨?_, ?_, ?_, ?_⟩, ?_⟩ <;> decide +kernel

/-- The second block is not settled as standalone, and this is why. -/
theorem neighbours_second_below :
    Markup.ofChars neighbours = .ok neighboursMarkup ∧
      Occurrence.BelowStandalone neighbours neighboursMarkup.blocks 1
        ⟨⟨"b", ⟨24, 36⟩⟩, ⟨37, 47⟩⟩ := by
  have hblocks := (standalone_iff_alone_iff neighbours_read).2 1
    ⟨⟨"b", ⟨24, 36⟩⟩, [], false, [.text ['\n']]⟩ ⟨⟨"b", ⟨24, 36⟩⟩, ⟨37, 47⟩⟩ rfl
    (by rw [neighbours_occurrences]; rfl)
  have halone : Occurrence.Alone neighbours ⟨⟨"b", ⟨24, 36⟩⟩, ⟨37, 47⟩⟩ :=
    neighbours_alone _ (by rw [neighbours_occurrences]; simp)
  have hruns : ¬Occurrence.RunsOn neighbours ⟨⟨"b", ⟨24, 36⟩⟩, ⟨37, 47⟩⟩ := by
    intro h
    have hends := h.not_ends
    rw [halone.ends] at hends
    cases hends
  by_contra hbelow
  have hmark := hblocks.1.2 ⟨fun h => hbelow ⟨neighbours_read, h.2⟩, fun h => hruns h.2.1⟩
  have hstandalone := hmark.2 halone
  cases hstandalone

/-- Both blocks are alone on their lines, and one of them is not standalone; a block whose
closing line goes on is not alone on its lines, and it is standalone. -/
theorem standalone_not_alone :
    (Markup.ofChars neighbours = .ok neighboursMarkup ∧
      (∀ o ∈ occurrences neighbours, o.Alone neighbours) ∧
      neighboursMarkup.blocks.map (·.standalone) = [true, false]) ∧
    Markup.ofChars slotAfter = .ok slotAfterMarkup ∧
      (∀ o ∈ occurrences slotAfter, ¬o.Alone slotAfter) ∧
      slotAfterMarkup.blocks.map (·.standalone) = [true] := by
  have hslot : occurrences slotAfter = [⟨⟨"a", ⟨0, 12⟩⟩, ⟨13, 23⟩⟩] := by decide +kernel
  refine ⟨⟨neighbours_read, neighbours_alone, rfl⟩, by decide +kernel, ?_, rfl⟩
  rw [hslot]
  intro o ho halone
  rw [List.mem_singleton] at ho
  subst ho
  have hends := halone.ends
  revert hends
  decide +kernel

end Covenant.Template
