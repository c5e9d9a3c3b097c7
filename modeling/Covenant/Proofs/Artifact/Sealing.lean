import Covenant.Proofs.Artifact.Marker
import Covenant.Proofs.Artifact.Rendering

/-! Sealed bodies. A walk over the segments of a body keeps track of whether the text
so far may end with an opening brace; it fails where the text that follows could make
a marker of it. A body that the walk comes through renders to a text without markers,
whatever unmarked fills it is given. -/
namespace Covenant.Artifact

open Template

/-! ### The walk -/

/-- Whether a text that follows may end with a brace, given whether the text before it
may; nothing when there is a marker in it or where it starts. -/
def sealText (dangling : Bool) (cs : List Char) : Option Bool :=
  if cs.isEmpty then some dangling
  else if hasMarker cs || (dangling && cs.head? == some '{') then none
  else some (cs.getLast? == some '{')

def sealInline (dangling : Bool) : Inline → Option Bool
  | .text cs => sealText dangling cs
  | .slot _ => if dangling then none else some true

/-- A standalone block ends with a line, whatever it is filled with. -/
def sealBlock (dangling : Bool) (b : Block) : Option Bool :=
  match dangling, b.body.foldlM sealInline false with
  | false, some inner =>
    if b.standalone then if inner || b.indent.contains '{' then none else some false
    else some true
  | _, _ => none

def sealSegment (dangling : Bool) : Segment → Option Bool
  | .inline i => sealInline dangling i
  | .block b => sealBlock dangling b

/-- The walk over a body comes to its end. -/
def isSealed (segs : List Segment) : Bool := (segs.foldlM sealSegment false).isSome

/-! ### What the walk keeps -/

/-- A text without markers, which ends with a brace only if it may. -/
structure Sealed (dangling : Bool) (cs : List Char) : Prop where
  unmarked : hasMarker cs = false
  closed : cs.getLast? = some '{' → dangling = true

theorem sealed_nil (dangling : Bool) : Sealed dangling [] := ⟨rfl, fun h => nomatch h⟩

theorem sealed_of_unmarked {cs : List Char} (h : hasMarker cs = false) : Sealed true cs :=
  ⟨h, fun _ => rfl⟩

theorem Sealed.append_unmarked {pre cs : List Char} (hpre : Sealed false pre)
    (hcs : hasMarker cs = false) : Sealed true (pre ++ cs) :=
  sealed_of_unmarked (hasMarker_append hpre.unmarked hcs fun h => nomatch hpre.closed h)

/-- A text that does not end with a brace after one that does not. -/
theorem Sealed.append {pre cs : List Char} (hpre : Sealed false pre) (hcs : Sealed false cs) :
    Sealed false (pre ++ cs) := by
  refine ⟨(hpre.append_unmarked hcs.unmarked).unmarked, fun h => ?_⟩
  cases cs with
  | nil => exact hpre.closed (by simpa using h)
  | cons c cs => exact hcs.closed (by rwa [List.getLast?_append_of_ne_nil _ (by simp)] at h)

theorem Sealed.text {dangling out : Bool} {pre cs : List Char} (hpre : Sealed dangling pre)
    (h : sealText dangling cs = some out) : Sealed out (pre ++ cs) := by
  unfold sealText at h
  split at h
  · next hempty =>
    obtain rfl := Option.some.inj h
    rwa [List.isEmpty_iff.1 hempty, List.append_nil]
  · next hempty =>
    split at h
    · cases h
    · next hnone =>
      obtain rfl := Option.some.inj h
      simp only [Bool.or_eq_true, Bool.and_eq_true, beq_iff_eq, not_or, not_and,
        Bool.not_eq_true] at hnone
      refine ⟨hasMarker_append hpre.unmarked hnone.1 fun hlast => hnone.2 (hpre.closed hlast), ?_⟩
      intro hlast
      rw [List.getLast?_append_of_ne_nil _ (by simpa using hempty)] at hlast
      simpa using hlast

/-! ### Fills -/

/-- No fill has a marker in it. -/
def Fills.Unmarked (f : Fills) : Prop := ∀ slot fill, f.get? slot = some fill → fill.Unmarked

variable {f : Fills} {r : Resolved}

theorem Fills.Unmarked.text (hf : f.Unmarked) {slot t : String} (h : f.text slot = .ok t) :
    hasMarker t.toList = false := hf slot (.scalar t) (Fills.text_eq_ok_iff.1 h)

theorem Fills.Unmarked.statements (hf : f.Unmarked) {slot : String} {ss : List String}
    (h : f.statements slot = .ok ss) : ∀ s ∈ ss, hasMarker s.toList = false :=
  hf slot (.block ss) (Fills.statements_eq_ok_iff.1 h)

/-! ### Texts and slots -/

theorem Sealed.inline {dangling out : Bool} {pre text : List Char} (hf : f.Unmarked)
    (hpre : Sealed dangling pre) {i : Inline} (h : sealInline dangling i = some out)
    (hi : f.renderInline i = .ok text) : Sealed out (pre ++ text) := by
  cases i with
  | text cs =>
    obtain rfl := Except.ok.inj hi
    exact hpre.text h
  | slot name =>
    obtain ⟨t, ht, rfl⟩ := Outcome.map_eq_ok_iff.1 hi
    cases dangling with
    | true => cases h
    | false =>
      obtain rfl := Option.some.inj h
      exact hpre.append_unmarked (hf.text ht)

theorem Sealed.inlines {dangling out : Bool} {pre text : List Char} (hf : f.Unmarked)
    (hpre : Sealed dangling pre) {is : List Inline} (h : is.foldlM sealInline dangling = some out)
    (his : f.renderInlines is = .ok text) : Sealed out (pre ++ text) := by
  induction is generalizing dangling pre text with
  | nil =>
    obtain rfl := Except.ok.inj his
    obtain rfl := Option.some.inj h
    rwa [List.append_nil]
  | cons i is ih =>
    rw [List.foldlM_cons] at h
    obtain ⟨mid, hmid, hrest⟩ := Option.bind_eq_some_iff.1 h
    obtain ⟨a, b, ha, hb, rfl⟩ := Fills.renderInlines_cons.1 his
    rw [← List.append_assoc]
    exact ih (hpre.inline hf hmid ha) hrest hb

/-! ### Blocks -/

theorem sealed_false_iff {cs : List Char} :
    Sealed false cs ↔ ¬Marked cs ∧ cs.getLast? ≠ some '{' := by
  rw [← unmarked_iff]
  exact ⟨fun h => ⟨h.unmarked, fun hlast => nomatch h.closed hlast⟩,
    fun h => ⟨h.1, fun hlast => absurd hlast h.2⟩⟩

theorem sealed_renderLines {indent : List Char} {c : BlockContent} (hindent : '{' ∉ indent)
    (hbase : Sealed false c.base) (hc : ¬c.Marked) : Sealed false (c.renderLines indent) := by
  obtain ⟨hmarked, hlast⟩ := marked_renderLines_iff hindent (sealed_false_iff.1 hbase).2
  exact sealed_false_iff.2 ⟨mt hmarked.1 hc, hlast⟩

/-! ### Bodies -/

/-- What the override adds to blocks has no marker in it either. -/
def Fills.UnmarkedExtensions (f : Fills) (r : Resolved) : Prop :=
  ∀ name t, r.extension? name = some t → ∀ e, f.renderInlines t.inlines = .ok e → hasMarker e = false

theorem not_marked_blockContent (hf : f.Unmarked) (hr : f.UnmarkedExtensions r) {b : Block}
    {c : BlockContent} (hbase : hasMarker c.base = false) (h : f.blockContent r b = .ok c) :
    ¬c.Marked := by
  obtain ⟨ss, hss, _, hext, hstatements⟩ := Fills.blockContent_eq_ok_iff.1 h
  rintro (hmarked | ⟨e, he, hmarked⟩ | ⟨s, hs, hmarked⟩)
  · exact unmarked_iff.1 hbase hmarked
  · split at hext
    · next t ht =>
      obtain ⟨e', he', heq⟩ := hext
      rw [heq] at he
      obtain rfl := Option.some.inj he
      exact unmarked_iff.1 (hr _ t ht _ he') hmarked
    · rw [hext] at he
      cases he
  · rw [hstatements] at hs
    obtain ⟨t, ht, rfl⟩ := List.mem_map.1 hs
    exact unmarked_iff.1 (hf.statements hss t ht) hmarked

theorem Sealed.block {dangling out : Bool} {pre text : List Char} (hf : f.Unmarked)
    (hr : f.UnmarkedExtensions r) (hpre : Sealed dangling pre) {b : Block}
    (h : sealBlock dangling b = some out) (hb : f.renderSegment r (.block b) = .ok text) :
    Sealed out (pre ++ text) := by
  obtain ⟨c, hc, rfl⟩ := Outcome.map_eq_ok_iff.1 hb
  obtain ⟨_, _, hbody, _⟩ := Fills.blockContent_eq_ok_iff.1 hc
  unfold sealBlock at h
  split at h
  · next inner hinner =>
    have hbase := (sealed_nil false).inlines hf hinner hbody
    rw [List.nil_append] at hbase
    have hunmarked := not_marked_blockContent hf hr hbase.unmarked hc
    split at h
    · split at h
      · cases h
      · next hends =>
        obtain rfl := Option.some.inj h
        rw [Bool.or_eq_true, not_or, List.contains_iff_mem, Bool.not_eq_true] at hends
        rw [hends.1] at hbase
        rw [if_pos ‹_›]
        exact hpre.append (sealed_renderLines hends.2 hbase hunmarked)
    · obtain rfl := Option.some.inj h
      rw [if_neg ‹_›]
      exact hpre.append_unmarked (unmarked_iff.2 (mt marked_renderWithin_iff.1 hunmarked))
  · cases h

theorem Sealed.segments {dangling out : Bool} {pre text : List Char} (hf : f.Unmarked)
    (hr : f.UnmarkedExtensions r) (hpre : Sealed dangling pre) {segs : List Segment}
    (h : segs.foldlM sealSegment dangling = some out) (hsegs : f.renderSegments r segs = .ok text) :
    Sealed out (pre ++ text) := by
  induction segs generalizing dangling pre text with
  | nil =>
    obtain rfl := Except.ok.inj hsegs
    obtain rfl := Option.some.inj h
    rwa [List.append_nil]
  | cons s segs ih =>
    rw [List.foldlM_cons] at h
    obtain ⟨mid, hmid, hrest⟩ := Option.bind_eq_some_iff.1 h
    obtain ⟨a, b, ha, hb, rfl⟩ := Fills.renderSegments_cons.1 hsegs
    rw [← List.append_assoc]
    refine ih ?_ hrest hb
    cases s with
    | inline i => exact hpre.inline hf hmid ha
    | block b => exact hpre.block hf hr hmid ha

/-- No marker is left in sealed texts and slots, whatever the slots are filled with. -/
theorem unmarked_of_isSealed_inlines (hf : f.Unmarked) {is : List Inline}
    (his : isSealed (is.map .inline) = true) {text : List Char} (h : f.renderInlines is = .ok text) :
    hasMarker text = false := by
  rw [isSealed, List.foldlM_map] at his
  obtain ⟨out, hout⟩ := Option.isSome_iff_exists.1 his
  exact ((sealed_nil false).inlines hf hout h).unmarked

/-- No marker is left in a sealed body, whatever it is filled with. -/
theorem unmarked_of_isSealed (hf : f.Unmarked) (hr : f.UnmarkedExtensions r) {body : Markup}
    (hbody : isSealed body.segments = true) {text : List Char} (h : f.render r body = .ok text) :
    hasMarker text = false := by
  obtain ⟨out, hout⟩ := Option.isSome_iff_exists.1 hbody
  exact ((sealed_nil false).segments hf hr hout h).unmarked

end Covenant.Artifact
