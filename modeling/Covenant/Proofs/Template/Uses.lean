import Covenant.Proofs.Template.Faults
import Covenant.Proofs.Template.Markers

/-! Where the slots that a text refers to are used. The references of a text are the markers of its
source that name a slot, all of them and each once, in their order, and the span of each is where
its marker stands. -/
namespace Covenant.Template

/-! ### Markers among tokens -/

section

variable {m : Marker} {pos : Nat} {raw cs rest : List Char} {ts : List (Spanned Token)}

/-- No marker starts within a marker. -/
theorem Marker.Written.opaque_tail {c : Char} {tail : List Char} (h : m.Written (c :: tail))
    (rest : List Char) : Opaque tail rest := by
  obtain ⟨inner, heq, hinner⟩ := h
  obtain ⟨rfl, rfl⟩ := List.cons_eq_cons.1 heq
  have hbraceless : ∀ d ∈ inner ++ ['}', '}'], d ≠ '{' := by
    rw [List.forall_mem_append]
    exact ⟨fun d hd => (hinner.braceless d hd).1, by simp⟩
  have hnext : Opaque ['{'] (inner ++ ['}', '}'] ++ rest) := by
    intro as bs heq
    cases as with
    | cons => simp
    | nil =>
      obtain ⟨d, ds, hd⟩ := List.exists_cons_of_ne_nil (l := inner ++ ['}', '}']) (by simp)
      rw [hd] at heq hbraceless
      obtain ⟨rfl, _⟩ := List.cons_eq_cons.1 (List.cons_eq_cons.1 heq).2
      exact absurd rfl (hbraceless _ List.mem_cons_self)
  exact hnext.append (opaque_of_braceless fun hmem => hbraceless _ hmem rfl)

/-- At most one marker is written at a place. -/
theorem Marker.Written.unique {m' : Marker} {raw' rest' : List Char} (h : m.Written raw)
    (h' : m'.Written raw') (heq : raw ++ rest = raw' ++ rest') (pos : Nat) :
    m = m' ∧ pos + byteLength raw = pos + byteLength raw' := by
  have hlex := h.lexFrom pos rest
  rw [heq, h'.lexFrom pos rest'] at hlex
  have hhead := (List.cons_eq_cons.1 hlex).1
  simp only [Spanned.mk.injEq, Token.marker.injEq, Span.mk.injEq, true_and] at hhead
  exact ⟨hhead.1.symm, hhead.2.symm⟩

/-- A marker that starts in a token without a fault is the token. -/
theorem Token.Source.marker_eq {value : Token} {before raw' after : List Char}
    (source : value.Source raw) (faultless : ∀ inner, value ≠ .marker (.malformed inner))
    (unmarked : (∀ m, value ≠ .marker m) → Opaque raw rest) (written : m.Written raw')
    (heq : raw ++ rest = before ++ (raw' ++ after)) (hlt : before.length < raw.length) :
    before = [] ∧ value = .marker m ∧ byteLength raw = byteLength raw' := by
  obtain ⟨tail, rfl⟩ := written.isMarker.starts
  have hmarker : ∃ m', value = .marker m' := by
    by_contra hno
    have hlength := unmarked (fun m' hm' => hno ⟨m', hm'⟩) before (tail ++ after) heq
    omega
  obtain ⟨m', rfl⟩ := hmarker
  cases source with
  | malformed => exact absurd rfl (faultless _)
  | marker written' =>
    cases before with
    | nil =>
      obtain ⟨rfl, hlength⟩ := written'.unique written heq 0
      exact ⟨rfl, rfl, by omega⟩
    | cons b before =>
      obtain ⟨tail', rfl⟩ := written'.isMarker.starts
      have hlength :=
        written'.opaque_tail rest before (tail ++ after) (List.cons_eq_cons.1 heq).2
      simp only [List.length_cons] at hlt hlength
      omega

/-- The markers among the tokens of a source without faults are those written in it, where they are
written. By induction along the tokens: what is written before the end of a token is that token. -/
theorem Tiles.marker_mem_iff (h : Tiles pos cs ts) (hts : ∀ t ∈ ts, ¬IsMalformed t) {span : Span} :
    ⟨.marker m, span⟩ ∈ ts ↔ ∃ before raw after, cs = before ++ (raw ++ after) ∧ m.Written raw ∧
      span = ⟨pos + byteLength before, pos + byteLength (before ++ raw)⟩ := by
  induction h with
  | nil =>
    constructor
    · intro hmem
      cases hmem
    · rintro ⟨before, raw, after, heq, hraw, _⟩
      obtain ⟨tail, rfl⟩ := hraw.isMarker.starts
      simp at heq
  | @cons pos t raw rest ts source hspan unmarked _ ih =>
    rw [List.forall_mem_cons] at hts
    rw [List.mem_cons, ih hts.2]
    constructor
    · rintro (rfl | ⟨before, raw', after, rfl, hraw', rfl⟩)
      · cases source with
        | marker written =>
          exact ⟨[], raw, rest, rfl, written, hspan⟩
        | malformed => exact absurd ⟨_, rfl⟩ hts.1
      · refine ⟨raw ++ before, raw', after, by simp, hraw', ?_⟩
        simp only [byteLength_append, Nat.add_assoc]
    · rintro ⟨before, raw', after, heq, hraw', rfl⟩
      by_cases hlt : before.length < raw.length
      · left
        obtain ⟨rfl, hvalue, hlength⟩ :=
          source.marker_eq (fun inner h => hts.1 ⟨inner, h⟩) unmarked hraw' heq hlt
        rw [List.nil_append, ← hlength, ← hvalue]
        exact (congrArg (Spanned.mk t.value) hspan).symm
      · right
        obtain ⟨before, rfl⟩ : raw <+: before :=
          List.prefix_of_prefix_length_le ⟨rest, heq⟩ (List.prefix_append _ _) (Nat.not_lt.1 hlt)
        rw [List.append_assoc, List.append_right_inj] at heq
        refine ⟨before, raw', after, heq, hraw', ?_⟩
        simp only [byteLength_append, Nat.add_assoc]

/-- Tokens follow each other. -/
theorem Tiles.ordered (h : Tiles pos cs ts) :
    (∀ t ∈ ts, pos ≤ t.span.start) ∧
      ts.Pairwise fun t u => t.span.start < u.span.start ∧ t.span.stop ≤ u.span.start := by
  induction h with
  | nil => exact ⟨by simp, .nil⟩
  | @cons pos t raw rest ts source span _ _ ih =>
    have hpos := byteLength_pos source.ne_nil
    refine ⟨List.forall_mem_cons.2 ⟨by rw [span], fun u hu => ?_⟩, List.pairwise_cons.2 ⟨?_, ih.2⟩⟩
    · have hstart := ih.1 u hu
      omega
    · intro u hu
      have hstart := ih.1 u hu
      rw [span]
      exact ⟨by simp only; omega, hstart⟩

end

/-! ### References -/

/-- The marker that uses a slot. -/
def Reference.marker (r : Reference) : Marker :=
  match r.kind with
  | .scalar => .slot r.name.value
  | .block => .openBlock r.name.value

/-- The marker of a reference is written in a source, where its span says. -/
def Reference.StandsIn (r : Reference) (source : List Char) : Prop :=
  ∃ before raw after, source = before ++ (raw ++ after) ∧ r.marker.Written raw ∧
    r.name.span = ⟨byteLength before, byteLength (before ++ raw)⟩

theorem Reference.mem_ofToken {r : Reference} {t : Spanned Token} :
    r ∈ Reference.ofToken t ↔ t = ⟨.marker r.marker, r.name.span⟩ := by
  obtain ⟨⟨name, at'⟩, kind⟩ := r
  obtain ⟨value, span⟩ := t
  cases kind <;> rcases value with ⟨_ | _ | _ | _⟩ | _ | _ | _ <;>
    simp [Reference.ofToken, Reference.marker, eq_comm, and_comm]

/-- The span of a reference that stands in a source is that of its marker. -/
theorem Reference.StandsIn.slice {r : Reference} {source : List Char} (h : r.StandsIn source) :
    r.marker.Written (Template.slice r.name.span.start r.name.span.stop source) := by
  obtain ⟨before, raw, after, rfl, hraw, hspan⟩ := h
  rw [hspan, ← List.append_assoc, slice_append]
  exact hraw

/-- A text refers to the slots whose markers stand in its source, with the names, kinds and places
of these markers and no others. The references are in the order of their markers, of which no two
overlap, and the source is at the place of each its marker. -/
theorem references_standing {source : List Char} {t : Markup}
    (h : Markup.ofChars source = .ok t) :
    (∀ r, r ∈ t.references ↔ r.StandsIn source) ∧
    (t.references.Pairwise fun r s => r.name.span.start < s.name.span.start ∧
      r.name.span.stop ≤ s.name.span.start) ∧
    ∀ r ∈ t.references,
      r.marker.Written (slice r.name.span.start r.name.span.stop source) := by
  have htiles : Tiles 0 source (lex source) := tiles_lexFrom 0 source
  obtain ⟨segs, hsegs, _⟩ := Outcome.map_eq_ok_iff.1 h
  have hsound : ∀ t ∈ lex source, ¬IsMalformed t := (exists_ofTokens_iff.1 ⟨segs, hsegs⟩).1
  have hmem : ∀ r, r ∈ t.references ↔ r.StandsIn source := by
    intro r
    rw [references_of_ofChars h, uses, List.mem_flatMap]
    simp only [Reference.mem_ofToken, exists_eq_right]
    rw [htiles.marker_mem_iff hsound]
    simp only [Nat.zero_add]
    rfl
  refine ⟨hmem, ?_, fun r hr => ((hmem r).1 hr).slice⟩
  rw [references_of_ofChars h, uses, List.pairwise_flatMap]
  refine ⟨fun t _ => ?_, htiles.ordered.2.imp fun {t u} htu r hr s hs => ?_⟩
  · unfold Reference.ofToken
    split <;> simp
  · rw [Reference.mem_ofToken] at hr hs
    subst hr hs
    exact htu

/-! A slot that is used twice, the second time inside a block. -/

def twice : List Char :=
  "\u03c0\x7b\x7ba\x7d\x7d ".toList ++
    "\x7b\x7b#block b\x7d\x7d\x7b\x7b  a \x7d\x7d\x7b\x7b/block\x7d\x7d".toList

def twiceMarkup : Markup :=
  ⟨twice, [.inline (.text "\u03c0".toList), .inline (.slot ⟨"a", ⟨2, 7⟩⟩),
    .inline (.text " ".toList), .block ⟨⟨"b", ⟨8, 20⟩⟩, [], false, [.slot ⟨"a", ⟨20, 28⟩⟩]⟩]⟩

theorem twice_read : Markup.ofChars twice = .ok twiceMarkup := by decide +kernel

theorem twice_references :
    Markup.ofChars twice = .ok twiceMarkup ∧
      twiceMarkup.references =
        [⟨⟨"a", ⟨2, 7⟩⟩, .scalar⟩, ⟨⟨"b", ⟨8, 20⟩⟩, .block⟩, ⟨⟨"a", ⟨20, 28⟩⟩, .scalar⟩] ∧
      ∀ r, r ∈ twiceMarkup.references ↔ r.StandsIn twice :=
  ⟨twice_read, rfl, (references_standing twice_read).1⟩

end Covenant.Template
