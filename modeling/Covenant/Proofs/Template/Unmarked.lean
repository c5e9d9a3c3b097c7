import Covenant.Proofs.Artifact.Compose
import Covenant.Proofs.Artifact.Marker
import Covenant.Proofs.Template.Registration
import Covenant.Proofs.Template.Standalone

/-! Template texts hold no markers. Wherever two opening braces meet in a source, a marker
is read, so neither a text outside blocks nor one inside a block has them, also once
texts have been joined and lines cut. A standalone block keeps only spacing as its
indentation, and its content ends with a line. -/
namespace Covenant.Template

open Artifact (hasMarker hasMarker_append unmarked_iff unmarked_of_isInfix
  unmarked_of_not_mem)

def Inline.Unmarked : Inline → Prop
  | .text cs => hasMarker cs = false
  | .slot _ => True

/-! ### Segments -/

/-- A block with no marker in its texts. One that is standalone is set under spacing, and its
content is empty or ends with a line. -/
structure Block.Clear (b : Block) : Prop where
  body : ∀ i ∈ b.body, i.Unmarked
  indent : b.standalone = true → isSpacing b.indent = true
  ends : b.standalone = true → ∀ i ∈ b.body.getLast?, ∃ cs, i = .text (cs ++ ['\n'])

def Segment.Clear : Segment → Prop
  | .inline i => i.Unmarked
  | .block b => b.Clear

/-- No marker is in a text that the rest of the source is opaque after. -/
theorem Opaque.unmarked {cs ds : List Char} (h : Opaque cs ds) : hasMarker cs = false := by
  rw [unmarked_iff]
  rintro ⟨as, bs, heq⟩
  have hlength := h as (bs ++ ds) (by rw [← heq]; simp)
  have htotal : cs.length = as.length + 2 + bs.length := by
    rw [← heq, List.length_append, List.length_append]
    rfl
  omega

theorem Inline.Written.unmarked {after cs : List Char} {pos : Nat} {is : List Inline}
    (h : Inline.Written after pos is cs) : ∀ i ∈ is, i.Unmarked := by
  induction h with
  | nil => simp
  | text _ unmarked _ ih => exact List.forall_mem_cons.2 ⟨unmarked.unmarked, ih⟩
  | slot _ _ ih => exact List.forall_mem_cons.2 ⟨trivial, ih⟩

theorem Segment.Written.unsettled {pos : Nat} {segs : List Segment} {os : List Occurrence}
    {cs : List Char} (h : Segment.Written pos segs os cs) :
    ∀ b, .block b ∈ segs → b.standalone = false := by
  induction h with
  | nil => simp
  | inline _ _ ih => simpa using ih
  | block _ _ _ _ ih =>
    intro b hb
    rcases List.mem_cons.1 hb with heq | hb
    · cases heq
      rfl
    · exact ih b hb

/-- Segments as they are written in a source. -/
theorem Segment.Written.clear {pos : Nat} {segs : List Segment} {os : List Occurrence}
    {cs : List Char} (h : Segment.Written pos segs os cs) : ∀ s ∈ segs, s.Clear := by
  induction h with
  | nil => simp
  | inline single _ ih =>
    exact List.forall_mem_cons.2 ⟨single.unmarked _ List.mem_cons_self, ih⟩
  | block _ content _ _ ih =>
    exact List.forall_mem_cons.2 ⟨⟨content.unmarked, by simp, by simp⟩, ih⟩

/-! ### Settling -/

theorem isSpacing_indentAfter {before : List Segment} {indent : List Char}
    (h : indentAfter before = some indent) : isSpacing indent = true := by
  unfold indentAfter at h
  split at h
  · obtain rfl := Option.some.inj h
    rfl
  · split at h
    · split at h
      · next hspacing =>
        obtain rfl := Option.some.inj h
        exact hspacing
      · cases h
    · split at h
      · next hspacing =>
        obtain rfl := Option.some.inj h
        rw [Bool.and_eq_true] at hspacing
        exact hspacing.2
      · cases h
  · cases h

/-- A content without its last line has no marker, and ends with the newline before that line. -/
theorem cutLastLine_eq {is js : List Inline} (h : cutLastLine is = some js)
    (his : ∀ i ∈ is, i.Unmarked) : (∀ i ∈ js, i.Unmarked) ∧
      ∃ init cs, js = init ++ [.text (cs ++ ['\n'])] := by
  fun_induction cutLastLine is generalizing js with
  | case1 => cases h
  | case2 cs hcs =>
    obtain rfl := Option.some.inj h
    rw [Bool.and_eq_true, hasNewline_iff] at hcs
    obtain ⟨as, bs, rfl, hbs⟩ := exists_last_newline hcs.1
    rw [beforeLastLine_newline hbs]
    refine ⟨List.forall_mem_singleton.2 ?_, [], as, rfl⟩
    exact unmarked_of_isInfix (his _ List.mem_cons_self) ⟨[], bs, by simp⟩
  | case3 => cases h
  | case4 => cases h
  | case5 i j rest ih =>
    obtain ⟨ks, hks, rfl⟩ := Option.map_eq_some_iff.1 h
    rw [List.forall_mem_cons] at his
    obtain ⟨hunmarked, init, cs, rfl⟩ := ih hks his.2
    exact ⟨List.forall_mem_cons.2 ⟨his.1, hunmarked⟩, i :: init, cs, rfl⟩

/-- What is between the marker lines of a block has no marker, and is empty or ends with a line. -/
theorem innerLines_clear {is js : List Inline} (h : innerLines is = some js)
    (his : ∀ i ∈ is, i.Unmarked) :
    (∀ i ∈ js, i.Unmarked) ∧ ∀ i ∈ js.getLast?, ∃ cs, i = .text (cs ++ ['\n']) := by
  simp only [innerLines, Option.bind_eq_bind, Option.bind_eq_some_iff] at h
  obtain ⟨mid, hmid, cut, hcut, heq⟩ := h
  obtain rfl := Option.some.inj heq
  obtain ⟨hunmarked, init, cs, hlast⟩ := cutLastLine_eq hmid his
  unfold cutFirstLine at hcut
  split at hcut
  · next first rest =>
    obtain ⟨ds, hds, rfl⟩ := Option.map_eq_some_iff.1 hcut
    obtain ⟨ws, _, rfl⟩ := dropBlankLine_eq_some_iff.1 hds
    rw [List.forall_mem_cons] at hunmarked
    refine ⟨fun i hi => ?_, ?_⟩
    · rcases List.mem_cons.1 (List.mem_filter.1 hi).1 with rfl | hi
      · exact unmarked_of_isInfix hunmarked.1 ⟨ws ++ ['\n'], [], by simp⟩
      · exact hunmarked.2 i hi
    · have hkept : ∀ as, [Inline.text (as ++ ['\n'])].filter (fun i => !i.isEmpty) =
          [.text (as ++ ['\n'])] := fun as => by cases as <;> rfl
      intro i hi
      cases init with
      | nil =>
        obtain ⟨htext, rfl⟩ := List.cons_eq_cons.1 hlast
        have htext : ws ++ '\n' :: ds = cs ++ ['\n'] := Inline.text.inj htext
        rcases List.eq_nil_or_concat ds with rfl | ⟨es, d, rfl⟩
        · cases hi
        · rw [List.concat_eq_append, ← List.cons_append, ← List.append_assoc] at htext
          obtain rfl := List.singleton_inj.1 (List.append_inj' htext rfl).2
          rw [List.concat_eq_append, hkept] at hi
          exact ⟨es, (Option.some.inj hi).symm⟩
      | cons _ init =>
        obtain rfl : rest = init ++ [.text (cs ++ ['\n'])] := (List.cons_eq_cons.1 hlast).2
        rw [← List.cons_append, List.filter_append, hkept, List.getLast?_concat] at hi
        exact ⟨cs, (Option.some.inj hi).symm⟩
  · cases hcut

theorem clear_cutIndent {indent : List Char} {before : List Segment} (h : ∀ s ∈ before, s.Clear) :
    ∀ s ∈ cutIndent indent before, s.Clear := by
  unfold cutIndent
  split
  · rw [List.forall_mem_cons] at h ⊢
    exact ⟨unmarked_of_isInfix h.1 (List.take_prefix _ _).isInfix, h.2⟩
  · exact h

theorem cutMarkerLine_isInfix (cs : List Char) : cutMarkerLine cs <:+: cs := by
  unfold cutMarkerLine
  cases h : dropBlankLine cs with
  | none => exact List.nil_infix
  | some ds =>
    obtain ⟨ws, _, rfl⟩ := dropBlankLine_eq_some_iff.1 h
    exact ⟨ws ++ ['\n'], [], by simp⟩

theorem clear_settle {before segs : List Segment} {cut : Bool} (hbefore : ∀ s ∈ before, s.Clear)
    (hsegs : ∀ s ∈ segs, s.Clear) : ∀ s ∈ settle before cut segs, s.Clear := by
  fun_induction settle before cut segs with
  | case1 => simpa using hbefore
  | case2 before _ b after b' hb' ih =>
    rw [List.forall_mem_cons] at hsegs
    obtain ⟨indent, body, hindent, _, hbody, rfl⟩ := standalone?_eq_some_iff.1 hb'
    obtain ⟨hunmarked, hends⟩ := innerLines_clear hbody hsegs.1.body
    have hclear :
        Segment.Clear (.block { b with indent := indent, standalone := true, body := body }) :=
      ⟨hunmarked, fun _ => isSpacing_indentAfter hindent, fun _ => hends⟩
    exact ih (List.forall_mem_cons.2 ⟨hclear, clear_cutIndent hbefore⟩) hsegs.2
  | case3 before _ b after _ ih =>
    rw [List.forall_mem_cons] at hsegs
    exact ih (List.forall_mem_cons.2 ⟨hsegs.1, hbefore⟩) hsegs.2
  | case4 before cut cs after ih =>
    rw [List.forall_mem_cons] at hsegs
    refine ih (List.forall_mem_cons.2 ⟨?_, hbefore⟩) hsegs.2
    split
    · exact unmarked_of_isInfix hsegs.1 (cutMarkerLine_isInfix cs)
    · exact hsegs.1
  | case5 before cut name after ih =>
    rw [List.forall_mem_cons] at hsegs
    exact ih (List.forall_mem_cons.2 ⟨hsegs.1, hbefore⟩) hsegs.2

/-- The segments of a template text are clear. -/
theorem clear_of_ofChars {source : List Char} {t : Markup} (h : Markup.ofChars source = .ok t) :
    ∀ s ∈ t.segments, s.Clear := by
  obtain ⟨segs, hsegs, rfl⟩ := Markup.ofChars_eq_ok_iff.1 h
  have hwritten := (Segment.written_of_ofChars hsegs).1
  intro s hs
  exact clear_settle (by simp) hwritten.clear s (List.mem_filter.1 hs).1

/-! ### Templates -/

/-- The texts of a resolved template are clear, its bodies and what the override adds. -/
structure Resolved.Clear (r : Resolved) : Prop where
  bodies : ∀ role, ∀ s ∈ (r.body role).segments, s.Clear
  extensions : ∀ slot t, r.extension? slot = some t → ∀ i ∈ t.inlines, i.Unmarked

theorem Library.Loaded.clear {l : Library} (hl : l.Loaded) {contractType jurisdiction : String}
    {r : Resolved} (h : l.resolve contractType jurisdiction = .ok r) : r.Clear := by
  constructor
  · intro role
    obtain ⟨source, hsource⟩ := hl.source_of_body h role
    exact clear_of_ofChars hsource
  · intro slot t ht i hi
    obtain ⟨source, hsource, _⟩ := hl.source_of_extension h ht
    obtain ⟨s, hs, hmem⟩ := List.mem_flatMap.1 hi
    have hclear := clear_of_ofChars hsource s hs
    cases s with
    | inline j =>
      rw [List.mem_singleton.1 hmem]
      exact hclear
    | block b => cases hmem

end Covenant.Template
