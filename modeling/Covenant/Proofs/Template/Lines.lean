import Covenant.Proofs.Template.Spelling

/-! What the segments next to a block show of the lines its markers are on, against what
the source says. The content of a block always shows it. The segment after it takes blanks
before another marker for the end of a line, and the segments before it do not show the
start of a line that comes directly below a standalone block, because the newline there has
been cut. -/
namespace Covenant.Template

/-! ### Contents -/

theorem Inline.Spell.head {is : List Inline} {cs : List Char} (h : Inline.Spell is cs)
    (notText : ∀ ds tail, is ≠ .text ds :: tail) : cs = [] ∨ ∃ tail, cs = '{' :: tail := by
  cases h with
  | nil => exact .inl rfl
  | text => exact absurd rfl (notText _ _)
  | slot name marker rest =>
    obtain ⟨tail, rfl⟩ := marker.starts
    exact .inr ⟨_, rfl⟩

theorem Inline.Spell.ne_nil {i : Inline} {is : List Inline} {cs : List Char}
    (h : Inline.Spell (i :: is) cs) : cs ≠ [] := by
  cases h with
  | text nonempty rest => simp [nonempty]
  | slot name marker rest =>
    obtain ⟨tail, rfl⟩ := marker.starts
    simp

/-- By induction along the content: what comes before its last text does not count, since a
line with a marker on it is not blank. -/
theorem cutLastLine_isSome_iff {is : List Inline} {cs : List Char} (h : Inline.Spell is cs)
    (apart : Inline.Apart is) :
    (cutLastLine is).isSome = true ↔ '\n' ∈ cs ∧ isSpacing (lastLine cs) = true := by
  induction h with
  | nil => simp [cutLastLine]
  | @text cs ds is _ rest ih =>
    cases is with
    | nil =>
      cases rest with
      | nil =>
        rw [List.append_nil]
        by_cases hcut : hasNewline cs = true ∧ isSpacing (lastLine cs) = true
        · simp [cutLastLine, hcut, hasNewline_iff.1 hcut.1]
        · rw [hasNewline_iff] at hcut
          simp [cutLastLine, hasNewline_iff, hcut]
    | cons j is =>
      rw [cutLastLine, Option.isSome_map, ih apart.2]
      by_cases hn : '\n' ∈ ds
      · rw [lastLine_of_newline hn]
        simp [hn]
      · rcases rest.head apart.1 with hnil | ⟨tail, rfl⟩
        · exact absurd hnil rest.ne_nil
        · have htail : '\n' ∉ tail := fun hmem => hn (List.mem_cons_of_mem _ hmem)
          have hline : isSpacing (lastLine (cs ++ '{' :: tail)) = false :=
            isSpacing_lastLine_eq_false rfl (by decide) htail
          simp [hn, hline]
  | @slot name raw ds is marker rest ih =>
    have hraw := marker.newline_not_mem
    cases is with
    | nil =>
      cases rest with
      | nil => simp [cutLastLine, hraw]
    | cons j is =>
      rw [cutLastLine, Option.isSome_map, ih apart]
      by_cases hn : '\n' ∈ ds
      · rw [lastLine_of_newline hn]
        simp [hn]
      · simp [hn, hraw]

theorem not_isSpacing_firstLine_brace (tail : List Char) :
    isSpacing (firstLine ('{' :: tail)) = false := by
  simp [firstLine, isSpacing, Text.isSpaceOrTab]

theorem cutFirstLine_isSome_iff {is : List Inline} {cs : List Char} (h : Inline.Spell is cs)
    (apart : Inline.Apart is) :
    (cutFirstLine is).isSome = true ↔ '\n' ∈ cs ∧ isSpacing (firstLine cs) = true := by
  cases h with
  | nil => simp [cutFirstLine]
  | slot name marker rest =>
    obtain ⟨tail, rfl⟩ := marker.starts
    rw [List.cons_append, not_isSpacing_firstLine_brace]
    simp [cutFirstLine]
  | @text cs ds is _ rest =>
    rw [cutFirstLine, Option.isSome_map, dropBlankLine_isSome_iff]
    by_cases hn : '\n' ∈ cs
    · simp [hn, firstLine_of_newline hn]
    · rw [firstLine_of_not_newline hn, isSpacing_append]
      rcases rest.head apart.1 with rfl | ⟨tail, rfl⟩
      · simp [hn]
      · simp [hn, not_isSpacing_firstLine_brace]

/-- Cutting the last line leaves the first one in place. -/
theorem cutFirstLine_cutLastLine {is js : List Inline} (h : cutLastLine is = some js) :
    (cutFirstLine js).isSome = (cutFirstLine is).isSome := by
  unfold cutLastLine at h
  split at h
  · cases h
  · next cs =>
    split at h
    · next hcut =>
      obtain rfl := Option.some.inj h
      rw [Bool.and_eq_true, hasNewline_iff] at hcut
      obtain ⟨as, bs, rfl, hbs⟩ := exists_last_newline hcut.1
      have hfirst : firstLine (as ++ '\n' :: bs) = firstLine (as ++ ['\n']) := by
        rw [← List.singleton_append, ← List.append_assoc, firstLine_of_newline (by simp)]
      rw [cutFirstLine, cutFirstLine, Option.isSome_map, Option.isSome_map,
        beforeLastLine_newline hbs, Bool.eq_iff_iff, dropBlankLine_isSome_iff,
        dropBlankLine_isSome_iff, hfirst]
      simp
    · cases h
  · cases h
  · next i j rest =>
    obtain ⟨js, _, rfl⟩ := Option.map_eq_some_iff.1 h
    cases i with
    | text cs => simp [cutFirstLine]
    | slot name => rfl

theorem innerLines_isSome_iff {is : List Inline} {cs : List Char} (h : Inline.Spell is cs)
    (apart : Inline.Apart is) :
    (innerLines is).isSome = true ↔
      '\n' ∈ cs ∧ isSpacing (firstLine cs) = true ∧ isSpacing (lastLine cs) = true := by
  have hlast := cutLastLine_isSome_iff h apart
  have hfirst := cutFirstLine_isSome_iff h apart
  unfold innerLines
  cases hcut : cutLastLine is with
  | none =>
    rw [hcut] at hlast
    constructor
    · intro hnone
      cases hnone
    · rintro ⟨hn, _, hl⟩
      have hsome := hlast.2 ⟨hn, hl⟩
      cases hsome
  | some js =>
    rw [hcut] at hlast
    obtain ⟨hn, hl⟩ := hlast.1 rfl
    rw [← cutFirstLine_cutLastLine hcut] at hfirst
    cases hcut' : cutFirstLine js with
    | none =>
      rw [hcut'] at hfirst
      constructor
      · intro hnone
        simp [hcut'] at hnone
      · rintro ⟨_, hf, _⟩
        have hsome := hfirst.2 ⟨hn, hf⟩
        cases hsome
    | some ks =>
      rw [hcut'] at hfirst
      constructor
      · intro _
        exact ⟨hn, (hfirst.1 rfl).2, hl⟩
      · intro _
        simp [hcut']

/-! ### Ends of lines -/

theorem Segment.Spell.head {pos : Nat} {segs : List Segment} {os : List Occurrence}
    {cs : List Char} (h : Segment.Spell pos segs os cs)
    (notText : ∀ ds tail, segs ≠ .inline (.text ds) :: tail) :
    cs = [] ∨ ∃ tail, cs = '{' :: '{' :: tail := by
  cases h with
  | nil => exact .inl rfl
  | text => exact absurd rfl (notText _ _)
  | slot name marker rest =>
    obtain ⟨tail, rfl⟩ := marker.starts
    exact .inr ⟨_, rfl⟩
  | block _ _ marker =>
    obtain ⟨tail, rfl⟩ := marker.starts
    exact .inr ⟨_, by simp only [List.cons_append]; rfl⟩

/-- Nothing is before a marker that comes at once, so the line goes on. -/
theorem not_endsLine_brace (tail : List Char) : ¬(isSpacing (firstLine ('{' :: tail)) = true ∨
    ∃ ws rest, ws ≠ [] ∧ isSpacing ws = true ∧ '{' :: tail = ws ++ '{' :: '{' :: rest) := by
  rintro (hline | ⟨ws, rest, hne, hws, heq⟩)
  · rw [not_isSpacing_firstLine_brace] at hline
    cases hline
  · obtain ⟨w, ws, rfl⟩ := List.exists_cons_of_ne_nil hne
    cases heq
    cases hws

theorem endsLine_text_iff {cs ds : List Char} {segs : List Segment} (nonempty : cs ≠ [])
    (unmarked : Opaque cs ds) (head : ds = [] ∨ ∃ tail, ds = '{' :: '{' :: tail) :
    endsLine (.inline (.text cs) :: segs) = true ↔ isSpacing (firstLine (cs ++ ds)) = true ∨
      ∃ ws rest, ws ≠ [] ∧ isSpacing ws = true ∧ cs ++ ds = ws ++ '{' :: '{' :: rest := by
  rw [endsLine, Bool.or_eq_true, dropBlankLine_isSome_iff]
  constructor
  · rintro (hcs | ⟨hn, hf⟩)
    · rcases head with rfl | ⟨tail, rfl⟩
      · left
        rw [firstLine_of_not_newline (newline_not_mem_of_isSpacing hcs), isSpacing_append]
        exact ⟨hcs, rfl⟩
      · right
        exact ⟨cs, tail, nonempty, hcs, rfl⟩
    · left
      rwa [firstLine_of_newline hn]
  · rintro (hf | ⟨ws, rest, hne, hws, heq⟩)
    · by_cases hn : '\n' ∈ cs
      · rw [firstLine_of_newline hn] at hf
        exact .inr ⟨hn, hf⟩
      · rw [firstLine_of_not_newline hn, isSpacing_append] at hf
        exact .inl hf.1
    · left
      obtain ⟨ws', rfl⟩ := List.prefix_of_prefix_length_le ⟨_, heq⟩ (List.prefix_append ws _)
        (unmarked ws rest heq)
      exact (isSpacing_append.1 hws).1

/-- A closing marker counts as ending its line when only blanks are before the next newline
or the end, and also when they are before a marker. -/
theorem endsLine_iff {pos : Nat} {segs : List Segment} {os : List Occurrence} {cs : List Char}
    (h : Segment.Spell pos segs os cs) (apart : Segment.Apart segs) :
    endsLine segs = true ↔ isSpacing (firstLine cs) = true ∨
      ∃ ws rest, ws ≠ [] ∧ isSpacing ws = true ∧ cs = ws ++ '{' :: '{' :: rest := by
  cases h with
  | nil => simp [endsLine, firstLine, isSpacing]
  | slot name marker rest =>
    obtain ⟨tail, rfl⟩ := marker.starts
    exact iff_of_false (by simp [endsLine]) (not_endsLine_brace _)
  | block _ _ marker =>
    obtain ⟨tail, rfl⟩ := marker.starts
    exact iff_of_false (by simp [endsLine]) (not_endsLine_brace _)
  | text nonempty unmarked rest => exact endsLine_text_iff nonempty unmarked (rest.head apart.1)

/-! ### Beginnings of lines -/

variable {source : List Char}

/-- A newline with blanks around it, and nothing else. -/
def IsLineBreak (gap : List Char) : Prop :=
  ∃ ws ws', isSpacing ws = true ∧ isSpacing ws' = true ∧ gap = ws ++ '\n' :: ws'

/-- The block before, with its mark and the span of its closing marker, is standalone, and
only a line break has come after it. -/
def Crowded (prev : Option (Bool × Span)) (pre : List Char) : Prop :=
  ∃ close, prev = some (true, close) ∧ IsLineBreak (dropBytes close.stop pre)

/-- The segments settled so far show whether a line starts here, except below a standalone
block. -/
def ShowsStart (before : List Segment) (pre : List Char) (prev : Option (Bool × Span)) : Prop :=
  ∀ indent, indentAfter before = some indent ↔
    indent = lastLine pre ∧ isSpacing (lastLine pre) = true ∧ ¬Crowded prev pre

/-- The block before has been closed. -/
def Closed (prev : Option (Bool × Span)) (pre : List Char) : Prop :=
  ∀ mark close, prev = some (mark, close) → ∃ p q, pre = p ++ q ∧ byteLength p = close.stop

/-- A place where a text may come next: the start of the source, or the end of a marker. -/
inductive Boundary : List Segment → Bool → List Char → Option (Bool × Span) → Prop
  | start : Boundary [] false [] none
  | slot (name : Spanned String) (before : List Segment) {pre raw : List Char}
      {prev : Option (Bool × Span)} (closed : Closed prev pre) (marker : IsMarker raw) :
      Boundary (.inline (.slot name) :: before) false (pre ++ raw) prev
  | block (b : Block) (before : List Segment) {pre raw : List Char} {close : Span}
      (marker : IsMarker raw) (stop : close.stop = byteLength (pre ++ raw)) :
      Boundary (.block b :: before) b.standalone (pre ++ raw) (some (b.standalone, close))

theorem lastLine_marker {pre raw cs : List Char} (h : IsMarker raw) (hcs : '\n' ∉ cs) :
    isSpacing (lastLine (pre ++ raw ++ cs)) = false := by
  obtain ⟨front, rfl⟩ := h.ends
  have hline : isSpacing (lastLine (pre ++ front ++ '}' :: cs)) = false :=
    isSpacing_lastLine_eq_false rfl (by decide) hcs
  simpa using hline

theorem not_isLineBreak_of_brace {as bs : List Char} : ¬IsLineBreak (as ++ '{' :: bs) := by
  rintro ⟨ws, ws', hws, hws', heq⟩
  have hmem : '{' ∈ ws ++ '\n' :: ws' := by
    rw [← heq]
    simp
  rcases List.mem_append.1 hmem with hmem | hmem
  · cases List.all_eq_true.1 hws _ hmem
  · rcases List.mem_cons.1 hmem with heq | hmem
    · exact absurd heq (by decide)
    · cases List.all_eq_true.1 hws' _ hmem

theorem isLineBreak_iff {ws rest : List Char} (hws : isSpacing ws = true) :
    IsLineBreak (ws ++ '\n' :: rest) ↔ isSpacing rest = true := by
  constructor
  · rintro ⟨us, us', hus, hus', heq⟩
    have hdrop : dropBlankLine (ws ++ '\n' :: rest) = some rest := dropBlankLine_append hws
    rw [heq, dropBlankLine_append hus] at hdrop
    rwa [← Option.some.inj hdrop]
  · intro hrest
    exact ⟨ws, rest, hws, hrest, rfl⟩

/-- A slot after the block before: more than a line break has come. -/
theorem Closed.not_crowded {prev : Option (Bool × Span)} {pre raw cs : List Char}
    (h : Closed prev pre) (marker : IsMarker raw) : ¬Crowded prev (pre ++ raw ++ cs) := by
  rintro ⟨close, hprev, hbreak⟩
  obtain ⟨p, q, rfl, hp⟩ := h true close hprev
  obtain ⟨tail, rfl⟩ := marker.starts
  rw [← hp, List.append_assoc, List.append_assoc, dropBytes_append, List.cons_append] at hbreak
  exact not_isLineBreak_of_brace hbreak

theorem Closed.append {prev : Option (Bool × Span)} {pre : List Char} (h : Closed prev pre)
    (cs : List Char) : Closed prev (pre ++ cs) := by
  intro mark close hprev
  obtain ⟨p, q, rfl, hp⟩ := h mark close hprev
  exact ⟨p, q ++ cs, by rw [List.append_assoc], hp⟩

theorem not_crowded_none {pre : List Char} : ¬Crowded none pre := by
  rintro ⟨_, hprev, _⟩
  cases hprev

theorem not_crowded_unmarked {close : Span} {pre : List Char} :
    ¬Crowded (some (false, close)) pre := by
  rintro ⟨_, hprev, _⟩
  cases hprev

/-- Right at a boundary only the start of the source starts a line. -/
theorem Boundary.showsStart {before : List Segment} {cut : Bool} {pre : List Char}
    {prev : Option (Bool × Span)} (h : Boundary before cut pre prev) :
    ShowsStart before pre prev := by
  intro indent
  cases h with
  | start => simp [indentAfter, not_crowded_none, lastLine, isSpacing, eq_comm]
  | @slot name before pre raw prev closed marker =>
    have hline : isSpacing (lastLine (pre ++ raw ++ [])) = false :=
      lastLine_marker marker List.not_mem_nil
    rw [List.append_nil] at hline
    simp [indentAfter, hline]
  | @block b before pre raw close marker stop =>
    have hline : isSpacing (lastLine (pre ++ raw ++ [])) = false :=
      lastLine_marker marker List.not_mem_nil
    rw [List.append_nil] at hline
    simp [indentAfter, hline]

/-- The indentation that a text after a segment shows. -/
theorem indentAfter_text_cons {cs : List Char} {seg : Segment} {before : List Segment}
    {indent : List Char} :
    indentAfter (.inline (.text cs) :: seg :: before) = some indent ↔
      '\n' ∈ cs ∧ indent = lastLine cs ∧ isSpacing (lastLine cs) = true := by
  rw [indentAfter]
  by_cases hn : '\n' ∈ cs
  · rw [if_pos (hasNewline_iff.2 hn)]
    by_cases hline : isSpacing (lastLine cs) = true
    · simp [hn, hline, eq_comm]
    · simp [hline]
  · rw [if_neg (mt hasNewline_iff.1 hn)]
    simp [hn]

/-- A text at the start of the source starts a line, by itself or after its last newline. -/
theorem showsStart_text_start (cs : List Char) :
    ShowsStart [.inline (.text cs)] cs none := by
  intro indent
  rw [indentAfter]
  by_cases hn : '\n' ∈ cs
  · rw [if_pos (hasNewline_iff.2 hn)]
    by_cases hline : isSpacing (lastLine cs) = true
    · simp [hline, not_crowded_none, eq_comm]
    · simp [hline]
  · have hline : lastLine cs = cs := by
      have happend : lastLine ([] ++ cs) = lastLine [] ++ cs := lastLine_of_not_newline hn
      rwa [List.nil_append] at happend
    rw [if_neg (mt hasNewline_iff.1 hn), hline]
    by_cases hcs : isSpacing cs = true
    · simp [hcs, not_crowded_none, eq_comm]
    · simp [hcs]

/-- In an uncut text after a marker, only a newline starts a line. -/
theorem showsStart_text_marker {seg : Segment} {before : List Segment} {pre raw cs : List Char}
    {prev : Option (Bool × Span)} (marker : IsMarker raw)
    (hcrowded : ¬Crowded prev (pre ++ raw ++ cs)) :
    ShowsStart (.inline (.text cs) :: seg :: before) (pre ++ raw ++ cs) prev := by
  intro indent
  rw [indentAfter_text_cons]
  by_cases hn : '\n' ∈ cs
  · simp only [lastLine_of_newline hn, hn, hcrowded, not_false_eq_true, and_true, true_and]
  · simp only [hn, lastLine_marker marker hn, false_and, and_false, Bool.false_eq_true]

theorem crowded_append_iff {pre cs : List Char} {close : Span}
    (stop : close.stop = byteLength pre) :
    Crowded (some (true, close)) (pre ++ cs) ↔ IsLineBreak cs := by
  simp only [Crowded, Option.some.injEq, Prod.mk.injEq, true_and, exists_eq_left', stop,
    dropBytes_append]

/-- In blanks below a standalone block and before a marker, no line starts. -/
theorem showsStart_text_blank {seg : Segment} {before : List Segment} {pre raw cs : List Char}
    {prev : Option (Bool × Span)} (marker : IsMarker raw) (hcs : isSpacing cs = true) :
    ShowsStart (.inline (.text []) :: seg :: before) (pre ++ raw ++ cs) prev := by
  intro indent
  have hline : isSpacing (lastLine (pre ++ raw ++ cs)) = false :=
    lastLine_marker marker (newline_not_mem_of_isSpacing hcs)
  rw [indentAfter_text_cons]
  simp only [List.not_mem_nil, hline, false_and, and_false, Bool.false_eq_true]

/-- Below a standalone block the line break is cut away, so that a line which starts directly
after it is not shown. -/
theorem showsStart_text_cut {seg : Segment} {before : List Segment} {pre ws rest : List Char}
    {close : Span} (stop : close.stop = byteLength pre) (hws : isSpacing ws = true) :
    ShowsStart (.inline (.text rest) :: seg :: before) (pre ++ (ws ++ '\n' :: rest))
      (some (true, close)) := by
  intro indent
  have hcat : pre ++ (ws ++ '\n' :: rest) = (pre ++ ws ++ ['\n']) ++ rest := by simp
  rw [indentAfter_text_cons, crowded_append_iff stop, isLineBreak_iff hws, hcat]
  by_cases hn : '\n' ∈ rest
  · have hrest : ¬isSpacing rest = true := fun h => newline_not_mem_of_isSpacing h hn
    rw [lastLine_of_newline hn]
    simp [hn, hrest]
  · have hline : lastLine ((pre ++ ws ++ ['\n']) ++ rest) = rest := by
      rw [List.append_assoc _ ['\n'], List.singleton_append, lastLine_newline hn]
    rw [hline]
    simp only [hn, false_and, false_iff]
    rintro ⟨_, hrest, hno⟩
    exact hno hrest

/-- By cases on the boundary. After a standalone block the text is cut, to nothing where only
blanks come before the next marker. -/
theorem Boundary.showsStart_text {before : List Segment} {cut : Bool} {pre cs : List Char}
    {prev : Option (Bool × Span)} (h : Boundary before cut pre prev)
    (hcut : cut = true → isSpacing cs = true ∨ (dropBlankLine cs).isSome = true) :
    ShowsStart (.inline (.text (if cut then cutMarkerLine cs else cs)) :: before) (pre ++ cs)
      prev := by
  cases h with
  | start => exact showsStart_text_start cs
  | slot name before closed marker =>
    exact showsStart_text_marker marker (closed.not_crowded marker)
  | @block b before pre raw close marker stop =>
    cases hb : b.standalone with
    | false => exact showsStart_text_marker marker not_crowded_unmarked
    | true =>
      rw [hb] at hcut
      rw [if_pos rfl, cutMarkerLine]
      cases hdrop : dropBlankLine cs with
      | none =>
        rw [hdrop] at hcut
        exact showsStart_text_blank marker ((hcut rfl).resolve_right (by simp))
      | some rest =>
        obtain ⟨ws, hws, rfl⟩ := dropBlankLine_eq_some_iff.1 hdrop
        exact showsStart_text_cut stop hws

end Covenant.Template
