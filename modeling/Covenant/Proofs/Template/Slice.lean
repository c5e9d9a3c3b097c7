import Covenant.Template.Standalone

/-! Slices of a source, by bytes, and the lines at their ends. -/
namespace Covenant.Template

/-- The characters before a place. -/
def takeBytes : Nat → List Char → List Char
  | _, [] => []
  | n, c :: cs => if c.utf8Size ≤ n then c :: takeBytes (n - c.utf8Size) cs else []

/-- The characters from a place on. -/
def dropBytes : Nat → List Char → List Char
  | _, [] => []
  | n, c :: cs => if c.utf8Size ≤ n then dropBytes (n - c.utf8Size) cs else c :: cs

/-- The characters between two places. -/
def slice (start stop : Nat) (source : List Char) : List Char :=
  dropBytes start (takeBytes stop source)

theorem takeBytes_append (as bs : List Char) : takeBytes (byteLength as) (as ++ bs) = as := by
  induction as with
  | nil =>
    cases bs with
    | nil => rfl
    | cons b bs =>
      have hpos := b.utf8Size_pos
      rw [List.nil_append, takeBytes, if_neg (by rw [byteLength]; omega)]
  | cons a as ih =>
    rw [List.cons_append, takeBytes, byteLength, if_pos (by omega), Nat.add_sub_cancel_left, ih]

theorem dropBytes_append (as bs : List Char) : dropBytes (byteLength as) (as ++ bs) = bs := by
  induction as with
  | nil =>
    cases bs with
    | nil => rfl
    | cons b bs =>
      have hpos := b.utf8Size_pos
      rw [List.nil_append, dropBytes, if_neg (by rw [byteLength]; omega)]
  | cons a as ih =>
    rw [List.cons_append, dropBytes, byteLength, if_pos (by omega), Nat.add_sub_cancel_left, ih]

theorem slice_append (as bs cs : List Char) :
    slice (byteLength as) (byteLength (as ++ bs)) (as ++ bs ++ cs) = bs := by
  rw [slice, takeBytes_append, dropBytes_append]

/-! ### Lines -/

/-- The part before the first newline, or the whole text. -/
def firstLine (cs : List Char) : List Char := cs.takeWhile (· != '\n')

theorem isSpacing_append {as bs : List Char} :
    isSpacing (as ++ bs) = true ↔ isSpacing as = true ∧ isSpacing bs = true := by
  simp [isSpacing, List.all_append]

theorem hasNewline_iff {cs : List Char} : hasNewline cs = true ↔ '\n' ∈ cs := by
  simp [hasNewline]

/-- Spaces and tabs are no newlines. -/
theorem newline_not_mem_of_isSpacing {cs : List Char} (h : isSpacing cs = true) : '\n' ∉ cs := by
  intro hmem
  have hspace := List.all_eq_true.1 h '\n' hmem
  cases hspace

theorem not_newline_of_mem_reverse {cs : List Char} (h : '\n' ∉ cs) :
    ∀ c ∈ cs.reverse, (c != '\n') = true := by
  intro c hc
  rw [bne_iff_ne]
  rintro rfl
  exact h (List.mem_reverse.1 hc)

theorem lastLine_of_not_newline {as bs : List Char} (h : '\n' ∉ bs) :
    lastLine (as ++ bs) = lastLine as ++ bs := by
  rw [lastLine, lastLine, List.reverse_append,
    List.takeWhile_append_of_pos (not_newline_of_mem_reverse h), List.reverse_append,
    List.reverse_reverse]

theorem lastLine_newline {as bs : List Char} (h : '\n' ∉ bs) :
    lastLine (as ++ '\n' :: bs) = bs := by
  have hline : lastLine (as ++ ['\n']) = [] := by simp [lastLine]
  rw [← List.singleton_append, ← List.append_assoc, lastLine_of_not_newline h, hline,
    List.nil_append]

theorem beforeLastLine_newline {as bs : List Char} (h : '\n' ∉ bs) :
    beforeLastLine (as ++ '\n' :: bs) = as ++ ['\n'] := by
  rw [beforeLastLine, List.reverse_append, List.reverse_cons, List.append_assoc,
    List.dropWhile_append_of_pos (not_newline_of_mem_reverse h)]
  simp

/-- A text with a newline, split at the last one. -/
theorem exists_last_newline {cs : List Char} (h : '\n' ∈ cs) :
    ∃ as bs, cs = as ++ '\n' :: bs ∧ '\n' ∉ bs := by
  induction cs with
  | nil => cases h
  | cons c cs ih =>
    by_cases hcs : '\n' ∈ cs
    · obtain ⟨as, bs, rfl, hbs⟩ := ih hcs
      exact ⟨c :: as, bs, rfl, hbs⟩
    · rcases List.mem_cons.1 h with rfl | h
      · exact ⟨[], cs, rfl, hcs⟩
      · exact absurd h hcs

theorem lastLine_of_newline {as bs : List Char} (h : '\n' ∈ bs) :
    lastLine (as ++ bs) = lastLine bs := by
  obtain ⟨cs, ds, rfl, hds⟩ := exists_last_newline h
  rw [← List.append_assoc, lastLine_newline hds, lastLine_newline hds]

/-- A line with anything else than spaces and tabs on it is not blank. -/
theorem isSpacing_lastLine_eq_false {as bs : List Char} {c : Char}
    (hc : Text.isSpaceOrTab c = false) (hn : c ≠ '\n') (hbs : '\n' ∉ bs) :
    isSpacing (lastLine (as ++ c :: bs)) = false := by
  have hmem : '\n' ∉ c :: bs := by
    intro h
    rcases List.mem_cons.1 h with rfl | h
    · exact hn rfl
    · exact hbs h
  rw [lastLine_of_not_newline hmem]
  simp [isSpacing, hc]

theorem firstLine_of_not_newline {as bs : List Char} (h : '\n' ∉ as) :
    firstLine (as ++ bs) = as ++ firstLine bs := by
  refine List.takeWhile_append_of_pos fun c hc => ?_
  rw [bne_iff_ne]
  rintro rfl
  exact h hc

theorem firstLine_newline {as bs : List Char} (h : '\n' ∉ as) :
    firstLine (as ++ '\n' :: bs) = as := by
  have hline : firstLine ('\n' :: bs) = [] := by simp [firstLine]
  rw [firstLine_of_not_newline h, hline, List.append_nil]

theorem firstLine_of_newline {as bs : List Char} (h : '\n' ∈ as) :
    firstLine (as ++ bs) = firstLine as := by
  obtain ⟨cs, ds, rfl, hcs⟩ := List.eq_append_cons_of_mem h
  rw [List.append_assoc, List.cons_append, firstLine_newline hcs, firstLine_newline hcs]

theorem dropBlankLine_append {ws rest : List Char} (h : isSpacing ws = true) :
    dropBlankLine (ws ++ '\n' :: rest) = some rest := by
  rw [dropBlankLine, List.dropWhile_append_of_pos (List.all_eq_true.1 h)]
  rfl

theorem dropBlankLine_eq_some_iff {cs rest : List Char} :
    dropBlankLine cs = some rest ↔ ∃ ws, isSpacing ws = true ∧ cs = ws ++ '\n' :: rest := by
  constructor
  · intro h
    unfold dropBlankLine at h
    split at h
    · next rest' hdrop =>
      obtain rfl := Option.some.inj h
      refine ⟨cs.takeWhile Text.isSpaceOrTab, List.all_takeWhile, ?_⟩
      rw [← hdrop, List.takeWhile_append_dropWhile]
    · cases h
  · rintro ⟨ws, hws, rfl⟩
    exact dropBlankLine_append hws

theorem dropBlankLine_isSome_iff {cs : List Char} :
    (dropBlankLine cs).isSome = true ↔ '\n' ∈ cs ∧ isSpacing (firstLine cs) = true := by
  rw [Option.isSome_iff_exists]
  constructor
  · rintro ⟨rest, h⟩
    obtain ⟨ws, hws, rfl⟩ := dropBlankLine_eq_some_iff.1 h
    rw [firstLine_newline (newline_not_mem_of_isSpacing hws)]
    exact ⟨by simp, hws⟩
  · rintro ⟨hn, hf⟩
    obtain ⟨as, bs, rfl, has⟩ := List.eq_append_cons_of_mem hn
    rw [firstLine_newline has] at hf
    exact ⟨bs, dropBlankLine_append hf⟩

end Covenant.Template
