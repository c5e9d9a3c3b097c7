import Covenant.Text.Lines

/-! Lines of a text as parts of it. -/
namespace Covenant.Text

theorem isInfix_intercalate {sep : List Char} {ps : List (List Char)} {p : List Char} (h : p ∈ ps) :
    p <:+: sep.intercalate ps := by
  induction ps with
  | nil => cases h
  | cons q qs ih =>
    cases qs with
    | nil =>
      obtain rfl := List.mem_singleton.1 h
      exact ⟨[], [], by simp⟩
    | cons q' qs =>
      rw [List.intercalate_cons_cons]
      rcases List.mem_cons.1 h with rfl | h
      · rw [List.append_assoc]
        exact (List.prefix_append _ _).isInfix
      · exact (ih h).trans (List.suffix_append _ _).isInfix

theorem pieces_isInfix {separator : Char} {cs p : List Char} (h : p ∈ pieces separator cs) :
    p <:+: cs := by
  have hpart := @isInfix_intercalate [separator] _ _ h
  rwa [intercalate_pieces] at hpart

theorem pieces_append_separator (separator : Char) (as bs : List Char) :
    pieces separator (as ++ separator :: bs) = pieces separator as ++ pieces separator bs := by
  induction as with
  | nil => simp [pieces]
  | cons a as ih =>
    by_cases ha : a = separator
    · subst ha
      simp [pieces, ih]
    · obtain ⟨p, ps, hps⟩ := List.exists_cons_of_ne_nil (pieces_ne_nil separator as)
      simp [pieces, ha, ih, hps]

/-! ### Texts made of lines -/

theorem flatMap_newline {ls : List (List Char)} (h : ls ≠ []) :
    ls.flatMap (· ++ ['\n']) = ['\n'].intercalate ls ++ ['\n'] := by
  induction ls with
  | nil => exact absurd rfl h
  | cons l rest ih =>
    cases rest with
    | nil => simp
    | cons m rest =>
      rw [List.flatMap_cons, ih (by simp), List.intercalate_cons_cons]
      simp

theorem dropFinalNewline_append (cs : List Char) : dropFinalNewline (cs ++ ['\n']) = cs := by
  simp [dropFinalNewline]

/-- Lines that are each ended by a newline are the lines of the text that they make. -/
theorem lines_flatMap {ls : List (List Char)} (hne : ls ≠ []) (h : ∀ l ∈ ls, '\n' ∉ l) :
    lines (dropFinalNewline (ls.flatMap (· ++ ['\n']))) = ls := by
  rw [flatMap_newline hne, dropFinalNewline_append, lines, pieces_intercalate hne h]

theorem getLast_indentLine (indent line : List Char) :
    (indentLine indent line).getLast? = some '\n' := by
  unfold indentLine
  split
  · rfl
  · simp

theorem lines_ne_nil (cs : List Char) : lines cs ≠ [] := pieces_ne_nil '\n' cs

/-- A text without newlines is a line. -/
theorem lines_of_not_mem {cs : List Char} (h : '\n' ∉ cs) : lines cs = [cs] := pieces_of_not_mem h

theorem not_mem_of_length_lines {cs : List Char} (h : (lines cs).length ≤ 1) : '\n' ∉ cs := by
  intro hmem
  obtain ⟨as, bs, rfl⟩ := List.append_of_mem hmem
  have has := List.length_pos_iff.2 (lines_ne_nil as)
  have hbs := List.length_pos_iff.2 (lines_ne_nil bs)
  rw [lines, pieces_append_separator, ← lines, ← lines, List.length_append] at h
  omega

/-- Texts with no more than one line between them are one text without newlines. -/
theorem single_of_length_lines {ts : List (List Char)} {t : List Char}
    (h : (ts.flatMap lines).length + (lines t).length ≤ 1) : ts = [] ∧ '\n' ∉ t := by
  have ht := List.length_pos_iff.2 (lines_ne_nil t)
  refine ⟨?_, not_mem_of_length_lines (by omega)⟩
  cases ts with
  | nil => rfl
  | cons u us =>
    have hu := List.length_pos_iff.2 (lines_ne_nil u)
    rw [List.flatMap_cons, List.length_append] at h
    omega

end Covenant.Text
