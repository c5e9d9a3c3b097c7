import Mathlib.Data.List.TakeWhile
import Covenant.Text.Blank

/-! Trimming. A text is what trimming leaves, between two stretches of white space; what
is left has no white space at either end, and nothing is left of white space alone. -/
namespace Covenant.Text

theorem trim_isInfix (cs : List Char) : trim cs <:+: cs := by
  have hstart : trimStart cs <:+ cs := List.dropWhile_suffix _
  have hend : trimEnd (trimStart cs) <+: trimStart cs := by
    rw [← List.reverse_suffix, trimEnd, List.reverse_reverse]
    exact List.dropWhile_suffix _
  exact hend.isInfix.trans hstart.isInfix

/-- Trimming takes white space off either end. -/
theorem exists_eq_trim (cs : List Char) :
    ∃ ws ws', cs = ws ++ trim cs ++ ws' ∧ ws.all isBlank = true ∧ ws'.all isBlank = true := by
  refine ⟨cs.takeWhile isBlank, ((trimStart cs).reverse.takeWhile isBlank).reverse, ?_,
    List.all_takeWhile, by rw [List.all_reverse]; exact List.all_takeWhile⟩
  rw [trim, trimEnd, List.append_assoc, ← List.reverse_append, List.takeWhile_append_dropWhile,
    List.reverse_reverse, trimStart, List.takeWhile_append_dropWhile]

/-- A text that does not end with white space ends with what is left of it by trimming. -/
theorem exists_eq_append_trim {cs : List Char} (h : ∀ c ∈ cs.getLast?, isBlank c = false) :
    ∃ ws, cs = ws ++ trim cs ∧ ws.all isBlank = true := by
  obtain ⟨ws, ws', heq, hws, hws'⟩ := exists_eq_trim cs
  by_cases hnil : ws' = []
  · rw [hnil, List.append_nil] at heq
    exact ⟨ws, heq, hws⟩
  · have hlast : cs.getLast? = some (ws'.getLast hnil) := by
      rw [heq, List.getLast?_append, List.getLast?_eq_some_getLast hnil]
      rfl
    have hblank := List.all_eq_true.1 hws' _ (List.getLast_mem hnil)
    rw [h _ hlast] at hblank
    cases hblank

theorem trim_eq_nil_iff {cs : List Char} : trim cs = [] ↔ cs.all isBlank = true := by
  simp only [trim, trimEnd, trimStart, List.reverse_eq_nil_iff, List.dropWhile_eq_nil_iff,
    List.mem_reverse, List.all_eq_true]
  constructor
  · intro h c hc
    rw [← List.takeWhile_append_dropWhile (p := isBlank) (l := cs), List.mem_append] at hc
    rcases hc with hc | hc
    · exact List.mem_takeWhile_imp hc
    · exact h c hc
  · intro h c hc
    exact h c ((List.dropWhile_sublist _).subset hc)

/-! ### Ends without white space -/

theorem trimStart_eq_self {cs : List Char} (h : ∀ c ∈ cs.head?, isBlank c = false) :
    trimStart cs = cs := by
  cases cs with
  | nil => rfl
  | cons c cs => exact trimStart_of_head (h c rfl)

theorem trimEnd_eq_self {cs : List Char} (h : ∀ c ∈ cs.getLast?, isBlank c = false) :
    trimEnd cs = cs := by
  have hrev : trimStart cs.reverse = cs.reverse :=
    trimStart_eq_self fun c hc => h c (by rwa [List.head?_reverse] at hc)
  rw [trimEnd, ← trimStart, hrev, List.reverse_reverse]

theorem head_trimStart (cs : List Char) : ∀ c ∈ (trimStart cs).head?, isBlank c = false := by
  induction cs with
  | nil => simp [trimStart]
  | cons c cs ih =>
    rw [trimStart, List.dropWhile_cons]
    split
    · exact ih
    · next hblank =>
      intro d hd
      obtain rfl := Option.some.inj hd
      simpa using hblank

theorem getLast_trimEnd (cs : List Char) : ∀ c ∈ (trimEnd cs).getLast?, isBlank c = false := by
  intro c hc
  rw [trimEnd, List.getLast?_reverse] at hc
  exact head_trimStart cs.reverse c hc

theorem trimEnd_append_blank {ws : List Char} (h : ws.all isBlank = true) (cs : List Char) :
    trimEnd (cs ++ ws) = trimEnd cs := by
  rw [← List.all_reverse, List.all_eq_true] at h
  rw [trimEnd, List.reverse_append, List.dropWhile_append_of_pos h, ← trimEnd]

/-- No white space at either end. -/
structure Tight (cs : List Char) : Prop where
  head : ∀ c ∈ cs.head?, isBlank c = false
  last : ∀ c ∈ cs.getLast?, isBlank c = false

theorem Tight.trim_eq {cs : List Char} (h : Tight cs) : trim cs = cs := by
  rw [trim, trimStart_eq_self h.head, trimEnd_eq_self h.last]

theorem tight_trim (cs : List Char) : Tight (trim cs) := by
  refine ⟨?_, getLast_trimEnd _⟩
  have hprefix : trimEnd (trimStart cs) <+: trimStart cs := by
    rw [← List.reverse_suffix, trimEnd, List.reverse_reverse]
    exact List.dropWhile_suffix _
  obtain ⟨rest, hrest⟩ := hprefix
  intro c hc
  refine head_trimStart cs c ?_
  rw [trim] at hc
  cases htrim : trimEnd (trimStart cs) with
  | nil =>
    rw [htrim] at hc
    cases hc
  | cons d ds =>
    rw [htrim] at hc
    rw [← hrest, htrim]
    exact hc

theorem tight_of_not_blank {cs : List Char} (h : ∀ c ∈ cs, isBlank c = false) : Tight cs :=
  ⟨fun c hc => h c (List.mem_of_mem_head? hc), fun c hc => h c (List.mem_of_getLast? hc)⟩

theorem trim_of_not_blank {cs : List Char} (h : ∀ c ∈ cs, isBlank c = false) : trim cs = cs :=
  (tight_of_not_blank h).trim_eq

/-- A part that starts without white space is still there when white space is taken off the
start. -/
theorem isInfix_trimStart {part cs : List Char} (hhead : ∀ c ∈ part.head?, isBlank c = false)
    (h : part <:+: cs) : part <:+: trimStart cs := by
  obtain ⟨before, after, rfl⟩ := h
  rw [trimStart, List.append_assoc, List.dropWhile_append]
  split
  · cases part with
    | nil => exact List.nil_infix
    | cons c cs =>
      rw [← trimStart, List.cons_append, trimStart_of_head (hhead c rfl)]
      exact (List.prefix_append (c :: cs) after).isInfix
  · exact ⟨_, _, List.append_assoc _ _ _⟩

/-- A part without white space at its ends is still there in the trimmed text. -/
theorem isInfix_trim {part cs : List Char} (hpart : Tight part) (h : part <:+: cs) :
    part <:+: trim cs := by
  have hstart := List.reverse_infix.2 (isInfix_trimStart hpart.head h)
  have hlast : ∀ c ∈ part.reverse.head?, isBlank c = false := fun c hc =>
    hpart.last c (by rwa [List.head?_reverse] at hc)
  rw [trim, trimEnd, ← List.reverse_infix, List.reverse_reverse]
  exact isInfix_trimStart hlast hstart

theorem trimmed_eq_empty_iff {s : String} : trimmed s = "" ↔ allBlank s = true := by
  rw [trimmed, allBlank, ← trim_eq_nil_iff, ← String.ofList_nil, String.ofList_inj]

end Covenant.Text
