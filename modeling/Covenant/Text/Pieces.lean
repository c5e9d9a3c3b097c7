/-! Texts cut at a separator. -/
namespace Covenant.Text

/-- The pieces between occurrences of a character, empty ones included; there is always
one more than there are occurrences. -/
def pieces (separator : Char) : List Char → List (List Char)
  | [] => [[]]
  | c :: cs =>
    if c == separator then [] :: pieces separator cs
    else match pieces separator cs with
      | p :: ps => (c :: p) :: ps
      | [] => [[c]]

theorem pieces_ne_nil (separator : Char) (cs : List Char) : pieces separator cs ≠ [] := by
  fun_induction pieces separator cs <;> simp_all

/-- Nothing but the separators is lost. -/
theorem intercalate_pieces (separator : Char) (cs : List Char) :
    [separator].intercalate (pieces separator cs) = cs := by
  fun_induction pieces separator cs with
  | case1 => rfl
  | case2 c cs hc ih =>
    have := pieces_ne_nil separator cs
    cases h : pieces separator cs <;> simp_all [List.intercalate]
  | case3 c cs _ p ps h ih =>
    cases ps <;> simp_all [List.intercalate]
  | case4 c cs _ h => exact absurd h (pieces_ne_nil separator cs)

/-- No piece holds a separator. -/
theorem not_mem_of_mem_pieces {separator : Char} {cs p : List Char}
    (h : p ∈ pieces separator cs) : separator ∉ p := by
  fun_induction pieces separator cs generalizing p with
  | case1 => simp_all
  | case2 c cs _ ih =>
    rcases List.mem_cons.1 h with rfl | h
    · simp
    · exact ih h
  | case3 c cs hc q qs hq ih =>
    rw [hq] at ih
    rcases List.mem_cons.1 h with rfl | h
    · simpa [Ne.symm (by simpa using hc)] using ih List.mem_cons_self
    · exact ih (List.mem_cons_of_mem _ h)
  | case4 c cs _ hq => exact absurd hq (pieces_ne_nil separator cs)

theorem pieces_of_not_mem {separator : Char} {cs : List Char} (h : separator ∉ cs) :
    pieces separator cs = [cs] := by
  induction cs with
  | nil => rfl
  | cons c cs ih =>
    rw [List.mem_cons, not_or] at h
    simp [pieces, Ne.symm h.1, ih h.2]

theorem pieces_append {separator : Char} {cs : List Char} (h : separator ∉ cs) (ds : List Char) :
    pieces separator (cs ++ separator :: ds) = cs :: pieces separator ds := by
  induction cs with
  | nil => simp [pieces]
  | cons c cs ih =>
    rw [List.mem_cons, not_or] at h
    simp [pieces, Ne.symm h.1, ih h.2]

/-- Pieces without separators are found again. -/
theorem pieces_intercalate {separator : Char} {ps : List (List Char)} (hne : ps ≠ [])
    (h : ∀ p ∈ ps, separator ∉ p) : pieces separator ([separator].intercalate ps) = ps := by
  induction ps with
  | nil => exact absurd rfl hne
  | cons p ps ih =>
    have hp := h p List.mem_cons_self
    cases ps with
    | nil => simpa [List.intercalate] using pieces_of_not_mem hp
    | cons q qs =>
      rw [List.intercalate_cons_cons, List.append_assoc, List.singleton_append,
        pieces_append hp, ih (by simp) fun r hr => h r (List.mem_cons_of_mem _ hr)]

end Covenant.Text
