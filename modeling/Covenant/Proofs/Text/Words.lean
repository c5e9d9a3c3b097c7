import Mathlib.Data.List.Basic
import Covenant.Proofs.Text.Lines
import Covenant.Proofs.Text.Trim

/-! The words of a text, parted by white space. Trimming a text, joining texts with white space and
cutting a text into lines keep the words in order. -/
namespace Covenant.Text

/-- The words of a text, in order. -/
def words (cs : List Char) : List (List Char) :=
  (pieces ' ' (cs.map fun c => if isBlank c then ' ' else c)).filter (!·.isEmpty)

@[simp] theorem words_nil : words [] = [] := rfl

/-- White space parts words. -/
theorem words_append_cons {c : Char} (hc : isBlank c = true) (as bs : List Char) :
    words (as ++ c :: bs) = words as ++ words bs := by
  rw [words, List.map_append, List.map_cons, if_pos hc, pieces_append_separator, List.filter_append]
  rfl

theorem words_blank_append {ws : List Char} (h : ws.all isBlank = true) (cs : List Char) :
    words (ws ++ cs) = words cs := by
  induction ws with
  | nil => rfl
  | cons w ws ih =>
    rw [List.all_cons, Bool.and_eq_true] at h
    have hparted := words_append_cons h.1 [] (ws ++ cs)
    rwa [List.nil_append, words_nil, List.nil_append, ih h.2] at hparted

theorem words_of_blank {ws : List Char} (h : ws.all isBlank = true) : words ws = [] := by
  have happend := words_blank_append h []
  rwa [List.append_nil] at happend

theorem words_append_blank {ws : List Char} (h : ws.all isBlank = true) (cs : List Char) :
    words (cs ++ ws) = words cs := by
  cases ws with
  | nil => rw [List.append_nil]
  | cons w ws =>
    rw [List.all_cons, Bool.and_eq_true] at h
    rw [words_append_cons h.1, words_of_blank h.2, List.append_nil]

/-- A text without white space is a word. -/
theorem words_of_not_blank {cs : List Char} (h : ∀ c ∈ cs, isBlank c = false) (hne : cs ≠ []) :
    words cs = [cs] := by
  have hmap : (cs.map fun c => if isBlank c then ' ' else c) = cs := by
    rw [List.map_congr_left (g := id) fun c hc => by simp [h c hc], List.map_id]
  have hspace : ' ' ∉ cs := by
    intro hmem
    have hblank := h ' ' hmem
    cases hblank
  rw [words, hmap, pieces_of_not_mem hspace, List.filter_cons_of_pos (by simpa using hne)]
  rfl

/-- A text that is empty or ends with white space shares no word with what follows it. -/
theorem words_append {as : List Char} (h : ∀ c ∈ as.getLast?, isBlank c = true) (bs : List Char) :
    words (as ++ bs) = words as ++ words bs := by
  rcases List.eq_nil_or_concat' as with rfl | ⟨init, c, rfl⟩
  · rfl
  · have hc : isBlank c = true := h c (by simp)
    rw [List.append_assoc, List.singleton_append, words_append_cons hc, words_append_cons hc,
      words_nil, List.append_nil]

/-- Texts of which each is empty or ends with white space. -/
theorem words_flatMap {α : Type} {g : α → List Char} {xs : List α}
    (h : ∀ x ∈ xs, ∀ c ∈ (g x).getLast?, isBlank c = true) :
    words (xs.flatMap g) = xs.flatMap fun x => words (g x) := by
  induction xs with
  | nil => rfl
  | cons x xs ih =>
    rw [List.forall_mem_cons] at h
    rw [List.flatMap_cons, words_append h.1, ih h.2, List.flatMap_cons]

theorem words_intercalate {c : Char} (hc : isBlank c = true) (ps : List (List Char)) :
    words ([c].intercalate ps) = ps.flatMap words := by
  induction ps with
  | nil => rfl
  | cons p ps ih =>
    cases ps with
    | nil => simp
    | cons q ps =>
      rw [List.intercalate_cons_cons, List.append_assoc, List.singleton_append,
        words_append_cons hc, ih]
      rfl

theorem words_trim (cs : List Char) : words (trim cs) = words cs := by
  obtain ⟨ws, ws', heq, hws, hws'⟩ := exists_eq_trim cs
  conv => rhs; rw [heq]
  rw [words_append_blank hws', words_blank_append hws]

theorem words_dropFinalNewline (cs : List Char) : words (dropFinalNewline cs) = words cs := by
  unfold dropFinalNewline
  split
  · next rest hrest =>
    rw [List.reverse_eq_iff] at hrest
    rw [hrest, List.reverse_cons, words_append_blank rfl]
  · rfl

theorem words_lines (cs : List Char) : (lines cs).flatMap words = words cs := by
  rw [← words_intercalate (c := '\n') rfl, lines, intercalate_pieces]

end Covenant.Text
