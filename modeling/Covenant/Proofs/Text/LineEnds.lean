import Mathlib.Algebra.GroupWithZero.Nat
import Covenant.Proofs.Text.Clean
import Covenant.Text.Quoted

/-! How many lines a text has. A safe text has no control characters, so that of the characters
that end a line only the separators of lines and paragraphs are left in it. A quoted text has
none of them. -/
namespace Covenant.Text

def lineEnds (cs : List Char) : Nat := cs.countP isLineEnd

/-- The number of lines. -/
def lineCount (s : String) : Nat := lineEnds s.toList + 1

def isSeparator (c : Char) : Bool := c.toNat == 0x2028 || c.toNat == 0x2029

/-- The number of separators of lines and paragraphs. -/
def separators (s : String) : Nat := s.toList.countP isSeparator

@[simp] theorem lineEnds_nil : lineEnds [] = 0 := rfl

@[simp] theorem lineEnds_append (as bs : List Char) : lineEnds (as ++ bs) = lineEnds as + lineEnds bs :=
  List.countP_append

theorem lineEnds_eq_zero_iff {cs : List Char} : lineEnds cs = 0 ↔ ∀ c ∈ cs, isLineEnd c = false := by
  simp [lineEnds, List.countP_eq_zero]

/-! ### Safe text -/

theorem isLineEnd_eq_isSeparator {c : Char} (h : isControl c = false) :
    isLineEnd c = isSeparator c := by
  rw [Bool.eq_iff_iff]
  simp only [isControl, Bool.or_eq_false_iff, Bool.and_eq_false_iff, decide_eq_false_iff_not] at h
  simp only [isLineEnd, isSeparator, Bool.or_eq_true, Bool.and_eq_true, decide_eq_true_eq,
    beq_iff_eq]
  omega

theorem lineEnds_of_clean {s : String} (h : Clean s.toList) : lineEnds s.toList = separators s :=
  List.countP_congr fun c hc => by rw [isLineEnd_eq_isSeparator (h.plain c hc).2]

theorem lineEnds_safe (s : String) : lineEnds (safe s).toList = separators (safe s) :=
  lineEnds_of_clean (clean_safe s)

theorem newline_not_mem_of_clean {cs : List Char} (h : Clean cs) : '\n' ∉ cs := by
  intro hmem
  have hcontrol := (h.plain _ hmem).2
  cases hcontrol

/-- A safe text has no line ends unless the text has some. -/
theorem lineEnds_safe_of_none {s : String} (h : lineEnds s.toList = 0) :
    lineEnds (safe s).toList = 0 := by
  rw [lineEnds_eq_zero_iff] at h ⊢
  intro c hc
  rcases mem_safe hc with rfl | ⟨d, hd, rfl⟩
  · rfl
  · unfold safeChar
    split
    · rfl
    · split
      · rfl
      · split
        · rfl
        · exact h d hd

/-! ### Quoted text -/

theorem isUnprintable_of_isLineEnd {c : Char} (h : isLineEnd c = true) : isUnprintable c = true := by
  have hcode : (0x0A ≤ c.toNat ∧ c.toNat ≤ 0x0D) ∨ c.toNat ∈ [0x85, 0x2028, 0x2029] := by
    simpa [isLineEnd, or_assoc] using h
  have hlisted : ∀ n ∈ [0x85, 0x2028, 0x2029], ¬n < 0x80 ∧ inRanges unprintableRanges n = true := by
    decide +kernel
  unfold isUnprintable
  rcases hcode with ⟨hlow, hhigh⟩ | hcode
  · rw [if_pos (by omega), isUnprintable.isAsciiControl, Bool.or_eq_true, decide_eq_true_eq]
    exact .inl (by omega)
  · obtain ⟨hhigh, hranges⟩ := hlisted _ hcode
    rw [if_neg hhigh, hranges]

theorem lineEnds_hexDigits (n : Nat) : lineEnds (hexDigits n) = 0 := by
  have hdigit : ∀ d < 16, lineEnds [Nat.digitChar d] = 0 := by decide
  unfold hexDigits
  induction n using Nat.strongRecOn with
  | ind n ih =>
    rw [Nat.toDigits_eq_if (by decide)]
    split
    · next hlt => exact hdigit n hlt
    · rw [lineEnds_append, ih (n / 16) (by omega), hdigit (n % 16) (Nat.mod_lt _ (by decide))]

theorem lineEnds_quoteChar (c : Char) : lineEnds (quoteChar c) = 0 := by
  unfold quoteChar
  split
  case h_7 =>
    split
    · rw [lineEnds_append, lineEnds_append, lineEnds_hexDigits]
      rfl
    · next hprintable =>
      have hend : isLineEnd c = false := by
        by_contra hend
        exact hprintable (isUnprintable_of_isLineEnd (by simpa using hend))
      simp [lineEnds, hend]
  all_goals rfl

theorem lineEnds_quoted (s : String) : lineEnds (quoted s).toList = 0 := by
  have hchars : lineEnds (s.toList.flatMap quoteChar) = 0 := by
    rw [lineEnds_eq_zero_iff]
    intro d hd
    obtain ⟨c, _, hmem⟩ := List.mem_flatMap.1 hd
    exact lineEnds_eq_zero_iff.1 (lineEnds_quoteChar c) d hmem
  rw [quoted, String.toList_ofList, ← List.singleton_append, lineEnds_append, lineEnds_append, hchars]
  rfl

end Covenant.Text
