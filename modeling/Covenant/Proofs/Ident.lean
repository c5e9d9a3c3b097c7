import Covenant.Ident
import Covenant.Proofs.Text.Lines
import Covenant.Proofs.Text.Trim

/-! Identifiers are normal: comparing ids without white space and in lower case changes
nothing about one. In capitals they consist of what they consisted of, and of capitals. -/
namespace Covenant.Ident

/-- A small letter, a digit or an underscore, by its code. -/
theorem isPart_iff {c : Char} : isPart c = true ↔
    (0x61 ≤ c.toNat ∧ c.toNat ≤ 0x7A) ∨ c.toNat = 0x5F ∨ (0x30 ≤ c.toNat ∧ c.toNat ≤ 0x39) := by
  have hunderscore : c = '_' ↔ c.toNat = 0x5F := by
    constructor
    · rintro rfl
      rfl
    · intro h
      rw [← Char.ofNat_toNat c, h]
  simp only [isPart, isStart, Bool.or_eq_true, Bool.and_eq_true, decide_eq_true_eq, beq_iff_eq,
    Char.le_def, UInt32.le_iff_toNat_le, hunderscore, or_assoc]
  rfl

theorem isPart_of_isIdent {s : String} (h : isIdent s = true) : ∀ c ∈ s.toList, isPart c = true := by
  rw [isIdent] at h
  cases hs : s.toList with
  | nil => simp
  | cons c cs =>
    rw [hs, isIdentList, Bool.and_eq_true, List.all_eq_true] at h
    intro d hd
    rcases List.mem_cons.1 hd with rfl | hd
    · simp [isPart, h.1]
    · exact h.2 d hd

theorem isBlank_of_isPart {c : Char} (h : isPart c = true) : Text.isBlank c = false := by
  rw [isPart_iff] at h
  simp only [Text.isBlank, Bool.or_eq_false_iff, Bool.and_eq_false_iff, decide_eq_false_iff_not,
    beq_eq_false_iff_ne]
  omega

theorem lowerFrom_of_isPart {before cs : List Char} (h : ∀ c ∈ cs, isPart c = true) :
    Text.lowerFrom before cs = cs := by
  induction cs generalizing before with
  | nil => rfl
  | cons c cs ih =>
    have hc := isPart_iff.1 (h c List.mem_cons_self)
    rw [Text.lowerFrom, ih fun d hd => h d (List.mem_cons_of_mem _ hd), if_neg (by omega)]
    have hcapital : Text.isCapital c = false := by
      have hA : ('A'.val.toNat = 65) := rfl
      have hZ : ('Z'.val.toNat = 90) := rfl
      simp only [Text.isCapital, Bool.and_eq_false_iff, decide_eq_false_iff_not, Char.le_def,
        UInt32.le_iff_toNat_le]
      simp only [Char.toNat] at hc
      omega
    rw [Text.lowerChar, if_pos (by omega), hcapital]
    rfl

/-- An identifier is its own normal form. -/
theorem normalize_of_isIdent {s : String} (h : isIdent s = true) : normalize s = s := by
  have hparts := isPart_of_isIdent h
  have htrim : Text.trim s.toList = s.toList :=
    Text.trim_of_not_blank fun c hc => isBlank_of_isPart (hparts c hc)
  rw [normalize, Text.trimmed, htrim, String.ofList_toList, Text.lower, lowerFrom_of_isPart hparts,
    String.ofList_toList]

/-! ### Capitals -/

/-- What holds of a character holds of its capital if it holds of all capitals. -/
theorem upperChar_of {p : Char → Bool} (hcapitals : ∀ n < 26, p (Char.ofNat (n + 65)) = true)
    {c : Char} (h : p c = true) : p (upperChar c) = true := by
  unfold upperChar
  split
  · next hsmall =>
    simp only [Bool.and_eq_true, decide_eq_true_eq, Char.le_def, UInt32.le_iff_toNat_le] at hsmall
    have ha : ('a'.val.toNat = 97) := rfl
    have hz : ('z'.val.toNat = 122) := rfl
    have hcode : c.toNat - 32 = (c.toNat - 97) + 65 := by
      simp only [Char.toNat]
      omega
    rw [hcode]
    refine hcapitals _ ?_
    simp only [Char.toNat]
    omega
  · exact h

/-- What holds of the characters of a text holds of those of its words in capitals. -/
theorem pascalCase_of {p : Char → Bool} (hcapitals : ∀ n < 26, p (Char.ofNat (n + 65)) = true)
    {s : String} (h : ∀ c ∈ s.toList, p c = true) : ∀ c ∈ (pascalCase s).toList, p c = true := by
  rw [pascalCase, String.toList_ofList]
  intro c hc
  obtain ⟨word, hword, hcword⟩ := List.mem_flatMap.1 hc
  have hchars : ∀ d ∈ word, p d = true := fun d hd => h d ((Text.pieces_isInfix hword).subset hd)
  cases word with
  | nil => cases hcword
  | cons d ds =>
    rcases List.mem_cons.1 hcword with rfl | hcword
    · exact upperChar_of hcapitals (hchars d List.mem_cons_self)
    · exact hchars c (List.mem_cons_of_mem _ hcword)

end Covenant.Ident
