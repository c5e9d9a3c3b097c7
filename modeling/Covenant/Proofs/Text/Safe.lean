import Covenant.Proofs.Text.Contained

/-! Safe texts: those that may stand in a line comment and between double quotes as they are. What
is made of a text is safe, and the safe texts are the ones that nothing is changed about. So it does
not matter how often a text is made safe, and identifiers may be written either way. -/
namespace Covenant.Text

/-- No quotation, line, marker or comment ends or starts in the text, and no white space is at
either end of it. -/
structure IsSafe (cs : List Char) : Prop where
  noQuote : '"' ∉ cs
  noBackslash : '\\' ∉ cs
  noControl : ∀ c ∈ cs, isControl c = false
  noMarker : ¬['{', '{'] <:+: cs
  noCommentEnd : ¬['*', '/'] <:+: cs
  tight : Tight cs

theorem mustPart_eq_true_iff {c d : Char} :
    mustPart c d = true ↔ (c = '{' ∧ d = '{') ∨ (c = '*' ∧ d = '/') := by
  simp [mustPart]

/-- No two characters that may not meet are next to each other just when neither of the two pairs
is in the text. -/
theorem isChain_mustPart_iff {cs : List Char} :
    (cs.IsChain fun c d => mustPart c d = false) ↔
      ¬['{', '{'] <:+: cs ∧ ¬['*', '/'] <:+: cs := by
  constructor
  · intro h
    have hpair : ∀ c d, mustPart c d = true → ¬[c, d] <:+: cs := by
      intro c d hpart hinfix
      have hchain := List.IsChain.infix h hinfix
      rw [List.isChain_pair, hpart] at hchain
      cases hchain
    exact ⟨hpair _ _ rfl, hpair _ _ rfl⟩
  · rintro ⟨hbraces, hcomment⟩
    rw [List.isChain_iff_forall_rel_of_append_cons_cons]
    rintro c d before after rfl
    have hinfix : [c, d] <:+: before ++ c :: d :: after := ⟨before, after, by simp⟩
    rw [← Bool.not_eq_true, mustPart_eq_true_iff]
    rintro (⟨rfl, rfl⟩ | ⟨rfl, rfl⟩)
    · exact hbraces hinfix
    · exact hcomment hinfix

/-- Safe text is clean text without quotes and without white space at its ends. -/
theorem isSafe_iff {cs : List Char} : IsSafe cs ↔ Clean cs ∧ '"' ∉ cs ∧ Tight cs := by
  constructor
  · intro h
    refine ⟨⟨fun c hc => ⟨?_, h.noControl c hc⟩, ?_⟩, h.noQuote, h.tight⟩
    · rintro rfl
      exact h.noBackslash hc
    · exact isChain_mustPart_iff.2 ⟨h.noMarker, h.noCommentEnd⟩
  · rintro ⟨hclean, hquote, htight⟩
    obtain ⟨hmarker, hcomment⟩ := isChain_mustPart_iff.1 hclean.parted
    exact ⟨hquote, fun hmem => (hclean.plain _ hmem).1 rfl, fun c hc => (hclean.plain c hc).2,
      hmarker, hcomment, htight⟩

theorem tight_safe (s : String) : Tight (safe s).toList := by
  rw [safe, String.toList_ofList]
  exact tight_trim _

theorem isSafe_safe (s : String) : IsSafe (safe s).toList :=
  isSafe_iff.2 ⟨clean_safe s, not_mem_safe s, tight_safe s⟩

theorem IsSafe.safe_eq {s : String} (h : IsSafe s.toList) : safe s = s := by
  obtain ⟨hclean, hquote, htight⟩ := isSafe_iff.1 h
  exact safe_eq_self hclean hquote htight

/-- Making texts safe is a projection onto the safe texts: what it gives is safe, and it changes
nothing exactly about a text that is safe. Identifiers are. -/
theorem safe_projection (s : String) :
    IsSafe (safe s).toList ∧ safe (safe s) = safe s ∧ (safe s = s ↔ IsSafe s.toList) ∧
      (Ident.isIdent s = true → safe s = s) := by
  have hfixed : safe s = s ↔ IsSafe s.toList := by
    constructor
    · intro h
      rw [← h]
      exact isSafe_safe s
    · exact IsSafe.safe_eq
  exact ⟨isSafe_safe s, (isSafe_safe s).safe_eq, hfixed, safe_of_isIdent⟩

/-- The backslash becomes a slash, which would end a comment after the star. -/
theorem star_safe :
    safe " *\\\x7b\x7b " = "* /\x7b \x7b" ∧ safe "* /\x7b \x7b" = "* /\x7b \x7b" ∧
      IsSafe "* /\x7b \x7b".toList ∧ Ident.isIdent "_us_ny" = true ∧ safe "_us_ny" = "_us_ny" := by
  have hsafe : safe " *\\\x7b\x7b " = "* /\x7b \x7b" := by decide +kernel
  have hident : Ident.isIdent "_us_ny" = true := by decide +kernel
  obtain ⟨h, hagain, -⟩ := safe_projection " *\\\x7b\x7b "
  rw [hsafe] at h hagain
  exact ⟨hsafe, hagain, h, hident, (safe_projection "_us_ny").2.2.2 hident⟩

end Covenant.Text
