import Covenant.Proofs.Text.Clean

/-! Contained text: clean text in which the double quotes pair up. A generated line is a
row of literals with contained texts between them. A literal may open a quotation that a
later one closes, so a row is followed together with the parity of its quotes so far. -/
namespace Covenant.Text

/-- Whether the number of double quotes is odd. -/
def oddQuotes : List Char → Bool
  | [] => false
  | c :: cs => bif c == '"' then !oddQuotes cs else oddQuotes cs

theorem oddQuotes_append (as bs : List Char) :
    oddQuotes (as ++ bs) = (oddQuotes as ^^ oddQuotes bs) := by
  induction as with
  | nil => simp [oddQuotes]
  | cons a as ih =>
    rw [List.cons_append, oddQuotes, oddQuotes, ih]
    cases a == '"' with
    | true => simp
    | false => simp

theorem oddQuotes_eq_false_iff {cs : List Char} :
    oddQuotes cs = false ↔ cs.count '"' % 2 = 0 := by
  have hparity : oddQuotes cs = decide (cs.count '"' % 2 = 1) := by
    induction cs with
    | nil => rfl
    | cons c cs ih =>
      rw [oddQuotes, ih, List.count_cons]
      cases c == '"' with
      | true =>
        rcases Nat.mod_two_eq_zero_or_one (cs.count '"') with h | h
        · simp [h, Nat.add_mod]
        · simp [h, Nat.add_mod]
      | false => simp
  rw [hparity, decide_eq_false_iff_not, Nat.mod_two_not_eq_one]

theorem oddQuotes_of_not_mem {cs : List Char} (h : '"' ∉ cs) : oddQuotes cs = false := by
  rw [oddQuotes_eq_false_iff, List.count_eq_zero.2 h]

/-! ### Rows of literals and texts -/

/-- Clean text with an odd or an even number of quotes. -/
structure Lexed (odd : Bool) (cs : List Char) : Prop where
  clean : Clean cs
  quotes : oddQuotes cs = odd

def Contained (cs : List Char) : Prop := Lexed false cs

theorem Lexed.contained {odd : Bool} {cs : List Char} (h : Lexed odd cs) (hodd : odd = false) :
    Contained cs := by
  rwa [hodd] at h

theorem Harmless.contained {cs : List Char} (h : Harmless cs) : Contained cs :=
  ⟨h.clean, oddQuotes_of_not_mem fun hmem => (isHarmless_iff.1 (h _ hmem)).1 rfl⟩

theorem contained_nil : Contained [] := harmless_nil.contained

/-- The test of contained text. -/
def isContained (cs : List Char) : Bool := isClean cs && !oddQuotes cs

theorem contained_of_isContained {cs : List Char} (h : isContained cs = true) : Contained cs := by
  rw [isContained, Bool.and_eq_true, Bool.not_eq_true'] at h
  exact ⟨isClean_iff.1 h.1, h.2⟩

theorem contained_literal {s : String} {l : List Char} (hs : s = String.ofList l)
    (hl : isContained l = true) : Contained s.toList := by
  rw [hs, String.toList_ofList]
  exact contained_of_isContained hl

/-- A contained text after a literal. -/
theorem lexed_opening {s x : String} {l : List Char} (hs : s = String.ofList l)
    (hl : (isClean l && looseEnd l) = true) (hx : Contained x.toList) :
    Lexed (oddQuotes l) (s ++ x).toList := by
  refine ⟨clean_opening hs hl hx.clean, ?_⟩
  rw [String.toList_append, oddQuotes_append, hx.quotes, hs, String.toList_ofList, Bool.xor_false]

/-- A literal after a row. -/
theorem Lexed.closing {odd : Bool} {a s : String} {l : List Char} (ha : Lexed odd a.toList)
    (hs : s = String.ofList l) (hl : (isClean l && looseStart l) = true) :
    Lexed (odd ^^ oddQuotes l) (a ++ s).toList := by
  refine ⟨ha.clean.closing hs hl, ?_⟩
  rw [String.toList_append, oddQuotes_append, ha.quotes, hs, String.toList_ofList]

/-- A row and a contained text with a literal between them. -/
theorem Lexed.joint {odd : Bool} {a s x : String} {l : List Char} (ha : Lexed odd a.toList)
    (hs : s = String.ofList l)
    (hl : (isClean l && looseStart l && (looseEnd l && !l.isEmpty)) = true)
    (hx : Contained x.toList) : Lexed (odd ^^ oddQuotes l) (a ++ s ++ x).toList := by
  refine ⟨ha.clean.joint hs hl hx.clean, ?_⟩
  rw [String.toList_append, String.toList_append, oddQuotes_append, oddQuotes_append, ha.quotes,
    hx.quotes, hs, String.toList_ofList, Bool.xor_false]

/-! ### Safe text -/

theorem not_mem_safe (s : String) : '"' ∉ (safe s).toList := by
  have hchar : ∀ c, safeChar c ≠ '"' := by
    intro c
    unfold safeChar
    split
    · decide
    · split
      · decide
      · split
        · decide
        · next hquote _ _ => simpa using hquote
  intro hmem
  rcases mem_safe hmem with heq | ⟨d, _, hd⟩
  · cases heq
  · exact hchar d hd

theorem partFrom_eq_self {last : Char} {cs : List Char}
    (h : (last :: cs).IsChain fun c d => mustPart c d = false) : partFrom last cs = cs := by
  induction cs generalizing last with
  | nil => rfl
  | cons c cs ih =>
    obtain ⟨hlast, hrest⟩ := List.isChain_cons_cons.1 h
    rw [partFrom, hlast, if_neg Bool.false_ne_true, ih hrest]

/-- Making a text safe changes nothing about one that is clean, without quotes and without white
space at its ends. -/
theorem safe_eq_self {s : String} (hclean : Clean s.toList) (hquote : '"' ∉ s.toList)
    (htight : Tight s.toList) : safe s = s := by
  have hchar : ∀ c ∈ s.toList, safeChar c = c := by
    intro c hc
    obtain ⟨hbackslash, hcontrol⟩ := hclean.plain c hc
    have hne : c ≠ '"' := fun heq => hquote (heq ▸ hc)
    simp [safeChar, hne, hbackslash, hcontrol]
  have hchars : s.toList.map safeChar = s.toList := (List.map_congr_left hchar).trans (List.map_id' _)
  have hparted : parted s.toList = s.toList := by
    cases hs : s.toList with
    | nil => rfl
    | cons c cs => rw [parted, partFrom_eq_self (hs ▸ hclean.parted)]
  rw [safe, safeList, hchars, hparted, htight.trim_eq, String.ofList_toList]

theorem safe_of_isIdent {s : String} (h : Ident.isIdent s = true) : safe s = s := by
  have hharmless := harmless_of_isIdent h
  exact safe_eq_self hharmless.clean (fun hmem => (isHarmless_iff.1 (hharmless _ hmem)).1 rfl)
    (tight_of_not_blank fun c hc => Ident.isBlank_of_isPart (Ident.isPart_of_isIdent h c hc))

theorem contained_safe (s : String) : Contained (safe s).toList :=
  ⟨clean_safe s, oddQuotes_of_not_mem (not_mem_safe s)⟩

/-- A list of texts in brackets is contained whatever the texts are. -/
theorem contained_quotedList (ss : List String) : Contained (quotedList ss).toList := by
  have hquoted : ∀ s, Contained ("\"" ++ safe s ++ "\"").toList := fun s =>
    ((lexed_opening rfl rfl (contained_safe s)).closing rfl rfl).contained rfl
  have hjoined : Contained (", ".intercalate (ss.map fun s => "\"" ++ safe s ++ "\"")).toList := by
    induction ss with
    | nil => exact contained_nil
    | cons s rest ih =>
      cases rest with
      | nil => exact hquoted s
      | cons t rest =>
        rw [List.map_cons, List.map_cons, String.intercalate_cons_cons]
        exact (Lexed.joint (hquoted s) rfl rfl ih).contained rfl
  exact ((lexed_opening rfl rfl hjoined).closing rfl rfl).contained rfl

end Covenant.Text
