import Covenant.Artifact.Compose
import Covenant.Proofs.Text.Clean
import Covenant.Proofs.Text.Trim

/-! Slot markers. A marker is two opening braces next to each other, so texts without one
make such a text unless a brace meets a brace where they are joined. What rendering puts
between texts, an indentation, a blank or a newline, makes none. -/
namespace Covenant.Artifact

open Text (isBlank lines trim indentLine indentLines dropFinalNewline getLast_indentLine)

/-- A slot marker starts somewhere in the text. -/
def Marked (text : List Char) : Prop := ['{', '{'] <:+: text

theorem hasMarker_eq_true_iff {text : List Char} : hasMarker text = true ↔ Marked text := by
  induction text using hasMarker.induct with
  | case1 tail =>
    have hprefix : ['{', '{'] <+: '{' :: '{' :: tail := ⟨tail, rfl⟩
    exact iff_of_true rfl hprefix.isInfix
  | case2 c cs hne ih =>
    rw [hasMarker, ih, Marked, Marked, List.infix_cons_iff]
    · constructor
      · exact .inr
      · rintro (⟨tail, heq⟩ | h)
        · obtain ⟨rfl, rfl⟩ := List.cons_eq_cons.1 heq
          exact absurd rfl (hne _ rfl)
        · exact h
    · exact hne
  | case3 => simp [hasMarker, Marked]

theorem unmarked_iff {text : List Char} : hasMarker text = false ↔ ¬Marked text := by
  rw [← hasMarker_eq_true_iff, Bool.not_eq_true]

theorem hasMarker_eq_false_iff {cs : List Char} :
    hasMarker cs = false ↔ cs.IsChain fun c d => ¬(c = '{' ∧ d = '{') := by
  induction cs using hasMarker.induct with
  | case1 tail => simp [hasMarker]
  | case2 c cs hne ih =>
    rw [hasMarker, ih, List.isChain_cons]
    · refine ⟨fun h => ⟨?_, h⟩, fun h => h.2⟩
      rintro d hd ⟨rfl, rfl⟩
      cases cs with
      | nil => cases hd
      | cons e es =>
        obtain rfl := Option.some.inj hd
        exact hne es rfl rfl
    · exact hne
  | case3 => simp [hasMarker]

/-- No marker is in a joined text when none is in its parts and none arises between. -/
theorem hasMarker_append {as bs : List Char} (ha : hasMarker as = false)
    (hb : hasMarker bs = false) (h : as.getLast? = some '{' → bs.head? ≠ some '{') :
    hasMarker (as ++ bs) = false := by
  rw [hasMarker_eq_false_iff] at *
  refine ha.append hb ?_
  rintro c hc d hd ⟨rfl, rfl⟩
  exact h hc hd

theorem unmarked_of_isInfix {as bs : List Char} (hb : hasMarker bs = false) (h : as <:+: bs) :
    hasMarker as = false := by
  rw [hasMarker_eq_false_iff] at *
  exact List.IsChain.infix hb h

theorem unmarked_of_not_mem {cs : List Char} (h : '{' ∉ cs) : hasMarker cs = false := by
  rw [hasMarker_eq_false_iff]
  induction cs with
  | nil => exact .nil
  | cons c cs ih =>
    rw [List.mem_cons, not_or] at h
    refine (ih h.2).cons ?_
    rintro d _ ⟨rfl, _⟩
    exact h.1 rfl

theorem unmarked_of_clean {cs : List Char} (h : Text.Clean cs) : hasMarker cs = false := by
  rw [hasMarker_eq_false_iff]
  refine h.parted.imp ?_
  rintro c d hpart ⟨rfl, rfl⟩
  cases hpart

/-! ### Where markers come from -/

/-- A marker of a joined text is in one of its parts, or arises where braces meet. -/
theorem marked_append_iff {as bs : List Char} :
    Marked (as ++ bs) ↔
      Marked as ∨ Marked bs ∨ (as.getLast? = some '{' ∧ bs.head? = some '{') := by
  simp only [← hasMarker_eq_true_iff, ← Bool.not_eq_false, hasMarker_eq_false_iff,
    List.isChain_append]
  constructor
  · intro h
    by_contra hno
    rw [not_or, not_or, not_not, not_not] at hno
    obtain ⟨has, hbs, hmeet⟩ := hno
    refine h ⟨has, hbs, ?_⟩
    rintro c hc d hd ⟨rfl, rfl⟩
    exact hmeet ⟨hc, hd⟩
  · rintro h ⟨has, hbs, hchain⟩
    rcases h with h | h | ⟨hlast, hhead⟩
    · exact h has
    · exact h hbs
    · exact hchain _ hlast _ hhead ⟨rfl, rfl⟩

theorem not_marked_of_not_mem {cs : List Char} (h : '{' ∉ cs) : ¬Marked cs :=
  unmarked_iff.1 (unmarked_of_not_mem h)

/-! ### What is put between texts -/

theorem marked_append_of_last {as bs : List Char} (h : as.getLast? ≠ some '{') :
    Marked (as ++ bs) ↔ Marked as ∨ Marked bs := by
  rw [marked_append_iff]
  simp [h]

theorem marked_append_of_not_mem {as bs : List Char} (h : '{' ∉ as) :
    Marked (as ++ bs) ↔ Marked bs := by
  rw [marked_append_of_last fun hlast => h (List.mem_of_getLast? hlast)]
  simp [not_marked_of_not_mem h]

theorem marked_append_of_head {as bs : List Char} (h : '{' ∉ bs) :
    Marked (as ++ bs) ↔ Marked as := by
  have hhead : bs.head? ≠ some '{' := fun hhead => h (List.mem_of_head? hhead)
  rw [marked_append_iff]
  simp [not_marked_of_not_mem h, hhead]

theorem marked_intercalate_iff {c : Char} (hc : c ≠ '{') {texts : List (List Char)} :
    Marked ([c].intercalate texts) ↔ ∃ text ∈ texts, Marked text := by
  induction texts with
  | nil => simp [Marked]
  | cons text texts ih =>
    cases texts with
    | nil => simp
    | cons text' texts =>
      have hrest : Marked ([c] ++ [c].intercalate (text' :: texts)) ↔
          ∃ text ∈ text' :: texts, Marked text := by
        rw [marked_append_of_not_mem (by simpa using hc.symm), ih]
      rw [List.intercalate_cons_cons, List.append_assoc, marked_append_iff, hrest,
        List.exists_mem_cons_iff]
      simp [hc]

theorem not_mem_of_blank {cs : List Char} (h : cs.all isBlank = true) : '{' ∉ cs := fun hmem =>
  absurd (List.all_eq_true.1 h _ hmem) (by decide)

/-- Trimming takes no marker away. -/
theorem marked_trim_iff {cs : List Char} : Marked (trim cs) ↔ Marked cs := by
  obtain ⟨ws, ws', heq, hws, hws'⟩ := Text.exists_eq_trim cs
  rw [heq, marked_append_of_head (not_mem_of_blank hws'),
    marked_append_of_not_mem (not_mem_of_blank hws), ← heq]

theorem marked_lines_iff {cs : List Char} : (∃ line ∈ lines cs, Marked line) ↔ Marked cs := by
  rw [← marked_intercalate_iff (c := '\n') (by decide), lines, Text.intercalate_pieces]

theorem marked_dropFinalNewline_iff {cs : List Char} :
    Marked (dropFinalNewline cs) ↔ Marked cs := by
  unfold dropFinalNewline
  split
  · next rest hrest =>
    rw [List.reverse_eq_iff] at hrest
    rw [hrest, List.reverse_cons, marked_append_of_head (by decide)]
  · rfl

theorem marked_indentLine_iff {indent line : List Char} (hindent : '{' ∉ indent) :
    Marked (indentLine indent line) ↔ Marked line := by
  unfold indentLine
  split
  · next hblank =>
    exact iff_of_false (not_marked_of_not_mem (by decide))
      (not_marked_of_not_mem (not_mem_of_blank hblank))
  · rw [marked_append_of_head (by decide),
      marked_append_of_not_mem hindent]

theorem getLast_append_ne {as bs : List Char} (has : as.getLast? ≠ some '{')
    (hbs : bs.getLast? ≠ some '{') : (as ++ bs).getLast? ≠ some '{' := by
  cases bs with
  | nil => rwa [List.append_nil]
  | cons b bs => rwa [List.getLast?_append_of_ne_nil _ (by simp)]

/-- Texts of which none ends with a brace make no marker between them. -/
theorem marked_flatMap_iff {α : Type} (g : α → List Char) (as : List α)
    (h : ∀ a ∈ as, (g a).getLast? ≠ some '{') :
    (Marked (as.flatMap g) ↔ ∃ a ∈ as, Marked (g a)) ∧ (as.flatMap g).getLast? ≠ some '{' := by
  induction as with
  | nil => simp [Marked]
  | cons a as ih =>
    rw [List.forall_mem_cons] at h
    obtain ⟨hmarked, hlast⟩ := ih h.2
    rw [List.flatMap_cons, marked_append_of_last h.1, hmarked, List.exists_mem_cons_iff]
    exact ⟨Iff.rfl, getLast_append_ne h.1 hlast⟩

theorem marked_indentLines_iff {indent : List Char} (hindent : '{' ∉ indent) (cs : List Char) :
    (Marked (indentLines indent cs) ↔ Marked cs) ∧ (indentLines indent cs).getLast? ≠ some '{' := by
  obtain ⟨hmarked, hlast⟩ := marked_flatMap_iff (indentLine indent) (lines cs)
    fun _ _ => by simp [getLast_indentLine]
  refine ⟨?_, hlast⟩
  rw [indentLines, hmarked, ← marked_lines_iff]
  simp only [marked_indentLine_iff hindent]

/-! ### Blocks -/

/-- A part of the content of a block has a marker in it. -/
def BlockContent.Marked (c : BlockContent) : Prop :=
  Artifact.Marked c.base ∨ (∃ e ∈ c.extension, Artifact.Marked e) ∨
    ∃ s ∈ c.statements, Artifact.Marked s

theorem marked_renderLines_iff {indent : List Char} {c : BlockContent} (hindent : '{' ∉ indent)
    (hbase : c.base.getLast? ≠ some '{') :
    (Marked (c.renderLines indent) ↔ c.Marked) ∧ (c.renderLines indent).getLast? ≠ some '{' := by
  have hlines := marked_indentLines_iff hindent
  obtain ⟨hstatements, hlast⟩ := marked_flatMap_iff (indentLines indent) c.statements
    fun s _ => (hlines s).2
  unfold BlockContent.renderLines BlockContent.Marked
  cases c.extension with
  | none =>
    rw [List.append_nil, marked_append_of_last hbase, hstatements]
    refine ⟨?_, getLast_append_ne hbase hlast⟩
    simp [(hlines _).1]
  | some e =>
    have hadded := getLast_append_ne hbase (hlines (dropFinalNewline e)).2
    rw [marked_append_of_last hadded, marked_append_of_last hbase, hstatements,
      (hlines _).1, marked_dropFinalNewline_iff, or_assoc]
    refine ⟨?_, getLast_append_ne hadded hlast⟩
    simp [(hlines _).1]

theorem marked_renderWithin_iff {c : BlockContent} : Marked c.renderWithin ↔ c.Marked := by
  have hpieces : (∃ p ∈ c.pieces, Marked p) ↔
      ∃ p ∈ c.base :: c.extension.toList ++ c.statements, Marked p := by
    unfold BlockContent.pieces
    constructor
    · rintro ⟨p, hp, hmarked⟩
      obtain ⟨q, hq, rfl⟩ := List.mem_map.1 (List.mem_filter.1 hp).1
      exact ⟨q, hq, marked_trim_iff.1 hmarked⟩
    · rintro ⟨q, hq, hmarked⟩
      rw [← marked_trim_iff] at hmarked
      refine ⟨trim q, List.mem_filter.2 ⟨List.mem_map_of_mem hq, ?_⟩, hmarked⟩
      cases htrim : trim q with
      | nil => simp [htrim, Marked] at hmarked
      | cons _ _ => rfl
  rw [BlockContent.renderWithin, marked_intercalate_iff (by decide), hpieces, BlockContent.Marked]
  simp [or_and_right, exists_or]

/-! ### Fills -/

def Fill.Unmarked : Fill → Prop
  | .scalar t => hasMarker t.toList = false
  | .block ss => ∀ s ∈ ss, hasMarker s.toList = false

end Covenant.Artifact
