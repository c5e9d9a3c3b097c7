import Mathlib.Data.List.Basic
import Covenant.Artifact.Rendering
import Covenant.Proofs.Template.Slice
import Covenant.Proofs.Text.Lines
import Covenant.Proofs.Text.Trim

/-! Statements on lines of their own. In a standalone block every line of every statement
has one. In a block within a line the statements share it, so that they keep lines of
their own only if there is nothing to share: one statement at most, of one line, without
white space at its ends, and nothing from the override. -/
namespace Covenant.Artifact

open Template (lastLine isSpacing)
open Text (lines isBlank trim trimStart trimEnd dropFinalNewline indentLine indentLines Tight)

/-! ### Lines as they count -/

/-- A line as it counts: a blank one is empty. -/
def tidy (line : List Char) : List Char := if line.all isBlank then [] else line

theorem tidy_of_blank {line : List Char} (h : line.all isBlank = true) : tidy line = [] := if_pos h

theorem tidy_eq_of_not_blank {line : List Char} {c : Char} (hmem : c ∈ line)
    (hc : isBlank c = false) : tidy line = line := by
  refine if_neg fun hblank => ?_
  rw [List.all_eq_true.1 hblank c hmem] at hc
  cases hc

theorem tidy_ne_nil {line : List Char} {c : Char} (hmem : c ∈ line) (hc : isBlank c = false) :
    tidy line ≠ [] := by
  rw [tidy_eq_of_not_blank hmem hc]
  exact List.ne_nil_of_mem hmem

/-- Lines stand, in their order and each on a line of its own under the indentation, at
the end of the region between two texts: they are its last lines, and the last of them
ends where the region does. -/
def OnOwnLines (indent pre region post : List Char) (ls : List (List Char)) : Prop :=
  ls ≠ [] → (ls.map fun l => tidy (indent ++ l)) <:+
      (lines (lastLine pre ++ dropFinalNewline region)).map tidy ∧
    (region.getLast? = some '\n' ∨ post.head? = some '\n')

theorem isBlank_of_isSpacing {cs : List Char} (h : isSpacing cs = true) : cs.all isBlank = true := by
  rw [List.all_eq_true]
  intro c hc
  have hspace := List.all_eq_true.1 h c hc
  rw [Text.isSpaceOrTab, Bool.or_eq_true, beq_iff_eq, beq_iff_eq] at hspace
  rcases hspace with rfl | rfl
  · rfl
  · rfl

/-! ### Whole lines -/

/-- An indented line without its newline. -/
def shown (indent line : List Char) : List Char := if line.all isBlank then [] else indent ++ line

theorem indentLine_eq (indent line : List Char) :
    indentLine indent line = shown indent line ++ ['\n'] := by
  unfold indentLine shown
  split
  · rfl
  · rfl

theorem tidy_shown {indent : List Char} (h : isSpacing indent = true) (line : List Char) :
    tidy (shown indent line) = tidy (indent ++ line) := by
  unfold shown
  split
  · next hblank =>
    rw [tidy_of_blank (List.all_append.trans (by rw [isBlank_of_isSpacing h, hblank]; rfl))]
    rfl
  · rfl

theorem newline_not_mem_shown {indent line : List Char} (hindent : isSpacing indent = true)
    (hline : '\n' ∉ line) : '\n' ∉ shown indent line := by
  unfold shown
  split
  · simp
  · rw [List.mem_append, not_or]
    exact ⟨Template.newline_not_mem_of_isSpacing hindent, hline⟩

theorem flatMap_indentLines (indent : List Char) (ts : List (List Char)) :
    ts.flatMap (indentLines indent) =
      ((ts.flatMap lines).map (shown indent)).flatMap (· ++ ['\n']) := by
  induction ts with
  | nil => rfl
  | cons t ts ih =>
    rw [List.flatMap_cons, ih, List.flatMap_cons, List.map_append, List.flatMap_append]
    congr 1
    have hline : indentLine indent = fun l => shown indent l ++ ['\n'] :=
      funext (indentLine_eq indent)
    rw [indentLines, List.flatMap_map, hline]

/-- The lines that a standalone block writes after its own content. -/
theorem renderLines_eq_append (indent : List Char) (c : BlockContent) :
    c.renderLines indent = c.base ++
      (((c.extension.toList.map dropFinalNewline ++ c.statements).flatMap lines).map
        (shown indent)).flatMap (· ++ ['\n']) := by
  rw [← flatMap_indentLines, List.flatMap_append, BlockContent.renderLines, List.append_assoc]
  cases c.extension with
  | none => rfl
  | some e => simp

/-- The lines that a standalone block writes when it has no content of its own. -/
theorem renderLines_eq {indent : List Char} {c : BlockContent} (hbase : c.base = []) :
    c.renderLines indent =
      (((c.extension.toList.map dropFinalNewline ++ c.statements).flatMap lines).map
        (shown indent)).flatMap (· ++ ['\n']) := by
  rw [renderLines_eq_append, hbase, List.nil_append]

/-- In a standalone block every line of every statement has a line of its own. -/
theorem renderLines_onOwnLines {indent pre post : List Char} {c : BlockContent}
    (hindent : isSpacing indent = true) (hpre : lastLine pre = []) (hbase : c.base = []) :
    OnOwnLines indent pre (c.renderLines indent) post (c.statements.flatMap lines) := by
  intro hne
  have hlines : ∀ l ∈ ((c.extension.toList.map dropFinalNewline ++ c.statements).flatMap lines).map
      (shown indent), '\n' ∉ l := by
    intro l hl
    obtain ⟨line, hline, rfl⟩ := List.mem_map.1 hl
    obtain ⟨t, _, ht⟩ := List.mem_flatMap.1 hline
    exact newline_not_mem_shown hindent (Text.not_mem_of_mem_pieces ht)
  rw [List.flatMap_append, List.map_append] at hlines
  have hregion := @renderLines_eq indent c hbase
  rw [List.flatMap_append, List.map_append] at hregion
  have hshown : (c.statements.flatMap lines).map (shown indent) ≠ [] := by simpa using hne
  have hsame : ((c.statements.flatMap lines).map (shown indent)).map tidy =
      (c.statements.flatMap lines).map fun l => tidy (indent ++ l) := by
    rw [List.map_map]
    exact List.map_congr_left fun l _ => tidy_shown hindent l
  refine ⟨?_, .inl ?_⟩
  · rw [hpre, List.nil_append, hregion, Text.lines_flatMap (by simp [hne]) hlines, List.map_append,
      hsame]
    exact List.suffix_append _ _
  · rw [hregion, Text.flatMap_newline (by simp [hne])]
    simp

/-! ### Pieces -/

/-- The pieces that a part of a block's content gives: none if it is blank. -/
def pieceOf (part : List Char) : List (List Char) := [trim part].filter (!·.isEmpty)

theorem pieceOf_of_blank {part : List Char} (h : part.all isBlank = true) : pieceOf part = [] := by
  rw [pieceOf, Text.trim_eq_nil_iff.2 h]
  rfl

theorem pieceOf_of_trim {part : List Char} (h : trim part ≠ []) : pieceOf part = [trim part] := by
  simp [pieceOf, h]

theorem pieceOf_eq_nil_iff {part : List Char} : pieceOf part = [] ↔ part.all isBlank = true := by
  rw [← Text.trim_eq_nil_iff]
  by_cases h : trim part = []
  · simp [pieceOf, h]
  · simp [pieceOf_of_trim h, h]

theorem pieces_eq (c : BlockContent) :
    c.pieces = (c.base :: c.extension.toList ++ c.statements).flatMap pieceOf := by
  have hparts : ∀ parts : List (List Char),
      (parts.map trim).filter (!·.isEmpty) = parts.flatMap pieceOf := by
    intro parts
    induction parts with
    | nil => rfl
    | cons part parts ih =>
      rw [List.map_cons, List.flatMap_cons, ← ih, pieceOf, ← List.filter_append]
      rfl
  exact hparts _

theorem tight_of_mem_pieces {c : BlockContent} {p : List Char} (h : p ∈ c.pieces) :
    p ≠ [] ∧ Tight p := by
  obtain ⟨hmem, hne⟩ := List.mem_filter.1 h
  obtain ⟨part, _, rfl⟩ := List.mem_map.1 hmem
  exact ⟨by simpa using hne, Text.tight_trim part⟩

theorem intercalate_concat (qs : List (List Char)) (q : List Char) :
    [' '].intercalate (qs ++ [q]) =
      (if qs.isEmpty then [] else [' '].intercalate qs ++ [' ']) ++ q := by
  induction qs with
  | nil => simp
  | cons p qs ih =>
    rw [List.cons_append, List.intercalate_cons_of_ne_nil (by simp), ih]
    cases qs with
    | nil => simp
    | cons p' qs => simp [List.intercalate_cons_cons]

/-- Joined pieces end like the last of them, not with white space. -/
theorem getLast_intercalate {ps : List (List Char)} (hne : ps ≠ [])
    (h : ∀ p ∈ ps, p ≠ [] ∧ Tight p) :
    ∃ c, ([' '].intercalate ps).getLast? = some c ∧ isBlank c = false := by
  obtain ⟨qs, q, rfl⟩ := (List.eq_nil_or_concat' ps).resolve_left hne
  obtain ⟨hq, htight⟩ := h q (by simp)
  have hc := List.getLast?_eq_some_getLast hq
  refine ⟨q.getLast hq, ?_, htight.last _ hc⟩
  rw [intercalate_concat, List.getLast?_append_of_ne_nil _ hq, hc]

/-! ### Last lines -/

theorem lastLine_eq_self {cs : List Char} (h : '\n' ∉ cs) : lastLine cs = cs := by
  have happend := @Template.lastLine_of_not_newline [] cs h
  simpa [lastLine] using happend

theorem exists_lastLine (cs : List Char) :
    ∃ front, cs = front ++ lastLine cs ∧ '\n' ∉ lastLine cs ∧ ∀ c ∈ front.getLast?, c = '\n' := by
  by_cases h : '\n' ∈ cs
  · obtain ⟨as, bs, rfl, hbs⟩ := Template.exists_last_newline h
    rw [Template.lastLine_newline hbs]
    exact ⟨as ++ ['\n'], by simp, hbs, by simp⟩
  · have hline := lastLine_eq_self h
    exact ⟨[], by rw [hline, List.nil_append], by rwa [hline], by simp⟩

theorem lines_getLast (cs : List Char) : (lines cs).getLast? = some (lastLine cs) := by
  by_cases h : '\n' ∈ cs
  · obtain ⟨as, bs, rfl, hbs⟩ := Template.exists_last_newline h
    rw [Template.lastLine_newline hbs, lines, Text.pieces_append_separator,
      Text.pieces_of_not_mem hbs]
    simp
  · rw [Text.lines_of_not_mem h, lastLine_eq_self h]
    rfl

theorem blank_lastLine {cs : List Char} (h : cs.all isBlank = true) :
    (lastLine cs).all isBlank = true := by
  obtain ⟨front, hcs, _⟩ := exists_lastLine cs
  rw [hcs, List.all_append, Bool.and_eq_true] at h
  exact h.2

/-- A last line ends like its text. -/
theorem getLast_lastLine {cs : List Char} {c : Char} (h : cs.getLast? = some c) (hc : c ≠ '\n') :
    (lastLine cs).getLast? = some c := by
  obtain ⟨front, hcs, _, hfront⟩ := exists_lastLine cs
  rw [hcs, List.getLast?_append] at h
  cases hline : (lastLine cs).getLast? with
  | some d => simpa [hline] using h
  | none =>
    rw [hline] at h
    exact absurd (hfront c (by simpa using h)) hc

/-! ### Blocks within a line -/

variable {indent : List Char}

theorem isBlank_eq_false_of_getLast {cs : List Char} {c : Char} (h : cs.getLast? = some c)
    (hc : isBlank c = false) : ¬cs.all isBlank = true := by
  intro hblank
  rw [List.all_eq_true.1 hblank c (List.mem_of_getLast? h)] at hc
  cases hc

/-- What is left of a text that ends without white space: a part of its last line, or that
line whole and the end of another one. -/
theorem trim_of_lastLine {s : List Char} (h : ∀ c ∈ s.getLast?, isBlank c = false) :
    (∃ ws, ws.all isBlank = true ∧ lastLine s = ws ++ trim s) ∨
      ∃ above, trim s = above ++ '\n' :: lastLine s := by
  obtain ⟨ws, hs, hws⟩ := Text.exists_eq_append_trim h
  obtain ⟨front, hfront, -, hends⟩ := exists_lastLine s
  rcases List.append_eq_append_iff.1 (hs.symm.trans hfront) with
    ⟨mid, rfl, htrim⟩ | ⟨mid, rfl, hline⟩
  · rcases List.eq_nil_or_concat' mid with rfl | ⟨above, c, rfl⟩
    · exact .inl ⟨[], rfl, htrim.symm⟩
    · obtain rfl : c = '\n' := hends c (by rw [← List.append_assoc]; simp)
      exact .inr ⟨above, by rw [htrim, List.append_assoc, List.singleton_append]⟩
  · rw [List.all_append, Bool.and_eq_true] at hws
    exact .inl ⟨mid, hws.2, hline⟩

/-- A piece that ends a line of white space has no other piece before it. -/
theorem alone_of_lastLine {before ws p : List Char} (hindent : isSpacing indent = true)
    (hws : ws.all isBlank = true) (hp : '\n' ∉ p)
    (hbefore : before = [] ∨ ∃ u c, before = u ++ [' '] ∧ u.getLast? = some c ∧ isBlank c = false)
    (h : lastLine (indent ++ before ++ p) = indent ++ ws ++ p) : before = [] ∧ ws = [] := by
  rw [Template.lastLine_of_not_newline hp] at h
  have hopen := List.append_cancel_right h
  rcases hbefore with rfl | ⟨u, c, rfl, hu, hc⟩
  · rw [List.append_nil, lastLine_eq_self (Template.newline_not_mem_of_isSpacing hindent),
      List.self_eq_append_right] at hopen
    exact ⟨rfl, hopen⟩
  · exfalso
    rw [← List.append_assoc, Template.lastLine_of_not_newline (by decide)] at hopen
    have hnewline : c ≠ '\n' := by
      rintro rfl
      cases hc
    have hmem : c ∈ lastLine (indent ++ u) :=
      List.mem_of_getLast? (getLast_lastLine (by rw [List.getLast?_append, hu]; rfl) hnewline)
    have hblank : (indent ++ ws).all isBlank = true := by
      rw [List.all_append, isBlank_of_isSpacing hindent, hws]
      rfl
    rw [List.all_eq_true.1 hblank c (by rw [← hopen]; exact List.mem_append_left _ hmem)] at hc
    cases hc

/-- If the last of the pieces ends the line of the block as the last line of its
statement would, it is that line, and there is no piece before it. -/
theorem piece_of_lastLine {s before : List Char} (hindent : isSpacing indent = true)
    (hne : indent ≠ []) (hs : trim s ≠ [])
    (hbefore : before = [] ∨ ∃ u c, before = u ++ [' '] ∧ u.getLast? = some c ∧ isBlank c = false)
    (h : lastLine (indent ++ before ++ trim s) = indent ++ lastLine s) :
    before = [] ∧ trim s = lastLine s := by
  obtain ⟨c, hlast⟩ : ∃ c, (trim s).getLast? = some c := ⟨_, List.getLast?_eq_some_getLast hs⟩
  have hc : isBlank c = false := (Text.tight_trim s).last c hlast
  have hnewline : c ≠ '\n' := by
    rintro rfl
    cases hc
  obtain ⟨front, hfront, hline, -⟩ := exists_lastLine s
  -- the line of the block and so the line of the statement end with the piece
  have hends : (indent ++ lastLine s).getLast? = some c := by
    rw [← h]
    exact getLast_lastLine (by rw [List.getLast?_append_of_ne_nil _ hs, hlast]) hnewline
  have hlineNe : lastLine s ≠ [] := by
    intro hnil
    rw [hnil, List.append_nil] at hends
    exact isBlank_eq_false_of_getLast hends hc (isBlank_of_isSpacing hindent)
  have hsEnds : ∀ d ∈ s.getLast?, isBlank d = false := by
    intro d hd
    rw [hfront, List.getLast?_append_of_ne_nil _ hlineNe,
      ← List.getLast?_append_of_ne_nil indent hlineNe, hends] at hd
    rwa [← Option.some.inj hd]
  rcases trim_of_lastLine hsEnds with ⟨ws, hws, hpart⟩ | ⟨above, habove⟩
  · have hpiece : '\n' ∉ trim s := by
      rw [hpart, List.mem_append, not_or] at hline
      exact hline.2
    conv at h => rhs; rw [hpart, ← List.append_assoc]
    obtain ⟨rfl, rfl⟩ := alone_of_lastLine hindent hws hpiece hbefore h
    exact ⟨rfl, hpart.symm⟩
  · -- the piece takes in an earlier line, so that its last one has lost the indentation
    exfalso
    rw [habove, ← List.append_assoc, Template.lastLine_newline hline,
      List.self_eq_append_left] at h
    exact hne h

/-- Nothing to share the line with: one statement of one line, which is blank or has no
white space at its ends, and nothing from the override. -/
structure Single (c : BlockContent) : Prop where
  extension : ∀ e ∈ c.extension, e.all isBlank = true
  statement : ∃ s, c.statements = [s] ∧ '\n' ∉ s ∧ (s.all isBlank = true ∨ trim s = s)

theorem not_newline_getLast_renderWithin (c : BlockContent) :
    c.renderWithin = [] ∨ ∃ d, c.renderWithin.getLast? = some d ∧ isBlank d = false := by
  by_cases hps : c.pieces = []
  · left
    rw [BlockContent.renderWithin, hps]
    rfl
  · exact .inr (getLast_intercalate hps fun p hp => tight_of_mem_pieces hp)

theorem dropFinalNewline_renderWithin (c : BlockContent) :
    dropFinalNewline c.renderWithin = c.renderWithin := by
  unfold dropFinalNewline
  split
  · next rest hrest =>
    exfalso
    have hnewline : c.renderWithin.getLast? = some '\n' := by
      rw [← List.head?_reverse, hrest]
      rfl
    rcases not_newline_getLast_renderWithin c with hnil | ⟨d, hd, hblank⟩
    · rw [hnil] at hnewline
      cases hnewline
    · rw [hnewline] at hd
      obtain rfl := Option.some.inj hd
      cases hblank
  · rfl

theorem single_onOwnLines {pre post : List Char} {c : BlockContent}
    (hindent : isSpacing (lastLine pre) = true) (hbase : c.base.all isBlank = true)
    (hpost : post.head? = some '\n') (h : Single c) :
    OnOwnLines (lastLine pre) pre c.renderWithin post (c.statements.flatMap lines) := by
  obtain ⟨hextension, s, hs, hnewline, htrim⟩ := h
  have hpieces : c.pieces = pieceOf s := by
    have hext : c.extension.toList.flatMap pieceOf = [] := by
      rw [List.flatMap_eq_nil_iff]
      exact fun e he => pieceOf_of_blank (hextension e (Option.mem_toList.1 he))
    rw [pieces_eq, hs, List.flatMap_append, List.flatMap_cons, pieceOf_of_blank hbase, hext]
    simp
  intro _
  refine ⟨?_, .inr hpost⟩
  rw [dropFinalNewline_renderWithin, hs, List.flatMap_singleton, Text.lines_of_not_mem hnewline,
    BlockContent.renderWithin, hpieces]
  by_cases hblank : s.all isBlank = true
  · have hline : (lastLine pre ++ s).all isBlank = true := by
      rw [List.all_append, isBlank_of_isSpacing hindent, hblank]
      rfl
    refine ⟨[], ?_⟩
    rw [pieceOf_of_blank hblank, List.intercalate_nil, List.append_nil,
      Text.lines_of_not_mem (Template.newline_not_mem_of_isSpacing hindent), List.map_singleton,
      List.map_singleton, tidy_of_blank hline, tidy_of_blank (isBlank_of_isSpacing hindent),
      List.nil_append]
  · have htrim := htrim.resolve_left hblank
    have hne : trim s ≠ [] := fun hnil => hblank (Text.trim_eq_nil_iff.1 hnil)
    have hline : '\n' ∉ lastLine pre ++ s := by
      rw [List.mem_append, not_or]
      exact ⟨Template.newline_not_mem_of_isSpacing hindent, hnewline⟩
    rw [pieceOf_of_trim hne, htrim, List.intercalate_singleton, Text.lines_of_not_mem hline]
    exact List.suffix_rfl

theorem lines_flatMap_concat {c : BlockContent} {init : List (List Char)} {s : List Char}
    (hs : c.statements = init ++ [s]) :
    c.statements.flatMap lines = init.flatMap lines ++ lines s := by
  rw [hs, List.flatMap_append, List.flatMap_singleton]

/-- The last line of the last statement stands where the line of the block ends, and the
block has no fewer lines than the statements. -/
theorem lastLine_of_onOwnLines {pre post : List Char} {c : BlockContent} {init : List (List Char)}
    {s : List Char} (hs : c.statements = init ++ [s])
    (h : OnOwnLines (lastLine pre) pre c.renderWithin post (c.statements.flatMap lines)) :
    tidy (lastLine pre ++ lastLine s) = tidy (lastLine (lastLine pre ++ c.renderWithin)) ∧
      (init.flatMap lines).length + (lines s).length ≤
        (lines (lastLine pre ++ c.renderWithin)).length := by
  have hlines := lines_flatMap_concat hs
  have hne : c.statements.flatMap lines ≠ [] := by
    rw [hlines]
    exact List.append_ne_nil_of_right_ne_nil _ (Text.lines_ne_nil s)
  obtain ⟨hsuffix, -⟩ := h hne
  rw [dropFinalNewline_renderWithin] at hsuffix
  constructor
  · obtain ⟨above, habove⟩ := hsuffix
    have hends := congrArg List.getLast? habove
    rw [List.getLast?_append_of_ne_nil _ (by simpa using hne), List.getLast?_map,
      List.getLast?_map, lines_getLast, hlines,
      List.getLast?_append_of_ne_nil _ (Text.lines_ne_nil s), lines_getLast] at hends
    exact Option.some.inj hends
  · have hcount := hsuffix.length_le
    rwa [List.length_map, List.length_map, hlines, List.length_append] at hcount

/-- When the line of the block is not blank, its last piece is all there is on it. -/
theorem renderWithin_of_lastLine {c : BlockContent} {init : List (List Char)} {s : List Char}
    (hindent : isSpacing indent = true) (hne : indent ≠ []) (hsome : c.pieces ≠ [])
    (hpieces : c.pieces = (c.extension.toList ++ init).flatMap pieceOf ++ pieceOf s)
    (hlast : tidy (indent ++ lastLine s) = tidy (lastLine (indent ++ c.renderWithin))) :
    (c.extension.toList ++ init).flatMap pieceOf = [] ∧ trim s = lastLine s ∧
      c.renderWithin = lastLine s := by
  obtain ⟨d, hd, hblank⟩ := getLast_intercalate hsome fun p hp => tight_of_mem_pieces hp
  rw [← BlockContent.renderWithin] at hd
  have hmem : d ∈ lastLine (indent ++ c.renderWithin) := by
    refine List.mem_of_getLast? (getLast_lastLine ?_ ?_)
    · rw [List.getLast?_append, hd]
      rfl
    · rintro rfl
      cases hblank
  have hnotBlank : ¬(indent ++ lastLine s).all isBlank = true := by
    intro hall
    rw [tidy_of_blank hall] at hlast
    exact tidy_ne_nil hmem hblank hlast.symm
  have htrim : trim s ≠ [] := by
    intro hnil
    refine hnotBlank ?_
    rw [List.all_append, isBlank_of_isSpacing hindent, Bool.true_and]
    exact blank_lastLine (Text.trim_eq_nil_iff.1 hnil)
  rw [tidy, if_neg hnotBlank, tidy_eq_of_not_blank hmem hblank] at hlast
  rw [pieceOf_of_trim htrim] at hpieces
  have hwithin := intercalate_concat ((c.extension.toList ++ init).flatMap pieceOf) (trim s)
  rw [← hpieces, ← BlockContent.renderWithin] at hwithin
  by_cases hnone : (c.extension.toList ++ init).flatMap pieceOf = []
  · rw [hnone, List.isEmpty_nil, if_pos rfl, List.nil_append] at hwithin
    rw [hwithin, ← List.append_nil indent] at hlast
    have hline := piece_of_lastLine hindent hne htrim (.inl rfl)
      (by rw [← hlast, List.append_nil])
    exact ⟨hnone, hline.2, by rw [hwithin, hline.2]⟩
  · exfalso
    obtain ⟨e, he, hblank⟩ := getLast_intercalate hnone fun p hp =>
      tight_of_mem_pieces (hpieces ▸ List.mem_append_left _ hp)
    rw [if_neg (by simpa using hnone)] at hwithin
    rw [hwithin, ← List.append_assoc] at hlast
    have hline := piece_of_lastLine hindent hne htrim (.inr ⟨_, e, rfl, he, hblank⟩) hlast.symm
    simp at hline

theorem single_of_onOwnLines {pre post : List Char} {c : BlockContent}
    (hindent : isSpacing (lastLine pre) = true) (hne : lastLine pre ≠ [])
    (hbase : c.base.all isBlank = true) (hstatements : c.statements ≠ [])
    (h : OnOwnLines (lastLine pre) pre c.renderWithin post (c.statements.flatMap lines)) :
    Single c := by
  obtain ⟨init, s, hs⟩ := (List.eq_nil_or_concat' c.statements).resolve_left hstatements
  obtain ⟨hlast, hcount⟩ := lastLine_of_onOwnLines hs h
  have hpieces : c.pieces = (c.extension.toList ++ init).flatMap pieceOf ++ pieceOf s := by
    rw [pieces_eq, hs, List.flatMap_append, List.flatMap_cons, pieceOf_of_blank hbase,
      List.flatMap_append, List.flatMap_append, List.flatMap_singleton]
    simp
  have hone : '\n' ∉ c.renderWithin → init = [] ∧ '\n' ∉ s := by
    intro hwithin
    have hline : '\n' ∉ lastLine pre ++ c.renderWithin := by
      rw [List.mem_append, not_or]
      exact ⟨Template.newline_not_mem_of_isSpacing hindent, hwithin⟩
    rw [Text.lines_of_not_mem hline] at hcount
    exact Text.single_of_length_lines hcount
  have hextension : (c.extension.toList ++ init).flatMap pieceOf = [] →
      ∀ e ∈ c.extension, e.all isBlank = true := by
    intro hnil e he
    rw [List.flatMap_eq_nil_iff] at hnil
    exact pieceOf_eq_nil_iff.1 (hnil e (List.mem_append_left _ (Option.mem_toList.2 he)))
  by_cases hnone : c.pieces = []
  · have hwithin : c.renderWithin = [] := by
      rw [BlockContent.renderWithin, hnone]
      rfl
    obtain ⟨rfl, hnewline⟩ := hone (by simp [hwithin])
    rw [hpieces, List.append_eq_nil_iff] at hnone
    exact ⟨hextension hnone.1, s, hs, hnewline, .inl (pieceOf_eq_nil_iff.1 hnone.2)⟩
  · obtain ⟨hothers, htrim, hwithin⟩ := renderWithin_of_lastLine hindent hne hnone hpieces hlast
    obtain ⟨_, _, hline, _⟩ := exists_lastLine s
    obtain ⟨rfl, hnewline⟩ := hone (by rwa [hwithin])
    rw [lastLine_eq_self hnewline] at htrim
    exact ⟨hextension hothers, s, hs, hnewline, .inr htrim⟩

/-- In a block within a line, with blank content and white space before it on its line,
the statements have lines of their own exactly when there are none or a single one. -/
theorem renderWithin_onOwnLines_iff {pre post : List Char} {c : BlockContent}
    (hindent : isSpacing (lastLine pre) = true) (hne : lastLine pre ≠ [])
    (hbase : c.base.all isBlank = true) (hpost : post.head? = some '\n') :
    OnOwnLines (lastLine pre) pre c.renderWithin post (c.statements.flatMap lines) ↔
      c.statements = [] ∨ Single c := by
  constructor
  · intro h
    by_cases hstatements : c.statements = []
    · exact .inl hstatements
    · exact .inr (single_of_onOwnLines hindent hne hbase hstatements h)
  · rintro (hnone | hsingle)
    · intro hlines
      rw [hnone] at hlines
      exact absurd rfl hlines
    · exact single_onOwnLines hindent hbase hpost hsingle

end Covenant.Artifact
