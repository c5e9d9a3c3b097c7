import Covenant.Proofs.Artifact.Seams
import Covenant.Proofs.Template.Edges
import Covenant.Proofs.Text.Words

/-! What a block writes holds its content. A block has content of its own, what the override adds to
it, and the statements of its fill. In the rendered text stand the words of the three, in this
order, none of them lost or repeated. A standalone block writes whole lines: it starts a line and
ends one, and after its own content comes one line for each line that is added. -/
namespace Covenant.Artifact

open Template
open Text (isBlank lines trim words dropFinalNewline indentLine indentLines)

/-! ### Words -/

namespace BlockContent

/-- The words of the content, part by part. -/
def words (c : BlockContent) : List (List Char) :=
  Text.words c.base ++ c.extension.toList.flatMap Text.words ++ c.statements.flatMap Text.words

/-- The lines of what is added to a block. -/
def addedLines (c : BlockContent) : List (List Char) :=
  (c.extension.toList.map dropFinalNewline ++ c.statements).flatMap lines

end BlockContent

theorem words_pieceOf (part : List Char) : (pieceOf part).flatMap words = words part := by
  by_cases hblank : part.all isBlank = true
  · rw [pieceOf_of_blank hblank, Text.words_of_blank hblank]
    rfl
  · have htrim : trim part ≠ [] := fun h => hblank (Text.trim_eq_nil_iff.1 h)
    rw [pieceOf_of_trim htrim, List.flatMap_singleton, Text.words_trim]

theorem words_renderWithin (c : BlockContent) : words c.renderWithin = c.words := by
  have hparts : (fun part => (pieceOf part).flatMap words) = words := funext words_pieceOf
  rw [BlockContent.renderWithin, Text.words_intercalate rfl, pieces_eq, List.flatMap_assoc, hparts,
    List.flatMap_append, List.flatMap_cons, BlockContent.words]

theorem words_shown {indent : List Char} (hindent : indent.all isBlank = true) (line : List Char) :
    words (shown indent line) = words line := by
  unfold shown
  split
  · next hblank => rw [Text.words_of_blank hblank, Text.words_nil]
  · exact Text.words_blank_append hindent line

theorem words_addedLines {indent : List Char} (hindent : indent.all isBlank = true)
    (c : BlockContent) :
    words ((c.addedLines.map (shown indent)).flatMap (· ++ ['\n'])) =
      c.extension.toList.flatMap words ++ c.statements.flatMap words := by
  have hends : ∀ l ∈ c.addedLines.map (shown indent), ∀ d ∈ (l ++ ['\n']).getLast?,
      isBlank d = true := by
    intro l _ d hd
    rw [List.getLast?_concat] at hd
    obtain rfl := Option.some.inj hd
    rfl
  have hline : (fun l => words (shown indent l ++ ['\n'])) = words := by
    funext l
    rw [Text.words_append_blank rfl, words_shown hindent]
  rw [Text.words_flatMap hends, List.flatMap_map, hline, BlockContent.addedLines, List.flatMap_assoc,
    funext Text.words_lines, List.flatMap_append, List.flatMap_map, funext Text.words_dropFinalNewline]

theorem words_renderLines {indent : List Char} {c : BlockContent}
    (hindent : indent.all isBlank = true) (hbase : c.base = [] ∨ c.base.getLast? = some '\n') :
    words (c.renderLines indent) = c.words := by
  have hends : ∀ d ∈ c.base.getLast?, isBlank d = true := by
    intro d hd
    rcases hbase with hnil | hlast
    · rw [hnil] at hd
      cases hd
    · rw [hlast] at hd
      obtain rfl := Option.some.inj hd
      rfl
  rw [renderLines_eq_append, Text.words_append hends, ← BlockContent.addedLines,
    words_addedLines hindent, BlockContent.words, List.append_assoc]

/-! ### Whole lines -/

/-- What a standalone block writes after the text `pre`: whole lines, those of its own content and
one for each line that is added. -/
structure WholeLines (b : Block) (c : BlockContent) (pre region : List Char) : Prop where
  starts : pre = [] ∨ pre.getLast? = some '\n'
  ends : region = [] ∨ region.getLast? = some '\n'
  base : c.base = [] ∨ c.base.getLast? = some '\n'
  extension : ∀ e ∈ c.extension, e.getLast? = some '\n'
  added : region = c.base ++ (c.addedLines.map (shown b.indent)).flatMap (· ++ ['\n'])
  single : ∀ l ∈ c.addedLines, '\n' ∉ shown b.indent l

namespace Fills

variable {f : Fills} {r : Resolved}

theorem getLast_renderSegments {init : List Segment} {cs text : List Char}
    (htext : f.renderSegments r (init ++ [.inline (.text (cs ++ ['\n']))]) = .ok text) :
    text.getLast? = some '\n' := by
  obtain ⟨a, b, _, hb, rfl⟩ := renderSegments_append.1 htext
  obtain ⟨c, d, hc, hd, rfl⟩ := renderSegments_cons.1 hb
  obtain rfl := Except.ok.inj hc
  obtain rfl := Except.ok.inj hd
  simp

theorem extension_ends {b : Block} {c : BlockContent} (hr : r.Edged)
    (hc : f.blockContent r b = .ok c) : ∀ e ∈ c.extension, e.getLast? = some '\n' := by
  obtain ⟨_, _, _, hextension, _⟩ := blockContent_eq_ok_iff.1 hc
  intro e he
  cases ht : r.extension? b.name.value with
  | none =>
    rw [ht] at hextension
    rw [hextension] at he
    cases he
  | some t =>
    rw [ht] at hextension
    obtain ⟨e', he', heq⟩ := hextension
    rw [heq] at he
    obtain rfl := Option.some.inj he
    obtain ⟨init, cs, hinlines⟩ := hr.ends _ t ht
    rw [hinlines] at he'
    exact getLast_renderInlines he'

/-- The content of a block in a rendered body: what its own content and that of the override render
to, and the statements of its fill. -/
structure Holds (f : Fills) (r : Resolved) (b : Block) (c : BlockContent) : Prop where
  base : f.renderInlines b.body = .ok c.base
  extension : match r.extension? b.name.value with
    | some t => ∃ e, f.renderInlines t.inlines = .ok e ∧ c.extension = some e
    | none => c.extension = none
  statements : ∃ ss, f.get? b.name.value = some (.block ss) ∧ c.statements = ss.map String.toList

theorem holds_of_blockContent {b : Block} {c : BlockContent} (hc : f.blockContent r b = .ok c) :
    f.Holds r b c := by
  obtain ⟨ss, hss, hbase, hextension, hstatements⟩ := blockContent_eq_ok_iff.1 hc
  exact ⟨hbase, hextension, ss, statements_eq_ok_iff.1 hss, hstatements⟩

theorem words_regionOf {b : Block} {c : BlockContent} (hb : b.Clear)
    (hc : f.blockContent r b = .ok c) : words (regionOf b c) = c.words := by
  unfold regionOf
  split
  · next hstandalone =>
    exact words_renderLines (isBlank_of_isSpacing (hb.indent hstandalone)) (base_ends hb hstandalone hc)
  · exact words_renderWithin c

theorem wholeLines_of_standalone {role : BodyRole} {before after : List Segment} {b : Block}
    {c : BlockContent} {pre : List Char} (hr : r.Edged) (hb : b.Clear)
    (hsegs : (r.body role).segments = before ++ .block b :: after) (hstandalone : b.standalone = true)
    (hpre : f.renderSegments r before = .ok pre) (hc : f.blockContent r b = .ok c) :
    WholeLines b c pre (regionOf b c) := by
  have hbase := base_ends hb hstandalone hc
  have hadded : regionOf b c =
      c.base ++ (c.addedLines.map (shown b.indent)).flatMap (· ++ ['\n']) := by
    rw [regionOf, if_pos hstandalone, renderLines_eq_append]
    rfl
  refine ⟨?_, ?_, hbase, extension_ends hr hc, hadded, fun l hl => ?_⟩
  · rcases hr.led role before b after hsegs hstandalone with rfl | ⟨init, cs, rfl⟩
    · exact .inl (Except.ok.inj hpre).symm
    · exact .inr (getLast_renderSegments hpre)
  · rw [hadded]
    by_cases hnone : c.addedLines.map (shown b.indent) = []
    · rwa [hnone, List.flatMap_nil, List.append_nil]
    · right
      rw [Text.flatMap_newline hnone, ← List.append_assoc, List.getLast?_concat]
  · obtain ⟨t, _, ht⟩ := List.mem_flatMap.1 hl
    exact newline_not_mem_shown (hb.indent hstandalone) (Text.not_mem_of_mem_pieces ht)

end Fills

/-- Wherever a block stands in a body of a template that comes out of a library, and whatever fills
were verified against the template, the text written for the block has the words of its content, of
what the override adds and of its statements, in this order. A standalone block writes whole lines. -/
theorem block_keeps_content {offers : List Offer} (hoffers : ∀ x ∈ offers, x.Read)
    {contractType jurisdiction : String} {r : Resolved}
    (hr : (Library.ofOffers offers).resolve contractType jurisdiction = .ok r) {f : Fills}
    (hf : f.verify r.slots = .ok ()) {role : BodyRole} {before after : List Segment} {b : Block}
    (hsegs : (r.body role).segments = before ++ .block b :: after) :
    ∃ c pre region post, f.Holds r b c ∧ f.renderSegments r before = .ok pre ∧
      f.renderSegment r (.block b) = .ok region ∧ f.renderSegments r after = .ok post ∧
      f.render r (r.body role) = .ok (pre ++ region ++ post) ∧ words region = c.words ∧
      (b.standalone = true → WholeLines b c pre region) := by
  have hloaded := Library.loaded_ofOffers hoffers
  have hb : b.Clear := (hloaded.clear hr).bodies role (.block b) (by simp [hsegs])
  have hfits := Fills.verify_eq_ok_iff.1 hf
  obtain ⟨text, htext⟩ := Fills.render_of_fits (hloaded.sound.resolve hr).1 hfits role
  have hparts := htext
  rw [Fills.render, hsegs] at hparts
  obtain ⟨pre, rest, hpre, hrest, rfl⟩ := Fills.renderSegments_append.1 hparts
  obtain ⟨region, post, hregion, hpost, rfl⟩ := Fills.renderSegments_cons.1 hrest
  obtain ⟨c, hc, rfl⟩ := Outcome.map_eq_ok_iff.1 hregion
  refine ⟨c, pre, regionOf b c, post, Fills.holds_of_blockContent hc, hpre, hregion, hpost, ?_,
    Fills.words_regionOf hb hc, fun hstandalone => ?_⟩
  · rw [htext, List.append_assoc]
    rfl
  · exact Fills.wholeLines_of_standalone (hloaded.edged hr) hb hsegs hstandalone hpre hc

/-- The fills fit the note, whose block takes up whole lines and is added to by the override. -/
def noteStands (b : Base) (o : Override) : Bool :=
  ((Library.ofOffers (noteOffers b o)).resolve "note" "here").toOption.any fun r =>
    decide (noteFills.verify r.slots = .ok ()) && (r.body .primary).blocks.any fun block =>
      block.standalone && (r.extension? block.name.value).isSome

set_option maxRecDepth 4000 in
theorem note_stands : ∃ b o, Base.read note.text note.name = .ok b ∧
    Override.read noteOverride.text noteOverride.name = .ok o ∧ noteStands b o = true := by
  apply Builtin.pair_of_spelled
  · repeat (apply Text.Spelled.cons; exact rfl)
    exact .nil
  · repeat (apply Text.Spelled.cons; exact rfl)
    exact .nil
  · decide +kernel

theorem note_keeps_content : ∃ b o r before block after,
    (∀ x ∈ noteOffers b o, x.Read) ∧
      (Library.ofOffers (noteOffers b o)).resolve "note" "here" = .ok r ∧
      noteFills.verify r.slots = .ok () ∧
      (r.body .primary).segments = before ++ .block block :: after ∧
      block.standalone = true ∧ (r.extension? block.name.value).isSome = true ∧
      ∃ c pre region post, noteFills.Holds r block c ∧ noteFills.renderSegments r before = .ok pre ∧
        noteFills.renderSegment r (.block block) = .ok region ∧
        noteFills.renderSegments r after = .ok post ∧
        noteFills.render r (r.body .primary) = .ok (pre ++ region ++ post) ∧
        words region = c.words ∧ (block.standalone = true → WholeLines block c pre region) := by
  obtain ⟨b, o, hb, ho, hstands⟩ := note_stands
  obtain ⟨r, hr, hstands⟩ := (Option.any_eq_true _ _).1 hstands
  rw [Bool.and_eq_true, decide_eq_true_eq] at hstands
  obtain ⟨block, hblock, hmode⟩ := List.any_eq_true.1 hstands.2
  rw [Bool.and_eq_true] at hmode
  obtain ⟨before, after, hsegs⟩ := List.append_of_mem (Segment.mem_blocks.1 hblock)
  have hresolve := Builtin.ok_of_toOption hr
  have hoffers := noteOffers_read hb ho
  exact ⟨b, o, r, before, block, after, hoffers, hresolve, hstands.1, hsegs, hmode.1, hmode.2,
    block_keeps_content hoffers hresolve hstands.1 hsegs⟩

end Covenant.Artifact
