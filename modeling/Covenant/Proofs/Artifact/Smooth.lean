import Covenant.Proofs.Artifact.Compose
import Covenant.Proofs.Artifact.Sealing
import Covenant.Proofs.Artifact.Seams
import Covenant.Proofs.Template.Edges

/-! Filling makes no markers. Texts that are put next to each other make a marker only where a brace
meets a brace. A text of a template that something follows does not end with one; when no fill ends
with one either, nor the content that a block has of its own, nor what the override adds, then no
text does that something follows in a rendered body. Fills without markers then leave none. -/
namespace Covenant.Artifact

open Template
open Text (isBlank trim trimEnd)

/-! ### Last braces -/

/-- The last character is an opening brace, when white space at the end does not count. -/
def EndsInBrace (cs : List Char) : Prop := (trimEnd cs).getLast? = some '{'

instance : DecidablePred EndsInBrace := fun cs =>
  inferInstanceAs (Decidable ((trimEnd cs).getLast? = some '{'))

theorem endsInBrace_of_getLast {cs : List Char} (h : cs.getLast? = some '{') : EndsInBrace cs := by
  obtain ⟨as, rfl⟩ := List.getLast?_eq_some_iff.1 h
  rw [EndsInBrace, Text.trimEnd_of_last rfl, List.getLast?_concat]

theorem endsInBrace_of_trim {cs : List Char} (h : (trim cs).getLast? = some '{') :
    EndsInBrace cs := by
  obtain ⟨ws, ws', heq, _, hws'⟩ := Text.exists_eq_trim cs
  obtain ⟨as, has⟩ := List.getLast?_eq_some_iff.1 h
  rw [EndsInBrace, heq, Text.trimEnd_append_blank hws', has, ← List.append_assoc,
    Text.trimEnd_of_last rfl, List.getLast?_concat]

/-- What a block within a line writes ends like a part of its content, white space left aside. -/
theorem exists_part_of_getLast {c : BlockContent} {d : Char} (h : c.renderWithin.getLast? = some d) :
    ∃ part ∈ c.base :: c.extension.toList ++ c.statements, (trim part).getLast? = some d := by
  rcases List.eq_nil_or_concat' c.pieces with hnone | ⟨qs, q, hq⟩
  · rw [BlockContent.renderWithin, hnone] at h
    cases h
  · have hmem : q ∈ c.pieces := by simp [hq]
    obtain ⟨part, hpart, rfl⟩ := List.mem_map.1 (List.mem_filter.1 hmem).1
    rw [BlockContent.renderWithin, hq, intercalate_concat,
      List.getLast?_append_of_ne_nil _ (tight_of_mem_pieces hmem).1] at h
    exact ⟨part, hpart, h⟩

/-! ### Rows -/

/-- No braces meet in a row when no part that another one follows comes to a text that ends with a
brace. -/
theorem not_rowSeam {α : Type} {part : α → Except Error (List Char)} {xs : List α}
    (h : UpToLast (fun x => ∀ t, part x = .ok t → t.getLast? ≠ some '{') xs) : ¬RowSeam part xs := by
  rintro ⟨texts, htexts, hmeet⟩
  induction htexts with
  | nil => exact not_bracesMeet_nil hmeet
  | @cons x t xs texts hx hrest ih =>
    rw [upToLast_cons] at h
    rcases bracesMeet_cons.1 hmeet with ⟨hlast, hhead⟩ | hmeet
    · refine h.1 ?_ t hx hlast
      rintro rfl
      cases hrest
      cases hhead
    · exact ih h.2 hmeet

/-- The scalar value or the statements of a fill. -/
def Fill.texts : Fill → List String
  | .scalar t => [t]
  | .block ss => ss

theorem Fill.unmarked_iff {fill : Fill} :
    fill.Unmarked ↔ ∀ t ∈ fill.texts, hasMarker t.toList = false := by
  cases fill with
  | scalar t => simp [Unmarked, texts]
  | block ss => exact Iff.rfl

namespace Fills

/-- No text that is put into a body ends with a brace: none in a fill, nor what a block has of its
own, nor what the override adds. -/
structure Smooth (f : Fills) (r : Resolved) : Prop where
  fills : ∀ slot fill, f.get? slot = some fill → ∀ t ∈ fill.texts, ¬EndsInBrace t.toList
  bases : ∀ role, ∀ b ∈ (r.body role).blocks, ∀ text, f.renderInlines b.body = .ok text →
    ¬EndsInBrace text
  extensions : ∀ slot t, r.extension? slot = some t → ∀ text, f.renderInlines t.inlines = .ok text →
    ¬EndsInBrace text

variable {f : Fills} {r : Resolved}

theorem Smooth.inline (hf : f.Smooth r) {i : Inline} (hi : i.Firm) {text : List Char}
    (htext : f.renderInline i = .ok text) : text.getLast? ≠ some '{' := by
  cases i with
  | text cs =>
    obtain rfl := Except.ok.inj htext
    exact hi
  | slot name =>
    obtain ⟨t, ht, rfl⟩ := Outcome.map_eq_ok_iff.1 htext
    exact fun hlast => hf.fills _ _ (text_eq_ok_iff.1 ht) t (List.mem_singleton_self t)
      (endsInBrace_of_getLast hlast)

theorem Smooth.not_rowSeam_inlines (hf : f.Smooth r) {is : List Inline}
    (his : UpToLast Inline.Firm is) : ¬RowSeam f.renderInline is :=
  not_rowSeam (his.imp fun hi _ => hf.inline hi)

theorem Smooth.part (hf : f.Smooth r) {role : BodyRole} {b : Block} {c : BlockContent}
    (hb : b ∈ (r.body role).blocks) (hc : f.blockContent r b = .ok c) :
    ∀ part ∈ c.base :: c.extension.toList ++ c.statements, ¬EndsInBrace part := by
  obtain ⟨ss, hss, hbase, hextension, hstatements⟩ := blockContent_eq_ok_iff.1 hc
  intro part hpart
  rcases List.mem_append.1 hpart with hpart | hpart
  · rcases List.mem_cons.1 hpart with rfl | hpart
    · exact hf.bases role b hb _ hbase
    · cases ht : r.extension? b.name.value with
      | none =>
        rw [ht] at hextension
        rw [hextension] at hpart
        cases hpart
      | some t =>
        rw [ht] at hextension
        obtain ⟨e, he, heq⟩ := hextension
        rw [heq] at hpart
        obtain rfl := List.mem_singleton.1 hpart
        exact hf.extensions _ t ht _ he
  · rw [hstatements] at hpart
    obtain ⟨s, hs, rfl⟩ := List.mem_map.1 hpart
    exact hf.fills _ _ (statements_eq_ok_iff.1 hss) s hs

theorem Smooth.region (hf : f.Smooth r) {role : BodyRole} {b : Block} {c : BlockContent}
    (hclear : b.Clear) (hb : b ∈ (r.body role).blocks) (hc : f.blockContent r b = .ok c) :
    (regionOf b c).getLast? ≠ some '{' := by
  unfold regionOf
  split
  · next hstandalone =>
    have hindent := not_mem_of_blank (isBlank_of_isSpacing (hclear.indent hstandalone))
    exact (marked_renderLines_iff hindent (getLast_base hclear hstandalone hc)).2
  · intro hlast
    obtain ⟨part, hpart, hends⟩ := exists_part_of_getLast hlast
    exact hf.part hb hc part hpart (endsInBrace_of_trim hends)

theorem Smooth.segment (hf : f.Smooth r) (hclear : r.Clear) {role : BodyRole} {s : Segment}
    (hs : s ∈ (r.body role).segments) (hfirm : s.Firm) {text : List Char}
    (htext : f.renderSegment r s = .ok text) : text.getLast? ≠ some '{' := by
  cases s with
  | inline i => exact hf.inline hfirm htext
  | block b =>
    obtain ⟨c, hc, rfl⟩ := Outcome.map_eq_ok_iff.1 htext
    exact hf.region (hclear.bodies role _ hs) (Segment.mem_blocks.2 hs) hc

/-- No braces meet in a body, between its segments or in its blocks. -/
theorem Smooth.not_seam (hf : f.Smooth r) (hclear : r.Clear) (hedged : r.Edged) (role : BodyRole) :
    ¬f.Seam r (r.body role) := by
  rintro (hseam | ⟨b, hb, hseam | ⟨t, ht, hseam⟩⟩)
  · refine not_rowSeam (List.Pairwise.imp_of_mem ?_ (hedged.bodies role).row) hseam
    intro s _ hs _ hfirm text htext
    exact hf.segment hclear hs hfirm htext
  · exact hf.not_rowSeam_inlines ((hedged.bodies role).bodies b (Segment.mem_blocks.1 hb)) hseam
  · exact hf.not_rowSeam_inlines (hedged.extensions _ t ht) hseam

end Fills

/-- Whatever has been registered in a library, and whatever fills were verified against a template
that comes out of it: when no fill has a marker in it, and no text that is put into a body ends with
a brace, every body renders to a text without markers, and is not refused for one. -/
theorem renderBody_of_smooth {offers : List Offer} (hoffers : ∀ x ∈ offers, x.Read)
    {contractType jurisdiction : String} {r : Resolved}
    (hr : (Library.ofOffers offers).resolve contractType jurisdiction = .ok r) {f : Fills}
    (hf : f.verify r.slots = .ok ()) (hunmarked : f.Unmarked) (hsmooth : f.Smooth r)
    (role : BodyRole) :
    ∃ text, f.render r (r.body role) = .ok text ∧ ¬Marked text ∧
      renderBody f r role = .ok (String.ofList text) := by
  have hloaded := Library.loaded_ofOffers hoffers
  have hclear := hloaded.clear hr
  have hfits := Fills.verify_eq_ok_iff.1 hf
  obtain ⟨text, htext⟩ := Fills.render_of_fits (hloaded.sound.resolve hr).1 hfits role
  have hclean : ¬Marked text := by
    intro hmarked
    rcases (Fills.marked_render_iff hclear (hloaded.inlineExtensions hr) htext).1 hmarked with
      ⟨ref, _, fill, hget, hfill⟩ | hseam
    · exact hfill (hunmarked _ fill hget)
    · exact hsmooth.not_seam hclear (hloaded.edged hr) role hseam
  exact ⟨text, htext, hclean, renderBody_eq_ok_iff.2 ⟨text, htext, unmarked_iff.2 hclean, rfl⟩⟩

/-- What the texts and slots render to with the fills of the note does not end with a brace. -/
def isSmooth (is : List Inline) : Bool :=
  (noteFills.renderInlines is).toOption.all fun text => decide (¬EndsInBrace text)

theorem not_endsInBrace_of_isSmooth {is : List Inline} (h : isSmooth is = true) {text : List Char}
    (htext : noteFills.renderInlines is = .ok text) : ¬EndsInBrace text := by
  rw [isSmooth, htext] at h
  exact of_decide_eq_true h

/-- The fills fit the note, and no text of its blocks ends with a brace. -/
def noteSmooth (b : Base) (o : Override) : Bool :=
  ((Library.ofOffers (noteOffers b o)).resolve "note" "here").toOption.any fun r =>
    decide (noteFills.verify r.slots = .ok ()) &&
      ((BodyRole.all.all fun role => (r.body role).blocks.all fun block => isSmooth block.body) &&
        r.overlay.all fun o => o.blocks.entries.all fun e => isSmooth e.2.inlines)

set_option maxRecDepth 4000 in
theorem note_smooth : ∃ b o, Base.read note.text note.name = .ok b ∧
    Override.read noteOverride.text noteOverride.name = .ok o ∧ noteSmooth b o = true := by
  apply Builtin.pair_of_spelled
  · repeat (apply Text.Spelled.cons; exact rfl)
    exact .nil
  · repeat (apply Text.Spelled.cons; exact rfl)
    exact .nil
  · decide +kernel

theorem noteFills_clean {slot : String} {fill : Fill} (h : noteFills.get? slot = some fill) :
    ∀ t ∈ fill.texts, hasMarker t.toList = false ∧ ¬EndsInBrace t.toList := by
  have hclean : ∀ e ∈ [("jurisdiction", Fill.scalar "here"), ("contract_type", .scalar "note"),
      ("legal_requirements", .scalar "[]"), ("clauses", .block ["a;", "b;"])],
      ∀ t ∈ e.2.texts, hasMarker t.toList = false ∧ ¬EndsInBrace t.toList := by
    decide
  exact hclean _ (Table.mem_of_mem_ofList (Table.mem_entries.2 h))

theorem note_unmarked : ∃ b o r, (∀ x ∈ noteOffers b o, x.Read) ∧
    (Library.ofOffers (noteOffers b o)).resolve "note" "here" = .ok r ∧
    noteFills.verify r.slots = .ok () ∧ noteFills.Unmarked ∧ noteFills.Smooth r ∧
    ∃ text, noteFills.render r (r.body .primary) = .ok text ∧ ¬Marked text ∧
      renderBody noteFills r .primary = .ok (String.ofList text) := by
  obtain ⟨b, o, hb, ho, hcheck⟩ := note_smooth
  obtain ⟨r, hr, hcheck⟩ := (Option.any_eq_true _ _).1 hcheck
  rw [Bool.and_eq_true, Bool.and_eq_true, decide_eq_true_eq] at hcheck
  obtain ⟨hverify, hbases, hextensions⟩ := hcheck
  have hresolve := Builtin.ok_of_toOption hr
  have hoffers := noteOffers_read hb ho
  have hunmarked : noteFills.Unmarked := fun _ _ hget =>
    Fill.unmarked_iff.2 fun t ht => (noteFills_clean hget t ht).1
  have hsmooth : noteFills.Smooth r := by
    refine ⟨fun _ _ hget t ht => (noteFills_clean hget t ht).2, fun role block hblock text htext => ?_,
      fun slot t ht text htext => ?_⟩
    · have hrole : role ∈ BodyRole.all := by cases role <;> decide
      have hblocks := List.all_eq_true.1 hbases role hrole
      exact not_endsInBrace_of_isSmooth (List.all_eq_true.1 hblocks block hblock) htext
    · obtain ⟨o', ho', ht⟩ := Option.bind_eq_some_iff.1 ht
      rw [ho'] at hextensions
      have hentry := List.all_eq_true.1 hextensions (slot, t) (Table.mem_entries.2 ht)
      exact not_endsInBrace_of_isSmooth hentry htext
  exact ⟨b, o, r, hoffers, hresolve, hverify, hunmarked, hsmooth,
    renderBody_of_smooth hoffers hresolve hverify hunmarked hsmooth .primary⟩

end Covenant.Artifact
