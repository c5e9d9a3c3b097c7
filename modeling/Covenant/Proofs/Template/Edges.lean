import Covenant.Proofs.Template.Unmarked

/-! The edges of the texts of a template. A brace in front of a marker would be read as a part of
it, so that a text that a slot or a block follows does not end with one, also once lines have been
cut off. And cutting off the indentation of a standalone block leaves the text before it with a line
that has ended, or leaves nothing at the start of the source. -/
namespace Covenant.Template

/-! ### Last braces -/

/-- Not a text that ends with a brace. -/
def Inline.Firm : Inline → Prop
  | .text cs => cs.getLast? ≠ some '{'
  | .slot _ => True

def Segment.Firm : Segment → Prop
  | .inline i => i.Firm
  | .block _ => True

/-- Every member of a row that another one follows has the property. -/
def UpToLast {α : Type} (P : α → Prop) (xs : List α) : Prop := xs.Pairwise fun x _ => P x

theorem upToLast_append {α : Type} {P : α → Prop} {as bs : List α} {b : α} :
    UpToLast P (as ++ b :: bs) ↔ (∀ a ∈ as, P a) ∧ UpToLast P (b :: bs) := by
  rw [UpToLast, List.pairwise_append]
  constructor
  · rintro ⟨_, hbs, has⟩
    exact ⟨fun a ha => has a ha b List.mem_cons_self, hbs⟩
  · rintro ⟨has, hbs⟩
    exact ⟨List.pairwise_of_forall_mem_list fun a ha _ _ => has a ha, hbs, fun a ha _ _ => has a ha⟩

theorem upToLast_cons {α : Type} {P : α → Prop} {a : α} {as : List α} :
    UpToLast P (a :: as) ↔ (as ≠ [] → P a) ∧ UpToLast P as := by
  rw [UpToLast, List.pairwise_cons]
  refine and_congr_left fun _ => ⟨fun h hne => ?_, fun h b hb => h (List.ne_nil_of_mem hb)⟩
  obtain ⟨b, hb⟩ := List.exists_mem_of_ne_nil _ hne
  exact h b hb

theorem firm_of_suffix {cs ds : List Char} (h : ds <:+ cs) (hcs : cs.getLast? ≠ some '{') :
    ds.getLast? ≠ some '{' := by
  obtain ⟨as, rfl⟩ := h
  intro hds
  rw [List.getLast?_append, hds] at hcs
  exact hcs rfl

/-! ### Texts of a source -/

theorem Segment.Spell.eq_nil {pos : Nat} {segs : List Segment} {os : List Occurrence}
    (h : Segment.Spell pos segs os []) : segs = [] := by
  generalize hcs : ([] : List Char) = cs at h
  cases h with
  | nil => rfl
  | text nonempty => exact absurd (List.append_eq_nil_iff.1 hcs.symm).1 nonempty
  | slot name marker =>
    obtain ⟨tail, rfl⟩ := marker.starts
    cases hcs
  | block _ _ marker =>
    obtain ⟨tail, rfl⟩ := marker.starts
    cases hcs

/-- A brace in front of a marker would have been read with it. -/
theorem Opaque.firm {cs tail : List Char} (h : Opaque cs ('{' :: tail)) :
    cs.getLast? ≠ some '{' := by
  intro hlast
  obtain ⟨as, rfl⟩ := List.getLast?_eq_some_iff.1 hlast
  have hlength := h as tail (by simp)
  rw [List.length_append, List.length_singleton] at hlength
  omega

/-- No text in the content of a block ends with a brace: a marker comes after each of them. -/
theorem Inline.Written.firm {after cs : List Char} {pos : Nat} {is : List Inline}
    (h : Inline.Written after pos is cs) (apart : Inline.Apart is)
    (hafter : ∃ tail, after = '{' :: tail) : ∀ i ∈ is, i.Firm := by
  induction h with
  | nil => simp
  | slot _ _ ih => exact List.forall_mem_cons.2 ⟨trivial, ih apart⟩
  | text _ unmarked rest ih =>
    refine List.forall_mem_cons.2 ⟨?_, ih apart.2⟩
    cases rest with
    | nil =>
      obtain ⟨tail, rfl⟩ := hafter
      exact unmarked.firm
    | text => exact absurd rfl (apart.1 _ _)
    | slot marker =>
      obtain ⟨tail, rfl⟩ := marker.isMarker.starts
      exact unmarked.firm

theorem bodies_firm {pos : Nat} {segs : List Segment} {os : List Occurrence} {cs : List Char}
    (h : Segment.Written pos segs os cs) (apart : Segment.Apart segs) :
    ∀ b, .block b ∈ segs → ∀ i ∈ b.body, i.Firm := by
  induction h with
  | nil => simp
  | @inline _ i _ _ _ _ _ _ ih =>
    cases i with
    | text => simpa using ih apart.2
    | slot => simpa using ih apart
  | block _ content closeMarker _ ih =>
    intro b hb
    rcases List.mem_cons.1 hb with heq | hb
    · cases heq
      obtain ⟨tail, rfl⟩ := closeMarker.isMarker.starts
      exact content.firm apart.1 ⟨_, rfl⟩
    · exact ih apart.2 b hb

/-- Outside blocks no text that something follows ends with a brace. -/
theorem firm_of_spell {pos : Nat} {segs : List Segment} {os : List Occurrence} {cs : List Char}
    (h : Segment.Spell pos segs os cs) (apart : Segment.Apart segs) : UpToLast Segment.Firm segs := by
  induction h with
  | nil => exact .nil
  | slot name _ _ ih => exact upToLast_cons.2 ⟨fun _ => trivial, ih apart⟩
  | block _ _ _ _ _ _ _ _ ih => exact upToLast_cons.2 ⟨fun _ => trivial, ih apart.2⟩
  | @text pos cs ds segs os nonempty hopaque rest ih =>
    refine upToLast_cons.2 ⟨fun hne => ?_, ih apart.2⟩
    rcases rest.head apart.1 with rfl | ⟨tail, rfl⟩
    · exact absurd rest.eq_nil hne
    · exact hopaque.firm

/-! ### Cut lines -/

theorem firm_cutLastLine {is js : List Inline} (h : cutLastLine is = some js)
    (his : UpToLast Inline.Firm is) : UpToLast Inline.Firm js := by
  fun_induction cutLastLine is generalizing js with
  | case1 => cases h
  | case2 cs hcs =>
    obtain rfl := Option.some.inj h
    exact List.pairwise_singleton _ _
  | case3 => cases h
  | case4 => cases h
  | case5 i j rest ih =>
    obtain ⟨ks, hks, rfl⟩ := Option.map_eq_some_iff.1 h
    rw [upToLast_cons] at his
    exact upToLast_cons.2 ⟨fun _ => his.1 (by simp), ih hks his.2⟩

theorem firm_innerLines {is js : List Inline} (h : innerLines is = some js)
    (his : UpToLast Inline.Firm is) : UpToLast Inline.Firm js := by
  simp only [innerLines, Option.bind_eq_bind, Option.bind_eq_some_iff] at h
  obtain ⟨mid, hmid, cut, hcut, heq⟩ := h
  obtain rfl := Option.some.inj heq
  have hfirm := firm_cutLastLine hmid his
  unfold cutFirstLine at hcut
  split at hcut
  · obtain ⟨ds, hds, rfl⟩ := Option.map_eq_some_iff.1 hcut
    obtain ⟨ws, _, rfl⟩ := dropBlankLine_eq_some_iff.1 hds
    rw [upToLast_cons] at hfirm
    refine List.Pairwise.filter _ (upToLast_cons.2 ⟨fun hne => ?_, hfirm.2⟩)
    exact firm_of_suffix ⟨ws ++ ['\n'], by simp⟩ (hfirm.1 hne)
  · cases hcut

theorem cutMarkerLine_suffix (cs : List Char) : cutMarkerLine cs <:+ cs := by
  unfold cutMarkerLine
  cases h : dropBlankLine cs with
  | none => exact List.nil_suffix
  | some ds =>
    obtain ⟨ws, _, rfl⟩ := dropBlankLine_eq_some_iff.1 h
    exact ⟨ws ++ ['\n'], by simp⟩

/-- Nothing is before, or a line that has ended; an emptied text may be left of the first line. -/
def StartsLine : List Segment → Prop
  | [] => True
  | .inline (.text cs) :: before => cs.getLast? = some '\n' ∨ (cs = [] ∧ before = [])
  | _ => False

/-- Without the indentation of a standalone block, what is before it has ended its last line. -/
theorem startsLine_cutIndent {before : List Segment} {indent : List Char}
    (h : indentAfter before = some indent) : StartsLine (cutIndent indent before) := by
  unfold indentAfter at h
  split at h
  · trivial
  · next cs before =>
    split at h
    · next hnewline =>
      split at h
      · obtain rfl := Option.some.inj h
        obtain ⟨as, bs, rfl, hbs⟩ := exists_last_newline (hasNewline_iff.1 hnewline)
        have hlength : (as ++ '\n' :: bs).length - bs.length = as.length + 1 := by
          simp
          omega
        left
        rw [lastLine_newline hbs, hlength, List.append_cons, List.take_left' (by simp)]
        simp
      · cases h
    · split at h
      · next hempty =>
        obtain rfl := Option.some.inj h
        rw [Bool.and_eq_true, List.isEmpty_iff] at hempty
        exact .inr ⟨by simp, hempty.1⟩
      · cases h
  · cases h

/-- What is left before a standalone block does not end with a brace. -/
theorem firm_cutIndent {before : List Segment} {indent : List Char}
    (h : indentAfter before = some indent) (hbefore : ∀ s ∈ before, s.Firm) :
    ∀ s ∈ cutIndent indent before, s.Firm := by
  have hstarts := startsLine_cutIndent h
  unfold cutIndent at hstarts ⊢
  split
  · rw [List.forall_mem_cons] at hbefore ⊢
    refine ⟨?_, hbefore.2⟩
    rcases hstarts with hlast | ⟨hempty, _⟩
    · rw [Segment.Firm, Inline.Firm, hlast]
      decide
    · rw [hempty]
      nofun
  · exact hbefore

/-! ### Settling -/

/-- In a row from its end, every standalone block starts its line. -/
def Led : List Segment → Prop
  | [] => True
  | .block b :: before => (b.standalone = true → StartsLine before) ∧ Led before
  | .inline _ :: before => Led before

theorem led_cutIndent {indent : List Char} {before : List Segment} (h : Led before) :
    Led (cutIndent indent before) := by
  unfold cutIndent
  split
  · exact h
  · exact h

theorem led_settle {before segs : List Segment} {cut : Bool} (hbefore : Led before)
    (hsegs : ∀ b, .block b ∈ segs → b.standalone = false) : Led (settle before cut segs).reverse := by
  fun_induction settle before cut segs with
  | case1 before cut => rwa [List.reverse_reverse]
  | case2 before _ b after b' hb' ih =>
    obtain ⟨indent, body, hindent, _, _, rfl⟩ := standalone?_eq_some_iff.1 hb'
    exact ih ⟨fun _ => startsLine_cutIndent hindent, led_cutIndent hbefore⟩
      fun b hb => hsegs b (List.mem_cons_of_mem _ hb)
  | case3 before _ b after _ ih =>
    refine ih ⟨fun hstandalone => ?_, hbefore⟩ fun b hb => hsegs b (List.mem_cons_of_mem _ hb)
    rw [hsegs b List.mem_cons_self] at hstandalone
    cases hstandalone
  | case4 before cut cs after ih => exact ih hbefore fun b hb => hsegs b (List.mem_cons_of_mem _ hb)
  | case5 before cut name after ih => exact ih hbefore fun b hb => hsegs b (List.mem_cons_of_mem _ hb)

theorem Led.of_append {as bs : List Segment} (h : Led (as ++ bs)) : Led bs := by
  induction as with
  | nil => exact h
  | cons a as ih =>
    cases a with
    | inline i => exact ih h
    | block b => exact ih h.2

/-- A row in which no text that something follows ends with a brace, inside blocks or outside. -/
structure Edged (segs : List Segment) : Prop where
  row : UpToLast Segment.Firm segs
  bodies : ∀ b, .block b ∈ segs → UpToLast Inline.Firm b.body

/-- One segment is settled, and with it those before it. -/
theorem Edged.step {before before' after : List Segment} {s s' : Segment}
    (h : Edged (before.reverse ++ s :: after))
    (hbefore : (∀ x ∈ before, x.Firm) → ∀ x ∈ before', x.Firm)
    (hblocks : ∀ b, .block b ∈ before' → .block b ∈ before) (hs : s.Firm → s'.Firm)
    (hbody : ∀ b, s' = .block b → UpToLast Inline.Firm b.body) :
    Edged ((s' :: before').reverse ++ after) := by
  obtain ⟨hrow, hbodies⟩ := h
  rw [upToLast_append, upToLast_cons] at hrow
  obtain ⟨hfirm, hlast, hafter⟩ := hrow
  rw [List.reverse_cons, List.append_assoc, List.singleton_append]
  refine ⟨upToLast_append.2 ⟨fun x hx => ?_, upToLast_cons.2 ⟨fun hne => hs (hlast hne), hafter⟩⟩, ?_⟩
  · exact hbefore (fun y hy => hfirm y (List.mem_reverse.2 hy)) x (List.mem_reverse.1 hx)
  · intro b hb
    rcases List.mem_append.1 hb with hb | hb
    · refine hbodies b (List.mem_append_left _ ?_)
      exact List.mem_reverse.2 (hblocks b (List.mem_reverse.1 hb))
    · rcases List.mem_cons.1 hb with rfl | hb
      · exact hbody b rfl
      · exact hbodies b (List.mem_append_right _ (List.mem_cons_of_mem _ hb))

theorem block_mem_cutIndent {indent : List Char} {before : List Segment} {b : Block}
    (h : .block b ∈ cutIndent indent before) : .block b ∈ before := by
  unfold cutIndent at h
  split at h
  · rcases List.mem_cons.1 h with heq | h
    · cases heq
    · exact List.mem_cons_of_mem _ h
  · exact h

theorem edged_settle {before segs : List Segment} {cut : Bool}
    (h : Edged (before.reverse ++ segs)) : Edged (settle before cut segs) := by
  fun_induction settle before cut segs with
  | case1 => rwa [List.append_nil] at h
  | case2 before _ b after b' hb' ih =>
    obtain ⟨indent, body, hindent, _, hbody, rfl⟩ := standalone?_eq_some_iff.1 hb'
    refine ih (h.step (firm_cutIndent hindent) (fun _ => block_mem_cutIndent) id ?_)
    rintro _ ⟨rfl⟩
    exact firm_innerLines hbody (h.bodies b (by simp))
  | case3 before _ b after _ ih =>
    refine ih (h.step id (fun _ => id) id ?_)
    rintro _ ⟨rfl⟩
    exact h.bodies b (by simp)
  | case4 before cut cs after ih =>
    refine ih (h.step id (fun _ => id) (fun hcs => ?_) (by simp))
    split
    · exact firm_of_suffix (cutMarkerLine_suffix cs) hcs
    · exact hcs
  | case5 before cut name after ih => exact ih (h.step id (fun _ => id) id (by simp))

/-! ### Templates -/

/-- No text in a template that something follows ends with a brace. -/
theorem edged_of_ofChars {source : List Char} {t : Markup} (h : Markup.ofChars source = .ok t) :
    Edged t.segments := by
  obtain ⟨segs, hsegs, rfl⟩ := Markup.ofChars_eq_ok_iff.1 h
  obtain ⟨hwritten, hapart⟩ := Segment.written_of_ofChars hsegs
  have hedged : Edged segs := ⟨firm_of_spell hwritten.spell hapart, fun b hb =>
    List.pairwise_of_forall_mem_list fun i hi _ _ => bodies_firm hwritten hapart b hb i hi⟩
  obtain ⟨hrow, hbodies⟩ := @edged_settle [] _ false hedged
  exact ⟨List.Pairwise.filter _ hrow, fun b hb => hbodies b (List.mem_filter.1 hb).1⟩

/-- What is left of a started line once emptied texts are dropped. -/
theorem StartsLine.filter {before : List Segment} (h : StartsLine before.reverse) :
    before.filter (fun s => !s.isEmpty) = [] ∨
      ∃ init cs, before.filter (fun s => !s.isEmpty) = init ++ [.inline (.text (cs ++ ['\n']))] := by
  rcases List.eq_nil_or_concat' before with rfl | ⟨init, s, rfl⟩
  · exact .inl rfl
  · rw [List.reverse_concat] at h
    match s, h with
    | .inline (.text cs), h =>
      rcases h with hlast | ⟨rfl, hinit⟩
      · obtain ⟨ds, rfl⟩ := List.getLast?_eq_some_iff.1 hlast
        refine .inr ⟨init.filter fun s => !s.isEmpty, ds, ?_⟩
        rw [List.filter_append, List.filter_cons_of_pos, List.filter_nil]
        cases ds <;> rfl
      · left
        rw [List.reverse_eq_nil_iff.1 hinit]
        rfl

/-- A standalone block is at the start of a template, or it comes after a text that ends with a
newline. -/
theorem led_of_ofChars {source : List Char} {t : Markup} (h : Markup.ofChars source = .ok t)
    {before after : List Segment} {b : Block} (hsegs : t.segments = before ++ .block b :: after)
    (hstandalone : b.standalone = true) :
    before = [] ∨ ∃ init cs, before = init ++ [.inline (.text (cs ++ ['\n']))] := by
  obtain ⟨segs, hread, rfl⟩ := Markup.ofChars_eq_ok_iff.1 h
  obtain ⟨first, rest, hsettled, hfirst, hrest⟩ := List.filter_eq_append_iff.1 hsegs
  obtain ⟨gap, last, rfl, hgap, -, -⟩ := List.filter_eq_cons_iff.1 hrest
  have hled := @led_settle [] segs false trivial (Segment.written_of_ofChars hread).1.unsettled
  rw [hsettled, ← List.append_assoc, List.reverse_append, List.reverse_cons, List.append_assoc] at hled
  have hstarts := hled.of_append.1 hstandalone
  have hbefore : (first ++ gap).filter (fun s => !s.isEmpty) = before := by
    rw [List.filter_append, hfirst, List.filter_eq_nil_iff.2 hgap, List.append_nil]
  exact hbefore ▸ StartsLine.filter hstarts

/-! ### Texts without blocks -/

theorem settle_of_spell {pos : Nat} {segs : List Segment} {cs : List Char}
    (h : Segment.Spell pos segs [] cs) (before : List Segment) :
    (settle before false segs).filter (fun s => !s.isEmpty) =
      before.reverse.filter (fun s => !s.isEmpty) ++ segs := by
  generalize hos : ([] : List Occurrence) = os at h
  induction h generalizing before with
  | nil => rw [settle, List.append_nil]
  | @text pos cs ds segs os nonempty _ _ ih =>
    have hkept : [Segment.inline (.text cs)].filter (fun s => !s.isEmpty) = [.inline (.text cs)] := by
      cases cs with
      | nil => exact absurd rfl nonempty
      | cons c cs => rfl
    rw [settle, if_neg Bool.false_ne_true, ih _ hos, List.reverse_cons, List.filter_append, hkept,
      List.append_assoc, List.singleton_append]
  | slot name _ _ ih =>
    rw [settle, ih _ hos, List.reverse_cons, List.filter_append, List.append_assoc]
    rfl
  | block => cases hos

/-- Where a template has no blocks, its segments are all that its source spells. -/
theorem spell_of_inlineOnly {source : List Char} {t : Markup} (h : Markup.ofChars source = .ok t)
    (ht : t.isInlineOnly = true) : Segment.Spell 0 t.segments [] source := by
  have hsettled := settled_of_ofChars h
  have hblocks : t.blocks = [] := by
    rw [Markup.blocks, Markup.segments_of_isInlineOnly ht]
    simp [Segment.blocks]
  rw [hblocks] at hsettled
  obtain ⟨segs, hsegs, rfl⟩ := Markup.ofChars_eq_ok_iff.1 h
  have hspell := (Segment.spell_of_ofChars hsegs).1
  generalize occurrences source = os at hsettled hspell
  cases hsettled
  have hsettle : (settle [] false segs).filter (fun s => !s.isEmpty) = segs :=
    settle_of_spell hspell []
  simpa only [hsettle] using hspell

theorem IsMarker.newline_after {raw : List Char} (h : IsMarker raw) (cs : List Char) {ds : List Char}
    (hlast : (cs ++ raw ++ ds).getLast? = some '\n') : ds.getLast? = some '\n' := by
  obtain ⟨front, rfl⟩ := h.ends
  cases ds with
  | nil => simp at hlast
  | cons d ds => rwa [List.getLast?_append_of_ne_nil _ (by simp)] at hlast

/-- A source that ends with a newline ends with a text. -/
theorem ends_of_spell {pos : Nat} {segs : List Segment} {os : List Occurrence} {cs : List Char}
    (h : Segment.Spell pos segs os cs) (hlast : cs.getLast? = some '\n') :
    ∃ init ds, segs = init ++ [.inline (.text (ds ++ ['\n']))] := by
  induction h with
  | nil => cases hlast
  | slot name marker _ ih =>
    obtain ⟨init, ds, rfl⟩ := ih (marker.newline_after [] hlast)
    exact ⟨_ :: init, ds, rfl⟩
  | block _ _ _ _ closeMarker _ _ _ ih =>
    obtain ⟨init, ds, rfl⟩ := ih (closeMarker.newline_after _ hlast)
    exact ⟨_ :: init, ds, rfl⟩
  | @text pos cs ds segs os nonempty _ rest ih =>
    by_cases hds : ds = []
    · subst hds
      rw [List.append_nil] at hlast
      obtain ⟨es, rfl⟩ := List.getLast?_eq_some_iff.1 hlast
      exact ⟨[], es, by rw [rest.eq_nil]; rfl⟩
    · rw [List.getLast?_append_of_ne_nil _ hds] at hlast
      obtain ⟨init, es, rfl⟩ := ih hlast
      exact ⟨_ :: init, es, rfl⟩

theorem getLast_terminated (cs : List Char) : (Override.terminated cs).getLast? = some '\n' := by
  unfold Override.terminated
  split
  · assumption
  · simp

/-! ### Resolved templates -/

/-- The texts of a resolved template end with no brace before a marker and with a line before a
standalone block. What an override adds ends with a line. -/
structure Resolved.Edged (r : Resolved) : Prop where
  bodies : ∀ role, Template.Edged (r.body role).segments
  led : ∀ role before b after, (r.body role).segments = before ++ .block b :: after →
    b.standalone = true →
      before = [] ∨ ∃ init cs, before = init ++ [.inline (.text (cs ++ ['\n']))]
  extensions : ∀ slot t, r.extension? slot = some t → UpToLast Inline.Firm t.inlines
  ends : ∀ slot t, r.extension? slot = some t →
    ∃ init cs, t.inlines = init ++ [.text (cs ++ ['\n'])]

theorem Library.Loaded.edged {l : Library} (hl : l.Loaded) {contractType jurisdiction : String}
    {r : Resolved} (h : l.resolve contractType jurisdiction = .ok r) : r.Edged := by
  refine ⟨fun role => ?_, fun role before b after hsegs hstandalone => ?_, fun slot t ht => ?_,
    fun slot t ht => ?_⟩
  · obtain ⟨source, hsource⟩ := hl.source_of_body h role
    exact edged_of_ofChars hsource
  · obtain ⟨source, hsource⟩ := hl.source_of_body h role
    exact led_of_ofChars hsource hsegs hstandalone
  · obtain ⟨source, hsource, honly⟩ := hl.source_of_extension h ht
    have hrow := (edged_of_ofChars hsource).row
    rw [Markup.segments_of_isInlineOnly honly, UpToLast, List.pairwise_map] at hrow
    exact hrow
  · obtain ⟨source, hsource, honly⟩ := hl.source_of_extension h ht
    obtain ⟨init, cs, hends⟩ :=
      ends_of_spell (spell_of_inlineOnly hsource honly) (getLast_terminated source)
    refine ⟨init.flatMap fun | .inline i => [i] | .block _ => [], cs, ?_⟩
    rw [Markup.inlines, hends, List.flatMap_append]
    rfl

end Covenant.Template
