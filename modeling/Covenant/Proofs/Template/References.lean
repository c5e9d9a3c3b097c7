import Covenant.Proofs.Artifact.Verdict
import Covenant.Proofs.Template.Unmarked

/-! The slots that a text refers to. Reading a source groups its markers, joins the texts between
them and cuts the lines of standalone blocks, and none of this adds a marker or loses one: the
references of the text are the markers of the source, in their order. So whether a base template
loads can be told from the markers of its three sources. -/
namespace Covenant.Template

/-- The use of a slot that a token is. -/
def Reference.ofToken : Spanned Token → List Reference
  | ⟨.marker (.slot name), span⟩ => [⟨⟨name, span⟩, .scalar⟩]
  | ⟨.marker (.openBlock name), span⟩ => [⟨⟨name, span⟩, .block⟩]
  | _ => []

/-- The uses of slots in a source. -/
def uses (source : List Char) : List Reference := (lex source).flatMap Reference.ofToken

/-! ### Grouping -/

theorem Inline.references_of_ofToken? {t : Spanned Token} {i : Inline}
    (h : Inline.ofToken? t = some i) : i.references = Reference.ofToken t := by
  obtain ⟨value, span⟩ := t
  cases value with
  | marker m =>
    cases m with
    | slot name =>
      obtain rfl := Option.some.inj h
      rfl
    | openBlock _ => cases h
    | closeBlock => cases h
    | malformed _ => cases h
  | brace =>
    obtain rfl := Option.some.inj h
    rfl
  | newline =>
    obtain rfl := Option.some.inj h
    rfl
  | text _ =>
    obtain rfl := Option.some.inj h
    rfl

theorem references_of_content {is : List Inline} {us : List (Spanned Token)}
    (h : Inline.OfTokens is us) : is.flatMap Inline.references = us.flatMap Reference.ofToken := by
  induction is generalizing us with
  | nil =>
    obtain rfl := List.map_eq_nil_iff.1 h
    rfl
  | cons i is ih =>
    obtain ⟨t, us, rfl, ht, hus⟩ := h.exists_cons
    rw [List.flatMap_cons, List.flatMap_cons, ih hus, Inline.references_of_ofToken? ht]

/-- Grouping keeps the references. -/
theorem Segment.Grouped.references {ts : List (Spanned Token)} {segs : List Segment}
    (h : Segment.Grouped ts segs) :
    segs.flatMap Segment.references = ts.flatMap Reference.ofToken := by
  induction h with
  | nil => rfl
  | inline single _ ih =>
    rw [List.flatMap_cons, List.flatMap_cons, ih, ← Inline.references_of_ofToken? single]
    rfl
  | block content _ ih =>
    rw [List.flatMap_cons, List.flatMap_cons, List.flatMap_append, List.flatMap_cons, ih,
      ← references_of_content content]
    rfl

/-! ### Joining -/

theorem references_inline_join (is : List Inline) :
    (Inline.join is).flatMap Inline.references = is.flatMap Inline.references := by
  fun_induction Inline.join is with
  | case1 => rfl
  | case2 name rest ih => rw [List.flatMap_cons, List.flatMap_cons, ih]
  | case3 cs rest ds tail heq ih =>
    rw [heq] at ih
    exact ih
  | case4 =>
    rename_i ih
    exact ih

theorem references_join (segs : List Segment) :
    (Segment.join segs).flatMap Segment.references = segs.flatMap Segment.references := by
  fun_induction Segment.join segs with
  | case1 => rfl
  | case2 b rest ih =>
    rw [List.flatMap_cons, List.flatMap_cons, ih]
    simp only [Segment.references, references_inline_join]
  | case3 name rest ih => rw [List.flatMap_cons, List.flatMap_cons, ih]
  | case4 cs rest ds tail heq ih =>
    rw [heq] at ih
    exact ih
  | case5 =>
    rename_i ih
    exact ih

/-! ### Settling -/

theorem references_cutLastLine {is js : List Inline} (h : cutLastLine is = some js) :
    js.flatMap Inline.references = is.flatMap Inline.references := by
  fun_induction cutLastLine is generalizing js with
  | case1 => cases h
  | case2 cs _ =>
    obtain rfl := Option.some.inj h
    rfl
  | case3 => cases h
  | case4 => cases h
  | case5 i j rest ih =>
    obtain ⟨ks, hks, rfl⟩ := Option.map_eq_some_iff.1 h
    rw [List.flatMap_cons, List.flatMap_cons, ih hks]

theorem references_cutFirstLine {is js : List Inline} (h : cutFirstLine is = some js) :
    js.flatMap Inline.references = is.flatMap Inline.references := by
  unfold cutFirstLine at h
  split at h
  · obtain ⟨ds, _, rfl⟩ := Option.map_eq_some_iff.1 h
    rfl
  · cases h

theorem Inline.references_of_isEmpty {i : Inline} (h : (!i.isEmpty) = false) :
    i.references = [] := by
  cases i with
  | text _ => rfl
  | slot _ => cases h

theorem Segment.references_of_isEmpty {s : Segment} (h : (!s.isEmpty) = false) :
    s.references = [] := by
  cases s with
  | inline _ => exact Inline.references_of_isEmpty h
  | block _ => cases h

theorem references_innerLines {is js : List Inline} (h : innerLines is = some js) :
    js.flatMap Inline.references = is.flatMap Inline.references := by
  simp only [innerLines, Option.bind_eq_bind, Option.bind_eq_some_iff] at h
  obtain ⟨mid, hmid, cut, hcut, heq⟩ := h
  obtain rfl := Option.some.inj heq
  rw [flatMap_filter_of_nil (fun _ => Inline.references_of_isEmpty), references_cutFirstLine hcut,
    references_cutLastLine hmid]

theorem references_cutIndent (indent : List Char) (before : List Segment) :
    (cutIndent indent before).reverse.flatMap Segment.references =
      before.reverse.flatMap Segment.references := by
  unfold cutIndent
  split
  · simp only [List.reverse_cons, List.flatMap_append]
    rfl
  · rfl

theorem references_pass (s : Segment) (before after : List Segment) :
    (s :: before).reverse.flatMap Segment.references ++ after.flatMap Segment.references =
      before.reverse.flatMap Segment.references ++ (s :: after).flatMap Segment.references := by
  simp only [List.reverse_cons, List.flatMap_append, List.flatMap_cons, List.flatMap_nil,
    List.append_nil, List.append_assoc]

/-- Settling keeps the references, those of the segments already settled first. -/
theorem references_settle (before segs : List Segment) (cut : Bool) :
    (settle before cut segs).flatMap Segment.references =
      before.reverse.flatMap Segment.references ++ segs.flatMap Segment.references := by
  fun_induction settle before cut segs with
  | case1 before _ => exact (List.append_nil _).symm
  | case2 before _ b after b' hb' ih =>
    obtain ⟨indent, body, _, _, hbody, rfl⟩ := standalone?_eq_some_iff.1 hb'
    rw [ih, references_pass, references_cutIndent, List.flatMap_cons, List.flatMap_cons]
    simp only [Segment.references, references_innerLines hbody]
  | case3 before _ b after _ ih => rw [ih, references_pass]
  | case4 before cut cs after ih =>
    rw [ih, references_pass]
    rfl
  | case5 before cut name after ih => rw [ih, references_pass]

/-- A text refers to the slots that its source has markers of. -/
theorem references_of_ofChars {source : List Char} {t : Markup}
    (h : Markup.ofChars source = .ok t) : t.references = uses source := by
  obtain ⟨segs, hsegs, rfl⟩ := Outcome.map_eq_ok_iff.1 h
  rw [Markup.references, Segment.arrange,
    flatMap_filter_of_nil (fun _ => Segment.references_of_isEmpty), references_settle,
    references_join, (Segment.ofTokens_eq_ok_iff.1 hsegs).references]
  rfl

/-! ### Closed slot sets -/

/-- A base template loads exactly when its slot set is closed: its normal name and the names of its
slots are identifiers, the three sources can be read, and their markers are uses of the declared
slots as what they are declared as, with those that state the origin in each source and every slot
in some source, and only scalars are preset. The template then has what its document gives, its
bodies refer to what the sources have markers of, and its slots with their kinds are exactly the
references. -/
theorem Base.loads_iff_closed (origin : String) (d : BaseDraft) :
    ((∃ b, Base.ofDraft origin d = .ok b) ↔
      Ident.isIdent (Ident.normalize d.name) = true ∧
      (∀ slot ∈ d.slots.keys, Ident.isIdent slot = true) ∧
      (∀ role, ∃ t, Markup.ofChars (d.bodies.get role) = .ok t) ∧
      SlotsClosed d.slots d.presets fun role => uses (d.bodies.get role)) ∧
    ∀ b, Base.ofDraft origin d = .ok b →
      b.name = Ident.normalize d.name ∧ b.version = d.version ∧ b.slots = d.slots ∧
      b.presets = d.presets ∧
      (∀ role, Markup.ofChars (d.bodies.get role) = .ok (b.bodies.get role) ∧
        (b.bodies.get role).references = uses (d.bodies.get role)) ∧
      ∀ slot kind, b.slots.get? slot = some kind ↔
        ∃ role, ∃ ref ∈ (b.bodies.get role).references,
          ref.name.value = slot ∧ ref.kind = kind := by
  have hrefs : ∀ bodies : Bodies Markup,
      (∀ role, Markup.ofChars (d.bodies.get role) = .ok (bodies.get role)) →
        (fun role => (bodies.get role).references) = fun role => uses (d.bodies.get role) :=
    fun bodies h => funext fun role => references_of_ofChars (h role)
  refine ⟨⟨?_, ?_⟩, fun b hb => ?_⟩
  · rintro ⟨b, hb⟩
    obtain ⟨hname, hslots, bodies, hbodies, hproblems, rfl⟩ := Base.ofDraft_eq_ok_iff.1 hb
    have hclosed := Base.problems_eq_nil_iff_closed.1 hproblems
    rw [hrefs bodies hbodies] at hclosed
    exact ⟨hname, hslots, fun role => ⟨_, hbodies role⟩, hclosed⟩
  · rintro ⟨hname, hslots, hread, hclosed⟩
    obtain ⟨bodies, hbodies⟩ := Artifact.exists_bodies hread
    rw [← hrefs bodies hbodies] at hclosed
    exact ⟨_, Base.ofDraft_eq_ok_iff.2
      ⟨hname, hslots, bodies, hbodies, Base.problems_eq_nil_iff_closed.2 hclosed, rfl⟩⟩
  · obtain ⟨_, _, bodies, hbodies, hproblems, rfl⟩ := Base.ofDraft_eq_ok_iff.1 hb
    have hclosed := Base.problems_eq_nil_iff_closed.1 hproblems
    exact ⟨rfl, rfl, rfl, rfl,
      fun role => ⟨hbodies role, references_of_ofChars (hbodies role)⟩,
      fun _ _ => hclosed.get?_eq_some_iff⟩

end Covenant.Template
