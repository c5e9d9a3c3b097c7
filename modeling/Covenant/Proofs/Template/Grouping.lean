import Covenant.Proofs.Outcome
import Covenant.Template.Segment

/-! What grouping tokens into segments takes and gives. A token is a text or slot by itself, or
opens or closes a block, or is malformed; the tokens that can be grouped are rows of the first kind,
some of them between a token that opens a block and one that closes it. -/
namespace Covenant.Template

/-! ### The kinds of tokens -/

/-- A token that is no text or slot by itself is a marker of another kind. -/
theorem Inline.marker_of_ofToken? {t : Spanned Token} (h : Inline.ofToken? t = none) :
    (∃ name, t.value = .marker (.openBlock name)) ∨ t.value = .marker .closeBlock ∨
      ∃ inner, t.value = .marker (.malformed inner) := by
  obtain ⟨value, span⟩ := t
  cases value with
  | marker m =>
    cases m with
    | slot _ => cases h
    | openBlock name => exact .inl ⟨name, rfl⟩
    | closeBlock => exact .inr (.inl rfl)
    | malformed inner => exact .inr (.inr ⟨inner, rfl⟩)
  | brace => cases h
  | newline => cases h
  | text _ => cases h

/-- A token is a text or slot by itself, or a marker of one of the three other kinds. -/
inductive TokenKind : Spanned Token → Prop
  | inline {t i} (h : Inline.ofToken? t = some i) : TokenKind t
  | opening (name span) : TokenKind ⟨.marker (.openBlock name), span⟩
  | closing (span) : TokenKind ⟨.marker .closeBlock, span⟩
  | malformed (inner span) : TokenKind ⟨.marker (.malformed inner), span⟩

theorem tokenKind (t : Spanned Token) : TokenKind t := by
  cases h : Inline.ofToken? t with
  | some i => exact .inline h
  | none =>
    obtain ⟨value, span⟩ := t
    rcases Inline.marker_of_ofToken? h with ⟨name, rfl⟩ | rfl | ⟨inner, rfl⟩
    · exact .opening name span
    · exact .closing span
    · exact .malformed inner span

/-- The contents are texts and slots that the tokens are by themselves. -/
def Inline.OfTokens (is : List Inline) (ts : List (Spanned Token)) : Prop :=
  ts.map Inline.ofToken? = is.map some

theorem OpenBlock.ofTokens_push {b : OpenBlock} {us : List (Spanned Token)} {t : Spanned Token}
    {i : Inline} (h : Inline.OfTokens b.content.reverse us) (hi : Inline.ofToken? t = some i) :
    Inline.OfTokens (b.push i).content.reverse (us ++ [t]) := by
  simp only [Inline.OfTokens, OpenBlock.push, List.reverse_cons, List.map_append] at h ⊢
  rw [h, List.map_singleton, List.map_singleton, hi]

/-- Contents that start with a text or slot are of tokens that start with one. -/
theorem Inline.OfTokens.exists_cons {i : Inline} {is : List Inline} {us : List (Spanned Token)}
    (h : Inline.OfTokens (i :: is) us) :
    ∃ t ts, us = t :: ts ∧ Inline.ofToken? t = some i ∧ Inline.OfTokens is ts := by
  cases us with
  | nil => cases h
  | cons t ts =>
    obtain ⟨ht, hts⟩ := List.cons_eq_cons.1 h
    exact ⟨t, ts, rfl, ht, hts⟩

namespace Segment

/-! ### Steps of the grouping -/

section

variable {stop : Nat} {t : Spanned Token} {ts us : List (Spanned Token)} {i : Inline}

/-- One step of the grouping over a text or slot. -/
theorem ofTokens_inline (h : Inline.ofToken? t = some i) :
    ofTokens stop none (t :: ts) = (ofTokens stop none ts).map (.inline i :: ·) := by
  obtain ⟨value, span⟩ := t
  rcases value with ⟨_ | _ | _ | _⟩ | _ | _ | _ <;> simp_all [ofTokens, Inline.ofToken?]

theorem ofTokens_push (b : OpenBlock) (h : Inline.ofToken? t = some i) :
    ofTokens stop (some b) (t :: ts) = ofTokens stop (some (b.push i)) ts := by
  obtain ⟨value, span⟩ := t
  rcases value with ⟨_ | _ | _ | _⟩ | _ | _ | _ <;> simp_all [ofTokens, Inline.ofToken?]

/-- All steps over the content of a block. -/
theorem ofTokens_content {is : List Inline} (b : OpenBlock) (h : Inline.OfTokens is us) :
    ofTokens stop (some b) (us ++ ts) =
      ofTokens stop (some ⟨b.name, is.reverse ++ b.content⟩) ts := by
  induction is generalizing us b with
  | nil =>
    obtain rfl := List.map_eq_nil_iff.1 h
    rfl
  | cons i is ih =>
    obtain ⟨t, us, rfl, ht, hus⟩ := h.exists_cons
    rw [List.cons_append, ofTokens_push b ht, ih _ hus]
    simp [OpenBlock.push]

end

/-! ### Groups -/

/-- Tokens and the segments that they are grouped into. -/
inductive Grouped : List (Spanned Token) → List Segment → Prop
  | nil : Grouped [] []
  | inline {t : Spanned Token} {i : Inline} {ts : List (Spanned Token)} {segs : List Segment}
      (single : Inline.ofToken? t = some i) (rest : Grouped ts segs) :
      Grouped (t :: ts) (.inline i :: segs)
  | block {name : String} {span close : Span} {us ts : List (Spanned Token)} {body : List Inline}
      {segs : List Segment} (content : Inline.OfTokens body us) (rest : Grouped ts segs) :
      Grouped (⟨.marker (.openBlock name), span⟩ :: (us ++ ⟨.marker .closeBlock, close⟩ :: ts))
        (.block ⟨⟨name, span⟩, [], false, body⟩ :: segs)

/-- By induction along the tokens. While a block is open, the tokens from its opening marker on are
kept with its content so far. -/
theorem grouped_of_ofTokens {stop : Nat} {ts : List (Spanned Token)} :
    (∀ segs, ofTokens stop none ts = .ok segs → Grouped ts segs) ∧
    ∀ o us segs, Inline.OfTokens o.content.reverse us → ofTokens stop (some o) ts = .ok segs →
      Grouped (⟨.marker (.openBlock o.name.value), o.name.span⟩ :: (us ++ ts)) segs := by
  induction ts with
  | nil =>
    constructor
    · intro segs h
      obtain rfl := Except.ok.inj h
      exact .nil
    · intro o us segs _ h
      cases h
  | cons t ts ih =>
    obtain ⟨hout, hin⟩ := ih
    cases tokenKind t with
    | inline ht =>
      constructor
      · intro segs h
        rw [ofTokens_inline ht] at h
        obtain ⟨rest, hrest, rfl⟩ := Outcome.map_eq_ok_iff.1 h
        exact .inline ht (hout rest hrest)
      · intro o us segs hus h
        rw [ofTokens_push o ht] at h
        rw [List.append_cons]
        exact hin (o.push _) _ segs (OpenBlock.ofTokens_push hus ht) h
    | opening name span =>
      constructor
      · intro segs h
        exact hin ⟨⟨name, span⟩, []⟩ [] segs rfl h
      · intro o us segs _ h
        cases h
    | closing span =>
      constructor
      · intro segs h
        cases h
      · intro o us segs hus h
        obtain ⟨rest, hrest, rfl⟩ := Outcome.map_eq_ok_iff.1 h
        exact .block hus (hout rest hrest)
    | malformed inner span =>
      constructor
      · intro segs h
        cases h
      · intro o us segs _ h
        cases h

theorem ofTokens_of_grouped {stop : Nat} {ts : List (Spanned Token)} {segs : List Segment}
    (h : Grouped ts segs) : ofTokens stop none ts = .ok segs := by
  induction h with
  | nil => rfl
  | inline single _ ih =>
    rw [ofTokens_inline single, ih]
    rfl
  | @block name span close us ts body segs content _ ih =>
    have hopen : ofTokens stop none
        (⟨.marker (.openBlock name), span⟩ :: (us ++ ⟨.marker .closeBlock, close⟩ :: ts)) =
        ofTokens stop (some ⟨⟨name, span⟩, []⟩) (us ++ ⟨.marker .closeBlock, close⟩ :: ts) := rfl
    have hclose : ofTokens stop (some ⟨⟨name, span⟩, body.reverse⟩)
        (⟨.marker .closeBlock, close⟩ :: ts) =
        (ofTokens stop none ts).map (OpenBlock.close ⟨⟨name, span⟩, body.reverse⟩ :: ·) := rfl
    rw [hopen, ofTokens_content _ content, List.append_nil, hclose, ih, OpenBlock.close,
      List.reverse_reverse]
    rfl

/-- Tokens are read as the segments that they are grouped into. -/
theorem ofTokens_eq_ok_iff {stop : Nat} {ts : List (Spanned Token)} {segs : List Segment} :
    ofTokens stop none ts = .ok segs ↔ Grouped ts segs :=
  ⟨grouped_of_ofTokens.1 segs, ofTokens_of_grouped⟩

/-- A row of texts and slots in front of segments. -/
theorem Grouped.inlines {is : List Inline} {us ts : List (Spanned Token)} {segs : List Segment}
    (h : Inline.OfTokens is us) (hts : Grouped ts segs) :
    Grouped (us ++ ts) (is.map .inline ++ segs) := by
  induction is generalizing us with
  | nil =>
    obtain rfl := List.map_eq_nil_iff.1 h
    exact hts
  | cons i is ih =>
    obtain ⟨t, us, rfl, ht, hus⟩ := h.exists_cons
    exact .inline ht (ih hus)

end Segment
end Covenant.Template
