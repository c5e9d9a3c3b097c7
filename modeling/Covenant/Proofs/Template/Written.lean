import Covenant.Proofs.Template.Grouping
import Covenant.Proofs.Template.Markers
import Covenant.Template.Markup

/-! Segments beside the source they were read from. Texts, slots and blocks are written one after
the other, each slot and each block between its markers, and the spans of the names are those of the
markers. What is read from a source is written in it, with no text next to a text, and all that is
written so is read. -/
namespace Covenant.Template

/-! ### Blocks of a source -/

/-- A block of a source: its name, with the span of its opening marker, and the span of its
closing marker. -/
structure Occurrence where
  name : Spanned String
  close : Span
  deriving DecidableEq, Repr

/-- The blocks of tokens; `name` is that of the block that is open. -/
def occurrencesOf (name : Option (Spanned String)) : List (Spanned Token) → List Occurrence
  | [] => []
  | ⟨.marker (.openBlock opened), span⟩ :: ts => occurrencesOf (some ⟨opened, span⟩) ts
  | ⟨.marker .closeBlock, span⟩ :: ts =>
    (name.map fun n => (⟨n, span⟩ : Occurrence)).toList ++ occurrencesOf none ts
  | _ :: ts => occurrencesOf name ts

def occurrences (source : List Char) : List Occurrence := occurrencesOf none (lex source)

/-! ### What is written -/

/-- Texts and slots from byte `pos` on, and the source they are; more of the source comes after. -/
inductive Inline.Written (after : List Char) : Nat → List Inline → List Char → Prop
  | nil {pos : Nat} : Written after pos [] []
  | text {pos : Nat} {cs ds : List Char} {is : List Inline} (nonempty : cs ≠ [])
      (unmarked : Opaque cs (ds ++ after)) (rest : Written after (pos + byteLength cs) is ds) :
      Written after pos (.text cs :: is) (cs ++ ds)
  | slot {pos : Nat} {name : String} {raw ds : List Char} {is : List Inline}
      (marker : (Marker.slot name).Written raw)
      (rest : Written after (pos + byteLength raw) is ds) :
      Written after pos (.slot ⟨name, ⟨pos, pos + byteLength raw⟩⟩ :: is) (raw ++ ds)

/-- Segments from byte `pos` on, the blocks among them, and the source they are. -/
inductive Segment.Written : Nat → List Segment → List Occurrence → List Char → Prop
  | nil {pos : Nat} : Written pos [] [] []
  | inline {pos : Nat} {i : Inline} {raw ds : List Char} {segs : List Segment}
      {os : List Occurrence} (single : Inline.Written ds pos [i] raw)
      (rest : Written (pos + byteLength raw) segs os ds) :
      Written pos (.inline i :: segs) os (raw ++ ds)
  | block {pos : Nat} {name : String} {body : List Inline} {opening inner closing ds : List Char}
      {segs : List Segment} {os : List Occurrence}
      (openMarker : (Marker.openBlock name).Written opening)
      (content : Inline.Written (closing ++ ds) (pos + byteLength opening) body inner)
      (closeMarker : Marker.closeBlock.Written closing)
      (rest : Written (pos + byteLength (opening ++ inner ++ closing)) segs os ds) :
      Written pos (.block ⟨⟨name, ⟨pos, pos + byteLength opening⟩⟩, [], false, body⟩ :: segs)
        (⟨⟨name, ⟨pos, pos + byteLength opening⟩⟩, ⟨pos + byteLength (opening ++ inner),
          pos + byteLength (opening ++ inner ++ closing)⟩⟩ :: os)
        (opening ++ inner ++ closing ++ ds)

/-- A text or slot in front of what is written after it. -/
theorem Inline.Written.cons {after raw ds : List Char} {pos : Nat} {i : Inline} {is : List Inline}
    (h : Inline.Written (ds ++ after) pos [i] raw)
    (hrest : Inline.Written after (pos + byteLength raw) is ds) :
    Inline.Written after pos (i :: is) (raw ++ ds) := by
  cases h with
  | text nonempty unmarked hnil =>
    cases hnil
    rw [List.append_nil] at hrest ⊢
    exact .text nonempty unmarked hrest
  | slot marker hnil =>
    cases hnil
    rw [List.append_nil] at hrest ⊢
    exact .slot marker hrest

theorem Inline.written_text_iff {after cs raw : List Char} {pos : Nat} :
    Inline.Written after pos [.text cs] raw ↔ raw = cs ∧ cs ≠ [] ∧ Opaque cs after := by
  constructor
  · intro h
    cases h with
    | text nonempty unmarked hnil =>
      cases hnil
      exact ⟨List.append_nil _, nonempty, unmarked⟩
  · rintro ⟨rfl, nonempty, unmarked⟩
    have h := @Inline.Written.text after pos raw [] [] nonempty unmarked .nil
    rwa [List.append_nil] at h

theorem Inline.written_slot_iff {after raw : List Char} {pos : Nat} {name : Spanned String} :
    Inline.Written after pos [.slot name] raw ↔
      (Marker.slot name.value).Written raw ∧ name.span = ⟨pos, pos + byteLength raw⟩ := by
  constructor
  · intro h
    cases h with
    | slot marker hnil =>
      cases hnil
      rw [List.append_nil]
      exact ⟨marker, rfl⟩
  · rintro ⟨marker, span⟩
    obtain ⟨name, _⟩ := name
    obtain rfl : _ = Span.mk pos (pos + byteLength raw) := span
    have h := @Inline.Written.slot after pos name raw [] [] marker .nil
    rwa [List.append_nil] at h

/-! ### From tokens -/

/-- A text or slot that a token is by itself is written where the token is. -/
theorem Inline.written_of_ofToken? {t : Spanned Token} {i : Inline} {pos : Nat}
    {raw ds : List Char} (h : Inline.ofToken? t = some i) (source : t.value.Source raw)
    (span : t.span = ⟨pos, pos + byteLength raw⟩)
    (unmarked : (∀ m, t.value ≠ .marker m) → Opaque raw ds) : Inline.Written ds pos [i] raw := by
  obtain ⟨value, span'⟩ := t
  have htext : (∀ m, value ≠ .marker m) → Inline.Written ds pos [.text raw] raw :=
    fun hvalue => Inline.written_text_iff.2 ⟨rfl, source.ne_nil, unmarked hvalue⟩
  cases value with
  | marker m =>
    cases m with
    | slot name =>
      cases h
      cases source with
      | marker written =>
        exact Inline.written_slot_iff.2 ⟨written, span⟩
    | openBlock => cases h
    | closeBlock => cases h
    | malformed => cases h
  | brace =>
    cases h
    cases source
    exact htext (by simp)
  | newline =>
    cases h
    cases source
    exact htext (by simp)
  | text =>
    cases h
    cases source
    exact htext (by simp)

/-- A row of texts and slots is written where its tokens are. -/
theorem Inline.written_of_tiles {is : List Inline} {us ts : List (Spanned Token)} {pos : Nat}
    {cs : List Char} (h : Inline.OfTokens is us) (htiles : Tiles pos cs (us ++ ts)) :
    ∃ inner rest, cs = inner ++ rest ∧ Inline.Written rest pos is inner ∧
      Tiles (pos + byteLength inner) rest ts := by
  induction is generalizing us pos cs with
  | nil =>
    obtain rfl := List.map_eq_nil_iff.1 h
    exact ⟨[], cs, rfl, .nil, htiles⟩
  | cons i is ih =>
    obtain ⟨t, us, rfl, ht, hus⟩ := h.exists_cons
    cases htiles with
    | @cons _ _ raw ds _ source span unmarked tail =>
      obtain ⟨inner, rest, rfl, hinner, hrest⟩ := ih hus tail
      have hsingle := Inline.written_of_ofToken? ht source span unmarked
      rw [Nat.add_assoc, ← byteLength_append] at hrest
      exact ⟨raw ++ inner, rest, (List.append_assoc _ _ _).symm, hsingle.cons hinner, hrest⟩

theorem occurrencesOf_content {is : List Inline} {us : List (Spanned Token)}
    (h : Inline.OfTokens is us) (name : Option (Spanned String)) (ts : List (Spanned Token)) :
    occurrencesOf name (us ++ ts) = occurrencesOf name ts := by
  induction is generalizing us with
  | nil =>
    obtain rfl := List.map_eq_nil_iff.1 h
    rfl
  | cons i is ih =>
    obtain ⟨t, us, rfl, ht, hus⟩ := h.exists_cons
    rw [← ih hus]
    obtain ⟨value, span⟩ := t
    rcases value with ⟨_ | _ | _ | _⟩ | _ | _ | _ <;> first | rfl | cases ht

/-- Groups are written where their tokens are. -/
theorem Segment.Grouped.written {ts : List (Spanned Token)} {segs : List Segment}
    (h : Segment.Grouped ts segs) {pos : Nat} {cs : List Char} (htiles : Tiles pos cs ts) :
    Segment.Written pos segs (occurrencesOf none ts) cs := by
  induction h generalizing pos cs with
  | nil =>
    cases htiles
    exact .nil
  | @inline t i ts segs single _ ih =>
    have hi : Inline.OfTokens [i] [t] := by simp [Inline.OfTokens, single]
    obtain ⟨raw, rest, rfl, hraw, hrest⟩ := Inline.written_of_tiles hi htiles
    have hocc : occurrencesOf none (t :: ts) = occurrencesOf none ts :=
      occurrencesOf_content hi none ts
    rw [hocc]
    exact .inline hraw (ih hrest)
  | @block name span close us ts body segs content _ ih =>
    cases htiles with
    | @cons _ _ opening _ _ source span' _ tail =>
      obtain rfl : span = _ := span'
      obtain ⟨inner, rest, rfl, hinner, hrest⟩ := Inline.written_of_tiles content tail
      cases hrest with
      | @cons _ _ closing ds _ source' span' _ tail' =>
        cases source with
        | marker openMarker =>
          cases source' with
          | marker closeMarker =>
            obtain rfl : close = _ := span'
            simp only [Nat.add_assoc, ← byteLength_append, ← List.append_assoc] at tail' ⊢
            simp only [occurrencesOf, occurrencesOf_content content]
            exact .block openMarker hinner closeMarker (ih tail')

/-! ### Joined texts -/

/-- No text follows a text. -/
def Inline.Apart : List Inline → Prop
  | [] => True
  | .text _ :: rest => (∀ cs tail, rest ≠ .text cs :: tail) ∧ Inline.Apart rest
  | .slot _ :: rest => Inline.Apart rest

/-- No text follows a text, also inside blocks. -/
def Segment.Apart : List Segment → Prop
  | [] => True
  | .inline (.text _) :: rest => (∀ cs tail, rest ≠ .inline (.text cs) :: tail) ∧ Segment.Apart rest
  | .inline (.slot _) :: rest => Segment.Apart rest
  | .block b :: rest => Inline.Apart b.body ∧ Segment.Apart rest

theorem Inline.apart_join (is : List Inline) : Inline.Apart (Inline.join is) := by
  fun_induction Inline.join is with
  | case1 => trivial
  | case2 name rest ih => exact ih
  | case3 cs rest ds tail heq ih =>
    rw [heq] at ih
    exact ih
  | case4 cs rest hno ih => exact ⟨hno, ih⟩

theorem Segment.apart_join (segs : List Segment) : Segment.Apart (Segment.join segs) := by
  fun_induction Segment.join segs with
  | case1 => trivial
  | case2 b rest ih => exact ⟨Inline.apart_join b.body, ih⟩
  | case3 name rest ih => exact ih
  | case4 cs rest ds tail heq ih =>
    rw [heq] at ih
    exact ih
  | case5 cs rest hno ih => exact ⟨hno, ih⟩

/-- A text in front of a text that is written right after it. -/
theorem Inline.Written.merge {after cs ds es : List Char} {pos : Nat} {is : List Inline}
    (nonempty : cs ≠ []) (unmarked : Opaque cs (ds ++ after))
    (h : Inline.Written after (pos + byteLength cs) (.text es :: is) ds) :
    Inline.Written after pos (.text (cs ++ es) :: is) (cs ++ ds) := by
  cases h with
  | @text _ _ ds _ _ unmarked' rest =>
    rw [Nat.add_assoc, ← byteLength_append] at rest
    rw [List.append_assoc] at unmarked
    rw [← List.append_assoc]
    exact .text (by simp [nonempty]) (unmarked.append unmarked') rest

/-- Joining texts changes nothing of what is written. -/
theorem Inline.Written.join {after cs : List Char} {pos : Nat} {is : List Inline}
    (h : Inline.Written after pos is cs) : Inline.Written after pos (Inline.join is) cs := by
  induction h with
  | nil => exact .nil
  | slot marker _ ih => exact .slot marker ih
  | text nonempty unmarked _ ih =>
    rw [Inline.join]
    split
    · next es tail hjoin =>
      rw [hjoin] at ih
      exact .merge nonempty unmarked ih
    · exact .text nonempty unmarked ih

theorem Segment.Written.join {pos : Nat} {segs : List Segment} {os : List Occurrence}
    {cs : List Char} (h : Segment.Written pos segs os cs) :
    Segment.Written pos (Segment.join segs) os cs := by
  induction h with
  | nil => exact .nil
  | block openMarker content closeMarker _ ih => exact .block openMarker content.join closeMarker ih
  | @inline pos i raw ds segs os single _ ih =>
    cases i with
    | slot name => exact .inline single ih
    | text cs =>
      rw [Segment.join]
      split
      · next es tail hjoin =>
        rw [hjoin] at ih
        obtain ⟨rfl, hne, hunmarked⟩ := Inline.written_text_iff.1 single
        cases ih with
        | inline single' rest =>
          obtain ⟨rfl, _, hunmarked'⟩ := Inline.written_text_iff.1 single'
          rw [Nat.add_assoc, ← byteLength_append] at rest
          rw [← List.append_assoc]
          exact .inline (Inline.written_text_iff.2
            ⟨rfl, by simp [hne], hunmarked.append hunmarked'⟩) rest
      · exact .inline single ih

/-! ### Reading -/

/-- The segments of a source, texts joined. -/
def Segment.ofChars (source : List Char) : Except Fault (List Segment) :=
  (Segment.ofTokens (byteLength source) none (lex source)).map Segment.join

/-- What is read from a source is written in it. -/
theorem Segment.written_of_ofChars {source : List Char} {segs : List Segment}
    (h : Segment.ofChars source = .ok segs) :
    Segment.Written 0 segs (occurrences source) source ∧ Segment.Apart segs := by
  obtain ⟨groups, hgroups, rfl⟩ := Outcome.map_eq_ok_iff.1 h
  have hwritten := (Segment.ofTokens_eq_ok_iff.1 hgroups).written (tiles_lexFrom 0 source)
  exact ⟨hwritten.join, Segment.apart_join groups⟩

theorem Markup.ofChars_eq_ok_iff {source : List Char} {t : Markup} :
    Markup.ofChars source = .ok t ↔ ∃ segs, Segment.ofChars source = .ok segs ∧
      t = ⟨source, (settle [] false segs).filter fun s => !s.isEmpty⟩ := by
  rw [Markup.ofChars, Segment.ofChars, Outcome.map_eq_ok_iff]
  constructor
  · rintro ⟨groups, hgroups, rfl⟩
    exact ⟨_, Outcome.map_eq_ok_iff.2 ⟨groups, hgroups, rfl⟩, rfl⟩
  · rintro ⟨segs, hsegs, rfl⟩
    obtain ⟨groups, hgroups, rfl⟩ := Outcome.map_eq_ok_iff.1 hsegs
    exact ⟨groups, hgroups, rfl⟩

theorem Opaque.of_append (cs : List Char) {ds es : List Char} (h : Opaque (cs ++ ds) es) :
    Opaque ds es := by
  intro as bs heq
  have hlength := h (cs ++ as) bs (by rw [List.append_assoc, heq, List.append_assoc])
  rw [List.length_append, List.length_append] at hlength
  omega

/-- Tokens that are texts by themselves, and together the text `cs`. -/
def IsText (cs : List Char) (us : List (Spanned Token)) : Prop :=
  ∃ texts : List (List Char), texts.flatten = cs ∧ Inline.OfTokens (texts.map .text) us

theorem IsText.cons {word cs : List Char} {t : Spanned Token} {us : List (Spanned Token)}
    (ht : Inline.ofToken? t = some (.text word)) (h : IsText cs us) :
    IsText (word ++ cs) (t :: us) := by
  obtain ⟨texts, rfl, hus⟩ := h
  exact ⟨word :: texts, rfl, congrArg₂ List.cons ht hus⟩

/-- The longest row in front of members that fail the test. -/
theorem splitWhile_append {α : Type} {p : α → Bool} {as bs : List α}
    (h : ∀ b ∈ bs.head?, p b = false) :
    (as ++ bs).takeWhile p = as.takeWhile p ∧
      (as ++ bs).dropWhile p = as.dropWhile p ++ bs := by
  induction as with
  | nil =>
    cases bs with
    | nil => simp
    | cons b bs => simp [h b rfl]
  | cons a as ih =>
    simp only [List.cons_append, List.takeWhile_cons, List.dropWhile_cons, ih]
    split <;> simp

/-- The first token of a text that a marker or nothing comes after. -/
theorem lexFrom_text {c : Char} {cs ds : List Char} (h : Opaque (c :: cs) ds)
    (hds : ∀ d ∈ ds.head?, d = '{') (pos : Nat) :
    ∃ t word rest, c :: cs = word ++ rest ∧ word ≠ [] ∧ Inline.ofToken? t = some (.text word) ∧
      lexFrom pos (c :: cs ++ ds) = t :: lexFrom (pos + byteLength word) (rest ++ ds) := by
  by_cases hbrace : c = '{'
  · subst hbrace
    have hnext : ∀ tail, cs ++ ds = '{' :: tail → False := by
      intro tail htail
      have hlength := h [] tail (by rw [List.cons_append, htail]; rfl)
      cases hlength
    refine ⟨⟨.brace, ⟨pos, pos + 1⟩⟩, ['{'], cs, rfl, by simp, rfl, ?_⟩
    rw [List.cons_append, lexFrom]
    · rfl
    · exact hnext
  · by_cases hnewline : c = '\n'
    · subst hnewline
      refine ⟨⟨.newline, ⟨pos, pos + 1⟩⟩, ['\n'], cs, rfl, by simp, rfl, ?_⟩
      rw [List.cons_append, lexFrom]
      rfl
    · have hend : ∀ d ∈ ds.head?, isTextChar d = false := by
        intro d hd
        rw [hds d hd]
        rfl
      obtain ⟨htake, hdrop⟩ := @splitWhile_append _ isTextChar cs ds hend
      let word := c :: cs.takeWhile isTextChar
      refine ⟨⟨.text word, ⟨pos, pos + byteLength word⟩⟩, word, cs.dropWhile isTextChar,
        ?_, by simp [word], rfl, ?_⟩
      · rw [List.cons_append, List.takeWhile_append_dropWhile]
      · rw [List.cons_append, lexFrom, htake, hdrop]
        · intro tail hc _
          exact hbrace hc
        · exact hbrace
        · exact hnewline

/-- A text that a marker or nothing comes after is read as texts that join to it. By induction on
its length, one token at a time. -/
theorem lexFrom_opaque {cs ds : List Char} (h : Opaque cs ds)
    (hds : ∀ d ∈ ds.head?, d = '{') (pos : Nat) :
    ∃ us, IsText cs us ∧ lexFrom pos (cs ++ ds) = us ++ lexFrom (pos + byteLength cs) ds := by
  induction hn : cs.length using Nat.strong_induction_on generalizing cs pos with
  | _ n ih =>
    subst hn
    cases cs with
    | nil => exact ⟨[], ⟨[], rfl, rfl⟩, rfl⟩
    | cons c cs =>
      obtain ⟨t, word, rest, hsplit, hword, ht, hlex⟩ := lexFrom_text h hds pos
      rw [hsplit] at h
      have hlt : rest.length < (c :: cs).length := by
        have hpos := List.length_pos_iff.2 hword
        rw [hsplit, List.length_append]
        omega
      obtain ⟨us, hus, heq⟩ := ih _ hlt (h.of_append word) (pos + byteLength word) rfl
      refine ⟨t :: us, hsplit ▸ hus.cons ht, ?_⟩
      rw [hlex, heq, hsplit, byteLength_append, Nat.add_assoc]
      rfl

/-- Texts in front of what does not start with a text are joined to one. -/
theorem Inline.join_texts {texts : List (List Char)} {is : List Inline} (hne : texts ≠ [])
    (his : ∀ cs tail, Inline.join is ≠ .text cs :: tail) :
    Inline.join (texts.map .text ++ is) = .text texts.flatten :: Inline.join is := by
  induction texts with
  | nil => exact absurd rfl hne
  | cons cs texts ih =>
    rw [List.map_cons, List.cons_append, Inline.join]
    cases texts with
    | nil =>
      split
      · next ds tail heq => exact absurd heq (his ds tail)
      · simp
    | cons ds texts =>
      rw [ih (by simp)]
      rfl

theorem Segment.join_texts {texts : List (List Char)} {segs : List Segment} (hne : texts ≠ [])
    (hsegs : ∀ cs tail, Segment.join segs ≠ .inline (.text cs) :: tail) :
    Segment.join ((texts.map .text).map .inline ++ segs) =
      .inline (.text texts.flatten) :: Segment.join segs := by
  induction texts with
  | nil => exact absurd rfl hne
  | cons cs texts ih =>
    rw [List.map_cons, List.map_cons, List.cons_append, Segment.join]
    cases texts with
    | nil =>
      split
      · next ds tail heq => exact absurd heq (hsegs ds tail)
      · simp
    | cons ds texts =>
      rw [ih (by simp)]
      rfl

theorem ne_nil_of_flatten {texts : List (List Char)} (h : texts.flatten ≠ []) : texts ≠ [] := by
  rintro rfl
  exact h rfl

/-- What does not start with a text starts with a marker, if it is not empty. -/
theorem Inline.Written.head {after cs : List Char} {pos : Nat} {is : List Inline}
    (h : Inline.Written after pos is cs) (his : ∀ ds tail, is ≠ .text ds :: tail)
    (hafter : ∀ d ∈ after.head?, d = '{') : ∀ d ∈ (cs ++ after).head?, d = '{' := by
  cases h with
  | nil => exact hafter
  | text => exact absurd rfl (his _ _)
  | slot marker =>
    obtain ⟨tail, rfl⟩ := marker.isMarker.starts
    simp

theorem Segment.Written.head {cs : List Char} {pos : Nat} {segs : List Segment}
    {os : List Occurrence} (h : Segment.Written pos segs os cs)
    (hsegs : ∀ ds tail, segs ≠ .inline (.text ds) :: tail) : ∀ d ∈ cs.head?, d = '{' := by
  cases h with
  | nil => simp
  | block openMarker =>
    obtain ⟨tail, rfl⟩ := openMarker.isMarker.starts
    simp
  | @inline _ i _ _ _ _ single _ =>
    cases i with
    | text ds => exact absurd rfl (hsegs _ _)
    | slot name =>
      obtain ⟨tail, rfl⟩ := (Inline.written_slot_iff.1 single).1.isMarker.starts
      simp

/-- The content of a block is read as tokens that join to it. -/
theorem Inline.Written.lexFrom {after cs : List Char} {pos : Nat} {is : List Inline}
    (h : Inline.Written after pos is cs) (hapart : Inline.Apart is)
    (hafter : ∀ d ∈ after.head?, d = '{') :
    ∃ us js, Template.lexFrom pos (cs ++ after) =
        us ++ Template.lexFrom (pos + byteLength cs) after ∧
      Inline.OfTokens js us ∧ Inline.join js = is := by
  induction h with
  | nil => exact ⟨[], [], rfl, rfl, rfl⟩
  | @text pos cs ds is nonempty unmarked rest ih =>
    obtain ⟨us, js, hlex, hus, hjoin⟩ := ih hapart.2
    obtain ⟨vs, ⟨texts, rfl, hvs⟩, hlex'⟩ :=
      lexFrom_opaque unmarked (rest.head hapart.1 hafter) pos
    refine ⟨vs ++ us, texts.map .text ++ js, ?_, ?_, ?_⟩
    · rw [List.append_assoc, hlex', hlex, byteLength_append, List.append_assoc, Nat.add_assoc]
    · rw [Inline.OfTokens, List.map_append, hvs, hus, List.map_append]
    · rw [Inline.join_texts (ne_nil_of_flatten nonempty) (hjoin ▸ hapart.1), hjoin]
  | @slot pos name raw ds is marker rest ih =>
    obtain ⟨us, js, hlex, hus, hjoin⟩ := ih hapart
    refine ⟨⟨.marker (.slot name), ⟨pos, pos + byteLength raw⟩⟩ :: us,
      .slot ⟨name, ⟨pos, pos + byteLength raw⟩⟩ :: js, ?_, ?_, ?_⟩
    · rw [List.append_assoc, marker.lexFrom, hlex, byteLength_append, Nat.add_assoc]
      rfl
    · exact congrArg₂ List.cons rfl hus
    · rw [Inline.join, hjoin]

/-- What is written is read as tokens whose groups join to it. -/
theorem Segment.Written.lexFrom {cs : List Char} {pos : Nat} {segs : List Segment}
    {os : List Occurrence} (h : Segment.Written pos segs os cs) (hapart : Segment.Apart segs) :
    ∃ groups, Segment.Grouped (Template.lexFrom pos cs) groups ∧ Segment.join groups = segs := by
  induction h with
  | nil =>
    refine ⟨[], ?_, rfl⟩
    rw [Template.lexFrom]
    exact .nil
  | @inline pos i raw ds segs os single rest ih =>
    cases i with
    | text cs =>
      obtain ⟨rfl, nonempty, unmarked⟩ := Inline.written_text_iff.1 single
      obtain ⟨groups, hgroups, hjoin⟩ := ih hapart.2
      obtain ⟨us, ⟨texts, rfl, hus⟩, hlex⟩ := lexFrom_opaque unmarked (rest.head hapart.1) pos
      refine ⟨(texts.map .text).map .inline ++ groups, ?_, ?_⟩
      · rw [hlex]
        exact hgroups.inlines hus
      · rw [Segment.join_texts (ne_nil_of_flatten nonempty) (hjoin ▸ hapart.1), hjoin]
    | slot name =>
      obtain ⟨marker, span⟩ := Inline.written_slot_iff.1 single
      obtain ⟨groups, hgroups, hjoin⟩ := ih hapart
      refine ⟨.inline (.slot name) :: groups, ?_, ?_⟩
      · rw [marker.lexFrom, ← span]
        exact .inline rfl hgroups
      · rw [Segment.join, hjoin]
  | @block pos name body opening inner closing ds segs os openMarker content closeMarker _ ih =>
    obtain ⟨groups, hgroups, hjoin⟩ := ih hapart.2
    have hclose : ∀ d ∈ (closing ++ ds).head?, d = '{' := by
      obtain ⟨tail, rfl⟩ := closeMarker.isMarker.starts
      simp
    obtain ⟨us, js, hlex, hus, hbody⟩ := content.lexFrom hapart.1 hclose
    refine ⟨.block ⟨⟨name, ⟨pos, pos + byteLength opening⟩⟩, [], false, js⟩ :: groups, ?_, ?_⟩
    · rw [List.append_assoc, List.append_assoc, openMarker.lexFrom, hlex, closeMarker.lexFrom]
      simp only [byteLength_append, Nat.add_assoc] at hgroups ⊢
      exact .block hus hgroups
    · rw [Segment.join, hjoin, hbody]

/-- What is written in a source is read from it. -/
theorem Segment.ofChars_of_written {source : List Char} {segs : List Segment}
    {os : List Occurrence} (h : Segment.Written 0 segs os source) (hapart : Segment.Apart segs) :
    Segment.ofChars source = .ok segs := by
  obtain ⟨groups, hgroups, hjoin⟩ := h.lexFrom hapart
  exact Outcome.map_eq_ok_iff.2 ⟨groups, Segment.ofTokens_eq_ok_iff.2 hgroups, hjoin⟩

end Covenant.Template
