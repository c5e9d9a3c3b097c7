import Covenant.Proofs.Template.Combinators
import Covenant.Proofs.Template.References

/-! The grammar of template text. A text is a row of blocks and inlines; a block is an opening
marker, inlines and a closing marker; a malformed marker is no inline, and says so. Written with
backtracking parsers the grammar accepts what the grouping of tokens accepts, with the same
segments, and leaves one failure where that finds its fault. -/
namespace Covenant.Template

/-! ### The grammar -/

namespace Grammar

open Combinator

abbrev Parser (α : Type) : Type := Combinator.Parser (Spanned Token) Fault α

def text : Parser Inline := select fun
  | ⟨.text cs, _⟩ => some (.text cs)
  | ⟨.brace, _⟩ => some (.text ['{'])
  | ⟨.newline, _⟩ => some (.text ['\n'])
  | ⟨.marker _, _⟩ => none

def slot : Parser Inline := select fun
  | ⟨.marker (.slot name), span⟩ => some (.slot ⟨name, span⟩)
  | _ => none

/-- A malformed marker matches only to be refused. -/
def malformed : Parser Inline := Combinator.Parser.tryMap Except.error <| select fun
  | ⟨.marker (.malformed inner), span⟩ => some (Fault.malformed inner span)
  | _ => none

def inline : Parser Inline := text.orElse (slot.orElse malformed)

def opening : Parser (Spanned String) := select fun
  | ⟨.marker (.openBlock name), span⟩ => some ⟨name, span⟩
  | _ => none

def closing : Parser Unit := select fun
  | ⟨.marker .closeBlock, _⟩ => some ()
  | _ => none

def block : Parser Segment :=
  ((opening.andThen inline.many).thenIgnore closing).map fun r => .block ⟨r.1, [], false, r.2⟩

def segment : Parser Segment := block.orElse (inline.map .inline)

def segments : Parser (List Segment) := segment.many.thenIgnore atEnd

/-- The fault that a failure is reported as, by what refused there, else by what stands there;
`stop` is the end of the source. -/
def fault? (stop : Nat) (f : Failure (Spanned Token) Fault) : Option Fault :=
  match f.refusal?, f.rest with
  | some fault, _ => some fault
  | none, [] => some (.unclosed stop)
  | none, ⟨.marker .closeBlock, span⟩ :: _ => some (.strayClose span)
  | none, ⟨.marker (.openBlock name), span⟩ :: _ => some (.nestedOpen name span)
  | none, _ :: _ => none

/-- What could have stood where a failure is: of a refusal nothing is said. -/
def expected (f : Failure (Spanned Token) Fault) : List String :=
  if f.refusal?.isNone && f.wantsEnd then ["end of template"] else []

/-! ### Rows of inlines -/

/-- The longest row of texts and slots that the tokens begin with, and what follows it. -/
def splitInlines : List (Spanned Token) → List Inline × List (Spanned Token)
  | [] => ([], [])
  | t :: ts =>
    match Inline.ofToken? t with
    | some i => (i :: (splitInlines ts).1, (splitInlines ts).2)
    | none => ([], t :: ts)

/-- The failure of the inlines where none begins. -/
def missed : List (Spanned Token) → Failure (Spanned Token) Fault
  | ⟨.marker (.malformed inner), span⟩ :: ts =>
    ⟨⟨.marker (.malformed inner), span⟩ :: ts, some (.malformed inner span), false⟩
  | ts => ⟨ts, none, false⟩

@[simp] theorem missed_rest (ts : List (Spanned Token)) : (missed ts).rest = ts := by
  unfold missed
  split <;> rfl

section

variable {stop : Nat} {t : Spanned Token} {ts : List (Spanned Token)} {i : Inline}

theorem splitInlines_length (ts : List (Spanned Token)) :
    (splitInlines ts).2.length ≤ ts.length := by
  induction ts with
  | nil => simp [splitInlines]
  | cons t ts ih =>
    unfold splitInlines
    split <;> simp
    omega

theorem inline_of_some (h : Inline.ofToken? t = some i) :
    (inline (t :: ts)).result = some (i, ts) ∧ Behind ts (inline (t :: ts)).furthest := by
  obtain ⟨value, span⟩ := t
  rcases value with ⟨_ | _ | _ | _⟩ | _ | _ | _ <;>
    simp_all [inline, text, slot, select, Parser.orElse, Inline.ofToken?, Behind]

theorem inline_of_none (h : ∀ t ∈ ts.head?, Inline.ofToken? t = none) :
    inline ts = ⟨none, some (missed ts)⟩ := by
  cases ts with
  | nil => rfl
  | cons t ts =>
    obtain ⟨value, span⟩ := t
    rcases value with ⟨_ | _ | _ | _⟩ | _ | _ | _ <;>
      simp_all [inline, text, slot, malformed, select, Parser.orElse, Parser.tryMap, missed,
        Failure.join, Inline.ofToken?]

/-- Repeated inlines take the longest row of them, and leave the failure at its end. -/
theorem inline_many (ts : List (Spanned Token)) :
    inline.many ts = ⟨some (splitInlines ts), some (missed (splitInlines ts).2)⟩ := by
  induction ts with
  | nil => exact Parser.many_of_none rfl
  | cons t ts ih =>
    cases h : Inline.ofToken? t with
    | none =>
      have hmissed := @inline_of_none (t :: ts) (by simpa using h)
      rw [Parser.many_of_none (by rw [hmissed]), hmissed]
      simp [splitInlines, h]
    | some i =>
      obtain ⟨hresult, hbehind⟩ := @inline_of_some _ ts _ h
      have hlength := splitInlines_length ts
      rw [Parser.many_of_some hresult (by simp), ih,
        hbehind.merge_eq (by simpa using hlength)]
      simp [splitInlines, h]

theorem ofTokens_splitInlines (b : OpenBlock) (ts : List (Spanned Token)) :
    Segment.ofTokens stop (some b) ts =
      Segment.ofTokens stop (some ⟨b.name, (splitInlines ts).1.reverse ++ b.content⟩)
        (splitInlines ts).2 := by
  induction ts generalizing b with
  | nil => rfl
  | cons t ts ih =>
    cases h : Inline.ofToken? t with
    | none => simp [splitInlines, h]
    | some i =>
      simpa [splitInlines, h, Segment.ofTokens_push b h, OpenBlock.push] using ih (b.push i)

theorem head_splitInlines (ts : List (Spanned Token)) :
    ∀ t ∈ (splitInlines ts).2.head?, Inline.ofToken? t = none := by
  induction ts with
  | nil => simp [splitInlines]
  | cons t ts ih =>
    cases h : Inline.ofToken? t with
    | none => simp [splitInlines, h]
    | some i => simpa [splitInlines, h] using ih

/-! ### Blocks -/

theorem block_of_closed {name : String} {span close : Span} {rest : List (Spanned Token)}
    (h : (splitInlines ts).2 = ⟨.marker .closeBlock, close⟩ :: rest) :
    (block (⟨.marker (.openBlock name), span⟩ :: ts)).result =
        some (.block ⟨⟨name, span⟩, [], false, (splitInlines ts).1⟩, rest) ∧
      Behind rest (block (⟨.marker (.openBlock name), span⟩ :: ts)).furthest := by
  simp [block, opening, closing, select, Parser.map, Parser.thenIgnore, Parser.andThen,
    inline_many, h, Behind]

theorem missed_join (ts : List (Spanned Token)) :
    (missed ts).join ⟨ts, none, false⟩ = missed ts := by
  unfold missed
  split <;> simp [Failure.join]

theorem block_of_stuck {name : String} {span : Span}
    (h : ∀ t ∈ (splitInlines ts).2.head?, t.value ≠ .marker .closeBlock) :
    block (⟨.marker (.openBlock name), span⟩ :: ts) =
      ⟨none, some (missed (splitInlines ts).2)⟩ := by
  have hclosing : closing (splitInlines ts).2 = ⟨none, some ⟨(splitInlines ts).2, none, false⟩⟩ := by
    refine select_of_none fun t ht => ?_
    have hvalue := h t ht
    split
    · exact absurd rfl hvalue
    · rfl
  simp [block, opening, select, Parser.map, Parser.thenIgnore, Parser.andThen, inline_many,
    hclosing, missed_join]

theorem block_of_not_opening
    (h : ∀ t ∈ ts.head?, ∀ name, t.value ≠ .marker (.openBlock name)) :
    block ts = ⟨none, some ⟨ts, none, false⟩⟩ := by
  have hopening : opening ts = ⟨none, some ⟨ts, none, false⟩⟩ := by
    refine select_of_none fun t ht => ?_
    have hvalue := h t ht
    split
    · exact absurd rfl (hvalue _)
    · rfl
  simp [block, Parser.map, Parser.thenIgnore, Parser.andThen, hopening]

/-! ### Segments -/

theorem segment_of_inline (h : Inline.ofToken? t = some i) :
    (segment (t :: ts)).result = some (.inline i, ts) ∧
      Behind ts (segment (t :: ts)).furthest := by
  obtain ⟨hresult, hbehind⟩ := @inline_of_some _ ts _ h
  have hblock : block (t :: ts) = ⟨none, some ⟨t :: ts, none, false⟩⟩ := by
    refine block_of_not_opening ?_
    rintro _ ⟨⟩ name hvalue
    obtain ⟨value, span⟩ := t
    obtain rfl : value = _ := hvalue
    cases h
  rw [segment, Parser.orElse_of_none (by rw [hblock]), hblock]
  exact ⟨by simp [Parser.map, hresult], Behind.merge (by simp [Behind]) hbehind⟩

theorem segment_of_closed {name : String} {span close : Span} {rest : List (Spanned Token)}
    (h : (splitInlines ts).2 = ⟨.marker .closeBlock, close⟩ :: rest) :
    (segment (⟨.marker (.openBlock name), span⟩ :: ts)).result =
        some (.block ⟨⟨name, span⟩, [], false, (splitInlines ts).1⟩, rest) ∧
      Behind rest (segment (⟨.marker (.openBlock name), span⟩ :: ts)).furthest := by
  obtain ⟨hresult, hbehind⟩ := @block_of_closed ts name span _ _ h
  rw [segment, Parser.orElse_of_some hresult]
  exact ⟨hresult, hbehind⟩

theorem segment_of_none {f : Failure (Spanned Token) Fault} (h : block ts = ⟨none, some f⟩)
    (hhead : ∀ t ∈ ts.head?, Inline.ofToken? t = none) :
    segment ts = ⟨none, some (f.join (missed ts))⟩ := by
  rw [segment, Parser.orElse_of_none (by rw [h]), h]
  simp [Parser.map, inline_of_none hhead]

/-- Where no segment begins and something is left, the whole text fails. -/
theorem segments_of_none {f : Failure (Spanned Token) Fault}
    (h : segment (t :: ts) = ⟨none, some f⟩) :
    segments (t :: ts) = ⟨none, some (f.join ⟨t :: ts, none, true⟩)⟩ := by
  have hmany := @Parser.many_of_none _ _ _ segment (t :: ts) (by rw [h])
  rw [segments, Parser.thenIgnore_of_some (by rw [hmany]), hmany, h]
  rfl

/-- Where a segment begins, the text is that segment and then the rest, and fails where the rest
does. -/
theorem segments_of_some {s : Segment} {rest : List (Spanned Token)}
    (h : (segment ts).result = some (s, rest)) (hlt : rest.length < ts.length) :
    segments ts =
      ⟨(segments rest).result.map fun r => (s :: r.1, r.2),
        Option.merge Failure.join (segment ts).furthest (segments rest).furthest⟩ :=
  Parser.many_atEnd_of_some h hlt

theorem segments_nil : (segments []).result = some ([], []) := by
  rw [segments, Parser.thenIgnore_of_some (by rw [Parser.many_of_none rfl])]
  rfl

/-- A marker that begins no segment is blamed where it stands. -/
theorem segments_of_unopened (hopen : ∀ name, t.value ≠ .marker (.openBlock name))
    (hinline : Inline.ofToken? t = none) :
    segments (t :: ts) =
      ⟨none, some (((⟨t :: ts, none, false⟩ : Failure _ _).join (missed (t :: ts))).join
        ⟨t :: ts, none, true⟩)⟩ := by
  have hblock := @block_of_not_opening (t :: ts) (by simpa using hopen)
  exact segments_of_none (segment_of_none hblock (by simpa using hinline))

/-- A block that is not closed is blamed where its row of inlines ends. -/
theorem segments_of_stuck {name : String} {span : Span}
    (h : ∀ t ∈ (splitInlines ts).2.head?, t.value ≠ .marker .closeBlock) :
    segments (⟨.marker (.openBlock name), span⟩ :: ts) =
      ⟨none, some (missed (splitInlines ts).2)⟩ := by
  have hlength := splitInlines_length ts
  have hjoin : ∀ g : Failure (Spanned Token) Fault, g.rest.length = ts.length + 1 →
      (missed (splitInlines ts).2).join g = missed (splitInlines ts).2 :=
    fun g hg => Failure.join_of_gt (by simp; omega)
  rw [segments_of_none (segment_of_none (block_of_stuck h) (by simp [Inline.ofToken?])),
    hjoin (missed _) (by simp), hjoin _ (by simp)]

/-! ### The grammar and the grouping -/

/-- The reply of the grammar to `ts` says what an outcome of the grouping says: it takes all tokens
with the same segments, or fails with one furthest failure, reported as the same fault. -/
def Says (stop : Nat) (ts : List (Spanned Token))
    (r : Reply (Spanned Token) Fault (List Segment)) : Except Fault (List Segment) → Prop
  | .ok segs => r.result = some (segs, [])
  | .error fault => r.result = none ∧ ∃ f, r.furthest = some f ∧ f.rest.length ≤ ts.length ∧
      fault? stop f = some fault ∧ expected f = fault.expected

theorem Says.cons {s : Segment} {rest : List (Spanned Token)}
    {outcome : Except Fault (List Segment)} (hsaid : Says stop rest (segments rest) outcome)
    (h : (segment ts).result = some (s, rest)) (hbehind : Behind rest (segment ts).furthest)
    (hlt : rest.length < ts.length) : Says stop ts (segments ts) (outcome.map (s :: ·)) := by
  rw [segments_of_some h hlt]
  cases outcome with
  | ok segs =>
    have hresult : (segments rest).result = some (segs, []) := hsaid
    simp [Says, Except.map, hresult]
  | error fault =>
    obtain ⟨hresult, f, hf, hlength, hfault⟩ := hsaid
    refine ⟨by simp [hresult], f, ?_, by omega, hfault⟩
    rw [hf, hbehind.merge_eq hlength]

/-- An opening marker, when the grammar is known to say what the grouping says of the shorter
texts: both look for the closing marker where the row of inlines ends. -/
theorem says_opening {name : String} {span : Span}
    (ih : ∀ us : List (Spanned Token), us.length < ts.length + 1 →
      Says stop us (segments us) (Segment.ofTokens stop none us)) :
    Says stop (⟨.marker (.openBlock name), span⟩ :: ts)
      (segments (⟨.marker (.openBlock name), span⟩ :: ts))
      (Segment.ofTokens stop (some ⟨⟨name, span⟩, []⟩) ts) := by
  have hlength := splitInlines_length ts
  have hhead := head_splitInlines ts
  rw [ofTokens_splitInlines]
  cases hrest : (splitInlines ts).2 with
  | nil =>
    rw [segments_of_stuck (by simp [hrest]), hrest]
    exact ⟨rfl, _, rfl, by simp, rfl, rfl⟩
  | cons u us =>
    rw [hrest] at hlength hhead
    cases tokenKind u with
    | inline h => simp [hhead u rfl] at h
    | malformed inner at' =>
      rw [segments_of_stuck (by simp [hrest]), hrest]
      exact ⟨rfl, _, rfl, by simpa using Nat.le_succ_of_le hlength, rfl, rfl⟩
    | opening name' at' =>
      rw [segments_of_stuck (by simp [hrest]), hrest]
      exact ⟨rfl, _, rfl, by simpa using Nat.le_succ_of_le hlength, rfl, rfl⟩
    | closing at' =>
      obtain ⟨hresult, hbehind⟩ := @segment_of_closed ts name span _ _ hrest
      have hlt : us.length < ts.length + 1 := by simp at hlength; omega
      simpa [Segment.ofTokens, OpenBlock.close] using (ih us hlt).cons hresult hbehind hlt

/-- The grammar says what the grouping says. By induction on the number of tokens: a segment is
taken off by both, and where none begins both stop. -/
theorem says_segments (stop : Nat) (ts : List (Spanned Token)) :
    Says stop ts (segments ts) (Segment.ofTokens stop none ts) := by
  induction hn : ts.length using Nat.strong_induction_on generalizing ts with
  | _ n ih =>
    subst hn
    cases ts with
    | nil => exact segments_nil
    | cons t ts =>
      cases tokenKind t with
      | inline h =>
        obtain ⟨hresult, hbehind⟩ := @segment_of_inline _ ts _ h
        rw [Segment.ofTokens_inline h]
        exact (ih ts.length (by simp) ts rfl).cons hresult hbehind (by simp)
      | malformed inner span =>
        rw [segments_of_unopened (by simp) rfl]
        refine ⟨rfl, _, rfl, ?_⟩
        simp [Failure.join, missed, fault?, expected, Fault.expected]
      | closing span =>
        rw [segments_of_unopened (by simp) rfl]
        refine ⟨rfl, _, rfl, ?_⟩
        simp [Failure.join, missed, fault?, expected, Fault.expected]
      | opening name span => exact says_opening fun us hlt => ih us.length hlt us rfl

/-- Over a whole text the grammar gives the segments of the grouping, or exactly one failure, which
is reported as the fault of the grouping. -/
theorem parse_segments (stop : Nat) (ts : List (Spanned Token)) :
    match Segment.ofTokens stop none ts with
    | .ok segs => segments.parse ts = .ok segs
    | .error fault => ∃ f, segments.parse ts = .error [f] ∧ fault? stop f = some fault ∧
        expected f = fault.expected := by
  have hsaid := says_segments stop ts
  split
  · next segs heq =>
    rw [heq] at hsaid
    have hresult : (segments ts).result = some (segs, []) := hsaid
    rw [Parser.parse, Parser.thenIgnore_of_some hresult]
    rfl
  · next fault heq =>
    rw [heq] at hsaid
    obtain ⟨hresult, f, hf, _, hfault⟩ := hsaid
    rw [Parser.parse, Parser.thenIgnore_of_none hresult, hf]
    exact ⟨f, rfl, hfault⟩

end

end Grammar
end Covenant.Template
