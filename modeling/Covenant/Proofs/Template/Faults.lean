import Mathlib.Data.List.Chain
import Covenant.Proofs.Template.Grammar

/-! Which texts can be read, and what is reported of the others, told from the tokens alone. A text
can be read when no marker is malformed and its blocks open and close by turns; else its one fault
is the first: at the first token that is malformed, closes no block or opens one inside another, or
at the end when a block is left open there. -/
namespace Covenant.Template

/-! ### Opening and closing by turns -/

/-- What a marker does to blocks. -/
inductive Fence where
  | opening
  | closing
  deriving DecidableEq, Repr

def Fence.ofToken? : Spanned Token → Option Fence
  | ⟨.marker (.openBlock _), _⟩ => some .opening
  | ⟨.marker .closeBlock, _⟩ => some .closing
  | _ => none

def fences (ts : List (Spanned Token)) : List Fence := ts.filterMap Fence.ofToken?

/-- Openings and closings strictly alternate, from an opening to a closing. -/
structure Alternating (fs : List Fence) : Prop where
  turns : fs.IsChain (· ≠ ·)
  first : fs.head? ≠ some .closing
  last : fs.getLast? ≠ some .opening

def IsMalformed (t : Spanned Token) : Prop := ∃ inner, t.value = .marker (.malformed inner)

theorem alternating_pair_iff {fs : List Fence} :
    Alternating (.opening :: .closing :: fs) ↔ Alternating fs := by
  cases fs with
  | nil => exact ⟨fun _ => ⟨.nil, by simp, by simp⟩, fun _ => ⟨by simp, by simp, by simp⟩⟩
  | cons f fs =>
    constructor
    · rintro ⟨hturns, -, hlast⟩
      simp only [List.isChain_cons_cons] at hturns
      exact ⟨hturns.2.2, by simpa using hturns.2.1.symm, by simpa using hlast⟩
    · rintro ⟨hturns, hfirst, hlast⟩
      refine ⟨?_, by simp, by simpa using hlast⟩
      simp only [List.isChain_cons_cons]
      exact ⟨by simp, fun h => hfirst (by simp [← h]), hturns⟩

theorem not_alternating_closing {fs : List Fence} : ¬ Alternating (.closing :: fs) :=
  fun h => h.first rfl

theorem not_alternating_twice {fs : List Fence} : ¬ Alternating (.opening :: .opening :: fs) :=
  fun h => (List.isChain_cons_cons.1 h.turns).1 rfl

theorem not_alternating_open : ¬ Alternating [.opening] := fun h => h.last rfl

/-! ### The first fault -/

/-- A block is open after these tokens. -/
def inside (ts : List (Spanned Token)) : Bool := (fences ts).getLast? == some .opening

/-- What is wrong with a token that comes after the given ones. -/
def faultAt (before : List (Spanned Token)) : Spanned Token → Option Fault
  | ⟨.marker (.malformed inner), span⟩ => some (.malformed inner span)
  | ⟨.marker .closeBlock, span⟩ => if inside before then none else some (.strayClose span)
  | ⟨.marker (.openBlock name), span⟩ =>
    if inside before then some (.nestedOpen name span) else none
  | _ => none

/-- Nothing is wrong with any of the tokens. -/
def Faultless (ts : List (Spanned Token)) : Prop :=
  ∀ before t after, ts = before ++ t :: after → faultAt before t = none

/-- The first fault of the tokens of a source that ends at byte `stop`. -/
inductive FirstFault (stop : Nat) (ts : List (Spanned Token)) : Fault → Prop
  | token {before t after f} (split : ts = before ++ t :: after) (before_faultless : Faultless before)
      (fault : faultAt before t = some f) (span : f.span = t.span) : FirstFault stop ts f
  | ending {f} (faultless : Faultless ts) (left_open : inside ts = true)
      (fault : f = .unclosed stop) (span : f.span = ⟨stop, stop⟩) : FirstFault stop ts f

section

variable {stop : Nat} {before ts : List (Spanned Token)} {t : Spanned Token}

theorem fences_concat (ts : List (Spanned Token)) (t : Spanned Token) :
    fences (ts ++ [t]) = fences ts ++ (Fence.ofToken? t).toList := by
  cases h : Fence.ofToken? t <;> simp [fences, h]

theorem Faultless.nil : Faultless [] := by
  simp [Faultless]

theorem faultless_concat_iff :
    Faultless (ts ++ [t]) ↔ Faultless ts ∧ faultAt ts t = none := by
  constructor
  · refine fun h => ⟨?_, h ts t [] rfl⟩
    rintro before u after rfl
    exact h before u (after ++ [t]) (by simp)
  · rintro ⟨hts, ht⟩ before u after h
    induction after using List.reverseRecOn with
    | nil =>
      obtain ⟨rfl, hu⟩ := List.append_inj' h rfl
      obtain rfl : t = u := by simpa using hu
      exact ht
    | append_singleton after v _ =>
      rw [← List.cons_append, ← List.append_assoc] at h
      obtain ⟨rfl, -⟩ := List.append_inj' h rfl
      exact hts before u after rfl

theorem fence_of_inline {i : Inline} (h : Inline.ofToken? t = some i) :
    Fence.ofToken? t = none ∧ ¬ IsMalformed t ∧ faultAt before t = none := by
  obtain ⟨value, span⟩ := t
  rcases value with ⟨_ | _ | _ | _⟩ | _ | _ | _ <;>
    simp_all [Inline.ofToken?, Fence.ofToken?, IsMalformed, faultAt]

theorem inside_concat_of_none (h : Fence.ofToken? t = none) : inside (ts ++ [t]) = inside ts := by
  simp [inside, fences_concat, h]

theorem inside_concat_of_some {f : Fence} (h : Fence.ofToken? t = some f) :
    inside (ts ++ [t]) = (f == .opening) := by
  simp [inside, fences_concat, h]

/-! ### What the grouping finds -/

/-- What an outcome of the grouping says of the tokens it was given. -/
def Verdict (stop : Nat) (ts : List (Spanned Token)) : Except Fault (List Segment) → Prop
  | .ok _ => Faultless ts ∧ inside ts = false
  | .error f => FirstFault stop ts f

theorem Verdict.map {outcome : Except Fault (List Segment)} (s : Segment)
    (h : Verdict stop ts outcome) : Verdict stop ts (outcome.map (s :: ·)) := by
  cases outcome <;> exact h

/-- The grouping, come as far as `before` without a fault, finds the first fault. By induction
along the tokens; a block is open in the state just when the tokens before leave one open. -/
theorem verdict_ofTokens {state : Option OpenBlock} (hstate : state.isSome = inside before)
    (hbefore : Faultless before) :
    Verdict stop (before ++ ts) (Segment.ofTokens stop state ts) := by
  induction ts generalizing state before with
  | nil =>
    rw [List.append_nil]
    cases state with
    | none => exact ⟨hbefore, hstate.symm⟩
    | some b => exact .ending hbefore hstate.symm rfl rfl
  | cons t ts ih =>
    have hstep : ∀ {state' : Option OpenBlock}, faultAt before t = none →
        state'.isSome = inside (before ++ [t]) →
        Verdict stop (before ++ t :: ts) (Segment.ofTokens stop state' ts) := by
      intro state' ht hstate'
      simpa using ih hstate' (faultless_concat_iff.2 ⟨hbefore, ht⟩)
    cases tokenKind t with
    | inline h =>
      obtain ⟨hfence, -, hfault⟩ := @fence_of_inline before _ _ h
      cases state with
      | none =>
        rw [Segment.ofTokens_inline h]
        exact (hstep hfault (by rw [inside_concat_of_none hfence, ← hstate])).map _
      | some b =>
        rw [Segment.ofTokens_push b h]
        exact hstep hfault (by rw [inside_concat_of_none hfence, ← hstate]; rfl)
    | malformed inner span =>
      cases state <;> exact .token rfl hbefore rfl rfl
    | opening name span =>
      cases state with
      | none =>
        exact hstep (by simp [faultAt, ← hstate]) (by rw [inside_concat_of_some rfl]; rfl)
      | some b => exact .token rfl hbefore (by simp [faultAt, ← hstate]) rfl
    | closing span =>
      cases state with
      | none => exact .token rfl hbefore (by simp [faultAt, ← hstate]) rfl
      | some b =>
        exact (hstep (by simp [faultAt, ← hstate]) (by rw [inside_concat_of_some rfl]; rfl)).map _

/-- Of two splits of a text at faults, neither with one before, the first is not the longer. -/
theorem Faultless.length_le {before' after after' : List (Spanned Token)} {t' : Spanned Token}
    {f' : Fault} (h : Faultless before) (hsplit : before ++ t :: after = before' ++ t' :: after')
    (hfault : faultAt before' t' = some f') : before.length ≤ before'.length := by
  by_contra hlt
  obtain ⟨u, hu⟩ : before' ++ [t'] <+: before :=
    List.prefix_of_prefix_length_le ⟨after', by simp⟩ (hsplit ▸ List.prefix_append _ _)
      (by simp; omega)
  have hnone := h before' t' u (by simp [← hu])
  simp [hfault] at hnone

/-- There is one first fault at most. -/
theorem FirstFault.unique {f g : Fault} (hf : FirstFault stop ts f) (hg : FirstFault stop ts g) :
    f = g := by
  cases hf with
  | ending hts _ hf =>
    cases hg with
    | ending _ _ hg => rw [hf, hg]
    | token hsplit _ hfault => simp [hts _ _ _ hsplit] at hfault
  | token hsplit hbefore hfault =>
    cases hg with
    | ending hts _ hg => simp [hts _ _ _ hsplit] at hfault
    | token hsplit' hbefore' hfault' =>
      have heq := hsplit.symm.trans hsplit'
      have hle := hbefore.length_le heq hfault'
      have hge := hbefore'.length_le heq.symm hfault
      obtain ⟨rfl, hrest⟩ := List.append_inj heq (Nat.le_antisymm hle hge)
      obtain ⟨rfl, -⟩ := List.cons_eq_cons.1 hrest
      simpa [hfault] using hfault'

theorem FirstFault.not_faultless {f : Fault} (hf : FirstFault stop ts f) :
    ¬ (Faultless ts ∧ inside ts = false) := by
  rintro ⟨hts, hopen⟩
  cases hf with
  | ending _ hleft => simp [hopen] at hleft
  | token hsplit _ hfault => simp [hts _ _ _ hsplit] at hfault

theorem ofTokens_eq_error_iff {f : Fault} :
    Segment.ofTokens stop none ts = .error f ↔ FirstFault stop ts f := by
  have hverdict : Verdict stop ts (Segment.ofTokens stop none ts) :=
    @verdict_ofTokens stop [] ts none rfl .nil
  constructor
  · intro h
    rwa [h] at hverdict
  · intro hf
    cases h : Segment.ofTokens stop none ts with
    | ok segs =>
      rw [h] at hverdict
      exact absurd hverdict hf.not_faultless
    | error g =>
      rw [h] at hverdict
      rw [FirstFault.unique hf hverdict]

/-- The grouping accepts the tokens of blocks that open and close by turns. By induction along the
tokens; a block that is open stands for its opening. -/
theorem exists_ofTokens_iff {state : Option OpenBlock} :
    (∃ segs, Segment.ofTokens stop state ts = .ok segs) ↔
      (∀ t ∈ ts, ¬ IsMalformed t) ∧
        Alternating ((state.map fun _ => Fence.opening).toList ++ fences ts) := by
  induction ts generalizing state with
  | nil =>
    cases state with
    | none => exact ⟨fun _ => ⟨by simp, .nil, by simp [fences], by simp [fences]⟩, fun _ => ⟨[], rfl⟩⟩
    | some b => simp [Segment.ofTokens, fences, not_alternating_open]
  | cons t ts ih =>
    cases tokenKind t with
    | inline h =>
      obtain ⟨hfence, hmalformed, -⟩ := @fence_of_inline [] _ _ h
      cases state with
      | none => simp [Segment.ofTokens_inline h, Outcome.map_eq_ok_iff, ih, fences, hfence, hmalformed]
      | some b => simp [Segment.ofTokens_push b h, ih, fences, hfence, hmalformed]
    | malformed inner span => cases state <;> simp [Segment.ofTokens, IsMalformed]
    | opening name span =>
      cases state with
      | none => simp [Segment.ofTokens, ih, fences, Fence.ofToken?, IsMalformed]
      | some b => simp [Segment.ofTokens, fences, Fence.ofToken?, not_alternating_twice]
    | closing span =>
      cases state with
      | none => simp [Segment.ofTokens, fences, Fence.ofToken?, not_alternating_closing]
      | some b =>
        simp [Segment.ofTokens, Outcome.map_eq_ok_iff, ih, fences, Fence.ofToken?, IsMalformed,
          alternating_pair_iff]

end

/-! ### Reading a source -/

theorem Markup.ofChars_eq_error_iff {source : List Char} {f : Fault} :
    Markup.ofChars source = .error f ↔
      Segment.ofTokens (byteLength source) none (lex source) = .error f := by
  unfold Markup.ofChars
  cases Segment.ofTokens (byteLength source) none (lex source) <;> simp [Except.map]

/-- A template text is read exactly when it is of the grammar: no marker is malformed, and blocks
open and close by turns, from an opening to a closing. Of any other text one fault is reported, the
first: at the span of the first token that is a malformed marker, closes outside a block or opens
inside one, or at the empty span at the end of the source when all that is wrong is a block left
open. The grammar written with backtracking parsers gives the same: the segments of a text that is
read, and of any other exactly one failure, reported as that fault and with what it expects. -/
theorem Markup.reads_exactly_grammar (source : List Char) :
    ((∃ t, Markup.ofChars source = .ok t) ↔
      (∀ t ∈ lex source, ¬ IsMalformed t) ∧ Alternating (fences (lex source))) ∧
    (∀ f, Markup.ofChars source = .error f ↔
      FirstFault (byteLength source) (lex source) f) ∧
    (∀ t, Markup.ofChars source = .ok t ↔
      ∃ segs, Grammar.segments.parse (lex source) = .ok segs ∧
        t = ⟨source, Segment.arrange segs⟩) ∧
    ∀ f, Markup.ofChars source = .error f ↔
      ∃ failure, Grammar.segments.parse (lex source) = .error [failure] ∧
        Grammar.fault? (byteLength source) failure = some f ∧
        Grammar.expected failure = f.expected := by
  have hgrammar := Grammar.parse_segments (byteLength source) (lex source)
  refine ⟨?_, fun f => ?_, fun t => ?_, fun f => ?_⟩
  · have haccepts : (∃ segs, Segment.ofTokens (byteLength source) none (lex source) = .ok segs) ↔
        (∀ t ∈ lex source, ¬ IsMalformed t) ∧ Alternating (fences (lex source)) :=
      exists_ofTokens_iff
    simp only [Markup.ofChars, Outcome.map_eq_ok_iff, ← haccepts]
    constructor
    · rintro ⟨_, segs, h, _⟩
      exact ⟨segs, h⟩
    · rintro ⟨segs, h⟩
      exact ⟨_, segs, h, rfl⟩
  · rw [Markup.ofChars_eq_error_iff, ofTokens_eq_error_iff]
  · simp only [Markup.ofChars, Outcome.map_eq_ok_iff]
    split at hgrammar
    · next segs heq => simp [heq, hgrammar, eq_comm]
    · next fault heq =>
      obtain ⟨failure, hparse, -⟩ := hgrammar
      simp [heq, hparse]
  · rw [Markup.ofChars_eq_error_iff]
    split at hgrammar
    · next segs heq => simp [heq, hgrammar]
    · next fault heq =>
      obtain ⟨failure, hparse, hfault, hexpected⟩ := hgrammar
      simp only [heq, hparse, Except.error.injEq, List.cons.injEq, and_true]
      constructor
      · rintro rfl
        exact ⟨failure, rfl, hfault, hexpected⟩
      · rintro ⟨_, rfl, hf, -⟩
        exact Option.some.inj (hfault.symm.trans hf)

end Covenant.Template
