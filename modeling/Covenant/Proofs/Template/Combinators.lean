import Mathlib.Tactic.SplitIfs
import Covenant.Template.Segment

/-! Backtracking parsers. A parser takes a first part of its input or fails, and tells in either
case the failure that went furthest: ordered choice backs out of the failures of its first branch
and repetition out of the one that ends it, but neither forgets them, so that a text that is
refused in the end is blamed where the parser got stuck and not where it gave up. -/
namespace Covenant.Template.Combinator

variable {τ ε α β : Type}

/-- A place where nothing matched: what was left of the input there, the error of a step that
refuses what it has matched, and whether the input could have ended there. -/
structure Failure (τ ε : Type) where
  rest : List τ
  refusal? : Option ε
  wantsEnd : Bool
  deriving DecidableEq, Repr

/-- The one of two failures that goes further. Two at one place are made one: a refusal stands
before anything that was only missed, the first before the second. -/
def Failure.join (f g : Failure τ ε) : Failure τ ε :=
  if f.rest.length < g.rest.length then f
  else if g.rest.length < f.rest.length then g
  else ⟨f.rest, f.refusal?.or g.refusal?, f.wantsEnd || g.wantsEnd⟩

/-- What a parser answers: a value and the rest of the input, if it matches, and the furthest
failure it has met. -/
structure Reply (τ ε α : Type) where
  result : Option (α × List τ)
  furthest : Option (Failure τ ε)
  deriving DecidableEq, Repr

/-- A parser of lists of `τ`, which refuses with an `ε`. -/
def Parser (τ ε α : Type) : Type := List τ → Reply τ ε α

/-! ### Combinators -/

/-- One token that `f` takes. -/
def select (f : τ → Option α) : Parser τ ε α
  | [] => ⟨none, some ⟨[], none, false⟩⟩
  | t :: ts =>
    match f t with
    | some a => ⟨some (a, ts), none⟩
    | none => ⟨none, some ⟨t :: ts, none, false⟩⟩

/-- The end of the input. -/
def atEnd : Parser τ ε Unit
  | [] => ⟨some ((), []), none⟩
  | t :: ts => ⟨none, some ⟨t :: ts, none, true⟩⟩

namespace Parser

def map (f : α → β) (p : Parser τ ε α) : Parser τ ε β := fun ts =>
  ⟨(p ts).result.map fun r => (f r.1, r.2), (p ts).furthest⟩

/-- What `p` matches, if `f` accepts it; it is refused where `p` began. -/
def tryMap (f : α → Except ε β) (p : Parser τ ε α) : Parser τ ε β := fun ts =>
  match (p ts).result with
  | none => ⟨none, (p ts).furthest⟩
  | some (a, rest) =>
    match f a with
    | .ok b => ⟨some (b, rest), (p ts).furthest⟩
    | .error e => ⟨none, Option.merge Failure.join (p ts).furthest (some ⟨ts, some e, false⟩)⟩

/-- Ordered choice: `q` is tried where `p` does not match. -/
def orElse (p q : Parser τ ε α) : Parser τ ε α := fun ts =>
  match (p ts).result with
  | some _ => p ts
  | none => ⟨(q ts).result, Option.merge Failure.join (p ts).furthest (q ts).furthest⟩

def andThen (p : Parser τ ε α) (q : Parser τ ε β) : Parser τ ε (α × β) := fun ts =>
  match (p ts).result with
  | none => ⟨none, (p ts).furthest⟩
  | some (a, rest) =>
    ⟨(q rest).result.map fun r => ((a, r.1), r.2),
      Option.merge Failure.join (p ts).furthest (q rest).furthest⟩

/-- `p` and then `q`, the value of `p`. -/
def thenIgnore (p : Parser τ ε α) (q : Parser τ ε β) : Parser τ ε α := (p.andThen q).map Prod.fst

/-- `p` again and again, until it does not match or takes nothing. -/
def many (p : Parser τ ε α) : Parser τ ε (List α) := fun ts =>
  match (p ts).result with
  | none => ⟨some ([], ts), (p ts).furthest⟩
  | some (a, rest) =>
    if rest.length < ts.length then
      ⟨(many p rest).result.map fun r => (a :: r.1, r.2),
        Option.merge Failure.join (p ts).furthest (many p rest).furthest⟩
    else ⟨some ([], ts), (p ts).furthest⟩
termination_by ts => ts.length

/-- Runs a parser over the whole input; one that fails leaves its furthest failure. -/
def parse (p : Parser τ ε α) (ts : List τ) : Except (List (Failure τ ε)) α :=
  match (p.thenIgnore atEnd ts).result with
  | some (a, _) => .ok a
  | none => .error (p.thenIgnore atEnd ts).furthest.toList

end Parser

/-! ### Furthest failures -/

theorem Failure.join_of_lt {f g : Failure τ ε} (h : g.rest.length < f.rest.length) :
    f.join g = g := by
  simp [join, h, Nat.lt_asymm h]

theorem Failure.join_of_gt {f g : Failure τ ε} (h : f.rest.length < g.rest.length) :
    f.join g = f := by
  simp [join, h]

theorem Failure.join_assoc (f g k : Failure τ ε) : (f.join g).join k = f.join (g.join k) := by
  simp only [join]
  split_ifs <;> simp_all [Bool.or_assoc, Option.or_assoc] <;> omega

instance : Std.Associative (Failure.join (τ := τ) (ε := ε)) := ⟨Failure.join_assoc⟩

/-- The failures met so far lie before the place where `rest` begins. -/
def Behind (rest : List τ) (furthest : Option (Failure τ ε)) : Prop :=
  ∀ f ∈ furthest, rest.length < f.rest.length

@[simp] theorem behind_none (rest : List τ) : Behind rest (none : Option (Failure τ ε)) := by
  simp [Behind]

theorem Behind.merge {rest : List τ} {a b : Option (Failure τ ε)} (ha : Behind rest a)
    (hb : Behind rest b) : Behind rest (Option.merge Failure.join a b) := by
  intro f hf
  cases a with
  | none => exact hb f (by simpa using hf)
  | some g =>
    have hg := ha g rfl
    cases b with
    | none =>
      obtain rfl : g = f := by simpa using hf
      exact hg
    | some k =>
      have hk := hb k rfl
      obtain rfl : g.join k = f := by simpa using hf
      simp only [Failure.join]
      split_ifs <;> simp <;> omega

/-- What lies behind a failure is forgotten for it. -/
theorem Behind.merge_eq {rest : List τ} {a : Option (Failure τ ε)} {f : Failure τ ε}
    (ha : Behind rest a) (hf : f.rest.length ≤ rest.length) :
    Option.merge Failure.join a (some f) = some f := by
  cases a with
  | none => rfl
  | some g => exact congrArg some (Failure.join_of_lt (Nat.lt_of_le_of_lt hf (ha g rfl)))

/-! ### What each combinator answers -/

section Laws

variable {p : Parser τ ε α} {q : Parser τ ε β} {ts rest : List τ} {a : α}

theorem select_of_none {f : τ → Option α} (h : ∀ t ∈ ts.head?, f t = none) :
    (select f : Parser τ ε α) ts = ⟨none, some ⟨ts, none, false⟩⟩ := by
  cases ts with
  | nil => rfl
  | cons t ts => simp [select, h t rfl]

theorem Parser.orElse_of_some {p' : Parser τ ε α} {r : α × List τ}
    (h : (p ts).result = some r) : p.orElse p' ts = p ts := by
  simp [orElse, h]

theorem Parser.orElse_of_none {p' : Parser τ ε α} (h : (p ts).result = none) :
    p.orElse p' ts =
      ⟨(p' ts).result, Option.merge Failure.join (p ts).furthest (p' ts).furthest⟩ := by
  simp [orElse, h]

theorem Parser.thenIgnore_of_some (h : (p ts).result = some (a, rest)) :
    p.thenIgnore q ts =
      ⟨(q rest).result.map fun r => (a, r.2),
        Option.merge Failure.join (p ts).furthest (q rest).furthest⟩ := by
  simp [thenIgnore, andThen, map, h, Function.comp_def]

theorem Parser.thenIgnore_of_none (h : (p ts).result = none) :
    p.thenIgnore q ts = ⟨none, (p ts).furthest⟩ := by
  simp [thenIgnore, andThen, map, h]

theorem Parser.many_of_none (h : (p ts).result = none) :
    p.many ts = ⟨some ([], ts), (p ts).furthest⟩ := by
  rw [many]
  simp [h]

theorem Parser.many_of_some (h : (p ts).result = some (a, rest))
    (hlt : rest.length < ts.length) :
    p.many ts =
      ⟨(p.many rest).result.map fun r => (a :: r.1, r.2),
        Option.merge Failure.join (p ts).furthest (p.many rest).furthest⟩ := by
  rw [many]
  simp [h, hlt]

/-- Repetition up to the end of the input, at an input that begins with one more match. -/
theorem Parser.many_atEnd_of_some (h : (p ts).result = some (a, rest))
    (hlt : rest.length < ts.length) :
    (p.many.thenIgnore atEnd) ts =
      ⟨((p.many.thenIgnore atEnd) rest).result.map fun r => (a :: r.1, r.2),
        Option.merge Failure.join (p ts).furthest
          ((p.many.thenIgnore atEnd) rest).furthest⟩ := by
  have hmany := many_of_some h hlt
  cases hrest : (p.many rest).result with
  | none =>
    rw [thenIgnore_of_none (by rw [hmany, hrest]; rfl), thenIgnore_of_none hrest, hmany]
    rfl
  | some r =>
    rw [@thenIgnore_of_some _ _ _ _ _ _ _ r.2 (a :: r.1) (by rw [hmany, hrest]; rfl),
      thenIgnore_of_some hrest, hmany]
    simp only [Option.map_map, Reply.mk.injEq]
    exact ⟨rfl, Std.Associative.assoc ..⟩

end Laws

end Covenant.Template.Combinator
