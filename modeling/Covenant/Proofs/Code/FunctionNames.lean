import Covenant.Code.Conditions
import Covenant.Proofs.Builtin.Templates
import Covenant.Proofs.Code.Names
import Covenant.Proofs.Ident
import Mathlib.Data.List.NodupEquivFin

/-! The names of the functions of conditions. A condition that asks for a name of its own gets it,
and the others get the name they share, their index, and underscores until nobody has that name:
looking for it ends, and what it ends with is what the program computes. The names are spelled
unlike any other name in the built-in templates. -/
namespace Covenant.Code

/-! ### The loop -/

/-- The name with underscores after it. -/
def padded (name : String) (k : Nat) : String := name ++ String.ofList (List.replicate k '_')

/-- A name that a condition with the base name `base` does not get: another condition's base name,
or a name given before. -/
def Taken (bases earlier : List String) (base name : String) : Prop :=
  (name ≠ base ∧ name ∈ bases) ∨ name ∈ earlier

/-- Adding underscores to a name, one at a time, as long as it is taken, ends, and with `name`. -/
inductive Settles (taken : String → Prop) : String → String → Prop where
  | free {name : String} (h : ¬taken name) : Settles taken name name
  | longer {start name : String} (h : taken start) (rest : Settles taken (start ++ "_") name) :
      Settles taken start name

namespace Settles

variable {taken taken' : String → Prop} {start name : String}

theorem not_taken (h : Settles taken start name) : ¬taken name := by
  induction h with
  | free h => exact h
  | longer _ _ ih => exact ih

theorem eq_start (h : Settles taken start name) (hfree : ¬taken start) : name = start := by
  cases h with
  | free => rfl
  | longer htaken => exact absurd htaken hfree

theorem exists_padded (h : Settles taken start name) : ∃ k, name = padded start k := by
  induction h with
  | free => exact ⟨0, String.append_empty.symm⟩
  | @longer start name _ _ ih =>
    obtain ⟨k, rfl⟩ := ih
    refine ⟨k + 1, ?_⟩
    rw [padded, padded, String.append_assoc, ← String.toList_inj]
    simp [List.replicate_succ]

/-- Only the names that are at least as long as the first one matter. -/
theorem congr (h : Settles taken start name)
    (hiff : ∀ n : String, start.length ≤ n.length → (taken n ↔ taken' n)) :
    Settles taken' start name := by
  induction h with
  | free h => exact .free fun h' => h ((hiff _ le_rfl).2 h')
  | longer h _ ih =>
    refine .longer ((hiff _ le_rfl).1 h) (ih fun n hn => hiff n ?_)
    rw [String.length_append] at hn
    omega

end Settles

theorem settles_freeName (taken : List String) (name : String) :
    Settles (· ∈ taken) name (freeName taken name) := by
  induction taken, name using freeName.induct with
  | case1 taken name htaken ih =>
    rw [freeName, if_pos htaken]
    refine .longer htaken (ih.congr fun n hn => List.mem_erase_of_ne ?_)
    rintro rfl
    rw [String.length_append, show "_".length = 1 from rfl] at hn
    omega
  | case2 taken name htaken =>
    rw [freeName, if_neg htaken]
    exact .free htaken

/-! ### Rows of names -/

/-- The name that is tried first for the condition at an index. -/
def wanted (bases : List String) (i : Nat) (base : String) : String :=
  if bases.count base > 1 then base ++ toString i else base

theorem length_nameFrom (bases used : List String) (i : Nat) (rest : List String) :
    (nameFrom bases used i rest).length = rest.length := by
  induction rest generalizing used i with
  | nil => rfl
  | cons base rest ih => rw [nameFrom, List.length_cons, List.length_cons, ih]

/-- Each name in a row is what the loop ends with for its base name. -/
theorem settles_nameFrom {bases rest : List String} (used : List String) (i : Nat) {k : Nat}
    {base name : String} (hbase : rest[k]? = some base)
    (hname : (nameFrom bases used i rest)[k]? = some name) :
    Settles (Taken bases (used ++ (nameFrom bases used i rest).take k) base)
      (wanted bases (i + k) base) name := by
  induction rest generalizing used i k with
  | nil => cases hbase
  | cons first rest ih =>
    rw [nameFrom] at hname ⊢
    cases k with
    | zero =>
      cases hbase
      cases hname
      refine (settles_freeName _ _).congr fun n _ => ?_
      simp [Taken, and_comm]
    | succ k =>
      rw [show i + (k + 1) = i + 1 + k by omega]
      refine (ih _ _ hbase hname).congr fun n _ => ?_
      simp only [Taken, List.take_succ_cons, List.mem_append, List.mem_cons]
      tauto

/-- Another condition asks for the base name of the one at index `i`. -/
def Shared (bases : List String) (i : Nat) : Prop := ∃ j, j ≠ i ∧ bases[j]? = bases[i]?

theorem one_lt_count_iff {bases : List String} {i : Nat} {base : String} (h : bases[i]? = some base) :
    1 < bases.count base ↔ Shared bases i := by
  obtain ⟨hi, rfl⟩ := List.getElem?_eq_some_iff.1 h
  rw [Nat.lt_iff_add_one_le, ← List.duplicate_iff_two_le_count,
    List.duplicate_iff_exists_distinct_get]
  simp only [List.get_eq_getElem]
  constructor
  · rintro ⟨n, m, hlt, hn, hm⟩
    by_cases hni : (n : Nat) = i
    · have hlt : (n : Nat) < m := hlt
      exact ⟨m, by omega, by rw [List.getElem?_eq_getElem m.isLt, h, hm]⟩
    · exact ⟨n, hni, by rw [List.getElem?_eq_getElem n.isLt, h, hn]⟩
  · rintro ⟨j, hne, heq⟩
    rw [h] at heq
    obtain ⟨hj, heq⟩ := List.getElem?_eq_some_iff.1 heq
    rcases Nat.lt_or_gt_of_ne hne with hlt | hlt
    · exact ⟨⟨j, hj⟩, ⟨i, hi⟩, hlt, heq.symm, rfl⟩
    · exact ⟨⟨i, hi⟩, ⟨j, hj⟩, hlt, rfl, heq.symm⟩

/-- How the name of the condition at an index of a row comes about. -/
structure NamedAt (bases names : List String) (i : Nat) (base name : String) : Prop where
  settles : Settles (Taken bases (names.take i) base) (wanted bases i base) name
  alone : ¬Shared bases i → name = base
  shared : Shared bases i → ∃ k, name = padded (base ++ toString i) k

section Row

variable {bases names : List String}

/-- What the loop makes of every base name of a list. -/
def Row (bases names : List String) : Prop :=
  names.length = bases.length ∧ ∀ (i : Nat) (base name : String), bases[i]? = some base →
    names[i]? = some name → Settles (Taken bases (names.take i) base) (wanted bases i base) name

theorem row_nameFrom (bases : List String) : Row bases (nameFrom bases [] 0 bases) := by
  refine ⟨length_nameFrom bases [] 0 bases, fun i base name hbase hname => ?_⟩
  have h := settles_nameFrom [] 0 hbase hname
  rwa [List.nil_append, Nat.zero_add] at h

/-- No name is given twice. -/
theorem Row.nodup (h : Row bases names) : names.Nodup := by
  rw [List.Nodup, List.pairwise_iff_getElem]
  intro i j hi hj hlt heq
  have hbase : j < bases.length := h.1 ▸ hj
  refine (h.2 j _ _ (List.getElem?_eq_getElem hbase) (List.getElem?_eq_getElem hj)).not_taken
    (.inr ?_)
  exact List.mem_take_iff_getElem.2 ⟨i, by omega, heq⟩

/-- A base name is given to nobody who asks for another. -/
theorem Row.eq_base (h : Row bases names) {i : Nat} {base name : String}
    (hbase : bases[i]? = some base) (hname : names[i]? = some name) (hmem : name ∈ bases) :
    name = base := by
  by_contra hne
  exact (h.2 i base name hbase hname).not_taken (.inl ⟨hne, hmem⟩)

theorem Row.namedAt (h : Row bases names) {i : Nat} {base name : String}
    (hbase : bases[i]? = some base) (hname : names[i]? = some name) :
    NamedAt bases names i base name where
  settles := h.2 i base name hbase hname
  alone hunshared := by
    have hcount : ¬1 < bases.count base := fun hlt => hunshared ((one_lt_count_iff hbase).1 hlt)
    have hsettles := h.2 i base name hbase hname
    rw [wanted, if_neg hcount] at hsettles
    refine hsettles.eq_start ?_
    rintro (⟨hne, _⟩ | hmem)
    · exact hne rfl
    -- an earlier condition with this name has it as its own base name
    · obtain ⟨j, hj, heq⟩ := List.mem_take_iff_getElem.1 hmem
      have hjb : j < bases.length := by rw [← h.1]; omega
      have hown := h.eq_base (List.getElem?_eq_getElem hjb) (List.getElem?_eq_some_iff.2 ⟨by omega, heq⟩)
        (List.mem_of_getElem? hbase)
      exact hunshared ⟨j, by omega, by rw [List.getElem?_eq_getElem hjb, hbase, hown]⟩
  shared hshared := by
    have hsettles := h.2 i base name hbase hname
    rw [wanted, if_pos ((one_lt_count_iff hbase).2 hshared)] at hsettles
    exact hsettles.exists_padded

end Row

/-! ### Spelling -/

theorem beginsLikeConstant_append {cs ds : List Char} (hc : beginsLikeConstant cs = true)
    (hd : beginsLikeConstant ds = true) : beginsLikeConstant (cs ++ ds) = true := by
  cases cs with
  | nil => exact hd
  | cons => exact hc

theorem isConstantChar_upperChar {c : Char} (h : Ident.isPart c = true) :
    isConstantChar (Ident.upperChar c) = true := by
  have hcapitals : ∀ n < 26, isConstantChar (Char.ofNat (n + 65)) = true := by decide
  have hdigits : ∀ n < 10, isConstantChar (Char.ofNat (n + 48)) = true := by decide
  have hsmall : ('a' ≤ c && c ≤ 'z') = true ↔ 97 ≤ c.toNat ∧ c.toNat ≤ 122 := by
    simp only [Bool.and_eq_true, decide_eq_true_eq, Char.le_def, UInt32.le_iff_toNat_le]
    rfl
  rw [Ident.upperChar]
  rcases Ident.isPart_iff.1 h with hc | hc | hc
  · rw [if_pos (hsmall.2 hc), show c.toNat - 32 = c.toNat - 97 + 65 by omega]
    exact hcapitals _ (by omega)
  · rw [if_neg fun h => by have := hsmall.1 h; omega, ← Char.ofNat_toNat c, hc]
    rfl
  · rw [if_neg fun h => by have := hsmall.1 h; omega, ← Char.ofNat_toNat c,
      show c.toNat = c.toNat - 48 + 48 by omega]
    exact hdigits _ (by omega)

theorem beginsLikeConstant_pascalCase {s : String} (h : Ident.isIdent s = true) :
    beginsLikeConstant (Ident.pascalCase s).toList = true := by
  rw [Ident.pascalCase, String.toList_ofList]
  have hpieces : ∀ p ∈ Text.pieces '_' s.toList, beginsLikeConstant (Ident.capitalize p) = true := by
    intro p hp
    cases p with
    | nil => rfl
    | cons c cs =>
      have hmem : c ∈ s.toList := (Text.pieces_isInfix hp).subset List.mem_cons_self
      exact isConstantChar_upperChar (Ident.isPart_of_isIdent h c hmem)
  generalize Text.pieces '_' s.toList = ps at hpieces
  induction ps with
  | nil => rfl
  | cons p ps ih =>
    exact beginsLikeConstant_append (hpieces p List.mem_cons_self)
      (ih fun q hq => hpieces q (List.mem_cons_of_mem _ hq))

theorem beginsLikeConstant_of_all {cs : List Char} (h : ∀ c ∈ cs, isConstantChar c = true) :
    beginsLikeConstant cs = true := by
  cases cs with
  | nil => rfl
  | cons c cs => exact h c List.mem_cons_self

theorem beginsLikeConstant_toString (n : Nat) : beginsLikeConstant (toString n).toList = true := by
  rw [Nat.toString_eq_ofList_toDigits, String.toList_ofList]
  refine beginsLikeConstant_of_all fun c hc => ?_
  have hdigit : isDigit c = true := by
    rw [isDigit]
    exact Nat.isDigit_of_mem_toDigits (by decide) (by decide) hc
  rw [isConstantChar, hdigit, Bool.or_true, Bool.true_or]

theorem isFunctionName_append {rest : String} (h : beginsLikeConstant rest.toList = true) :
    isFunctionName ("on" ++ rest).toList = true := by
  rw [String.toList_append]
  exact h

theorem NamedAt.isFunctionName {bases names : List String} {i : Nat} {trigger name : String}
    (h : NamedAt bases names i (baseName trigger) name) (ht : Ident.isIdent trigger = true) :
    isFunctionName name.toList = true := by
  have hbase := beginsLikeConstant_pascalCase ht
  by_cases hshared : Shared bases i
  · obtain ⟨k, rfl⟩ := h.shared hshared
    rw [padded, baseName, String.append_assoc, String.append_assoc]
    refine isFunctionName_append ?_
    rw [String.toList_append, String.toList_append, String.toList_ofList]
    refine beginsLikeConstant_append hbase
      (beginsLikeConstant_append (beginsLikeConstant_toString i) (beginsLikeConstant_of_all ?_))
    intro c hc
    rw [(List.mem_replicate.1 hc).2]
    rfl
  · rw [h.alone hshared]
    exact isFunctionName_append hbase

/-! ### Conditions -/

/-- How a row of names relates to the base names that conditions ask for. -/
structure Naming (bases names : List String) : Prop where
  length_eq : names.length = bases.length
  nodup : names.Nodup
  namedAt : ∀ (i : Nat) (base name : String), bases[i]? = some base → names[i]? = some name →
    NamedAt bases names i base name
  spelled : ∀ name ∈ names, isFunctionName name.toList = true
  /-- No modifier, function or anything else in the built-in templates has one of the names. -/
  foreign : ∀ (t j : String) (r : Template.Resolved), Builtin.templates.resolve t j = .ok r →
    ∀ name ∈ names, (∀ role, name.toList ∉ Code.names (r.body role).source) ∧
      ∀ slot text, r.extension? slot = some text → name.toList ∉ Code.names text.source

/-- The functions of conditions whose triggers are identifiers have names of their own. -/
theorem functionNames_naming (cs : List Condition)
    (h : ∀ c ∈ cs, Ident.isIdent c.trigger = true) :
    Naming (cs.map fun c => baseName c.trigger) (functionNames (cs.map (·.trigger))) := by
  have hrow := row_nameFrom (cs.map fun c => baseName c.trigger)
  rw [functionNames, List.map_map]
  have hspelled : ∀ name ∈ nameFrom (cs.map fun c => baseName c.trigger) []
      0 (cs.map fun c => baseName c.trigger), isFunctionName name.toList = true := by
    intro name hname
    obtain ⟨i, hi⟩ := List.mem_iff_getElem?.1 hname
    have hlt : i < cs.length := by
      have := (List.getElem?_eq_some_iff.1 hi).1
      rwa [hrow.1, List.length_map] at this
    refine (hrow.namedAt ?_ hi).isFunctionName (h _ (List.getElem_mem hlt))
    rw [List.getElem?_map, List.getElem?_eq_getElem hlt, Option.map_some]
  refine ⟨hrow.1, hrow.nodup, fun i base name => hrow.namedAt, hspelled, fun t j r hr name hname => ?_⟩
  have hdiffer : ∀ words : List (List Char), (∀ word ∈ words, isFunctionName word = false) →
      name.toList ∉ words := fun words hwords hmem =>
    Bool.false_ne_true ((hwords _ hmem).symm.trans (hspelled name hname))
  exact ⟨fun role => hdiffer _ (Builtin.names_of_body hr role),
    fun slot text htext => hdiffer _ (Builtin.names_of_extension hr htext)⟩

example : functionNames ["paid", "shipped", "paid"] = ["onPaid0", "onShipped", "onPaid2"] := by
  decide +kernel

/-- Two conditions with one trigger, and a third whose base name is the first name tried for the
first of them. -/
def crowded : List Condition := ["x", "x", "x0"].map fun trigger => ⟨trigger, "release", none, ∅⟩

theorem crowded_naming :
    (∀ c ∈ crowded, Ident.isIdent c.trigger = true) ∧
      Naming ["onX", "onX", "onX0"] ["onX0_", "onX1", "onX0"] := by
  have hident : ∀ c ∈ crowded, Ident.isIdent c.trigger = true := by decide +kernel
  have hbases : crowded.map (fun c => baseName c.trigger) = ["onX", "onX", "onX0"] := by
    decide +kernel
  have hnames : functionNames (crowded.map (·.trigger)) = ["onX0_", "onX1", "onX0"] := by
    decide +kernel
  have h := functionNames_naming crowded hident
  rw [hbases, hnames] at h
  exact ⟨hident, h⟩

end Covenant.Code
