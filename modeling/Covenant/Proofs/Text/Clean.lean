import Mathlib.Data.List.Chain
import Covenant.Proofs.Ident
import Covenant.Proofs.Text.Lines
import Covenant.Text.Safe

/-! Clean text: no backslash, no control character, and no two characters next to each
other that may not meet. Clean texts make a clean text when one of the two characters
where they are joined is harmless, so a generated line is clean that holds clean texts
between harmless literals. -/
namespace Covenant.Text

structure Clean (cs : List Char) : Prop where
  plain : ∀ c ∈ cs, c ≠ '\\' ∧ isControl c = false
  parted : cs.IsChain fun c d => mustPart c d = false

theorem clean_nil : Clean [] := ⟨by simp, .nil⟩

theorem Clean.append {as bs : List Char} (ha : Clean as) (hb : Clean bs)
    (h : ∀ c ∈ as.getLast?, ∀ d ∈ bs.head?, mustPart c d = false) : Clean (as ++ bs) := by
  refine ⟨?_, ha.parted.append hb.parted h⟩
  intro c hc
  rcases List.mem_append.1 hc with hc | hc
  · exact ha.plain c hc
  · exact hb.plain c hc

/-- A part of a clean text is clean. -/
theorem Clean.of_isInfix {as bs : List Char} (hb : Clean bs) (h : as <:+: bs) : Clean as :=
  ⟨fun c hc => hb.plain c (h.subset hc), List.IsChain.infix hb.parted h⟩

/-! ### Harmless ends -/

/-- No two characters that may not meet start with the last one. -/
def looseEnd (cs : List Char) : Bool := cs.getLast?.all fun c => c != '{' && c != '*'

/-- No two characters that may not meet end with the first one. -/
def looseStart (cs : List Char) : Bool := cs.head?.all fun c => c != '{' && c != '/'

theorem mustPart_of_first {c : Char} (h : (c != '{' && c != '*') = true) (d : Char) :
    mustPart c d = false := by
  rw [Bool.and_eq_true, bne_iff_ne, bne_iff_ne] at h
  simp [mustPart, h.1, h.2]

theorem mustPart_of_second {d : Char} (h : (d != '{' && d != '/') = true) (c : Char) :
    mustPart c d = false := by
  rw [Bool.and_eq_true, bne_iff_ne, bne_iff_ne] at h
  simp [mustPart, h.1, h.2]

theorem Clean.append_of_looseEnd {as bs : List Char} (ha : Clean as) (hb : Clean bs)
    (h : looseEnd as = true) : Clean (as ++ bs) := by
  refine ha.append hb fun c hc d _ => mustPart_of_first ?_ d
  rw [Option.mem_def] at hc
  simpa [looseEnd, hc] using h

theorem Clean.append_of_looseStart {as bs : List Char} (ha : Clean as) (hb : Clean bs)
    (h : looseStart bs = true) : Clean (as ++ bs) := by
  refine ha.append hb fun c _ d hd => mustPart_of_second ?_ c
  rw [Option.mem_def] at hd
  simpa [looseStart, hd] using h

theorem looseEnd_append {as bs : List Char} (h : bs ≠ []) :
    looseEnd (as ++ bs) = looseEnd bs := by
  rw [looseEnd, looseEnd, List.getLast?_append_of_ne_nil _ h]

/-! ### Literals -/

/-- The test of clean text. -/
def isClean : List Char → Bool
  | [] => true
  | c :: cs => c != '\\' && !isControl c && (cs.head?.all fun d => !mustPart c d) && isClean cs

theorem isClean_iff {cs : List Char} : isClean cs = true ↔ Clean cs := by
  induction cs with
  | nil => exact ⟨fun _ => clean_nil, fun _ => rfl⟩
  | cons c cs ih =>
    rw [isClean, Bool.and_eq_true, Bool.and_eq_true, Bool.and_eq_true, ih, bne_iff_ne,
      Bool.not_eq_true']
    constructor
    · rintro ⟨⟨⟨hb, hc⟩, hd⟩, hcs⟩
      refine ⟨?_, hcs.parted.cons ?_⟩
      · intro e he
        rcases List.mem_cons.1 he with rfl | he
        · exact ⟨hb, hc⟩
        · exact hcs.plain e he
      · intro d hmem
        rw [Option.mem_def] at hmem
        simpa [hmem] using hd
    · rintro ⟨hplain, hparted⟩
      obtain ⟨hhead, htail⟩ := List.isChain_cons.1 hparted
      obtain ⟨hb, hc⟩ := hplain c List.mem_cons_self
      refine ⟨⟨⟨hb, hc⟩, ?_⟩, fun e he => hplain e (List.mem_cons_of_mem _ he), htail⟩
      cases hcs : cs.head? with
      | none => rfl
      | some d => simp [hhead d hcs]

/-- A clean text after a literal. -/
theorem clean_opening {s x : String} {l : List Char} (hs : s = String.ofList l)
    (hl : (isClean l && looseEnd l) = true) (hx : Clean x.toList) : Clean (s ++ x).toList := by
  rw [Bool.and_eq_true] at hl
  rw [String.toList_append, hs, String.toList_ofList]
  exact (isClean_iff.1 hl.1).append_of_looseEnd hx hl.2

/-- A literal after a clean text. -/
theorem Clean.closing {a s : String} {l : List Char} (ha : Clean a.toList)
    (hs : s = String.ofList l) (hl : (isClean l && looseStart l) = true) :
    Clean (a ++ s).toList := by
  rw [Bool.and_eq_true] at hl
  rw [String.toList_append, hs, String.toList_ofList]
  exact ha.append_of_looseStart (isClean_iff.1 hl.1) hl.2

/-- Two clean texts with a literal between them. -/
theorem Clean.joint {a s x : String} {l : List Char} (ha : Clean a.toList)
    (hs : s = String.ofList l)
    (hl : (isClean l && looseStart l && (looseEnd l && !l.isEmpty)) = true)
    (hx : Clean x.toList) : Clean (a ++ s ++ x).toList := by
  rw [Bool.and_eq_true, Bool.and_eq_true (looseEnd l), Bool.not_eq_true'] at hl
  obtain ⟨hstart, hend, hne⟩ := hl
  have hne : l ≠ [] := by
    rintro rfl
    cases hne
  have hleft := ha.closing hs hstart
  rw [String.toList_append]
  refine hleft.append_of_looseEnd hx ?_
  rw [String.toList_append, hs, String.toList_ofList, looseEnd_append hne, hend]

/-! ### Harmless text -/

/-- A character that no quote, comment or marker has anything to do with. -/
def isHarmless (c : Char) : Bool :=
  c != '"' && c != '\\' && !isControl c && c != '{' && c != '*' && c != '/'

def Harmless (cs : List Char) : Prop := ∀ c ∈ cs, isHarmless c = true

theorem isHarmless_iff {c : Char} : isHarmless c = true ↔
    c ≠ '"' ∧ c ≠ '\\' ∧ isControl c = false ∧ c ≠ '{' ∧ c ≠ '*' ∧ c ≠ '/' := by
  simp [isHarmless, and_assoc]

theorem harmless_nil : Harmless [] := by simp [Harmless]

theorem Harmless.clean {cs : List Char} (h : Harmless cs) : Clean cs := by
  refine ⟨fun c hc => ?_, ?_⟩
  · obtain ⟨_, hbackslash, hcontrol, _⟩ := isHarmless_iff.1 (h c hc)
    exact ⟨hbackslash, hcontrol⟩
  · induction cs with
    | nil => exact .nil
    | cons c cs ih =>
      obtain ⟨_, _, _, hbrace, hstar, _⟩ := isHarmless_iff.1 (h c List.mem_cons_self)
      refine (ih fun d hd => h d (List.mem_cons_of_mem _ hd)).cons fun d _ => ?_
      exact mustPart_of_first (by simp [hbrace, hstar]) d

theorem Harmless.append {as bs : List Char} (ha : Harmless as) (hb : Harmless bs) :
    Harmless (as ++ bs) := by
  intro c hc
  rcases List.mem_append.1 hc with hc | hc
  · exact ha c hc
  · exact hb c hc

/-! ### Words -/

theorem isHarmless_of_alphanumeric {c : Char} (h : Ident.isAlphanumeric c = true) :
    isHarmless c = true := by
  have hrange : (0x30 ≤ c.toNat ∧ c.toNat ≤ 0x39) ∨ (0x41 ≤ c.toNat ∧ c.toNat ≤ 0x5A) ∨
      (0x61 ≤ c.toNat ∧ c.toNat ≤ 0x7A) := by
    simp only [Ident.isAlphanumeric, Bool.or_eq_true, Bool.and_eq_true, decide_eq_true_eq,
      Char.le_def, UInt32.le_iff_toNat_le] at h
    simp only [Char.toNat]
    have ha : ('a'.val.toNat = 97) := rfl
    have hz : ('z'.val.toNat = 122) := rfl
    have hA : ('A'.val.toNat = 65) := rfl
    have hZ : ('Z'.val.toNat = 90) := rfl
    have h0 : ('0'.val.toNat = 48) := rfl
    have h9 : ('9'.val.toNat = 57) := rfl
    omega
  have hne : ∀ d : Char, Ident.isAlphanumeric d = false → c ≠ d := by
    rintro d hd rfl
    rw [h] at hd
    cases hd
  refine isHarmless_iff.2 ⟨hne _ rfl, hne _ rfl, ?_, hne _ rfl, hne _ rfl, hne _ rfl⟩
  rw [isControl, Bool.or_eq_false_iff, Bool.and_eq_false_iff, decide_eq_false_iff_not,
    decide_eq_false_iff_not]
  omega

theorem isHarmless_of_isPart {c : Char} (h : Ident.isPart c = true) : isHarmless c = true := by
  by_cases hword : c = '_'
  · subst hword
    rfl
  · refine isHarmless_of_alphanumeric ?_
    simp only [Ident.isPart, Ident.isStart, Ident.isAlphanumeric, Bool.or_eq_true,
      beq_iff_eq] at h ⊢
    tauto

theorem harmless_of_isIdent {s : String} (h : Ident.isIdent s = true) : Harmless s.toList :=
  fun c hc => isHarmless_of_isPart (Ident.isPart_of_isIdent h c hc)

theorem isHarmless_capital : ∀ n < 26, isHarmless (Char.ofNat (n + 65)) = true := by decide

/-- The name of a type is harmless. -/
theorem harmless_pascalCase {s : String} (h : Harmless s.toList) :
    Harmless (Ident.pascalCase s).toList :=
  Ident.pascalCase_of isHarmless_capital h

/-- The name of a constant is harmless. -/
theorem harmless_constantCase (s : String) : Harmless (Ident.constantCase s).toList := by
  rw [Ident.constantCase, String.toList_ofList]
  intro c hc
  obtain ⟨d, _, rfl⟩ := List.mem_map.1 hc
  split
  · next halpha => exact Ident.upperChar_of isHarmless_capital (isHarmless_of_alphanumeric halpha)
  · rfl

/-! ### Numbers -/

theorem isHarmless_of_isDigit {c : Char} (h : c.isDigit = true) : isHarmless c = true := by
  refine isHarmless_of_alphanumeric ?_
  have hdigit : ('0' ≤ c && c ≤ '9') = true := by
    rwa [Char.isDigit] at h
  rw [Ident.isAlphanumeric, hdigit, Bool.or_true]

theorem harmless_toDigits (n : Nat) : Harmless (Nat.toDigits 10 n) := fun _ hc =>
  isHarmless_of_isDigit (Nat.isDigit_of_mem_toDigits (by decide) (by decide) hc)

theorem harmless_toString (n : Nat) : Harmless (toString n).toList := by
  rw [Nat.toString_eq_ofList_toDigits, String.toList_ofList]
  exact harmless_toDigits n

/-! ### Safe text -/

theorem safeChar_plain (c : Char) : safeChar c ≠ '\\' ∧ isControl (safeChar c) = false := by
  unfold safeChar
  split
  · decide
  · split
    · decide
    · split
      · decide
      · next hb hc => exact ⟨by simpa using hb, by simpa using hc⟩

theorem partFrom_isChain (last : Char) (cs : List Char) :
    (last :: partFrom last cs).IsChain fun c d => mustPart c d = false := by
  induction cs generalizing last with
  | nil => exact .singleton _
  | cons c cs ih =>
    rw [partFrom]
    split
    · refine (List.IsChain.cons (ih c) ?_).cons ?_
      · intro d _
        exact mustPart_of_first (by decide) d
      · rintro d hd
        obtain rfl := Option.some.inj hd
        exact mustPart_of_second (by decide) last
    · next hpart =>
      refine (ih c).cons ?_
      rintro d hd
      obtain rfl := Option.some.inj hd
      simpa using hpart

theorem mem_partFrom {last d : Char} {cs : List Char} (h : d ∈ partFrom last cs) :
    d = ' ' ∨ d ∈ cs := by
  induction cs generalizing last with
  | nil => cases h
  | cons c cs ih =>
    rw [partFrom] at h
    split at h
    · rcases List.mem_cons.1 h with rfl | h
      · exact .inl rfl
      · rcases List.mem_cons.1 h with rfl | h
        · exact .inr List.mem_cons_self
        · exact (ih h).imp id (List.mem_cons_of_mem _)
    · rcases List.mem_cons.1 h with rfl | h
      · exact .inr List.mem_cons_self
      · exact (ih h).imp id (List.mem_cons_of_mem _)

theorem clean_parted {cs : List Char} (h : ∀ c ∈ cs, c ≠ '\\' ∧ isControl c = false) :
    Clean (parted cs) := by
  cases cs with
  | nil => exact clean_nil
  | cons c cs =>
    refine ⟨?_, partFrom_isChain c cs⟩
    intro d hd
    rcases List.mem_cons.1 hd with rfl | hd
    · exact h d List.mem_cons_self
    · rcases mem_partFrom hd with rfl | hd
      · decide
      · exact h d (List.mem_cons_of_mem _ hd)

/-- A character of a safe text stands for one of the text, or is a blank. -/
theorem mem_safe {s : String} {c : Char} (h : c ∈ (safe s).toList) :
    c = ' ' ∨ ∃ d ∈ s.toList, safeChar d = c := by
  rw [safe, String.toList_ofList, safeList] at h
  have hmem := (trim_isInfix _).subset h
  rw [← List.mem_map]
  cases hs : s.toList.map safeChar with
  | nil => simp [hs, parted] at hmem
  | cons d ds =>
    rw [hs, parted] at hmem
    rcases List.mem_cons.1 hmem with rfl | hmem
    · exact .inr List.mem_cons_self
    · exact (mem_partFrom hmem).imp id (List.mem_cons_of_mem _)

theorem clean_safe (s : String) : Clean (safe s).toList := by
  rw [safe, String.toList_ofList, safeList]
  refine (clean_parted ?_).of_isInfix (trim_isInfix _)
  intro c hc
  obtain ⟨d, _, rfl⟩ := List.mem_map.1 hc
  exact safeChar_plain d

end Covenant.Text
