import Covenant.Proofs.Template.Markers
import Covenant.Proofs.Template.Slice

/-! The tokens of a source. They cover it without gaps and without overlaps, and each but a marker
is the part of the source at its span. A row of text is one token, and so is what starts with two
opening braces: a marker, whose contents end at the first closing braces of the line. It is
malformed if there are none, or if the contents are no name, no start of a block and no end of
one. -/
namespace Covenant.Template

open Text (trim)

/-! ### Contents of markers -/

/-- The part of a line before its first closing braces. -/
structure UpToClose (line inner : List Char) : Prop where
  closes : ∃ rest, line = inner ++ '}' :: '}' :: rest
  first : ∀ before rest, line = before ++ '}' :: '}' :: rest → inner.length ≤ before.length

theorem UpToClose.unique {line inner inner' : List Char} (h : UpToClose line inner)
    (h' : UpToClose line inner') : inner = inner' := by
  obtain ⟨rest, hline⟩ := h.closes
  obtain ⟨rest', hline'⟩ := h'.closes
  have hlength := Nat.le_antisymm (h.first _ _ hline') (h'.first _ _ hline)
  exact (List.append_inj (hline.symm.trans hline') hlength).1

theorem firstLine_cons {c : Char} (hc : c ≠ '\n') (cs : List Char) :
    firstLine (c :: cs) = c :: firstLine cs := by
  simp [firstLine, hc]

/-- A text starts as its line does. -/
theorem exists_cons_of_firstLine {d : Char} {cs line : List Char} (h : firstLine cs = d :: line) :
    ∃ rest, cs = d :: rest := by
  obtain ⟨rest, hrest⟩ := List.takeWhile_prefix (l := cs) (· != '\n')
  rw [← firstLine, h] at hrest
  exact ⟨_, hrest.symm⟩

theorem upToClose_of_splitClose {cs inner rest : List Char}
    (h : splitClose cs = some (inner, rest)) : UpToClose (firstLine cs) inner := by
  fun_induction splitClose cs generalizing inner rest with
  | case1 => cases h
  | case2 r =>
    cases h
    rw [firstLine_cons (by decide), firstLine_cons (by decide)]
    exact ⟨⟨_, rfl⟩, fun _ _ _ => Nat.zero_le _⟩
  | case3 => cases h
  | case4 c r hopen hc ih =>
    obtain ⟨⟨inner, rest⟩, hsplit, heq⟩ := Option.map_eq_some_iff.1 h
    cases heq
    obtain ⟨⟨after, hafter⟩, hfirst⟩ := ih hsplit
    rw [firstLine_cons hc]
    refine ⟨⟨after, by rw [hafter, List.cons_append]⟩, fun before rest' hbefore => ?_⟩
    cases before with
    | nil =>
      -- the line starts with closing braces, and then so does the text
      obtain ⟨rfl, hline⟩ := List.cons_eq_cons.1 hbefore
      obtain ⟨more, hmore⟩ := exists_cons_of_firstLine hline
      exact absurd hmore (hopen _ rfl)
    | cons b before =>
      have hle := hfirst before rest' (List.cons_eq_cons.1 hbefore).2
      simpa using hle

theorem not_isInfix_of_splitClose {cs : List Char} (h : splitClose cs = none) :
    ¬['}', '}'] <:+: firstLine cs := by
  fun_induction splitClose cs with
  | case1 => simp [firstLine]
  | case2 r => cases h
  | case3 c r => simp [firstLine]
  | case4 c r hopen hc ih =>
    rw [firstLine_cons hc]
    intro hinfix
    rcases List.infix_cons_iff.1 hinfix with hprefix | hinfix
    · obtain ⟨rest, hrest⟩ := hprefix
      obtain ⟨rfl, hline⟩ := List.cons_eq_cons.1 hrest
      obtain ⟨more, hmore⟩ := exists_cons_of_firstLine hline.symm
      exact hopen _ rfl hmore
    · exact ih (Option.map_eq_none_iff.1 h) hinfix

/-- A marker that is read is malformed when its line has no closing braces, or the contents before
the first of them say nothing. -/
theorem readMarker_malformed_iff (cs : List Char) :
    (∃ inner, (readMarker cs).marker = .malformed inner) ↔
      ¬['}', '}'] <:+: firstLine cs ∨
        ∃ inner, UpToClose (firstLine cs) inner ∧ ∀ m : Marker, ¬m.Says (trim inner) := by
  unfold readMarker
  split
  · next inner rest hsplit =>
    have hclose := upToClose_of_splitClose hsplit
    have hline : '\n' ∉ trim inner := fun hmem =>
      newline_not_mem_of_splitClose hsplit ((Text.trim_isInfix inner).subset hmem)
    constructor
    · rintro ⟨what, hwhat⟩
      refine .inr ⟨inner, hclose, fun m hm => ?_⟩
      rw [hm.classify] at hwhat
      subst hwhat
      cases hm
    · rintro (hno | ⟨inner', hclose', hsays⟩)
      · obtain ⟨after, hafter⟩ := hclose.closes
        exact absurd ⟨inner, after, by simp [hafter]⟩ hno
      · obtain rfl := hclose.unique hclose'
        by_contra hnot
        exact hsays _ (says_of_classify (Text.tight_trim inner) hline fun what hwhat =>
          hnot ⟨what, hwhat⟩)
  · next hsplit =>
    exact iff_of_true ⟨_, rfl⟩ (.inl (not_isInfix_of_splitClose hsplit))

theorem newline_not_mem_source (cs : List Char) : '\n' ∉ (readMarker cs).source := by
  unfold readMarker
  split
  · next hsplit => simp [newline_not_mem_of_splitClose hsplit]
  · intro hmem
    have hline := List.mem_takeWhile_imp hmem
    simp at hline

theorem Marker.Written.isIdent {m : Marker} {raw : List Char} (h : m.Written raw) {name : String}
    (hname : m = .slot name ∨ m = .openBlock name) : Ident.isIdent name = true := by
  obtain ⟨_, _, _, words, _, _, _, _, hsays⟩ := h
  rcases hname with rfl | rfl
  · cases hsays
    assumption
  · cases hsays
    assumption

theorem isIdent_readMarker {cs : List Char} {name : String}
    (h : (readMarker cs).marker = .slot name ∨ (readMarker cs).marker = .openBlock name) :
    Ident.isIdent name = true := by
  refine (written_of_readMarker fun inner hinner => ?_).isIdent h
  rw [hinner] at h
  simp at h

/-! ### One token -/

/-- The text of a token that is no marker. -/
def Token.text? : Token → Option (List Char)
  | .marker _ => none
  | .brace => some ['{']
  | .newline => some ['\n']
  | .text cs => some cs

section

variable {value value' : Token} {raw raw' rest rest' : List Char}

theorem Token.Starts.newline_not_mem (h : value.Starts raw rest) (hvalue : value ≠ .newline) :
    '\n' ∉ raw := by
  cases h with
  | brace => decide
  | newline => exact absurd rfl hvalue
  | text _ chars => exact fun hmem => Bool.noConfusion (chars '\n' hmem)
  | marker cs => simp [newline_not_mem_source]

theorem Token.Starts.eq_text {cs : List Char} (h : value.Starts raw rest)
    (htext : value.text? = some cs) : raw = cs := by
  cases h with
  | marker => cases htext
  | _ => exact Option.some.inj htext

theorem Token.Starts.exists_readMarker {m : Marker} (h : (Token.marker m).Starts raw rest) :
    ∃ cs, raw ++ rest = '{' :: '{' :: cs ∧ raw = '{' :: '{' :: (readMarker cs).source ∧
      m = (readMarker cs).marker := by
  cases h with
  | marker cs =>
    refine ⟨cs, ?_, rfl, rfl⟩
    rw [List.cons_append, List.cons_append, readMarker_append]

/-- Neither a text nor a single brace is followed by another of its kind. -/
theorem Token.Starts.apart (h : value.Starts raw (raw' ++ rest')) (h' : value'.Starts raw' rest') :
    (∀ cs ds, value = .text cs → value' ≠ .text ds) ∧ (value = .brace → value' ≠ .brace) := by
  constructor
  · rintro cs ds rfl rfl
    cases h with
    | text _ _ whole =>
      cases h' with
      | text nonempty chars =>
        obtain ⟨c, ws, rfl⟩ := List.exists_cons_of_ne_nil nonempty
        have hchar := chars c List.mem_cons_self
        rw [whole c rfl] at hchar
        cases hchar
  · rintro rfl rfl
    cases h with
    | brace single =>
      cases h' with
      | brace => exact single rfl

end

/-! ### All tokens -/

/-- Spans from one place to another, none of them empty, that follow each other without gap or
overlap. -/
def Covers : Nat → Nat → List Span → Prop
  | start, stop, [] => start = stop
  | start, stop, s :: spans => s.start = start ∧ start < s.stop ∧ Covers s.stop stop spans

section

variable {pos : Nat} {cs : List Char} {ts : List (Spanned Token)}

theorem Lexes.covers (h : Lexes pos cs ts) :
    Covers pos (pos + byteLength cs) (ts.map (·.span)) := by
  induction h with
  | nil => rfl
  | @cons pos value raw rest ts starts _ ih =>
    have hpos := byteLength_pos starts.source.ne_nil
    rw [byteLength_append, ← Nat.add_assoc]
    exact ⟨rfl, by simp only; omega, ih⟩

theorem Lexes.isChain (h : Lexes pos cs ts) :
    ts.IsChain fun t u => (∀ cs ds, t.value = .text cs → u.value ≠ .text ds) ∧
      (t.value = .brace → u.value ≠ .brace) := by
  induction h with
  | nil => exact .nil
  | cons starts tail ih =>
    cases tail with
    | nil => exact .singleton _
    | cons starts' tail' => exact ih.cons_cons (starts.apart starts')

/-- A token starts where it is, and ends there. -/
theorem Lexes.exists_part (h : Lexes pos cs ts) {t : Spanned Token} (ht : t ∈ ts) :
    ∃ before raw rest, cs = before ++ (raw ++ rest) ∧
      t.span = ⟨pos + byteLength before, pos + byteLength (before ++ raw)⟩ ∧
      t.value.Starts raw rest := by
  induction h with
  | nil => cases ht
  | @cons pos value raw rest ts starts _ ih =>
    rcases List.mem_cons.1 ht with rfl | ht
    · exact ⟨[], raw, rest, rfl, rfl, starts⟩
    · obtain ⟨before, raw', rest', rfl, hspan, hstarts⟩ := ih ht
      refine ⟨raw ++ before, raw', rest', by simp, ?_, hstarts⟩
      rw [hspan]
      simp only [byteLength_append, Nat.add_assoc]

end

/-! ### Tokens in their source -/

variable (source : List Char) (t : Spanned Token)

/-- The part of a source that a token is. -/
def partAt : List Char := slice t.span.start t.span.stop source

/-- The line after the opening braces of a marker. -/
def lineAt : List Char := firstLine (dropBytes (t.span.start + 2) source)

/-- What holds of a token in its source. -/
structure StandsIn : Prop where
  /-- Its span starts and ends between characters. -/
  boundaries : ∃ before after, source = before ++ (partAt source t ++ after) ∧
    t.span = ⟨byteLength before, byteLength (before ++ partAt source t)⟩
  text : ∀ cs, t.value.text? = some cs → partAt source t = cs
  line : t.value ≠ .newline → '\n' ∉ partAt source t
  opens : ∀ m, t.value = .marker m → ∃ tail, partAt source t = '{' :: '{' :: tail
  names : ∀ name, t.value = .marker (.slot name) ∨ t.value = .marker (.openBlock name) →
    Ident.isIdent name = true
  malformed : ∀ m, t.value = .marker m → ((∃ inner, m = .malformed inner) ↔
    ¬['}', '}'] <:+: lineAt source t ∨
      ∃ inner, UpToClose (lineAt source t) inner ∧ ∀ m' : Marker, ¬m'.Says (trim inner))

variable {source t}

/-- What is said of a marker where it is read holds of it where it stands. -/
theorem lineAt_marker {before cs : List Char} {stop : Nat} {m : Marker} :
    lineAt (before ++ '{' :: '{' :: cs) ⟨.marker m, ⟨byteLength before, stop⟩⟩ = firstLine cs := by
  have hopening : byteLength before + 2 = byteLength (before ++ ['{', '{']) := by
    rw [byteLength_append]
    rfl
  have hsource : before ++ '{' :: '{' :: cs = (before ++ ['{', '{']) ++ cs := by simp
  rw [lineAt, hsource, hopening, dropBytes_append]

theorem Lexes.standsIn {ts : List (Spanned Token)} (h : Lexes 0 source ts) (ht : t ∈ ts) :
    StandsIn source t := by
  obtain ⟨before, raw, rest, hsource, hspan, hstarts⟩ := h.exists_part ht
  rw [Nat.zero_add, Nat.zero_add] at hspan
  have hpart : partAt source t = raw := by
    rw [partAt, hspan, hsource, ← List.append_assoc, slice_append]
  obtain ⟨value, span⟩ := t
  obtain rfl : span = _ := hspan
  refine ⟨⟨before, rest, by rw [hpart, hsource], by rw [hpart]⟩, fun cs hcs => ?_, ?_, ?_, ?_, ?_⟩
  · rw [hpart, hstarts.eq_text hcs]
  · rw [hpart]
    exact hstarts.newline_not_mem
  · rintro m rfl
    obtain ⟨cs, -, hraw, -⟩ := hstarts.exists_readMarker
    exact ⟨_, hpart.trans hraw⟩
  · rintro name (rfl | rfl)
    · obtain ⟨cs, -, -, hm⟩ := hstarts.exists_readMarker
      exact isIdent_readMarker (.inl hm.symm)
    · obtain ⟨cs, -, -, hm⟩ := hstarts.exists_readMarker
      exact isIdent_readMarker (.inr hm.symm)
  · rintro m rfl
    obtain ⟨cs, hcs, -, rfl⟩ := hstarts.exists_readMarker
    have hread : source = before ++ '{' :: '{' :: cs := by rw [hsource, hcs]
    rw [hread, lineAt_marker]
    exact readMarker_malformed_iff cs

/-- The spans of the tokens cover their source from its start to its end, one after the other; each
token stands in the source as tokens do; and no two texts and no two braces are next to each
other. -/
theorem lex_covers (source : List Char) :
    Covers 0 (byteLength source) ((lex source).map (·.span)) ∧
    (∀ t ∈ lex source, StandsIn source t) ∧
    (lex source).IsChain fun t u => (∀ cs ds, t.value = .text cs → u.value ≠ .text ds) ∧
      (t.value = .brace → u.value ≠ .brace) := by
  have hlexes : Lexes 0 source (lex source) := lexes_lexFrom 0 source
  have hcovers := hlexes.covers
  rw [Nat.zero_add] at hcovers
  exact ⟨hcovers, fun t ht => hlexes.standsIn ht, hlexes.isChain⟩

/-! A source with a brace too many on either side of a marker, and a marker without an end. -/

def bracedSource : List Char := "\u03c0\x7b\x7b\x7b a \x7d\x7d\x7d\n\x7b\x7bb".toList

def bracedMarker : Spanned Token := ⟨.marker (.malformed "\x7b a"), ⟨2, 10⟩⟩

/-- The marker ends at the first closing braces, and a third opening brace is part of what it
says. -/
theorem bracedMarker_standsIn :
    lex bracedSource = [⟨.text "\u03c0".toList, ⟨0, 2⟩⟩, bracedMarker,
      ⟨.text "\x7d".toList, ⟨10, 11⟩⟩, ⟨.newline, ⟨11, 12⟩⟩,
      ⟨.marker (.malformed "b (unterminated)"), ⟨12, 15⟩⟩] ∧
    Covers 0 15 [⟨0, 2⟩, ⟨2, 10⟩, ⟨10, 11⟩, ⟨11, 12⟩, ⟨12, 15⟩] ∧
    bracedMarker ∈ lex bracedSource ∧ StandsIn bracedSource bracedMarker := by
  have hlex : lex bracedSource = [⟨.text "\u03c0".toList, ⟨0, 2⟩⟩, bracedMarker,
      ⟨.text "\x7d".toList, ⟨10, 11⟩⟩, ⟨.newline, ⟨11, 12⟩⟩,
      ⟨.marker (.malformed "b (unterminated)"), ⟨12, 15⟩⟩] := by decide +kernel
  have hlength : byteLength bracedSource = 15 := by decide +kernel
  have hmem : bracedMarker ∈ lex bracedSource := by simp [hlex]
  obtain ⟨hcovers, hstands, -⟩ := lex_covers bracedSource
  rw [hlex, hlength] at hcovers
  exact ⟨hlex, hcovers, hmem, hstands _ hmem⟩

end Covenant.Template
