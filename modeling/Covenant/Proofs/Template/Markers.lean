import Mathlib.Data.List.Basic
import Covenant.Proofs.Ident
import Covenant.Proofs.Text.Trim
import Covenant.Template.Token

/-! How markers are written, and how the tokens of a source tile it. A marker is what it says
between double braces, with white space on either side that stays on the line. A marker written so
is read as what it says, and a marker that is read as more than malformed is written so. Each token
is the part of the source at its span, the parts follow each other without a gap, and no marker
starts in one that is not a marker. -/
namespace Covenant.Template

open Text (isBlank trim Tight)

/-! ### Where markers start and end -/

/-- The source of a marker that ends on its line. -/
def IsMarker (raw : List Char) : Prop :=
  ∃ inner, raw = '{' :: '{' :: (inner ++ ['}', '}']) ∧ '\n' ∉ inner

theorem IsMarker.newline_not_mem {raw : List Char} (h : IsMarker raw) : '\n' ∉ raw := by
  obtain ⟨inner, rfl, hinner⟩ := h
  simp [hinner]

theorem IsMarker.starts {raw : List Char} (h : IsMarker raw) :
    ∃ tail, raw = '{' :: '{' :: tail := by
  obtain ⟨inner, rfl, _⟩ := h
  exact ⟨_, rfl⟩

theorem IsMarker.ends {raw : List Char} (h : IsMarker raw) : ∃ front, raw = front ++ ['}'] := by
  obtain ⟨inner, rfl, _⟩ := h
  exact ⟨'{' :: '{' :: (inner ++ ['}']), by simp⟩

/-- No marker starts in a text that is followed by more of the source. -/
def Opaque (cs ds : List Char) : Prop :=
  ∀ as bs, cs ++ ds = as ++ '{' :: '{' :: bs → cs.length ≤ as.length

theorem Opaque.append {cs ds es : List Char} (h : Opaque cs (ds ++ es)) (g : Opaque ds es) :
    Opaque (cs ++ ds) es := by
  intro as bs heq
  rw [List.append_assoc] at heq
  have hlength := h as bs heq
  obtain ⟨as', rfl⟩ := List.prefix_of_prefix_length_le ⟨_, heq⟩ (List.prefix_append as _) hlength
  rw [List.append_assoc, List.append_right_inj] at heq
  have hlength' := g as' bs heq
  rw [List.length_append, List.length_append]
  omega

/-! ### What markers say -/

/-- White space that stays on its line. -/
structure IsGap (ws : List Char) : Prop where
  blank : ws.all isBlank = true
  line : '\n' ∉ ws

/-- What a marker says, without the white space around it. -/
inductive Marker.Says : Marker → List Char → Prop
  | slot {name : String} (ident : Ident.isIdent name = true) : Says (.slot name) name.toList
  | openBlock {name : String} {gap : List Char} (ident : Ident.isIdent name = true)
      (isGap : IsGap gap) (parts : gap ≠ []) :
      Says (.openBlock name) ("#block".toList ++ gap ++ name.toList)
  | closeBlock : Says .closeBlock "/block".toList

/-- What may stand between the braces of a marker. -/
def Marker.Fills (m : Marker) (inner : List Char) : Prop :=
  ∃ left words right, inner = left ++ words ++ right ∧ IsGap left ∧ IsGap right ∧ m.Says words

/-- The source of a marker. -/
def Marker.Written (m : Marker) (raw : List Char) : Prop :=
  ∃ inner, raw = '{' :: '{' :: (inner ++ ['}', '}']) ∧ m.Fills inner

section

variable {m : Marker} {inner raw words : List Char}

theorem IsGap.nil : IsGap [] := ⟨rfl, List.not_mem_nil⟩

theorem IsGap.space : IsGap [' '] := ⟨rfl, by decide⟩

theorem braceless_of_isGap {ws : List Char} (h : IsGap ws) :
    ∀ c ∈ ws, c ≠ '{' ∧ c ≠ '}' ∧ c ≠ '\n' := by
  intro c hc
  have hblank := List.all_eq_true.1 h.blank c hc
  refine ⟨?_, ?_, fun hn => h.line (hn ▸ hc)⟩
  · rintro rfl
    cases hblank
  · rintro rfl
    cases hblank

theorem braceless_of_isIdent {name : String} (h : Ident.isIdent name = true) :
    ∀ c ∈ name.toList, c ≠ '{' ∧ c ≠ '}' ∧ c ≠ '\n' := by
  intro c hc
  have hpart := Ident.isPart_of_isIdent h c hc
  refine ⟨?_, ?_, ?_⟩ <;>
  · rintro rfl
    cases hpart

theorem Marker.Says.braceless (h : m.Says words) :
    ∀ c ∈ words, c ≠ '{' ∧ c ≠ '}' ∧ c ≠ '\n' := by
  cases h with
  | slot ident => exact braceless_of_isIdent ident
  | closeBlock => simp
  | openBlock ident isGap _ =>
    simp only [List.forall_mem_append]
    exact ⟨⟨by simp, braceless_of_isGap isGap⟩, braceless_of_isIdent ident⟩

/-- No brace stands between the braces of a marker, and its line does not end there. -/
theorem Marker.Fills.braceless (h : m.Fills inner) :
    ∀ c ∈ inner, c ≠ '{' ∧ c ≠ '}' ∧ c ≠ '\n' := by
  obtain ⟨left, words, right, rfl, hleft, hright, hwords⟩ := h
  simp only [List.forall_mem_append]
  exact ⟨⟨braceless_of_isGap hleft, hwords.braceless⟩, braceless_of_isGap hright⟩

theorem Marker.Says.fills (h : m.Says words) : m.Fills words :=
  ⟨[], words, [], by simp, .nil, .nil, h⟩

theorem Marker.Fills.written (h : m.Fills inner) :
    m.Written ('{' :: '{' :: (inner ++ ['}', '}'])) := ⟨inner, rfl, h⟩

theorem Marker.Written.isMarker (h : m.Written raw) : IsMarker raw := by
  obtain ⟨inner, rfl, hinner⟩ := h
  exact ⟨inner, rfl, fun hn => (hinner.braceless _ hn).2.2 rfl⟩

/-! ### Reading markers -/

theorem ident_ne_nil {name : String} (h : Ident.isIdent name = true) : name.toList ≠ [] := by
  intro hnil
  rw [Ident.isIdent, hnil] at h
  cases h

theorem tight_ident {name : String} (h : Ident.isIdent name = true) : Tight name.toList :=
  Text.tight_of_not_blank fun c hc =>
    Ident.isBlank_of_isPart (Ident.isPart_of_isIdent h c hc)

/-- Trimming takes off the white space around a text that has none at its ends. -/
theorem trim_append_gaps {left right : List Char} (hleft : left.all isBlank = true)
    (hright : right.all isBlank = true) (htight : Tight words) :
    trim (left ++ words ++ right) = words := by
  cases words with
  | nil =>
    rw [Text.trim_eq_nil_iff]
    simp [hleft, hright]
  | cons c cs =>
    have hstart : Text.trimStart (left ++ (c :: cs ++ right)) = c :: cs ++ right := by
      rw [Text.trimStart, List.dropWhile_append_of_pos (List.all_eq_true.1 hleft), ← Text.trimStart]
      exact Text.trimStart_of_head (htight.head c rfl)
    rw [trim, List.append_assoc, hstart, Text.trimEnd_append_blank hright,
      Text.trimEnd_eq_self htight.last]

theorem Marker.Says.tight (h : m.Says words) : Tight words := by
  cases h with
  | slot ident => exact tight_ident ident
  | closeBlock => exact Text.tight_of_not_blank (by simp [Text.isBlank])
  | openBlock ident _ _ =>
    refine ⟨?_, ?_⟩
    · rintro c ⟨⟩
      decide
    · rw [List.getLast?_append_of_ne_nil _ (ident_ne_nil ident)]
      exact (tight_ident ident).last

theorem dropWord_eq_some_iff {word cs rest : List Char} :
    dropWord word cs = some rest ↔ cs = word ++ rest := by
  induction word generalizing cs with
  | nil => simp [dropWord]
  | cons w word ih =>
    cases cs with
    | nil => simp [dropWord]
    | cons c cs =>
      by_cases hc : w = c
      · simp [dropWord, hc, ih]
      · simp [dropWord, hc, Ne.symm hc]

theorem dropWord_ident {name : String} {word : List Char} {w : Char} (hw : Ident.isPart w = false)
    (h : Ident.isIdent name = true) : dropWord (w :: word) name.toList = none := by
  rw [Option.eq_none_iff_forall_ne_some]
  intro rest hrest
  have hmem : w ∈ name.toList := by simp [dropWord_eq_some_iff.1 hrest]
  rw [Ident.isPart_of_isIdent h w hmem] at hw
  cases hw

/-- What a marker says, classified. -/
theorem Marker.Says.classify (h : m.Says words) : Template.classify words = m := by
  cases h with
  | closeBlock => rfl
  | @slot name ident =>
    have hclose : name.toList ≠ "/block".toList := by
      intro hname
      have hslash := Ident.isPart_of_isIdent ident '/' (by rw [hname]; decide)
      cases hslash
    have hopen : dropWord "#block".toList name.toList = none := dropWord_ident rfl ident
    have hident : Ident.isIdentList name.toList = true := ident
    simp only [Template.classify, if_neg hclose, hopen, hident, if_true, String.ofList_toList]
  | @openBlock name gap ident isGap parts =>
    have hdrop : dropWord "#block".toList ("#block".toList ++ gap ++ name.toList) =
        some (gap ++ name.toList) := dropWord_eq_some_iff.2 (List.append_assoc _ _ _)
    have hclose : "#block".toList ++ gap ++ name.toList ≠ "/block".toList := by
      rintro ⟨⟩
    have htrim : trim (gap ++ name.toList) = name.toList := by
      have hgaps := @trim_append_gaps name.toList gap [] isGap.blank rfl (tight_ident ident)
      rwa [List.append_nil] at hgaps
    have hlength : name.toList.length < (gap ++ name.toList).length := by
      have hgap := List.length_pos_iff.2 parts
      rw [List.length_append]
      omega
    have hident : Ident.isIdentList name.toList = true := ident
    simp only [Template.classify, if_neg hclose, hdrop, htrim, hident, Bool.and_true,
      decide_eq_true hlength, if_true, String.ofList_toList]

theorem isIdent_ofList {name : List Char} (h : Ident.isIdentList name = true) :
    Ident.isIdent (String.ofList name) = true := by
  rwa [Ident.isIdent, String.toList_ofList]

/-- A name that ends what is said opens a block if a gap is before it. -/
theorem openBlock_says {rest : List Char} (hwords : Tight words) (hline : '\n' ∉ words)
    (hdrop : dropWord "#block".toList words = some rest)
    (hlength : (trim rest).length < rest.length) (hident : Ident.isIdentList (trim rest) = true) :
    (Marker.openBlock (String.ofList (trim rest))).Says words := by
  have hsplit := dropWord_eq_some_iff.1 hdrop
  have hlast : ∀ c ∈ rest.getLast?, isBlank c = false := by
    intro c hc
    refine hwords.last c ?_
    rw [hsplit, List.getLast?_append, Option.mem_def.1 hc]
    rfl
  obtain ⟨gap, hrest, hblank⟩ := Text.exists_eq_append_trim hlast
  have hparts : gap ≠ [] := by
    rintro rfl
    have hsame : rest.length = (trim rest).length := congrArg List.length hrest
    omega
  have hgap : IsGap gap := ⟨hblank, fun hn => hline (by rw [hsplit, hrest]; simp [hn])⟩
  have hname : (String.ofList (trim rest)).toList = trim rest := String.toList_ofList
  have heq : words = "#block".toList ++ gap ++ (String.ofList (trim rest)).toList := by
    rw [hname, List.append_assoc, ← hrest]
    exact hsplit
  rw [heq]
  exact .openBlock (isIdent_ofList hident) hgap hparts

/-- What is classified as more than malformed says it. -/
theorem says_of_classify (hwords : Tight words) (hline : '\n' ∉ words)
    (h : ∀ inner, classify words ≠ .malformed inner) : (classify words).Says words := by
  unfold classify at h ⊢
  simp only at h ⊢
  split
  · next hclose =>
    rw [hclose]
    exact .closeBlock
  · next hclose =>
    rw [if_neg hclose] at h
    split
    · next rest hdrop =>
      simp only [hdrop] at h
      split
      · next hname =>
        rw [Bool.and_eq_true, decide_eq_true_eq] at hname
        exact openBlock_says hwords hline hdrop hname.1 hname.2
      · next hname =>
        simp only [if_neg hname] at h
        exact absurd rfl (h _)
    · next hdrop =>
      simp only [hdrop] at h
      split
      · next hname =>
        have hsays := Marker.Says.slot (isIdent_ofList hname)
        rwa [String.toList_ofList] at hsays
      · next hname =>
        rw [if_neg hname] at h
        exact absurd rfl (h _)

theorem newline_not_mem_of_splitClose {cs inner rest : List Char}
    (h : splitClose cs = some (inner, rest)) : '\n' ∉ inner := by
  fun_induction splitClose cs generalizing inner rest with
  | case1 => cases h
  | case2 r =>
    cases h
    exact List.not_mem_nil
  | case3 => cases h
  | case4 c r _ hc ih =>
    obtain ⟨p, hp, he⟩ := Option.map_eq_some_iff.1 h
    cases he
    intro hmem
    rcases List.mem_cons.1 hmem with heq | hmem
    · exact hc heq.symm
    · exact ih hp hmem

theorem splitClose_of_braceless {rest : List Char} (h : ∀ c ∈ inner, c ≠ '}' ∧ c ≠ '\n') :
    splitClose (inner ++ '}' :: '}' :: rest) = some (inner, rest) := by
  induction inner with
  | nil => rfl
  | cons c cs ih =>
    rw [List.forall_mem_cons] at h
    rw [List.cons_append, splitClose]
    · rw [if_neg h.1.2, ih h.2]
      rfl
    · intro rest' hc _
      exact h.1.1 hc

/-- A marker is read up to its closing braces, as what it says. -/
theorem Marker.Fills.readMarker (h : m.Fills inner) (rest : List Char) :
    Template.readMarker (inner ++ '}' :: '}' :: rest) = ⟨m, inner ++ ['}', '}'], rest⟩ := by
  have hsplit : splitClose (inner ++ '}' :: '}' :: rest) = some (inner, rest) :=
    splitClose_of_braceless fun c hc => (h.braceless c hc).2
  obtain ⟨left, words, right, rfl, hleft, hright, hwords⟩ := h
  simp only [Template.readMarker, hsplit, trim_append_gaps hleft.blank hright.blank hwords.tight,
    hwords.classify]

/-- What is read as more than a malformed marker is written as one. -/
theorem written_of_readMarker {cs : List Char}
    (h : ∀ inner, (readMarker cs).marker ≠ .malformed inner) :
    (readMarker cs).marker.Written ('{' :: '{' :: (readMarker cs).source) := by
  unfold readMarker at h ⊢
  split
  · next inner rest hsplit =>
    have hline := newline_not_mem_of_splitClose hsplit
    obtain ⟨left, right, hinner, hleft, hright⟩ := Text.exists_eq_trim inner
    simp only [hsplit] at h
    have hpart : '\n' ∉ left ∧ '\n' ∉ trim inner ∧ '\n' ∉ right := by
      rw [hinner] at hline
      simpa [not_or, and_assoc] using hline
    have hsays := says_of_classify (Text.tight_trim inner) hpart.2.1 h
    exact ⟨inner, rfl, left, _, right, hinner, ⟨hleft, hpart.1⟩, ⟨hright, hpart.2.2⟩, hsays⟩
  · next hsplit =>
    rw [hsplit] at h
    exact absurd rfl (h _)

/-- Where a marker is written, it is the next token. -/
theorem Marker.Written.lexFrom (h : m.Written raw) (pos : Nat) (rest : List Char) :
    Template.lexFrom pos (raw ++ rest) =
      ⟨.marker m, ⟨pos, pos + byteLength raw⟩⟩ :: Template.lexFrom (pos + byteLength raw) rest := by
  obtain ⟨inner, rfl, hinner⟩ := h
  have hbrace : Char.utf8Size '{' = 1 := by decide
  have hlength : pos + byteLength ('{' :: '{' :: (inner ++ ['}', '}'])) =
      pos + 2 + byteLength (inner ++ ['}', '}']) := by
    simp only [byteLength, hbrace]
    omega
  have hread := hinner.readMarker rest
  have hsource : '{' :: '{' :: (inner ++ ['}', '}']) ++ rest =
      '{' :: '{' :: (inner ++ '}' :: '}' :: rest) := by simp
  rw [hsource, Template.lexFrom, hread, hlength]

end

/-! ### Tokens -/

/-- A token at the start of a text, the part of the text that it takes and the rest. -/
inductive Token.Starts : Token → List Char → List Char → Prop
  | brace {rest : List Char} (single : rest.head? ≠ some '{') : Starts .brace ['{'] rest
  | newline {rest : List Char} : Starts .newline ['\n'] rest
  | text {word rest : List Char} (nonempty : word ≠ []) (chars : ∀ c ∈ word, isTextChar c = true)
      (whole : ∀ c ∈ rest.head?, isTextChar c = false) : Starts (.text word) word rest
  | marker (cs : List Char) : Starts (.marker (readMarker cs).marker)
      ('{' :: '{' :: (readMarker cs).source) (readMarker cs).rest

/-- The tokens of a text from byte `pos` on. -/
inductive Lexes : Nat → List Char → List (Spanned Token) → Prop
  | nil {pos : Nat} : Lexes pos [] []
  | cons {pos : Nat} {value : Token} {raw rest : List Char} {ts : List (Spanned Token)}
      (starts : value.Starts raw rest) (tail : Lexes (pos + byteLength raw) rest ts) :
      Lexes pos (raw ++ rest) (⟨value, ⟨pos, pos + byteLength raw⟩⟩ :: ts)

/-- By induction along the characters, a token at a time. -/
theorem lexes_lexFrom (pos : Nat) (cs : List Char) : Lexes pos cs (lexFrom pos cs) := by
  fun_induction lexFrom pos cs with
  | case1 => exact .nil
  | case2 pos cs r stop ih =>
    have happend : '{' :: '{' :: cs = ('{' :: '{' :: r.source) ++ r.rest := by
      rw [List.cons_append, List.cons_append, readMarker_append]
    have hlength : stop = pos + byteLength ('{' :: '{' :: r.source) := by
      have hbrace : Char.utf8Size '{' = 1 := by decide
      simp only [byteLength, hbrace, stop]
      omega
    rw [happend, hlength]
    exact .cons (.marker cs) (hlength ▸ ih)
  | case3 pos cs hbrace ih =>
    show Lexes pos (['{'] ++ cs) _
    refine .cons (.brace fun hhead => ?_) ih
    obtain ⟨ds, rfl⟩ := List.head?_eq_some_iff.1 hhead
    exact hbrace ds rfl
  | case4 pos cs ih =>
    show Lexes pos (['\n'] ++ cs) _
    exact .cons .newline ih
  | case5 pos c cs _ hbrace hnewline word stop ih =>
    have happend : c :: cs = word ++ cs.dropWhile isTextChar := by
      rw [List.cons_append, List.takeWhile_append_dropWhile]
    rw [happend]
    refine .cons (.text (List.cons_ne_nil _ _) ?_ ?_) ih
    · have hchar : isTextChar c = true := by simpa [isTextChar] using ⟨hbrace, hnewline⟩
      rw [List.forall_mem_cons]
      exact ⟨hchar, List.all_eq_true.1 List.all_takeWhile⟩
    · intro d hd
      have hnot := List.head?_dropWhile_not isTextChar cs
      rw [Option.mem_def.1 hd] at hnot
      simpa using hnot

/-- The part of the source that a token is. -/
inductive Token.Source : Token → List Char → Prop
  | brace : Source .brace ['{']
  | newline : Source .newline ['\n']
  | text {cs : List Char} (nonempty : cs ≠ []) (braceless : '{' ∉ cs) : Source (.text cs) cs
  | marker {m : Marker} {raw : List Char} (written : m.Written raw) : Source (.marker m) raw
  | malformed {inner : String} {tail : List Char} :
      Source (.marker (.malformed inner)) ('{' :: '{' :: tail)

theorem Token.Source.ne_nil {t : Token} {raw : List Char} (h : t.Source raw) : raw ≠ [] := by
  cases h with
  | text nonempty => exact nonempty
  | marker written =>
    obtain ⟨inner, rfl, _⟩ := written
    simp
  | _ => simp

theorem byteLength_pos {cs : List Char} (h : cs ≠ []) : 0 < byteLength cs := by
  obtain ⟨c, cs, rfl⟩ := List.exists_cons_of_ne_nil h
  have hsize := c.utf8Size_pos
  rw [byteLength]
  omega

/-- The tokens from byte `pos` on are the parts of the source, one after the other. -/
inductive Tiles : Nat → List Char → List (Spanned Token) → Prop
  | nil {pos : Nat} : Tiles pos [] []
  | cons {pos : Nat} {t : Spanned Token} {raw rest : List Char} {ts : List (Spanned Token)}
      (source : t.value.Source raw) (span : t.span = ⟨pos, pos + byteLength raw⟩)
      (unmarked : (∀ m, t.value ≠ .marker m) → Opaque raw rest)
      (tail : Tiles (pos + byteLength raw) rest ts) : Tiles pos (raw ++ rest) (t :: ts)

theorem opaque_of_braceless {cs ds : List Char} (h : '{' ∉ cs) : Opaque cs ds := by
  intro as bs heq
  refine Nat.not_lt.1 fun hlt => h ?_
  have hget := congrArg (·[as.length]?) heq
  simp only [List.getElem?_append_left hlt, List.getElem?_append_right (Nat.le_refl _),
    Nat.sub_self, List.getElem?_cons_zero] at hget
  exact List.mem_of_getElem? hget

section

variable {value : Token} {pos : Nat} {raw cs rest : List Char} {ts : List (Spanned Token)}

theorem Token.Starts.source (h : value.Starts raw rest) : value.Source raw := by
  cases h with
  | brace => exact .brace
  | newline => exact .newline
  | text nonempty chars => exact .text nonempty fun hmem => Bool.noConfusion (chars '{' hmem)
  | marker cs =>
    by_cases hmalformed : ∃ inner, (readMarker cs).marker = .malformed inner
    · obtain ⟨inner, hinner⟩ := hmalformed
      rw [hinner]
      exact .malformed
    · exact .marker (written_of_readMarker fun inner hinner => hmalformed ⟨inner, hinner⟩)

/-- No marker starts in what is none. -/
theorem Token.Starts.unmarked (h : value.Starts raw rest) (hvalue : ∀ m, value ≠ .marker m) :
    Opaque raw rest := by
  cases h with
  | brace single =>
    intro as bs heq
    cases as with
    | nil =>
      cases heq
      exact absurd rfl single
    | cons a as => simp
  | newline => exact opaque_of_braceless (by decide)
  | text _ chars => exact opaque_of_braceless fun hmem => Bool.noConfusion (chars '{' hmem)
  | marker => exact absurd rfl (hvalue _)

theorem Lexes.tiles (h : Lexes pos cs ts) : Tiles pos cs ts := by
  induction h with
  | nil => exact .nil
  | cons starts _ ih => exact .cons starts.source rfl starts.unmarked ih

end

/-- The tokens of a source tile it. -/
theorem tiles_lexFrom (pos : Nat) (cs : List Char) : Tiles pos cs (lexFrom pos cs) :=
  (lexes_lexFrom pos cs).tiles

end Covenant.Template
