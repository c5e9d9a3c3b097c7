import Covenant.Proofs.Template.Edges
import Covenant.Proofs.Text.Words

/-! Template text as it is printed. A list of texts, slots and blocks is canonical when no text is
empty, next to another or holds what would be read as a part of a marker. What is read from the
print of a canonical list is that list, with the places of its markers; and a source that can be
read is the print of one canonical list and no other, but for the white space in its markers. -/
namespace Covenant.Template

open Text (words)
open Artifact (hasMarker unmarked_iff)

/-! ### Printing -/

/-- A text or slot, without the place where it is written. -/
inductive Item where
  | text (cs : List Char)
  | slot (name : String)
  deriving DecidableEq, Repr

/-- A text, slot or block, without the place where it is written. -/
inductive Piece where
  | item (i : Item)
  | block (name : String) (body : List Item)
  deriving DecidableEq, Repr

/-- A text between double braces. -/
def braced (inner : List Char) : List Char := '{' :: '{' :: (inner ++ ['}', '}'])

/-- A slot has blanks within its braces, the markers of a block have none. -/
def Marker.print : Marker → List Char
  | .slot name => braced (' ' :: (name.toList ++ [' ']))
  | .openBlock name => braced ("#block ".toList ++ name.toList)
  | .closeBlock => braced "/block".toList
  | .malformed inner => braced inner.toList

section

variable (g : Marker → List Char)

/-- A text or slot with its marker as `g` has it. -/
def Item.write : Item → List Char
  | .text cs => cs
  | .slot name => g (.slot name)

def Piece.write : Piece → List Char
  | .item i => i.write g
  | .block name body =>
    g (.openBlock name) ++ body.flatMap (Item.write g) ++ g .closeBlock

/-- The text of a list, its markers as `g` has them. -/
def write (ps : List Piece) : List Char := ps.flatMap (Piece.write g)

/-- A text or slot where it is written, at byte `pos`. -/
def Item.place (pos : Nat) : Item → Inline
  | .text cs => .text cs
  | .slot name => .slot ⟨name, ⟨pos, pos + byteLength (g (.slot name))⟩⟩

def Item.placeAll (pos : Nat) : List Item → List Inline
  | [] => []
  | i :: is => i.place g pos :: Item.placeAll (pos + byteLength (i.write g)) is

/-- A piece where it is written. The name of a block is placed at its opening marker. -/
def Piece.place (pos : Nat) : Piece → Segment
  | .item i => .inline (i.place g pos)
  | .block name body =>
    let start := pos + byteLength (g (.openBlock name))
    .block ⟨⟨name, ⟨pos, start⟩⟩, [], false, Item.placeAll g start body⟩

/-- The segments of a list that is written from byte `pos` on. -/
def place (pos : Nat) : List Piece → List Segment
  | [] => []
  | p :: ps => p.place g pos :: place (pos + byteLength (p.write g)) ps

end

/-- The text of a list. -/
def print (ps : List Piece) : List Char := write Marker.print ps

/-- What a segment is, wherever it is written. -/
def Inline.item : Inline → Item
  | .text cs => .text cs
  | .slot name => .slot name.value

def Segment.piece : Segment → Piece
  | .inline i => .item i.item
  | .block b => .block b.name.value (b.body.map Inline.item)

/-! ### Canonical lists -/

/-- Texts and slots with a marker after them. -/
def Item.Canonical : List Item → Prop
  | [] => True
  | .slot name :: rest => Ident.isIdent name = true ∧ Item.Canonical rest
  | .text cs :: rest => cs ≠ [] ∧ hasMarker cs = false ∧ cs.getLast? ≠ some '{' ∧
      (∀ ds tail, rest ≠ .text ds :: tail) ∧ Item.Canonical rest

/-- Texts are not empty, hold no marker, are not next to each other and do not end with a brace
before a marker; names are identifiers. -/
def Canonical : List Piece → Prop
  | [] => True
  | .block name body :: rest => Ident.isIdent name = true ∧ Item.Canonical body ∧ Canonical rest
  | .item (.slot name) :: rest => Ident.isIdent name = true ∧ Canonical rest
  | .item (.text cs) :: rest => cs ≠ [] ∧ hasMarker cs = false ∧
      (rest ≠ [] → cs.getLast? ≠ some '{') ∧ (∀ ds tail, rest ≠ .item (.text ds) :: tail) ∧
      Canonical rest

/-! ### Reading what is printed -/

/-- What markers say is written by `g` between braces. -/
def Writes (g : Marker → List Char) : Prop :=
  ∀ (m : Marker) (words : List Char), m.Says words → m.Written (g m)

section

variable {g : Marker → List Char} {cs ds : List Char}

theorem opaque_of_unmarked (h : hasMarker cs = false)
    (hmeet : cs.getLast? = some '{' → ds.head? ≠ some '{') : Opaque cs ds := by
  intro as bs heq
  rcases List.append_eq_append_iff.1 heq with ⟨es, rfl, _⟩ | ⟨es, rfl, hes⟩
  · simp
  · cases es with
    | nil => simp
    | cons e es =>
      obtain ⟨rfl, htail⟩ := List.cons_eq_cons.1 hes
      cases es with
      | nil =>
        have hhead : ds.head? = some '{' := congrArg List.head? htail.symm
        exact absurd hhead (hmeet (by simp))
      | cons e es =>
        obtain ⟨rfl, _⟩ := List.cons_eq_cons.1 htail
        exact absurd ⟨as, es, by simp⟩ (unmarked_iff.1 h)

/-- The canonical content of a block is written as it is placed. -/
theorem Item.Canonical.written (hg : Writes g) {is : List Item} (h : Item.Canonical is)
    (pos : Nat) (after : List Char) :
    Inline.Written after pos (Item.placeAll g pos is) (is.flatMap (Item.write g)) ∧
      Inline.Apart (Item.placeAll g pos is) := by
  induction is generalizing pos with
  | nil => exact ⟨.nil, trivial⟩
  | cons i is ih =>
    cases i with
    | slot name =>
      obtain ⟨ident, hrest⟩ := h
      obtain ⟨hwritten, hapart⟩ := ih hrest (pos + byteLength (g (.slot name)))
      exact ⟨.slot (hg _ _ (.slot ident)) hwritten, hapart⟩
    | text cs =>
      obtain ⟨hne, hunmarked, hlast, hnext, hrest⟩ := h
      obtain ⟨hwritten, hapart⟩ := ih hrest (pos + byteLength cs)
      refine ⟨.text hne (opaque_of_unmarked hunmarked fun h => absurd h hlast) hwritten, ?_, hapart⟩
      intro ds tail heq
      cases is with
      | nil => cases heq
      | cons j is =>
        cases j with
        | slot => cases heq
        | text es => exact hnext es is rfl

/-- A canonical list is written as it is placed. -/
theorem Canonical.written (hg : Writes g) {ps : List Piece} (h : Canonical ps) (pos : Nat) :
    (∃ os, Segment.Written pos (place g pos ps) os (write g ps)) ∧
      Segment.Apart (place g pos ps) := by
  induction ps generalizing pos with
  | nil => exact ⟨⟨[], .nil⟩, trivial⟩
  | cons p ps ih =>
    match p, h with
    | .block name body, h =>
      obtain ⟨ident, hbody, hrest⟩ := h
      obtain ⟨⟨os, hwritten⟩, hapart⟩ :=
        ih hrest (pos + byteLength ((Piece.block name body).write g))
      obtain ⟨hcontent, hcontentApart⟩ := hbody.written hg (pos + byteLength (g (.openBlock name)))
        (g .closeBlock ++ write g ps)
      have hopen : (Marker.openBlock name).Written (g (.openBlock name)) :=
        hg _ _ (.openBlock ident .space (by simp))
      exact ⟨⟨_, .block hopen hcontent (hg _ _ .closeBlock) hwritten⟩, hcontentApart, hapart⟩
    | .item (.slot name), h =>
      obtain ⟨ident, hrest⟩ := h
      obtain ⟨⟨os, hwritten⟩, hapart⟩ := ih hrest (pos + byteLength (g (.slot name)))
      refine ⟨⟨os, .inline (Inline.written_slot_iff.2 ⟨?_, rfl⟩) hwritten⟩, hapart⟩
      exact hg _ _ (.slot ident)
    | .item (.text cs), h =>
      obtain ⟨hne, hunmarked, hlast, hnext, hrest⟩ := h
      obtain ⟨⟨os, hwritten⟩, hapart⟩ := ih hrest (pos + byteLength cs)
      have hopaque : Opaque cs (write g ps) := by
        refine opaque_of_unmarked hunmarked fun hbrace => ?_
        cases ps with
        | nil => simp [write]
        | cons p ps => exact absurd hbrace (hlast (by simp))
      refine ⟨⟨os, .inline (Inline.written_text_iff.2 ⟨rfl, hne, hopaque⟩) hwritten⟩, ?_, hapart⟩
      intro ds tail heq
      match ps, heq with
      | .item (.text es) :: ps, _ => exact hnext es ps rfl

/-- What a canonical list is written as is read as the list, where it is placed. -/
theorem Canonical.ofChars_write (hg : Writes g) {ps : List Piece} (h : Canonical ps) :
    Segment.ofChars (write g ps) = .ok (place g 0 ps) := by
  obtain ⟨⟨os, hwritten⟩, hapart⟩ := h.written hg 0
  exact Segment.ofChars_of_written hwritten hapart

theorem items_placeAll (g : Marker → List Char) (pos : Nat) (is : List Item) :
    (Item.placeAll g pos is).map Inline.item = is := by
  induction is generalizing pos with
  | nil => rfl
  | cons i is ih =>
    rw [Item.placeAll, List.map_cons, ih]
    cases i <;> rfl

/-- Placing changes only places. -/
theorem pieces_place (g : Marker → List Char) (pos : Nat) (ps : List Piece) :
    (place g pos ps).map Segment.piece = ps := by
  induction ps generalizing pos with
  | nil => rfl
  | cons p ps ih =>
    rw [place, List.map_cons, ih]
    cases p with
    | block name body => simp only [Piece.place, Segment.piece, items_placeAll]
    | item i => cases i <;> rfl

/-- Canonical lists that are written the same are the same. -/
theorem Canonical.eq_of_write (hg : Writes g) {ps qs : List Piece} (hps : Canonical ps)
    (hqs : Canonical qs) (h : write g ps = write g qs) : ps = qs := by
  have hread := hps.ofChars_write hg
  rw [h, hqs.ofChars_write hg] at hread
  have hplaces := Except.ok.inj hread
  calc ps = (place g 0 ps).map Segment.piece := (pieces_place g 0 ps).symm
    _ = (place g 0 qs).map Segment.piece := by rw [hplaces]
    _ = qs := pieces_place g 0 qs

/-! ### What is read is canonical -/

theorem Inline.Written.canonical {after : List Char} {pos : Nat} {is : List Inline}
    (h : Inline.Written after pos is cs) (apart : Inline.Apart is)
    (hafter : ∃ tail, after = '{' :: tail) : Item.Canonical (is.map Inline.item) := by
  induction h with
  | nil => trivial
  | slot marker _ ih =>
    obtain ⟨_, _, _, _, _, _, _, _, hsays⟩ := marker
    cases hsays with
    | slot ident => exact ⟨ident, ih apart⟩
  | @text pos cs ds is nonempty unmarked rest ih =>
    have hfirm :=
      (Inline.Written.text nonempty unmarked rest).firm apart hafter _ List.mem_cons_self
    refine ⟨nonempty, unmarked.unmarked, hfirm, ?_, ih apart.2⟩
    intro es tail heq
    match is, heq with
    | .text es :: is, _ => exact apart.1 es is rfl

/-- Segments of a source are canonical. -/
theorem Segment.Written.canonical {pos : Nat} {segs : List Segment} {os : List Occurrence}
    (h : Segment.Written pos segs os cs) (apart : Segment.Apart segs) :
    Canonical (segs.map Segment.piece) := by
  induction h with
  | nil => trivial
  | block openMarker content closeMarker _ ih =>
    have hclose := closeMarker.isMarker.starts
    obtain ⟨_, _, _, _, _, _, _, _, hsays⟩ := openMarker
    cases hsays with
    | openBlock ident =>
      refine ⟨ident, content.canonical apart.1 ?_, ih apart.2⟩
      obtain ⟨tail, rfl⟩ := hclose
      exact ⟨_, rfl⟩
  | @inline pos i raw ds segs os single rest ih =>
    cases i with
    | slot name =>
      obtain ⟨⟨_, _, _, _, _, _, _, _, hsays⟩, _⟩ := Inline.written_slot_iff.1 single
      cases hsays with
      | slot ident => exact ⟨ident, ih apart⟩
    | text cs =>
      have hfirm :=
        (upToLast_cons.1 (firm_of_spell (Segment.Written.inline single rest).spell apart)).1
      obtain ⟨rfl, nonempty, unmarked⟩ := Inline.written_text_iff.1 single
      refine ⟨nonempty, unmarked.unmarked, fun hne => hfirm (by simpa using hne), ?_, ih apart.2⟩
      intro es tail heq
      match segs, heq with
      | .inline (.text es) :: segs, _ => exact apart.1 es segs rfl

/-! ### White space in markers -/

/-- A source with every marker replaced, given what is between its braces. -/
def mapMarkers (f : List Char → List Char) : List Char → List Char
  | [] => []
  | '{' :: '{' :: cs =>
    match _h : splitClose cs with
    | some (inner, rest) => f inner ++ mapMarkers f rest
    | none => '{' :: '{' :: mapMarkers f cs
  | c :: cs => c :: mapMarkers f cs
termination_by cs => cs.length
decreasing_by
  · have hlength := congrArg List.length (splitClose_eq _h)
    simp only [List.length_append, List.length_cons] at hlength ⊢
    omega
  · simp only [List.length_cons]
    omega
  · simp

/-- A source with one blank between the words in its markers and no other white space there. -/
def tidied (source : List Char) : List Char :=
  mapMarkers (fun inner => braced ([' '].intercalate (words inner))) source

theorem mapMarkers_written {f : List Char → List Char} {m : Marker} {raw : List Char}
    (h : m.Written raw) (hf : ∀ inner, m.Fills inner → f inner = g m) :
    mapMarkers f (raw ++ ds) = g m ++ mapMarkers f ds := by
  obtain ⟨inner, rfl, hinner⟩ := h
  have hsplit : splitClose (inner ++ '}' :: '}' :: ds) = some (inner, ds) :=
    splitClose_of_braceless fun c hc => (hinner.braceless c hc).2
  have hsource : '{' :: '{' :: (inner ++ ['}', '}']) ++ ds =
      '{' :: '{' :: (inner ++ '}' :: '}' :: ds) := by simp
  rw [hsource, mapMarkers, ← hf inner hinner]
  split
  · next inner' rest' hsplit' =>
    obtain ⟨rfl, rfl⟩ := Prod.mk.inj (Option.some.inj (hsplit.symm.trans hsplit'))
    rfl
  · next hnone =>
    rw [hsplit] at hnone
    cases hnone

theorem mapMarkers_opaque {f : List Char → List Char} (h : Opaque cs ds) :
    mapMarkers f (cs ++ ds) = cs ++ mapMarkers f ds := by
  induction cs with
  | nil => rfl
  | cons c cs ih =>
    have hrest : Opaque cs ds := Opaque.of_append [c] h
    rw [List.cons_append, mapMarkers, ih hrest, List.cons_append]
    rintro tail rfl htail
    have hlength := h [] tail (by rw [List.cons_append, htail]; rfl)
    cases hlength

theorem Inline.Written.mapMarkers {f : List Char → List Char}
    (hf : ∀ m inner, Marker.Fills m inner → f inner = g m) {after : List Char} {pos : Nat}
    {is : List Inline} (h : Inline.Written after pos is cs) :
    Template.mapMarkers f (cs ++ after) =
      (is.map Inline.item).flatMap (Item.write g) ++ Template.mapMarkers f after := by
  induction h with
  | nil => rfl
  | text _ unmarked _ ih =>
    rw [List.append_assoc, mapMarkers_opaque unmarked, ih, List.map_cons, List.flatMap_cons,
      List.append_assoc]
    rfl
  | slot marker _ ih =>
    rw [List.append_assoc, mapMarkers_written marker (hf _), ih, List.map_cons, List.flatMap_cons,
      List.append_assoc]
    rfl

/-- Replacing the markers of a source rewrites its segments. -/
theorem Segment.Written.mapMarkers {f : List Char → List Char}
    (hf : ∀ m inner, Marker.Fills m inner → f inner = g m) {pos : Nat} {segs : List Segment}
    {os : List Occurrence} (h : Segment.Written pos segs os cs) :
    Template.mapMarkers f cs = write g (segs.map Segment.piece) := by
  induction h with
  | nil =>
    rw [Template.mapMarkers]
    rfl
  | inline single _ ih =>
    rw [single.mapMarkers hf, ih]
    simp [write, Segment.piece, Piece.write]
  | block openMarker content closeMarker _ ih =>
    rw [List.append_assoc, List.append_assoc, mapMarkers_written openMarker (hf _),
      content.mapMarkers hf, mapMarkers_written closeMarker (hf _), ih]
    simp [write, Segment.piece, Piece.write]

end

/-! ### The print of a source -/

/-- The words of a marker, with a blank between them. -/
def Marker.said : Marker → List Char
  | .slot name => name.toList
  | .openBlock name => "#block ".toList ++ name.toList
  | .closeBlock => "/block".toList
  | .malformed inner => inner.toList

theorem Marker.Says.self {m : Marker} {ws : List Char} (h : m.Says ws) : m.Says m.said := by
  cases h with
  | slot ident => exact .slot ident
  | @openBlock name _ ident => exact @Says.openBlock name [' '] ident .space (by simp)
  | closeBlock => exact .closeBlock

theorem writes_said : Writes fun m => braced m.said :=
  fun _ _ h => h.self.fills.written

theorem writes_print : Writes Marker.print := by
  intro m ws h
  cases h with
  | @slot name ident =>
    exact Marker.Fills.written
      ⟨[' '], name.toList, [' '], by simp, .space, .space, .slot ident⟩
  | openBlock ident => exact writes_said _ _ (.openBlock ident .space (by simp))
  | closeBlock => exact writes_said _ _ .closeBlock

theorem words_ident {name : String} (h : Ident.isIdent name = true) :
    words name.toList = [name.toList] :=
  Text.words_of_not_blank (fun c hc => Ident.isBlank_of_isPart (Ident.isPart_of_isIdent h c hc))
    (ident_ne_nil h)

/-- All white space in a marker is around its words. -/
theorem words_of_fills {m : Marker} {inner : List Char} (h : m.Fills inner) :
    [' '].intercalate (words inner) = m.said := by
  obtain ⟨left, ws, right, rfl, hleft, hright, hsays⟩ := h
  rw [Text.words_append_blank hright.blank, Text.words_blank_append hleft.blank]
  cases hsays with
  | slot ident =>
    rw [words_ident ident]
    exact List.intercalate_singleton
  | closeBlock =>
    have hblock : words "/block".toList = ["/block".toList] :=
      Text.words_of_not_blank (by simp [Text.isBlank]) (by simp)
    rw [hblock]
    exact List.intercalate_singleton
  | @openBlock name gap ident isGap parts =>
    have hblock : words "#block".toList = ["#block".toList] :=
      Text.words_of_not_blank (by simp [Text.isBlank]) (by simp)
    obtain ⟨w, ws, rfl⟩ := List.exists_cons_of_ne_nil parts
    have hblank := isGap.blank
    rw [List.all_cons, Bool.and_eq_true] at hblank
    rw [List.append_assoc, List.cons_append, Text.words_append_cons hblank.1,
      Text.words_blank_append hblank.2, words_ident ident, hblock, List.singleton_append,
      List.intercalate_cons_cons, List.intercalate_singleton]
    rfl

/-- Tidying rewrites the markers of the segments alone. -/
theorem Segment.Written.tidied {pos : Nat} {segs : List Segment} {os : List Occurrence}
    {cs : List Char} (h : Segment.Written pos segs os cs) :
    Template.tidied cs = write (fun m => braced m.said) (segs.map Segment.piece) :=
  h.mapMarkers fun _ _ hinner => congrArg braced (words_of_fills hinner)

/-- The print of a canonical list is a source but for white space in markers exactly when the list
is what is read from the source. -/
theorem tidied_print_iff {source : List Char} {segs : List Segment} {ps : List Piece}
    (h : Segment.ofChars source = .ok segs) (hps : Canonical ps) :
    tidied (print ps) = tidied source ↔ ps = segs.map Segment.piece := by
  obtain ⟨hwritten, hapart⟩ := Segment.written_of_ofChars h
  obtain ⟨⟨os, hprinted⟩, _⟩ := hps.written writes_print 0
  have hprint : tidied (print ps) = write (fun m => braced m.said) ps := by
    rw [print, hprinted.tidied, pieces_place]
  rw [hprint, hwritten.tidied]
  exact ⟨hps.eq_of_write writes_said (hwritten.canonical hapart), fun heq => by rw [heq]⟩

/-- Reading undoes printing: a canonical list is read from its print, every name at the place of its
marker. And a source that can be read is the print of exactly one canonical list, but for white
space in its markers. -/
theorem reading_undoes_printing :
    (∀ ps, Canonical ps → Segment.ofChars (print ps) = .ok (place Marker.print 0 ps) ∧
      (place Marker.print 0 ps).map Segment.piece = ps) ∧
    ∀ source t, Markup.ofChars source = .ok t →
      ∃! ps, Canonical ps ∧ tidied (print ps) = tidied source := by
  refine ⟨fun ps hps => ⟨hps.ofChars_write writes_print, pieces_place _ 0 ps⟩,
    fun source t ht => ?_⟩
  obtain ⟨segs, hsegs, _⟩ := Markup.ofChars_eq_ok_iff.1 ht
  obtain ⟨hwritten, hapart⟩ := Segment.written_of_ofChars hsegs
  have hcanonical := hwritten.canonical hapart
  refine ⟨segs.map Segment.piece, ⟨hcanonical, (tidied_print_iff hsegs hcanonical).2 rfl⟩, ?_⟩
  rintro ps ⟨hps, htidied⟩
  exact (tidied_print_iff hsegs hps).1 htidied

/-! A list with a brace at the end of a text, a closing brace next to a slot and a letter of two
bytes. -/

def braces : List Piece :=
  [.item (.text "\u03c0 \x7b\n".toList),
    .block "body" [.text "\n".toList, .slot "x", .text "\x7d\n".toList],
    .item (.text "\x7b".toList)]

def bracesPlaced : List Segment :=
  [.inline (.text "\u03c0 \x7b\n".toList),
    .block ⟨⟨"body", ⟨5, 20⟩⟩, [], false,
      [.text "\n".toList, .slot ⟨"x", ⟨21, 28⟩⟩, .text "\x7d\n".toList]⟩,
    .inline (.text "\x7b".toList)]

theorem braces_canonical : Canonical braces := by
  refine ⟨by decide, by decide, by decide, by simp, by decide, ⟨by decide, by decide, by decide,
    by simp, by decide, by decide, by decide, by decide, by simp, trivial⟩, by decide, by decide,
    by simp, by simp, trivial⟩

theorem braces_read :
    Canonical braces ∧ Segment.ofChars (print braces) = .ok bracesPlaced :=
  ⟨braces_canonical, (reading_undoes_printing.1 braces braces_canonical).1⟩

end Covenant.Template
