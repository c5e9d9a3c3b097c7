import Covenant.Definition.Reading
import Covenant.Proofs.Outcome
import Covenant.Template.Override
import Covenant.Text.Lines

/-! Documents read by the characters of their lines. A literal and the list of its characters are
the same by computation, but taking the characters of a literal apart is slow; a check of many
literals is made on lists of characters instead. The kernel reads a document in this way in
reasonable time, and what comes of it is what comes of the document. -/
namespace Covenant.Text

/-- Texts together with their characters. -/
inductive Spelled : List String → List (List Char) → Prop
  | nil : Spelled [] []
  | cons {s : String} {l : List Char} {ss : List String} {ls : List (List Char)}
      (h : s = String.ofList l) (hs : Spelled ss ls) : Spelled (s :: ss) (l :: ls)

theorem Spelled.chars {ss : List String} {ls : List (List Char)} (h : Spelled ss ls) :
    ss.map String.toList = ls := by
  induction h with
  | nil => rfl
  | cons h _ ih => rw [List.map_cons, ih, h, String.toList_ofList]

end Covenant.Text

namespace Covenant.Builtin

open Template (Base BaseDraft Override OverrideDraft)

/-- The characters of lines, each with a newline at its end. Reversing them twice makes
the kernel spell the list out before it is read. -/
def spellOut (ls : List (List Char)) : List Char :=
  (ls.flatMap fun l => l ++ ['\n']).reverse.reverse

def readToml (cs : List Char) : Option Toml.Value :=
  (Toml.readLines ((Toml.dropMark cs).length + 1) [] [] (Toml.dropMark cs)).map fun es =>
    .table (Toml.Node.toFields es)

def readBase (origin : String) (ls : List (List Char)) : Option Base :=
  ((readToml (spellOut ls)).bind BaseDraft.ofToml?).bind fun d => (Base.ofDraft origin d).toOption

def readOverride (origin : String) (ls : List (List Char)) : Option Override :=
  ((readToml (spellOut ls)).bind OverrideDraft.ofToml?).bind fun d =>
    (Override.ofDraft origin d).toOption

theorem spellOut_lines (d : Document) :
    spellOut (d.lines.map String.toList) = d.text.toList := by
  rw [spellOut, List.reverse_reverse, Document.toList_text, List.flatMap_map]

theorem readToml_text (d : Document) :
    readToml (spellOut (d.lines.map String.toList)) = Toml.read d.text := by
  rw [spellOut_lines]
  rfl

theorem ok_of_toOption {ε α : Type} {x : Except ε α} {a : α} (h : x.toOption = some a) :
    x = .ok a := Outcome.toOption_eq_some_iff.1 h

theorem read_of_readBase {d : Document} {b : Base}
    (h : readBase d.name (d.lines.map String.toList) = some b) :
    Base.read d.text d.name = .ok b := by
  rw [readBase, readToml_text, Option.bind_eq_some_iff] at h
  obtain ⟨draft, hdraft, h⟩ := h
  rw [Base.read, hdraft]
  exact ok_of_toOption h

theorem read_of_readOverride {d : Document} {o : Override}
    (h : readOverride d.name (d.lines.map String.toList) = some o) :
    Override.read d.text d.name = .ok o := by
  rw [readOverride, readToml_text, Option.bind_eq_some_iff] at h
  obtain ⟨draft, hdraft, h⟩ := h
  rw [Override.read, hdraft]
  exact ok_of_toOption h

/-- A base that is read, with what is checked of it. -/
theorem base_of_spelled {d : Document} {P : Base → Prop} [DecidablePred P] {ls : List (List Char)}
    (h : Text.Spelled d.lines ls)
    (hls : ((readBase d.name ls).any fun b => decide (P b)) = true) :
    ∃ b, Base.read d.text d.name = .ok b ∧ P b := by
  obtain ⟨b, hb, hp⟩ := (Option.any_eq_true _ _).1 hls
  rw [← h.chars] at hb
  exact ⟨b, read_of_readBase hb, of_decide_eq_true hp⟩

/-- An override that is read, with what is checked of it. -/
theorem override_of_spelled {d : Document} {P : Override → Prop} [DecidablePred P]
    {ls : List (List Char)} (h : Text.Spelled d.lines ls)
    (hls : ((readOverride d.name ls).any fun o => decide (P o)) = true) :
    ∃ o, Override.read d.text d.name = .ok o ∧ P o := by
  obtain ⟨o, ho, hp⟩ := (Option.any_eq_true _ _).1 hls
  rw [← h.chars] at ho
  exact ⟨o, read_of_readOverride ho, of_decide_eq_true hp⟩

/-- A base and an override read together, with what is checked of the two of them. -/
theorem pair_of_spelled {d d' : Document} {p : Base → Override → Bool} {ls ls' : List (List Char)}
    (h : Text.Spelled d.lines ls) (h' : Text.Spelled d'.lines ls')
    (hp : ((readBase d.name ls).any fun b => (readOverride d'.name ls').any (p b)) = true) :
    ∃ b o, Base.read d.text d.name = .ok b ∧ Override.read d'.text d'.name = .ok o ∧
      p b o = true := by
  obtain ⟨b, hb, hp⟩ := (Option.any_eq_true _ _).1 hp
  obtain ⟨o, ho, hp⟩ := (Option.any_eq_true _ _).1 hp
  rw [← h.chars] at hb
  rw [← h'.chars] at ho
  exact ⟨b, o, read_of_readBase hb, read_of_readOverride ho, hp⟩

/-- A value that is read, with what is checked of it. -/
theorem value_of_spelled {doc : Document} {p : Yaml.Value → Bool} {ls : List (List Char)}
    (h : Text.Spelled doc.lines ls)
    (hls : ((((Yaml.tokens (spellOut ls)).bind Yaml.Graph.ofTokens).bind Yaml.Graph.value?).any p) =
      true) : ∃ v, Yaml.Value.read doc.text = some v ∧ p v = true := by
  obtain ⟨v, hv, hp⟩ := (Option.any_eq_true _ _).1 hls
  rw [← h.chars, spellOut_lines] at hv
  exact ⟨v, hv, hp⟩

/-- A definition that is read. -/
theorem definition_of_spelled {rules : Rules.Rulebook} {vocabulary : Vocabulary} {doc : Document}
    {d : Definition} {ls : List (List Char)} (h : Text.Spelled doc.lines ls)
    (hls : ((((Yaml.tokens (spellOut ls)).bind Yaml.Graph.ofTokens).bind Yaml.Graph.value?).map
      (Definition.ofValue rules vocabulary)) = some (.ok d)) :
    Definition.read rules vocabulary doc.text = .ok d := by
  obtain ⟨v, hv, hd⟩ := Option.map_eq_some_iff.1 hls
  rw [← h.chars, spellOut_lines] at hv
  have hread : Yaml.Value.read doc.text = some v := hv
  rw [Definition.read, hread]
  exact hd

/-! ### A plain definition -/

/-- The document of a definition with one party on each side and one condition, with the lines of its
type and its jurisdiction. -/
def plainDocument (typeLine jurisdictionLine : String) : Document :=
  ⟨"plain.yaml", [
    "contract:",
    typeLine,
    jurisdictionLine,
    "  parties:",
    "    - \x7bname: A, role: payer\x7d",
    "    - \x7bname: B, role: payee\x7d",
    "  conditions:",
    "    - \x7btrigger: delivery_confirmed, action: release_funds\x7d",
    "  legal_requirements: [kyc_verification]"]⟩

def plainDefinition (contractType jurisdiction : String) : Definition :=
  ⟨contractType, jurisdiction, [⟨"A", ⟨"payer", .payer⟩, none, true⟩,
    ⟨"B", ⟨"payee", .payee⟩, none, true⟩],
    [⟨"delivery_confirmed", "release_funds", none, ∅⟩], ["kyc_verification"], {}⟩

/-- The rules that a plain definition meets exactly. -/
def plainRules (jurisdiction contractType : String) : Rules.RuleSet :=
  ⟨jurisdiction, contractType, ["kyc_verification"], [], ∅, ∅⟩

end Covenant.Builtin
