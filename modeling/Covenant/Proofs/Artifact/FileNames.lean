import Mathlib.Data.List.Basic
import Covenant.Artifact.Compose
import Covenant.Files.Tree
import Covenant.Proofs.Builtin.Spelled
import Covenant.Proofs.Definition.Accepted
import Covenant.Proofs.Ident

/-! The names of the files that artifacts are written to. A name says which text of the artifact is
in the file, and the contract type and the jurisdiction with an underscore between them. Identifiers
may have underscores themselves, so that two pairs have the same names if one of them is the other
with the border moved to another underscore, and only then. Whatever the pair is, a name is that of
an entry of the directory that it is written to. -/
namespace Covenant

/-! ### Paths -/

namespace Files

/-- Small letters, digits, underscores and one dot, and so a name that leads from a directory to an
entry of it. -/
structure IsEntryName (name : String) : Prop where
  chars : ∀ c ∈ name.toList, Ident.isPart c = true ∨ c = '.'
  dots : name.toList.count '.' = 1
  inside : ∀ (t : Tree) (place : List String), t.get? place = some .directory →
    t.walk place (Path.names name) = .ok (place ++ [name])

theorem names_of_not_mem {name : String} (h : '/' ∉ name.toList) : Path.names name = [name] := by
  rw [Path.names, Text.pieces_of_not_mem h, List.map_singleton, String.ofList_toList]

theorem walk_entry {name : String} (hslash : '/' ∉ name.toList) {c : Char} (hc : c ≠ '.')
    (hmem : c ∈ name.toList) {t : Tree} {place : List String}
    (hplace : t.get? place = some .directory) :
    t.walk place (Path.names name) = .ok (place ++ [name]) := by
  have hne : ∀ other : String, c ∉ other.toList → name ≠ other := by
    rintro _ hother rfl
    exact hother hmem
  have hidle : Path.isIdle name = false := by
    have hempty := hne "" (by simp)
    have hdot := hne "." (by simpa using hc)
    simp [Path.isIdle, hempty, hdot]
  rw [names_of_not_mem hslash, Tree.walk, hplace]
  simp only [hidle, Bool.false_eq_true, if_false]
  rw [if_neg (hne ".." (by simpa using hc)), Tree.walk]

end Files

namespace BodyRole

open Builtin (plainDefinition plainDocument plainRules)
open Rules (Rulebook RuleSet)

/-! ### Parts of names -/

def opening : BodyRole → String
  | .primary => ""
  | .deploy => "deploy_"
  | .test => "test_"

def ending : BodyRole → String
  | .primary => ".sol"
  | .deploy | .test => ".js"

/-- The contract type and the jurisdiction in a name. -/
def stem (contractType jurisdiction : String) : String := contractType ++ "_" ++ jurisdiction

variable {r r' : BodyRole} {t j t' j' : String}

theorem fileName_eq (r : BodyRole) (t j : String) :
    r.fileName t j = r.opening ++ stem t j ++ r.ending := by
  cases r <;> simp [fileName, opening, ending, stem, String.append_assoc]

/-- The script and the tests differ in the first character, and the contract from both in the
last. -/
theorem role_eq {x y : String} (h : r.opening ++ x ++ r.ending = r'.opening ++ y ++ r'.ending) :
    r = r' := by
  have hends : ∀ (r : BodyRole) (x : String),
      (r.opening ++ x ++ r.ending).toList.getLast? = r.ending.toList.getLast? := by
    intro r x
    rw [String.toList_append, List.getLast?_append_of_ne_nil]
    cases r <;> decide
  have hlast : r.ending.toList.getLast? = r'.ending.toList.getLast? := by
    rw [← hends r x, h, hends]
  cases r with
  | primary =>
    cases r' with
    | primary => rfl
    | deploy => exact absurd hlast (by decide)
    | test => exact absurd hlast (by decide)
  | deploy =>
    cases r' with
    | primary => exact absurd hlast (by decide)
    | deploy => rfl
    | test => simp [← String.toList_inj, opening] at h
  | test =>
    cases r' with
    | primary => exact absurd hlast (by decide)
    | deploy => simp [← String.toList_inj, opening] at h
    | test => rfl

theorem fileName_eq_iff_stem :
    r.fileName t j = r'.fileName t' j' ↔ r = r' ∧ stem t j = stem t' j' := by
  rw [fileName_eq, fileName_eq]
  constructor
  · intro h
    obtain rfl := role_eq h
    rw [String.append_left_inj, String.append_right_inj] at h
    exact ⟨rfl, h⟩
  · rintro ⟨rfl, h⟩
    rw [h]

/-- The type of the second pair goes on with an underscore and a word where that of the first ends,
and the jurisdiction of the first starts with the word and an underscore. -/
def Overlaps (t j t' j' : String) : Prop :=
  ∃ word : String, t' = t ++ "_" ++ word ∧ j = word ++ "_" ++ j'

/-- A border between two texts that is further on in a second one, at another underscore. -/
theorem exists_word_iff {as bs cs ds : List Char} :
    (∃ es, cs = as ++ es ∧ '_' :: bs = es ++ '_' :: ds) ↔
      (as = cs ∧ bs = ds) ∨ ∃ word, cs = as ++ '_' :: word ∧ bs = word ++ '_' :: ds := by
  constructor
  · rintro ⟨es, rfl, h⟩
    cases es with
    | nil =>
      refine .inl ⟨(List.append_nil as).symm, ?_⟩
      rw [List.nil_append] at h
      exact (List.cons_eq_cons.1 h).2
    | cons e word =>
      obtain ⟨rfl, hbs⟩ := List.cons_eq_cons.1 h
      exact .inr ⟨word, rfl, hbs⟩
  · rintro (⟨rfl, rfl⟩ | ⟨word, rfl, rfl⟩)
    · exact ⟨[], (List.append_nil as).symm, rfl⟩
    · exact ⟨'_' :: word, rfl, rfl⟩

theorem overlaps_iff : Overlaps t j t' j' ↔
    ∃ word, t'.toList = t.toList ++ '_' :: word ∧ j.toList = word ++ '_' :: j'.toList := by
  constructor
  · rintro ⟨word, rfl, rfl⟩
    exact ⟨word.toList, by simp, by simp⟩
  · rintro ⟨word, ht, hj⟩
    refine ⟨String.ofList word, ?_, ?_⟩
    · rw [← String.toList_inj, ht]
      simp
    · rw [← String.toList_inj, hj]
      simp

/-- Pairs are written alike when they are the same, or one overlaps the other. -/
theorem stem_eq_iff : stem t j = stem t' j' ↔
    (t = t' ∧ j = j') ∨ Overlaps t j t' j' ∨ Overlaps t' j' t j := by
  have hstem : ∀ t j : String, (stem t j).toList = t.toList ++ '_' :: j.toList := by simp [stem]
  rw [← String.toList_inj, hstem, hstem, List.append_eq_append_iff, exists_word_iff,
    exists_word_iff, ← overlaps_iff, ← overlaps_iff, String.toList_inj, String.toList_inj,
    String.toList_inj, String.toList_inj, eq_comm (a := t'), eq_comm (a := j')]
  tauto

/-! ### Names of accepted definitions -/

theorem isEntryName (ht : Ident.isIdent t = true) (hj : Ident.isIdent j = true) (r : BodyRole) :
    Files.IsEntryName (r.fileName t j) := by
  have hname : (r.fileName t j).toList =
      r.opening.toList ++ (stem t j).toList ++ r.ending.toList := by
    rw [fileName_eq, String.toList_append, String.toList_append]
  have hstem : ∀ c ∈ (stem t j).toList, Ident.isPart c = true := by
    rw [stem, String.toList_append, String.toList_append, List.forall_mem_append,
      List.forall_mem_append]
    exact ⟨⟨Ident.isPart_of_isIdent ht, List.all_eq_true.1 (by decide)⟩,
      Ident.isPart_of_isIdent hj⟩
  have hchars : ∀ c ∈ (r.fileName t j).toList, Ident.isPart c = true ∨ c = '.' := by
    have hopening : r.opening.toList.all Ident.isPart = true := by cases r <;> decide
    have hending : r.ending.toList.all (fun c => Ident.isPart c || c == '.') = true := by
      cases r <;> decide
    rw [hname, List.forall_mem_append, List.forall_mem_append]
    refine ⟨⟨fun c hc => .inl (List.all_eq_true.1 hopening c hc), fun c hc => .inl (hstem c hc)⟩,
      fun c hc => ?_⟩
    simpa using List.all_eq_true.1 hending c hc
  have hdots : (stem t j).toList.count '.' = 0 :=
    List.count_eq_zero.2 fun hmem => Bool.noConfusion (hstem '.' hmem)
  refine ⟨hchars, ?_, fun tree place hplace => ?_⟩
  · rw [hname, List.count_append, List.count_append, hdots]
    cases r <;> decide
  · refine Files.walk_entry (c := '_') (fun hmem => ?_) (by decide) ?_ hplace
    · rcases hchars '/' hmem with hpart | hdot
      · cases hpart
      · cases hdot
    · rw [hname]
      simp [stem]

/-- For every definition that is accepted a file name is that of an entry of its directory, and it
is the name of a file for another definition exactly when it is for the same text of the artifact
and the contract type and the jurisdiction are the same for both, or those of one overlap those of
the other. -/
theorem fileName_eq_iff {rules : Rulebook} {vocabulary : Vocabulary} {text : String}
    {d : Definition} (hd : Definition.read rules vocabulary text = .ok d) (role : BodyRole) :
    Files.IsEntryName (role.fileName d.contractType d.jurisdiction) ∧
    ∀ (role' : BodyRole) (e : Definition),
      role.fileName d.contractType d.jurisdiction =
          role'.fileName e.contractType e.jurisdiction ↔
        role = role' ∧ ((d.contractType = e.contractType ∧ d.jurisdiction = e.jurisdiction) ∨
          Overlaps d.contractType d.jurisdiction e.contractType e.jurisdiction ∨
          Overlaps e.contractType e.jurisdiction d.contractType d.jurisdiction) := by
  have haccepted := Definition.accepted_of_read hd
  refine ⟨isEntryName haccepted.contractType haccepted.jurisdiction role, fun role' e => ?_⟩
  rw [fileName_eq_iff_stem, stem_eq_iff]

/-! Escrows of New York and escrows of the United States in New York. -/

def borderRules : String :=
  "\x7bus_ny: \x7bescrow: \x7blegal_requirements: [kyc_verification]\x7d\x7d, " ++
    "ny: \x7bescrow_us: \x7blegal_requirements: [kyc_verification]\x7d\x7d\x7d"

def borderRulebook : Rulebook :=
  ⟨Table.ofList [
    ("us_ny", Table.ofList [("escrow", plainRules "us_ny" "escrow")]),
    ("ny", Table.ofList [("escrow_us", plainRules "ny" "escrow_us")])]⟩

theorem borderRulebook_load : Rulebook.load [borderRules] = .ok borderRulebook := by
  decide +kernel

theorem inState_read : Definition.read borderRulebook .builtin
    (plainDocument "  type: escrow" "  jurisdiction: us_ny").text =
      .ok (plainDefinition "escrow" "us_ny") := by
  apply Builtin.definition_of_spelled
  · repeat (apply Text.Spelled.cons; exact rfl)
    exact .nil
  · decide +kernel

theorem ofState_read : Definition.read borderRulebook .builtin
    (plainDocument "  type: escrow_us" "  jurisdiction: ny").text =
      .ok (plainDefinition "escrow_us" "ny") := by
  apply Builtin.definition_of_spelled
  · repeat (apply Text.Spelled.cons; exact rfl)
    exact .nil
  · decide +kernel

/-- The pairs overlap in the word between the two underscores. -/
theorem inState_fileName_iff :
    Definition.read borderRulebook .builtin
        (plainDocument "  type: escrow" "  jurisdiction: us_ny").text =
          .ok (plainDefinition "escrow" "us_ny") ∧
      Files.IsEntryName "deploy_escrow_us_ny.js" ∧
      ∀ role : BodyRole,
        BodyRole.deploy.fileName "escrow" "us_ny" = role.fileName "escrow_us" "ny" ↔
          role = .deploy := by
  obtain ⟨hentry, hiff⟩ := fileName_eq_iff inState_read .deploy
  have hname : BodyRole.deploy.fileName "escrow" "us_ny" = "deploy_escrow_us_ny.js" := by
    decide +kernel
  have hoverlaps : Overlaps "escrow" "us_ny" "escrow_us" "ny" :=
    ⟨"us", by decide +kernel, by decide +kernel⟩
  refine ⟨inState_read, hname ▸ hentry, fun role => ?_⟩
  refine (hiff role (plainDefinition "escrow_us" "ny")).trans ?_
  exact ⟨fun h => h.1.symm, fun h => ⟨h.symm, .inr (.inl hoverlaps)⟩⟩

/-- Two accepted definitions with different types and jurisdictions, and the same file names. -/
theorem border_fileName_eq :
    Rulebook.load [borderRules] = .ok borderRulebook ∧
      Definition.read borderRulebook .builtin
          (plainDocument "  type: escrow" "  jurisdiction: us_ny").text =
        .ok (plainDefinition "escrow" "us_ny") ∧
      Definition.read borderRulebook .builtin
          (plainDocument "  type: escrow_us" "  jurisdiction: ny").text =
        .ok (plainDefinition "escrow_us" "ny") ∧
      "escrow" ≠ "escrow_us" ∧ "us_ny" ≠ "ny" ∧
      ∀ role : BodyRole, role.fileName "escrow" "us_ny" = role.fileName "escrow_us" "ny" := by
  refine ⟨borderRulebook_load, inState_read, ofState_read, by decide, by decide, fun role => ?_⟩
  cases role <;> decide +kernel

end BodyRole
end Covenant
