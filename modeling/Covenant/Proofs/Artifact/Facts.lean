import Covenant.Artifact.Facts
import Covenant.Proofs.Artifact.Marker
import Covenant.Proofs.Law.Contained

/-! The facts of a contract are contained. Of a definition this takes no more than what is
true of every accepted one: that its pair, its verbs and its requirements are
identifiers. The version of the template comes from outside and is left out. -/
namespace Covenant.Artifact

open Text (Contained lexed_opening contained_literal contained_safe contained_quotedList
  harmless_of_isIdent harmless_pascalCase harmless_toString)
open Law (Context Handler Regime)
open Template (Resolved)

/-! ### Contexts -/

/-- The names that are written into code as they are. -/
structure Identified (ctx : Context) : Prop where
  contractType : Ident.isIdent ctx.definition.contractType = true
  jurisdiction : Ident.isIdent ctx.definition.jurisdiction = true
  conditions : ∀ c ∈ ctx.definition.conditions, Code.Named c
  requirements : ∀ id ∈ ctx.requirements, Ident.isIdent id = true
  constraints : ∀ e ∈ ctx.rules.constraints.entries, Ident.isIdent e.1 = true

theorem mem_foldl_new {as bs : List String} {a : String} :
    a ∈ bs.foldl (fun list b => if list.contains b then list else list ++ [b]) as ↔
      a ∈ as ∨ a ∈ bs := by
  induction bs generalizing as with
  | nil => simp
  | cons b bs ih =>
    rw [List.foldl_cons, ih, List.mem_cons]
    split
    · next hb =>
      rw [List.contains_iff_mem] at hb
      constructor
      · rintro (h | h)
        · exact .inl h
        · exact .inr (.inr h)
      · rintro (h | rfl | h)
        · exact .inl h
        · exact .inl hb
        · exact .inr h
    · rw [List.mem_append, List.mem_singleton, or_assoc]

/-- The requirements of a contract are those of its rules and those it asks for. -/
theorem mem_requirements {ctx : Context} {id : String} :
    id ∈ ctx.requirements ↔
      id ∈ ctx.rules.legalRequirements ∨ id ∈ ctx.definition.legalRequirements :=
  mem_foldl_new

/-! ### Scalars -/

theorem contained_contractName {d : Definition} (h : Ident.isIdent d.contractType = true) :
    Contained (contractName d).toList :=
  ((harmless_pascalCase (harmless_of_isIdent h)).contained.closing rfl rfl).contained rfl

theorem contained_description {d : Definition} {name : String}
    (h : Ident.isIdent d.contractType = true) (hname : Contained name.toList) :
    Contained (description d name).toList := by
  unfold description
  simp only
  split
  · exact ((harmless_pascalCase (harmless_of_isIdent h)).contained.joint rfl rfl hname).contained rfl
  · exact contained_safe _

theorem contained_partyName (p : Option Party) : Contained (partyName p).toList := by
  cases p with
  | none => exact Text.contained_nil
  | some p => exact contained_safe p.name

def Fill.Contained : Fill → Prop
  | .scalar t => Text.Contained t.toList
  | .block ss => ∀ s ∈ ss, Text.Contained s.toList

/-- Every scalar is contained but the version of the template. -/
theorem contained_scalars {ctx : Context} (r : Resolved) (h : Handler) (hctx : Identified ctx) :
    ∀ e ∈ scalars ctx r h, e = ("template_version", r.provenance.text) ∨ Contained e.2.toList := by
  simp only [scalars, List.forall_mem_cons]
  refine ⟨.inr ?_, .inr ?_, .inr ?_, .inr ?_, .inr ?_, .inr ?_, .inl trivial, .inr ?_, .inr ?_, .inr ?_,
    .inr ?_, .inr ?_, .inr ?_, .inr ?_, by simp⟩
  · exact contained_contractName hctx.contractType
  · exact (harmless_of_isIdent hctx.contractType).contained
  · exact (harmless_of_isIdent hctx.jurisdiction).contained
  · exact contained_safe _
  · exact contained_description hctx.contractType (contained_safe _)
  · exact contained_safe _
  · exact contained_partyName _
  · exact contained_safe _
  · exact contained_partyName _
  · exact contained_safe _
  · exact contained_quotedList _
  · exact (harmless_toString _).contained
  · exact contained_quotedList _

/-! ### Blocks -/

theorem contained_registerRequirement {id : String} (h : Ident.isIdent id = true) :
    Contained (registerRequirement id).toList :=
  ((lexed_opening rfl rfl (harmless_of_isIdent h).contained).closing rfl rfl).contained rfl

theorem contained_registerParty (p : Party) : Contained (registerParty p).toList := by
  have hflag : Contained (if p.verificationRequired then "true" else "false").toList := by
    split
    · exact contained_literal rfl rfl
    · exact contained_literal rfl rfl
  exact (((((lexed_opening rfl rfl (contained_safe p.name)).joint rfl rfl
    (contained_safe p.role.name)).joint rfl rfl (contained_safe p.addressOrZero)).joint rfl rfl
    hflag).closing rfl rfl).contained rfl

/-- What is true of contained lines, of the lines of the handler, and of a line that is set in
when it is true of the line, is true of every line of every block. -/
theorem forall_blocks {ctx : Context} {h : Handler} (hctx : Identified ctx) {P : String → Prop}
    (hcontained : ∀ l, Contained l.toList → P l) (hindented : ∀ l, P l → P ("  " ++ l))
    (hlines : ∀ l ∈ h.lines ctx, P l) : ∀ e ∈ blocks ctx h, ∀ l ∈ e.2, P l := by
  simp only [Handler.lines, List.forall_mem_append] at hlines
  obtain ⟨⟨⟨⟨⟨hdeclarations, hinitialization⟩, hcompliance⟩, hdispute⟩, hfunctions⟩, htests⟩ := hlines
  simp only [blocks, List.forall_mem_cons]
  refine ⟨?_, ?_, ?_, ?_, ?_, ?_, hdeclarations, hinitialization, hcompliance, hdispute,
    hfunctions, by simp⟩
  · exact fun l hl => hcontained l (Code.contained_timeLimitConstants ctx.rules l hl)
  · exact fun l hl => hcontained l (Code.contained_constraintConstants hctx.constraints l hl)
  · exact fun l hl => hcontained l (Code.contained_conditionFunctions hctx.conditions l hl)
  · intro l hl
    obtain ⟨id, hid, rfl⟩ := List.mem_map.1 hl
    exact hcontained _ (contained_registerRequirement (hctx.requirements id hid))
  · intro l hl
    obtain ⟨p, _, rfl⟩ := List.mem_map.1 hl
    exact hcontained _ (contained_registerParty p)
  · refine Code.forall_testSuite hcontained hindented fun t ht => ?_
    rcases List.mem_append.1 ht with ht | ht
    · exact fun l hl => hcontained l
        (Code.containedTest_contractTests hctx.jurisdiction hctx.conditions t ht l hl)
    · exact fun l hl => htests l (List.mem_flatMap.2 ⟨t, ht, hl⟩)

/-- Every line of the handler stands in a block, as it is or set in. -/
theorem exists_block_of_line {ctx : Context} {h : Handler} {l : String} (hl : l ∈ h.lines ctx) :
    ∃ e ∈ blocks ctx h, l ∈ e.2 ∨ "  " ++ l ∈ e.2 := by
  simp only [Handler.lines, List.mem_append] at hl
  simp only [blocks, List.exists_mem_cons_iff]
  rcases hl with ((((hl | hl) | hl) | hl) | hl) | hl
  · simp [hl]
  · simp [hl]
  · simp [hl]
  · simp [hl]
  · simp [hl]
  · obtain ⟨t, ht, hmem⟩ := List.mem_flatMap.1 hl
    simp [Code.mem_testSuite (List.mem_append_right (Code.contractTests ctx) ht) hmem]

/-- Every fact but the version of the template is contained. -/
theorem contained_facts {ctx : Context} (t : Resolved) {r : Regime} (hctx : Identified ctx)
    (hr : r.Contained) :
    ∀ e ∈ facts ctx t r.handler, e.1 ≠ "template_version" → e.2.Contained := by
  intro e he hne
  rcases List.mem_append.1 he with he | he
  · obtain ⟨s, hs, rfl⟩ := List.mem_map.1 he
    refine (contained_scalars t r.handler hctx s hs).resolve_left ?_
    rintro rfl
    exact hne rfl
  · obtain ⟨b, hb, rfl⟩ := List.mem_map.1 he
    exact forall_blocks hctx (fun _ hl => hl) (fun _ hl => (lexed_opening rfl rfl hl).contained rfl)
      (hr.lines ctx) b hb

end Covenant.Artifact
