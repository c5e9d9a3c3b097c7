import Covenant.Proofs.Definition.Rereading

/-! Integer parameters. The parameters of a condition are the entries of its mapping, one after the
other, so that of the entries under one name the last one counts: keys that differ by a tag have one
name. Whatever else a document holds, and whether it is tagged, an accepted definition keeps the value
that is made of the integer. -/
namespace Covenant

open Yaml (Value)
open Rules (Rulebook)

/-! ### Sound values -/

namespace Yaml.Value

theorem Sound.untagged {v : Value} (h : v.Sound) : v.untagged.Sound := by
  induction h with
  | tagged tag sound ih => exact ih
  | null => exact .null
  | bool b => exact .bool b
  | int holds => exact .int holds
  | double d => exact .double d
  | text s => exact .text s
  | sequence sound _ => exact .sequence sound
  | mapping distinct keys values _ _ => exact .mapping distinct keys values

theorem Sound.get? {v : Value} (h : v.Sound) {key : String} {w : Value} (hw : v.get? key = some w) :
    w.Sound := by
  unfold Value.get? at hw
  split at hw
  · next entries heq =>
    obtain ⟨e, he, rfl⟩ := Option.map_eq_some_iff.1 hw
    have hentries := h.untagged
    rw [heq, sound_mapping_iff] at hentries
    exact (hentries.2 e (List.mem_of_find?_eq_some he)).2
  · cases hw

end Yaml.Value

namespace Draft

theorem get?_of_present? {v : Value} {key : String} {w : Value} (h : present? v key = some w) :
    v.get? key = some w := by
  unfold present? at h
  split at h
  · cases h
  · cases h
  · next u _ hu =>
    obtain rfl := Option.some.inj h
    exact hu

end Draft

namespace Definition

open Draft (present?)

/-- The document gives the condition at a place an integer as the parameter of a name: the last entry
under this name, in the mapping of its parameters, has the integer as its value. -/
def GivesInteger (doc : Value) (place : Nat) (name : String) (n : Int) : Prop :=
  ∃ contract items item entries, doc.get? "contract" = some contract ∧
    present? contract "conditions" = some (.sequence items) ∧ items[place]? = some item ∧
    present? item "parameters" = some (.mapping entries) ∧
    ∃ before key after, entries = before ++ (key, .number (.int n)) :: after ∧
      key.asText? = some name ∧ ∀ e ∈ after, e.1.asText? ≠ some name

/-- An integer that is read from a text is one of 64 bits. -/
theorem GivesInteger.holds {doc : Value} {place : Nat} {name : String} {n : Int}
    (h : GivesInteger doc place name n) (hdoc : doc.Sound) : Word.holds 64 n = true := by
  obtain ⟨contract, items, item, entries, hcontract, hitems, hitem, hentries, before, key, after,
    rfl, -, -⟩ := h
  have hsequence := (hdoc.get? hcontract).get? (Draft.get?_of_present? hitems)
  have hmapping := (Value.sound_sequence_iff.1 hsequence item
    (List.mem_of_getElem? hitem)).get? (Draft.get?_of_present? hentries)
  have hentry := (Value.sound_mapping_iff.1 hmapping).2 (key, .number (.int n))
    (List.mem_append_right _ List.mem_cons_self)
  exact Value.sound_int_iff.1 hentry.2

end Definition

namespace Table

/-- Of the entries under one name the last one counts. -/
theorem find?_reverse_append {α : Type} {before after : List (String × α)} {name : String} {a : α}
    (h : ∀ e ∈ after, e.1 ≠ name) :
    find? name (before ++ (name, a) :: after).reverse = some a := by
  have hafter : find? name after.reverse = none := by
    refine Option.eq_none_iff_forall_ne_some.2 fun b hb => ?_
    exact h _ (List.mem_reverse.1 (mem_of_find? hb)) rfl
  rw [List.reverse_append, List.reverse_cons, List.append_assoc, find?_append, hafter]
  simp [find?]

end Table

/-! ### Drafts -/

namespace Draft

variable {v : Value} {path : String} {vocabulary : Vocabulary}

theorem parameter_value_name {e : Value × Value} {q : String × ParamValue}
    (h : (parameter path e).value = some q) : e.1.asText? = some q.1 := by
  unfold parameter at h
  split at h
  · cases h
  · next name hname =>
    split at h
    · obtain rfl := Option.some.inj h
      exact hname
    · cases h

theorem parametersOf_get? {before after : List (Value × Value)} {key w : Value} {name : String}
    {p : ParamValue}
    (hentries : present? v "parameters" = some (.mapping (before ++ (key, w) :: after)))
    (hkey : key.asText? = some name) (hlast : ∀ e ∈ after, e.1.asText? ≠ some name)
    (hvalue : paramValue? w = some p) :
    (parametersOf v path).value.get? name = some p := by
  have hparameter : (parameter (path ++ ".parameters") (key, w)).value = some (name, p) := by
    simp only [parameter, hkey, hvalue]
    rfl
  unfold parametersOf
  rw [hentries]
  show (Table.ofList (List.filterMap id _)).get? name = some p
  rw [Table.get?_ofList, Checked.sequence, List.map_map, List.filterMap_map, List.filterMap_append,
    List.filterMap_cons]
  simp only [Function.comp_apply, id_eq, hparameter]
  refine Table.find?_reverse_append fun q hq heq => ?_
  obtain ⟨e, he, hqe⟩ := List.mem_filterMap.1 hq
  exact hlast e he (heq ▸ parameter_value_name hqe)

theorem condition_parameters {c : Condition} (h : (condition vocabulary v path).value.1 = some c) :
    c.parameters = (parametersOf v path).value := by
  unfold condition at h
  split at h
  · obtain ⟨trigger, -, h⟩ := Option.bind_eq_some_iff.1 h
    obtain ⟨action, -, h⟩ := Option.bind_eq_some_iff.1 h
    obtain rfl := Option.some.inj h
    rfl
  · cases h

/-- Without problems, the condition at a place is what the entry at this place comes to. -/
theorem conditionList_getElem? {items : List Value}
    (hitems : present? v "conditions" = some (.sequence items))
    (h : (conditionList vocabulary v).problems = []) {i : Nat} {item : Value}
    (hitem : items[i]? = some item) :
    ∃ c, (conditionList vocabulary v).value.1[i]? = some c ∧
      (condition vocabulary item (indexed conditionsPath i)).value.1 = some c := by
  unfold conditionList at h ⊢
  rw [hitems] at h ⊢
  obtain ⟨-, hproblems⟩ := List.append_eq_nil_iff.1 h
  obtain ⟨cs, hcs⟩ := conditionEntries_of_problems hproblems
  simp only [hcs, filterMap_placed]
  have hplace := congrArg (·[i]?) hcs
  simp only [Checked.sequence, List.map_map, List.getElem?_map, List.getElem?_zipIdx, hitem,
    Option.map_some, Nat.zero_add] at hplace
  cases hc : cs[i]? with
  | none => simp [hc] at hplace
  | some c =>
    refine ⟨c, rfl, ?_⟩
    rw [hc, Option.map_some, Option.map_some, Option.some_inj] at hplace
    exact congrArg (·.1) hplace

end Draft

/-! ### Accepted definitions -/

namespace Definition

/-- The accepted definition keeps the parameter as the value that is made of the integer. -/
theorem parameter_of_read {rules : Rulebook} {vocabulary : Vocabulary} {text : String} {doc : Value}
    {d : Definition} (hdoc : Value.read text = some doc) (h : read rules vocabulary text = .ok d)
    {place : Nat} {name : String} {n : Int} (hgives : GivesInteger doc place name n) {p : ParamValue}
    (hp : Draft.paramValue? (.number (.int n)) = some p) :
    ∃ c, d.conditions[place]? = some c ∧ c.parameters.get? name = some p := by
  obtain ⟨contract, items, item, entries, hcontract, hitems, hitem, hentries, before, key, after,
    rfl, hkey, hlast⟩ := hgives
  simp only [read, hdoc] at h
  obtain ⟨⟨hproblems, hvalue⟩, -⟩ := ofValue_eq_ok_iff_yields.1 h
  unfold Draft.ofValue at hproblems hvalue
  rw [hcontract] at hproblems hvalue
  cases hmap : contract.isMapping with
  | false => simp [hmap, Checked.fail] at hvalue
  | true =>
    simp only [hmap, ↓reduceIte, Checked.map, Option.some.injEq] at hproblems hvalue
    simp only [Draft.ofContract, List.append_eq_nil_iff] at hproblems
    obtain ⟨c, hc, hcondition⟩ := Draft.conditionList_getElem? hitems hproblems.1.1.2 hitem
    have hconditions : (Draft.conditionList vocabulary contract).value.1 = d.conditions :=
      congrArg Draft.conditions hvalue
    refine ⟨c, hconditions ▸ hc, ?_⟩
    rw [Draft.condition_parameters hcondition]
    exact Draft.parametersOf_get? hentries hkey hlast hp

end Definition
end Covenant
