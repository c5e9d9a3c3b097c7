import Covenant.Template.Override

/-! The template library: base templates by contract type, overrides by contract type
and jurisdiction. An override may come before its base; it is checked as soon as both
are there. -/
namespace Covenant.Template

structure Library where
  bases : Table Base
  overrides : Table (Table Override)

/-- Which templates a text was generated from. -/
structure Provenance where
  name : String
  version : String
  overrideVersion : Option String
  deriving DecidableEq, Repr

def Provenance.text (p : Provenance) : String :=
  p.name ++ "@" ++ p.version ++ match p.overrideVersion with
    | some v => "+override@" ++ v
    | none => ""

/-- A base template together with the override for one jurisdiction, if there is one. -/
structure Resolved where
  base : Base
  overlay : Option Override
  jurisdiction : String

namespace Library

def empty : Library := ⟨∅, ∅⟩

/-- The overrides for a contract type, by jurisdiction. -/
def overridesOf (l : Library) (contractType : String) : Table Override :=
  (l.overrides.get? contractType).getD ∅

end Library

/-! ### Registration -/

/-- Adds a base template to the library at hand. Overrides that were there before are checked
against it. What has been changed before a refusal stays so. -/
def Base.enter (b : Base) : ExceptT Error (StateM Library) Unit := do
  let l ← get
  if l.bases.contains b.name then throw (.duplicate b.name)
  (l.overridesOf b.name).values.forM fun o => MonadExcept.ofExcept (o.check b)
  modify fun l => { l with bases := l.bases.insert b.name b }

/-- Adds an override to the library at hand. It is checked against its base if that is there. -/
def Override.enter (o : Override) : ExceptT Error (StateM Library) Unit := do
  let l ← get
  if (l.overridesOf o.contractType).contains o.jurisdiction then
    throw (.duplicateOverride o.contractType o.jurisdiction)
  (l.bases.get? o.contractType).forM fun base => MonadExcept.ofExcept (o.check base)
  modify fun l =>
    { l with
      overrides := l.overrides.insert o.contractType
        ((l.overridesOf o.contractType).insert o.jurisdiction o) }

namespace Library

/-- What a change answers, and the library after it. -/
def run (l : Library) (change : ExceptT Error (StateM Library) Unit) :
    Except Error Unit × Library :=
  change.run.run l

/-- The library that a change leads to, for those who have no use for it after a refusal. -/
def apply (l : Library) (change : ExceptT Error (StateM Library) Unit) : Except Error Library :=
  (l.run change).1.map fun () => (l.run change).2

def register (l : Library) (b : Base) : Except Error Library := l.apply b.enter

def registerOverride (l : Library) (o : Override) : Except Error Library := l.apply o.enter

/-- The base template for a contract type. -/
def get? (l : Library) (contractType : String) : Option Base :=
  l.bases.get? (Ident.normalize contractType)

def getOverride? (l : Library) (contractType jurisdiction : String) : Option Override :=
  (l.overridesOf (Ident.normalize contractType)).get? (Ident.normalize jurisdiction)

/-- The contract types with a base template, sorted. -/
def contractTypes (l : Library) : List String := l.bases.keys

/-- The template for a contract type in a jurisdiction. -/
def resolve (l : Library) (contractType jurisdiction : String) : Except Error Resolved :=
  match l.get? contractType with
  | some base =>
    .ok ⟨base, l.getOverride? contractType jurisdiction, Ident.normalize jurisdiction⟩
  | none => .error (.notFound (Ident.normalize contractType))

end Library

namespace Resolved

def contractType (r : Resolved) : String := r.base.name

def slots (r : Resolved) : Table SlotKind := r.base.slots

/-- Values the templates themselves give to scalar slots, the override's winning. -/
def presets (r : Resolved) : Table String :=
  match r.overlay with
  | some o => r.base.presets.merge o.scalars
  | none => r.base.presets

/-- The text the override adds to a block. -/
def extension? (r : Resolved) (block : String) : Option Markup :=
  r.overlay.bind (·.blocks.get? block)

def body (r : Resolved) (role : BodyRole) : Markup := r.base.bodies.get role

def provenance (r : Resolved) : Provenance :=
  ⟨r.base.name, r.base.version, r.overlay.map (·.version)⟩

end Resolved
end Covenant.Template
