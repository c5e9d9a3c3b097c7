import Covenant.Definition.Basic
import Covenant.Ident
import Covenant.Text.Safe

/-! The functions that a contract has for its conditions, one each, under names of
their own. -/
namespace Covenant.Code

/-! ### Names -/

/-- The name of a condition's function as long as no other condition asks for it. -/
def baseName (trigger : String) : String := "on" ++ Ident.pascalCase trigger

/-- The name with as many underscores as make it differ from every taken one. A taken
name that has been passed is shorter than all that follow and need not be seen again. -/
def freeName (taken : List String) (name : String) : String :=
  if name ∈ taken then freeName (taken.erase name) (name ++ "_") else name
termination_by taken.length
decreasing_by
  have := List.length_pos_of_mem ‹name ∈ taken›
  rw [List.length_erase_of_mem ‹name ∈ taken›]
  omega

/-- Names for base names from index `i` on. A base name that several conditions share
gets the index; a name with an index avoids all other base names. -/
def nameFrom (bases used : List String) (i : Nat) : List String → List String
  | [] => []
  | base :: rest =>
    let wanted := if bases.count base > 1 then base ++ toString i else base
    let name := freeName (bases.filter (· != base) ++ used) wanted
    name :: nameFrom bases (name :: used) (i + 1) rest

/-- The names of the functions of conditions with these triggers. -/
def functionNames (triggers : List String) : List String :=
  let bases := triggers.map baseName
  nameFrom bases [] 0 bases

/-! ### Functions -/

def deadlineCheck (days : Nat) : String :=
  "    require(block.timestamp <= createdAt + " ++ toString days ++
    " days, \"Condition deadline passed\");"

def parameterComment (name : String) (value : ParamValue) : String :=
  "    // " ++ Text.safe name ++ " = " ++ Text.safe value.display

/-- The function of the condition at an index, and an empty line. -/
def conditionFunction (i : Nat) (name : String) (c : Condition) : List String :=
  ["/// " ++ c.trigger ++ " -> " ++ c.action,
    "function " ++ name ++ "() external onlyParty \x7b",
    "    require(!conditionExecuted[" ++ toString i ++ "], \"Condition already executed\");"] ++
  (c.timeLimit.map deadlineCheck).toList ++
  c.parameters.entries.map (fun e => parameterComment e.1 e.2) ++
  ["    conditionExecuted[" ++ toString i ++ "] = true;",
    "    _performAction(\"" ++ c.action ++ "\");",
    "    emit ConditionExecuted(" ++ toString i ++ ", \"" ++ c.trigger ++ "\", \"" ++ c.action ++ "\");",
    "\x7d", ""]

def conditionFunctionsFrom (i : Nat) : List (String × Condition) → List String
  | [] => []
  | (name, c) :: rest => conditionFunction i name c ++ conditionFunctionsFrom (i + 1) rest

/-- Conditions with the names of their functions. -/
def named (cs : List Condition) : List (String × Condition) :=
  (functionNames (cs.map (·.trigger))).zip cs

def conditionFunctions (cs : List Condition) : List String := conditionFunctionsFrom 0 (named cs)

end Covenant.Code
