/-! The three roles of generated text: the contract itself, the script that deploys it
and the scaffold of its tests. -/
namespace Covenant

inductive BodyRole where
  | primary
  | deploy
  | test
  deriving DecidableEq, Repr

namespace BodyRole

/-- The roles in the order in which they are produced. -/
def all : List BodyRole := [.primary, .deploy, .test]

def name : BodyRole → String
  | .primary => "primary"
  | .deploy => "deploy"
  | .test => "test"

/-- The file name of an artifact for a contract type and a jurisdiction. -/
def fileName (contractType jurisdiction : String) : BodyRole → String
  | .primary => contractType ++ "_" ++ jurisdiction ++ ".sol"
  | .deploy => "deploy_" ++ contractType ++ "_" ++ jurisdiction ++ ".js"
  | .test => "test_" ++ contractType ++ "_" ++ jurisdiction ++ ".js"

end BodyRole

/-- One value per role. -/
structure Bodies (α : Type) where
  primary : α
  deploy : α
  test : α
  deriving DecidableEq, Repr

namespace Bodies

def get (b : Bodies α) : BodyRole → α
  | .primary => b.primary
  | .deploy => b.deploy
  | .test => b.test

def toList (b : Bodies α) : List (BodyRole × α) := BodyRole.all.map fun r => (r, b.get r)

/-- Maps the bodies in order; the first failure is the outcome. -/
def mapM [Monad m] (f : BodyRole → α → m β) (b : Bodies α) : m (Bodies β) := do
  let primary ← f .primary b.primary
  let deploy ← f .deploy b.deploy
  let test ← f .test b.test
  return ⟨primary, deploy, test⟩

end Bodies
end Covenant
