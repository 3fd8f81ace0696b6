import ImportAtlas.Checkout.Store
import ImportAtlas.Graph.Build

/-!
# Analysing a repository

The graph of a repository that is known by owner and name, and the answer that sums it up.
-/

namespace ImportAtlas

/-- How the folder of a repository is found from its owner and name. -/
structure Locator where
  locate : String → String → Except CheckoutError String

namespace Locator

/-- Each repository lies in its checkout. -/
def store (reposDir : String) : Locator := ⟨Checkout.localPath reposDir⟩

/-- All repositories lie in one folder. -/
def fixed (root : String) : Locator := ⟨fun _ _ => .ok root⟩

end Locator

namespace GraphBuilder

variable (b : GraphBuilder) (host : Host) (locator : Locator) (owner name : String)

def buildGraph (scope : Option String) : Logged (Except CheckoutError FileGraph) := do
  Logged.tell .graph .info ("Building graph for " ++ owner ++ "/" ++ name ++
    match scope with
    | some folder => " (folder: " ++ folder ++ ")"
    | none => "")
  match locator.locate owner name with
  | .error e => return .error e
  | .ok root => return (← b.buildFromRoot host root scope).mapError .build

/-- The graph with its summary. The scope is reported in its written form. -/
def buildResponse (scope : Option String) : Logged (Except CheckoutError GraphResponse) := do
  let folder : Except CheckoutError (Option String) :=
    match scope with
    | none => .ok none
    | some s => (Scope.normalize s).mapError fun _ => .build (.scopeNotFound s)
  match folder with
  | .error e => return .error e
  | .ok folder =>
    return (← b.buildGraph host locator owner name folder).map (.ofGraph owner name folder)

end GraphBuilder

end ImportAtlas
