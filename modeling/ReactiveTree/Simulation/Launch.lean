import ReactiveTree.Build
import ReactiveTree.Content
import ReactiveTree.Simulation
import ReactiveTree.Simulation.Config

/-!
From a configuration to a run: the content that it names is loaded, the tree is built over the units
for pawns, and a new pawn is put under it.
-/

namespace ReactiveTree.Simulation

inductive LaunchError where
  | content (error : LoadError)
  | build (error : BuildError)
  | frameRate (rate : Nat)
  deriving DecidableEq

def LaunchError.message : LaunchError → String
  | .content error => "content error: " ++ error.message
  | .build error => "tree build failed: " ++ error.message
  | .frameRate rate => "invalid frame rate " ++ toString rate

structure Launched where
  built : Built Pawn.host
  agent : Agent built.tree

def loading {α : Type} (loaded : Except LoadError α) : Except LaunchError α :=
  loaded.mapError .content

/-- Loads the graph, the library and the tuning in this order, and builds the tree. A seed of the
configuration goes before that of the tuning; the pawn and the tree share it. -/
def launch (storage : Storage) (config : Config) : Except LaunchError Launched := do
  let graph ← loading (storage.graph config.graph)
  let library : Library ← loading (config.libraryDir.elim (.ok {}) storage.library)
  let tuning : Tuning ← loading (config.tuning.elim (.ok {}) storage.tuning)
  let tuning := { tuning with seed := config.seed.or tuning.seed }
  let built ← (build ⟨Pawn.registry, library, tuning⟩ graph).mapError .build
  let seed := tuning.seed.getD 0
  .ok ⟨built, .new built.tree (.seeded "pawn" seed) built.blackboard (.ofSeed seed)⟩

def checkPeriod (period : Nat) : Except LaunchError Unit :=
  if period = 0 then .error (.frameRate 0) else .ok ()

end ReactiveTree.Simulation
