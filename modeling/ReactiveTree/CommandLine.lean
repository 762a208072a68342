import ReactiveTree.Settings
import ReactiveTree.Simulation.Launch

/-!
The program as a function of its arguments, its environment and the files it may read: the lines
that it prints and the code that it ends with.
-/

namespace ReactiveTree.CommandLine

open Simulation

def padded (width : Nat) (text : String) : String :=
  text ++ String.ofList (List.replicate (width - text.length) ' ')

/-- A state change in three columns: key, kind and state. -/
def changeLine (change : Change) : String :=
  padded 24 change.key ++ " " ++ padded 22 change.kind.name ++ " " ++ change.status.name

def reasonLine? : StopReason → Option String
  | .finished outcome => some ("tree finished: " ++ outcome.name)
  | .frameLimit => some "frame limit reached; tree still running"
  | .shutdown => some "interrupted"
  | .clockOverrun => none

def pawnLine (frames : Nat) (pawn : Pawn) : String :=
  let place (x : Single) : String := x.fixedText 2
  "frames: " ++ toString frames ++ "  position: (" ++ place pawn.position.x ++ ", " ++
    place pawn.position.y ++ ", " ++ place pawn.position.z ++ ")  heading: " ++
    pawn.heading.fixedText 1 ++ "°"

/-- The lines behind the state changes. A run that left the range of times has none. -/
def closing {tree : Tree Pawn.host} (ended : Ended tree) : List String :=
  match reasonLine? ended.reason with
  | some line => [line, pawnLine ended.frames ended.agent.pawn]
  | none => []

def failureCode : Nat := 1

def exitCode : StopReason → Nat
  | .finished .failure => failureCode
  | .finished _ | .frameLimit | .shutdown => 0
  | .clockOverrun => 101

def config (environment : Environment) (arguments : List String) : Config :=
  let config := Config.ofEnvironment fun name => environment.lookup name
  { config with graph := arguments.head?.getD config.graph }

def settingsFile : String := ".env"

def prepare (storage : Storage) (config : Config) : Except LaunchError (Launched × Nat) := do
  let launched ← launch storage config
  checkPeriod config.framePeriod
  .ok (launched, config.framePeriod)

structure Output where
  lines : List String
  exitCode : Nat
  deriving DecidableEq, Repr

def run (storage : Storage) (environment : Environment) (arguments : List String) : Output :=
  let settings := ((storage.read? settingsFile).map Settings.read).getD []
  let config := config (Settings.extend environment settings) arguments
  match prepare storage config with
  | .error _ => ⟨[], failureCode⟩
  | .ok (launched, period) =>
    let ended := Simulation.run period config.maxFrames false launched.agent
    ⟨ended.agent.changes.map changeLine ++ closing ended, exitCode ended.reason⟩

end ReactiveTree.CommandLine
