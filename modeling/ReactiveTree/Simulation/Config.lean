import ReactiveTree.Number.Double

/-!
What a run is asked to do, and how the environment asks for it. Settings that cannot be read leave
the default in place.
-/

namespace ReactiveTree.Simulation

structure Config where
  graph : String := "data/trees/patrol.ron"
  libraryDir : Option String := none
  tuning : Option String := none
  frameRate : Nat := 30
  /-- A run without a limit goes on until the tree has an outcome. -/
  maxFrames : Option Nat := some 600
  seed : Option Nat := none
  sessionId : Option String := none
  deriving DecidableEq, Repr

namespace Config

def natural? (bound : Nat) (text : String) : Option Nat :=
  Text.naturalBelow? bound text.toList

def variableNames : List String :=
  ["BT_GRAPH", "BT_LIBRARY_DIR", "BT_TREE_CONFIG", "BT_FRAME_RATE", "BT_MAX_FRAMES", "BT_SEED",
    "BT_SESSION_ID"]

/-- Settings by the names of variables. A frame rate is at least one, and a limit of no frames
stands for no limit. -/
def ofEnvironment (setting? : String → Option String) : Config :=
  let plain : Config := {}
  let frameRate := (setting? "BT_FRAME_RATE").bind (natural? (Nat.pow 2 32))
  let maxFrames := (setting? "BT_MAX_FRAMES").bind (natural? (Nat.pow 2 64))
  { graph := (setting? "BT_GRAPH").getD plain.graph
    libraryDir := setting? "BT_LIBRARY_DIR"
    tuning := setting? "BT_TREE_CONFIG"
    frameRate := (frameRate.map (max 1)).getD plain.frameRate
    maxFrames := match maxFrames with
      | some 0 => none
      | some limit => some limit
      | none => plain.maxFrames
    seed := (setting? "BT_SEED").bind (natural? (Nat.pow 2 64))
    sessionId := setting? "BT_SESSION_ID" }

/-- Nanoseconds in one frame: the double nearest to one part of a second, rounded once more. -/
def framePeriod (config : Config) : Nat :=
  Rounding.nearest (Double.round Double.one (max 1 config.frameRate) * 1000000000) Double.one

end Config

end ReactiveTree.Simulation
