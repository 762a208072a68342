import ReactiveTree.CommandLine

/-!
The program. It runs a tree at its frame rate, and prints every state change in the frame in which
it happens.
-/

namespace ReactiveTree.Program

def contents? (path : String) : IO (Option ByteArray) := do
  match ← (IO.FS.readBinFile path).toBaseIO with
  | .ok bytes => return some bytes
  | .error _ => return none

def list (directory : String) : IO (List String) := do
  let entries ← (← IO.FS.realPath directory).readDir
  let files ← entries.toList.filterM fun entry => do
    match ← entry.path.metadata.toBaseIO with
    | .ok found => return found.type == .file
    | .error _ => return false
  return files.map fun entry => entry.fileName

def list? (directory : String) : IO (Option (List String)) := do
  match ← (list directory).toBaseIO with
  | .ok files => return some files
  | .error _ => return none

def storage (config : Simulation.Config) : IO Storage := do
  let directory := config.libraryDir.getD ""
  let listed ← match config.libraryDir with
    | some directory => list? directory
    | none => pure none
  let graphs := (listed.getD []).filter fun file => (GraphFormat.ofPath? file).isSome
  let paths := config.graph :: config.tuning.toList ++ graphs.map (Path.join directory)
  let files ← paths.filterMapM fun path => do
    return (← contents? path).map fun bytes => (path, bytes)
  return ⟨fun path => files.lookup path, fun path => if path = directory then listed else none⟩

/-- The settings file in the current directory, or in the nearest one around it that has one. -/
def settings : IO (List Settings.Setting) := do
  let depth := (Path.parts (← IO.currentDir).toString).length
  for up in List.range depth do
    let path := String.join (List.replicate up "../") ++ CommandLine.settingsFile
    if let some bytes ← contents? path then
      return Settings.read bytes
  return []

def environment : IO Environment := do
  let settings ← settings
  let names := Simulation.Config.variableNames ++ Settings.mentioned settings
  let given ← names.filterMapM fun name => do
    return (← IO.getEnv name).map fun value => (name, value)
  return Settings.extend given settings

def printLines (lines : List String) : IO Unit := do
  for line in lines do
    IO.println line
  (← IO.getStdout).flush

def printChanges {tree : Tree Pawn.host} (agent : Agent tree) : IO (Agent tree) := do
  printLines (agent.changes.map CommandLine.changeLine)
  return agent.clearJournal

def play {tree : Tree Pawn.host} (period : Nat) :
    Nat → Nat → Agent tree → IO (Simulation.Ended tree)
  | left, count, agent => do
    let agent ← printChanges agent
    let ended := Simulation.frames period false 0 count agent
    match left, ended.reason with
    | left + 1, .frameLimit =>
      IO.sleep (period / 1000000).toUInt32
      let ended := Simulation.frames period false 1 count agent
      play period left ended.frames ended.agent
    | _, _ => return ended

end ReactiveTree.Program

open ReactiveTree in
def main (arguments : List String) : IO UInt32 := do
  let config := CommandLine.config (← Program.environment) arguments
  match CommandLine.prepare (← Program.storage config) config with
  | .error error =>
    IO.eprintln ("Error: " ++ error.message)
    return CommandLine.failureCode.toUInt32
  | .ok (launched, period) =>
    let limit := config.maxFrames.getD Simulation.mostFrames
    let ended ← Program.play period limit 0 launched.agent.start.1
    let agent ← Program.printChanges ended.agent.shutdown
    Program.printLines (CommandLine.closing ⟨ended.reason, ended.frames, agent⟩)
    return (CommandLine.exitCode ended.reason).toUInt32
