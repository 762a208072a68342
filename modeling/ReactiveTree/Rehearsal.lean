import ReactiveTree.Call
import ReactiveTree.Graph
import ReactiveTree.Registry
import ReactiveTree.Sampler

/-!
A host to try trees on. Its units do what scripts and slots tell them, and the labelled ones log
their calls, so that a run can be compared with what was planned.
-/

namespace ReactiveTree

namespace Rehearsal

structure Log where
  calls : List String := []
  deriving DecidableEq

inductive Condition where
  | check (label : Input .text) (value : Input .bool)
  | script (label script : Input .text) (cursor : Nat)
  | less (a b : Input .int)
  | has (name : Input .text)
  | broken
  | present (thing : Input (.custom "Entity"))

structure Cursors where
  start : Nat := 0
  update : Nat := 0
  stop : Nat := 0

inductive Action where
  | work (label : Input .text) (frames : Input .int) (success : Input .bool) (done : Nat)
  | act (label start update stop : Input .text) (cursors : Cursors)
  | increment (source : Input .int) (result : Output .int)
  | forget (name : Input .text)
  | set (kind : ValueKind) (value : Input kind) (result : Output kind)
  | mix (a : Input .int) (b : Input .text) (joined : Output .text) (copy : Output .int)
  | idle

def phaseName : Phase → String
  | .start => "start"
  | .update => "update"
  | .stop => "stop"

def log {Unit : Type} (label : Input .text) (call : String) : Call Unit Log PUnit := do
  let label : String ← Call.read label
  let log ← Call.target
  Call.setTarget ⟨log.calls ++ [label ++ "." ++ call]⟩

/-- The next character of a script that starts again at its end; an empty one has none. -/
def cue? (script : String) (cursor : Nat) : Option Char :=
  script.toList[cursor % script.length]?

def Condition.poll : Condition → Call Condition Log Bool
  | .check label value => do
    log label "poll"
    Call.read value
  | .script label source cursor => do
    log label "poll"
    let text : String ← Call.read source
    match cue? text cursor with
    | none => pure false
    | some cue =>
      Call.become (.script label source (cursor + 1))
      match cue with
      | 't' => pure true
      | 'e' | 'p' => Call.fault
      | _ => pure false
  | .less a b => do
    let a : Int32 ← Call.read a
    let b : Int32 ← Call.read b
    pure (a < b)
  | .has name => do
    let name : String ← Call.read name
    let scene ← Call.scene
    pure (scene.blackboard.contains name)
  | .broken => Call.fault
  | .present thing => do
    let handle : Nat ← Call.read thing
    pure (handle ≠ 0)

namespace Cursors

def reached (cursors : Cursors) : Phase → Nat
  | .start => cursors.start
  | .update => cursors.update
  | .stop => cursors.stop

def moved (cursors : Cursors) : Phase → Cursors
  | .start => { cursors with start := cursors.start + 1 }
  | .update => { cursors with update := cursors.update + 1 }
  | .stop => { cursors with stop := cursors.stop + 1 }

end Cursors

def verdict : Char → Call Action Log (Option Bool)
  | 's' | 'x' => pure (some true)
  | 'f' => pure (some false)
  | 'y' | 'e' | 'p' => Call.fault
  | _ => pure none

def Action.perform (phase : Phase) : Action → Call Action Log (Option Bool)
  | .work label frames success done =>
    match phase with
    | .start => do
      Call.become (.work label frames success 0)
      log label "start"
      pure none
    | .update => do
      log label "update"
      let done := done + 1
      Call.become (.work label frames success done)
      let wanted : Int32 ← Call.read frames
      if wanted.toInt ≤ done then
        let verdict : Bool ← Call.read success
        pure (some verdict)
      else pure none
    | .stop => do
      log label "stop"
      pure none
  | .act label start update stop cursors => do
    log label (phaseName phase)
    let script := match phase with
      | .start => start
      | .update => update
      | .stop => stop
    let text : String ← Call.read script
    match cue? text (cursors.reached phase) with
    | none => pure none
    | some cue =>
      Call.become (.act label start update stop (cursors.moved phase))
      verdict cue
  | action => if phase = .update then update action else pure none
where
  update : Action → Call Action Log (Option Bool)
    | .increment source result => do
      let n : Int32 ← Call.read source
      Call.write result (n + 1 : Int32)
      pure (some true)
    | .forget name => do
      let name : String ← Call.read name
      let scene ← Call.scene
      let (existed, blackboard) := scene.blackboard.remove name
      Call.setBlackboard blackboard
      pure (some existed)
    | .set _ value result => do
      let content ← Call.read value
      Call.write result content
      pure (some true)
    | .mix a b joined copy => do
      let n : Int32 ← Call.read a
      let text : String ← Call.read b
      Call.write joined (toString n.toInt ++ ":" ++ text : String)
      Call.write copy n
      pure (some true)
    | _ => pure none

end Rehearsal

def Rehearsal : Host where
  Target := Rehearsal.Log
  Condition := Rehearsal.Condition
  Action := Rehearsal.Action
  Sampler := Sampler
  poll unit := unit.poll.answer unit
  act phase unit := (unit.perform phase).progress unit
  sample := Sampler.next

namespace Rehearsal

def entity : ValueKind := .custom "Entity"

def setter (kind : ValueKind) : UnitType Action where
  slots := [.input "value" kind, .output "to" kind]
  create bound := do
    let value ← bound.input "value" kind
    let result ← bound.output "to" kind
    .ok (.set kind value result)

def conditions : List (String × UnitType Condition) :=
  [("Check", {
      slots := [.input "label" .text, .input "value" .bool]
      create := fun bound => do
        let label ← bound.input "label" .text
        let value ← bound.input "value" .bool
        .ok (.check label value) }),
    ("Script", {
      slots := [.input "label" .text, .input "script" .text]
      create := fun bound => do
        let label ← bound.input "label" .text
        let script ← bound.input "script" .text
        .ok (.script label script 0) }),
    ("Less", {
      slots := [.input "a" .int, .input "b" .int]
      create := fun bound => do
        let a ← bound.input "a" .int
        let b ← bound.input "b" .int
        .ok (.less a b) }),
    ("Has", {
      slots := [.input "name" .text]
      create := fun bound => do
        let name ← bound.input "name" .text
        .ok (.has name) }),
    ("Broken", { slots := [], create := fun _ => .ok .broken }),
    ("HasEntity", {
      slots := [.input "thing" entity]
      create := fun bound => do
        let thing ← bound.input "thing" entity
        .ok (.present thing) }),
    ("BadSlot", {
      slots := [.input "a" .int]
      create := fun bound => do
        let _ ← bound.input "ghost" .int
        .ok .broken }),
    ("BadKind", {
      slots := [.input "a" .float]
      create := fun bound => do
        let _ ← bound.input "a" .int
        .ok .broken })]

def actions : List (String × UnitType Action) :=
  [("Work", {
      slots := [.input "label" .text, .input "frames" .int, .input "success" .bool]
      create := fun bound => do
        let label ← bound.input "label" .text
        let frames ← bound.input "frames" .int
        let success ← bound.input "success" .bool
        .ok (.work label frames success 0) }),
    ("Act", {
      slots := [.input "label" .text, .input "start" .text, .input "update" .text,
        .input "stop" .text]
      create := fun bound => do
        let label ← bound.input "label" .text
        let start ← bound.input "start" .text
        let update ← bound.input "update" .text
        let stop ← bound.input "stop" .text
        .ok (.act label start update stop {}) }),
    ("Incr", {
      slots := [.input "from" .int, .output "to" .int]
      create := fun bound => do
        let source ← bound.input "from" .int
        let result ← bound.output "to" .int
        .ok (.increment source result) }),
    ("Forget", {
      slots := [.input "name" .text]
      create := fun bound => do
        let name ← bound.input "name" .text
        .ok (.forget name) }),
    ("SetInt", setter .int), ("SetFloat", setter .float), ("SetBool", setter .bool),
    ("SetText", setter .text), ("SetVec2", setter .vector2), ("SetVec3", setter .vector3),
    ("Mix", {
      slots := [.input "a" .int, .output "joined" .text, .input "b" .text, .output "copy" .int]
      create := fun bound => do
        let a ← bound.input "a" .int
        let b ← bound.input "b" .text
        let joined ← bound.output "joined" .text
        let copy ← bound.output "copy" .int
        .ok (.mix a b joined copy) }),
    ("BadOut", {
      slots := [.output "o" .vector2]
      create := fun bound => do
        let _ ← bound.output "o" .vector3
        .ok .idle })]

def registry : Registry Rehearsal := ⟨actions, conditions⟩

def scripted (label script : String) : Condition :=
  .script (.constant label) (.constant script) 0

def acted (label start update stop : String) : Action :=
  .act (.constant label) (.constant start) (.constant update) (.constant stop) {}

/-- A repeater over a gate whose condition holds on every other poll, on every tick. -/
def restless : Graph where
  nodes := [
    { kind := "Root", id := "root", children := ["repeat"], params := {} },
    { kind := "Repeater", id := "repeat", children := ["gate"], params := {} },
    { kind := "LoopConditionNode", id := "gate", children := ["leaf"], params := {
        unit := some "Script", mode := some "Both", periodMs := some 0
        inputs := [.literal "gate", .literal "tf"] } },
    { kind := "ConditionNode", id := "leaf", params := {
        unit := some "Script", inputs := [.literal "leaf", .literal "t"] } }]

end Rehearsal

end ReactiveTree
