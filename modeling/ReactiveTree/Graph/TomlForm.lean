import ReactiveTree.Graph
import ReactiveTree.Toml.Reader

/-!
Tunings as TOML. Unknown keys are skipped, and a missing key leaves the default.
-/

namespace ReactiveTree

namespace Toml

def natural? : Toml → Option Nat
  | integer n => if 0 ≤ n ∧ n < Nat.pow 2 64 then some n.toNat else none
  | _ => none

def number? (entries : Entries) (key : String) : Option (Option Nat) :=
  match entries.lookup key with
  | none => some none
  | some value => value.natural?.map some

end Toml

def Tuning.parseToml? (text : String) : Option Tuning := do
  let plain : Tuning := {}
  let entries ← Toml.parse? text
  let loop ← Toml.number? entries "loop_period_ms"
  let poll ← Toml.number? entries "poll_period_ms"
  let seed ← Toml.number? entries "seed"
  some ⟨loop.getD plain.loopPeriodMs, poll.getD plain.pollPeriodMs, seed⟩

end ReactiveTree
