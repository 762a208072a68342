import ReactiveTree.Agenda
import ReactiveTree.Agent
import ReactiveTree.Binding
import ReactiveTree.Blackboard
import ReactiveTree.Build
import ReactiveTree.Build.Body
import ReactiveTree.Build.Depth
import ReactiveTree.Build.Error
import ReactiveTree.Call
import ReactiveTree.CommandLine
import ReactiveTree.Content
import ReactiveTree.Content.Path
import ReactiveTree.Content.Storage
import ReactiveTree.Context
import ReactiveTree.Evaluation
import ReactiveTree.Graph
import ReactiveTree.Graph.JsonForm
import ReactiveTree.Graph.RonForm
import ReactiveTree.Graph.TomlForm
import ReactiveTree.Host
import ReactiveTree.Json
import ReactiveTree.Json.Reader
import ReactiveTree.Main
import ReactiveTree.NodeKind
import ReactiveTree.Number.Decimal
import ReactiveTree.Number.Double
import ReactiveTree.Number.Printed
import ReactiveTree.Number.Rounding
import ReactiveTree.Number.Single
import ReactiveTree.Number.WordStream
import ReactiveTree.Pawn
import ReactiveTree.Pawn.Units
import ReactiveTree.Reaction
import ReactiveTree.Registry
import ReactiveTree.Rehearsal
import ReactiveTree.Resumption
import ReactiveTree.Ron
import ReactiveTree.Ron.Reader
import ReactiveTree.Sampler
import ReactiveTree.Session
import ReactiveTree.Settings
import ReactiveTree.Simulation
import ReactiveTree.Simulation.Config
import ReactiveTree.Simulation.Launch
import ReactiveTree.Status
import ReactiveTree.Stopping
import ReactiveTree.Text.Blank
import ReactiveTree.Text.Digits
import ReactiveTree.Text.Identifier
import ReactiveTree.Toml
import ReactiveTree.Toml.Reader
import ReactiveTree.Toml.Scalar
import ReactiveTree.Tree
import ReactiveTree.Value
import ReactiveTree.Weights
import ReactiveTree.Proofs.Reporting
import ReactiveTree.Proofs.Construction
import ReactiveTree.Proofs.Numbering
import ReactiveTree.Proofs.Ledger
import ReactiveTree.Proofs.Holding
import ReactiveTree.Proofs.Orphans
import ReactiveTree.Proofs.Run
import ReactiveTree.Proofs.Attendance
import ReactiveTree.Proofs.Waking
import ReactiveTree.Proofs.WellFormed
import ReactiveTree.Proofs.Linkage
import ReactiveTree.Proofs.Seeding
import ReactiveTree.Proofs.Soundness
import ReactiveTree.Proofs.Completeness
import ReactiveTree.Proofs.Routing
import ReactiveTree.Proofs.Renewal
import ReactiveTree.Proofs.Outcome
import ReactiveTree.Proofs.Activation
import ReactiveTree.Proofs.Conduct
import ReactiveTree.Proofs.Delivery
import ReactiveTree.Proofs.Protocol
import ReactiveTree.Proofs.Descent
import ReactiveTree.Proofs.Repose
import ReactiveTree.Proofs.Formula
import ReactiveTree.Proofs.ShortCircuit
import ReactiveTree.Proofs.Candor
import ReactiveTree.Proofs.States
import ReactiveTree.Proofs.Composure
import ReactiveTree.Proofs.Manners
import ReactiveTree.Proofs.Exclusion
import ReactiveTree.Proofs.Gatekeeping
import ReactiveTree.Proofs.Correspondence
import ReactiveTree.Proofs.Footprint
import ReactiveTree.Proofs.Tracking
import ReactiveTree.Proofs.Arrival
import ReactiveTree.Proofs.Pending
import ReactiveTree.Proofs.Staleness
import ReactiveTree.Proofs.Polling
import ReactiveTree.Proofs.Containment
import ReactiveTree.Proofs.Negation
import ReactiveTree.Proofs.Chronicle
import ReactiveTree.Proofs.Naming
import ReactiveTree.Proofs.Halting
import ReactiveTree.Proofs.Accompaniment
import ReactiveTree.Proofs.Steadiness
import ReactiveTree.Proofs.Custody
import ReactiveTree.Proofs.Frames
import ReactiveTree.Proofs.Inlining
import ReactiveTree.Proofs.Recursion
import ReactiveTree.Proofs.Reachability
import ReactiveTree.Proofs.Declarations
import ReactiveTree.Proofs.Leadership
import ReactiveTree.Proofs.Rhythm
import ReactiveTree.Proofs.Cadence
import ReactiveTree.Proofs.Repetition
import ReactiveTree.Proofs.Pairing
import ReactiveTree.Proofs.Cataloguing
import ReactiveTree.Proofs.Precision
import ReactiveTree.Proofs.Shares
import ReactiveTree.Proofs.Choice
import ReactiveTree.Proofs.Editing
import ReactiveTree.Proofs.Restoration
import ReactiveTree.Proofs.Spelling
import ReactiveTree.Proofs.Wrapping
import ReactiveTree.Proofs.Bearing
