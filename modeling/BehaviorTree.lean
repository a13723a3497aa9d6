import BehaviorTree.Agent
import BehaviorTree.Blackboard
import BehaviorTree.CommandLine.Arguments
import BehaviorTree.CommandLine.Perform
import BehaviorTree.Configuration
import BehaviorTree.Control.Basic
import BehaviorTree.Control.Congruence
import BehaviorTree.Control.Decorator
import BehaviorTree.Control.Machine
import BehaviorTree.Control.Ordered
import BehaviorTree.Control.Parallel
import BehaviorTree.Control.Repeat
import BehaviorTree.Control.Retry
import BehaviorTree.Control.Timeout
import BehaviorTree.Decimal.Binary
import BehaviorTree.Decimal.Notation
import BehaviorTree.Decimal.Reader
import BehaviorTree.Decimal.Shortest
import BehaviorTree.Dict
import BehaviorTree.Event
import BehaviorTree.File
import BehaviorTree.Forest
import BehaviorTree.Json.Basic
import BehaviorTree.Json.Forms
import BehaviorTree.Json.Reader
import BehaviorTree.Kind
import BehaviorTree.Leaf.Behavior
import BehaviorTree.Leaf.Builtin
import BehaviorTree.Log.History
import BehaviorTree.Log.Received
import BehaviorTree.Log.Record
import BehaviorTree.Main
import BehaviorTree.Node.Basic
import BehaviorTree.Node.Broadcast
import BehaviorTree.Node.Edit
import BehaviorTree.Node.Execute
import BehaviorTree.Proofs.Control.Correspondence
import BehaviorTree.Proofs.Control.Deeds
import BehaviorTree.Proofs.Control.Duality
import BehaviorTree.Proofs.Control.Flagged
import BehaviorTree.Proofs.Control.Noted
import BehaviorTree.Proofs.Control.Order
import BehaviorTree.Proofs.Control.Ordered
import BehaviorTree.Proofs.Control.Parallel
import BehaviorTree.Proofs.Control.Reach
import BehaviorTree.Proofs.Control.Repeat
import BehaviorTree.Proofs.Control.Retry
import BehaviorTree.Proofs.Control.Round
import BehaviorTree.Proofs.Control.Settings
import BehaviorTree.Proofs.Control.Simulation
import BehaviorTree.Proofs.Control.Timeout
import BehaviorTree.Proofs.Control.Walk
import BehaviorTree.Proofs.Decimal.Integer
import BehaviorTree.Proofs.Decimal.Nearest
import BehaviorTree.Proofs.Decimal.Numeral
import BehaviorTree.Proofs.Decimal.Overflow
import BehaviorTree.Proofs.Decimal.Rendering
import BehaviorTree.Proofs.Decimal.Shortest
import BehaviorTree.Proofs.Decimal.Sign
import BehaviorTree.Proofs.Decimal.Value
import BehaviorTree.Proofs.Forest.Agents
import BehaviorTree.Proofs.Forest.Linked
import BehaviorTree.Proofs.Forest.Operation
import BehaviorTree.Proofs.Leaf.Comparison
import BehaviorTree.Proofs.Leaf.Effect
import BehaviorTree.Proofs.Leaf.Settings
import BehaviorTree.Proofs.Log.Delivery
import BehaviorTree.Proofs.Node.Agents
import BehaviorTree.Proofs.Node.Calls
import BehaviorTree.Proofs.Node.Cancellation
import BehaviorTree.Proofs.Node.Declared
import BehaviorTree.Proofs.Node.Deliveries
import BehaviorTree.Proofs.Node.Design
import BehaviorTree.Proofs.Node.Duality
import BehaviorTree.Proofs.Node.Flattening
import BehaviorTree.Proofs.Node.Formula
import BehaviorTree.Proofs.Node.Frame
import BehaviorTree.Proofs.Node.Independence
import BehaviorTree.Proofs.Node.Interpretation
import BehaviorTree.Proofs.Node.Kept
import BehaviorTree.Proofs.Node.Links
import BehaviorTree.Proofs.Node.Removal
import BehaviorTree.Proofs.Node.Restart
import BehaviorTree.Proofs.Node.Resumption
import BehaviorTree.Proofs.Node.Simulation
import BehaviorTree.Proofs.Node.Snapshot
import BehaviorTree.Proofs.Node.View
import BehaviorTree.Proofs.Node.Visits
import BehaviorTree.Proofs.Node.Watched
import BehaviorTree.Proofs.Registration
import BehaviorTree.Proofs.Registry
import BehaviorTree.Proofs.Replay
import BehaviorTree.Proofs.Snapshot.Outline
import BehaviorTree.Proofs.Snapshot.Preorder
import BehaviorTree.Proofs.Snapshot.Same
import BehaviorTree.Proofs.Source.Acceptance
import BehaviorTree.Proofs.Source.Account
import BehaviorTree.Proofs.Source.Behavior
import BehaviorTree.Proofs.Source.Braces
import BehaviorTree.Proofs.Source.Built
import BehaviorTree.Proofs.Source.Denotation
import BehaviorTree.Proofs.Source.Extent
import BehaviorTree.Proofs.Source.Grammar
import BehaviorTree.Proofs.Source.Grown
import BehaviorTree.Proofs.Source.Layout
import BehaviorTree.Proofs.Source.Lines
import BehaviorTree.Proofs.Source.Lookahead
import BehaviorTree.Proofs.Source.Outline
import BehaviorTree.Proofs.Source.Provision
import BehaviorTree.Proofs.Source.Recovery
import BehaviorTree.Proofs.Source.Report
import BehaviorTree.Proofs.Source.RoundTrip
import BehaviorTree.Proofs.Source.Scan
import BehaviorTree.Proofs.Source.Steps
import BehaviorTree.Proofs.Text.Blank
import BehaviorTree.Proofs.Text.Delimited
import BehaviorTree.Proofs.Time
import BehaviorTree.PropertyValue
import BehaviorTree.Registry
import BehaviorTree.Runner
import BehaviorTree.Snapshot.Basic
import BehaviorTree.Snapshot.Json
import BehaviorTree.Snapshot.Outline
import BehaviorTree.Source.Declaration
import BehaviorTree.Source.Diagnostic
import BehaviorTree.Source.Token
import BehaviorTree.Source.Tree
import BehaviorTree.Status
import BehaviorTree.Text.Blank
import BehaviorTree.Text.CharRange
import BehaviorTree.Text.Hexadecimal
import BehaviorTree.Text.Letter
import BehaviorTree.Text.Quoted
import BehaviorTree.Text.Rest
import BehaviorTree.Text.Visible
import BehaviorTree.Time
import BehaviorTree.Value
import BehaviorTree.World
import BehaviorTree.Yaml.Basic
import BehaviorTree.Yaml.Block
import BehaviorTree.Yaml.Placed
import BehaviorTree.Yaml.Property
import BehaviorTree.Yaml.Reader
import BehaviorTree.Yaml.Scalar
import BehaviorTree.Yaml.Token
import BehaviorTree.Yaml.Words
