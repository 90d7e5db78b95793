import HollowFleet.Accounting.Amounts
import HollowFleet.Accounting.Ledger
import HollowFleet.Address.Block
import HollowFleet.Address.Hextets
import HollowFleet.Address.Pool
import HollowFleet.Address.Quad
import HollowFleet.Agent.Dispatch
import HollowFleet.Agent.Heartbeat
import HollowFleet.Agent.Leases
import HollowFleet.Agent.Pods
import HollowFleet.Agent.State
import HollowFleet.Agent.Warning
import HollowFleet.Cluster.Call
import HollowFleet.Cluster.Http
import HollowFleet.Cluster.Outcome
import HollowFleet.Cluster.Reply
import HollowFleet.Cluster.Task
import HollowFleet.CommandLine.Kubeconfig
import HollowFleet.CommandLine.Options
import HollowFleet.CommandLine.Program
import HollowFleet.Fault
import HollowFleet.Json.Decode
import HollowFleet.Json.Reader
import HollowFleet.Json.Sound
import HollowFleet.Json.Value
import HollowFleet.Json.Writer
import HollowFleet.Lifecycle.Status
import HollowFleet.Main
import HollowFleet.Number.Binary64
import HollowFleet.Number.Decimal
import HollowFleet.Object.Lease
import HollowFleet.Object.Metadata
import HollowFleet.Object.Node
import HollowFleet.Object.Pod
import HollowFleet.Proofs.Table
import HollowFleet.Proofs.Watch.Slot
import HollowFleet.Quantity
import HollowFleet.Rehearsal.Feed
import HollowFleet.Rehearsal.Live
import HollowFleet.Rehearsal.Scene
import HollowFleet.Rehearsal.Script
import HollowFleet.Rehearsal.Stage
import HollowFleet.Settings
import HollowFleet.Table
import HollowFleet.Text.Blank
import HollowFleet.Text.Graphic
import HollowFleet.Text.Numeral
import HollowFleet.Text.Quoted
import HollowFleet.Text.Split
import HollowFleet.Timestamp
import HollowFleet.Uri
import HollowFleet.Watch.Filter
import HollowFleet.Watch.Pipe
import HollowFleet.Yaml.Alias
import HollowFleet.Yaml.Cursor
import HollowFleet.Yaml.Decode
import HollowFleet.Yaml.Directive
import HollowFleet.Yaml.Document
import HollowFleet.Yaml.Layout
import HollowFleet.Yaml.Node
import HollowFleet.Yaml.Scalar.Block
import HollowFleet.Yaml.Scalar.Folding
import HollowFleet.Yaml.Scalar.Plain
import HollowFleet.Yaml.Scalar.Quoted
import HollowFleet.Yaml.Tag
import HollowFleet.Yaml.Token
import HollowFleet.Yaml.Value
import HollowFleet.Proofs.Watch.History
import HollowFleet.Proofs.Watch.Relist
import HollowFleet.Proofs.Address.Allocation
import HollowFleet.Proofs.Accounting.Charges
import HollowFleet.Proofs.Cluster.Frame
import HollowFleet.Proofs.Accounting.Bookkeeping
import HollowFleet.Proofs.Accounting.Totals
import HollowFleet.Proofs.Accounting.Requests
import HollowFleet.Proofs.Accounting.Admission
import HollowFleet.Proofs.Accounting.Holders
import HollowFleet.Proofs.Address.Supply
import HollowFleet.Proofs.Address.Written
import HollowFleet.Proofs.Lifecycle.Pools
import HollowFleet.Proofs.Lifecycle.Adoption
import HollowFleet.Proofs.Lifecycle.Pairing
import HollowFleet.Proofs.Lifecycle.Restart
import HollowFleet.Proofs.Cluster.Interleaving
import HollowFleet.Proofs.Lifecycle.Queues
import HollowFleet.Proofs.Lifecycle.AgentTasks
import HollowFleet.Proofs.Lifecycle.Revival
import HollowFleet.Proofs.Lifecycle.Retries
import HollowFleet.Proofs.Dispatch.Handling
import HollowFleet.Proofs.Dispatch.Indifference
import HollowFleet.Proofs.Accounting.Bills
import HollowFleet.Proofs.Dispatch.Mirror
import HollowFleet.Proofs.Lifecycle.Conservation
import HollowFleet.Proofs.Lifecycle.Rereading
import HollowFleet.Proofs.Lease.Registry
import HollowFleet.Proofs.Lease.Integrity
import HollowFleet.Proofs.Lease.Freshness
import HollowFleet.Proofs.Watch.Passage
import HollowFleet.Proofs.Dispatch.Schedule
import HollowFleet.Proofs.Dispatch.Tenure
import HollowFleet.Proofs.Fleet.Bootstrap
import HollowFleet.Proofs.Cluster.Transcript
import HollowFleet.Proofs.Lifecycle.Reports
import HollowFleet.Proofs.Dispatch.SecondPass
import HollowFleet.Proofs.Lifecycle.Stops
import HollowFleet.Proofs.Lifecycle.Chronicle
import HollowFleet.Proofs.Watch.Vanishing
import HollowFleet.Proofs.Watch.Unordered
import HollowFleet.Proofs.Text.Decimal
import HollowFleet.Proofs.Number.Rounding
import HollowFleet.Proofs.Number.Arithmetic
import HollowFleet.Proofs.Number.Written
import HollowFleet.Proofs.Quantity.Grammar
import HollowFleet.Proofs.Quantity.Whole
import HollowFleet.Proofs.Address.Mask
import HollowFleet.Proofs.Address.Returns
