import BlockLink.Benchmark.Basic
import BlockLink.Benchmark.CommandLine
import BlockLink.Block
import BlockLink.Bus.Link
import BlockLink.Bus.Program
import BlockLink.Bus.Script
import BlockLink.Command
import BlockLink.Config
import BlockLink.Config.Reader
import BlockLink.Document
import BlockLink.Document.Number
import BlockLink.Document.Reader
import BlockLink.Driver
import BlockLink.Event
import BlockLink.Fifo
import BlockLink.Link.Basic
import BlockLink.Link.Endpoint
import BlockLink.Link.Window
import BlockLink.Main
import BlockLink.Numerals
import BlockLink.Operation
import BlockLink.Refusal
import BlockLink.Register
import BlockLink.Register.ControlWord
import BlockLink.Register.Field
import BlockLink.Register.StatusWord
import BlockLink.Savestate
import BlockLink.Savestate.Format
import BlockLink.Scenario
import BlockLink.Side
import BlockLink.Station
import BlockLink.Status
import BlockLink.Step
import BlockLink.Text.Decimal
import BlockLink.Text.DefaultIgnorable
import BlockLink.Text.GraphemeExtend
import BlockLink.Text.Hex
import BlockLink.Text.Quoted
import BlockLink.Text.Shortest
import BlockLink.Text.Unprintable
import BlockLink.Time
import BlockLink.Watch
import BlockLink.Proofs.Interference
import BlockLink.Proofs.Lane
import BlockLink.Proofs.Lasting
import BlockLink.Proofs.Ledger
import BlockLink.Proofs.Agreement
import BlockLink.Proofs.Run
import BlockLink.Proofs.Boundary
import BlockLink.Proofs.Driver
import BlockLink.Proofs.Call
import BlockLink.Proofs.Conservation
import BlockLink.Proofs.Receiver
import BlockLink.Proofs.Reconstruction
import BlockLink.Proofs.Format
import BlockLink.Proofs.Savestate
import BlockLink.Proofs.Delivery
import BlockLink.Proofs.History
import BlockLink.Proofs.Refinement
import BlockLink.Proofs.Effect
import BlockLink.Proofs.Independence
import BlockLink.Proofs.Punctuality
import BlockLink.Proofs.Timeless
import BlockLink.Proofs.Hold
import BlockLink.Proofs.Drain
import BlockLink.Proofs.Checked
import BlockLink.Proofs.Fault
import BlockLink.Proofs.Postponed
import BlockLink.Proofs.Restart
import BlockLink.Proofs.Lockstep
import BlockLink.Proofs.Parallel
import BlockLink.Proofs.Indifference
import BlockLink.Proofs.Polling
import BlockLink.Proofs.Confirmation
import BlockLink.Proofs.Elapse
import BlockLink.Proofs.Arrival
import BlockLink.Proofs.Control
import BlockLink.Proofs.Refused
import BlockLink.Proofs.Packing
import BlockLink.Proofs.Staging
import BlockLink.Proofs.Transcript
import BlockLink.Proofs.Benchmark
import BlockLink.Proofs.Crossing
import BlockLink.Proofs.Accounting
import BlockLink.Proofs.Cost
