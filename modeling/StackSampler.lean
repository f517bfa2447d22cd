import StackSampler.Stream.Encoder
import StackSampler.Stream.Reader
import StackSampler.Stream.Writer
import StackSampler.LineTable
import StackSampler.Text.Quoted
import StackSampler.Text.Numeral
import StackSampler.Dump
import StackSampler.Native.Splice
import StackSampler.Json.Printing
import StackSampler.Json.Parsing
import StackSampler.Json.Shape
import StackSampler.Configuration.Environment
import StackSampler.Configuration.Document
import StackSampler.Subject.Interpreter
import StackSampler.Subject.LayoutDocument
import StackSampler.Subject.Memory
import StackSampler.Subject.Structures
import StackSampler.Subject.Tables
import StackSampler.Task.Discovery
import StackSampler.Task.Rendering
import StackSampler.Greenlet.Rendering
import StackSampler.Allocation.Tracker
import StackSampler.Sampling.Pass
import StackSampler.Session.Channel
import StackSampler.Session.Basic
import StackSampler.Session.Folder
import StackSampler.Session.Signals
import StackSampler.Walk
import StackSampler.Session.Slot
import StackSampler.Attach.Controller
import StackSampler.Simulation.Scene
import StackSampler.Native.Slot
import StackSampler.Proofs.Native.Ownership
import StackSampler.Proofs.Stream.Cuts
import StackSampler.Proofs.Stream.Grammar
import StackSampler.Proofs.Stream.RoundTrip
import StackSampler.Proofs.Stream.Writing
import StackSampler.Proofs.Walk.Sighting
import StackSampler.Proofs.Task.Reachable
import StackSampler.Proofs.Task.Settling
import StackSampler.Proofs.Task.Chains
import StackSampler.Proofs.Task.Stacks
import StackSampler.Proofs.Walk.Snapshot
import StackSampler.Proofs.Native.Holding
import StackSampler.Proofs.Native.Attendance
import StackSampler.Proofs.Subject.Fidelity
import StackSampler.Proofs.Attach.Arrival
import StackSampler.Proofs.Attach.Truncation
import StackSampler.Proofs.Attach.Balance
import StackSampler.Proofs.Session.Streams
import StackSampler.Proofs.Session.Overlap
import StackSampler.Proofs.Allocation.Pairing
import StackSampler.Proofs.Task.Lasting
import StackSampler.Proofs.Task.Pruning
import StackSampler.Proofs.Task.Coverage
import StackSampler.Proofs.Session.Calls
import StackSampler.Proofs.Stream.Devices
import StackSampler.Proofs.Sampling.Groups
import StackSampler.Proofs.Sampling.LiveStack
import StackSampler.Proofs.Sampling.Exclusion
import StackSampler.Proofs.Session.Stealth
import StackSampler.Proofs.Session.Restoration
import StackSampler.Proofs.LineTable.Exactness
import StackSampler.Proofs.LineTable.Locations
import StackSampler.Proofs.Configuration.Documents
import StackSampler.Proofs.Native.Splicing
import StackSampler.Proofs.LineTable.Ranges
import StackSampler.Proofs.LineTable.Prefixes
import StackSampler.Proofs.Subject.Overflow
import StackSampler.Proofs.Walk.Standin
import StackSampler.Proofs.Task.Running
import StackSampler.Proofs.Task.Failures
import StackSampler.Proofs.Task.Orders
import StackSampler.Proofs.Walk.Recall
import StackSampler.Proofs.Walk.Marking
import StackSampler.Proofs.Walk.Outcomes
import StackSampler.Proofs.Greenlet.Stacks
import StackSampler.Proofs.Greenlet.Forgetting
import StackSampler.Proofs.Subject.Listing
import StackSampler.Proofs.Sampling.Naming
import StackSampler.Proofs.Stream.Resuming
import StackSampler.Proofs.Stream.FirstUses
import StackSampler.Proofs.Stream.Limits
import StackSampler.Proofs.Session.Delivering
import StackSampler.Proofs.Task.Linking
import StackSampler.Proofs.Task.Repeating
import StackSampler.Proofs.Task.Discovering
import StackSampler.Proofs.Configuration.Launching
import StackSampler.Proofs.LineTable.Cursors
