import HeapBridge.Alloc.Bump
import HeapBridge.Alloc.Context
import HeapBridge.Alloc.Layout
import HeapBridge.Alloc.Record
import HeapBridge.Alloc.Selector
import HeapBridge.Assoc
import HeapBridge.Barrier.Access
import HeapBridge.Barrier.Config
import HeapBridge.Barrier.Direct
import HeapBridge.Barrier.Entry
import HeapBridge.Barrier.Graph
import HeapBridge.Barrier.Machine
import HeapBridge.Barrier.Machine.Text
import HeapBridge.Barrier.Protocol
import HeapBridge.Barrier.Recorder
import HeapBridge.Barrier.Surroundings
import HeapBridge.Barrier.Tier
import HeapBridge.Datum
import HeapBridge.Datum.Barrier
import HeapBridge.Datum.World
import HeapBridge.Decimal.Shortest
import HeapBridge.Diagnostic
import HeapBridge.Fault
import HeapBridge.Memory
import HeapBridge.Metadata.Table
import HeapBridge.Metadata.UnlogBits
import HeapBridge.Object.ClassLayout
import HeapBridge.Object.Forwarding
import HeapBridge.Pause.HeapLock
import HeapBridge.Pause.Inline
import HeapBridge.Pause.Restarts
import HeapBridge.Pause.Schedule
import HeapBridge.Pause.Step
import HeapBridge.Pause.System
import HeapBridge.Scan.Buffer
import HeapBridge.Scan.Closure
import HeapBridge.Scan.Roots
import HeapBridge.Settings
import HeapBridge.Settings.Building
import HeapBridge.Slot.Encoding
import HeapBridge.Slot.Tagged
import HeapBridge.StandIn.Answers
import HeapBridge.StandIn.Collector
import HeapBridge.StandIn.Host
import HeapBridge.Text.Hex
import HeapBridge.Text.Invisible
import HeapBridge.Text.Quoted
import HeapBridge.Text.Record
import HeapBridge.Text.Tokens
import HeapBridge.Text.Utf8
import HeapBridge.Thread.Basic
import HeapBridge.Units
import HeapBridge.Word
import HeapBridge.Word.Checked
import HeapBridge.World.Allocation
import HeapBridge.World.Barriers
import HeapBridge.World.Changes
import HeapBridge.World.Pausing
import HeapBridge.World.Scanning
import HeapBridge.World.Session
import HeapBridge.World.Startup
import HeapBridge.World.State
import HeapBridge.World.Threads
import HeapBridge.Proofs.Barrier.Machine.Execution
import HeapBridge.Proofs.Barrier.Machine.Layout
import HeapBridge.Proofs.Barrier.Protocol
import HeapBridge.Proofs.Barrier.Facts
import HeapBridge.Proofs.Barrier.Machine.Placement
import HeapBridge.Proofs.Barrier.Machine.Refinement
import HeapBridge.Proofs.Barrier.Graph
import HeapBridge.Proofs.Barrier.Direct
import HeapBridge.Proofs.Barrier.Recorder
import HeapBridge.Proofs.Barrier.Tier
import HeapBridge.Proofs.Barrier.Cycle
import HeapBridge.Proofs.Scan.Partition
import HeapBridge.Proofs.Scan.Filling
import HeapBridge.Proofs.Scan.Visits
import HeapBridge.Proofs.Scan.Roots
import HeapBridge.Proofs.Scan.Edges
import HeapBridge.Proofs.Slot.Mark
import HeapBridge.Proofs.Pause.Position
import HeapBridge.Proofs.Pause.Agreement
import HeapBridge.Proofs.Pause.Turns
import HeapBridge.Proofs.Pause.Promise
import HeapBridge.Proofs.Pause.Progress
import HeapBridge.Proofs.Pause.Attempts
import HeapBridge.Proofs.Pause.Halves
import HeapBridge.Proofs.Pause.Settling
import HeapBridge.Proofs.World.Sweeping
import HeapBridge.Proofs.World.Walk
import HeapBridge.Proofs.World.Calls
import HeapBridge.Proofs.World.Cycles
import HeapBridge.Proofs.Metadata.RegionSet
import HeapBridge.Proofs.Slot.Reach
import HeapBridge.Proofs.Alloc.Contact
import HeapBridge.Proofs.Alloc.Serving
import HeapBridge.Proofs.Alloc.Blocks
import HeapBridge.Proofs.Alloc.Lease
import HeapBridge.Proofs.World.Contexts
import HeapBridge.Proofs.Pause.Sleepers
import HeapBridge.Proofs.Pause.Errands
import HeapBridge.Proofs.Pause.HandOver
import HeapBridge.Proofs.Pause.Meetings
import HeapBridge.Proofs.Pause.Timely
import HeapBridge.Proofs.Text.Tokens
import HeapBridge.Proofs.Settings.Grammar
import HeapBridge.Proofs.Settings.Precedence
import HeapBridge.Proofs.Memory.Copying
import HeapBridge.Proofs.World.Mirror
import HeapBridge.Proofs.Slot.Inverse
import HeapBridge.Proofs.Memory.Numbers
import HeapBridge.Proofs.Slot.Footprint
import HeapBridge.Proofs.Slot.Variables
import HeapBridge.Proofs.World.Slots
import HeapBridge.Proofs.Alloc.Routing
import HeapBridge.Proofs.Pause.Ledger
import HeapBridge.Proofs.Pause.Rounds
import HeapBridge.Proofs.Pause.Retries
import HeapBridge.Proofs.Alloc.Refusal
import HeapBridge.Proofs.Word.Alignment
import HeapBridge.Proofs.Alloc.Rounding
import HeapBridge.Proofs.Alloc.Released
import HeapBridge.Proofs.Memory.Words
import HeapBridge.Proofs.Object.Settling
import HeapBridge.Proofs.World.WeakSlots
import HeapBridge.Proofs.World.Tour
import HeapBridge.Proofs.Barrier.Executions
import HeapBridge.Proofs.Pause.Restarts
import HeapBridge.Proofs.Pause.HeapLock
import HeapBridge.Proofs.World.Crossings
import HeapBridge.Proofs.Pause.Sights
import HeapBridge.Proofs.Pause.Standing
import HeapBridge.Proofs.Pause.Services
import HeapBridge.Proofs.Pause.Accounts
import HeapBridge.Proofs.Pause.Safepoints
import HeapBridge.Proofs.Word.Multiples
import HeapBridge.Proofs.Barrier.BitTests
import HeapBridge.Proofs.Barrier.Traversal
import HeapBridge.Proofs.Scan.Loans
