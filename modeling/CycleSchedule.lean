import CycleSchedule.Main
import CycleSchedule.Journal.Stream
import CycleSchedule.Json.Printer
import CycleSchedule.Json.Reader
import CycleSchedule.Text.Lines
import CycleSchedule.Proofs.Linear.Canonical
import CycleSchedule.Proofs.Linear.Pivot
import CycleSchedule.Proofs.Linear.Progress
import CycleSchedule.Proofs.Linear.Termination
import CycleSchedule.Proofs.Linear.Eviction
import CycleSchedule.Proofs.Linear.Program
import CycleSchedule.Proofs.Linear.Build
import CycleSchedule.Proofs.Linear.Verdict
import CycleSchedule.Proofs.Linear.Start
import CycleSchedule.Proofs.Linear.Vertex
import CycleSchedule.Proofs.Linear.Optimum
import CycleSchedule.Proofs.Narrated
import CycleSchedule.Proofs.Problem.WellFormed
import CycleSchedule.Proofs.Graph.Order
import CycleSchedule.Proofs.Graph.Path
import CycleSchedule.Proofs.Scheduler.Propagation
import CycleSchedule.Proofs.Scheduler.Formulation
import CycleSchedule.Proofs.Scheduler.Solution
import CycleSchedule.Proofs.Scheduler.Precedence
import CycleSchedule.Proofs.Scheduler.Pins
import CycleSchedule.Proofs.Scheduler.Shared
import CycleSchedule.Proofs.Scheduler.Pinning
import CycleSchedule.Proofs.Problem.Validity
import CycleSchedule.Proofs.Scheduler.Limits
import CycleSchedule.Proofs.Graph.Recurrence
import CycleSchedule.Proofs.Graph.Demand
import CycleSchedule.Proofs.Scheduler.Interval
import CycleSchedule.Proofs.Scheduler.Cyclic
import CycleSchedule.Proofs.Scheduler.Bound
import CycleSchedule.Proofs.Scheduler.Service
import CycleSchedule.Proofs.Scheduler.Delay
import CycleSchedule.Proofs.Scheduler.Exact
import CycleSchedule.Proofs.Scheduler.Ratio
import CycleSchedule.Proofs.Scheduler.TieBreak
import CycleSchedule.Proofs.Scheduler.Encoding
import CycleSchedule.Proofs.Scheduler.Independence
import CycleSchedule.Proofs.Document.Shorthand
import CycleSchedule.Proofs.Document.Load
import CycleSchedule.Proofs.Problem.Registrations
import CycleSchedule.Proofs.Scheduler.Decoding
import CycleSchedule.Proofs.Scheduler.History
import CycleSchedule.Proofs.Graph.PositiveCycle
import CycleSchedule.Proofs.Problem.Schedules
import CycleSchedule.Proofs.Scheduler.Lexicographic
import CycleSchedule.Proofs.Linear.Extreme
import CycleSchedule.Proofs.Graph.OfProblem
import CycleSchedule.Proofs.Graph.Sorting
import CycleSchedule.Proofs.Scheduler.Recurrence
import CycleSchedule.Proofs.Reservation.Calls
import CycleSchedule.Proofs.Reservation.Search
import CycleSchedule.Proofs.Reservation.Order
import CycleSchedule.Proofs.Problem.Violations
import CycleSchedule.Proofs.Document.Grammar
import CycleSchedule.Proofs.Document.RoundTrip
import CycleSchedule.Proofs.Document.Notation
import CycleSchedule.Proofs.Document.Naming
import CycleSchedule.Proofs.Linear.Meaning
import CycleSchedule.Proofs.Linear.Sharing
import CycleSchedule.Proofs.Scheduler.Verbosity
import CycleSchedule.Proofs.Linear.Invariant
import CycleSchedule.Proofs.Linear.Representation
import CycleSchedule.Proofs.Linear.Redundancy
import CycleSchedule.Proofs.Reservation.Accounting
import CycleSchedule.Proofs.Graph.Parents
import CycleSchedule.Proofs.Graph.ShortestPath
import CycleSchedule.Proofs.Problem.FreshName
import CycleSchedule.Proofs.Phrase
import CycleSchedule.Proofs.Told
import CycleSchedule.Proofs.Problem.Sweep
import CycleSchedule.Proofs.Scheduler.InPlace
