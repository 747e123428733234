import CycleSchedule.Scheduler.Cyclic
import CycleSchedule.Scheduler.Precedence
import CycleSchedule.Scheduler.Shared

/-! The choice of a scheduler for a problem, and the settings that govern it. -/

namespace CycleSchedule

/-- The scheduling algorithms. -/
inductive Algorithm where
  | asap
  | simplex
deriving DecidableEq, Repr

namespace Algorithm

/-- Every algorithm. -/
def all : List Algorithm := [asap, simplex]

/-- The name of an algorithm. -/
def name : Algorithm → String
  | asap => "asap"
  | simplex => "simplex"

/-- The algorithm of a name. -/
def ofName? (name : String) : Option Algorithm := all.find? (·.name = name)

/-- The algorithm of a name, which has to be one of the known names. -/
def named (name : String) : Except Fault Algorithm :=
  match ofName? name with
  | some algorithm => .ok algorithm
  | none => .error (.rejected (.unknownAlgorithm name))

end Algorithm

/-- How a problem is to be scheduled. -/
structure SchedulingConfig where
  algorithm : Algorithm
  variant : Option Variant
  last : Option String
  verifySolution : Bool
  minimizeSum : Bool
deriving DecidableEq, Repr

/-- The settings where none are given. -/
def SchedulingConfig.default : SchedulingConfig := ⟨.simplex, none, none, true, true⟩

/-- A scheduler, ready to run. -/
inductive Scheduler where
  | asap
  | simplex (variant : Variant) (last : Option String) (minimizeSum : Bool)
deriving DecidableEq, Repr

namespace Scheduler

/-- The scheduler by linear programs for a variant. Limited operators need the least schedule, so
there the sum of starts is always minimised. -/
def forVariant {ν : Type} (problem : Problem ν) (variant : Variant) (last : Option String)
    (minimizeSum : Bool) : Except Fault Scheduler := do
  -- A last operation that does not exist is refused before anything is built.
  let last ← problem.resolveLast last
  return .simplex variant last (minimizeSum || variant = .sharedOperators)

/-- The scheduler for an algorithm and a variant, if the algorithm can handle the variant. -/
def create {ν : Type} (problem : Problem ν) (algorithm : Algorithm) (variant : Variant)
    (last : Option String) (minimizeSum : Bool) : Except Fault Scheduler :=
  match algorithm with
  -- The earliest starts know neither distances nor limits.
  | .asap => if variant = .basic then .ok .asap else .error (.unsupportedVariant variant)
  | .simplex => forVariant problem variant last minimizeSum

/-- Whole start times as measures. -/
def measuredStarts {κ : Type} [Measure κ] (result : AlgorithmResult Int) : AlgorithmResult κ :=
  -- The whole starts are measures of whichever kind the problem calculates with.
  ⟨result.starts.mapValues Measure.ofInt, result.interval, result.metadata⟩

/-- Runs a scheduler on a problem. -/
def run {ν κ : Type} [Quantity ν κ] [Measure κ] (scheduler : Scheduler) (problem : Problem ν) :
    Narrated (AlgorithmResult κ) :=
  -- Solutions of linear programs are whole, only sums of latencies may not be.
  match scheduler with
  | .asap => Asap.schedule problem
  | .simplex .basic last minimizeSum =>
    measuredStarts <$> Precedence.schedule problem last minimizeSum
  | .simplex .cyclic last minimizeSum =>
    measuredStarts <$> Cyclic.schedule problem last minimizeSum
  | .simplex .sharedOperators last minimizeSum =>
    measuredStarts <$> Shared.schedule problem last minimizeSum

end Scheduler

end CycleSchedule
