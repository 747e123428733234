import CycleSchedule.Document.Scalar
import CycleSchedule.Scheduler.Choice

/-! Reading the settings of a scheduler. -/

namespace CycleSchedule.Document

/-- Reads the settings of the scheduler by linear programs. -/
def readSimplexSettings : Value → Reading Bool :=
  readRecord fun value => optional readBool value "minimize_sum_of_starts" true

/-- Reads settings; those that are not given have their defaults. -/
def readSettings : Value → Reading SchedulingConfig :=
  readRecord fun value =>
    let default := SchedulingConfig.default
    -- A setting of a wrong kind is a mismatch, and does not become the default.
    let algorithm :=
      optional (readChoice Algorithm.ofName?) value "algorithm" default.algorithm
    let variant :=
      optional (readOptional (readChoice Variant.ofName?)) value "variant" default.variant
    let last := optional (readOptional readText) value "last_operation" default.last
    let verify := optional readBool value "verify_solution" default.verifySolution
    let minimizeSum := optional readSimplexSettings value "simplex" default.minimizeSum
    -- The settings are read together, so every mismatch among them is told of.
    (algorithm.both (variant.both (last.both (verify.both minimizeSum)))).map
      fun (algorithm, variant, last, verifySolution, minimizeSum) =>
        { algorithm, variant, last, verifySolution, minimizeSum }

end CycleSchedule.Document
