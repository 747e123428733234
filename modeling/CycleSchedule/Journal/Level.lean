/-! How important a message is, and which messages a verbosity lets through. -/

namespace CycleSchedule

/-- The importance of a message. -/
inductive Level where
  | debug
  | checks
  | info
  | changes
  | warning
  | error
  | critical
deriving DecidableEq, Repr

namespace Level

/-- Greater ranks are more important. -/
def rank : Level → Nat
  | debug => 10
  | checks => 15
  | info => 20
  | changes => 25
  | warning => 30
  | error => 40
  | critical => 50

/-- The name of a level. -/
def name : Level → String
  | debug => "debug"
  | checks => "checks"
  | info => "info"
  | changes => "changes"
  | warning => "warning"
  | error => "error"
  | critical => "critical"

/-- The level of a name. -/
def ofName? (name : String) : Option Level :=
  [debug, checks, info, changes, warning, error, critical].find? (·.name = name)

/-- Whether a message of this level passes a threshold. -/
def passes (level threshold : Level) : Bool := threshold.rank ≤ level.rank

end Level

/-- The least level that a verbosity lets through; verbosities beyond the scale count as its ends.
-/
def threshold (verbosity : Int) : Level :=
  -- Where nothing more is asked for, warnings are left out too.
  if verbosity ≤ 0 then .error
  else if verbosity = 1 then .changes
  else if verbosity = 2 then .checks
  else .debug

end CycleSchedule
