import AttackSurface.Rank
import AttackSurface.Trace
import AttackSurface.Weights

/-!
Settings of the loaders and the metrics.

Every setting may be left open; what is open has a default, which the `effective` functions put in.
-/
namespace AttackSurface

structure LoaderSettings where
  workers : Option UInt64 := none
  /-- How many profiles may wait to be read. -/
  workQueue : Option UInt64 := none
  /-- How many profiles may wait to be aggregated. -/
  resultQueue : Option UInt64 := none
  timeoutMs : Option UInt64 := none
  granularity : Option Granularity := none
  /-- The packages whose lines a java-callgraph listing is searched for. -/
  appPackages : Option (List String) := none
  deriving DecidableEq, Inhabited

namespace LoaderSettings

def effectiveWorkers (s : LoaderSettings) : UInt64 := s.workers.getD 2

def effectiveWorkQueue (s : LoaderSettings) : UInt64 := s.workQueue.getD 50

def effectiveResultQueue (s : LoaderSettings) : UInt64 := s.resultQueue.getD 1

def effectiveGranularity (s : LoaderSettings) : Granularity := s.granularity.getD .function

def effectiveAppPackages (s : LoaderSettings) : List String := s.appPackages.getD []

/-- Options for profiles: the granularity changes only if it is set. -/
def profileOptions (s : LoaderSettings) (options : Options) : Options :=
  { options with granularity := s.granularity.getD options.granularity }

/-- Options for java-callgraph listings: the granularity is always that of the settings. -/
def listingOptions (s : LoaderSettings) (options : Options) : Options :=
  { options with granularity := s.effectiveGranularity }

end LoaderSettings

structure MetricsSettings where
  primaryWeight : Option Float := none
  secondaryWeight : Option Float := none
  damping : Option Float := none
  tolerance : Option Float := none
  maxIterations : Option UInt64 := none
  cflowCallWeight : Option UInt32 := none
  cflowReturnWeight : Option UInt32 := none
  gprofCallWeight : Option UInt32 := none
  gprofReturnWeight : Option UInt32 := none
  deriving Inhabited

namespace MetricsSettings

def rankParams (s : MetricsSettings) : RankParams Float where
  primary := s.primaryWeight.getD RankParams.standard.primary
  secondary := s.secondaryWeight.getD RankParams.standard.secondary
  damping := s.damping.getD RankParams.standard.damping
  tolerance := s.tolerance.getD RankParams.standard.tolerance
  maxIterations :=
    (s.maxIterations.map UInt64.toNat).getD (RankParams.standard (α := Float)).maxIterations

def weights (s : MetricsSettings) : Weights :=
  let standard : Weights := {}
  { cflowCall := (s.cflowCallWeight.map UInt32.toNat).getD standard.cflowCall
    cflowReturn := (s.cflowReturnWeight.map UInt32.toNat).getD standard.cflowReturn
    gprofCall := (s.gprofCallWeight.map UInt32.toNat).getD standard.gprofCall
    gprofReturn := (s.gprofReturnWeight.map UInt32.toNat).getD standard.gprofReturn }

end MetricsSettings

structure Settings where
  loader : LoaderSettings := {}
  metrics : MetricsSettings := {}
  deriving Inhabited

inductive SettingsError where
  | unreadable (path : String)
  | malformed (path : String) (reason : String)
  | rejected (field : String) (requirement : String)
  | invalid (field : String) (reason : String)
  deriving DecidableEq, Repr

instance : Coded SettingsError where
  code _ := .config
  message
    | .unreadable path => "Config file not found: " ++ path
    | .malformed path reason => "Config parse error in " ++ path ++ ": " ++ reason
    | .rejected field requirement =>
      "Config validation failed for " ++ field ++ ": " ++ requirement
    | .invalid field reason => "Invalid config value for " ++ field ++ ": " ++ reason

namespace Settings

inductive Requirement where
  | positive
  | openUnit
  | positiveFinite
  deriving DecidableEq, Repr

def Requirement.wording : Requirement → String
  | .positive => "must be greater than 0"
  | .openUnit => "must be in (0.0, 1.0)"
  | .positiveFinite => "must be a positive finite number"

def isPositiveFinite (x : Float) : Bool := x.isFinite && 0.0 < x

def isInOpenUnit (x : Float) : Bool := 0.0 < x && x < 1.0

/-- The settings that have to meet a requirement, in the order in which they are checked, and
whether they do. What is left open always does. -/
def checks (s : Settings) : List (String × Requirement × Bool) :=
  [("loader.workers", .positive, s.loader.workers.all (0 < ·)),
    ("loader.work_queue", .positive, s.loader.workQueue.all (0 < ·)),
    ("loader.result_queue", .positive, s.loader.resultQueue.all (0 < ·)),
    ("metrics.damping", .openUnit, s.metrics.damping.all isInOpenUnit),
    ("metrics.primary_weight", .positiveFinite, s.metrics.primaryWeight.all isPositiveFinite),
    ("metrics.secondary_weight", .positiveFinite, s.metrics.secondaryWeight.all isPositiveFinite),
    ("metrics.tolerance", .positiveFinite, s.metrics.tolerance.all isPositiveFinite),
    ("metrics.max_iterations", .positive, s.metrics.maxIterations.all (0 < ·))]

/-- Refuses settings by the first requirement that is not met. -/
def validate (s : Settings) : Except SettingsError Unit :=
  match s.checks.find? fun check => !check.2.2 with
  | none => .ok ()
  | some (field, requirement, _) => .error (.rejected field requirement.wording)

end Settings

end AttackSurface
