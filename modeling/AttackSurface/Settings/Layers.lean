import AttackSurface.Decimal.Numeral
import AttackSurface.Settings.Document
import AttackSurface.Source

/-!
Settings from several places. A value set by the caller wins over a variable of the environment,
and that over the file of the project.
-/
namespace AttackSurface

structure Overrides where
  workers : Option UInt64 := none
  timeoutMs : Option UInt64 := none
  granularity : Option Granularity := none
  primaryWeight : Option Float := none
  secondaryWeight : Option Float := none
  damping : Option Float := none
  deriving Inhabited

/-- Variables of the environment. A value is any bytes and need not be text. -/
abbrev Variables := List (String × List UInt8)

namespace Variables

/-- The text that a variable is set to. Bytes that are no text count as no value. -/
def text? (env : Variables) (name : String) : Option String :=
  (env.lookup name).bind fun bytes => String.fromUTF8? ⟨bytes.toArray⟩

def word64? (env : Variables) (name : String) : Option UInt64 :=
  (env.text? name).bind fun text =>
    (Decimal.natural? UInt64.size text.toList).map UInt64.ofNat

def float? (env : Variables) (name : String) : Option Float :=
  (env.text? name).bind fun text => Decimal.float? text.toList

/-- Settings by variables. A number that can not be read is ignored, a granularity is refused. -/
def overrides (env : Variables) : Except SettingsError Overrides := do
  let granularity ← match env.text? "SURFACE_LOADER_GRANULARITY" with
    | none => pure none
    | some text =>
      match Granularity.ofLabel text with
      | .ok granularity => pure (some granularity)
      | .error e => throw (.invalid "SURFACE_LOADER_GRANULARITY" (Coded.message e))
  return {
    workers := env.word64? "SURFACE_LOADER_WORKERS"
    timeoutMs := env.word64? "SURFACE_LOADER_TIMEOUT_MS"
    granularity
    primaryWeight := env.float? "SURFACE_METRICS_PRIMARY_WEIGHT"
    secondaryWeight := env.float? "SURFACE_METRICS_SECONDARY_WEIGHT"
    damping := env.float? "SURFACE_METRICS_DAMPING" }

end Variables

namespace Settings

/-- What `other` sets goes before what is set already. -/
def merge (s other : Settings) : Settings where
  loader :=
    { workers := other.loader.workers.or s.loader.workers
      workQueue := other.loader.workQueue.or s.loader.workQueue
      resultQueue := other.loader.resultQueue.or s.loader.resultQueue
      timeoutMs := other.loader.timeoutMs.or s.loader.timeoutMs
      granularity := other.loader.granularity.or s.loader.granularity
      appPackages := other.loader.appPackages.or s.loader.appPackages }
  metrics :=
    { primaryWeight := other.metrics.primaryWeight.or s.metrics.primaryWeight
      secondaryWeight := other.metrics.secondaryWeight.or s.metrics.secondaryWeight
      damping := other.metrics.damping.or s.metrics.damping
      tolerance := other.metrics.tolerance.or s.metrics.tolerance
      maxIterations := other.metrics.maxIterations.or s.metrics.maxIterations
      cflowCallWeight := other.metrics.cflowCallWeight.or s.metrics.cflowCallWeight
      cflowReturnWeight := other.metrics.cflowReturnWeight.or s.metrics.cflowReturnWeight
      gprofCallWeight := other.metrics.gprofCallWeight.or s.metrics.gprofCallWeight
      gprofReturnWeight := other.metrics.gprofReturnWeight.or s.metrics.gprofReturnWeight }

/-- Puts the settings of a project file over the settings. The file may be missing. -/
def mergeFile (s : Settings) (path : String) : Option FileEntry → Except SettingsError Settings
  | none => .ok s
  | some .directory => .error (.unreadable path)
  | some (.file bytes) =>
    match String.fromUTF8? ⟨bytes.toArray⟩ with
    | none => .error (.unreadable path)
    | some text => (ofToml text path).map s.merge

def override (s : Settings) (layer : Overrides) : Settings where
  loader :=
    { s.loader with
      workers := layer.workers.or s.loader.workers
      timeoutMs := layer.timeoutMs.or s.loader.timeoutMs
      granularity := layer.granularity.or s.loader.granularity }
  metrics :=
    { s.metrics with
      primaryWeight := layer.primaryWeight.or s.metrics.primaryWeight
      secondaryWeight := layer.secondaryWeight.or s.metrics.secondaryWeight
      damping := layer.damping.or s.metrics.damping }

def resolve (path : String) (file : Option FileEntry) (env : Variables)
    (overrides : Overrides := {}) : Except SettingsError Settings := do
  let settings ← ({} : Settings).mergeFile path file
  let settings := settings.override (← env.overrides)
  let settings := settings.override overrides
  settings.validate
  return settings

end Settings

end AttackSurface
