import AttackSurface.Settings.Basic
import AttackSurface.Toml.Document
import AttackSurface.Toml.Writer

/-!
Settings as TOML documents.

A document has a section for the loaders and one for the metrics. Keys of no setting are passed
over. A section may also be an array of its values, in the order of the fields, or a date, which
sets nothing.
-/
namespace AttackSurface

/-! ## Reading -/

namespace Toml

def Value.natural? (limit : Nat) : Value → Option Nat
  | .integer n => if 0 ≤ n ∧ n < limit then some n.toNat else none
  | _ => none

def Value.word64? (value : Value) : Option UInt64 := (value.natural? UInt64.size).map UInt64.ofNat

def Value.word32? (value : Value) : Option UInt32 := (value.natural? UInt32.size).map UInt32.ofNat

/-- Reads a floating-point number, or an integer as the nearest one. -/
def Value.float? : Value → Option Float
  | .float x => some x
  | .integer n => some (Float.ofInt n)
  | _ => none

def Value.string? : Value → Option String
  | .string text => some text
  | _ => none

def Value.strings? : Value → Option (List String)
  | .array items => items.mapM Value.string?
  | _ => none

def Value.isEmpty : Value → Bool
  | .table _ [] => true
  | .array [] => true
  | _ => false

/-- Reads a granularity, as a string or as a table with its name as only key and an empty table or
array under it. -/
def Value.granularity? : Value → Option Granularity
  | .string text => (Granularity.ofLabel text).toOption
  | .table _ [(label, value)] =>
    if value.isEmpty then (Granularity.ofLabel label).toOption else none
  | _ => none

/-- How the fields of a section are found, by name and by position. A date or a time stands for a
section without any of them. -/
def Value.section? : Value → Option (String → Nat → Option Value)
  | .table _ entries => some fun name _ => Entries.find? entries name
  | .array items => some fun _ position => items[position]?
  | .tables last others => some fun _ position =>
    ((last :: others).reverse.map (Value.table .headed))[position]?
  | .dateTime _ => some fun _ _ => none
  | _ => none

def readField {α : Type} (field : Option Value) (read : Value → Option α) : Option (Option α) :=
  match field with
  | none => some none
  | some value => (read value).map some

end Toml

open Toml (readField Value Entries)

namespace LoaderSettings

def ofSection? (field : String → Nat → Option Value) : Option LoaderSettings := do
  let workers ← readField (field "workers" 0) Value.word64?
  let workQueue ← readField (field "work_queue" 1) Value.word64?
  let resultQueue ← readField (field "result_queue" 2) Value.word64?
  let timeoutMs ← readField (field "timeout_ms" 3) Value.word64?
  let granularity ← readField (field "granularity" 4) Value.granularity?
  let appPackages ← readField (field "app_packages" 5) Value.strings?
  return { workers, workQueue, resultQueue, timeoutMs, granularity, appPackages }

end LoaderSettings

namespace MetricsSettings

def ofSection? (field : String → Nat → Option Value) : Option MetricsSettings := do
  let primaryWeight ← readField (field "primary_weight" 0) Value.float?
  let secondaryWeight ← readField (field "secondary_weight" 1) Value.float?
  let damping ← readField (field "damping" 2) Value.float?
  let tolerance ← readField (field "tolerance" 3) Value.float?
  let maxIterations ← readField (field "max_iterations" 4) Value.word64?
  let cflowCallWeight ← readField (field "cflow_call_weight" 5) Value.word32?
  let cflowReturnWeight ← readField (field "cflow_return_weight" 6) Value.word32?
  let gprofCallWeight ← readField (field "gprof_call_weight" 7) Value.word32?
  let gprofReturnWeight ← readField (field "gprof_return_weight" 8) Value.word32?
  return {
    primaryWeight, secondaryWeight, damping, tolerance, maxIterations,
    cflowCallWeight, cflowReturnWeight, gprofCallWeight, gprofReturnWeight }

end MetricsSettings

namespace Settings

def readSection {α : Type} (entries : Entries) (name : String) (default : α)
    (read : (String → Nat → Option Value) → Option α) : Option α :=
  match entries.find? name with
  | none => some default
  | some value => value.section?.bind read

def ofEntries? (entries : Entries) : Option Settings := do
  let loader ← readSection entries "loader" {} LoaderSettings.ofSection?
  let metrics ← readSection entries "metrics" {} MetricsSettings.ofSection?
  return { loader, metrics }

def ofToml (text : String) (path : String := "<string>") : Except SettingsError Settings :=
  match (Toml.read? text).bind ofEntries? with
  | some settings => .ok settings
  | none => .error (.malformed path "these are no settings")

/-! ## Writing -/

def setFields (fields : List (String × Option Toml.Field)) : List (String × Toml.Field) :=
  fields.filterMap fun (key, field) => field.map (key, ·)

def natural64 (n : Option UInt64) : Option Toml.Field := n.map fun n => .natural n.toNat

def natural32 (n : Option UInt32) : Option Toml.Field := n.map fun n => .natural n.toNat

def loaderSection (s : LoaderSettings) : Toml.Section where
  name := "loader"
  fields := setFields [
    ("workers", natural64 s.workers),
    ("work_queue", natural64 s.workQueue),
    ("result_queue", natural64 s.resultQueue),
    ("timeout_ms", natural64 s.timeoutMs),
    ("granularity", s.granularity.map fun granularity => .string granularity.label),
    ("app_packages", s.appPackages.map .strings)]

def metricsSection (s : MetricsSettings) : Toml.Section where
  name := "metrics"
  fields := setFields [
    ("primary_weight", s.primaryWeight.map .float),
    ("secondary_weight", s.secondaryWeight.map .float),
    ("damping", s.damping.map .float),
    ("tolerance", s.tolerance.map .float),
    ("max_iterations", natural64 s.maxIterations),
    ("cflow_call_weight", natural32 s.cflowCallWeight),
    ("cflow_return_weight", natural32 s.cflowReturnWeight),
    ("gprof_call_weight", natural32 s.gprofCallWeight),
    ("gprof_return_weight", natural32 s.gprofReturnWeight)]

def sections (s : Settings) : List Toml.Section :=
  [loaderSection s.loader, metricsSection s.metrics]

def toToml (s : Settings) : Except SettingsError String :=
  match Toml.write? s.sections with
  | some text => .ok text
  | none => .error (.malformed "<serialization>" "an integer is too large")

end Settings

end AttackSurface
