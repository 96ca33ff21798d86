import AttackSurface.Decimal.Numeral

/-! Levels of log records. -/
namespace AttackSurface.Log

inductive Level where
  | off
  | error
  | warn
  | info
  | debug
  | trace
  deriving DecidableEq, Repr

namespace Level

def all : List Level := [.off, .error, .warn, .info, .debug, .trace]

def label : Level → String
  | .off => "off"
  | .error => "error"
  | .warn => "warn"
  | .info => "info"
  | .debug => "debug"
  | .trace => "trace"

/-- Reads a level by its label, in ASCII letters of any case, or by its number from 0 for none to 5
for all records. -/
def ofText? (text : List Char) : Option Level :=
  match Decimal.natural? UInt64.size text with
  | some n => all[n]?
  | none => all.find? fun level => level.label.toList = text.map Char.toLower

end Level

end AttackSurface.Log
