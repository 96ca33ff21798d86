import AttackSurface.Gprof.Line
import AttackSurface.Source
import AttackSurface.Trace

/-!
Call graphs in reports of GNU gprof.

The call graph starts after its header and ends at a form feed. Separators divide it into blocks:
the callers of a function, a line in brackets for the function itself, and its callees.
-/
namespace AttackSurface.Gprof

def header : String := "index % time    self  children    called     name"

def separator : String := "-----------------------------------------------"

def sentinel : String := "\x0c"

def isHeader (line : String) : Bool := Text.trimEnd line.toList = header.toList

def isSeparator (line : String) : Bool := Text.trimEnd line.toList = separator.toList

def isSentinel (line : String) : Bool := Text.dropLineBreaks line.toList = sentinel.toList

def isEmptyLine (line : String) : Bool := Text.trimEnd line.toList = []

def isEntryLine (line : String) : Bool := line.toList.head? = some '['

def isFunctionLine (line : String) : Bool := !isSeparator line && !isEmptyLine line

structure Block where
  entry : Option Call := none
  /-- Whether the line in brackets was met, readable or not. -/
  entryMet : Bool := false
  callers : List Call := []
  callees : List Call := []
  deriving DecidableEq, Repr

namespace Block

/-- The block with one more line. A line that can not be read counts only in brackets: then it
leaves the block without a function. -/
def add (block : Block) (line : String) : Block :=
  match isEntryLine line, readLine line with
  | true, .ok call => { block with entry := some call, entryMet := true }
  | true, .error _ => { block with entry := none, entryMet := true }
  | false, .ok call =>
    if block.entryMet then { block with callees := block.callees ++ [call] }
    else { block with callers := block.callers ++ [call] }
  | false, .error _ => block

/-- What a block tells of; nothing without a function to tell it of. -/
def events (block : Block) : List Event :=
  match block.entry with
  | none => []
  | some entry =>
    .node entry ::
      (block.callers.map fun caller => .call caller entry) ++
      (block.callees.map fun callee => .call entry callee)

end Block

def eventsFrom (block : Block) : List String → List Event
  | [] => block.events
  | line :: rest =>
    if isSeparator line then block.events ++ eventsFrom {} rest
    else if isEmptyLine line then eventsFrom block rest
    else eventsFrom (block.add line) rest

def afterHeader (lines : List (String × Nat)) : List (String × Nat) :=
  (lines.dropWhile fun line => !isHeader line.1).drop 1

def graphLines (lines : List (String × Nat)) : List (String × Nat) :=
  (afterHeader lines).takeWhile fun line => !isSentinel line.1

def lineErrors (lines : List (String × Nat)) : List LineError :=
  lines.filterMap fun (line, number) =>
    if isFunctionLine line then
      match readLine line with
      | .ok _ => none
      | .error e => some (e.atLine number)
    else none

def trace (lines : List String) : Trace :=
  let body := graphLines (lines.zipIdx 1)
  ⟨eventsFrom {} (body.map (·.1)), lineErrors body⟩

/-- Do the lines hold the end of the call graph, so that nothing below matters? -/
def isComplete (lines : List String) : Bool :=
  (afterHeader (lines.zipIdx 1)).any fun line => isSentinel line.1

/-- Loads a report. A fault below the end of the call graph goes unnoticed. -/
def load {α : Type} (files : FileTree) (source : Source) (options : Options := {}) :
    Except LoadError (CallGraph α) := do
  let reading ← source.read files
  match reading.fault with
  | some fault =>
    if isComplete reading.lines then
      return .ofTrace source.describe .gprof options (trace reading.lines)
    else throw (source.faultError fault)
  | none => return .ofTrace source.describe .gprof options (trace reading.lines)

end AttackSurface.Gprof
