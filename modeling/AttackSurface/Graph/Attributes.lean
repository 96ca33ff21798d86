import AttackSurface.Graph.Marks
import AttackSurface.Producer
import AttackSurface.Scores

/-!
What a call graph knows about its nodes and edges.

Attributes only grow: two sets of attributes of one node or edge are merged, never replaced. Marks
and flags are united, and of scores and weights the first one stays. Frequencies are compared when
the same observations are merged and added when independent ones are accumulated.
-/
namespace AttackSurface

structure NodeAttrs (α : Type) where
  marks : Marks := {}
  /-- How many execution profiles saw the node, as a word that wraps around. -/
  frequency : Option UInt32 := none
  scores : Scores α := .empty
  deriving Inhabited

namespace NodeAttrs

variable {α : Type}

/-- The attributes that can be asked for in every graph, in the order in which they are shown. -/
def builtInNames : List String := Mark.all.map Mark.label ++ ["frequency"]

/-- Is the attribute present? Besides the built-in ones, each score is one under its own name. -/
def has (attrs : NodeAttrs α) (name : String) : Bool :=
  match Mark.ofLabel? name with
  | some mark => attrs.marks.has mark
  | none =>
    if name = "frequency" then attrs.frequency.isSome else (attrs.scores.get? name).isSome

/-- The names of the built-in attributes present, and then those of all scores, sorted. -/
def names (attrs : NodeAttrs α) : List String :=
  builtInNames.filter attrs.has ++ attrs.scores.names

def isEmpty (attrs : NodeAttrs α) : Bool := attrs.names.isEmpty

/-- The attributes of both, with `count` to combine two frequencies. -/
def mergeWith (count : UInt32 → UInt32 → UInt32) (attrs other : NodeAttrs α) : NodeAttrs α where
  marks := attrs.marks.union other.marks
  frequency := attrs.frequency.merge count other.frequency
  scores := attrs.scores.merge other.scores

/-- The attributes of both, which may stem from the same profiles. -/
def merge (attrs other : NodeAttrs α) : NodeAttrs α := attrs.mergeWith max other

/-- The attributes of both, which stem from different profiles. -/
def accumulate (attrs other : NodeAttrs α) : NodeAttrs α := attrs.mergeWith (· + ·) other

def setScore (attrs : NodeAttrs α) (name : String) (value : α) : NodeAttrs α :=
  { attrs with scores := attrs.scores.set name value }

def agrees [BEq α] (attrs other : NodeAttrs α) : Bool :=
  attrs.marks = other.marks && attrs.frequency = other.frequency &&
    attrs.scores.pairs == other.scores.pairs

end NodeAttrs

structure EdgeAttrs where
  cflow : Bool := false
  gprof : Bool := false
  /-- The edge leads from a caller to its callee. -/
  isCall : Bool := false
  /-- The edge leads from a callee back to its caller. -/
  isReturn : Bool := false
  weight : Option Nat := none
  deriving DecidableEq, Repr, Inhabited

namespace EdgeAttrs

def ofProducer (producer : Producer) : EdgeAttrs :=
  { cflow := producer = .cflow, gprof := producer = .gprof }

def call (producer : Producer) : EdgeAttrs := { ofProducer producer with isCall := true }

def returning (producer : Producer) : EdgeAttrs := { ofProducer producer with isReturn := true }

def flagLabels (attrs : EdgeAttrs) : List String :=
  ([("cflow", attrs.cflow), ("gprof", attrs.gprof), ("call", attrs.isCall),
    ("return", attrs.isReturn)].filter (·.2)).map (·.1)

def has (attrs : EdgeAttrs) (name : String) : Bool :=
  attrs.flagLabels.contains name || (name = "weight" && attrs.weight.isSome)

def merge (attrs other : EdgeAttrs) : EdgeAttrs where
  cflow := attrs.cflow || other.cflow
  gprof := attrs.gprof || other.gprof
  isCall := attrs.isCall || other.isCall
  isReturn := attrs.isReturn || other.isReturn
  weight := attrs.weight.or other.weight

end EdgeAttrs

end AttackSurface
