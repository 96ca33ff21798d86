import AttackSurface.ErrorCode
import AttackSurface.Text.Quoted

/-! The tools whose listings are read, and the lines of theirs that hold no call. -/
namespace AttackSurface

/-- The tools whose output is read: GNU cflow, GNU gprof and java-callgraph. -/
inductive Producer where
  | cflow
  | gprof
  | javacg
  deriving DecidableEq, Repr, Inhabited

def Producer.label : Producer → String
  | .cflow => "cflow"
  | .gprof => "gprof"
  | .javacg => "javacg"

inductive LineFault where
  | noName
  | missing (field : String)
  | malformed
  deriving DecidableEq, Repr

def LineFault.wording : LineFault → String
  | .noName => "no function name in"
  | .missing field => "missing " ++ field ++ " in"
  | .malformed => "can not parse a call from"

/-- A line that could not be read. Lines count from 1; 0 stands for a line read on its own. -/
structure LineError where
  producer : Producer
  fault : LineFault
  text : String
  line : Nat := 0
  deriving DecidableEq, Repr

def LineError.atLine (e : LineError) (line : Nat) : LineError := { e with line }

instance : Coded LineError where
  code _ := .parse
  message e :=
    e.producer.label ++ " line " ++ toString e.line ++ ": " ++ e.fault.wording ++ " " ++
      Text.quoted e.text

end AttackSurface
