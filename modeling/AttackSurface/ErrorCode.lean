/-! Stable codes of errors, for readers that must not depend on the wording of messages. -/
namespace AttackSurface

inductive ErrorCode where
  | call
  | unsupportedGranularity
  | parse
  | load
  | io
  | callGraph
  | notAnEntryPoint
  | notAnExitPoint
  | config
  deriving DecidableEq, Repr

def ErrorCode.text : ErrorCode → String
  | .call => "CALL_ERROR"
  | .unsupportedGranularity => "UNSUPPORTED_GRANULARITY"
  | .parse => "PARSE_ERROR"
  | .load => "LOAD_ERROR"
  | .io => "IO_ERROR"
  | .callGraph => "CALL_GRAPH_ERROR"
  | .notAnEntryPoint => "NOT_AN_ENTRY_POINT"
  | .notAnExitPoint => "NOT_AN_EXIT_POINT"
  | .config => "CONFIG_ERROR"

class Coded (ε : Type) where
  code : ε → ErrorCode
  message : ε → String

/-- The message with its code in brackets before it. -/
def Coded.codedMessage {ε : Type} [Coded ε] (e : ε) : String :=
  "[" ++ (Coded.code e).text ++ "] " ++ Coded.message e

end AttackSurface
