import AttackSurface.Log.Directive

/-!
What is logged: the fields of log records, and the filter for records.

A filter is a list of directives with commas between them. One about a field of any value is asked
twice: for the spans that have the field, and for the records that carry it.
-/
namespace AttackSurface.Log

def fieldNames : List String :=
  ["lines_read", "parse_errors", "profile_count", "call_graph_build_time", "node_count",
    "edge_count", "page_rank_iterations"]

structure Filter where
  records : List Directive := []
  spans : List Directive := []

namespace Filter

def ofDirectives (directives : List Directive) : Filter where
  records := (directives.filter (·.isAboutRecords)).foldl (fun kept d => d.insert kept) []
  spans := (directives.filter (·.isAboutSpans)).foldl (fun kept d => d.insert kept) []

/-- Reads a filter. Empty directives do not count. -/
def read? (text : String) : Option Filter :=
  let parts := (text.splitOn ",").filter (· ≠ "")
  (parts.mapM fun part => Directive.read? part.toList).map ofDirectives

def render (filter : Filter) : String :=
  ",".intercalate ((filter.records ++ filter.spans).map Directive.render)

end Filter

/-- The filter where none is given, or none that can be read. -/
def defaultFilter : Filter := .ofDirectives [{ target := some "surface", level := .info }]

def filterOf (value : Option String) : Filter :=
  (value.bind Filter.read?).getD defaultFilter

end AttackSurface.Log
