import AttackSurface.Gprof.Report

/-!
Several profiles of one program in one graph.

A node of the aggregate was seen in as many profiles as its frequency says. The profiles may be
added in any order.
-/
namespace AttackSurface.Gprof

variable {α : Type}

def addProfile (aggregate profile : CallGraph α) : CallGraph α :=
  { aggregate.accumulate profile with errors := aggregate.errors ++ profile.errors }

/-- Adds profiles as they arrive, up to the first that failed to load. -/
def aggregate (source : String) (arrivals : List (Except LoadError (CallGraph α))) :
    Except LoadError (CallGraph α) :=
  arrivals.foldlM (fun graph arrival => arrival.map (addProfile graph)) (.empty source)

def loadAll (files : FileTree) (paths : List String) (options : Options := {}) :
    Except LoadError (CallGraph α) :=
  aggregate (", ".intercalate paths) (paths.map fun path => load files (.path path) options)

end AttackSurface.Gprof
