/-! Slots: numbers that tell the nodes, or the edges, of a graph apart. -/
namespace AttackSurface

/-- The slots given out so far. A slot that came back is given out again before a new one, the
latest first. -/
structure SlotPool where
  /-- The least slot never given out. -/
  bound : Nat := 0
  /-- The slots that came back, latest first. -/
  free : List Nat := []
  deriving DecidableEq, Repr, Inhabited

namespace SlotPool

def next (pool : SlotPool) : Nat := pool.free.headD pool.bound

def take (pool : SlotPool) : SlotPool :=
  match pool.free with
  | [] => ⟨pool.bound + 1, []⟩
  | _ :: rest => ⟨pool.bound, rest⟩

def giveBack (pool : SlotPool) (slot : Nat) : SlotPool := { pool with free := slot :: pool.free }

end SlotPool

end AttackSurface
