/-! Where to find a node: the slot of every identity in a graph. -/
namespace AttackSurface

/-- A slot for each of some identities. A newer entry hides an older one. -/
structure SlotIndex where
  entries : List (String × Nat) := []
  deriving DecidableEq, Repr, Inhabited

namespace SlotIndex

def get? (index : SlotIndex) (identity : String) : Option Nat := index.entries.lookup identity

def put (index : SlotIndex) (identity : String) (slot : Nat) : SlotIndex :=
  ⟨(identity, slot) :: index.entries⟩

def erase (index : SlotIndex) (identity : String) : SlotIndex :=
  ⟨index.entries.filter fun entry => entry.1 ≠ identity⟩

@[simp] theorem get?_empty (identity : String) : ({} : SlotIndex).get? identity = none := rfl

@[simp] theorem get?_put (index : SlotIndex) (identity other : String) (slot : Nat) :
    (index.put identity slot).get? other =
      if other = identity then some slot else index.get? other := by
  unfold get? put
  by_cases h : other = identity
  · simp [h]
  · rw [List.lookup_cons, beq_false_of_ne h, if_neg h]

@[simp] theorem get?_erase (index : SlotIndex) (identity other : String) :
    (index.erase identity).get? other =
      if other = identity then none else index.get? other := by
  unfold get? erase
  induction index.entries with
  | nil => simp
  | cons entry rest ih =>
    obtain ⟨key, slot⟩ := entry
    by_cases hkey : key = identity
    · rw [List.filter_cons_of_neg (by simpa using hkey), ih]
      split
      · rfl
      · rename_i hother
        rw [List.lookup_cons, beq_false_of_ne (hkey ▸ hother)]
    · rw [List.filter_cons_of_pos (by simpa using hkey), List.lookup_cons, List.lookup_cons, ih]
      by_cases hother : other = key
      · simp [hother, hkey]
      · simp [beq_false_of_ne hother]

end SlotIndex

end AttackSurface
