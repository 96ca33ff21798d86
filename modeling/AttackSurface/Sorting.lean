/-! Stable sorting by insertion. -/
namespace AttackSurface

variable {α : Type}

def insertSorted (le : α → α → Bool) (x : α) : List α → List α
  | [] => [x]
  | y :: rest => if le x y then x :: y :: rest else y :: insertSorted le x rest

/-- Sorts by `le`; elements that may stand either way keep their order. -/
def sortedBy (le : α → α → Bool) (xs : List α) : List α := xs.foldr (insertSorted le) []

theorem insertSorted_perm (le : α → α → Bool) (x : α) (xs : List α) :
    (insertSorted le x xs).Perm (x :: xs) := by
  induction xs with
  | nil => exact .refl _
  | cons y rest ih =>
    unfold insertSorted
    split
    · exact .refl _
    · exact (ih.cons y).trans (.swap ..)

theorem mem_insertSorted {le : α → α → Bool} {x y : α} {xs : List α} :
    y ∈ insertSorted le x xs ↔ y = x ∨ y ∈ xs :=
  (insertSorted_perm le x xs).mem_iff.trans List.mem_cons

theorem pairwise_insertSorted {R : α → α → Prop} (trans : ∀ {a b c}, R a b → R b c → R a c)
    {le : α → α → Bool} {x : α} {xs : List α} (h : xs.Pairwise R)
    (before : ∀ y ∈ xs, le x y → R x y) (after : ∀ y ∈ xs, ¬ le x y → R y x) :
    (insertSorted le x xs).Pairwise R := by
  induction xs with
  | nil => exact List.pairwise_singleton R x
  | cons y rest ih =>
    obtain ⟨hy, hrest⟩ := List.pairwise_cons.1 h
    unfold insertSorted
    split
    case isTrue hle =>
      have hxy : R x y := before y List.mem_cons_self hle
      refine List.pairwise_cons.2 ⟨fun z hz => ?_, h⟩
      rcases List.mem_cons.1 hz with rfl | hz
      · exact hxy
      · exact trans hxy (hy z hz)
    case isFalse hle =>
      refine List.pairwise_cons.2 ⟨fun z hz => ?_, ih hrest ?_ ?_⟩
      · rcases mem_insertSorted.1 hz with rfl | hz
        · exact after y List.mem_cons_self hle
        · exact hy z hz
      · exact fun z hz => before z (List.mem_cons_of_mem y hz)
      · exact fun z hz => after z (List.mem_cons_of_mem y hz)

theorem sortedBy_perm (le : α → α → Bool) (xs : List α) : (sortedBy le xs).Perm xs := by
  induction xs with
  | nil => exact .refl _
  | cons x rest ih => exact (insertSorted_perm le x _).trans (ih.cons x)

@[simp] theorem mem_sortedBy {le : α → α → Bool} {xs : List α} {x : α} :
    x ∈ sortedBy le xs ↔ x ∈ xs :=
  (sortedBy_perm le xs).mem_iff

@[simp] theorem length_sortedBy (le : α → α → Bool) (xs : List α) :
    (sortedBy le xs).length = xs.length :=
  (sortedBy_perm le xs).length_eq

/-- Where any two elements belong in one order only, sorting puts all in order. -/
theorem pairwise_sortedBy {R : α → α → Prop} (trans : ∀ {a b c}, R a b → R b c → R a c)
    {le : α → α → Bool} {xs : List α}
    (h : xs.Pairwise fun x y => (le x y → R x y) ∧ (¬ le x y → R y x)) :
    (sortedBy le xs).Pairwise R := by
  induction xs with
  | nil => exact .nil
  | cons x rest ih =>
    obtain ⟨hx, hrest⟩ := List.pairwise_cons.1 h
    refine pairwise_insertSorted (R := R) trans (ih hrest) (fun y hy => ?_) (fun y hy => ?_)
    · exact (hx y (mem_sortedBy.1 hy)).1
    · exact (hx y (mem_sortedBy.1 hy)).2

end AttackSurface
