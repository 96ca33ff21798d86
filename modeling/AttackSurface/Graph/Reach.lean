import AttackSurface.Graph.Basic

/-! Shortest distances in a call graph, along its edges or against them. -/
namespace AttackSurface

inductive Direction where
  | forward
  | backward
  deriving DecidableEq, Repr

def Direction.start (direction : Direction) (edge : Edge) : Nat :=
  match direction with
  | .forward => edge.source
  | .backward => edge.target

def Direction.finish (direction : Direction) (edge : Edge) : Nat :=
  match direction with
  | .forward => edge.target
  | .backward => edge.source

structure Search where
  /-- The slots found so far, each with its distance. -/
  found : List (Nat × Nat)
  /-- Those of them whose edges are still to be followed, the next one first. -/
  queue : List (Nat × Nat)

namespace Search

variable {s : Search} {edges : List Edge} {direction : Direction} {slot other : Nat}

def knows (s : Search) (slot : Nat) : Bool := s.found.any (·.1 = slot)

/-- Puts a slot at the end of the queue, if it was not found before. -/
def meet (hops : Nat) (s : Search) (slot : Nat) : Search :=
  if s.knows slot then s else ⟨s.found ++ [(slot, hops)], s.queue ++ [(slot, hops)]⟩

def nextFrom (edges : List Edge) (direction : Direction) (slot : Nat) : List Nat :=
  (edges.filter fun edge => direction.start edge = slot).map direction.finish

def leadsOn (direction : Direction) (s : Search) (edge : Edge) : Bool :=
  !s.knows (direction.finish edge)

/-- How many slots at most the search still has to follow the edges of. -/
def ahead (edges : List Edge) (direction : Direction) (s : Search) : Nat :=
  (edges.filter (s.leadsOn direction)).length + s.queue.length

theorem knows_meet (hops : Nat) :
    (s.meet hops slot).knows other = (s.knows other || decide (slot = other)) := by
  unfold meet
  split
  · rename_i hslot
    by_cases heq : slot = other
    · rw [← heq, hslot, Bool.true_or]
    · simp [heq]
  · simp [knows]

theorem ahead_meet (hops : Nat) (hslot : ∃ edge ∈ edges, direction.finish edge = slot) :
    (s.meet hops slot).ahead edges direction ≤ s.ahead edges direction := by
  cases hknown : s.knows slot with
  | true =>
    have hsame : s.meet hops slot = s := if_pos hknown
    exact Nat.le_of_eq (congrArg (ahead edges direction) hsame)
  | false =>
    -- One slot more is in the queue, but an edge fewer leads on.
    obtain ⟨edge, he, rfl⟩ := hslot
    have hrest : edges.filter ((s.meet hops (direction.finish edge)).leadsOn direction) =
        (edges.filter (s.leadsOn direction)).filter fun other =>
          !decide (direction.finish edge = direction.finish other) := by
      rw [List.filter_filter]
      apply List.filter_congr
      intro other _
      rw [leadsOn, knows_meet, Bool.not_or, Bool.and_comm, leadsOn]
    have hfewer : ((edges.filter (s.leadsOn direction)).filter fun other =>
        !decide (direction.finish edge = direction.finish other)).length <
          (edges.filter (s.leadsOn direction)).length := by
      refine List.length_filter_lt_length_iff_exists.2 ⟨edge, List.mem_filter.2 ⟨he, ?_⟩, by simp⟩
      simp [leadsOn, hknown]
    have hqueue : (s.meet hops (direction.finish edge)).queue.length = s.queue.length + 1 := by
      simp [meet, hknown]
    unfold ahead
    rw [hrest, hqueue]
    omega

theorem ahead_foldl_meet (hops : Nat) {slots : List Nat}
    (hslots : ∀ slot ∈ slots, ∃ edge ∈ edges, direction.finish edge = slot) :
    (slots.foldl (meet hops) s).ahead edges direction ≤ s.ahead edges direction := by
  induction slots generalizing s with
  | nil => exact Nat.le_refl _
  | cons slot rest ih =>
    obtain ⟨hslot, hrest⟩ := List.forall_mem_cons.1 hslots
    exact Nat.le_trans (ih hrest) (ahead_meet hops hslot)

/-- The search without the first slot of its queue, whose edges were followed. -/
def follow (edges : List Edge) (direction : Direction) (found : List (Nat × Nat))
    (slot hops : Nat) (rest : List (Nat × Nat)) : Search :=
  (nextFrom edges direction slot).foldl (meet (hops + 1)) ⟨found, rest⟩

def run (edges : List Edge) (direction : Direction) (s : Search) : List (Nat × Nat) :=
  match _h : s.queue with
  | [] => s.found
  | (slot, hops) :: rest => run edges direction (follow edges direction s.found slot hops rest)
termination_by s.ahead edges direction
decreasing_by
  refine Nat.lt_of_le_of_lt (ahead_foldl_meet _ fun next hnext => ?_) ?_
  · obtain ⟨edge, he, rfl⟩ := List.mem_map.1 hnext
    exact ⟨edge, (List.mem_filter.1 he).1, rfl⟩
  · rw [ahead, ahead, _h, List.length_cons]
    exact Nat.lt_succ_self _

end Search

namespace CallGraph

variable {α : Type}

/-- The slots that can be reached from a slot, each with the least number of edges on a way there;
the slot itself comes first. -/
def distances (g : CallGraph α) (direction : Direction) (slot : Nat) : List (Nat × Nat) :=
  Search.run g.edges direction ⟨[(slot, 0)], [(slot, 0)]⟩

def reach (g : CallGraph α) (direction : Direction) (slot : Nat) : List Nat :=
  (g.distances direction slot).map (·.1)

end CallGraph

end AttackSurface
