import AttackSurface.Graph.Reach
import AttackSurface.Proofs.Graph.WellFormed
import Mathlib.Data.List.Nodup
import Mathlib.Data.Nat.Find
import Mathlib.Logic.Relation

/-! Shortest paths. A search finds exactly the slots that some path leads to, each with the length
of a shortest one: its queue never holds slots of more than two neighbouring layers. -/
namespace AttackSurface

/-- An edge leads from one slot straight to the other. -/
def Leads (edges : List Edge) (direction : Direction) (slot next : Nat) : Prop :=
  ∃ edge ∈ edges, direction.start edge = slot ∧ direction.finish edge = next

/-- A path of so many edges. -/
inductive Path (edges : List Edge) (direction : Direction) (start : Nat) : Nat → Nat → Prop
  | here : Path edges direction start 0 start
  | onto {hops slot next} (h : Path edges direction start hops slot)
    (hnext : Leads edges direction slot next) : Path edges direction start (hops + 1) next

/-- A path of so many edges, where no path has fewer. -/
structure Shortest (edges : List Edge) (direction : Direction) (start hops slot : Nat) : Prop where
  path : Path edges direction start hops slot
  least : ∀ {fewer}, Path edges direction start fewer slot → hops ≤ fewer

variable {edges : List Edge} {direction : Direction} {start slot next hops fewer n : Nat}

/-! ## Paths -/

theorem leads_backward : Leads edges .backward slot next ↔ Leads edges .forward next slot :=
  exists_congr fun _ => and_congr_right fun _ => and_comm

theorem Path.from_next (hnext : Leads edges direction start next)
    (h : Path edges direction next hops slot) : Path edges direction start (hops + 1) slot := by
  induction h with
  | here => exact .onto .here hnext
  | onto _ hlast ih => exact ih.onto hlast

theorem path_backward :
    Path edges .backward start hops slot ↔ Path edges .forward slot hops start := by
  constructor
  · intro h
    induction h with
    | here => exact .here
    | onto _ hlast ih => exact ih.from_next (leads_backward.1 hlast)
  · intro h
    induction h with
    | here => exact .here
    | onto _ hlast ih => exact ih.from_next (leads_backward.2 hlast)

theorem exists_path_iff : (∃ hops, Path edges direction start hops slot) ↔
    Relation.ReflTransGen (Leads edges direction) start slot := by
  constructor
  · rintro ⟨hops, h⟩
    induction h with
    | here => exact .refl
    | onto _ hlast ih => exact ih.tail hlast
  · intro h
    induction h with
    | refl => exact ⟨0, .here⟩
    | tail _ hlast ih =>
      obtain ⟨hops, h⟩ := ih
      exact ⟨hops + 1, h.onto hlast⟩

theorem Path.exists_shortest (h : Path edges direction start hops slot) :
    ∃ least ≤ hops, Shortest edges direction start least slot := by
  classical
  have hex : ∃ hops, Path edges direction start hops slot := ⟨hops, h⟩
  exact ⟨Nat.find hex, Nat.find_min' hex h, Nat.find_spec hex, fun hfewer =>
    Nat.find_min' hex hfewer⟩

/-! ## The queue -/

namespace Search

theorem knows_iff {s : Search} : s.knows slot ↔ slot ∈ s.found.map (·.1) := by
  simp [knows]

theorem mem_nextFrom : next ∈ nextFrom edges direction slot ↔ Leads edges direction slot next := by
  simp [nextFrom, Leads, and_assoc]

/-- What was not found before is found and put into the queue once, and nothing else. -/
theorem foldl_meet (s : Search) (hops : Nat) (slots : List Nat) : ∃ fresh : List Nat,
    slots.foldl (meet hops) s =
      ⟨s.found ++ fresh.map (·, hops), s.queue ++ fresh.map (·, hops)⟩ ∧
    fresh.Nodup ∧ ∀ slot, slot ∈ fresh ↔ slot ∈ slots ∧ ¬ s.knows slot := by
  induction slots generalizing s with
  | nil => exact ⟨[], by simp⟩
  | cons first rest ih =>
    obtain ⟨fresh, hfold, hnodup, hmem⟩ := ih (s.meet hops first)
    rw [List.foldl_cons, hfold]
    simp only [knows_meet, Bool.or_eq_true, decide_eq_true_eq, not_or] at hmem
    by_cases hknown : s.knows first
    · refine ⟨fresh, by simp [meet, hknown], hnodup, fun slot => ?_⟩
      rw [hmem, List.mem_cons]
      grind
    · refine ⟨first :: fresh, by simp [meet, hknown], ?_, fun slot => ?_⟩
      · exact List.nodup_cons.2 ⟨fun hfirst => ((hmem first).1 hfirst).2.2 rfl, hnodup⟩
      · rw [List.mem_cons, List.mem_cons, hmem]
        grind

/-- The slots that are found when the edges of one slot are followed are one edge away from it. -/
theorem exists_follow (edges : List Edge) (direction : Direction) (found : List (Nat × Nat))
    (slot hops : Nat) (rest : List (Nat × Nat)) : ∃ fresh : List Nat,
    follow edges direction found slot hops rest =
      ⟨found ++ fresh.map (·, hops + 1), rest ++ fresh.map (·, hops + 1)⟩ ∧
    fresh.Nodup ∧
    ∀ next, next ∈ fresh ↔ Leads edges direction slot next ∧ next ∉ found.map (·.1) := by
  obtain ⟨fresh, hfollow, hnodup, hmem⟩ :=
    foldl_meet ⟨found, rest⟩ (hops + 1) (nextFrom edges direction slot)
  simp only [knows_iff, mem_nextFrom] at hmem
  exact ⟨fresh, hfollow, hnodup, hmem⟩

end Search

/-- A search from `start` that is under way. The queue runs from one layer into the next, and no
slot found is farther than that. So when the edges of a slot are followed, what was found before is
not farther than what is found now. -/
structure Searched (edges : List Edge) (direction : Direction) (start : Nat) (s : Search) :
    Prop where
  start_found : (start, 0) ∈ s.found
  path : ∀ {slot hops}, (slot, hops) ∈ s.found → Path edges direction start hops slot
  nodup : (s.found.map (·.1)).Nodup
  queue_subset : s.queue ⊆ s.found
  ascending : s.queue.Pairwise (·.2 ≤ ·.2)
  within : ∀ {head place}, head ∈ s.queue → place ∈ s.found → place.2 ≤ head.2 + 1
  followed : ∀ {slot hops next}, (slot, hops) ∈ s.found → (slot, hops) ∉ s.queue →
    Leads edges direction slot next → ∃ n ≤ hops + 1, (next, n) ∈ s.found

namespace Searched

variable {s : Search} {rest : List (Nat × Nat)}

theorem initial (edges : List Edge) (direction : Direction) (start : Nat) :
    Searched edges direction start ⟨[(start, 0)], [(start, 0)]⟩ where
  start_found := List.mem_singleton_self _
  path hfound := by
    cases List.mem_singleton.1 hfound
    exact .here
  nodup := List.nodup_singleton _
  queue_subset := List.Subset.refl _
  ascending := List.pairwise_singleton _ _
  within hhead hplace := by
    rw [List.mem_singleton.1 hhead, List.mem_singleton.1 hplace]
    exact Nat.zero_le _
  followed hfound hnot := absurd hfound hnot

section

variable {fresh : List Nat} (h : Searched edges direction start s)
  (hqueue : s.queue = (slot, hops) :: rest)

include h hqueue

theorem head_found : (slot, hops) ∈ s.found := h.queue_subset (hqueue ▸ List.mem_cons_self)

theorem rest_subset : rest ⊆ s.found := fun _ hplace =>
  h.queue_subset (hqueue ▸ List.mem_cons_of_mem _ hplace)

/-- No slot found is beyond the next layer. -/
theorem le_of_found {place : Nat × Nat} (hplace : place ∈ s.found) : place.2 ≤ hops + 1 :=
  h.within (hqueue ▸ List.mem_cons_self) hplace

theorem ascending_cons : (∀ place ∈ rest, hops ≤ place.2) ∧ rest.Pairwise (·.2 ≤ ·.2) := by
  have hascending := h.ascending
  rwa [hqueue, List.pairwise_cons] at hascending

/-- What the edges of the slot lead to is in the next layer at the latest. -/
theorem exists_next
    (hmem : ∀ next, next ∈ fresh ↔ Leads edges direction slot next ∧ next ∉ s.found.map (·.1))
    (hleads : Leads edges direction slot next) :
    ∃ n ≤ hops + 1, (next, n) ∈ s.found ++ fresh.map (·, hops + 1) := by
  by_cases hknown : next ∈ s.found.map (·.1)
  · obtain ⟨⟨_, n⟩, hnext, rfl⟩ := List.mem_map.1 hknown
    exact ⟨n, h.le_of_found hqueue hnext, List.mem_append_left _ hnext⟩
  · have hnext : next ∈ fresh := (hmem next).2 ⟨hleads, hknown⟩
    exact ⟨hops + 1, Nat.le_refl _, List.mem_append_right _ (List.mem_map_of_mem hnext)⟩

theorem follow :
    Searched edges direction start (Search.follow edges direction s.found slot hops rest) := by
  obtain ⟨fresh, hfollow, hfresh, hmem⟩ :=
    Search.exists_follow edges direction s.found slot hops rest
  obtain ⟨hhead, hrest⟩ := h.ascending_cons hqueue
  rw [hfollow]
  refine
    { start_found := List.mem_append_left _ h.start_found
      path := ?path
      nodup := ?nodup
      queue_subset := ?queue_subset
      ascending := ?ascending
      within := ?within
      followed := ?followed }
  case path =>
    intro found n hfound
    rcases List.mem_append.1 hfound with hold | hnew
    · exact h.path hold
    · obtain ⟨_, hnext, heq⟩ := List.mem_map.1 hnew
      cases heq
      exact (h.path (h.head_found hqueue)).onto ((hmem found).1 hnext).1
  case nodup =>
    have hkeys : (fresh.map (·, hops + 1)).map (·.1) = fresh := by simp [Function.comp_def]
    rw [List.map_append, hkeys, List.nodup_append]
    refine ⟨h.nodup, hfresh, fun old hold new hnew heq => ?_⟩
    exact ((hmem new).1 hnew).2 (heq ▸ hold)
  case queue_subset =>
    exact List.append_subset.2 ⟨fun _ hold => List.mem_append_left _ (h.rest_subset hqueue hold),
      List.subset_append_right _ _⟩
  case ascending =>
    refine List.pairwise_append.2 ⟨hrest, ?_, fun old hold new hnew => ?_⟩
    · exact List.pairwise_map.2 (List.pairwise_of_forall fun _ _ => Nat.le_refl _)
    · obtain ⟨_, -, rfl⟩ := List.mem_map.1 hnew
      exact h.le_of_found hqueue (h.rest_subset hqueue hold)
  case within =>
    -- The queue goes on from this layer, and what is found is not beyond the next one.
    intro head place hqueued hfound
    have hfrom : hops ≤ head.2 := by
      rcases List.mem_append.1 hqueued with hold | hnew
      · exact hhead head hold
      · obtain ⟨_, -, rfl⟩ := List.mem_map.1 hnew
        exact Nat.le_succ _
    have hupTo : place.2 ≤ hops + 1 := by
      rcases List.mem_append.1 hfound with hold | hnew
      · exact h.le_of_found hqueue hold
      · obtain ⟨_, -, rfl⟩ := List.mem_map.1 hnew
        exact Nat.le_refl _
    exact Nat.le_trans hupTo (Nat.succ_le_succ hfrom)
  case followed =>
    -- Either its edges were followed before, or they are those that are followed now.
    intro earlier n next hfound hnot hleads
    have hold : (earlier, n) ∈ s.found :=
      (List.mem_append.1 hfound).resolve_right fun hnew => hnot (List.mem_append_right _ hnew)
    by_cases hcurrent : (earlier, n) = (slot, hops)
    · cases hcurrent
      exact h.exists_next hqueue hmem hleads
    · have hdone : (earlier, n) ∉ s.queue := by
        rw [hqueue, List.mem_cons, not_or]
        exact ⟨hcurrent, fun hlater => hnot (List.mem_append_left _ hlater)⟩
      obtain ⟨m, hle, hnext⟩ := h.followed hold hdone hleads
      exact ⟨m, hle, List.mem_append_left _ hnext⟩

end

/-- When nothing is left in the queue, no path leads on from what was found. -/
theorem exists_found (h : Searched edges direction start s) (hdone : s.queue = [])
    (hpath : Path edges direction start hops slot) : ∃ n ≤ hops, (slot, n) ∈ s.found := by
  induction hpath with
  | here => exact ⟨0, Nat.le_refl _, h.start_found⟩
  | onto _ hlast ih =>
    obtain ⟨n, hle, hfound⟩ := ih
    obtain ⟨m, hm, hnext⟩ := h.followed hfound (by simp [hdone]) hlast
    exact ⟨m, Nat.le_trans hm (Nat.succ_le_succ hle), hnext⟩

theorem mem_found (h : Searched edges direction start s) (hdone : s.queue = []) :
    (slot, n) ∈ s.found ↔ Shortest edges direction start n slot := by
  constructor
  · intro hfound
    refine ⟨h.path hfound, fun hfewer => ?_⟩
    obtain ⟨m, hle, hother⟩ := h.exists_found hdone hfewer
    cases List.inj_on_of_nodup_map h.nodup hfound hother rfl
    exact hle
  · intro hshortest
    obtain ⟨m, hle, hfound⟩ := h.exists_found hdone hshortest.path
    rwa [Nat.le_antisymm hle (hshortest.least (h.path hfound))] at hfound

/-- A search goes on until nothing is left in its queue. -/
theorem exists_run (h : Searched edges direction start s) : ∃ last : Search,
    Searched edges direction start last ∧ last.queue = [] ∧
      s.run edges direction = last.found := by
  fun_induction Search.run edges direction s with
  | case1 s hdone => exact ⟨s, h, hdone, rfl⟩
  | case2 s slot hops rest hqueue ih => exact ih (h.follow hqueue)

end Searched

/-! ## Graphs -/

namespace CallGraph

variable {α : Type} {g : CallGraph α}

theorem reaches_backward : Relation.ReflTransGen (Leads g.edges .backward) start slot ↔
    Relation.ReflTransGen (Leads g.edges .forward) slot start := by
  simp only [← exists_path_iff, path_backward]

/-- The search finds all slots that a path leads to, and how far each of them is. -/
theorem mem_distances : (slot, n) ∈ g.distances direction start ↔
    Shortest g.edges direction start n slot := by
  obtain ⟨last, hlast, hdone, hrun⟩ := (Searched.initial g.edges direction start).exists_run
  rw [distances, hrun, hlast.mem_found hdone]

theorem mem_reach : slot ∈ g.reach direction start ↔
    Relation.ReflTransGen (Leads g.edges direction) start slot := by
  rw [← exists_path_iff, reach, List.mem_map]
  constructor
  · rintro ⟨⟨slot, n⟩, hfound, rfl⟩
    exact ⟨n, (mem_distances.1 hfound).path⟩
  · rintro ⟨hops, hpath⟩
    obtain ⟨n, -, hshortest⟩ := hpath.exists_shortest
    exact ⟨(slot, n), mem_distances.2 hshortest, rfl⟩

theorem nodup_reach (g : CallGraph α) (direction : Direction) (start : Nat) :
    (g.reach direction start).Nodup := by
  obtain ⟨last, hlast, -, hrun⟩ := (Searched.initial g.edges direction start).exists_run
  rw [reach, distances, hrun]
  exact hlast.nodup

namespace WellFormed

variable (h : g.WellFormed)

include h

theorem finish_mem_slots (direction : Direction) {edge : Edge} (he : edge ∈ g.edges) :
    direction.finish edge ∈ g.slots := by
  obtain ⟨hsource, htarget⟩ := h.edges_live edge he
  cases direction with
  | forward => exact htarget
  | backward => exact hsource

/-- What is reached from a node is a node. -/
theorem reach_subset (hstart : start ∈ g.slots) : g.reach direction start ⊆ g.slots := by
  intro slot hslot
  rcases (mem_reach.1 hslot).cases_tail with rfl | ⟨before, -, edge, he, -, rfl⟩
  · exact hstart
  · exact h.finish_mem_slots direction he

end WellFormed

end CallGraph

end AttackSurface
