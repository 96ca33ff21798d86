import AttackSurface.Proofs.Rank.Convergence
import AttackSurface.Proofs.Scores

/-! Ranks as probabilities. However long a walk goes on, the rank is a distribution over the nodes,
and the restarts leave something at every node. -/
namespace AttackSurface

/-! ## Scores -/

theorem NodeAttrs.get?_setScore {α : Type} (attrs : NodeAttrs α) (name : String) (value : α) :
    (attrs.setScore name value).scores.get? name = some value :=
  (attrs.scores.get?_set name name value).trans (if_pos rfl)

/-! ## Places with some probability -/

namespace Chain

variable {n : Nat} {chain : Chain Rat n} {damping : Rat} {rank : Vector Rat n}

theorem sum_toList (rank : Vector Rat n) : rank.toList.sum = ∑ place, rank.get place := by
  have hlist : rank.toList = List.ofFn rank.get := by
    apply List.ext_getElem
    · simp
    · intro place _ _
      simp [Vector.get_eq_getElem]
  rw [hlist, List.sum_ofFn]

theorem uniform_pos (place : Fin n) : 0 < (uniform Rat n).get place := by
  have hn : (0 : Rat) < n := Nat.cast_pos.2 place.pos
  have hplace : (uniform Rat n).get place = 1 / n := by
    rw [uniform, Vector.get_replicate]
    rfl
  rw [hplace]
  exact one_div_pos.2 hn

namespace Stochastic

variable (h : chain.Stochastic) (restarts : ∀ place, 0 < chain.restart.get place)

include h restarts

/-- What starts anew reaches every place. -/
theorem step_pos (hpos : 0 ≤ damping) (hlt : damping < 1) (hrank : IsDistribution rank)
    (target : Fin n) : 0 < (chain.step damping rank).get target := by
  rw [get_step h.dangling_nodup]
  have hrestart : 0 < (1 - damping) * chain.restart.get target :=
    mul_pos (sub_pos.2 hlt) (restarts target)
  have hflow : 0 ≤ ∑ source, rank.get source * chain.flow source target := by
    apply Finset.sum_nonneg
    intro source _
    exact mul_nonneg (hrank.nonneg source) (h.flow_nonneg source target)
  exact add_pos_of_pos_of_nonneg hrestart (mul_nonneg hpos hflow)

theorem rankAfter_pos (hpos : 0 ≤ damping) (hlt : damping < 1) (steps : Nat) (place : Fin n) :
    0 < (chain.rankAfter damping steps).get place := by
  cases steps with
  | zero => exact uniform_pos place
  | succ steps =>
    exact h.step_pos restarts hpos hlt
      (h.isDistribution_rankAfter place.pos hpos hlt.le steps) place

end Stochastic

end Chain

/-! ## Ranks of a graph -/

namespace CallGraph

section

variable {β : Type} {g : CallGraph β} {params : RankParams Rat}

theorem restartOf_pos (hnonempty : g.nodes ≠ []) (hprimary : 0 < params.primary)
    (hsecondary : 0 < params.secondary) (place : Fin g.nodes.length) :
    0 < (g.restartOf params).get place := by
  rw [get_restartOf hnonempty hprimary hsecondary]
  exact div_pos (restartWeight_pos hprimary hsecondary _)
    (sum_restartWeight_pos hnonempty hprimary hsecondary)

theorem map_fst_ranks (g : CallGraph β) (params : RankParams Rat) :
    (g.ranks params).map (·.1) = g.calls := by
  apply List.map_fst_zip
  simp

theorem map_snd_ranks (g : CallGraph β) (params : RankParams Rat) :
    (g.ranks params).map (·.2) = (g.rankRun params).rank.toList := by
  apply List.map_snd_zip
  simp

theorem mem_ranks {ranked : Call × Rat} : ranked ∈ g.ranks params ↔
    ∃ node, (node, ranked.2) ∈ g.nodes.zip (g.rankRun params).rank.toList ∧
      node.call = ranked.1 := by
  rw [ranks, List.zip_map_left, List.mem_map]
  constructor
  · rintro ⟨⟨node, rank⟩, hmem, rfl⟩
    exact ⟨node, hmem, rfl⟩
  · rintro ⟨node, hmem, hcall⟩
    exact ⟨(node, ranked.2), hmem, Prod.ext hcall rfl⟩

end

variable {g : CallGraph Rat}

theorem WellFormed.attrs?_assignRanks (h : g.WellFormed) (params : RankParams Rat) (name : String)
    {ranked : Call × Rat} (hranked : ranked ∈ g.ranks params) :
    (g.assignRanks params name).attrs? ranked.1 =
      (g.attrs? ranked.1).map fun attrs => attrs.setScore name ranked.2 := by
  obtain ⟨node, hmem, hcall⟩ := mem_ranks.1 hranked
  have hassigned : { node with attrs := node.attrs.setScore name ranked.2 } ∈
      (g.assignRanks params name).nodes := List.mem_map.2 ⟨_, hmem, rfl⟩
  have hnew := (h.assignRanks params name).attrs?_of_mem hassigned
  rw [← hcall, h.attrs?_of_mem (List.of_mem_zip hmem).1]
  exact hnew

/-- Every node has one rank, which is a probability above zero, and together they are one. So it is
after any number of steps, whatever the edges weigh and whenever the walk stops. The score that is
assigned to a node is its rank. -/
theorem WellFormed.ranks_probabilities (h : g.WellFormed) (hnonempty : g.nodes ≠ [])
    (params : RankParams Rat) (hprimary : 0 < params.primary) (hsecondary : 0 < params.secondary)
    (hpos : 0 < params.damping) (hlt : params.damping < 1) :
    (g.ranks params).map (·.1) = g.calls ∧ g.identities.Nodup ∧
    (∀ ranked ∈ g.ranks params, 0 < ranked.2) ∧
    ((g.ranks params).map (·.2)).sum = 1 ∧
    (∀ steps, Chain.IsDistribution ((g.chain params).rankAfter params.damping steps) ∧
      ∀ place, 0 < ((g.chain params).rankAfter params.damping steps).get place) ∧
    ∀ name, ∀ ranked ∈ g.ranks params,
      (g.assignRanks params name).attrs? ranked.1 =
        (g.attrs? ranked.1).map (fun attrs => attrs.setScore name ranked.2) ∧
      ((g.assignRanks params name).attrs? ranked.1).bind (·.scores.get? name) = some ranked.2 := by
  have hchain := h.stochastic_chain hnonempty hprimary hsecondary
  have hrestarts := restartOf_pos hnonempty hprimary hsecondary
  have hsteps (steps : Nat) :
      Chain.IsDistribution ((g.chain params).rankAfter params.damping steps) ∧
        ∀ place, 0 < ((g.chain params).rankAfter params.damping steps).get place :=
    ⟨hchain.isDistribution_rankAfter (List.length_pos_of_ne_nil hnonempty) hpos.le hlt.le steps,
      hchain.rankAfter_pos hrestarts hpos.le hlt steps⟩
  obtain ⟨hdistribution, hpositive⟩ := hsteps (g.rankRun params).iterations
  rw [← (ends_rankRun g params).rank_eq] at hdistribution hpositive
  refine ⟨map_fst_ranks g params, h.nodup_identities, ?_, ?_, hsteps, ?_⟩
  · intro ranked hranked
    have hrank : ranked.2 ∈ (g.rankRun params).rank.toList :=
      map_snd_ranks g params ▸ List.mem_map_of_mem hranked
    obtain ⟨place, hplace, hget⟩ := List.getElem_of_mem hrank
    rw [← hget]
    exact hpositive ⟨place, by simpa using hplace⟩
  · rw [map_snd_ranks, Chain.sum_toList]
    exact hdistribution.sum_eq_one
  · intro name ranked hranked
    have hattrs := h.attrs?_assignRanks params name hranked
    refine ⟨hattrs, ?_⟩
    obtain ⟨node, hmem, hcall⟩ := mem_ranks.1 hranked
    rw [hattrs, ← hcall, h.attrs?_of_mem (List.of_mem_zip hmem).1]
    exact NodeAttrs.get?_setScore _ _ _

/-- A call that weighs nothing, so that its caller leads nowhere, and a function that calls
itself. -/
def zeroWeighted : CallGraph Rat :=
  ((empty.addEdge { name := "main" } { name := "f" } { weight := some 0 }).addEdge
    { name := "f" } { name := "f" }).addEdge { name := "f" } { name := "g" } { weight := some 7 }

theorem built_zeroWeighted : Built zeroWeighted :=
  (((Built.empty "").addEdge _ _ _).addEdge _ _ _).addEdge _ _ _

theorem ranks_of_zeroWeighted :
    Built zeroWeighted ∧ zeroWeighted.nodes ≠ [] ∧
    ((zeroWeighted.ranks (RankParams.standard : RankParams Rat)).map (·.1.name)) =
      ["main", "f", "g"] ∧
    ((zeroWeighted.ranks (RankParams.standard : RankParams Rat)).map (·.2)).sum = 1 ∧
    ∀ ranked ∈ zeroWeighted.ranks (RankParams.standard : RankParams Rat), 0 < ranked.2 ∧
      ((zeroWeighted.assignRanks RankParams.standard "page_rank").attrs? ranked.1).bind
        (·.scores.get? "page_rank") = some ranked.2 := by
  obtain ⟨hprimary, hsecondary, hpos, hlt⟩ := standard_positive
  have hnonempty : zeroWeighted.nodes ≠ [] := by decide
  obtain ⟨hcalls, -, hpositive, hsum, -, hscores⟩ :=
    built_zeroWeighted.wellFormed.ranks_probabilities hnonempty RankParams.standard hprimary
      hsecondary hpos hlt
  refine ⟨built_zeroWeighted, hnonempty, ?_, hsum, ?_⟩
  · have hnames : zeroWeighted.calls.map (·.name) = ["main", "f", "g"] := by decide
    rw [← hnames, ← hcalls, List.map_map]
    rfl
  · intro ranked hranked
    exact ⟨hpositive ranked hranked, (hscores "page_rank" ranked hranked).2⟩

end CallGraph

end AttackSurface
