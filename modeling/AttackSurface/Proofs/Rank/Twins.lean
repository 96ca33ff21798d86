import AttackSurface.Proofs.Rank.Invariance

/-! Nodes that everything calls alike. What comes along edges is the same at both, so that only the
restarts tell them apart: a node on the surface outranks one beneath it from the first step on. -/
namespace AttackSurface

namespace Chain

variable {n : Nat} {chain : Chain Rat n} {damping : Rat} {rank : Vector Rat n} {low high : Fin n}

/-- Every place sends the same share of what is there to both places along its edges. -/
def Twins (chain : Chain Rat n) (low high : Fin n) : Prop :=
  ∀ source, shareFrom (chain.incoming.get low) source = shareFrom (chain.incoming.get high) source

/-- What flows to twins differs at most by what starts anew. -/
theorem Twins.flow_le (twins : Twins chain low high)
    (hrestart : chain.restart.get low ≤ chain.restart.get high) (source : Fin n) :
    chain.flow source low ≤ chain.flow source high := by
  rw [flow, flow, twins source]
  apply add_le_add_right
  split
  · exact hrestart
  · exact le_rfl

namespace Stochastic

variable (h : chain.Stochastic) (twins : Twins chain low high)
  (hrestart : chain.restart.get low < chain.restart.get high)

include h twins hrestart

/-- Whatever the distribution was, a step leaves more at the twin that is restarted at more
often. -/
theorem step_lt (hpos : 0 ≤ damping) (hlt : damping < 1) (hrank : IsDistribution rank) :
    (chain.step damping rank).get low < (chain.step damping rank).get high := by
  rw [get_step h.dangling_nodup, get_step h.dangling_nodup]
  have hrestarts : (1 - damping) * chain.restart.get low < (1 - damping) * chain.restart.get high :=
    mul_lt_mul_of_pos_left hrestart (sub_pos.2 hlt)
  have hflow : ∑ source, rank.get source * chain.flow source low ≤
      ∑ source, rank.get source * chain.flow source high := by
    apply Finset.sum_le_sum
    intro source _
    exact mul_le_mul_of_nonneg_left (twins.flow_le hrestart.le source) (hrank.nonneg source)
  exact add_lt_add_of_lt_of_le hrestarts (mul_le_mul_of_nonneg_left hflow hpos)

theorem rankAfter_lt (hpos : 0 ≤ damping) (hlt : damping < 1) {steps : Nat} (hsteps : steps ≠ 0) :
    (chain.rankAfter damping steps).get low < (chain.rankAfter damping steps).get high := by
  obtain ⟨before, rfl⟩ := Nat.exists_eq_succ_of_ne_zero hsteps
  have hbefore := h.isDistribution_rankAfter low.pos hpos hlt.le before
  exact h.step_lt twins hrestart hpos hlt hbefore

end Stochastic

/-- A run that may make a step makes one. -/
theorem iterations_ne_zero {tolerance : Rat} {fuel : Nat} (hfuel : fuel ≠ 0)
    (start : Vector Rat n) :
    (chain.iterate damping tolerance fuel 0 start).iterations ≠ 0 := by
  have hgrows (fuel done : Nat) (rank : Vector Rat n) :
      done ≤ (chain.iterate damping tolerance fuel done rank).iterations := by
    induction fuel generalizing done rank with
    | zero => exact le_rfl
    | succ fuel ih =>
      rw [iterate]
      split
      · exact Nat.le_succ done
      · exact Nat.le_of_succ_le (ih (done + 1) _)
  obtain ⟨fuel, rfl⟩ := Nat.exists_eq_succ_of_ne_zero hfuel
  rw [iterate]
  split
  · exact Nat.one_ne_zero
  · exact Nat.ne_of_gt (hgrows fuel 1 _)

end Chain

namespace CallGraph

variable {β : Type} {g : CallGraph β} {params : RankParams Rat} {u v : Call}
  {source : Fin g.nodes.length}

/-- Is the call an entry or an exit point? -/
def isOnSurface (g : CallGraph β) (call : Call) : Bool :=
  g.hasMark call .entry || g.hasMark call .exit

namespace WellFormed

variable (h : g.WellFormed)

include h

theorem restartWeight_get (params : RankParams Rat) (place : Fin g.nodes.length) :
    params.restartWeight (g.nodes.get place) =
      if g.isOnSurface (g.nodes.get place).call then params.primary else params.secondary := by
  have hmark (mark : Mark) : g.hasMark (g.nodes.get place).call mark =
      (g.nodes.get place).attrs.marks.has mark := by
    rw [hasMark, h.attrs?_of_mem (List.get_mem _ place), Option.any_some]
  rw [RankParams.restartWeight, isOnSurface, hmark, hmark]
  rfl

theorem rankOf_get (params : RankParams Rat) (place : Fin g.nodes.length) :
    g.rankOf params (g.nodes.get place).call = .ok ((g.rankRun params).rank.get place) :=
  h.rankOf_eq_ok.2 (mem_rankTable.2 ⟨place, rfl, rfl⟩)

/-- Calls that every node weighs alike are twins of the walk. -/
theorem twins_chain (params : RankParams Rat) {low high : Fin g.nodes.length}
    (alike : ∀ call ∈ g.calls, g.linkWeight call (g.nodes.get low).call =
      g.linkWeight call (g.nodes.get high).call) :
    (g.chain params).Twins low high := by
  intro source
  have hweights : g.weightBetween source low = g.weightBetween source high := by
    rw [h.weightBetween_eq, h.weightBetween_eq]
    exact alike _ (List.mem_map_of_mem (List.get_mem _ source))
  rw [h.shareFrom_incoming, h.shareFrom_incoming, hweights]

/-- An entry or exit point has a higher rank than a node that is neither and that every node, among
them these two, weighs its edges to as it does those to the point. So it is whatever edges leave the
two, as soon as the walk has made a step, and wherever it stops. -/
theorem surface_outranks_interior (params : RankParams Rat)
    (hsecondary : 0 < params.secondary) (hprimary : params.secondary < params.primary)
    (hpos : 0 < params.damping) (hlt : params.damping < 1) (hlimit : 1 ≤ params.maxIterations)
    (hu : u ∈ g.calls) (hv : v ∈ g.calls) (hsurface : g.isOnSurface u)
    (hinterior : g.isOnSurface v = false)
    (alike : ∀ call ∈ g.calls, g.linkWeight call v = g.linkWeight call u) :
    ∃ low high, g.rankOf params v = .ok low ∧ g.rankOf params u = .ok high ∧ low < high := by
  obtain ⟨node, hnode, rfl⟩ := List.mem_map.1 hu
  obtain ⟨high, rfl⟩ := List.get_of_mem hnode
  obtain ⟨node, hnode', rfl⟩ := List.mem_map.1 hv
  obtain ⟨low, rfl⟩ := List.get_of_mem hnode'
  have hnonempty := List.ne_nil_of_mem hnode
  have htop := hsecondary.trans hprimary
  have hrestart : (g.chain params).restart.get low < (g.chain params).restart.get high := by
    have hlow := get_restartOf hnonempty htop hsecondary low
    have hhigh := get_restartOf hnonempty htop hsecondary high
    rw [h.restartWeight_get, hinterior] at hlow
    rw [h.restartWeight_get, hsurface] at hhigh
    have htotal := sum_restartWeight_pos hnonempty htop hsecondary
    calc (g.restartOf params).get low
      _ = params.secondary / (g.nodes.map params.restartWeight).sum := hlow
      _ < params.primary / (g.nodes.map params.restartWeight).sum :=
        div_lt_div_of_pos_right hprimary htotal
      _ = (g.restartOf params).get high := hhigh.symm
  have hmoved : (g.rankRun params).iterations ≠ 0 :=
    Chain.iterations_ne_zero (Nat.one_le_iff_ne_zero.1 hlimit) _
  refine ⟨_, _, h.rankOf_get params low, h.rankOf_get params high, ?_⟩
  rw [(ends_rankRun g params).rank_eq]
  exact (h.stochastic_chain hnonempty htop hsecondary).rankAfter_lt (h.twins_chain params alike)
    hrestart hpos.le hlt hmoved

end WellFormed

/-- A function that calls two others, one of which sends data out and calls nothing, while the
other calls itself and its twin. -/
def twinCalls : CallGraph Rat :=
  (((((empty.addNode { name := "log" } { marks := { exit := true } }).addEdge { name := "main" }
    { name := "log" } { weight := some 3 }).addEdge { name := "main" } { name := "tidy" }
      { weight := some 3 }).addEdge { name := "tidy" } { name := "tidy" }).addEdge
        { name := "tidy" } { name := "log" } { weight := some 1 })

theorem built_twinCalls : Built twinCalls :=
  .addEdge (.addEdge (.addEdge (.addEdge (.addNode (.empty "") _ _) _ _ _) _ _ _) _ _ _) _ _ _

/-- The parameters of a walk that stops after its first step. -/
def oneStep : RankParams Rat := { RankParams.standard with maxIterations := 1 }

theorem log_outranks_tidy : twinCalls.WellFormed ∧ 0 < oneStep.secondary ∧
    oneStep.secondary < oneStep.primary ∧ 0 < oneStep.damping ∧ oneStep.damping < 1 ∧
    1 ≤ oneStep.maxIterations ∧ twinCalls.isOnSurface { name := "log" } ∧
    twinCalls.isOnSurface { name := "tidy" } = false ∧
    (∀ call ∈ twinCalls.calls,
      twinCalls.linkWeight call { name := "tidy" } = twinCalls.linkWeight call { name := "log" }) ∧
    ∃ low high, twinCalls.rankOf oneStep { name := "tidy" } = .ok low ∧
      twinCalls.rankOf oneStep { name := "log" } = .ok high ∧ low < high := by
  have hsurface : twinCalls.isOnSurface { name := "log" } := by decide
  have hinterior : twinCalls.isOnSurface { name := "tidy" } = false := by decide
  have alike : ∀ call ∈ twinCalls.calls, twinCalls.linkWeight call { name := "tidy" } =
      twinCalls.linkWeight call { name := "log" } := by
    decide
  obtain ⟨-, hsecondary, hpos, hlt⟩ := standard_positive
  have hprimary : oneStep.secondary < oneStep.primary := by norm_num [oneStep, RankParams.standard]
  exact ⟨built_twinCalls.wellFormed, hsecondary, hprimary, hpos, hlt, le_rfl, hsurface, hinterior,
    alike, built_twinCalls.wellFormed.surface_outranks_interior oneStep hsecondary hprimary hpos hlt
      le_rfl (by decide) (by decide) hsurface hinterior alike⟩

end CallGraph

end AttackSurface
