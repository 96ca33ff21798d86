import AttackSurface.Proofs.Graph.Built
import AttackSurface.Proofs.Rank.Chain

/-! Ranks of a call graph with exact numbers. Every edge leads to exactly one place, so that the
walk over a well-formed graph is stochastic, whatever its edges weigh, and its ranks converge. -/
namespace AttackSurface.CallGraph

variable {β : Type} {g : CallGraph β} {params : RankParams Rat} {edge : Edge} {slot : Nat}
  {source target : Fin g.nodes.length}

/-! ## Sums over edges -/

theorem sum_map_filterMap {σ τ : Type} (f : σ → Option τ) (weigh : τ → Rat) (xs : List σ) :
    ((xs.filterMap f).map weigh).sum = (xs.map fun x => ((f x).map weigh).getD 0).sum := by
  induction xs with
  | nil => rfl
  | cons x rest ih => cases hx : f x <;> simp [hx, ih]

theorem sum_map_filter {σ : Type} (p : σ → Bool) (weigh : σ → Rat) (xs : List σ) :
    ((xs.filter p).map weigh).sum = (xs.map fun x => if p x then weigh x else 0).sum := by
  induction xs with
  | nil => rfl
  | cons x rest ih => cases hx : p x <;> simp [hx, ih]

theorem sum_places_sum_map {σ : Type} (f : Fin g.nodes.length → σ → Rat) (xs : List σ) :
    ∑ place, (xs.map (f place)).sum = (xs.map fun x => ∑ place, f place x).sum := by
  induction xs with
  | nil => simp
  | cons x rest ih => simp only [List.map_cons, List.sum_cons, Finset.sum_add_distrib, ih]

/-! ## Places -/

theorem exists_place (hs : slot ∈ g.slots) :
    ∃ place : Fin g.nodes.length, (g.nodes.get place).slot = slot := by
  obtain ⟨node, hn, rfl⟩ := mem_slots.1 hs
  obtain ⟨i, hi, rfl⟩ := List.getElem_of_mem hn
  exact ⟨⟨i, hi⟩, rfl⟩

namespace WellFormed

variable (h : g.WellFormed)

include h

theorem eq_of_place (hs : (g.nodes.get source).slot = (g.nodes.get target).slot) :
    source = target := by
  have hnode := h.eq_of_slot (List.getElem_mem source.isLt) (List.getElem_mem target.isLt) hs
  have hnodup : g.nodes.Nodup := h.nodeSlots.nodup.of_map _
  exact Fin.ext ((hnodup.getElem_inj_iff).1 hnode)

theorem place?_eq_some : g.place? slot = some source ↔ (g.nodes.get source).slot = slot := by
  rw [place?, List.findFinIdx?_eq_some_iff, decide_eq_true_eq]
  constructor
  · exact And.left
  · intro hs
    refine ⟨hs, fun earlier hlt hslot => ?_⟩
    exact hlt.ne (h.eq_of_place ((of_decide_eq_true hslot).trans hs.symm))

/-- An edge leads to one place. -/
theorem sum_targets (he : edge ∈ g.edges) (weight : Rat) :
    ∑ place : Fin g.nodes.length, (if edge.target = (g.nodes.get place).slot then weight else 0) =
      weight := by
  obtain ⟨place, hplace⟩ := exists_place (h.edges_live edge he).2
  have honly (other : Fin g.nodes.length) :
      edge.target = (g.nodes.get other).slot ↔ other = place := by
    constructor
    · exact fun hother => h.eq_of_place (hother.symm.trans hplace.symm)
    · rintro rfl
      exact hplace.symm
  simp only [honly, Finset.sum_ite_eq', Finset.mem_univ, if_true]

end WellFormed

/-! ## The walk over a graph -/

/-- What the edges from one place to another weigh. -/
def weightBetween (g : CallGraph β) (source target : Fin g.nodes.length) : Rat :=
  (g.edges.map fun edge =>
    if edge.target = (g.nodes.get target).slot then
      if edge.source = (g.nodes.get source).slot then walkWeight edge else 0
    else 0).sum

/-- What the edges out of a place weigh together. -/
def outgoing (g : CallGraph β) (source : Fin g.nodes.length) : Rat :=
  ((g.edgesFrom (g.nodes.get source).slot).map walkWeight).sum

theorem walkWeight_nonneg (edge : Edge) : (0 : Rat) ≤ walkWeight edge := Nat.cast_nonneg _

theorem outgoing_nonneg : 0 ≤ g.outgoing source := by
  refine List.sum_nonneg fun weight hweight => ?_
  obtain ⟨edge, -, rfl⟩ := List.mem_map.1 hweight
  exact walkWeight_nonneg edge

theorem get_outgoingWeights :
    (g.outgoingWeights : Vector Rat _).get source = g.outgoing source := by
  rw [outgoingWeights, Vector.get_ofFn, Scalar.sum_rat, outgoing]
  rfl

theorem mem_dangling : source ∈ (g.chain params).dangling ↔ ¬ 0 < g.outgoing source := by
  rw [← get_outgoingWeights]
  refine List.mem_filter.trans ?_
  simp only [List.mem_finRange, true_and, Bool.not_eq_true', ← Bool.not_eq_true]
  exact not_congr decide_eq_true_iff

/-- The place that an edge comes from, and the share of what is there that it takes along. -/
def link? (g : CallGraph β) (edge : Edge) : Option (Fin g.nodes.length × Rat) :=
  (g.place? edge.source).bind fun source =>
    if 0 < g.outgoing source then some (source, walkWeight edge / g.outgoing source) else none

theorem incoming_chain : (g.chain params).incoming.get target =
    (sortedBy (fun a b => decide (a.source ≤ b.source))
      (g.edgesTo (g.nodes.get target).slot)).filterMap g.link? := by
  refine (Vector.get_ofFn _ target).trans (List.filterMap_congr fun edge _ => ?_)
  refine congrArg (Option.bind _) (funext fun source => ?_)
  rw [← get_outgoingWeights]
  exact if_congr decide_eq_true_iff rfl rfl

theorem link?_nonneg {link : Fin g.nodes.length × Rat} (hlink : g.link? edge = some link) :
    0 ≤ link.2 := by
  obtain ⟨source, -, hsource⟩ := Option.bind_eq_some_iff.1 hlink
  split at hsource
  · cases hsource
    exact div_nonneg (walkWeight_nonneg edge) outgoing_nonneg
  · cases hsource

namespace WellFormed

variable (h : g.WellFormed)

include h

/-- What an edge takes along from a place. -/
theorem getD_link? (source : Fin g.nodes.length) (edge : Edge) :
    ((g.link? edge).map fun link => if link.1 = source then link.2 else 0).getD 0 =
      if edge.source = (g.nodes.get source).slot then
        if 0 < g.outgoing source then walkWeight edge / g.outgoing source else 0
      else 0 := by
  simp only [eq_comm (a := edge.source), ← h.place?_eq_some, link?]
  cases hplace : g.place? edge.source with
  | none => simp
  | some place =>
    by_cases hs : place = source
    · subst hs
      by_cases hpos : 0 < g.outgoing place <;> simp [hpos]
    · by_cases hpos : 0 < g.outgoing place <;> simp [hpos, hs]

/-- The edges out of a place are those to each of the places. -/
theorem sum_weightBetween (source : Fin g.nodes.length) :
    ∑ target, g.weightBetween source target = g.outgoing source := by
  have htargets : (g.edges.map fun edge => ∑ target : Fin g.nodes.length,
      if edge.target = (g.nodes.get target).slot then
        if edge.source = (g.nodes.get source).slot then (walkWeight edge : Rat) else 0
      else 0) = g.edges.map fun edge =>
        if edge.source = (g.nodes.get source).slot then (walkWeight edge : Rat) else 0 :=
    List.map_congr_left fun edge he => h.sum_targets he _
  simp only [weightBetween, sum_places_sum_map, htargets]
  rw [outgoing, edgesFrom, sum_map_filter]
  simp only [decide_eq_true_eq]

/-- A place that some weight leads out of sends along its edges what they weigh of the whole, any
other place nothing. -/
theorem shareFrom_incoming (source target : Fin g.nodes.length) :
    Chain.shareFrom ((g.chain params).incoming.get target) source =
      if 0 < g.outgoing source then g.weightBetween source target / g.outgoing source else 0 := by
  rw [Chain.shareFrom, incoming_chain, sum_map_filterMap, ((sortedBy_perm _ _).map _).sum_eq,
    edgesTo, sum_map_filter]
  simp only [h.getD_link?, decide_eq_true_eq]
  split
  · rename_i hpos
    rw [div_eq_mul_inv, weightBetween, ← List.sum_map_mul_right]
    simp only [ite_mul, zero_mul, div_eq_mul_inv]
  · simp

theorem sum_incoming (source : Fin g.nodes.length) :
    ∑ target, Chain.shareFrom ((g.chain params).incoming.get target) source =
      if 0 < g.outgoing source then 1 else 0 := by
  simp only [h.shareFrom_incoming]
  split
  · rename_i hpos
    rw [← Finset.sum_div, h.sum_weightBetween]
    exact div_self hpos.ne'
  · simp

end WellFormed

/-! ## The restart distribution -/

theorem restartWeight_pos (hprimary : 0 < params.primary) (hsecondary : 0 < params.secondary)
    (node : Node β) : 0 < params.restartWeight node := by
  unfold RankParams.restartWeight
  split
  · exact hprimary
  · exact hsecondary

theorem sum_restartWeight_pos (hnonempty : g.nodes ≠ []) (hprimary : 0 < params.primary)
    (hsecondary : 0 < params.secondary) : 0 < (g.nodes.map params.restartWeight).sum := by
  refine List.sum_pos _ (fun weight hweight => ?_) (by simpa using hnonempty)
  obtain ⟨node, -, rfl⟩ := List.mem_map.1 hweight
  exact restartWeight_pos hprimary hsecondary node

theorem get_restartOf_eq_ite (g : CallGraph β) (params : RankParams Rat)
    (place : Fin g.nodes.length) : (g.restartOf params).get place =
      if 0 < (g.nodes.map params.restartWeight).sum then
        params.restartWeight (g.nodes.get place) / (g.nodes.map params.restartWeight).sum
      else 1 / (g.nodes.length : Rat) := by
  have hsum : Scalar.sum (g.nodes.map params.restartWeight) =
      (g.nodes.map params.restartWeight).sum := Scalar.sum_rat _
  have hpositive : (Scalar.less (Scalar.ofNat 0) (g.nodes.map params.restartWeight).sum &&
      Scalar.isFinite (g.nodes.map params.restartWeight).sum) =
        decide (0 < (g.nodes.map params.restartWeight).sum) := Bool.and_true _
  simp only [restartOf, hsum, hpositive, decide_eq_true_eq]
  split
  · rw [Vector.get_ofFn]
    rfl
  · rw [Chain.uniform, Vector.get_replicate]
    rfl

theorem get_restartOf (hnonempty : g.nodes ≠ []) (hprimary : 0 < params.primary)
    (hsecondary : 0 < params.secondary) (place : Fin g.nodes.length) :
    (g.restartOf params).get place =
      params.restartWeight (g.nodes.get place) / (g.nodes.map params.restartWeight).sum := by
  rw [get_restartOf_eq_ite, if_pos (sum_restartWeight_pos hnonempty hprimary hsecondary)]

theorem isDistribution_restartOf (hnonempty : g.nodes ≠ []) (hprimary : 0 < params.primary)
    (hsecondary : 0 < params.secondary) : Chain.IsDistribution (g.restartOf params) := by
  have htotal := sum_restartWeight_pos hnonempty hprimary hsecondary
  have hplace := get_restartOf hnonempty hprimary hsecondary
  constructor
  · intro place
    rw [hplace]
    exact div_nonneg (restartWeight_pos hprimary hsecondary _).le htotal.le
  · have hweights : ∑ place : Fin g.nodes.length, params.restartWeight (g.nodes.get place) =
        (g.nodes.map params.restartWeight).sum :=
      Fin.sum_univ_fun_getElem g.nodes params.restartWeight
    simp only [hplace, div_eq_mul_inv, ← Finset.sum_mul, hweights]
    exact mul_inv_cancel₀ htotal.ne'

/-- Whatever its edges weigh, the walk over a graph is stochastic. -/
theorem WellFormed.stochastic_chain (h : g.WellFormed) (hnonempty : g.nodes ≠ [])
    (hprimary : 0 < params.primary) (hsecondary : 0 < params.secondary) :
    (g.chain params).Stochastic where
  restart := isDistribution_restartOf hnonempty hprimary hsecondary
  share_nonneg target link hlink := by
    rw [incoming_chain] at hlink
    obtain ⟨edge, -, hedge⟩ := List.mem_filterMap.1 hlink
    exact link?_nonneg hedge
  dangling_nodup := (List.nodup_finRange _).filter _
  sum_flow source := by
    have hrestart : ∑ target : Fin g.nodes.length, (g.chain params).restart.get target = 1 :=
      (isDistribution_restartOf hnonempty hprimary hsecondary).sum_eq_one
    simp only [Chain.flow, Finset.sum_add_distrib, h.sum_incoming, mem_dangling]
    by_cases hpos : 0 < g.outgoing source
    · simp [hpos]
    · simpa [hpos] using hrestart

/-! ## Convergence -/

theorem ends_rankRun (g : CallGraph β) (params : RankParams Rat) :
    (g.rankRun params).Ends (g.chain params) params.damping params.tolerance 0
      params.maxIterations := by
  have hrun := Chain.ends_iterate (g.chain params) params.damping params.tolerance
    params.maxIterations 0
  rwa [Nat.zero_add] at hrun

theorem standard_converges {damping : Rat} (hdamping : damping = 0.85) :
    2 * damping ^ 99 < (1e-6 : Rat) := by
  rw [hdamping]
  norm_num

/-- The change that a step measures is at most twice the damping factor to the number of steps
before, so the standard parameters always lead to a change below the tolerance in time. A rank that
was found so is as close to every fixed point of the step as the tolerance promises. -/
theorem WellFormed.rankRun_converges (h : g.WellFormed) (hnonempty : g.nodes ≠ [])
    (params : RankParams Rat) (hprimary : 0 < params.primary) (hsecondary : 0 < params.secondary)
    (hpos : 0 < params.damping) (hlt : params.damping < 1) :
    (g.rankRun params).Ends (g.chain params) params.damping params.tolerance 0
      params.maxIterations ∧
    (∀ steps, (g.chain params).changeAfter params.damping steps ≤ 2 * params.damping ^ steps) ∧
    (params.damping = RankParams.standard.damping →
      params.tolerance = RankParams.standard.tolerance →
      params.maxIterations = (RankParams.standard : RankParams Rat).maxIterations →
      (g.rankRun params).converged) ∧
    ((g.rankRun params).converged → ∀ fixed, (g.chain params).step params.damping fixed = fixed →
      Chain.change (g.rankRun params).rank fixed ≤
        params.damping * params.tolerance / (1 - params.damping)) := by
  have hchain := h.stochastic_chain hnonempty hprimary hsecondary
  have hsmaller := hchain.changeAfter_le (List.length_pos_of_ne_nil hnonempty) hpos.le hlt.le
  have hends := ends_rankRun g params
  refine ⟨hends, hsmaller, fun hdamping htolerance hlimit => ?_, fun hconverged fixed hfixed => ?_⟩
  · rw [hends.converged_iff, hlimit, htolerance]
    exact ⟨99, Nat.zero_le _, by decide, (hsmaller 99).trans_lt (standard_converges hdamping)⟩
  · obtain ⟨steps, hsteps, hchange⟩ := hends.last hconverged
    rw [hends.rank_eq, hsteps]
    calc Chain.change ((g.chain params).rankAfter params.damping (steps + 1)) fixed
      _ ≤ params.damping * (g.chain params).changeAfter params.damping steps /
            (1 - params.damping) := hchain.change_fixed_le hpos.le hlt hfixed steps
      _ ≤ params.damping * params.tolerance / (1 - params.damping) :=
        div_le_div_of_nonneg_right (mul_le_mul_of_nonneg_left hchange.le hpos.le)
          (sub_pos.2 hlt).le

theorem standard_positive : (0 : Rat) < (RankParams.standard : RankParams Rat).primary ∧
    (0 : Rat) < (RankParams.standard : RankParams Rat).secondary ∧
    (0 : Rat) < (RankParams.standard : RankParams Rat).damping ∧
    (RankParams.standard : RankParams Rat).damping < 1 := by
  norm_num [RankParams.standard]

/-- A loop of two calls, one of which is counted, and a call that leads nowhere. -/
def weightedLoop : CallGraph Rat :=
  ((empty.addEdge { name := "main" } { name := "f" } { weight := some 3 }).addEdge
    { name := "f" } { name := "main" }).addEdge { name := "f" } { name := "exit" }

theorem built_weightedLoop : Built weightedLoop :=
  (((Built.empty "").addEdge _ _ _).addEdge _ _ _).addEdge _ _ _

theorem weightedLoop_converges : weightedLoop.nodes ≠ [] ∧
    (weightedLoop.rankRun (RankParams.standard : RankParams Rat)).converged := by
  obtain ⟨hprimary, hsecondary, hpos, hlt⟩ := standard_positive
  have hnonempty : weightedLoop.nodes ≠ [] := by decide
  obtain ⟨-, -, hstandard, -⟩ := built_weightedLoop.wellFormed.rankRun_converges hnonempty
    RankParams.standard hprimary hsecondary hpos hlt
  exact ⟨hnonempty, hstandard rfl rfl rfl⟩

end AttackSurface.CallGraph
