import AttackSurface.Proofs.Rank.Distribution
import AttackSurface.Surface

/-! What ranks depend on. Two walks that send the same shares between paired places stay alike step
by step, in whatever order their places and links are listed. The shares come from the proportions
of the weights alone, so the ranks of a graph are a matter of its nodes, its surface and its
weighted edges. -/
namespace AttackSurface

/-! ## Walks over paired places -/

namespace Chain

variable {n m : Nat} {pairing : Fin n ≃ Fin m} {chain : Chain Rat n} {other : Chain Rat m}
  {damping tolerance : Rat} {rank next : Vector Rat n} {rank' next' : Vector Rat m}

/-- Paired places have the same value. -/
def Agree (pairing : Fin n ≃ Fin m) (rank : Vector Rat n) (rank' : Vector Rat m) : Prop :=
  ∀ place, rank'.get (pairing place) = rank.get place

/-- Paired places are restarted at alike, and send each other the same shares. -/
structure Alike (pairing : Fin n ≃ Fin m) (chain : Chain Rat n) (other : Chain Rat m) : Prop where
  restart : Agree pairing chain.restart other.restart
  flow : ∀ source target,
    other.flow (pairing source) (pairing target) = chain.flow source target
  dangling_nodup : chain.dangling.Nodup
  dangling_nodup' : other.dangling.Nodup

/-- Two runs that ended alike. -/
structure Run.Agrees (pairing : Fin n ≃ Fin m) (run : Run Rat n) (other : Run Rat m) : Prop where
  rank : Agree pairing run.rank other.rank
  iterations : other.iterations = run.iterations
  converged : other.converged = run.converged

theorem agree_uniform (pairing : Fin n ≃ Fin m) :
    Agree pairing (uniform Rat n) (uniform Rat m) := by
  have hsize : n = m := by simpa using Fintype.card_congr pairing
  intro place
  simp only [uniform, Vector.get_replicate, hsize]

theorem Agree.change (h : Agree pairing rank rank') (hnext : Agree pairing next next') :
    change next' rank' = change next rank := by
  rw [change_rat, change_rat, ← pairing.sum_comp]
  exact Finset.sum_congr rfl fun place _ => by rw [h, hnext]

theorem Alike.step (h : Alike pairing chain other) (hrank : Agree pairing rank rank') :
    Agree pairing (chain.step damping rank) (other.step damping rank') := by
  intro target
  rw [get_step h.dangling_nodup, get_step h.dangling_nodup', ← pairing.sum_comp, h.restart]
  simp only [h.flow, hrank _]

theorem Alike.iterate (h : Alike pairing chain other) (hrank : Agree pairing rank rank')
    (fuel done : Nat) : (chain.iterate damping tolerance fuel done rank).Agrees pairing
      (other.iterate damping tolerance fuel done rank') := by
  induction fuel generalizing done rank rank' with
  | zero => exact ⟨hrank, rfl, rfl⟩
  | succ fuel ih =>
    have hstep : Agree pairing (chain.step damping rank) (other.step damping rank') :=
      h.step hrank
    unfold Chain.iterate
    simp only [hrank.change hstep]
    split
    · exact ⟨hstep, rfl, rfl⟩
    · exact ih hstep (done + 1)

end Chain

/-- Both weights of the restart, so many times as large. -/
def RankParams.scaleRestart (params : RankParams Rat) (factor : Rat) : RankParams Rat :=
  { params with primary := factor * params.primary, secondary := factor * params.secondary }

namespace CallGraph

/-! ## Weights between calls -/

theorem filter_eq_toList_find? {σ : Type} {p : σ → Bool} {xs : List σ}
    (h : xs.Pairwise fun a b => ¬ (p a ∧ p b)) : xs.filter p = (xs.find? p).toList := by
  induction h with
  | nil => rfl
  | @cons x rest hx _ ih =>
    cases hp : p x with
    | false => simp [hp, ih]
    | true =>
      have hrest : rest.filter p = [] :=
        List.filter_eq_nil_iff.2 fun y hy hpy => hx y hy ⟨hp, hpy⟩
      simp [hp, hrest]

variable {β γ : Type} {g : CallGraph β} {other : CallGraph γ} {params : RankParams Rat}
  {u v x y : Call} {identity : String} {rank : Rat}

/-- What a walk takes the edge between two calls to weigh, which is nothing without an edge. -/
def linkWeight (g : CallGraph β) (u v : Call) : Rat :=
  ((g.edgeAttrs? u v).map fun attrs => ((attrs.weight.getD 1 : Nat) : Rat)).getD 0

theorem linkWeight_congr (hu : u.identity = x.identity) (hv : v.identity = y.identity) :
    g.linkWeight u v = g.linkWeight x y := by
  rw [linkWeight, linkWeight, edgeAttrs?, edgeAttrs?, slot?_congr hu, slot?_congr hv]

namespace WellFormed

variable (h : g.WellFormed)

include h

theorem weightBetween_eq (source target : Fin g.nodes.length) :
    g.weightBetween source target =
      g.linkWeight (g.nodes.get source).call (g.nodes.get target).call := by
  have hsource := h.slot?_of_mem (List.get_mem _ source)
  have htarget := h.slot?_of_mem (List.get_mem _ target)
  have hedges : g.edges.Pairwise fun a b =>
      ¬ (decide (a.source = (g.nodes.get source).slot ∧ a.target = (g.nodes.get target).slot) ∧
        decide (b.source = (g.nodes.get source).slot ∧ b.target = (g.nodes.get target).slot)) := by
    refine (List.pairwise_map.1 h.ends_nodup).imp fun hne hboth => hne ?_
    simp only [decide_eq_true_eq] at hboth
    exact Prod.ext (hboth.1.1.trans hboth.2.1.symm) (hboth.1.2.trans hboth.2.2.symm)
  have hsum : g.weightBetween source target =
      ((g.edgeBetween? (g.nodes.get source).slot (g.nodes.get target).slot).toList.map
        walkWeight).sum := by
    rw [edgeBetween?, ← filter_eq_toList_find? hedges, sum_map_filter]
    simp only [weightBetween, decide_eq_true_eq, ← ite_and, and_comm]
  rw [hsum, linkWeight, edgeAttrs?_eq_joined?, hsource, htarget, Option.bind_some,
    Option.bind_some, joined?]
  cases g.edgeBetween? _ _ with
  | none => rfl
  | some edge => simp [walkWeight, Scalar.ofNat]

theorem eq_of_placeIdentity {place place' : Fin g.nodes.length}
    (hi : (g.nodes.get place).call.identity = (g.nodes.get place').call.identity) :
    place = place' := by
  have hnode := h.eq_of_identity (List.get_mem _ place) (List.get_mem _ place') hi
  exact h.eq_of_place (congrArg Node.slot hnode)

end WellFormed

/-! ## Graphs that a walk can not tell apart -/

/-- The graph `other` has the nodes, the entry and exit points and the edges of `g`. What leaves a
node weighs the same there, or else all of it has a weight, and is so many times as heavy there. -/
structure WalksAlike (g : CallGraph β) (other : CallGraph γ) : Prop where
  identities : ∀ identity, identity ∈ other.identities ↔ identity ∈ g.identities
  surface : ∀ u ∈ g.calls, ∀ kind : SurfaceKind, other.hasMark u kind.mark = g.hasMark u kind.mark
  weights : ∀ u ∈ g.calls, ∃ factor > 0, ∀ v ∈ g.calls,
    (other.edgeAttrs? u v).map (·.weight) =
      (g.edgeAttrs? u v).map (fun attrs => attrs.weight.map (factor * ·)) ∧
    (factor = 1 ∨ ∀ attrs ∈ g.edgeAttrs? u v, attrs.weight.isSome)

/-- Paired places hold nodes of one identity. -/
def Pairs (pairing : Fin g.nodes.length ≃ Fin other.nodes.length) : Prop :=
  ∀ place, (other.nodes.get (pairing place)).call.identity = (g.nodes.get place).call.identity

theorem exists_place_of_identity (hi : identity ∈ g.identities) :
    ∃ place : Fin g.nodes.length, (g.nodes.get place).call.identity = identity := by
  obtain ⟨node, hn, rfl⟩ := mem_identities.1 hi
  obtain ⟨place, rfl⟩ := List.get_of_mem hn
  exact ⟨place, rfl⟩

theorem mem_identities_get (place : Fin g.nodes.length) :
    (g.nodes.get place).call.identity ∈ g.identities :=
  mem_identities.2 ⟨_, List.get_mem _ place, rfl⟩

theorem exists_pairing (hg : g.WellFormed) (ho : other.WellFormed)
    (same : ∀ identity, identity ∈ other.identities ↔ identity ∈ g.identities) :
    ∃ pairing : Fin g.nodes.length ≃ Fin other.nodes.length, Pairs pairing := by
  have hfound (place : Fin g.nodes.length) : ∃ place' : Fin other.nodes.length,
      (other.nodes.get place').call.identity = (g.nodes.get place).call.identity :=
    exists_place_of_identity ((same _).2 (mem_identities_get place))
  choose pair hpair using hfound
  have hinjective : Function.Injective pair := by
    intro place place' heq
    apply hg.eq_of_placeIdentity
    rw [← hpair, ← hpair, heq]
  have hsurjective : Function.Surjective pair := by
    intro place'
    obtain ⟨place, hplace⟩ := exists_place_of_identity ((same _).1 (mem_identities_get place'))
    exact ⟨place, ho.eq_of_placeIdentity ((hpair place).trans hplace)⟩
  exact ⟨.ofBijective pair ⟨hinjective, hsurjective⟩, hpair⟩

theorem linkWeight_eq_mul {factor : Nat}
    (hweights : (other.edgeAttrs? u v).map (·.weight) =
      (g.edgeAttrs? u v).map fun attrs => attrs.weight.map (factor * ·))
    (hall : factor = 1 ∨ ∀ attrs ∈ g.edgeAttrs? u v, attrs.weight.isSome) :
    other.linkWeight u v = factor * g.linkWeight u v := by
  unfold linkWeight
  cases hold : g.edgeAttrs? u v with
  | none =>
    rw [hold, Option.map_none, Option.map_eq_none_iff] at hweights
    simp [hweights]
  | some attrs =>
    rw [hold, Option.map_some, Option.map_eq_some_iff] at hweights
    obtain ⟨attrs', hnew, hweight⟩ := hweights
    rw [hnew, Option.map_some, Option.map_some, Option.getD_some, Option.getD_some, hweight]
    cases hsome : attrs.weight with
    | some weight => simp
    | none =>
      have hone : factor = 1 := hall.resolve_right fun hall => by
        simpa [hsome] using hall attrs hold
      simp [hone]

namespace WalksAlike

variable {pairing : Fin g.nodes.length ≃ Fin other.nodes.length} {factor : Rat}
  (alike : WalksAlike g other) (hg : g.WellFormed) (ho : other.WellFormed)
  (hpairs : Pairs pairing)

include alike hg ho hpairs

theorem restartWeight (place : Fin g.nodes.length) :
    (params.scaleRestart factor).restartWeight (other.nodes.get (pairing place)) =
      factor * params.restartWeight (g.nodes.get place) := by
  have hmark (kind : SurfaceKind) :
      (other.nodes.get (pairing place)).attrs.marks.has kind.mark =
        (g.nodes.get place).attrs.marks.has kind.mark := by
    have hsame := alike.surface _ (List.mem_map_of_mem (List.get_mem _ place)) kind
    rw [hasMark, hasMark, ← attrs?_congr (hpairs place), ho.attrs?_of_mem (List.get_mem _ _),
      hg.attrs?_of_mem (List.get_mem _ place)] at hsame
    exact hsame
  have hentry := hmark .entry
  have hexit := hmark .exit
  simp only [SurfaceKind.mark, Marks.has] at hentry hexit
  simp only [RankParams.restartWeight, RankParams.scaleRestart, hentry, hexit, mul_ite]

/-- The weights of the restarts keep their proportions. -/
theorem agree_restartOf (hfactor : 0 < factor) : Chain.Agree pairing (g.restartOf params)
    (other.restartOf (params.scaleRestart factor)) := by
  have hsize : (other.nodes.length : Rat) = g.nodes.length := by
    have := Fintype.card_congr pairing
    simp only [Fintype.card_fin] at this
    rw [this]
  have htotal : (other.nodes.map (params.scaleRestart factor).restartWeight).sum =
      factor * (g.nodes.map params.restartWeight).sum := by
    rw [← Fin.sum_univ_fun_getElem, ← Fin.sum_univ_fun_getElem, ← pairing.sum_comp, Finset.mul_sum]
    exact Finset.sum_congr rfl fun place _ => alike.restartWeight hg ho hpairs place
  intro place
  rw [get_restartOf_eq_ite, get_restartOf_eq_ite, htotal, hsize,
    alike.restartWeight hg ho hpairs]
  simp only [mul_pos_iff_of_pos_left hfactor, mul_div_mul_left _ _ hfactor.ne']

/-- The weights of the edges out of a place keep their proportions. -/
theorem exists_factor (source : Fin g.nodes.length) :
    ∃ factor : Rat, 0 < factor ∧
      other.outgoing (pairing source) = factor * g.outgoing source ∧
      ∀ target, other.weightBetween (pairing source) (pairing target) =
        factor * g.weightBetween source target := by
  obtain ⟨factor, hpos, hweights⟩ := alike.weights _ (List.mem_map_of_mem (List.get_mem _ source))
  have hbetween (target : Fin g.nodes.length) :
      other.weightBetween (pairing source) (pairing target) =
        factor * g.weightBetween source target := by
    rw [ho.weightBetween_eq, hg.weightBetween_eq,
      linkWeight_congr (hpairs source) (hpairs target)]
    have htarget := hweights _ (List.mem_map_of_mem (List.get_mem _ target))
    exact linkWeight_eq_mul htarget.1 htarget.2
  refine ⟨factor, Nat.cast_pos.2 hpos, ?_, hbetween⟩
  rw [← ho.sum_weightBetween, ← hg.sum_weightBetween, ← pairing.sum_comp, Finset.mul_sum]
  exact Finset.sum_congr rfl fun target _ => hbetween target

theorem alike_chain (hfactor : 0 < factor) :
    Chain.Alike pairing (g.chain params) (other.chain (params.scaleRestart factor)) where
  restart := alike.agree_restartOf hg ho hpairs hfactor
  flow source target := by
    obtain ⟨scale, hscale, houtgoing, hbetween⟩ := alike.exists_factor hg ho hpairs source
    have hrestart : (other.chain (params.scaleRestart factor)).restart.get (pairing target) =
        (g.chain params).restart.get target := alike.agree_restartOf hg ho hpairs hfactor target
    simp only [Chain.flow, ho.shareFrom_incoming, hg.shareFrom_incoming, mem_dangling, houtgoing,
      hbetween, mul_pos_iff_of_pos_left hscale, mul_div_mul_left _ _ hscale.ne', hrestart]
  dangling_nodup := (List.nodup_finRange _).filter _
  dangling_nodup' := (List.nodup_finRange _).filter _

theorem rankRun_agrees (hfactor : 0 < factor) :
    (g.rankRun params).Agrees pairing (other.rankRun (params.scaleRestart factor)) :=
  (alike.alike_chain hg ho hpairs hfactor).iterate (Chain.agree_uniform pairing) _ _

end WalksAlike

/-! ## Ranks of calls -/

/-- The ranks by the identities of their calls. -/
def rankTable (g : CallGraph β) (params : RankParams Rat) : List (String × Rat) :=
  (g.ranks params).map fun ranked => (ranked.1.identity, ranked.2)

theorem rankTable_eq_ofFn (g : CallGraph β) (params : RankParams Rat) :
    g.rankTable params = List.ofFn fun place =>
      ((g.nodes.get place).call.identity, (g.rankRun params).rank.get place) := by
  apply List.ext_getElem
  · simp [rankTable, ranks]
  · intro place _ _
    simp [rankTable, ranks, Vector.get_eq_getElem]

theorem mem_rankTable : (identity, rank) ∈ g.rankTable params ↔
    ∃ place, (g.nodes.get place).call.identity = identity ∧
      (g.rankRun params).rank.get place = rank := by
  rw [rankTable_eq_ofFn, List.mem_ofFn]
  simp only [Prod.mk.injEq]

theorem map_fst_rankTable (g : CallGraph β) (params : RankParams Rat) :
    (g.rankTable params).map (·.1) = g.identities := by
  rw [rankTable, List.map_map, identities, ← map_fst_ranks g params, List.map_map]
  rfl

theorem rankOf_eq_error {e : QueryError} (he : g.rankOf params u = .error e) :
    e = .notANode u.display := by
  unfold rankOf require at he
  split at he
  · rename_i node _
    simp only [Except.bind] at he
    split at he
    · cases he
    · cases he
      rfl
  · cases he
    rfl

namespace WellFormed

variable (h : g.WellFormed)

include h

theorem nodup_keys_rankTable (params : RankParams Rat) :
    ((g.rankTable params).map (·.1)).Nodup := by
  rw [map_fst_rankTable]
  exact h.nodup_identities

theorem rankOf_eq_ok :
    g.rankOf params u = .ok rank ↔ (u.identity, rank) ∈ g.rankTable params := by
  cases hnode : g.node? u with
  | none =>
    have hnone : u.identity ∉ (g.rankTable params).map (·.1) := by
      rw [map_fst_rankTable]
      exact h.node?_eq_none.1 hnode
    have hrank : (u.identity, rank) ∉ g.rankTable params := fun hmem =>
      hnone (List.mem_map_of_mem hmem)
    simp [rankOf, require, hnode, Except.bind, hrank]
  | some node =>
    obtain ⟨-, hi⟩ := h.node?_eq_some.1 hnode
    have hunique : ∀ a ∈ g.ranks params, ∀ b ∈ g.ranks params,
        decide (a.1.identity = u.identity) → decide (b.1.identity = u.identity) → a = b := by
      have hkeys := h.nodup_keys_rankTable params
      rw [rankTable, List.map_map] at hkeys
      intro a ha b hb hau hbu
      exact List.inj_on_of_nodup_map hkeys ha hb
        ((of_decide_eq_true hau).trans (of_decide_eq_true hbu).symm)
    have hfound : (u.identity, rank) ∈ g.rankTable params ↔ ∃ ranked,
        ((g.ranks params).find? fun ranked => ranked.1.identity = u.identity) = some ranked ∧
          ranked.2 = rank := by
      simp only [find?_eq_some_of_unique hunique, rankTable, List.mem_map, Prod.mk.injEq,
        decide_eq_true_eq, and_assoc]
    rw [hfound, rankOf, require_eq_ok.2 hnode]
    simp only [Except.bind, hi]
    cases (g.ranks params).find? fun ranked => ranked.1.identity = u.identity <;> simp

end WellFormed

/-- The ranks of a graph do not depend on how it was built: another graph with the same nodes, entry
and exit points, edges and weights has the same rank for every call, found in as many steps. Nor
does it matter how large the weights of the restarts are, or those of the edges out of one node, as
long as they keep their proportions. -/
theorem WellFormed.ranks_invariant (hg : g.WellFormed) (ho : other.WellFormed)
    (alike : WalksAlike g other) (params : RankParams Rat) {factor : Rat} (hfactor : 0 < factor) :
    (other.rankRun (params.scaleRestart factor)).iterations = (g.rankRun params).iterations ∧
    (other.rankRun (params.scaleRestart factor)).converged = (g.rankRun params).converged ∧
    (other.rankTable (params.scaleRestart factor)).Perm (g.rankTable params) ∧
    ∀ call, other.rankOf (params.scaleRestart factor) call = g.rankOf params call := by
  obtain ⟨pairing, hpairs⟩ := exists_pairing hg ho alike.identities
  have hruns : (g.rankRun params).Agrees pairing (other.rankRun (params.scaleRestart factor)) :=
    alike.rankRun_agrees hg ho hpairs hfactor
  have hmem (ranked : String × Rat) : ranked ∈ other.rankTable (params.scaleRestart factor) ↔
      ranked ∈ g.rankTable params := by
    obtain ⟨identity, rank⟩ := ranked
    rw [mem_rankTable, mem_rankTable, ← pairing.exists_congr_right]
    refine exists_congr fun place => ?_
    rw [hpairs, hruns.rank]
  refine ⟨hruns.iterations, hruns.converged, ?_, fun call => ?_⟩
  · exact (List.perm_ext_iff_of_nodup (ho.nodup_keys_rankTable _).of_map
      (hg.nodup_keys_rankTable _).of_map).2 hmem
  · cases hcall : g.rankOf params call with
    | ok rank =>
      rw [ho.rankOf_eq_ok, hmem]
      exact hg.rankOf_eq_ok.1 hcall
    | error e =>
      cases hother : other.rankOf (params.scaleRestart factor) call with
      | ok rank =>
        rw [ho.rankOf_eq_ok, hmem, ← hg.rankOf_eq_ok, hcall] at hother
        cases hother
      | error e' => rw [rankOf_eq_error hcall, rankOf_eq_error hother]

/-- An entry point that calls two functions, one of which calls it. -/
def loopedFan : CallGraph Rat :=
  (((empty.addNode { name := "main" } { marks := { entry := true } }).addEdge { name := "main" }
    { name := "f" } { weight := some 2 }).addEdge { name := "main" } { name := "g" }
      { weight := some 4 }).addEdge { name := "f" } { name := "main" }

/-- The same calls in another order, the first of them in the slot of a node that is gone, and three
times as heavy where they leave the entry point. -/
def refilledFan : CallGraph Rat :=
  (((((empty.addEdge { name := "gone" } { name := "g" } {}).removeNode { name := "gone" }).addEdge
    { name := "f" } { name := "main" }).addEdge { name := "main" } { name := "g" }
      { weight := some 12 }).addEdge { name := "main" } { name := "f" }
        { weight := some 6 }).addNode { name := "main" } { marks := { entry := true } }

theorem built_loopedFan : Built loopedFan :=
  ((((Built.empty "").addNode _ _).addEdge _ _ _).addEdge _ _ _).addEdge _ _ _

theorem built_refilledFan : Built refilledFan :=
  .addNode (.addEdge (.addEdge (.addEdge (.removeNode (.addEdge (.empty "") _ _ _) _) _ _ _)
    _ _ _) _ _ _) _ _

theorem walksAlike_refilledFan : WalksAlike loopedFan refilledFan where
  identities _ := (by decide : refilledFan.identities.Perm loopedFan.identities).mem_iff
  surface u hu kind := by
    revert u
    cases kind <;> decide
  weights u hu := by
    refine ⟨if u.name = "main" then 3 else 1, by split <;> decide, ?_⟩
    revert u
    decide

theorem ranks_of_refilledFan : loopedFan.WellFormed ∧ refilledFan.WellFormed ∧
    WalksAlike loopedFan refilledFan ∧ (0 : Rat) < 1 / 7 ∧
    refilledFan.rankOf ((RankParams.standard : RankParams Rat).scaleRestart (1 / 7))
      { name := "f" } = loopedFan.rankOf RankParams.standard { name := "f" } := by
  have hfactor : (0 : Rat) < 1 / 7 := by norm_num
  obtain ⟨-, -, -, hranks⟩ := built_loopedFan.wellFormed.ranks_invariant
    built_refilledFan.wellFormed walksAlike_refilledFan RankParams.standard hfactor
  exact ⟨built_loopedFan.wellFormed, built_refilledFan.wellFormed, walksAlike_refilledFan, hfactor,
    hranks { name := "f" }⟩

end CallGraph

end AttackSurface
