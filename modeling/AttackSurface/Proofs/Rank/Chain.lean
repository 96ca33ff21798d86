import AttackSurface.Rank
import Mathlib

/-! Walks with exact numbers. A step sends all that is at a place somewhere, and the share of it
that goes to each place does not depend on the distribution. So a step keeps distributions, and
brings any two of them closer together by the damping factor. -/
namespace AttackSurface

/-! ## Exact scalars -/

namespace Scalar

theorem abs_rat (q : Rat) : Scalar.abs q = |q| := by
  have habs : Scalar.abs q = if 0 ≤ q then q else -q := rfl
  rw [habs]
  split
  · exact (abs_of_nonneg ‹_›).symm
  · exact (abs_of_neg (not_le.1 ‹_›)).symm

theorem foldl_add_rat {β : Type} (f : β → Rat) (xs : List β) (start : Rat) :
    xs.foldl (fun total x => total + f x) start = start + (xs.map f).sum := by
  induction xs generalizing start with
  | nil => simp
  | cons x rest ih => rw [List.foldl_cons, ih, List.map_cons, List.sum_cons, add_assoc]

theorem sum_rat (xs : List Rat) : Scalar.sum xs = xs.sum := by
  have hsum := foldl_add_rat id xs 0
  rw [List.map_id, zero_add] at hsum
  exact hsum

end Scalar

/-! ## Shares of a step -/

namespace Chain

variable {n : Nat} {chain : Chain Rat n} {damping tolerance : Rat} {rank other : Vector Rat n}

/-- A probability for each place. -/
structure IsDistribution (rank : Vector Rat n) : Prop where
  nonneg : ∀ place : Fin n, 0 ≤ rank.get place
  sum_eq_one : ∑ place : Fin n, rank.get place = 1

/-- The shares that come from one of the places. -/
def shareFrom (links : List (Fin n × Rat)) (source : Fin n) : Rat :=
  (links.map fun link => if link.1 = source then link.2 else 0).sum

/-- The share of what is at `source` that a walk without damping sends to `target`: by its edges, or
by a new start from a place that leads nowhere. -/
def flow (chain : Chain Rat n) (source target : Fin n) : Rat :=
  shareFrom (chain.incoming.get target) source +
    if source ∈ chain.dangling then chain.restart.get target else 0

/-- Every place sends all that is there to some places. -/
structure Stochastic (chain : Chain Rat n) : Prop where
  restart : IsDistribution chain.restart
  share_nonneg : ∀ target : Fin n, ∀ link ∈ chain.incoming.get target, 0 ≤ link.2
  dangling_nodup : chain.dangling.Nodup
  sum_flow : ∀ source, ∑ target, chain.flow source target = 1

theorem Stochastic.flow_nonneg (h : chain.Stochastic) (source target : Fin n) :
    0 ≤ chain.flow source target := by
  refine add_nonneg (List.sum_nonneg ?_) ?_
  · intro share hshare
    obtain ⟨link, hlink, rfl⟩ := List.mem_map.1 hshare
    split
    · exact h.share_nonneg target link hlink
    · exact le_rfl
  · split
    · exact h.restart.nonneg target
    · exact le_rfl

/-- Links one after the other, or place by place. -/
theorem sum_map_eq_sum_places (links : List (Fin n × Rat)) (f : Fin n → Rat) :
    (links.map fun link => f link.1 * link.2).sum =
      ∑ source, f source * shareFrom links source := by
  induction links with
  | nil => simp [shareFrom]
  | cons link rest ih =>
    simp only [shareFrom, List.map_cons, List.sum_cons, mul_add, Finset.sum_add_distrib] at ih ⊢
    rw [ih]
    simp

theorem get_step (nodup : chain.dangling.Nodup) (target : Fin n) :
    (chain.step damping rank).get target = (1 - damping) * chain.restart.get target +
      damping * ∑ source, rank.get source * chain.flow source target := by
  -- Both what follows edges and what starts anew become sums over sources, to be added up.
  have hlost : Scalar.sum (chain.dangling.map fun place => rank.get place) =
      ∑ source : Fin n, if source ∈ chain.dangling then rank.get source else 0 := by
    rw [Scalar.sum_rat, ← List.sum_toFinset _ nodup, ← Finset.sum_filter]
    refine Finset.sum_congr ?_ fun _ _ => rfl
    ext source
    simp
  have hlinks : ((chain.incoming.get target).map fun link =>
      damping * rank.get link.1 * link.2).sum =
      damping * ∑ source, rank.get source * shareFrom (chain.incoming.get target) source := by
    simp only [mul_assoc, List.sum_map_mul_left]
    rw [sum_map_eq_sum_places _ fun source => rank.get source]
  have hflow : ∑ source, rank.get source * chain.flow source target =
      ∑ source, rank.get source * shareFrom (chain.incoming.get target) source +
      (∑ source : Fin n, if source ∈ chain.dangling then rank.get source else 0) *
        chain.restart.get target := by
    rw [Finset.sum_mul, ← Finset.sum_add_distrib]
    refine Finset.sum_congr rfl fun source _ => ?_
    rw [flow, mul_add, mul_ite, ite_mul, mul_zero, zero_mul]
  calc (chain.step damping rank).get target
    _ = (damping * Scalar.sum (chain.dangling.map fun place => rank.get place) + (1 - damping)) *
          chain.restart.get target +
        ((chain.incoming.get target).map fun link => damping * rank.get link.1 * link.2).sum := by
      rw [← Scalar.foldl_add_rat]
      simp only [step, Vector.get_ofFn]
      rfl
    _ = _ := by
      rw [hlost, hlinks, hflow]
      ring

/-! ## Distributions -/

theorem change_rat : change rank other = ∑ place : Fin n, |rank.get place - other.get place| := by
  simp only [change, Scalar.sum_rat, Scalar.abs_rat, Fin.sum_univ_def, Vector.get_eq_getElem,
    Fin.getElem_fin]

theorem change_comm (rank other : Vector Rat n) : change rank other = change other rank := by
  simp only [change_rat, abs_sub_comm]

theorem change_triangle (middle : Vector Rat n) :
    change rank other ≤ change rank middle + change middle other := by
  simp only [change_rat, ← Finset.sum_add_distrib]
  exact Finset.sum_le_sum fun place _ => abs_sub_le ..

theorem IsDistribution.change_le_two (h : IsDistribution rank) (ho : IsDistribution other) :
    change rank other ≤ 2 := by
  have hplace (place : Fin n) :
      |rank.get place - other.get place| ≤ rank.get place + other.get place := by
    have hrank := h.nonneg place
    have hother := ho.nonneg place
    rw [abs_le]
    constructor <;> linarith
  calc change rank other
    _ ≤ ∑ place : Fin n, (rank.get place + other.get place) := by
      rw [change_rat]
      exact Finset.sum_le_sum fun place _ => hplace place
    _ = 2 := by
      rw [Finset.sum_add_distrib, h.sum_eq_one, ho.sum_eq_one]
      norm_num

theorem isDistribution_uniform (hn : 0 < n) : IsDistribution (uniform Rat n) := by
  have hpos : (0 : Rat) < n := Nat.cast_pos.2 hn
  have hplace (place : Fin n) : (uniform Rat n).get place = 1 / n := by
    rw [uniform, Vector.get_replicate]
    rfl
  constructor
  · intro place
    rw [hplace]
    exact div_nonneg zero_le_one hpos.le
  · simp only [hplace, Finset.sum_const, Finset.card_univ, Fintype.card_fin, nsmul_eq_mul]
    exact mul_one_div_cancel hpos.ne'

namespace Stochastic

variable (h : chain.Stochastic)

include h

theorem step (hpos : 0 ≤ damping) (hle : damping ≤ 1) (hrank : IsDistribution rank) :
    IsDistribution (chain.step damping rank) where
  nonneg target := by
    rw [get_step h.dangling_nodup]
    have hrestart := mul_nonneg (sub_nonneg.2 hle) (h.restart.nonneg target)
    have hflow : 0 ≤ ∑ source, rank.get source * chain.flow source target :=
      Finset.sum_nonneg fun source _ => mul_nonneg (hrank.nonneg source) (h.flow_nonneg ..)
    exact add_nonneg hrestart (mul_nonneg hpos hflow)
  sum_eq_one := by
    have hflow : ∑ target, ∑ source, rank.get source * chain.flow source target = 1 := by
      rw [Finset.sum_comm]
      simp only [← Finset.mul_sum, h.sum_flow, mul_one, hrank.sum_eq_one]
    simp only [get_step h.dangling_nodup, Finset.sum_add_distrib, ← Finset.mul_sum,
      h.restart.sum_eq_one, hflow]
    ring

/-- A step brings distributions closer together, since it moves both alike. -/
theorem change_step_le (hpos : 0 ≤ damping) :
    change (chain.step damping rank) (chain.step damping other) ≤ damping * change rank other := by
  have hmoved (target : Fin n) :
      (chain.step damping rank).get target - (chain.step damping other).get target =
        damping * ∑ source, (rank.get source - other.get source) * chain.flow source target := by
    simp only [get_step h.dangling_nodup, sub_mul, Finset.sum_sub_distrib]
    ring
  calc change (chain.step damping rank) (chain.step damping other)
    _ = damping * ∑ target, |∑ source, (rank.get source - other.get source) *
          chain.flow source target| := by
      simp only [change_rat, hmoved, abs_mul, abs_of_nonneg hpos, ← Finset.mul_sum]
    _ ≤ damping * ∑ target, ∑ source, |rank.get source - other.get source| *
          chain.flow source target := by
      refine mul_le_mul_of_nonneg_left (Finset.sum_le_sum fun target _ => ?_) hpos
      refine (Finset.abs_sum_le_sum_abs _ _).trans_eq (Finset.sum_congr rfl fun source _ => ?_)
      rw [abs_mul, abs_of_nonneg (h.flow_nonneg source target)]
    _ = damping * change rank other := by
      rw [Finset.sum_comm, change_rat]
      simp only [← Finset.mul_sum, h.sum_flow, mul_one]

end Stochastic

/-! ## Runs -/

/-- The rank after a number of steps from the uniform distribution. -/
def rankAfter (chain : Chain Rat n) (damping : Rat) : (steps : Nat) → Vector Rat n
  | 0 => uniform Rat n
  | steps + 1 => chain.step damping (chain.rankAfter damping steps)

/-- The change that is measured after one more step. -/
def changeAfter (chain : Chain Rat n) (damping : Rat) (steps : Nat) : Rat :=
  change (chain.rankAfter damping (steps + 1)) (chain.rankAfter damping steps)

/-- How a run ends that goes on from `done` steps to at most `limit`. -/
structure Run.Ends (run : Run Rat n) (chain : Chain Rat n) (damping tolerance : Rat)
    (done limit : Nat) : Prop where
  rank_eq : run.rank = chain.rankAfter damping run.iterations
  iterations_le : run.iterations ≤ limit
  converged_iff : run.converged ↔
    ∃ steps, done ≤ steps ∧ steps < limit ∧ chain.changeAfter damping steps < tolerance
  last : run.converged →
    ∃ steps, run.iterations = steps + 1 ∧ chain.changeAfter damping steps < tolerance

theorem iterate_succ (chain : Chain Rat n) (damping tolerance : Rat) (fuel done : Nat) :
    chain.iterate damping tolerance (fuel + 1) done (chain.rankAfter damping done) =
      if chain.changeAfter damping done < tolerance then
        ⟨chain.rankAfter damping (done + 1), done + 1, true⟩
      else
        chain.iterate damping tolerance fuel (done + 1) (chain.rankAfter damping (done + 1)) := by
  rw [iterate]
  exact if_congr (decide_eq_true_iff ..) rfl rfl

theorem ends_iterate (chain : Chain Rat n) (damping tolerance : Rat) (fuel done : Nat) :
    (chain.iterate damping tolerance fuel done (chain.rankAfter damping done)).Ends chain damping
      tolerance done (done + fuel) := by
  -- A run that has made `done` steps is always at the rank after `done` steps.
  induction fuel generalizing done with
  | zero =>
    have hnone : ¬ ∃ steps, done ≤ steps ∧ steps < done + 0 ∧
        chain.changeAfter damping steps < tolerance := by
      rintro ⟨steps, hfrom, hto, -⟩
      omega
    exact ⟨rfl, le_rfl, iff_of_false Bool.false_ne_true hnone, fun h => absurd h Bool.false_ne_true⟩
  | succ fuel ih =>
    rw [iterate_succ]
    split
    · rename_i hsmall
      have hsteps : done + 1 ≤ done + (fuel + 1) := by omega
      exact ⟨rfl, hsteps, iff_of_true rfl ⟨done, le_rfl, hsteps, hsmall⟩,
        fun _ => ⟨done, rfl, hsmall⟩⟩
    · rename_i hlarge
      obtain ⟨hrank, hlimit, hiff, hlast⟩ := ih (done + 1)
      have hfuel : done + 1 + fuel = done + (fuel + 1) := by omega
      refine ⟨hrank, hfuel ▸ hlimit, hiff.trans ?_, hlast⟩
      rw [hfuel]
      constructor
      · rintro ⟨steps, hfrom, hto⟩
        exact ⟨steps, Nat.le_of_succ_le hfrom, hto⟩
      · rintro ⟨steps, hfrom, hto, hsmall⟩
        rcases hfrom.eq_or_lt with rfl | hlater
        · exact absurd hsmall hlarge
        · exact ⟨steps, hlater, hto, hsmall⟩

namespace Stochastic

variable (h : chain.Stochastic)

include h

theorem isDistribution_rankAfter (hn : 0 < n) (hpos : 0 ≤ damping) (hle : damping ≤ 1)
    (steps : Nat) : IsDistribution (chain.rankAfter damping steps) := by
  induction steps with
  | zero => exact isDistribution_uniform hn
  | succ steps ih => exact h.step hpos hle ih

/-- The first change is one between two distributions, and each later one is smaller by the damping
factor. -/
theorem changeAfter_le (hn : 0 < n) (hpos : 0 ≤ damping) (hle : damping ≤ 1) (steps : Nat) :
    chain.changeAfter damping steps ≤ 2 * damping ^ steps := by
  induction steps with
  | zero =>
    rw [pow_zero, mul_one]
    exact (h.isDistribution_rankAfter hn hpos hle 1).change_le_two
      (h.isDistribution_rankAfter hn hpos hle 0)
  | succ steps ih =>
    calc chain.changeAfter damping (steps + 1)
      _ ≤ damping * chain.changeAfter damping steps := h.change_step_le hpos
      _ ≤ damping * (2 * damping ^ steps) := mul_le_mul_of_nonneg_left ih hpos
      _ = 2 * damping ^ (steps + 1) := by ring

/-- A rank whose last change was small is close to every one that a step does not change. -/
theorem change_fixed_le (hpos : 0 ≤ damping) (hlt : damping < 1) {fixed : Vector Rat n}
    (hfixed : chain.step damping fixed = fixed) (steps : Nat) :
    change (chain.rankAfter damping (steps + 1)) fixed ≤
      damping * chain.changeAfter damping steps / (1 - damping) := by
  have hstep : change (chain.rankAfter damping (steps + 1)) fixed ≤
      damping * change (chain.rankAfter damping steps) fixed := by
    conv_lhs => rw [← hfixed]
    exact h.change_step_le hpos
  have htriangle : change (chain.rankAfter damping steps) fixed ≤
      chain.changeAfter damping steps + change (chain.rankAfter damping (steps + 1)) fixed := by
    rw [changeAfter, change_comm (chain.rankAfter damping (steps + 1))]
    exact change_triangle _
  rw [le_div_iff₀ (sub_pos.2 hlt)]
  have hscaled := mul_le_mul_of_nonneg_left htriangle hpos
  linarith

end Stochastic

end Chain

end AttackSurface
