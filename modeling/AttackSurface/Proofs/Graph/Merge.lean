import AttackSurface.Proofs.Graph.Built
import AttackSurface.Proofs.Scores

/-! Merging two graphs. Neither graph is reconciled otherwise when the other is reconciled first: a
name that one of them locates in the other is known there with a signature only. So both orders of
a merge unite the same two graphs, and differ where one of two attributes has to be chosen only. -/
namespace AttackSurface

/-! ## Attributes merged with each other -/

namespace NodeAttrs

variable {α : Type}

theorem merge_self (attrs : NodeAttrs α) : attrs.merge attrs = attrs := by
  obtain ⟨marks, frequency, scores⟩ := attrs
  have hmarks : marks.union marks = marks := Marks.ext_has (by simp)
  have hfrequency : frequency.merge max frequency = frequency := by cases frequency <;> simp
  simp only [merge, mergeWith, hmarks, hfrequency, Scores.merge_self]

theorem marks_merge_comm (a b : NodeAttrs α) : (a.merge b).marks = (b.merge a).marks :=
  Marks.ext_has fun mark => by simp [merge, mergeWith, Bool.or_comm]

theorem frequency_merge_comm (a b : NodeAttrs α) :
    (a.merge b).frequency = (b.merge a).frequency := by
  obtain ⟨_, m, _⟩ := a
  obtain ⟨_, n, _⟩ := b
  cases m <;> cases n <;> simp [merge, mergeWith, max_comm]

end NodeAttrs

namespace EdgeAttrs

theorem merge_self (attrs : EdgeAttrs) : attrs.merge attrs = attrs := by
  simp [merge]

theorem flags_merge_comm (a b : EdgeAttrs) :
    { a.merge b with weight := none } = { b.merge a with weight := none } := by
  simp [merge, Bool.or_comm]

end EdgeAttrs

namespace CallGraph

variable {α : Type} {a b : CallGraph α} {call u v x : Call}

namespace WellFormed

/-! ## Two reconciliations -/

/-- A name without a signature in `b` is not located in `b`, so it does not change in `a`. -/
theorem mem_calls_reconcile_iff (ha : a.WellFormed) (hb : b.WellFormed) (hcall : call ∈ b.calls)
    (hsig : call.signature = "") (hname : x.name = call.name) :
    x ∈ (a.reconcile b).calls ↔ x ∈ a.calls := by
  rw [reconcile_eq_renames]
  refine ha.mem_calls_renames_iff (fun move hmove => (mem_relocations.1 hmove).1)
    (ha.distinct_relocations b) fun move hmove => ?_
  obtain ⟨-, -, signature, hlocates, htarget⟩ :=
    hb.located?_eq_some.1 (mem_relocations.1 hmove).2
  have hother : move.1.name ≠ x.name := fun hsame =>
    signature_ne_of_locates hlocates hcall (hname.symm.trans hsame.symm) hsig
  exact ⟨hother, by rw [htarget]; exact hother⟩

theorem located?_reconcile (ha : a.WellFormed) (hb : b.WellFormed) (hcall : call ∈ b.calls) :
    (a.reconcile b).located? call = a.located? call := by
  ext target
  rw [(ha.reconcile b).located?_eq_some, ha.located?_eq_some]
  refine and_congr_right fun _ => and_congr_right fun hsig => exists_congr fun signature => ?_
  rw [locates_congr fun x hname => ha.mem_calls_reconcile_iff hb hcall hsig hname]

/-- It does not matter whether the reference has been reconciled before. -/
theorem reconcile_reconcile (ha : a.WellFormed) (hb : b.WellFormed) :
    b.reconcile (a.reconcile b) = b.reconcile a := by
  have hsame : b.relocations (a.reconcile b) = b.relocations a :=
    List.filterMap_congr fun call hcall => by rw [ha.located?_reconcile hb hcall]
  rw [reconcile_eq_renames b, hsame, reconcile_eq_renames b]

/-- A call without a signature is no namesake to locate itself by. -/
theorem reconcile_self (h : a.WellFormed) : a.reconcile a = a := by
  have hnone : a.relocations a = [] := by
    refine List.eq_nil_iff_forall_not_mem.2 fun move hmove => ?_
    obtain ⟨hcall, hlocated⟩ := mem_relocations.1 hmove
    obtain ⟨-, hsig, signature, hlocates, -⟩ := h.located?_eq_some.1 hlocated
    exact signature_ne_of_locates hlocates hcall rfl hsig
  rw [reconcile_eq_renames, hnone]
  rfl

/-! ## What a merge unites -/

theorem attrs?_empty_union (h : a.WellFormed) (source : String) :
    ((CallGraph.empty source).union a).attrs? call = a.attrs? call := by
  have hnone : (CallGraph.empty source : CallGraph α).attrs? call = none := rfl
  rw [CallGraph.union, (wellFormed_empty source).attrs?_unionWith h, hnone, Option.merge_none_left]

theorem edgeAttrs?_empty_union (h : a.WellFormed) (source : String) :
    ((CallGraph.empty source).union a).edgeAttrs? u v = a.edgeAttrs? u v := by
  have hnone : (CallGraph.empty source : CallGraph α).edgeAttrs? u v = none := rfl
  rw [CallGraph.union, (wellFormed_empty source).edgeAttrs?_unionWith h, hnone,
    Option.merge_none_left]

theorem attrs?_merge (ha : a.WellFormed) (hb : b.WellFormed) :
    (a.merge b).attrs? call =
      ((a.reconcile b).attrs? call).merge NodeAttrs.merge ((b.reconcile a).attrs? call) := by
  have hstatic := ha.reconcile b
  have hprofile := hb.reconcile (a.reconcile b)
  show ((CallGraph.union _ _).unionWith _ _).attrs? call = _
  rw [((wellFormed_empty _).union _).attrs?_unionWith hprofile, hstatic.attrs?_empty_union,
    ha.reconcile_reconcile hb]

theorem edgeAttrs?_merge (ha : a.WellFormed) (hb : b.WellFormed) :
    (a.merge b).edgeAttrs? u v =
      ((a.reconcile b).edgeAttrs? u v).merge EdgeAttrs.merge ((b.reconcile a).edgeAttrs? u v) := by
  have hstatic := ha.reconcile b
  have hprofile := hb.reconcile (a.reconcile b)
  show ((CallGraph.union _ _).unionWith _ _).edgeAttrs? u v = _
  rw [((wellFormed_empty _).union _).edgeAttrs?_unionWith hprofile, hstatic.edgeAttrs?_empty_union,
    ha.reconcile_reconcile hb]

theorem nodeShows_merge (ha : a.WellFormed) (hb : b.WellFormed) (sign : NodeSign) :
    (a.merge b).nodeShows sign u =
      ((a.reconcile b).nodeShows sign u || (b.reconcile a).nodeShows sign u) := by
  rw [nodeShows, ha.attrs?_merge hb, Option.any_merge (NodeAttrs.shows_merge sign), nodeShows,
    nodeShows]

theorem edgeShows_merge (ha : a.WellFormed) (hb : b.WellFormed) (sign : EdgeSign) :
    (a.merge b).edgeShows sign u v =
      ((a.reconcile b).edgeShows sign u v || (b.reconcile a).edgeShows sign u v) := by
  rw [edgeShows, ha.edgeAttrs?_merge hb, Option.any_merge (EdgeAttrs.shows_merge sign), edgeShows,
    edgeShows]

/-- Two graphs that know of the same calls have the same identities. -/
theorem identities_perm (ha : a.WellFormed) (hb : b.WellFormed)
    (same : ∀ call, (a.attrs? call).isSome ↔ (b.attrs? call).isSome) :
    a.identities.Perm b.identities := by
  refine (List.perm_ext_iff_of_nodup ha.nodup_identities hb.nodup_identities).2 fun identity => ?_
  have hfile : (Call.ofFile identity).identity = identity := rfl
  rw [← hfile, ← ha.isSome_attrs?, ← hb.isSome_attrs?]
  exact same _

end WellFormed

theorem merge_some_comm {β γ : Type} {f : β → β → β} {observe : β → γ}
    (hf : ∀ x y, observe (f x y) = observe (f y x)) (x y : Option β) :
    (x.merge f y).map observe = (y.merge f x).map observe := by
  cases x with
  | none => cases y <;> rfl
  | some x =>
    cases y with
    | none => rfl
    | some y => exact congrArg some (hf x y)

/-- A merge is commutative but for scores and weights, and merging a graph with itself changes
nothing. -/
theorem Built.merge_comm_and_self [Scalar α] (ha : Built a) (hb : Built b) :
    (a.merge b).identities.Perm (b.merge a).identities ∧
    (∀ call, ((a.merge b).attrs? call).map (fun attrs => (attrs.marks, attrs.frequency)) =
      ((b.merge a).attrs? call).map fun attrs => (attrs.marks, attrs.frequency)) ∧
    (∀ u v, ((a.merge b).edgeAttrs? u v).map (fun attrs => { attrs with weight := none }) =
      ((b.merge a).edgeAttrs? u v).map fun attrs => { attrs with weight := none }) ∧
    (a.merge a).identities.Perm a.identities ∧
    (∀ call, (a.merge a).attrs? call = a.attrs? call) ∧
    ∀ u v, (a.merge a).edgeAttrs? u v = a.edgeAttrs? u v := by
  have hwfa := ha.wellFormed
  have hwfb := hb.wellFormed
  have hself (call : Call) : (a.merge a).attrs? call = a.attrs? call := by
    rw [hwfa.attrs?_merge hwfa, hwfa.reconcile_self]
    cases a.attrs? call with
    | none => rfl
    | some attrs => exact congrArg some attrs.merge_self
  refine ⟨?_, fun call => ?_, fun u v => ?_, ?_, hself, fun u v => ?_⟩
  · refine (WellFormed.merge a b).identities_perm (WellFormed.merge b a) fun call => ?_
    rw [hwfa.attrs?_merge hwfb, hwfb.attrs?_merge hwfa]
    cases (a.reconcile b).attrs? call <;> cases (b.reconcile a).attrs? call <;> simp
  · rw [hwfa.attrs?_merge hwfb, hwfb.attrs?_merge hwfa]
    refine merge_some_comm (fun x y => ?_) _ _
    rw [NodeAttrs.marks_merge_comm, NodeAttrs.frequency_merge_comm]
  · rw [hwfa.edgeAttrs?_merge hwfb, hwfb.edgeAttrs?_merge hwfa]
    exact merge_some_comm EdgeAttrs.flags_merge_comm _ _
  · exact (WellFormed.merge a a).identities_perm hwfa fun call => by rw [hself]
  · rw [hwfa.edgeAttrs?_merge hwfa, hwfa.reconcile_self]
    cases a.edgeAttrs? u v with
    | none => rfl
    | some attrs => exact congrArg some attrs.merge_self

/-- A listing that knows where both functions are. -/
def locatedCall : CallGraph Rat :=
  empty.addEdge { name := "main", signature := "a.c" } { name := "f", signature := "b.c" }
    (.call .cflow)

/-- A profile that knows both functions by name only. -/
def profiledCall : CallGraph Rat :=
  empty.addEdge { name := "main" } { name := "f" } (.call .gprof)

theorem built_locatedCall : Built locatedCall := (Built.empty "").addEdge _ _ _

theorem built_profiledCall : Built profiledCall := (Built.empty "").addEdge _ _ _

theorem merge_profiledCall_locatedCall : Built locatedCall ∧ Built profiledCall ∧
    ((profiledCall.merge locatedCall).edgeAttrs? { name := "main", signature := "a.c" }
      { name := "f", signature := "b.c" }).map (fun attrs => { attrs with weight := none }) =
      some { cflow := true, gprof := true, isCall := true } := by
  have hcomm := (built_locatedCall.merge_comm_and_self built_profiledCall).2.2.1
  refine ⟨built_locatedCall, built_profiledCall, ?_⟩
  rw [← hcomm]
  decide

end CallGraph

end AttackSurface
