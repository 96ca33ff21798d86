import AttackSurface.Proofs.Graph.Built
import Mathlib.Data.List.TakeWhile
import Mathlib.Order.Bounds.Basic

/-! A reconciliation as a quotient. Of functions whose names have no space, no located one has the
identity of one still to be located. So every call moves once, and the reconciled graph is the image
of the graph under the map that locates each call: what falls together is merged, and nothing else
changes. -/
namespace AttackSurface

/-- A function whose name has no space, so that its identity tells name and signature apart. -/
structure Call.IsPlain (call : Call) : Prop where
  function : call.granularity = .function
  no_space : ' ' ∉ call.name.toList

instance (call : Call) : Decidable call.IsPlain :=
  decidable_of_iff (call.granularity = .function ∧ ' ' ∉ call.name.toList)
    ⟨fun h => ⟨h.1, h.2⟩, fun h => ⟨h.1, h.2⟩⟩

theorem Call.IsPlain.takeWhile_identity {call : Call} (h : call.IsPlain) :
    (call.identity.toList.takeWhile fun c => c != ' ') = call.name.toList := by
  have hname : ∀ c ∈ call.name.toList, (c != ' ') = true := fun c hc => by
    rw [bne_iff_ne]
    rintro rfl
    exact h.no_space hc
  unfold identity
  simp only [h.function]
  split
  · exact List.takeWhile_eq_self_iff.2 hname
  · rw [String.toList_append, String.toList_append, List.append_assoc,
      List.takeWhile_append_of_pos hname]
    simp

/-- The identity of a plain function ends its name at the first space. -/
theorem Call.IsPlain.eq_of_identity {a b : Call} (ha : a.IsPlain) (hb : b.IsPlain)
    (h : a.identity = b.identity) : a.name = b.name ∧ a.signature = b.signature := by
  have hname : a.name = b.name := by
    rw [← String.toList_inj, ← ha.takeWhile_identity, ← hb.takeWhile_identity, h]
  refine ⟨hname, ?_⟩
  unfold identity at h
  simp only [ha.function, hb.function, hname] at h
  have hspace (signature : String) : b.name ++ " " ++ signature ≠ b.name := by
    intro heq
    have hlength := congrArg (·.toList.length) heq
    simp [String.toList_append] at hlength
  split at h <;> split at h
  · rename_i hsa hsb
    rw [hsa, hsb]
  · exact absurd h.symm (hspace _)
  · exact absurd h (hspace _)
  · simpa [← String.toList_inj, String.toList_append] using h

namespace CallGraph

variable {α : Type} {g reference : CallGraph α} {call target u v x y : Call}

/-- What a call is once a graph was reconciled: itself, unless it is located. -/
def locate (reference : CallGraph α) (call : Call) : Call := (reference.located? call).getD call

def frequency? (g : CallGraph α) (call : Call) : Option UInt32 :=
  (g.attrs? call).bind (·.frequency)

/-- The nodes and edges of `quotient` are those of `g` under `φ`. What falls together has the marks
and flags of all, and the greatest frequency. -/
structure IsQuotient (φ : Call → Call) (g quotient : CallGraph α) : Prop where
  identities : ∀ identity, identity ∈ quotient.identities ↔ ∃ u ∈ g.calls, (φ u).identity = identity
  marks : ∀ x mark, (quotient.attrs? x).any (·.marks.has mark) ↔
    ∃ u ∈ g.calls, (φ u).identity = x.identity ∧ (g.attrs? u).any (·.marks.has mark)
  frequency : ∀ x n, quotient.frequency? x = some n ↔
    IsGreatest {m | ∃ u ∈ g.calls, (φ u).identity = x.identity ∧ g.frequency? u = some m} n
  edges : ∀ sign x y, quotient.edgeShows sign x y ↔
    ∃ u ∈ g.calls, ∃ v ∈ g.calls, (φ u).identity = x.identity ∧ (φ v).identity = y.identity ∧
      g.edgeShows sign u v

/-! ## Identities of located calls -/

theorem identity_of_nameOnly (hplain : call.IsPlain) (hsig : call.signature = "") :
    ' ' ∉ call.identity.toList := by
  have hidentity : call.identity = call.name := by simp [Call.identity, hplain.function, hsig]
  exact hidentity ▸ hplain.no_space

theorem identity_withSignature (hplain : call.IsPlain) {signature : String}
    (hsigned : signature ≠ "") : ' ' ∈ (call.withSignature signature).identity.toList := by
  simp [Call.identity, Call.withSignature, hplain.function, hsigned]

theorem space_mem_of_located? (h : reference.WellFormed) (hplain : call.IsPlain)
    (hlocated : reference.located? call = some target) : ' ' ∈ target.identity.toList := by
  obtain ⟨-, -, signature, hlocates, rfl⟩ := h.located?_eq_some.1 hlocated
  exact identity_withSignature hplain hlocates.1

theorem space_notMem_of_located? (h : reference.WellFormed) (hplain : call.IsPlain)
    (hlocated : reference.located? call = some target) : ' ' ∉ call.identity.toList := by
  obtain ⟨-, hsig, -⟩ := h.located?_eq_some.1 hlocated
  exact identity_of_nameOnly hplain hsig

namespace WellFormed

variable (h : g.WellFormed) (hr : reference.WellFormed) (plain : ∀ call ∈ g.calls, call.IsPlain)

include h hr plain

/-- All renamings together locate each call. -/
theorem relabels_relocations (hu : u ∈ g.calls) :
    relabels (g.relocations reference) u = reference.locate u := by
  unfold locate
  cases hlocated : reference.located? u with
  | none =>
    refine relabels_of_other fun move hmove hi => ?_
    obtain ⟨hmem, hmoved⟩ := mem_relocations.1 hmove
    rw [← h.eq_of_mem_calls hu hmem hi, hlocated] at hmoved
    cases hmoved
  | some target =>
    refine relabels_of_mem (h.distinct_relocations reference) (fun a ha b hb hi => ?_)
      (mem_relocations.2 ⟨hu, hlocated⟩)
    obtain ⟨hacall, halocated⟩ := mem_relocations.1 ha
    obtain ⟨hbcall, hblocated⟩ := mem_relocations.1 hb
    apply space_notMem_of_located? hr (plain _ hbcall) hblocated
    rw [← hi]
    exact space_mem_of_located? hr (plain _ hacall) halocated

theorem nodeShows_reconcile (sign : NodeSign) :
    (g.reconcile reference).nodeShows sign x ↔
      ∃ u ∈ g.calls, (reference.locate u).identity = x.identity ∧ g.nodeShows sign u := by
  rw [reconcile_eq_renames, h.nodeShows_renames]
  constructor
  · rintro ⟨u, hux, hu⟩
    obtain ⟨w, hw, hi⟩ := List.mem_map.1 (h.mem_identities_of_nodeShows hu)
    refine ⟨w, hw, ?_, by rwa [nodeShows_congr sign hi]⟩
    rw [← h.relabels_relocations hr plain hw, relabels_congr hi, hux]
  · rintro ⟨u, hmem, hux, hu⟩
    exact ⟨u, by rw [h.relabels_relocations hr plain hmem, hux], hu⟩

theorem edgeShows_reconcile (sign : EdgeSign) :
    (g.reconcile reference).edgeShows sign x y ↔
      ∃ u ∈ g.calls, ∃ v ∈ g.calls, (reference.locate u).identity = x.identity ∧
        (reference.locate v).identity = y.identity ∧ g.edgeShows sign u v := by
  rw [reconcile_eq_renames, h.edgeShows_renames]
  constructor
  · rintro ⟨u, v, hux, hvy, huv⟩
    obtain ⟨hu, hv⟩ := h.mem_identities_of_edgeShows huv
    obtain ⟨a, ha, hau⟩ := List.mem_map.1 hu
    obtain ⟨b, hb, hbv⟩ := List.mem_map.1 hv
    refine ⟨a, ha, b, hb, ?_, ?_, by rwa [edgeShows_congr sign hau hbv]⟩
    · rw [← h.relabels_relocations hr plain ha, relabels_congr hau, hux]
    · rw [← h.relabels_relocations hr plain hb, relabels_congr hbv, hvy]
  · rintro ⟨u, hu, v, hv, hux, hvy, huv⟩
    refine ⟨u, v, ?_, ?_, huv⟩
    · rw [h.relabels_relocations hr plain hu, hux]
    · rw [h.relabels_relocations hr plain hv, hvy]

theorem mem_identities_reconcile (identity : String) :
    identity ∈ (g.reconcile reference).identities ↔
      ∃ u ∈ g.calls, (reference.locate u).identity = identity := by
  have hfile : (Call.ofFile identity).identity = identity := rfl
  rw [← hfile, ← (h.reconcile reference).nodeShows_present, h.nodeShows_reconcile hr plain]
  refine exists_congr fun u => and_congr_right fun hu => and_iff_left ?_
  exact h.nodeShows_present.2 (List.mem_map_of_mem hu)

end WellFormed

/-! ## Frequencies -/

/-- The greatest of some numbers is known by the numbers that it is not below. -/
theorem eq_some_iff_isGreatest {β : Type} [LinearOrder β] {frequency : Option β}
    {numbers : Set β} (reaches : ∀ n, frequency.any (n ≤ ·) ↔ ∃ m ∈ numbers, n ≤ m) (n : β) :
    frequency = some n ↔ IsGreatest numbers n := by
  constructor
  · rintro rfl
    have hbound (m : β) (hm : m ∈ numbers) : m ≤ n := by
      simpa using (reaches m).2 ⟨m, hm, le_refl m⟩
    obtain ⟨m, hm, hle⟩ := (reaches n).1 (by simp)
    obtain rfl := le_antisymm hle (hbound m hm)
    exact ⟨hm, fun k hk => hbound k hk⟩
  · rintro ⟨hn, hbound⟩
    have hreaches := (reaches n).2 ⟨n, hn, le_refl n⟩
    cases frequency with
    | none => cases hreaches
    | some k =>
      obtain ⟨m, hm, hle⟩ := (reaches k).1 (by simp)
      have hge : n ≤ k := by simpa using hreaches
      rw [le_antisymm (le_trans hle (hbound hm)) hge]

theorem nodeShows_seenBy (n : UInt32) :
    g.nodeShows (.seenBy n) u = (g.frequency? u).any (n ≤ ·) := by
  unfold nodeShows frequency?
  cases g.attrs? u <;> rfl

/-! ## The reconciled graph -/

theorem locate_eq_self_iff (hr : reference.WellFormed) :
    reference.locate u = u ↔ reference.located? u = none := by
  unfold locate
  cases hlocated : reference.located? u with
  | none => simp
  | some target =>
    obtain ⟨-, hsig, signature, hlocates, rfl⟩ := hr.located?_eq_some.1 hlocated
    simp only [Option.getD_some, reduceCtorEq, iff_false]
    intro heq
    exact hlocates.1 ((congrArg Call.signature heq).trans hsig)

theorem length_relocations (hr : reference.WellFormed) (g : CallGraph α) :
    (g.relocations reference).length = g.calls.countP fun u => reference.locate u ≠ u := by
  rw [relocations, List.length_filterMap_eq_countP]
  refine List.countP_congr fun u _ => ?_
  rw [decide_eq_true_eq, Ne, locate_eq_self_iff hr]
  cases reference.located? u <;> simp

namespace WellFormed

variable (h : g.WellFormed) (hr : reference.WellFormed) (plain : ∀ call ∈ g.calls, call.IsPlain)

include h hr plain

theorem isQuotient_reconcile : IsQuotient reference.locate g (g.reconcile reference) where
  identities := h.mem_identities_reconcile hr plain
  marks x mark := h.nodeShows_reconcile hr plain (.mark mark)
  frequency x := by
    refine eq_some_iff_isGreatest fun n => ?_
    rw [← nodeShows_seenBy, h.nodeShows_reconcile hr plain]
    simp only [nodeShows_seenBy, Option.any_eq_true, decide_eq_true_eq, Set.mem_ofPred_eq]
    constructor
    · rintro ⟨u, hu, hux, m, hm, hle⟩
      exact ⟨m, ⟨u, hu, hux, hm⟩, hle⟩
    · rintro ⟨m, ⟨u, hu, hux, hm⟩, hle⟩
      exact ⟨u, hu, hux, m, hm, hle⟩
  edges sign x y := h.edgeShows_reconcile hr plain sign

/-- No call is left that could be located. -/
theorem relocations_reconcile : (g.reconcile reference).relocations reference = [] := by
  refine List.eq_nil_iff_forall_not_mem.2 fun move hmove => ?_
  obtain ⟨hx, hlocated⟩ := mem_relocations.1 hmove
  have hidentity : move.1.identity ∈ (g.reconcile reference).identities := List.mem_map_of_mem hx
  rw [reconcile_eq_renames] at hx
  rcases h.mem_calls_of_renames (fun move hmove => (mem_relocations.1 hmove).1)
    (h.distinct_relocations reference) hx with hx | ⟨old, hold, heq⟩
  · -- Only a call that stays has its identity without a space, and it would not have stayed.
    obtain ⟨u, hu, hi⟩ := (h.mem_identities_reconcile hr plain _).1 hidentity
    unfold locate at hi
    cases hu' : reference.located? u with
    | none =>
      rw [hu', Option.getD_none] at hi
      rw [h.eq_of_mem_calls hu hx hi, hlocated] at hu'
      cases hu'
    | some target =>
      rw [hu', Option.getD_some] at hi
      apply space_notMem_of_located? hr (plain _ hx) hlocated
      rw [← hi]
      exact space_mem_of_located? hr (plain _ hu) hu'
  · obtain ⟨-, -, signature, hlocates, htarget⟩ :=
      hr.located?_eq_some.1 (mem_relocations.1 hold).2
    obtain ⟨-, hsig, -⟩ := hr.located?_eq_some.1 hlocated
    rw [heq, htarget] at hsig
    exact hlocates.1 hsig

end WellFormed

/-- Reconciling `g` with a reference gives its quotient under the map that sends a call of known
name and unknown signature to the signature of its single namesake in the reference, if that has
one. It counts the calls that move, and a second time none does. -/
theorem Built.reconcile_quotient [Scalar α] (hg : Built g) (hr : Built reference)
    (plain : ∀ call ∈ g.calls, call.IsPlain) :
    (∀ u signature, u.name ≠ "" → u.signature = "" → reference.Locates u.name signature →
      reference.locate u = u.withSignature signature) ∧
    (∀ u, ¬ (u.name ≠ "" ∧ u.signature = "" ∧ ∃ signature, reference.Locates u.name signature) →
      reference.locate u = u) ∧
    IsQuotient reference.locate g (g.reconcile reference) ∧
    g.reconcileCounted reference =
      (g.reconcile reference, g.calls.countP fun u => reference.locate u ≠ u) ∧
    (g.reconcile reference).reconcileCounted reference = (g.reconcile reference, 0) := by
  have hwf := hg.wellFormed
  have hrwf := hr.wellFormed
  refine ⟨fun u signature hname hsig hlocates => ?_, fun u hnot => ?_,
    hwf.isQuotient_reconcile hrwf plain, ?_, ?_⟩
  · have hlocated : reference.located? u = some (u.withSignature signature) :=
      hrwf.located?_eq_some.2 ⟨hname, hsig, signature, hlocates, rfl⟩
    rw [locate, hlocated, Option.getD_some]
  · rw [locate_eq_self_iff hrwf, Option.eq_none_iff_forall_ne_some]
    intro target hlocated
    obtain ⟨hname, hsig, signature, hlocates, -⟩ := hrwf.located?_eq_some.1 hlocated
    exact hnot ⟨hname, hsig, signature, hlocates⟩
  · rw [reconcileCounted_eq, reconcile_eq_renames, length_relocations hrwf]
  · rw [reconcileCounted_eq, hwf.relocations_reconcile hrwf plain]
    rfl

/-- A function that calls itself and its own located twin. -/
def twins : CallGraph Rat :=
  (empty.addEdge { name := "f" } { name := "f" } (.call .gprof)).addEdge { name := "f" }
    { name := "f", signature := "b.c" } (.returning .gprof)

def locatedTwin : CallGraph Rat := empty.addNode { name := "f", signature := "b.c" }

theorem built_twins : Built twins := ((Built.empty "").addEdge _ _ _).addEdge _ _ _

theorem built_locatedTwin : Built locatedTwin := (Built.empty "").addNode _ _

theorem reconcile_twins : Built twins ∧ Built locatedTwin ∧
    (∀ call ∈ twins.calls, call.IsPlain) ∧ (twins.reconcileCounted locatedTwin).2 = 1 ∧
    (twins.reconcile locatedTwin).edgeShows .call { name := "f", signature := "b.c" }
      { name := "f", signature := "b.c" } := by
  have hplain : ∀ call ∈ twins.calls, call.IsPlain := by decide
  obtain ⟨-, -, hquotient, hcount, -⟩ := built_twins.reconcile_quotient built_locatedTwin hplain
  refine ⟨built_twins, built_locatedTwin, hplain, ?_⟩
  rw [hcount, hquotient.edges]
  decide

end CallGraph

end AttackSurface
