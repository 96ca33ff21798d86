import AttackSurface.Proofs.Graph.Merge
import AttackSurface.Proofs.Graph.Quotient

/-! The union of graphs as a join. Where a node or an edge is in several graphs, marks and flags are
united, the greatest frequency counts, and of scores and weights the first one stays. How the graphs
are grouped never matters, and their order only for scores and weights. -/
namespace AttackSurface

/-! ## Attributes of three graphs -/

theorem NodeAttrs.merge_assoc {α : Type} (a b c : NodeAttrs α) :
    (a.merge b).merge c = a.merge (b.merge c) := by
  have hmarks : (a.marks.union b.marks).union c.marks = a.marks.union (b.marks.union c.marks) := by
    apply Marks.ext_has
    intro mark
    simp only [Marks.has_union, Bool.or_assoc]
  have hfrequency := (Option.associative_merge (max : UInt32 → UInt32 → UInt32)).assoc
    a.frequency b.frequency c.frequency
  simp only [merge, mergeWith, hmarks, hfrequency, Scores.merge_assoc]

theorem EdgeAttrs.merge_assoc (a b c : EdgeAttrs) : (a.merge b).merge c = a.merge (b.merge c) := by
  simp only [merge, Bool.or_assoc, Option.or_assoc]

/-! ## Frequencies read off their signs -/

theorem NodeAttrs.frequency_eq_of_shows {α : Type} {a b : NodeAttrs α}
    (h : ∀ sign, a.shows sign = b.shows sign) : a.frequency = b.frequency := by
  have hreaches (n : UInt32) :
      b.frequency.any (n ≤ ·) ↔ ∃ m ∈ {m | b.frequency = some m}, n ≤ m := by
    simp only [Option.any_eq_true, decide_eq_true_eq, Set.mem_ofPred_eq]
  have hsame (n : UInt32) : a.frequency.any (n ≤ ·) = b.frequency.any (n ≤ ·) := h (.seenBy n)
  ext n
  rw [CallGraph.eq_some_iff_isGreatest fun n => (hsame n ▸ hreaches n),
    CallGraph.eq_some_iff_isGreatest hreaches]

namespace CallGraph

variable {α : Type} {g h a b c : CallGraph α} {call u v : Call}

/-! ## Graphs that agree -/

/-- The same nodes and edges with the same attributes, whatever slots they are in. -/
structure SameContent (a b : CallGraph α) : Prop where
  identities : a.identities.Perm b.identities
  attrs? : ∀ call, a.attrs? call = b.attrs? call
  edgeAttrs? : ∀ u v, a.edgeAttrs? u v = b.edgeAttrs? u v

/-- The same nodes and edges with the same flags, but maybe other scores and weights. -/
structure SameFlags (a b : CallGraph α) : Prop where
  identities : a.identities.Perm b.identities
  attrs? : ∀ call, (a.attrs? call).map (fun attrs => (attrs.marks, attrs.frequency)) =
    (b.attrs? call).map fun attrs => (attrs.marks, attrs.frequency)
  edgeAttrs? : ∀ u v, (a.edgeAttrs? u v).map (fun attrs => { attrs with weight := none }) =
    (b.edgeAttrs? u v).map fun attrs => { attrs with weight := none }

/-- The score that a node has under a name. -/
def score? (g : CallGraph α) (call : Call) (name : String) : Option α :=
  (g.attrs? call).bind (·.scores.get? name)

def weight? (g : CallGraph α) (u v : Call) : Option Nat := (g.edgeAttrs? u v).bind (·.weight)

theorem bind_merge {β γ : Type} {f : β → β → β} {observe : β → Option γ}
    {op : Option γ → Option γ → Option γ} [Std.LawfulIdentity op none]
    (hf : ∀ x y, observe (f x y) = op (observe x) (observe y)) (x y : Option β) :
    (x.merge f y).bind observe = op (x.bind observe) (y.bind observe) := by
  cases x with
  | none =>
    rw [Option.merge_none_left]
    exact (Std.LawfulLeftIdentity.left_id _).symm
  | some x =>
    cases y with
    | none =>
      rw [Option.merge_none_right]
      exact (Std.LawfulRightIdentity.right_id _).symm
    | some y => exact hf x y

namespace WellFormed

theorem sameContent (ha : a.WellFormed) (hb : b.WellFormed)
    (attrs? : ∀ call, a.attrs? call = b.attrs? call)
    (edgeAttrs? : ∀ u v, a.edgeAttrs? u v = b.edgeAttrs? u v) : a.SameContent b :=
  ⟨ha.identities_perm hb fun call => by rw [attrs?], attrs?, edgeAttrs?⟩

/-- Graphs that show the same signs differ in scores and weights at most. -/
theorem sameFlags_of_shows (ha : a.WellFormed) (hb : b.WellFormed)
    (nodes : ∀ sign call, a.nodeShows sign call = b.nodeShows sign call)
    (edges : ∀ sign u v, a.edgeShows sign u v = b.edgeShows sign u v) : a.SameFlags b := by
  refine ⟨ha.identities_perm hb fun call => ?_, fun call => ?_, fun u v => ?_⟩
  · rw [ha.isSome_attrs?, hb.isSome_attrs?, ← ha.nodeShows_present, ← hb.nodeShows_present, nodes]
  · apply map_eq_map_of_any (nodes · call) .present
    · intro attrs
      rfl
    · intro x _ y _ hsigns
      rw [NodeAttrs.marks_eq_of_shows hsigns, NodeAttrs.frequency_eq_of_shows hsigns]
  · apply map_eq_map_of_any (edges · u v) .present
    · intro attrs
      rfl
    · intro x _ y _ hsigns
      exact EdgeAttrs.flags_eq_of_shows hsigns

/-! ## Unions -/

theorem attrs?_union (ha : a.WellFormed) (hb : b.WellFormed) (call : Call) :
    (a.union b).attrs? call = (a.attrs? call).merge NodeAttrs.merge (b.attrs? call) :=
  ha.attrs?_unionWith hb

theorem edgeAttrs?_union (ha : a.WellFormed) (hb : b.WellFormed) (u v : Call) :
    (a.union b).edgeAttrs? u v = (a.edgeAttrs? u v).merge EdgeAttrs.merge (b.edgeAttrs? u v) :=
  ha.edgeAttrs?_unionWith hb

theorem nodeShows_union (ha : a.WellFormed) (hb : b.WellFormed) (sign : NodeSign) (call : Call) :
    (a.union b).nodeShows sign call = (a.nodeShows sign call || b.nodeShows sign call) :=
  ha.nodeShows_unionWith hb (NodeAttrs.shows_merge sign)

theorem edgeShows_union (ha : a.WellFormed) (hb : b.WellFormed) (sign : EdgeSign) (u v : Call) :
    (a.union b).edgeShows sign u v = (a.edgeShows sign u v || b.edgeShows sign u v) :=
  ha.edgeShows_unionWith hb sign

theorem mem_identities_union (ha : a.WellFormed) (hb : b.WellFormed) (identity : String) :
    identity ∈ (a.union b).identities ↔ identity ∈ a.identities ∨ identity ∈ b.identities := by
  have hfile : (Call.ofFile identity).identity = identity := rfl
  rw [← hfile, ← (ha.union b).nodeShows_present, ha.nodeShows_union hb, Bool.or_eq_true,
    ha.nodeShows_present, hb.nodeShows_present]

theorem union_assoc (ha : a.WellFormed) (hb : b.WellFormed) (hc : c.WellFormed) :
    ((a.union b).union c).SameContent (a.union (b.union c)) := by
  have hnodes : Std.Associative (NodeAttrs.merge (α := α)) := ⟨NodeAttrs.merge_assoc⟩
  have hedges : Std.Associative EdgeAttrs.merge := ⟨EdgeAttrs.merge_assoc⟩
  apply ((ha.union b).union c).sameContent (ha.union (b.union c))
  · intro call
    rw [(ha.union b).attrs?_union hc, ha.attrs?_union hb, ha.attrs?_union (hb.union c),
      hb.attrs?_union hc, (Option.associative_merge NodeAttrs.merge).assoc]
  · intro u v
    rw [(ha.union b).edgeAttrs?_union hc, ha.edgeAttrs?_union hb, ha.edgeAttrs?_union (hb.union c),
      hb.edgeAttrs?_union hc, (Option.associative_merge EdgeAttrs.merge).assoc]

theorem empty_union (ha : a.WellFormed) (source : String) :
    ((empty source).union a).SameContent a := by
  apply ((wellFormed_empty source).union a).sameContent ha
  · intro call
    exact ha.attrs?_empty_union source
  · intro u v
    exact ha.edgeAttrs?_empty_union source

theorem union_empty (ha : a.WellFormed) (source : String) :
    (a.union (empty source)).SameContent a := by
  have hempty : (empty source : CallGraph α).WellFormed := wellFormed_empty source
  apply (ha.union _).sameContent ha
  · intro call
    rw [ha.attrs?_union hempty]
    exact Option.merge_none_right
  · intro u v
    rw [ha.edgeAttrs?_union hempty]
    exact Option.merge_none_right

theorem union_self (ha : a.WellFormed) : (a.union a).SameContent a := by
  apply (ha.union a).sameContent ha
  · intro call
    rw [ha.attrs?_union ha]
    cases a.attrs? call with
    | none => rfl
    | some attrs => exact congrArg some attrs.merge_self
  · intro u v
    rw [ha.edgeAttrs?_union ha]
    cases a.edgeAttrs? u v with
    | none => rfl
    | some attrs => exact congrArg some attrs.merge_self

theorem union_comm (ha : a.WellFormed) (hb : b.WellFormed) :
    (a.union b).SameFlags (b.union a) := by
  apply (ha.union b).sameFlags_of_shows (hb.union a)
  · intro sign call
    rw [ha.nodeShows_union hb, hb.nodeShows_union ha, Bool.or_comm]
  · intro sign u v
    rw [ha.edgeShows_union hb, hb.edgeShows_union ha, Bool.or_comm]

theorem frequency?_union (ha : a.WellFormed) (hb : b.WellFormed) (call : Call) :
    (a.union b).frequency? call = (a.frequency? call).merge max (b.frequency? call) := by
  rw [frequency?, ha.attrs?_union hb]
  apply bind_merge
  intro x y
  rfl

theorem score?_union (ha : a.WellFormed) (hb : b.WellFormed) (call : Call) (name : String) :
    (a.union b).score? call name = (a.score? call name).or (b.score? call name) := by
  rw [score?, ha.attrs?_union hb]
  apply bind_merge
  intro x y
  exact x.scores.get?_merge y.scores name

theorem weight?_union (ha : a.WellFormed) (hb : b.WellFormed) (u v : Call) :
    (a.union b).weight? u v = (a.weight? u v).or (b.weight? u v) := by
  rw [weight?, ha.edgeAttrs?_union hb]
  apply bind_merge
  intro x y
  rfl

/-! ## Folding graphs -/

variable {graphs others : List (CallGraph α)}

theorem foldl_union (hg : g.WellFormed) (graphs : List (CallGraph α)) :
    (graphs.foldl CallGraph.union g).WellFormed :=
  List.foldlRecOn graphs _ hg fun _ hsum x _ => hsum.union x

/-- What a union shows exactly if one of two graphs does, a fold shows if one of all does. -/
theorem shows_foldl_union (shows : CallGraph α → Bool)
    (step : ∀ {a b}, a.WellFormed → b.WellFormed → shows (a.union b) = (shows a || shows b))
    (hg : g.WellFormed) (hall : ∀ x ∈ graphs, x.WellFormed) :
    shows (graphs.foldl CallGraph.union g) = (g :: graphs).any shows := by
  induction graphs generalizing g with
  | nil => simp
  | cons x rest ih =>
    obtain ⟨hx, hrest⟩ := List.forall_mem_cons.1 hall
    rw [List.foldl_cons, ih (hg.union x) hrest, List.any_cons, List.any_cons, List.any_cons,
      step hg hx, Bool.or_assoc]

/-- It matters which graphs are folded, but not in which order or how often each. -/
theorem sameFlags_foldl_union (hall : ∀ x ∈ g :: graphs, x.WellFormed)
    (same : ∀ x, x ∈ g :: graphs ↔ x ∈ h :: others) :
    (graphs.foldl CallGraph.union g).SameFlags (others.foldl CallGraph.union h) := by
  obtain ⟨hg, hgraphs⟩ := List.forall_mem_cons.1 hall
  obtain ⟨hh, hothers⟩ := List.forall_mem_cons.1 fun x hx => hall x ((same x).2 hx)
  have hsame (shows : CallGraph α → Bool)
      (step : ∀ {a b}, a.WellFormed → b.WellFormed → shows (a.union b) = (shows a || shows b)) :
      shows (graphs.foldl CallGraph.union g) = shows (others.foldl CallGraph.union h) := by
    rw [shows_foldl_union shows step hg hgraphs, shows_foldl_union shows step hh hothers,
      Bool.eq_iff_iff]
    simp only [List.any_eq_true, same]
  apply (hg.foldl_union graphs).sameFlags_of_shows (hh.foldl_union others)
  · intro sign call
    exact hsame (·.nodeShows sign call) fun ha hb => ha.nodeShows_union hb sign call
  · intro sign u v
    exact hsame (·.edgeShows sign u v) fun ha hb => ha.edgeShows_union hb sign u v

/-- A union has the nodes and edges of both graphs and shows what one of them shows; a node keeps
the greatest frequency, and of scores and weights the first stays. Unions are associative in all of
this, the empty graph adds nothing on either side and neither does the graph itself. In another
order the flags are still the same, so graphs can be folded in any. -/
theorem union_is_join (ha : a.WellFormed) (hb : b.WellFormed) (hc : c.WellFormed) :
    (∀ identity, identity ∈ (a.union b).identities ↔
      identity ∈ a.identities ∨ identity ∈ b.identities) ∧
    (∀ u v, ((a.union b).edgeAttrs? u v).isSome ↔
      (a.edgeAttrs? u v).isSome ∨ (b.edgeAttrs? u v).isSome) ∧
    (∀ sign u, (a.union b).nodeShows sign u = (a.nodeShows sign u || b.nodeShows sign u)) ∧
    (∀ sign u v, (a.union b).edgeShows sign u v =
      (a.edgeShows sign u v || b.edgeShows sign u v)) ∧
    (∀ u, (a.union b).frequency? u = (a.frequency? u).merge max (b.frequency? u)) ∧
    (∀ u name, (a.union b).score? u name = (a.score? u name).or (b.score? u name)) ∧
    (∀ u v, (a.union b).weight? u v = (a.weight? u v).or (b.weight? u v)) ∧
    ((a.union b).union c).SameContent (a.union (b.union c)) ∧
    (∀ source, ((empty source).union a).SameContent a) ∧
    (∀ source, (a.union (empty source)).SameContent a) ∧
    (a.union a).SameContent a ∧
    (a.union b).SameFlags (b.union a) ∧
    ∀ first second : CallGraph α, ∀ graphs others : List (CallGraph α),
      (∀ x ∈ first :: graphs, x.WellFormed) → (first :: graphs).Perm (second :: others) →
        (graphs.foldl CallGraph.union first).SameFlags (others.foldl CallGraph.union second) := by
  refine ⟨ha.mem_identities_union hb, fun u v => ?_, ha.nodeShows_union hb, ha.edgeShows_union hb,
    ha.frequency?_union hb, ha.score?_union hb, ha.weight?_union hb, ha.union_assoc hb hc,
    ha.empty_union, ha.union_empty, ha.union_self, ha.union_comm hb, ?_⟩
  · rw [← edgeShows_present, ha.edgeShows_union hb, Bool.or_eq_true, edgeShows_present,
      edgeShows_present]
  · intro first second graphs others hall hperm
    apply sameFlags_foldl_union hall
    intro x
    exact hperm.mem_iff

end WellFormed

/-- A listing with a score of its own for `main`. -/
def scoredListing : CallGraph Rat :=
  (empty.addEdge { name := "main" } { name := "f" } (.call .cflow)).addNode { name := "main" }
    { marks := { entry := true }, scores := Scores.empty.set "risk" 1 }

/-- A profile of one of its calls, weighted, and of another one. -/
def weightedProfile : CallGraph Rat :=
  ((empty.addEdge { name := "main" } { name := "f" } { gprof := true, weight := some 3 }).addEdge
    { name := "f" } { name := "g" } (.call .gprof)).addNode { name := "main" }
      { frequency := some 1, scores := Scores.empty.set "risk" 2 }

/-- Another profile of the same calls. -/
def secondProfile : CallGraph Rat :=
  (empty.addEdge { name := "main" } { name := "f" } { gprof := true, weight := some 5 }).addNode
    { name := "main" } { frequency := some 2 }

theorem built_scoredListing : Built scoredListing := ((Built.empty "").addEdge _ _ _).addNode _ _

theorem built_weightedProfile : Built weightedProfile :=
  (((Built.empty "").addEdge _ _ _).addEdge _ _ _).addNode _ _

theorem built_secondProfile : Built secondProfile := ((Built.empty "").addEdge _ _ _).addNode _ _

theorem join_of_profiles : scoredListing.WellFormed ∧ weightedProfile.WellFormed ∧
    secondProfile.WellFormed ∧
    (scoredListing.union weightedProfile).score? { name := "main" } "risk" = some 1 ∧
    (scoredListing.union weightedProfile).weight? { name := "main" } { name := "f" } = some 3 ∧
    "g" ∈ (scoredListing.union weightedProfile).identities ∧
    ((scoredListing.union weightedProfile).union secondProfile).SameContent
      (scoredListing.union (weightedProfile.union secondProfile)) ∧
    ([weightedProfile, secondProfile].foldl union scoredListing).SameFlags
      ([scoredListing, weightedProfile].foldl union secondProfile) := by
  have hlisting := built_scoredListing.wellFormed
  have hprofile := built_weightedProfile.wellFormed
  have hsecond := built_secondProfile.wellFormed
  obtain ⟨hnodes, -, -, -, -, hscores, hweights, hassoc, -, -, -, -, hfolds⟩ :=
    hlisting.union_is_join hprofile hsecond
  refine ⟨hlisting, hprofile, hsecond, ?_, ?_, ?_, hassoc, ?_⟩
  · rw [hscores]
    decide +kernel
  · rw [hweights]
    decide +kernel
  · rw [hnodes]
    decide +kernel
  · apply hfolds
    · simp only [List.forall_mem_cons]
      exact ⟨hlisting, hprofile, hsecond, nofun⟩
    · exact (List.perm_append_comm :
        ([scoredListing, weightedProfile] ++ [secondProfile]).Perm _)

end CallGraph

end AttackSurface
