import AttackSurface.Gprof.Aggregate
import AttackSurface.Proofs.Graph.Grown
import AttackSurface.Proofs.Graph.Loaded

/-! Aggregates of profiles. Frequencies are added where nodes meet, and the ends of an edge are
nodes already when the edge is added. So a node is counted once for each profile that has it, and
neither the counts nor the rest depend on the order in which the profiles arrive. -/
namespace AttackSurface

variable {α : Type}

namespace CallGraph

/-- A graph as one profile gives it: each of its nodes was seen once. -/
structure SeenOnce (profile : CallGraph α) : Prop where
  wellFormed : profile.WellFormed
  frequency : ∀ call attrs, profile.attrs? call = some attrs → attrs.frequency = some 1

/-- The graph holds what the profiles hold, and counts for each node the profiles that have it. The
count is a word, so it starts again at zero after its greatest value. -/
structure Aggregates (g : CallGraph α) (profiles : List (CallGraph α)) : Prop where
  wellFormed : g.WellFormed
  present : ∀ u, (g.attrs? u).isSome ↔ ∃ profile ∈ profiles, (profile.attrs? u).isSome
  frequency : ∀ u attrs, g.attrs? u = some attrs →
    attrs.frequency = some (.ofNat (profiles.countP fun profile => (profile.attrs? u).isSome))
  mark : ∀ mark u, (g.attrs? u).any (·.marks.has mark) ↔
    ∃ profile ∈ profiles, (profile.attrs? u).any (·.marks.has mark)
  edge : ∀ sign u v, g.edgeShows sign u v ↔ ∃ profile ∈ profiles, profile.edgeShows sign u v
  errors : g.errors.Perm (profiles.flatMap (·.errors))

variable {g profile : CallGraph α} {profiles others : List (CallGraph α)} {u v : Call}

/-! ## One more profile -/

theorem attrs?_addProfile (hg : g.WellFormed) (hp : profile.WellFormed) :
    (Gprof.addProfile g profile).attrs? u =
      (g.attrs? u).merge NodeAttrs.accumulate (profile.attrs? u) :=
  hg.attrs?_unionWith hp

theorem edgeShows_addProfile (hg : g.WellFormed) (hp : profile.WellFormed) {sign : EdgeSign} :
    (Gprof.addProfile g profile).edgeShows sign u v =
      (g.edgeShows sign u v || profile.edgeShows sign u v) := by
  have hedge : (Gprof.addProfile g profile).edgeAttrs? u v =
      (g.edgeAttrs? u v).merge EdgeAttrs.merge (profile.edgeAttrs? u v) :=
    hg.edgeAttrs?_unionWith hp
  rw [edgeShows, hedge]
  exact Option.any_merge (EdgeAttrs.shows_merge sign)

/-- What one of two parts has, their combination has. -/
theorem any_merge_accumulate (mark : Mark) (a b : Option (NodeAttrs α)) :
    (a.merge NodeAttrs.accumulate b).any (·.marks.has mark) =
      (a.any (·.marks.has mark) || b.any (·.marks.has mark)) :=
  Option.any_merge fun _ _ => Marks.has_union ..

theorem Aggregates.empty (source : String) : (empty source : CallGraph α).Aggregates [] where
  wellFormed := wellFormed_empty source
  present _ := by simp [attrs?, node?, slot?, CallGraph.empty]
  frequency _ _ h := by simp [attrs?, node?, slot?, CallGraph.empty] at h
  mark _ _ := by simp [attrs?, node?, slot?, CallGraph.empty]
  edge _ _ _ := by simp [edgeShows, edgeAttrs?, slot?, CallGraph.empty]
  errors := .refl _

theorem Aggregates.addProfile (h : g.Aggregates profiles) (hp : profile.SeenOnce) :
    (Gprof.addProfile g profile).Aggregates (profile :: profiles) where
  wellFormed := (h.wellFormed.unionWith _ profile).withOrigin _ _ _
  present u := by
    rw [attrs?_addProfile h.wellFormed hp.wellFormed, Option.isSome_merge, Bool.or_eq_true,
      h.present, List.exists_mem_cons_iff, or_comm]
  frequency u attrs hattrs := by
    rw [attrs?_addProfile h.wellFormed hp.wellFormed] at hattrs
    cases hold : g.attrs? u with
    | none =>
      have hunseen : (profiles.countP fun profile => (profile.attrs? u).isSome) = 0 := by
        refine List.countP_eq_zero.2 fun earlier hearlier hseen => ?_
        simpa [hold] using (h.present u).2 ⟨earlier, hearlier, hseen⟩
      have hnew : profile.attrs? u = some attrs := by simpa [hold] using hattrs
      rw [hp.frequency u attrs hnew, List.countP_cons, hunseen, hnew]
      rfl
    | some old =>
      have hcount := h.frequency u old hold
      cases hnew : profile.attrs? u with
      | none =>
        obtain rfl : old = attrs := by simpa [hold, hnew] using hattrs
        rw [hcount, List.countP_cons_of_neg (by simp [hnew])]
      | some new =>
        obtain rfl : old.accumulate new = attrs := by simpa [hold, hnew] using hattrs
        have hsum : (old.accumulate new).frequency =
            old.frequency.merge (· + ·) new.frequency := rfl
        rw [hsum, hcount, hp.frequency u new hnew, List.countP_cons_of_pos (by simp [hnew]),
          Option.merge_some_some, UInt32.ofNat_add]
        rfl
  mark mark u := by
    rw [attrs?_addProfile h.wellFormed hp.wellFormed, any_merge_accumulate, Bool.or_eq_true, h.mark,
      List.exists_mem_cons_iff, or_comm]
  edge sign u v := by
    rw [edgeShows_addProfile h.wellFormed hp.wellFormed, Bool.or_eq_true, h.edge,
      List.exists_mem_cons_iff, or_comm]
  errors := (h.errors.append_right profile.errors).trans List.perm_append_comm

/-! ## All profiles -/

/-- The aggregate does not tell the order of the profiles. -/
theorem Aggregates.perm (h : g.Aggregates profiles) (same : profiles.Perm others) :
    g.Aggregates others where
  wellFormed := h.wellFormed
  present u := by simp only [h.present, same.mem_iff]
  frequency u attrs hattrs := by rw [h.frequency u attrs hattrs, same.countP_eq]
  mark mark u := by simp only [h.mark, same.mem_iff]
  edge sign u v := by simp only [h.edge, same.mem_iff]
  errors := h.errors.trans (same.flatMap_right _)

theorem Aggregates.addProfiles (h : g.Aggregates profiles)
    (once : ∀ profile ∈ others, profile.SeenOnce) :
    (others.foldl Gprof.addProfile g).Aggregates (others ++ profiles) := by
  induction others generalizing g profiles with
  | nil => exact h
  | cons profile rest ih =>
    obtain ⟨hprofile, hrest⟩ := List.forall_mem_cons.1 once
    exact (ih (h.addProfile hprofile) hrest).perm List.perm_middle

/-- No count starts again where there are fewer profiles than words. -/
theorem Aggregates.count_eq (h : g.Aggregates profiles) (few : profiles.length < UInt32.size)
    {attrs : NodeAttrs α} (hattrs : g.attrs? u = some attrs) :
    attrs.frequency.map UInt32.toNat =
      some (profiles.countP fun profile => (profile.attrs? u).isSome) := by
  rw [h.frequency u attrs hattrs, Option.map_some, UInt32.toNat_ofNat_of_lt']
  exact Nat.lt_of_le_of_lt List.countP_le_length few

end CallGraph

namespace Gprof

variable {arrivals : List (Except LoadError (CallGraph α))} {graphs : List (CallGraph α)}
  {origin : String}

/-- Profiles that all arrive are added one after the other. -/
theorem aggregate_map_ok (origin : String) (graphs : List (CallGraph α)) :
    aggregate origin (graphs.map .ok) = .ok (graphs.foldl addProfile (.empty origin)) := by
  unfold aggregate
  generalize (CallGraph.empty origin : CallGraph α) = g
  induction graphs generalizing g with
  | nil => rfl
  | cons graph rest ih => exact ih (addProfile g graph)

/-- The aggregate fails exactly if one of the profiles failed to load. -/
theorem isOk_aggregate :
    (aggregate origin arrivals).isOk ↔ ∀ arrival ∈ arrivals, arrival.isOk := by
  unfold aggregate
  generalize (CallGraph.empty origin : CallGraph α) = g
  induction arrivals generalizing g with
  | nil => simp [pure, Except.pure, Except.isOk, Except.toBool]
  | cons arrival rest ih =>
    rw [List.forall_mem_cons]
    cases arrival with
    | error e => simp [bind, Except.bind, Except.map, Except.isOk, Except.toBool]
    | ok profile =>
      have hok : (Except.ok profile : Except LoadError (CallGraph α)).isOk := rfl
      exact (ih (addProfile g profile)).trans (and_iff_right hok).symm

/-- Where the results of all loads are graphs, any order of them is an order of the graphs. -/
theorem exists_perm_of_map_ok (h : arrivals.Perm (graphs.map .ok)) :
    ∃ arrived : List (CallGraph α), arrivals = arrived.map .ok ∧ arrived.Perm graphs := by
  refine ⟨arrivals.filterMap Except.toOption, ?_, ?_⟩
  · have hok : ∀ arrival ∈ arrivals, arrival.toOption.map Except.ok = some arrival := by
      intro arrival hmem
      obtain ⟨graph, -, rfl⟩ := List.mem_map.1 (h.mem_iff.1 hmem)
      rfl
    rw [List.map_filterMap, List.filterMap_congr hok, List.filterMap_some]
  · have hgraphs : (graphs.map Except.ok).filterMap
        (Except.toOption : Except LoadError (CallGraph α) → _) = graphs := by
      rw [List.filterMap_map]
      exact List.filterMap_some
    exact hgraphs ▸ h.filterMap Except.toOption

theorem seenOnce_of_load {files : FileTree} {source : Source} {options : Options}
    {g : CallGraph α} (h : load files source options = .ok g) : g.SeenOnce := by
  obtain ⟨trace, rfl⟩ := exists_trace_of_load h
  exact ⟨CallGraph.wellFormed_ofEvents.withOrigin _ _ _,
    fun _ _ hattrs => (CallGraph.toldBy_of_ofEvents hattrs).frequency⟩

/-- A profile alone is its own aggregate, down to the slots of its nodes and edges. -/
theorem addProfile_empty {profile : CallGraph α} (h : profile.Grown) :
    addProfile (.empty profile.source) profile = profile := by
  have hunion : (CallGraph.empty profile.source).accumulate profile =
      CallGraph.grown profile.source profile.nodes profile.edges := h.unionWith_empty
  calc addProfile (.empty profile.source) profile
    _ = { CallGraph.grown profile.source profile.nodes profile.edges with
          errors := profile.errors } := by rw [addProfile, hunion]; rfl
    _ = profile := h.eq_grown.symm

variable {files : FileTree} {paths : List String} {options : Options}

theorem aggregate_singleton (path : String) :
    aggregate path [load files (.path path) options] =
      (load files (.path path) options : Except LoadError (CallGraph α)) := by
  cases hload : (load files (.path path) options : Except LoadError (CallGraph α)) with
  | error e => rfl
  | ok profile =>
    obtain ⟨trace, rfl⟩ := exists_trace_of_load hload
    have hsource : (CallGraph.ofTrace path .gprof options trace : CallGraph α).source = path :=
      CallGraph.source_ofEvents
    have hgrown : (CallGraph.ofTrace path .gprof options trace : CallGraph α).Grown :=
      CallGraph.grown_ofTrace
    have hadd := addProfile_empty hgrown
    rw [hsource] at hadd
    exact congrArg Except.ok hadd

/-- In whatever order the results of the loads arrive, the aggregate fails exactly if a load did,
and else it counts for each node the positions of the list whose profile has it. One profile alone
is its own aggregate. -/
theorem aggregate_loads {arrivals : List (Except LoadError (CallGraph α))}
    (few : paths.length < UInt32.size)
    (any_order : arrivals.Perm (paths.map fun path => load files (.path path) options)) :
    ((aggregate (", ".intercalate paths) arrivals).isOk = false ↔
      ∃ path ∈ paths,
        (load files (.path path) options : Except LoadError (CallGraph α)).isOk = false) ∧
    (∀ profiles : List (CallGraph α),
      (paths.map fun path => load files (.path path) options) = profiles.map .ok →
      ∃ g, aggregate (", ".intercalate paths) arrivals = .ok g ∧ g.Aggregates profiles ∧
        ∀ u attrs, g.attrs? u = some attrs → attrs.frequency.map UInt32.toNat =
          some (profiles.countP fun profile => (profile.attrs? u).isSome)) ∧
    ∀ path, paths = [path] →
      aggregate (", ".intercalate paths) arrivals = load files (.path path) options := by
  refine ⟨?_, fun profiles hall => ?_, fun path hpath => ?_⟩
  · have hok : (aggregate (", ".intercalate paths) arrivals).isOk ↔ ∀ path ∈ paths,
        (load files (.path path) options : Except LoadError (CallGraph α)).isOk := by
      rw [isOk_aggregate]
      simp only [any_order.mem_iff, List.forall_mem_map]
    rw [← Bool.not_eq_true, hok]
    simp only [not_forall, exists_prop, Bool.not_eq_true]
  · rw [hall] at any_order
    obtain ⟨arrived, rfl, hperm⟩ := exists_perm_of_map_ok any_order
    have honce : ∀ profile ∈ arrived, profile.SeenOnce := by
      intro profile hmem
      have hloaded : (.ok profile : Except LoadError (CallGraph α)) ∈
          paths.map fun path => load files (.path path) options :=
        hall ▸ List.mem_map_of_mem (hperm.mem_iff.1 hmem)
      obtain ⟨path, -, hload⟩ := List.mem_map.1 hloaded
      exact seenOnce_of_load hload
    have harrived := (CallGraph.Aggregates.empty (", ".intercalate paths)).addProfiles honce
    rw [List.append_nil] at harrived
    have haggregates := harrived.perm hperm
    have hlength : profiles.length = paths.length := by
      rw [← List.length_map (Except.ok : _ → Except LoadError (CallGraph α)), ← hall,
        List.length_map]
    exact ⟨_, aggregate_map_ok _ _, haggregates,
      fun _ _ hattrs => haggregates.count_eq (hlength ▸ few) hattrs⟩
  · subst hpath
    rw [List.map_singleton, List.perm_singleton] at any_order
    subst any_order
    exact aggregate_singleton path

theorem load_of_read {source : Source} {lines : List String} {told : Trace}
    (hread : source.read files = .ok ⟨lines, none⟩) (htrace : trace lines = told) :
    load files source options =
      .ok (.ofTrace source.describe .gprof options told : CallGraph α) := by
  rw [load, hread, ← htrace]
  rfl

def workLines : List String := [
  header,
  "[1]    50.0    0.00    0.00       1          main (./a.c:1 @ 4f) [1]",
  "                0.00    0.00       1/1           work (./a.c:9 @ 5a) [2]",
  sentinel]

def idleLines : List String := [
  header,
  "[1]    50.0    0.00    0.00       1          main (./a.c:1 @ 4f) [1]",
  sentinel]

def bytesOf (lines : List String) : List UInt8 := ("\n".intercalate lines).toUTF8.toList

def reports : FileTree := [("a", .file (bytesOf workLines)), ("b", .file (bytesOf idleLines))]

def mainCall : Call := ⟨"main", "./a.c", .c, .function⟩
def workCall : Call := ⟨"work", "./a.c", .c, .function⟩

theorem splitOn_name : ∀ name ∈ ["a", "b"], name.splitOn "/" = [name] := by
  intro name hname
  have heither : name = "a" ∨ name = "b" := by simpa using hname
  rcases heither with rfl | rfl
  all_goals
    rw [String.splitOn, if_neg (by decide), String.splitOnAux, if_neg (by decide),
      if_neg (by decide), String.splitOnAux, if_pos (by decide)]
    rfl

theorem lookup_reports : reports.lookup "a" = .ok (.file (bytesOf workLines)) ∧
    reports.lookup "b" = .ok (.file (bytesOf idleLines)) := by
  simp [FileTree.lookup, FileTree.walk, FileTree.find?, reports, nameParts, splitOn_name]

theorem read_reports : (Source.path "a").read reports = .ok ⟨workLines, none⟩ ∧
    (Source.path "b").read reports = .ok ⟨idleLines, none⟩ := by
  have hlines : Reading.ofEntry (.file (bytesOf workLines)) = ⟨workLines, none⟩ ∧
      Reading.ofEntry (.file (bytesOf idleLines)) = ⟨idleLines, none⟩ := by decide +kernel
  constructor
  · rw [Source.read, lookup_reports.1, ← hlines.1]
  · rw [Source.read, lookup_reports.2, ← hlines.2]

theorem trace_reports : trace workLines = ⟨[.node mainCall, .call mainCall workCall], []⟩ ∧
    trace idleLines = ⟨[.node mainCall], []⟩ := by
  decide +kernel

/-- One of the reports twice, and the other report first to arrive. -/
theorem frequency_of_repeatedReport :
    ["a", "b", "a"].length < UInt32.size ∧
    [load reports (.path "b"), load reports (.path "a"), load reports (.path "a")].Perm
      (["a", "b", "a"].map fun path =>
        (load reports (.path path) : Except LoadError (CallGraph Rat))) ∧
    ∃ g : CallGraph Rat, aggregate (", ".intercalate ["a", "b", "a"])
        [load reports (.path "b"), load reports (.path "a"), load reports (.path "a")] = .ok g ∧
      (g.attrs? mainCall).bind (·.frequency) = some 3 ∧
      (g.attrs? workCall).bind (·.frequency) = some 2 := by
  have few : ["a", "b", "a"].length < UInt32.size := by decide
  have any_order :
      [load reports (.path "b"), load reports (.path "a"), load reports (.path "a")].Perm
        (["a", "b", "a"].map fun path =>
          (load reports (.path path) : Except LoadError (CallGraph Rat))) := .swap ..
  let working : CallGraph Rat :=
    .ofTrace "a" .gprof {} ⟨[.node mainCall, .call mainCall workCall], []⟩
  let idle : CallGraph Rat := .ofTrace "b" .gprof {} ⟨[.node mainCall], []⟩
  have hworking : load reports (.path "a") = .ok working :=
    load_of_read read_reports.1 trace_reports.1
  have hidle : load reports (.path "b") = .ok idle := load_of_read read_reports.2 trace_reports.2
  have hall : (["a", "b", "a"].map fun path =>
      (load reports (.path path) : Except LoadError (CallGraph Rat))) =
        [working, idle, working].map .ok := by
    simp only [List.map_cons, List.map_nil, hworking, hidle]
  obtain ⟨g, hload, haggregates, -⟩ := (aggregate_loads few any_order).2.1 _ hall
  have hcount (u : Call) (hseen : (working.attrs? u).isSome) : (g.attrs? u).bind (·.frequency) =
      some (.ofNat ([working, idle, working].countP fun profile => (profile.attrs? u).isSome)) := by
    have hpresent := (haggregates.present u).2 ⟨working, List.mem_cons_self .., hseen⟩
    obtain ⟨attrs, hattrs⟩ := Option.isSome_iff_exists.1 hpresent
    rw [hattrs]
    exact haggregates.frequency u attrs hattrs
  refine ⟨few, any_order, g, hload, ?_, ?_⟩
  · rw [hcount mainCall (by decide +kernel)]
    decide +kernel
  · rw [hcount workCall (by decide +kernel)]
    decide +kernel

end Gprof

end AttackSurface
