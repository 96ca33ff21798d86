import AttackSurface.Settings.Layers

/-! Settings that were resolved. Each of them comes from the first layer that has it, and together
they met all requirements after that. So whatever the layers say, the settings in effect are ones
that loaders and metrics can work with. -/
namespace AttackSurface

/-- The first value that is present. -/
def firstPresent {α : Type} (layers : List (Option α)) : Option α := layers.findSome? id

theorem firstPresent_three {α : Type} (a b c : Option α) :
    firstPresent [a, b, c] = a.or (b.or c) := by
  cases a <;> cases b <;> cases c <;> rfl

theorem getD_of_all {α : Type} {p : α → Bool} {setting : Option α} {default : α}
    (hset : setting.all p) (hdefault : p default) : p (setting.getD default) := by
  cases setting with
  | none => exact hdefault
  | some x => simpa using hset

theorem bind_eq_ok {ε α β : Type} {x : Except ε α} {f : α → Except ε β} {b : β} :
    (x >>= f) = .ok b ↔ ∃ a, x = .ok a ∧ f a = .ok b := by
  cases x <;> simp [bind, Except.bind]

/-! ## The environment -/

namespace Variables

/-- The granularity that the environment asks for. -/
def granularity? (env : Variables) : Option Granularity :=
  (env.text? "SURFACE_LOADER_GRANULARITY").bind fun text => (Granularity.ofLabel text).toOption

/-- The variable for the granularity is not set, or names one. -/
def GranularityValid (env : Variables) : Prop :=
  env.lookup "SURFACE_LOADER_GRANULARITY" = none ∨
    ∃ granularity : Granularity, env.text? "SURFACE_LOADER_GRANULARITY" = some granularity.label

/-- The variable is set to bytes that are no text. -/
def HoldsNoText (env : Variables) (name : String) : Prop :=
  ∃ bytes, env.lookup name = some bytes ∧ String.fromUTF8? ⟨bytes.toArray⟩ = none

theorem text?_eq_none {env : Variables} {name : String} :
    env.text? name = none ↔ env.lookup name = none ∨ env.HoldsNoText name := by
  unfold text? HoldsNoText
  cases env.lookup name <;> simp

end Variables

theorem Granularity.ofLabel_eq_ok {text : String} {granularity : Granularity} :
    Granularity.ofLabel text = .ok granularity ↔ text = granularity.label := by
  unfold ofLabel
  split
  · rename_i h
    cases granularity <;> simp [h, label]
  · split
    · rename_i h
      cases granularity <;> simp [h, label]
    · cases granularity <;> simp_all [label]

theorem Variables.granularity_cases (env : Variables) :
    (env.GranularityValid ∨ env.HoldsNoText "SURFACE_LOADER_GRANULARITY") ↔
      env.text? "SURFACE_LOADER_GRANULARITY" = none ∨ ∃ granularity : Granularity,
        env.text? "SURFACE_LOADER_GRANULARITY" = some granularity.label := by
  rw [text?_eq_none, GranularityValid, or_right_comm]

theorem Variables.overrides_eq_ok {env : Variables} {layer : Overrides} :
    env.overrides = .ok layer ↔
      (env.GranularityValid ∨ env.HoldsNoText "SURFACE_LOADER_GRANULARITY") ∧ layer = {
        workers := env.word64? "SURFACE_LOADER_WORKERS"
        timeoutMs := env.word64? "SURFACE_LOADER_TIMEOUT_MS"
        granularity := env.granularity?
        primaryWeight := env.float? "SURFACE_METRICS_PRIMARY_WEIGHT"
        secondaryWeight := env.float? "SURFACE_METRICS_SECONDARY_WEIGHT"
        damping := env.float? "SURFACE_METRICS_DAMPING" } := by
  rw [granularity_cases]
  unfold overrides granularity?
  cases hset : env.text? "SURFACE_LOADER_GRANULARITY" with
  | none => simp [bind, Except.bind, pure, Except.pure, eq_comm]
  | some text =>
    cases hlabel : Granularity.ofLabel text with
    | error e =>
      have hnone (granularity : Granularity) : text ≠ granularity.label := fun heq => by
        rw [Granularity.ofLabel_eq_ok.2 heq] at hlabel
        cases hlabel
      simp [bind, Except.bind, throw, throwThe, MonadExceptOf.throw, hnone, hlabel]
    | ok granularity =>
      have hvalid : ∃ granularity : Granularity, text = granularity.label :=
        ⟨granularity, Granularity.ofLabel_eq_ok.1 hlabel⟩
      simp [bind, Except.bind, pure, Except.pure, hlabel, Except.toOption, hvalid, eq_comm]

namespace Settings

variable {s file : Settings} {entry : Option FileEntry} {path : String} {env : Variables}
  {overrides : Overrides}

/-! ## The file of the project -/

/-- What a file sets: nothing if it is missing, and else what its text says as a document. -/
inductive HoldsSettings : Option FileEntry → Settings → Prop
  | missing : HoldsSettings none {}
  | read {bytes text entries s} (htext : String.fromUTF8? ⟨bytes.toArray⟩ = some text)
    (hentries : Toml.read? text = some entries) (hs : ofEntries? entries = some s) :
    HoldsSettings (some (.file bytes)) s

theorem merge_empty (s : Settings) : s.merge {} = s := by
  simp only [merge, Option.none_or]

theorem empty_merge (s : Settings) : ({} : Settings).merge s = s := by
  simp only [merge, Option.or_none]

theorem mergeFile_eq_ok {r : Settings} :
    s.mergeFile path entry = .ok r ↔ ∃ file, HoldsSettings entry file ∧ r = s.merge file := by
  constructor
  · intro h
    unfold mergeFile at h
    split at h
    · cases h
      exact ⟨{}, .missing, s.merge_empty.symm⟩
    · cases h
    · split at h
      · cases h
      · rename_i bytes text htext
        unfold ofToml at h
        split at h
        · rename_i file hfile
          cases h
          obtain ⟨entries, hentries, hfile⟩ := Option.bind_eq_some_iff.1 hfile
          exact ⟨file, .read htext hentries hfile, rfl⟩
        · cases h
  · rintro ⟨_, _ | ⟨htext, hentries, hfile⟩, rfl⟩
    · rw [merge_empty]
      rfl
    · simp [mergeFile, htext, ofToml, hentries, hfile, Except.map]

/-- Merging changes nothing about a file over the defaults, as nothing is set in these. -/
theorem mergeFile_empty_eq_ok : ({} : Settings).mergeFile path entry = .ok file ↔
    HoldsSettings entry file := by
  rw [mergeFile_eq_ok]
  constructor
  · rintro ⟨_, hfile, rfl⟩
    rwa [empty_merge]
  · exact fun hfile => ⟨file, hfile, file.empty_merge.symm⟩

/-! ## Layers -/

/-- Every setting by the first layer that has it: the caller, the environment, the file. -/
def layered (file : Settings) (env : Variables) (overrides : Overrides) : Settings where
  loader :=
    { workers := firstPresent
        [overrides.workers, env.word64? "SURFACE_LOADER_WORKERS", file.loader.workers]
      workQueue := file.loader.workQueue
      resultQueue := file.loader.resultQueue
      timeoutMs := firstPresent
        [overrides.timeoutMs, env.word64? "SURFACE_LOADER_TIMEOUT_MS", file.loader.timeoutMs]
      granularity := firstPresent
        [overrides.granularity, env.granularity?, file.loader.granularity]
      appPackages := file.loader.appPackages }
  metrics :=
    { primaryWeight := firstPresent [overrides.primaryWeight,
        env.float? "SURFACE_METRICS_PRIMARY_WEIGHT", file.metrics.primaryWeight]
      secondaryWeight := firstPresent [overrides.secondaryWeight,
        env.float? "SURFACE_METRICS_SECONDARY_WEIGHT", file.metrics.secondaryWeight]
      damping := firstPresent
        [overrides.damping, env.float? "SURFACE_METRICS_DAMPING", file.metrics.damping]
      tolerance := file.metrics.tolerance
      maxIterations := file.metrics.maxIterations
      cflowCallWeight := file.metrics.cflowCallWeight
      cflowReturnWeight := file.metrics.cflowReturnWeight
      gprofCallWeight := file.metrics.gprofCallWeight
      gprofReturnWeight := file.metrics.gprofReturnWeight }

theorem override_override {layer : Overrides} (hlayer : env.overrides = .ok layer) :
    (file.override layer).override overrides = file.layered env overrides := by
  obtain ⟨-, rfl⟩ := Variables.overrides_eq_ok.1 hlayer
  simp only [override, layered, firstPresent_three]

theorem resolve_eq_ok : resolve path entry env overrides = .ok s ↔
    ∃ file, HoldsSettings entry file ∧
      (env.GranularityValid ∨ env.HoldsNoText "SURFACE_LOADER_GRANULARITY") ∧
      s = file.layered env overrides ∧ s.validate = .ok () := by
  simp only [resolve, bind_eq_ok, mergeFile_empty_eq_ok]
  constructor
  · rintro ⟨file, hfile, layer, hlayer, ⟨⟩, hvalidate, hs⟩
    rw [override_override hlayer] at hvalidate hs
    cases hs
    exact ⟨file, hfile, (Variables.overrides_eq_ok.1 hlayer).1, rfl, hvalidate⟩
  · rintro ⟨file, hfile, hvalid, rfl, hvalidate⟩
    have hlayer := Variables.overrides_eq_ok.2 ⟨hvalid, rfl⟩
    refine ⟨file, hfile, _, hlayer, ⟨⟩, ?_, ?_⟩
    · rwa [override_override hlayer]
    · rw [override_override hlayer]
      rfl

/-! ## Settings in effect -/

theorem validate_eq_ok : s.validate = .ok () ↔ ∀ check ∈ s.checks, check.2.2 := by
  unfold validate
  split
  · rename_i hnone
    simpa using hnone
  · rename_i field requirement met hfound
    have hfailed := List.find?_some hfound
    have hmem := List.mem_of_find?_eq_some hfound
    simp only [reduceCtorEq, false_iff]
    exact fun hall => absurd (hall _ hmem) (by simpa using hfailed)

/-- What loaders and metrics rely on, for the values in effect. -/
structure Usable (s : Settings) : Prop where
  workers : 1 ≤ s.loader.effectiveWorkers
  workQueue : 1 ≤ s.loader.effectiveWorkQueue
  resultQueue : 1 ≤ s.loader.effectiveResultQueue
  maxIterations : 1 ≤ s.metrics.rankParams.maxIterations
  damping : 0.0 < s.metrics.rankParams.damping ∧ s.metrics.rankParams.damping < 1.0
  primary : s.metrics.rankParams.primary.isFinite ∧ 0.0 < s.metrics.rankParams.primary
  secondary : s.metrics.rankParams.secondary.isFinite ∧ 0.0 < s.metrics.rankParams.secondary
  tolerance : s.metrics.rankParams.tolerance.isFinite ∧ 0.0 < s.metrics.rankParams.tolerance

theorem one_le_getD {count : Option UInt64} {default : UInt64} (hset : count.all (0 < ·))
    (hdefault : 0 < default) : 1 ≤ count.getD default := by
  have hpos : 0 < count.getD default :=
    of_decide_eq_true
      (getD_of_all (p := fun n : UInt64 => decide (0 < n)) hset (decide_eq_true hdefault))
  rw [UInt64.lt_iff_toNat_lt] at hpos
  rw [UInt64.le_iff_toNat_le]
  exact hpos

theorem isInOpenUnit_iff {x : Float} : isInOpenUnit x ↔ 0.0 < x ∧ x < 1.0 := by
  simp [isInOpenUnit]

theorem isPositiveFinite_iff {x : Float} : isPositiveFinite x ↔ x.isFinite ∧ 0.0 < x := by
  simp [isPositiveFinite]

/-- What is set meets its requirement, and so does every default. -/
theorem usable_of_validate (h : s.validate = .ok ()) : s.Usable := by
  rw [validate_eq_ok] at h
  simp only [checks, List.forall_mem_cons] at h
  obtain ⟨hworkers, hworkQueue, hresultQueue, hdamping, hprimary, hsecondary, htolerance,
    hmaxIterations, -⟩ := h
  exact
    { workers := one_le_getD hworkers (by decide)
      workQueue := one_le_getD hworkQueue (by decide)
      resultQueue := one_le_getD hresultQueue (by decide)
      maxIterations := by
        have hcap : s.metrics.rankParams.maxIterations =
            (s.metrics.maxIterations.getD 100).toNat := by
          unfold MetricsSettings.rankParams
          cases s.metrics.maxIterations <;> rfl
        rw [hcap]
        exact UInt64.le_iff_toNat_le.1 (one_le_getD hmaxIterations (by decide))
      damping := isInOpenUnit_iff.1 (getD_of_all hdamping (by decide))
      primary := isPositiveFinite_iff.1 (getD_of_all hprimary (by decide))
      secondary := isPositiveFinite_iff.1 (getD_of_all hsecondary (by decide))
      tolerance := isPositiveFinite_iff.1 (getD_of_all htolerance (by decide)) }

/-- Settings are resolved exactly if the file of the project is missing or holds settings, the
variable for the granularity is not set, names one or is set to bytes that are no text, and what
the layers give together meets all requirements. The result has each setting from the first layer
that has it, and with the defaults put in it is one to work with, wherever its values came from. -/
theorem resolve_layers (path : String) (entry : Option FileEntry) (env : Variables)
    (overrides : Overrides) :
    ((∃ s, resolve path entry env overrides = .ok s) ↔ ∃ file, HoldsSettings entry file ∧
      (env.GranularityValid ∨ env.HoldsNoText "SURFACE_LOADER_GRANULARITY") ∧
      (file.layered env overrides).validate = .ok ()) ∧
    ∀ s, resolve path entry env overrides = .ok s →
      (∀ file, HoldsSettings entry file → s = file.layered env overrides) ∧ s.Usable := by
  refine ⟨?_, fun s hs => ?_⟩
  · simp only [resolve_eq_ok]
    constructor
    · rintro ⟨_, file, hfile, haccepted, rfl, hvalidate⟩
      exact ⟨file, hfile, haccepted, hvalidate⟩
    · rintro ⟨file, hfile, haccepted, hvalidate⟩
      exact ⟨_, file, hfile, haccepted, rfl, hvalidate⟩
  · obtain ⟨file, hfile, -, rfl, hvalidate⟩ := resolve_eq_ok.1 hs
    refine ⟨fun other hother => ?_, usable_of_validate hvalidate⟩
    have hread : ({} : Settings).mergeFile path entry = .ok file := mergeFile_empty_eq_ok.2 hfile
    rw [mergeFile_empty_eq_ok.2 hother] at hread
    cases hread
    rfl

/-- A granularity that no label names is refused, but bytes that are no text pass for no value. -/
theorem resolve_of_granularityNoText :
    ¬ Variables.GranularityValid [("SURFACE_LOADER_GRANULARITY", [0xff])] ∧
    resolve "surface.toml" none [("SURFACE_LOADER_GRANULARITY", [0xff])] = .ok {} := by
  refine ⟨?_, rfl⟩
  rintro (hunset | ⟨granularity, htext⟩)
  · cases hunset
  · have hnone : Variables.text? [("SURFACE_LOADER_GRANULARITY", [0xff])]
        "SURFACE_LOADER_GRANULARITY" = none := by decide
    rw [hnone] at htext
    cases htext

/-- The caller goes before a variable, and a variable that reads as no number is passed over. -/
example : (resolve "surface.toml" none [("SURFACE_LOADER_WORKERS", "8".toUTF8.data.toList),
    ("SURFACE_LOADER_TIMEOUT_MS", "50".toUTF8.data.toList),
    ("SURFACE_METRICS_DAMPING", "half".toUTF8.data.toList)]
      { workers := some 2 }).map (fun s => (s.loader.workers, s.loader.timeoutMs,
        s.metrics.damping.isNone)) = .ok (some 2, some 50, true) := rfl

/-- A variable that reads as no number in the interval is refused, not ignored. -/
example : (resolve "surface.toml" none
    [("SURFACE_METRICS_DAMPING", "nan".toUTF8.data.toList)]).map (fun _ => ()) =
      .error (.rejected "metrics.damping" "must be in (0.0, 1.0)") := rfl

end Settings

end AttackSurface
