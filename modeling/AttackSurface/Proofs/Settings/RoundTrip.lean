import AttackSurface.Proofs.Toml.Sections
import AttackSurface.Settings.Document

/-! Settings written as a document and read back. A document holds every integer of 63 bits, every
floating-point number but NaN and every list of strings, so that settings made of these come back
whole; settings with a larger integer have no document. -/
namespace AttackSurface

open Toml (Entries Field readField Value)

namespace Settings

variable {s : Settings} {fields : List (String × Option Field)} {key : String}

/-- The integers that are set. -/
def integers (s : Settings) : List ℕ :=
  [s.loader.workers, s.loader.workQueue, s.loader.resultQueue, s.loader.timeoutMs,
    s.metrics.maxIterations].reduceOption.map UInt64.toNat ++
  [s.metrics.cflowCallWeight, s.metrics.cflowReturnWeight, s.metrics.gprofCallWeight,
    s.metrics.gprofReturnWeight].reduceOption.map UInt32.toNat

/-- The floating-point numbers that are set. -/
def floats (s : Settings) : List Float :=
  [s.metrics.primaryWeight, s.metrics.secondaryWeight, s.metrics.damping,
    s.metrics.tolerance].reduceOption

/-! ## Fields that are set -/

theorem forall_setFields_cons {p : String × Field → Prop} {field : Option Field} :
    (∀ entry ∈ setFields ((key, field) :: fields), p entry) ↔
      (∀ f ∈ field, p (key, f)) ∧ ∀ entry ∈ setFields fields, p entry := by
  cases field <;> simp [setFields]

theorem forall_reduceOption_cons {α : Type} {p : α → Prop} {setting : Option α}
    {settings : List (Option α)} :
    (∀ x ∈ (setting :: settings).reduceOption, p x) ↔
      (∀ x ∈ setting, p x) ∧ ∀ x ∈ settings.reduceOption, p x := by
  cases setting <;> simp

/-- What holds of all fields that are written. -/
theorem forall_fields_iff {p : Field → Prop} :
    (∀ part ∈ s.sections, ∀ field ∈ part.fields, p field.2) ↔
      (∀ n ∈ s.integers, p (.natural n)) ∧ (∀ x ∈ s.floats, p (.float x)) ∧
      (∀ granularity ∈ s.loader.granularity, p (.string granularity.label)) ∧
      ∀ texts ∈ s.loader.appPackages, p (.strings texts) := by
  simp only [sections, loaderSection, metricsSection, integers, floats, natural64, natural32,
    List.forall_mem_cons, List.forall_mem_append, List.forall_mem_map, forall_setFields_cons,
    forall_reduceOption_cons]
  simp [setFields]
  tauto

theorem sublist_setFields (fields : List (String × Option Field)) :
    ((setFields fields).map Prod.fst).Sublist (fields.map Prod.fst) := by
  induction fields with
  | nil => exact .slnil
  | cons field fields ih =>
    obtain ⟨key, _ | f⟩ := field
    · exact ih.cons key
    · exact ih.cons_cons key

/-- What is read under a key is what was written under it, if it was set. -/
theorem find?_setFields (hnodup : (fields.map Prod.fst).Nodup) (key : String) :
    Entries.find? ((setFields fields).map fun (key, field) => (key, field.value)) key =
      (fields.lookup key).join.map Field.value := by
  induction fields with
  | nil => rfl
  | cons field fields ih =>
    obtain ⟨name, field⟩ := field
    obtain ⟨hnew, hnodup⟩ := List.nodup_cons.1 hnodup
    have hrest := ih hnodup
    by_cases hkey : key = name
    · subst hkey
      cases field with
      | some f => simp [setFields, Entries.find?]
      | none =>
        have hnone : fields.lookup key = none := Toml.lookup_of_notMem hnew
        rw [hnone] at hrest
        simpa [setFields, Entries.find?] using hrest
    · have hbeq : (key == name) = false := beq_false_of_ne hkey
      cases field <;> simpa [setFields, Entries.find?, List.lookup, hbeq] using hrest

/-- A setting that its field is read back to is read back. -/
theorem readField_map {α : Type} {read : Value → Option α} {write : α → Field}
    (h : ∀ a, read (write a).value = some a) (setting : Option α) :
    readField ((setting.map write).map Field.value) read = some setting := by
  cases setting with
  | none => rfl
  | some a => simp [readField, h]

/-! ## Values of fields -/

theorem word64?_value (n : UInt64) : (Field.natural n.toNat).value.word64? = some n := by
  simpa [Field.value, Value.word64?, Value.natural?] using n.toNat_lt

theorem word32?_value (n : UInt32) : (Field.natural n.toNat).value.word32? = some n := by
  simpa [Field.value, Value.word32?, Value.natural?] using n.toNat_lt

theorem float?_value (x : Float) : (Field.float x).value.float? = some x := rfl

theorem granularity?_value (granularity : Granularity) :
    (Field.string granularity.label).value.granularity? = some granularity := by
  cases granularity <;> rfl

theorem strings?_value (texts : List String) :
    (Field.strings texts).value.strings? = some texts := by
  have hall : (texts.map Value.string).mapM Value.string? = some texts := by
    induction texts with
    | nil => rfl
    | cons text texts ih => simp [Value.string?, ih]
  exact hall

/-! ## Sections -/

theorem ofSection?_loaderSection (s : LoaderSettings) :
    LoaderSettings.ofSection? (fun name _ => Entries.find?
      ((loaderSection s).fields.map fun (key, field) => (key, field.value)) name) = some s := by
  have hfind (name : String) : Entries.find? ((loaderSection s).fields.map
      fun (key, field) => (key, field.value)) name = _ := find?_setFields (by simp) name
  simp only [LoaderSettings.ofSection?, hfind]
  simp [List.lookup, -Option.map_map, natural64, readField_map word64?_value,
    readField_map granularity?_value, readField_map strings?_value]

theorem ofSection?_metricsSection (s : MetricsSettings) :
    MetricsSettings.ofSection? (fun name _ => Entries.find?
      ((metricsSection s).fields.map fun (key, field) => (key, field.value)) name) = some s := by
  have hfind (name : String) : Entries.find? ((metricsSection s).fields.map
      fun (key, field) => (key, field.value)) name = _ := find?_setFields (by simp) name
  simp only [MetricsSettings.ofSection?, hfind]
  simp [List.lookup, -Option.map_map, natural64, natural32, readField_map word64?_value,
    readField_map word32?_value, readField_map float?_value]

theorem ofEntries?_sections (s : Settings) :
    ofEntries? (s.sections.map Toml.Section.entry) = some s := by
  have hloader : readSection (s.sections.map Toml.Section.entry) "loader" {}
      LoaderSettings.ofSection? = some s.loader := ofSection?_loaderSection s.loader
  have hmetrics : readSection (s.sections.map Toml.Section.entry) "metrics" {}
      MetricsSettings.ofSection? = some s.metrics := ofSection?_metricsSection s.metrics
  rw [ofEntries?, hloader, hmetrics]
  rfl

/-! ## Documents -/

/-- A section is read back if all its fields are, and its keys are plain and distinct. -/
theorem readable_of_setFields {part : Toml.Section} (hfields : part.fields = setFields fields)
    (hname : Toml.IsBare part.name) (hbare : ∀ key ∈ fields.map Prod.fst, Toml.IsBare key)
    (hnodup : (fields.map Prod.fst).Nodup)
    (hreadable : ∀ field ∈ part.fields, field.2.Readable) : part.Readable := by
  have hkeys : (part.fields.map Prod.fst).Sublist (fields.map Prod.fst) :=
    hfields ▸ sublist_setFields fields
  exact ⟨hname, fun field hfield => ⟨hbare _ (hkeys.subset (List.mem_map_of_mem hfield)),
    hreadable field hfield⟩, hnodup.sublist hkeys⟩

theorem readable_sections (h : ∀ part ∈ s.sections, ∀ field ∈ part.fields, field.2.Readable) :
    ∀ part ∈ s.sections, part.Readable := by
  simp only [sections, List.forall_mem_cons] at h
  obtain ⟨hloader, hmetrics, -⟩ := h
  refine List.forall_mem_cons.2 ⟨?_, List.forall_mem_singleton.2 ?_⟩
  · refine readable_of_setFields rfl (show Toml.IsBare "loader" by decide) ?_ (by simp) hloader
    simp only [List.map_cons, List.map_nil]
    decide
  · refine readable_of_setFields rfl (show Toml.IsBare "metrics" by decide) ?_ (by simp) hmetrics
    simp only [List.map_cons, List.map_nil]
    decide

theorem le_maxValue_iff (n : ℕ) : (n : ℤ) ≤ Int64.maxValue.toInt ↔ n ≤ 2 ^ 63 - 1 := by
  have hmax : Int64.maxValue.toInt = 2 ^ 63 - 1 := by decide
  omega

/-- There is a document unless an integer is too large. -/
theorem toToml_eq (s : Settings) : s.toToml =
    if ∀ n ∈ s.integers, n ≤ 2 ^ 63 - 1 then .ok (String.ofList (Toml.writeSections s.sections))
    else .error (.malformed "<serialization>" "an integer is too large") := by
  have hfits : (s.sections.all fun part => part.fields.all fun field => field.2.fits) ↔
      ∀ n ∈ s.integers, n ≤ 2 ^ 63 - 1 := by
    simp only [List.all_eq_true]
    refine (forall_fields_iff (p := fun field => field.fits = true)).trans ?_
    simp [Field.fits, le_maxValue_iff]
  by_cases hintegers : ∀ n ∈ s.integers, n ≤ 2 ^ 63 - 1
  · rw [if_pos hintegers, toToml, Toml.write?, if_pos (hfits.2 hintegers)]
  · rw [if_neg hintegers, toToml, Toml.write?, if_neg fun hall => hintegers (hfits.1 hall)]

example : toToml { loader := { workers := some 3, appPackages := some [] } } =
    .ok "[loader]\nworkers = 3\napp_packages = []\n\n[metrics]\n" := by
  rfl

/-- What is written for settings is read back as they were, as long as they hold no NaN and no
integer above `2 ^ 63 - 1`; with such an integer nothing is written. -/
theorem ofToml_toToml (s : Settings) :
    ((∀ n ∈ s.integers, n ≤ 2 ^ 63 - 1) → (∀ x ∈ s.floats, x.isNaN = false) →
      ∃ text, s.toToml = .ok text ∧ ofToml text = .ok s) ∧
    ((∃ n ∈ s.integers, 2 ^ 63 - 1 < n) →
      ∃ reason, s.toToml = .error (.malformed "<serialization>" reason)) := by
  refine ⟨fun hintegers hfloats => ?_, fun ⟨n, hn, hlarge⟩ => ?_⟩
  · have hreadable : ∀ part ∈ s.sections, ∀ field ∈ part.fields, field.2.Readable :=
      forall_fields_iff.2 ⟨fun n hn => (le_maxValue_iff n).2 (hintegers n hn), hfloats,
        fun _ _ => trivial, fun _ _ => trivial⟩
    have hread := Toml.read?_writeSections (readable_sections hreadable)
      (show ["loader", "metrics"].Nodup by decide)
    refine ⟨_, (toToml_eq s).trans (if_pos hintegers), ?_⟩
    rw [ofToml, hread, Option.bind_some, ofEntries?_sections]
  · exact ⟨_, (toToml_eq s).trans (if_neg fun hintegers => absurd (hintegers n hn) (by omega))⟩

/-- Settings with packages that no form of a string shows as they are. -/
def quotedPackages : Settings where
  loader :=
    { workers := some 3
      granularity := some .file
      appPackages := some ["", "a\"b\'c\\", "\x00\n\t\r\x7fé\"\"\"\'\'\'"] }
  metrics := { damping := some 0.85, tolerance := some (-0.0), gprofReturnWeight := some 7 }

/-- Settings with an integer of 64 bits. -/
def longTimeout : Settings where
  loader := { timeoutMs := some 0x8000000000000000, appPackages := some [] }

theorem ofToml_toToml_quotedPackages :
    ((∀ n ∈ quotedPackages.integers, n ≤ 2 ^ 63 - 1) ∧
      (∀ x ∈ quotedPackages.floats, x.isNaN = false) ∧
      ∃ text, quotedPackages.toToml = .ok text ∧ ofToml text = .ok quotedPackages) ∧
    (∃ n ∈ longTimeout.integers, 2 ^ 63 - 1 < n) ∧
      ∃ reason, longTimeout.toToml = .error (.malformed "<serialization>" reason) := by
  have hintegers : ∀ n ∈ quotedPackages.integers, n ≤ 2 ^ 63 - 1 := by decide
  have hfloats : ∀ x ∈ quotedPackages.floats, x.isNaN = false := by decide +kernel
  have hlarge : ∃ n ∈ longTimeout.integers, 2 ^ 63 - 1 < n := by decide
  exact ⟨⟨hintegers, hfloats, (ofToml_toToml quotedPackages).1 hintegers hfloats⟩, hlarge,
    (ofToml_toToml longTimeout).2 hlarge⟩

end Settings

end AttackSurface
