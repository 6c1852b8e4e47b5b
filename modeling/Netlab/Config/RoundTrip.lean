import Netlab.Config.Migrated

/-!
# Saving and loading a configuration

`save_experiment` writes the legacy document of a validated configuration, which carries the
configuration under `v6`, and `load_experiment` migrates it back. The configuration that was
validated comes back exactly when it can be emitted and assigns an antenna to every entity of the
default experiment (`roundTrips_iff`). The second condition is met by every document that came in
the versioned form; a flat document that lists antennas may leave default entities out, and the
migration of the saved document assigns their default antennas again.
-/

namespace Netlab.Experiment

variable {F : Type} [PyText F] [PyBuiltins F]

/-! ## Saving and loading -/

/-- What `save_experiment` writes for a document, with or without the legacy fields. -/
def saveExperiment (t₁ t₂ t₃ t₄ : F) (config : Dict String (Json F)) (emitLegacy : Bool) :
    Option (Dict String (Json F)) := do
  let validated ← validateStrict t₁ t₂ config
  if emitLegacy then emitLegacyConfig t₃ t₄ validated else return validated

/-- What `load_experiment` reads from a file, which may not exist. -/
def loadExperiment (t₁ t₂ : F) : Option (Json F) → Option (Dict String (Json F))
  | none => some (defaultExperiment t₁)
  | some value => do
      let config ← value.dict?
      (validateExperiment t₁ t₂ config).map Report.config

/-- The configuration `v` that `config` was validated to comes back from the legacy document, from
another validation and from the file that is saved for `config`, at whatever time the clock is
read. -/
structure RoundTrips (t₁ t₂ : F) (config v : Dict String (Json F)) : Prop where
  emits : ∀ t₃ t₄ t₅ t₆ : F, ∃ legacy w, emitLegacyConfig t₃ t₄ v = some legacy ∧
    migrateLegacyConfig t₅ t₆ legacy = some w ∧ SameDocument w v
  validates : ∀ t₃ t₄ : F, ∃ w, validateStrict t₃ t₄ v = some w ∧ SameDocument w v
  loads : ∀ (emitLegacy : Bool) (t₃ t₄ t₅ t₆ : F), ∃ file w,
    saveExperiment t₁ t₂ t₃ t₄ config emitLegacy = some file ∧
      loadExperiment t₅ t₆ (some (.ofDict file)) = some w ∧ SameDocument w v

/-- The configuration assigns an antenna to every entity of the default experiment. -/
def AssignsDefaults (config : Dict String (Json F)) : Prop :=
  ∀ assignments, (member config "antennas" "assignments" (.obj [])).dict? = some assignments →
    ∀ entity ∈ (defaultAssignments : Dict String (Json F)).keys, entity ∈ assignments.keys

/-! ## The legacy document -/

/-- The keys of the legacy document. -/
def legacyKeys : List String :=
  ["schema_version", "experiment_name", "scenario_id", "seed", "duration_s", "fidelity_profile",
    "drone_count", "relay_count", "standby_count", "failed_indices", "branch_count",
    "transmission_mode", "manual_branches", "topology", "hop_period_s", "failure_detection_s",
    "coverage_radius_m", "coverage_width_m", "altitude_start_m", "altitude_end_m",
    "direction_deg", "movement_pattern", "movement_amplitude_m", "movement_speed",
    "visual_follow_alpha", "wind_speed_mps", "wind_direction_deg", "turbulence_intensity",
    "standby_activation_radius_m", "max_single_hop_range_m", "hard_outage_range_m",
    "allow_degraded_forwarding", "distance_penalty_db_per_m_after_soft_range", "station", "drones",
    "antennas", "antenna_count", "worlds", "world_count", "radio", "message", "traffic",
    "environment", "energy", "visual", "v6", "v5"]

/-- What the legacy document holds of the document that it was emitted from: the document itself
under `v6`, its drone records under `drones`, and no `experiment` section. -/
theorem emitDocument_spec {config legacy : Dict String (Json F)}
    (h : emitDocument config = some legacy) :
    ∃ s assignments definitions records drones, sections? config = some s ∧
      (s.swarm.get? "drones").bind Json.elements? = some records ∧
      records.mapM (emittedDrone assignments definitions) = some drones ∧
      legacy.get? "drones" = some (.arr (drones.map .ofDict)) ∧
      legacy.get? "v6" = some (.ofDict config) ∧ "experiment" ∉ legacy.keys := by
  unfold emitDocument at h
  obtain ⟨s, hs, h⟩ := Option.bind_eq_some_iff.mp h
  obtain ⟨assignments, -, h⟩ := Option.bind_eq_some_iff.mp h
  obtain ⟨definitions, -, h⟩ := Option.bind_eq_some_iff.mp h
  obtain ⟨value, hvalue, h⟩ := Option.bind_eq_some_iff.mp h
  obtain ⟨records, hrecords, h⟩ := Option.bind_eq_some_iff.mp h
  obtain ⟨drones, hdrones, h⟩ := Option.bind_eq_some_iff.mp h
  obtain ⟨antennas, -, h⟩ := Option.bind_eq_some_iff.mp h
  have hnodup : legacyKeys.Nodup := by decide +kernel
  refine ⟨s, assignments, definitions, records, drones, hs, ?_, hdrones, ?_, ?_, fun hkey => ?_⟩
  · rw [hvalue, Option.bind_some, hrecords]
  · exact get?_collect h hnodup (by simp)
  · exact get?_collect h hnodup (by simp)
  · have hmem : "experiment" ∈ legacyKeys := mem_keys_collect h hkey
    revert hmem
    decide

/-! ## What the validator has looked at -/

omit [PyText F] [PyBuiltins F] in
/-- A section that the validator reads and the emission subscripts is the same object. -/
theorem section?_eq_object? {config d d' : Dict String (Json F)} {key : String}
    (h : section? config key = some d) (h' : object? config key = some d') : d = d' := by
  cases hget : config.get? key with
  | none => simp [object?, hget] at h'
  | some value =>
      rw [section?, hget] at h
      rw [object?, hget, Option.bind_some] at h'
      exact Option.some.inj (h.symm.trans h')

omit [PyText F] [PyBuiltins F] in
theorem member_eq_getD {config d : Dict String (Json F)} {key field : String} {default : Json F}
    (h : object? config key = some d) : member config key field default = d.getD field default := by
  rw [object?] at h
  rw [member, h]
  rfl

/-- A vector without issues has three entries. -/
theorem vecIssues_eq_nil {path : String} {value : Json F} (h : vecIssues path value = []) :
    ∃ x y z, value = .arr [x, y, z] := by
  unfold vecIssues at h
  split at h
  · exact ⟨_, _, _, rfl⟩
  · simp at h

/-- Drone records without issues are objects with an identifier and a position. -/
theorem recordIssues_eq_nil {i : ℕ} {ids : List String} {records : List (Json F)}
    (h : recordIssues positionIssues i ids records = []) :
    ∀ item ∈ records, ∃ record, item.dict? = some record ∧ (record.get? "id").isSome = true ∧
      ∃ x y z, record.get? "position" = some (.arr [x, y, z]) := by
  induction records generalizing i ids with
  | nil => simp
  | cons item rest ih =>
      rw [recordIssues] at h
      cases hitem : item.dict? with
      | none => simp [hitem] at h
      | some record =>
          simp only [hitem, List.append_eq_nil_iff] at h
          obtain ⟨⟨hid, hposition⟩, hrest⟩ := h
          refine List.forall_mem_cons.mpr ⟨⟨record, hitem, ?_, ?_⟩, ih hrest⟩
          · cases hget : record.get? "id" with
            | none => simp [droneId, Dict.getText, Dict.getD, hget] at hid
            | some value => rfl
          · obtain ⟨x, y, z, hvalue⟩ := vecIssues_eq_nil hposition
            refine ⟨x, y, z, ?_⟩
            cases hget : record.get? "position" with
            | none => simp [Dict.getD, hget] at hvalue
            | some value => rw [← hvalue, Dict.getD, hget, Option.getD_some]

theorem definitionIssues_eq_nil {i : ℕ} {ids : List String} {items : List (Json F)}
    (h : definitionIssues i ids items = []) : ∀ item ∈ items, item.dict?.isSome = true := by
  induction items generalizing i ids with
  | nil => simp
  | cons item rest ih =>
      rw [definitionIssues] at h
      cases hitem : item.dict? with
      | none => simp [hitem] at h
      | some definition =>
          simp only [hitem, List.append_eq_nil_iff] at h
          exact List.forall_mem_cons.mpr ⟨by rw [hitem]; rfl, ih h.2⟩

/-- The sections of a document without issues. -/
theorem checked_of_valid {config : Dict String (Json F)} {s : Sections F}
    (hbase : Covers defaultSwarm s.swarm) (h : documentErrors config = some [])
    (hs : sections? config = some s) : Checked s := by
  simp only [documentErrors, bind, pure, Option.bind_eq_some_iff, Option.some.injEq,
    List.append_eq_nil_iff] at h
  obtain ⟨_, _, _, _, swarm, hswarm, _, _, _, _, ⟨⟨⟨⟨_, hissues⟩, _⟩, _⟩, hantennas⟩, _⟩ := h
  obtain ⟨_, hswarm', _, _, _, _, _, _, _, hantennas', _⟩ := sections?_eq_some_iff.mp hs
  obtain rfl := section?_eq_object? hswarm hswarm'
  simp only [swarmIssues, List.append_eq_nil_iff, issueIf_eq_nil] at hissues
  obtain ⟨⟨_, hsized⟩, hrecords⟩ := hissues
  simp only [antennaIssues, List.append_eq_nil_iff] at hantennas
  obtain ⟨⟨hlist, hdefinitions⟩, hassignments⟩ := hantennas
  have hdrones : (s.swarm.get? "drones").isSome = true :=
    isSome_get?_of_covers hbase (Dict.mem_keys_ofList.mpr (by simp))
  refine ⟨?_, ?_, ?_⟩
  · -- the inventory is a list of records
    obtain ⟨value, hvalue⟩ := Option.isSome_iff_exists.mp hdrones
    rw [droneRecords, Dict.getD, hvalue, Option.getD_some] at hrecords
    rw [inventorySized, Dict.getD, hvalue, Option.getD_some] at hsized
    cases value with
    | arr records => exact ⟨records, hvalue, recordIssues_eq_nil hrecords⟩
    | _ => simp at hsized
  · -- the definitions of antennas are a list of objects
    rw [antennaDefinitions, member_eq_getD hantennas'] at hdefinitions
    rw [member_eq_getD hantennas'] at hlist
    split at hlist
    · rename_i items hitems
      rw [hitems] at hdefinitions
      exact ⟨items, hitems, definitionIssues_eq_nil hdefinitions⟩
    · simp at hlist
  · -- the assignments are an object
    rw [assignmentIssues, member_eq_getD hantennas'] at hassignments
    cases hdict : (s.antennas.getD "assignments" (.obj [])).dict? with
    | none => simp [hdict] at hassignments
    | some assignments => rfl

/-! ## A second migration -/

omit [PyText F] [PyBuiltins F] in
theorem object?_set_of_ne {config : Dict String (Json F)} {key key' : String} (value : Json F)
    (h : key' ≠ key) : object? (config.set key value) key' = object? config key' := by
  rw [object?, Dict.get?_set_of_ne _ _ h, object?]

omit [PyText F] [PyBuiltins F] in
/-- The sections of a document with other antennas. -/
theorem sections?_set_antennas {config antennas : Dict String (Json F)} {s : Sections F}
    (hs : sections? config = some s) :
    sections? (config.set "antennas" (.ofDict antennas)) = some { s with antennas } := by
  rw [sections?_eq_some_iff] at hs ⊢
  have hantennas : object? (config.set "antennas" (.ofDict antennas)) "antennas" =
      some antennas := by
    rw [object?, Dict.get?_set_self, Option.bind_some, Json.dict?_ofDict]
  obtain ⟨h1, h2, h3, h4, h5, h6, h7, h8, h9, -, h11, h12, h13⟩ := hs
  simp [object?_set_of_ne, hantennas, h1, h2, h3, h4, h5, h6, h7, h8, h9, h11, h12, h13]

omit [PyText F] [PyBuiltins F] in
theorem definitionObjects_antennasSection (definitions : List (Json F))
    (assignments : Dict String (Json F)) :
    definitionObjects (antennasSection definitions assignments) =
      definitions.filterMap Json.dict? := by
  rw [definitionObjects, Dict.getD, get?_antennasSection_definitions, Option.getD_some]

/-- What can be read does not depend on the antenna assignments. -/
theorem Readable.of_assignments {s : Sections F} {definitions : List (Json F)}
    {assignments assignments' : Dict String (Json F)}
    (h : Readable { s with antennas := antennasSection definitions assignments }) :
    Readable { s with antennas := antennasSection definitions assignments' } where
  records := h.records
  rotations := by
    have hrotations := h.rotations
    rw [definitionObjects_antennasSection] at hrotations ⊢
    exact hrotations
  branches := h.branches
  assets := h.assets
  amplitude := h.amplitude
  speed := h.speed
  separation := h.separation
  bandwidth := h.bandwidth
  figure := h.figure
  payload := h.payload

omit [PyText F] [PyBuiltins F] in
/-- The sections of a document whose antennas are an object, one of them set apart. -/
theorem sections?_antennas {config antennas : Dict String (Json F)} {s : Sections F}
    (hget : config.get? "antennas" = some (.ofDict antennas)) (hs : sections? config = some s) :
    s.antennas = antennas := by
  obtain ⟨_, _, _, _, _, _, _, _, _, hantennas, _⟩ := sections?_eq_some_iff.mp hs
  rw [object?, hget, Option.bind_some, Json.dict?_ofDict, Option.some.injEq] at hantennas
  exact hantennas.symm

omit [PyText F] [PyBuiltins F] in
/-- A second migration leaves the swarm. -/
theorem Remigration.object?_swarm {v v' : Dict String (Json F)} (h : Remigration v v') :
    object? v' "swarm" = object? v "swarm" := by
  cases h with
  | same => rfl
  | assignments => exact object?_set_of_ne _ (by decide)

/-- A second migration does not change whether a document can be emitted. -/
theorem Remigration.emittable_iff {v v' : Dict String (Json F)} (h : Remigration v v') :
    Emittable v' ↔ Emittable v := by
  cases h with
  | same => rfl
  | @assignments definitions assignments hget hdefinitions =>
      have hv : v = (v.set "antennas" (.ofDict (antennasSection definitions
          (deepMerge defaultAssignments assignments)))).set "antennas"
          (.ofDict (antennasSection definitions assignments)) := by
        rw [Dict.set_set, Dict.set_eq_self hget]
      constructor
      · rintro ⟨s, hs, hreadable⟩
        have hantennas := sections?_antennas (Dict.get?_set_self _ _ _) hs
        rw [hv]
        refine ⟨_, sections?_set_antennas hs, ?_⟩
        cases s
        subst hantennas
        exact hreadable.of_assignments
      · rintro ⟨s, hs, hreadable⟩
        have hantennas := sections?_antennas hget hs
        refine ⟨_, sections?_set_antennas hs, ?_⟩
        cases s
        subst hantennas
        exact hreadable.of_assignments

/-- The sections that a second migration leaves are checked when the first ones are valid. -/
theorem Remigration.checked {v v' : Dict String (Json F)} {s' : Sections F}
    (h : Remigration v v') (hcovers : CoversDefault v') (hvalid : documentErrors v = some [])
    (hs' : sections? v' = some s') (now : F) : Checked s' := by
  have hswarm := (sections?_eq_some_iff.mp hs').2.1
  have hbase : Covers defaultSwarm s'.swarm := covers_object? (hcovers now)
    (get?_defaultExperiment_section now (by simp [defaultSections])) hswarm
  cases h with
  | same => exact checked_of_valid hbase hvalid hs'
  | @assignments definitions assignments hget hdefinitions =>
      have hantennas := sections?_antennas (Dict.get?_set_self _ _ _) hs'
      have hs : sections? v =
          some { s' with antennas := antennasSection definitions assignments } := by
        have hset := @sections?_set_antennas F _ (antennasSection definitions assignments) _ hs'
        rwa [Dict.set_set, Dict.set_eq_self hget] at hset
      have hchecked := @checked_of_valid F _ _ _
        { s' with antennas := antennasSection definitions assignments } hbase hvalid hs
      refine ⟨hchecked.drones, ⟨definitions, ?_, hdefinitions⟩, ?_⟩
      · rw [hantennas, Dict.getD, get?_antennasSection_definitions, Option.getD_some]
      · rw [hantennas, Dict.getD, get?_antennasSection_assignments, Option.getD_some,
          Json.dict?_ofDict]
        rfl

omit [PyText F] [PyBuiltins F] in
/-- The members of an `antennas` section. -/
theorem member_antennasSection {config : Dict String (Json F)} {definitions : List (Json F)}
    {assignments : Dict String (Json F)}
    (h : config.get? "antennas" = some (.ofDict (antennasSection definitions assignments))) :
    member config "antennas" "definitions" (.arr []) = .arr definitions ∧
      member config "antennas" "assignments" (.obj []) = .ofDict assignments := by
  have hobject : object? config "antennas" = some (antennasSection definitions assignments) := by
    rw [object?, h, Option.bind_some, Json.dict?_ofDict]
  rw [member_eq_getD hobject, member_eq_getD hobject, Dict.getD, Dict.getD,
    get?_antennasSection_definitions, get?_antennasSection_assignments]
  exact ⟨rfl, rfl⟩

/-- Antennas without issues have none after assignments are left out or listed in another order. -/
theorem antennaIssues_assignments {v v' : Dict String (Json F)} {definitions : List (Json F)}
    {assignments assignments' : Dict String (Json F)} (h : antennaIssues v = [])
    (hget : v.get? "antennas" = some (.ofDict (antennasSection definitions assignments)))
    (hget' : v'.get? "antennas" = some (.ofDict (antennasSection definitions assignments')))
    (hsub : ∀ e ∈ assignments'.entries, e ∈ assignments.entries) : antennaIssues v' = [] := by
  obtain ⟨hdefinitions, hassignments⟩ := member_antennasSection hget
  obtain ⟨hdefinitions', hassignments'⟩ := member_antennasSection hget'
  have hlist : antennaDefinitions v' = antennaDefinitions v := by
    rw [antennaDefinitions, antennaDefinitions, hdefinitions, hdefinitions']
  have hids : antennaIds v' = antennaIds v := by
    rw [antennaIds, antennaIds, hlist]
  simp only [antennaIssues, hdefinitions, hdefinitions', hlist, List.append_eq_nil_iff,
    assignmentIssues, hassignments, hassignments', Json.dict?_ofDict, List.flatMap_eq_nil_iff,
    issueIf_eq_nil, hids] at h ⊢
  exact ⟨h.1, fun e he => h.2 e (hsub e he)⟩

/-- What the validator finds in a document with other antenna assignments. -/
theorem documentErrors_assignments {v : Dict String (Json F)} {definitions : List (Json F)}
    {assignments : Dict String (Json F)} (hvalid : documentErrors v = some [])
    (hget : v.get? "antennas" = some (.ofDict (antennasSection definitions assignments)))
    (assignments' : Dict String (Json F)) :
    ∃ errors, documentErrors (v.set "antennas"
        (.ofDict (antennasSection definitions assignments'))) = some errors ∧
      ((∀ e ∈ assignments'.entries, e ∈ assignments.entries) → errors = []) := by
  generalize hv' : v.set "antennas" (.ofDict (antennasSection definitions assignments')) = v'
  have hget' : v'.get? "antennas" =
      some (.ofDict (antennasSection definitions assignments')) := by
    rw [← hv', Dict.get?_set_self]
  -- no check but that of the antennas reads the section
  have hne {key : String} (h : key ≠ "antennas") : v'.get? key = v.get? key := by
    rw [← hv', Dict.get?_set_of_ne _ _ h]
  have hsection {key : String} (h : key ≠ "antennas") : section? v' key = section? v key := by
    rw [section?, section?, hne h]
  have hschema : schemaIssues v' = schemaIssues v := by
    rw [schemaIssues, schemaIssues, Dict.getD, Dict.getD, hne (by decide)]
  have htraffic : trafficIssues v' = trafficIssues v := by
    rw [trafficIssues, trafficIssues, member, member, hne (by decide)]
  simp only [documentErrors, bind, pure, Option.bind_eq_some_iff, Option.some.injEq,
    List.append_eq_nil_iff] at hvalid
  obtain ⟨experiment, hexperiment, world, hworld, swarm, hswarm, topology, htopology, comm, hcomm,
    ⟨⟨⟨⟨⟨⟨hschemaIssues, hheader⟩, hworldIssues⟩, hswarmIssues⟩, htopologyIssues⟩, hcommIssues⟩,
      hantennas⟩, htrafficIssues⟩ := hvalid
  refine ⟨antennaIssues v', ?_, antennaIssues_assignments hantennas hget hget'⟩
  simp [documentErrors, hsection, hexperiment, hworld, hswarm, htopology, hcomm, hschema, htraffic,
    hschemaIssues, hheader, hworldIssues, hswarmIssues, htopologyIssues, hcommIssues,
    htrafficIssues]

/-! ## Main result -/

theorem validateStrict_eq_some_iff {now later : F} {config v : Dict String (Json F)} :
    validateStrict now later config = some v ↔
      migrateLegacyConfig now later config = some v ∧ documentErrors v = some [] := by
  simp only [validateStrict, validateExperiment, bind, pure, Option.bind_eq_some_iff,
    Option.some.injEq]
  constructor
  · rintro ⟨report, ⟨config', hmigrate, errors, herrors, rfl⟩, hok⟩
    split at hok
    · rename_i hempty
      obtain rfl := Option.some.inj hok
      rw [Report.ok, List.isEmpty_iff] at hempty
      exact ⟨hmigrate, hempty ▸ herrors⟩
    · simp at hok
  · rintro ⟨hmigrate, herrors⟩
    exact ⟨⟨v, []⟩, ⟨v, hmigrate, [], herrors, rfl⟩, rfl⟩

/-- A validated configuration is emitted, at any time, exactly when it has what the emission
reads. -/
theorem isSome_emitLegacyConfig {config : Document F} {now later : F} {v : Dict String (Json F)}
    (h : validateStrict now later config.members = some v) (now' later' : F) :
    (emitLegacyConfig now' later' v).isSome = true ↔ Emittable v := by
  obtain ⟨hmigrate, hvalid⟩ := validateStrict_eq_some_iff.mp h
  obtain ⟨v', hagain, hcovers, -, hremigration⟩ := migrate_migrated hmigrate
  rw [emitLegacyConfig, hagain, ← hremigration.emittable_iff]
  constructor
  · intro hemit
    obtain ⟨legacy, hlegacy⟩ := Option.isSome_iff_exists.mp hemit
    obtain ⟨s, _, _, _, _, hs, -⟩ := emitDocument_spec hlegacy
    have hchecked := hremigration.checked hcovers hvalid hs now
    exact ⟨s, hs, (isSome_emitDocument hs (present_of_covers (hcovers now) hs) hchecked).mp hemit⟩
  · rintro ⟨s, hs, hreadable⟩
    have hchecked := hremigration.checked hcovers hvalid hs now
    exact (isSome_emitDocument hs (present_of_covers (hcovers now) hs) hchecked).mpr hreadable

/-- The legacy document migrates to the document that it carries. -/
theorem migrate_legacy {v' legacy : Dict String (Json F)} (hcovers : CoversDefault v')
    (hversioned : isVersioned v' = true) (hemit : emitDocument v' = some legacy)
    (now later : F) : migrateLegacyConfig now later legacy = some v' := by
  obtain ⟨_, _, _, _, _, -, -, -, -, hv6, hexperiment⟩ := emitDocument_spec hemit
  have hflat : isVersioned legacy = false := by
    rw [isVersioned, Dict.get?_eq_none_iff.mpr hexperiment]
    simp
  have henvelope : envelope? legacy = some v' := by
    simp [envelope?, hv6, hversioned]
  rw [migrateLegacyConfig, hflat, henvelope]
  exact congrArg some (deepMerge_eq_self (hcovers now))

omit [PyText F] in
/-- A versioned document that can be emitted assigns an antenna to every default entity. -/
theorem assignsDefaults_of_covers {v : Dict String (Json F)} {now : F}
    (hcovers : Covers (defaultExperiment now) v) (h : (object? v "antennas").isSome = true) :
    AssignsDefaults v := by
  obtain ⟨antennas, hantennas⟩ := Option.isSome_iff_exists.mp h
  intro assignments hassignments
  rw [member_eq_getD hantennas] at hassignments
  have hbase : Covers defaultAntennas antennas := covers_object? hcovers
    (get?_defaultExperiment_section now (by simp [defaultSections])) hantennas
  obtain ⟨value, hvalue, hvalueCovers⟩ := hbase.exists_get? get?_defaultAntennas_assignments
  rw [Dict.getD, hvalue, Option.getD_some] at hassignments
  obtain ⟨extra, hextra⟩ := (covers_of_dict? hvalueCovers hassignments).keys
  intro entity hentity
  rw [hextra]
  exact List.mem_append_left _ hentity

omit [PyText F] [PyBuiltins F] in
theorem set_antennasSection (definitions : List (Json F))
    (assignments assignments' : Dict String (Json F)) :
    (antennasSection definitions assignments).set "assignments" (.ofDict assignments') =
      antennasSection definitions assignments' := rfl

omit [PyText F] [PyBuiltins F] in
/-- Assignments that name every default entity are not changed by the default ones. -/
theorem get?_mergedAssignments {assignments : Dict String (Json F)}
    (h : ∀ entity ∈ (defaultAssignments : Dict String (Json F)).keys, entity ∈ assignments.keys)
    (key : String) :
    (deepMerge defaultAssignments assignments).get? key = assignments.get? key := by
  apply Option.ext
  intro value
  rw [Dict.get?_eq_some_iff, Dict.get?_eq_some_iff, mem_mergedAssignments]
  refine or_iff_left ?_
  rintro ⟨hdefault, hnew⟩
  exact hnew (h key (Dict.mem_keys_of_mem hdefault))

omit [PyText F] [PyBuiltins F] in
theorem sameDocument_mergedAssignments {assignments : Dict String (Json F)}
    (h : ∀ entity ∈ (defaultAssignments : Dict String (Json F)).keys,
      entity ∈ assignments.keys) :
    SameDocument (deepMerge defaultAssignments assignments) assignments := by
  refine Json.Same.object fun key => ?_
  rw [get?_mergedAssignments h]
  cases assignments.get? key with
  | none => exact .none
  | some value => exact .some (.refl value)

omit [PyText F] in
/-- A second migration gives the same document exactly when no default assignment comes back. -/
theorem Remigration.same_iff {v v' : Dict String (Json F)} (h : Remigration v v') {now : F}
    (hcovers : Covers (defaultExperiment now) v') (hobject : (object? v' "antennas").isSome = true) :
    SameDocument v' v ↔ AssignsDefaults v := by
  cases h with
  | same => exact iff_of_true (.refl v) (assignsDefaults_of_covers hcovers hobject)
  | @assignments definitions assignments hget hdefinitions =>
      have hmember := (member_antennasSection hget).2
      constructor
      · -- the merged assignments have the keys of the default ones
        intro hsame assignments' hassignments' entity hentity
        rw [hmember, Json.dict?_ofDict, Option.some.injEq] at hassignments'
        subst hassignments'
        have hantennas := hsame.get? "antennas"
        rw [Dict.get?_set_self, hget] at hantennas
        rw [Option.rel_some_some] at hantennas
        have hinner := SameDocument.get? hantennas "assignments"
        rw [get?_antennasSection_assignments, get?_antennasSection_assignments,
          Option.rel_some_some] at hinner
        have hsame' : SameDocument (deepMerge defaultAssignments assignments) assignments := hinner
        exact hsame'.mem_keys_iff.mp (mem_keys_deepMerge.mpr (Or.inl hentity))
      · intro hassigns
        have hall := hassigns assignments (by rw [hmember, Json.dict?_ofDict])
        refine SameDocument.set v hget ?_
        rw [← set_antennasSection definitions assignments]
        exact SameDocument.set _ (get?_antennasSection_assignments _ _)
          (sameDocument_mergedAssignments hall)

/-- After a second migration that brings no default assignment back, the validator finds nothing. -/
theorem Remigration.valid {v v' : Dict String (Json F)} (h : Remigration v v')
    (hvalid : documentErrors v = some []) :
    ∃ errors, documentErrors v' = some errors ∧ (AssignsDefaults v → errors = []) := by
  cases h with
  | same => exact ⟨[], hvalid, fun _ => rfl⟩
  | @assignments definitions assignments hget hdefinitions =>
      obtain ⟨errors, herrors, hempty⟩ := documentErrors_assignments hvalid hget
        (deepMerge defaultAssignments assignments)
      refine ⟨errors, herrors, fun hassigns => hempty fun e he => ?_⟩
      have hall := hassigns assignments (by
        rw [(member_antennasSection hget).2, Json.dict?_ofDict])
      obtain ⟨key, value⟩ := e
      rwa [← Dict.get?_eq_some_iff, get?_mergedAssignments hall, Dict.get?_eq_some_iff] at he

/-- A configuration that was validated comes back from the legacy document, from another validation
and from the file that is saved exactly when it can be emitted and assigns an antenna to every
entity of the default experiment. -/
theorem roundTrips_iff (config : Document F) (now later : F) (v : Dict String (Json F))
    (h : validateStrict now later config.members = some v) :
    RoundTrips now later config.members v ↔ Emittable v ∧ AssignsDefaults v := by
  obtain ⟨hmigrate, hvalid⟩ := validateStrict_eq_some_iff.mp h
  obtain ⟨v', hagain, hcovers, hversioned, hremigration⟩ := migrate_migrated hmigrate
  obtain ⟨errors, herrors, hempty⟩ := hremigration.valid hvalid
  have hemits (t₃ t₄ : F) : emitLegacyConfig t₃ t₄ v = emitDocument v' := by
    rw [emitLegacyConfig, hagain]
    rfl
  have hobject (hemittable : Emittable v) : (object? v' "antennas").isSome = true := by
    obtain ⟨s, hs, -⟩ := hremigration.emittable_iff.mpr hemittable
    obtain ⟨_, _, _, _, _, _, _, _, _, hantennas, _⟩ := sections?_eq_some_iff.mp hs
    rw [hantennas]
    rfl
  constructor
  · intro htrips
    obtain ⟨legacy, w, hlegacy, hw, hsame⟩ := htrips.emits now later now later
    have hemittable := (isSome_emitLegacyConfig h now later).mp (by rw [hlegacy]; rfl)
    rw [hemits] at hlegacy
    rw [migrate_legacy hcovers hversioned hlegacy, Option.some.injEq] at hw
    exact ⟨hemittable, (hremigration.same_iff (hcovers now) (hobject hemittable)).mp (hw ▸ hsame)⟩
  · rintro ⟨hemittable, hassigns⟩
    have hsame := (hremigration.same_iff (hcovers now) (hobject hemittable)).mpr hassigns
    obtain rfl := hempty hassigns
    obtain ⟨legacy, hlegacy⟩ := Option.isSome_iff_exists.mp
      ((isSome_emitLegacyConfig h now later).mpr hemittable)
    rw [hemits] at hlegacy
    have hback (t₅ t₆ : F) := migrate_legacy hcovers hversioned hlegacy t₅ t₆
    refine ⟨fun t₃ t₄ t₅ t₆ => ⟨legacy, v', (hemits t₃ t₄).trans hlegacy, hback t₅ t₆, hsame⟩,
      fun t₃ t₄ => ⟨v', validateStrict_eq_some_iff.mpr ⟨hagain t₃ t₄, herrors⟩, hsame⟩,
      fun emitLegacy t₃ t₄ t₅ t₆ => ?_⟩
    -- reading either file again gives the document that is migrated twice
    have hload {file : Dict String (Json F)}
        (hfile : migrateLegacyConfig t₅ t₆ file = some v') :
        loadExperiment t₅ t₆ (some (.ofDict file)) = some v' := by
      simp [loadExperiment, validateExperiment, hfile, herrors]
    cases emitLegacy with
    | true =>
        refine ⟨legacy, v', ?_, hload (hback t₅ t₆), hsame⟩
        rw [saveExperiment, h]
        exact (hemits t₃ t₄).trans hlegacy
    | false =>
        refine ⟨v, v', ?_, hload (hagain t₅ t₆), hsame⟩
        rw [saveExperiment, h]
        rfl

/-- A flat document that lists one antenna. It is attached to the station. -/
def loneAntenna : Document ℚ where
  members := .ofList [("antennas", .arr [.obj [("id", .str "panel")]])]
  distinct := by decide +kernel

theorem isSome_validateStrict_loneAntenna :
    (validateStrict 0 0 loneAntenna.members).isSome = true := by
  decide +kernel

theorem roundTrips_loneAntenna : ∃ v, validateStrict 0 0 loneAntenna.members = some v ∧
    (RoundTrips 0 0 loneAntenna.members v ↔ Emittable v ∧ AssignsDefaults v) := by
  obtain ⟨v, hv⟩ := Option.isSome_iff_exists.mp isSome_validateStrict_loneAntenna
  exact ⟨v, hv, roundTrips_iff loneAntenna 0 0 v hv⟩

/-- The validator accepts the document and rejects the configuration that it returns for it. -/
theorem not_roundTrips_loneAntenna : ∃ v, validateStrict 0 0 loneAntenna.members = some v ∧
    ¬RoundTrips 0 0 loneAntenna.members v := by
  obtain ⟨v, hv⟩ := Option.isSome_iff_exists.mp isSome_validateStrict_loneAntenna
  have hagain : ((validateStrict 0 0 loneAntenna.members).bind (validateStrict 0 0)).isSome =
      false := by
    decide +kernel
  refine ⟨v, hv, fun h => ?_⟩
  obtain ⟨w, hw, -⟩ := h.validates 0 0
  rw [hv, Option.bind_some, hw] at hagain
  simp at hagain

end Netlab.Experiment
