import Netlab.Config.RoundTrip

/-!
# What a valid configuration guarantees

A report without issues promises that the configuration can be emitted, that the emitted drones
have distinct indices and that the branches run between known nodes. The validator looks at the
identifiers of the drones and at the numbers in the branches, but at neither the indices nor the
names `drone_<i>` that the branches stand for, so each promise needs a condition of its own
(`sufficient_iff`).
-/

namespace Netlab.Experiment

variable {F : Type} [PyText F] [PyBuiltins F]

/-- The indices of the drones of a legacy document. -/
def emittedIndices (legacy : Dict String (Json F)) : List (Json F) :=
  match legacy.getD "drones" (.arr []) with
  | .arr items => items.filterMap fun item => item.dict?.bind fun d => d.get? "index"
  | _ => []

/-- The indices of the drone records of a configuration. -/
def recordIndices (config : Dict String (Json F)) : List (Json F) :=
  match object? config "swarm" with
  | some swarm => (droneObjects swarm).filterMap fun record => record.get? "index"
  | none => []

/-- No two of the values are equal. -/
def PairwiseDistinct (values : List (Json F)) : Prop :=
  values.Pairwise fun value other => value.eq other = false

instance (values : List (Json F)) : Decidable (PairwiseDistinct values) := by
  unfold PairwiseDistinct
  infer_instance

/-- The nodes of a configuration: the station and the drones. -/
def nodes (config : Dict String (Json F)) : List String :=
  "station" :: droneIds ((object? config "swarm").getD .empty)

/-- The topology section of a configuration. -/
def topologySection (config : Dict String (Json F)) : Dict String (Json F) :=
  (object? config "topology").getD .empty

/-- The hops of the branches can be read, and both ends of each are nodes. -/
def HopsKnown (config : Dict String (Json F)) : Prop :=
  ∃ rows, branchInts ((topologySection config).getD "branches" (.arr [])) = some rows ∧
    ∀ hop ∈ branchesToEdges rows (topologySource (topologySection config)),
      hop.1 ∈ nodes config ∧ hop.2 ∈ nodes config

/-- The branches list numbers `i` for which there is a drone named `drone_i`, and start at a
node. -/
def BranchesKnown (config : Dict String (Json F)) : Prop :=
  ∃ rows, branchInts ((topologySection config).getD "branches" (.arr [])) = some rows ∧
    (∀ row ∈ rows, ∀ idx ∈ row,
      droneNode idx ∈ droneIds ((object? config "swarm").getD .empty)) ∧
    ((∃ row ∈ rows, row ≠ []) → topologySource (topologySection config) ∈ nodes config)

/-- What a valid configuration promises, whenever it is emitted. -/
structure Sufficient (config : Dict String (Json F)) : Prop where
  emits : ∀ now later : F, ∃ legacy, emitLegacyConfig now later config = some legacy ∧
    PairwiseDistinct (emittedIndices legacy)
  hops : HopsKnown config

/-! ## Hops -/

omit [PyBuiltins F] in
theorem droneNode_mem_nodes {config : Dict String (Json F)} {idx : ℤ} :
    droneNode idx ∈ nodes config ↔
      droneNode idx ∈ droneIds ((object? config "swarm").getD .empty) := by
  rw [nodes, List.mem_cons, or_iff_right (droneNode_ne_station idx)]

/-- The ends of the edges of a branch are the node that it starts from and its drones. -/
theorem branchEdges_known_iff {known : List String} {prev : String} {row : List ℤ} :
    (∀ hop ∈ branchEdges prev row, hop.1 ∈ known ∧ hop.2 ∈ known) ↔
      (row ≠ [] → prev ∈ known) ∧ ∀ idx ∈ row, droneNode idx ∈ known := by
  induction row generalizing prev with
  | nil => simp [branchEdges]
  | cons idx rest ih =>
      rw [branchEdges, List.forall_mem_cons, ih, List.forall_mem_cons]
      constructor
      · rintro ⟨⟨hprev, hidx⟩, -, hrest⟩
        exact ⟨fun _ => hprev, hidx, hrest⟩
      · rintro ⟨hprev, hidx, hrest⟩
        exact ⟨⟨hprev (List.cons_ne_nil _ _), hidx⟩, fun _ => hidx, hrest⟩

theorem hopsKnown_iff {config : Dict String (Json F)} :
    HopsKnown config ↔ BranchesKnown config := by
  refine exists_congr fun rows => and_congr_right fun _ => ?_
  have hrow (row : List ℤ) := @branchEdges_known_iff (nodes config)
    (topologySource (topologySection config)) row
  simp only [droneNode_mem_nodes] at hrow
  constructor
  · intro h
    have hall (row : List ℤ) (hmem : row ∈ rows) :=
      (hrow row).mp fun hop hhop => h hop (List.mem_flatMap.mpr ⟨row, hmem, hhop⟩)
    exact ⟨fun row hmem => (hall row hmem).2, fun ⟨row, hmem, hne⟩ => (hall row hmem).1 hne⟩
  · rintro ⟨hdrones, hsource⟩ hop hhop
    obtain ⟨row, hmem, hhop⟩ := List.mem_flatMap.mp hhop
    exact (hrow row).mpr ⟨fun hne => hsource ⟨row, hmem, hne⟩, hdrones row hmem⟩ hop hhop

/-! ## Indices -/

/-- A legacy record has the index of the record that it was emitted from. -/
theorem emittedDrone_index {assignments d : Dict String (Json F)} {definitions : List (Json F)}
    {item : Json F} (h : emittedDrone assignments definitions item = some d) :
    ∃ record, item.dict? = some record ∧ d.get? "index" = record.get? "index" := by
  unfold emittedDrone at h
  obtain ⟨record, hrecord, h⟩ := Option.bind_eq_some_iff.mp h
  obtain ⟨id, -, h⟩ := Option.bind_eq_some_iff.mp h
  obtain ⟨definition, -, h⟩ := Option.bind_eq_some_iff.mp h
  exact ⟨record, hrecord, get?_collect h (by simp) (by simp)⟩

/-- The legacy records have the indices of the records that they were emitted from. -/
theorem emittedDrones_indices {assignments : Dict String (Json F)} {definitions : List (Json F)}
    {records : List (Json F)} {drones : List (Dict String (Json F))}
    (h : records.mapM (emittedDrone assignments definitions) = some drones) :
    (drones.filterMap fun d => d.get? "index") =
      (records.filterMap Json.dict?).filterMap fun record => record.get? "index" := by
  rw [List.mapM_eq_some_iff_forall₂] at h
  induction h with
  | nil => rfl
  | cons hdrone _ ih =>
      obtain ⟨record, hrecord, hindex⟩ := emittedDrone_index hdrone
      simp only [List.filterMap_cons, hrecord, hindex, ih]

/-- The legacy document lists the indices of the drone records. -/
theorem emittedIndices_eq {config legacy : Dict String (Json F)} {s : Sections F}
    (h : emitDocument config = some legacy) (hs : sections? config = some s)
    (hchecked : Checked s) : emittedIndices legacy = recordIndices config := by
  obtain ⟨s', assignments, definitions, records, drones, hs', hrecords, hdrones, hlegacy, -, -⟩ :=
    emitDocument_spec h
  obtain rfl := Option.some.inj (hs.symm.trans hs')
  obtain ⟨records', hrecords', -⟩ := hchecked.drones
  rw [hrecords', Option.bind_some, Json.elements?, Option.some.injEq] at hrecords
  subst hrecords
  have hobjects : droneObjects s.swarm = records'.filterMap Json.dict? := by
    rw [droneObjects, droneRecords, Dict.getD, hrecords']
    rfl
  have hswarm := (sections?_eq_some_iff.mp hs).2.1
  rw [emittedIndices, Dict.getD, hlegacy, Option.getD_some, recordIndices, hswarm]
  simp only [List.filterMap_map, Function.comp_def, Json.dict?_ofDict, Option.bind_some, hobjects]
  exact emittedDrones_indices hdrones

/-! ## Main result -/

/-- A configuration that the validator accepts keeps the three promises exactly when it has what
the emission reads, the indices of its records are distinct, and its branches list drones by the
names that the drones have. -/
theorem sufficient_iff (config : Document F) (now later : F) (report : Report F)
    (h : validateExperiment now later config.members = some report) (hok : report.ok = true) :
    Sufficient report.config ↔ Emittable report.config ∧
      PairwiseDistinct (recordIndices report.config) ∧ BranchesKnown report.config := by
  have hstrict : validateStrict now later config.members = some report.config := by
    simp [validateStrict, h, hok]
  obtain ⟨hmigrate, hvalid⟩ := validateStrict_eq_some_iff.mp hstrict
  obtain ⟨v', hagain, hcovers, -, hremigration⟩ := migrate_migrated hmigrate
  -- the emission migrates first, and the clock has no part in that
  have hemit (now' later' : F) : emitLegacyConfig now' later' report.config = emitDocument v' := by
    rw [emitLegacyConfig, hagain]
    rfl
  have hindices {legacy : Dict String (Json F)} (hlegacy : emitDocument v' = some legacy) :
      emittedIndices legacy = recordIndices report.config := by
    obtain ⟨s, _, _, _, _, hs, -⟩ := emitDocument_spec hlegacy
    rw [emittedIndices_eq hlegacy hs (hremigration.checked hcovers hvalid hs now), recordIndices,
      recordIndices, hremigration.object?_swarm]
  constructor
  · rintro ⟨hemits, hhops⟩
    obtain ⟨legacy, hlegacy, hdistinct⟩ := hemits now later
    have hemittable := (isSome_emitLegacyConfig hstrict now later).mp (by rw [hlegacy]; rfl)
    rw [hemit] at hlegacy
    exact ⟨hemittable, hindices hlegacy ▸ hdistinct, hopsKnown_iff.mp hhops⟩
  · rintro ⟨hemittable, hdistinct, hbranches⟩
    refine ⟨fun now' later' => ?_, hopsKnown_iff.mpr hbranches⟩
    obtain ⟨legacy, hlegacy⟩ := Option.isSome_iff_exists.mp
      ((isSome_emitLegacyConfig hstrict now' later').mpr hemittable)
    exact ⟨legacy, hlegacy, by rw [hindices (hemit now' later' ▸ hlegacy)]; exact hdistinct⟩

/-- A versioned document with one drone, which is not named after its index. -/
def namedDrone : Document ℚ where
  members := .ofList [
    ("schema_version", .str "2.0.0"),
    ("experiment", .obj []),
    ("swarm", .obj [
      ("drone_count", .int 1),
      ("relay_count", .int 1),
      ("standby_count", .int 0),
      ("drones", .arr [.obj [("id", .str "alpha"), ("index", .int 1), ("position", vec 28 0 28)]])]),
    ("topology", .obj [("branches", .arr [.arr [.int 1]])])]
  distinct := by decide +kernel

theorem ok_namedDrone :
    (validateExperiment 0 0 namedDrone.members).map Report.ok = some true := by
  decide +kernel

theorem sufficient_namedDrone : ∃ report,
    validateExperiment 0 0 namedDrone.members = some report ∧ report.ok = true ∧
      (Sufficient report.config ↔ Emittable report.config ∧
        PairwiseDistinct (recordIndices report.config) ∧ BranchesKnown report.config) := by
  obtain ⟨report, hreport, hok⟩ := Option.map_eq_some_iff.mp ok_namedDrone
  exact ⟨report, hreport, hok, sufficient_iff namedDrone 0 0 report hreport hok⟩

/-- The validator accepts the document, and its branch leads to a drone that does not exist. -/
theorem not_sufficient_namedDrone : ∃ report,
    validateExperiment 0 0 namedDrone.members = some report ∧ report.ok = true ∧
      ¬Sufficient report.config := by
  obtain ⟨report, hreport, hok⟩ := Option.map_eq_some_iff.mp ok_namedDrone
  have hhop : ((validateExperiment 0 0 namedDrone.members).bind fun report =>
      (branchInts ((topologySection report.config).getD "branches" (.arr []))).map fun rows =>
        decide (∀ hop ∈ branchesToEdges rows (topologySource (topologySection report.config)),
          hop.1 ∈ nodes report.config ∧ hop.2 ∈ nodes report.config)) = some false := by
    decide +kernel
  refine ⟨report, hreport, hok, fun h => ?_⟩
  obtain ⟨rows, hrows, hall⟩ := h.hops
  rw [hreport, Option.bind_some, hrows, Option.map_some, Option.some.injEq,
    decide_eq_false_iff_not] at hhop
  exact hhop hall

end Netlab.Experiment
