import Netlab.Config.RoundTrip
import Netlab.Preview.Assembly

/-!
# What the previews find in a validated configuration

A validated configuration lists its drones as records with an identifier and a position, so the
three previews know the same entities at the same places, and none of them raises before it comes to
the first edge, unless an altitude of the service region is no number.
-/

namespace Netlab

open Experiment (mappingOrEmpty droneObjects)

section

variable {F : Type} [PyText F] [PyFloat F]

/-- The records of the drones by identifier. -/
def droneTable (config : Dict String (Json F)) : Dict String (Dict String (Json F)) :=
  .ofList ((droneObjects (mappingOrEmpty config "swarm")).map fun item =>
    (TopologyPreview.recordId item, item))

/-- What the previews find in a validated configuration. -/
structure Previewable (config : Dict String (Json F)) : Prop where
  experiment : ∃ experiment, Experiment.section? config "experiment" = some experiment
  inventory : ∃ records, (mappingOrEmpty config "swarm").getD "drones" (.arr []) = .arr records
  /-- Each drone has an identifier and a position. -/
  records : ∀ item ∈ droneObjects (mappingOrEmpty config "swarm"), (item.get? "id").isSome = true ∧
    ∃ position, item.get? "position" = some position ∧ position.isSequence = true ∧
      (normalizeVec3 position).isSome = true
  definitions : (definitionsById config).isSome = true
  relayCount : (TopologyPreview.relayCount config).isSome = true
  separation : ((mappingOrEmpty config "swarm").getFloat "minimum_separation_m" 0.0).isSome = true
  bandwidth : ∃ bandwidthHz, (mappingOrEmpty config "communication").getFloat "bandwidth_hz" 20e6 =
    some bandwidthHz ∧ PyFloat.lt bandwidthHz 1.0 = false

omit [PyText F] [PyFloat F] in
theorem mappingOrEmpty_of_section? {config d : Dict String (Json F)} {key : String}
    (h : Experiment.section? config key = some d) : mappingOrEmpty config key = d := by
  rw [mappingOrEmpty]
  rw [Experiment.section?] at h
  cases hget : config.get? key with
  | none =>
      rw [hget] at h
      exact Option.some.inj h
  | some value =>
      rw [hget] at h
      rw [Option.bind_some, show value.dict? = some d from h, Option.getD_some]

omit [PyText F] [PyFloat F] in
theorem member_eq_mappingOrEmpty (config : Dict String (Json F)) (key field : String)
    (default : Json F) :
    Experiment.member config key field default = (mappingOrEmpty config key).getD field default := by
  rw [Experiment.member, mappingOrEmpty]
  cases (config.get? key).bind Json.dict? with
  | none => rfl
  | some d => rfl

end

/-! ## Entities -/

section

variable {F : Type} [PyText F] [PyFloat F]

/-- The record of an entity: of the drone with an identifier, or else of the station. -/
def entityRecord (config : Dict String (Json F)) (id : String) : Option (Dict String (Json F)) :=
  ((droneTable config).get? id).or
    (if id = stationId config then some (mappingOrEmpty config "station") else none)

/-- The positions that the records of the drones give. -/
def plannedPositions (config : Dict String (Json F)) : Option (Dict String (Vec3 F)) :=
  (droneTable config).traverse fun _ record => normalizeVec3 (EditorPreview.position record)

omit [PyFloat F] in
theorem mem_drones_of_get? {config record : Dict String (Json F)} {id : String}
    (h : (droneTable config).get? id = some record) :
    record ∈ droneObjects (mappingOrEmpty config "swarm") := by
  obtain ⟨item, hitem, heq⟩ := List.mem_map.mp (Dict.mem_of_get?_ofList h)
  rw [← (Prod.mk.inj heq).2]
  exact hitem

omit [PyFloat F] in
/-- A dictionary of what is read of the records of the drones. -/
theorem get?_ofList_records {β : Type} (config : Dict String (Json F))
    (f : Dict String (Json F) → β) (id : String) :
    (Dict.ofList ((droneObjects (mappingOrEmpty config "swarm")).map fun item =>
      (TopologyPreview.recordId item, f item))).get? id = ((droneTable config).get? id).map f :=
  Dict.get?_ofList_map TopologyPreview.recordId (fun item => item) f _ id

namespace Previewable

variable {config : Dict String (Json F)}

theorem position_eq (h : Previewable config) {record : Dict String (Json F)}
    (hrecord : record ∈ droneObjects (mappingOrEmpty config "swarm")) :
    record.getD "position" .null = EditorPreview.position record ∧
      (record.getD "position" .null).isSequence = true ∧
      (normalizeVec3 (EditorPreview.position record)).isSome = true := by
  obtain ⟨-, position, hposition, hsequence, hvector⟩ := h.records record hrecord
  rw [EditorPreview.position, Dict.getD, Dict.getD, hposition, Option.getD_some, Option.getD_some]
  exact ⟨rfl, hsequence, hvector⟩

theorem recordId_eq (h : Previewable config) {record : Dict String (Json F)}
    (hrecord : record ∈ droneObjects (mappingOrEmpty config "swarm")) :
    (record.getD "id" .null).toText = TopologyPreview.recordId record := by
  obtain ⟨value, hvalue⟩ := Option.isSome_iff_exists.mp (h.records record hrecord).1
  rw [TopologyPreview.recordId, Dict.getD, Dict.getD, hvalue, Option.getD_some, Option.getD_some]

/-- The preview of the link service knows the entities. -/
theorem entities (h : Previewable config) : ∃ entities, EditorPreview.entities config = some entities ∧
    ∀ id, entities.get? id = entityRecord config id := by
  obtain ⟨items, hitems⟩ := h.inventory
  have hobjects : (items.filterMap fun item => item.dict?.bind fun item =>
      some ((item.getD "id" .null).toText, item)) =
      (droneObjects (mappingOrEmpty config "swarm")).map fun item =>
        (TopologyPreview.recordId item, item) := by
    have hdrones : droneObjects (mappingOrEmpty config "swarm") = items.filterMap Json.dict? := by
      rw [droneObjects, droneRecords, hitems]
    rw [List.map_congr_left fun item hitem => by rw [← h.recordId_eq hitem], hdrones,
      List.map_filterMap]
    exact List.filterMap_congr fun item _ => (Option.map_eq_bind ..).symm
  refine ⟨_, by rw [EditorPreview.entities, hitems]; rfl, fun id => ?_⟩
  rw [Dict.get?_ofList_cons, entityRecord, droneTable]
  exact congrArg (fun l => ((Dict.ofList l).get? id).or _) hobjects

/-- The preview next to the checks has the positions of the entities that have a sequence for
one. -/
theorem get?_positions (h : Previewable config) (id : String) :
    (TopologyPreview.positions config).get? id = (entityRecord config id).bind fun record =>
      if (record.getD "position" .null).isSequence then some (record.getD "position" .null)
      else none := by
  have hplace : ((droneObjects (mappingOrEmpty config "swarm")).filterMap fun item =>
      if (item.getD "position" .null).isSequence then
        some (TopologyPreview.recordId item, item.getD "position" .null) else none) =
      (droneObjects (mappingOrEmpty config "swarm")).map fun item =>
        (TopologyPreview.recordId item, item.getD "position" .null) := by
    rw [← List.filterMap_eq_map]
    refine List.filterMap_congr fun item hitem => ?_
    rw [if_pos (h.position_eq hitem).2.1]
    rfl
  have hdrone : ∀ record, (droneTable config).get? id = some record →
      (record.getD "position" .null).isSequence = true := fun record hrecord =>
    (h.position_eq (mem_drones_of_get? hrecord)).2.1
  -- the station is entered first, so a drone that takes its id overwrites it
  rw [TopologyPreview.positions]
  dsimp only
  rw [hplace, entityRecord]
  by_cases hstation :
      ((mappingOrEmpty config "station").getD "position" .null).isSequence = true
  · rw [if_pos hstation, Option.toList_some, List.singleton_append, Dict.get?_ofList_cons,
      get?_ofList_records]
    cases htable : (droneTable config).get? id with
    | none => by_cases hid : id = stationId config <;> simp [hid, hstation]
    | some record => simp [hdrone record htable]
  · rw [if_neg hstation, Option.toList_none, List.nil_append, get?_ofList_records]
    cases htable : (droneTable config).get? id with
    | none => by_cases hid : id = stationId config <;> simp [hid, hstation]
    | some record => simp [hdrone record htable]

/-- The positions of the drones. -/
theorem plannedPositions (h : Previewable config) : ∃ planned,
    Netlab.plannedPositions config = some planned ∧ ∀ id, planned.get? id =
      ((droneTable config).get? id).bind fun record =>
        normalizeVec3 (EditorPreview.position record) := by
  have hall : ((droneTable config).entries.all fun e =>
      (normalizeVec3 (EditorPreview.position e.2)).isSome) = true := by
    refine List.all_eq_true.mpr fun e he => ?_
    exact (h.position_eq (mem_drones_of_get? (Dict.get?_eq_some_iff.mpr he))).2.2
  refine ⟨_, by rw [Netlab.plannedPositions, Dict.traverse, if_pos hall], fun id => ?_⟩
  rw [Dict.get?_filterMap]

end Previewable

/-- A vector that has been read is read again from its list. -/
theorem normalizeVec3_toJson {value : Json F} {v : Vec3 F} (h : normalizeVec3 value = some v) :
    normalizeVec3 v.toJson = some v := by
  obtain ⟨items, -, h⟩ := Option.bind_eq_some_iff.mp h
  obtain ⟨numbers, -, h⟩ := Option.bind_eq_some_iff.mp h
  split at h
  · split at h
    · rename_i hfinite
      obtain rfl := Option.some.inj h
      simp only [List.all_cons, List.all_nil, Bool.and_true, Bool.and_eq_true] at hfinite
      simp [normalizeVec3, Vec3.toJson, Json.elements?, List.mapM_cons, hfinite]
    · simp at h
  · simp at h

/-- The shield has the entities at the positions of their records. -/
theorem get?_entityPositions {config : Dict String (Json F)} {planned : Dict String (Vec3 F)}
    (hplanned : ∀ id, planned.get? id = ((droneTable config).get? id).bind fun record =>
      normalizeVec3 (EditorPreview.position record))
    (hvector : ∀ id record, (droneTable config).get? id = some record →
      (normalizeVec3 (EditorPreview.position record)).isSome = true) (id : String) :
    match entityRecord config id with
    | some record => ∃ position, (entityPositions planned config).get? id = some position ∧
        normalizeVec3 position = normalizeVec3 (EditorPreview.position record)
    | none => (entityPositions planned config).get? id = none := by
  -- the planned positions of the drones come over the position of the station
  have hget : (entityPositions planned config).get? id =
      ((planned.get? id).map Vec3.toJson).or (if id = stationId config then
        some (EditorPreview.position (mappingOrEmpty config "station")) else none) := by
    rw [entityPositions, Dict.get?_update, Dict.get?_map, Dict.get?_set, Dict.get?_empty]
    rfl
  rw [hget, hplanned, entityRecord]
  cases htable : (droneTable config).get? id with
  | some record =>
      obtain ⟨v, hv⟩ := Option.isSome_iff_exists.mp (hvector id record htable)
      rw [Option.some_or, Option.bind_some, hv, Option.map_some, Option.some_or]
      exact ⟨v.toJson, rfl, (normalizeVec3_toJson hv).trans hv.symm⟩
  | none =>
      rw [Option.none_or, Option.bind_none, Option.map_none, Option.none_or]
      by_cases hid : id = stationId config
      · rw [if_pos hid, if_pos hid]
        exact ⟨_, rfl, rfl⟩
      · rw [if_neg hid, if_neg hid]

end

section

variable {F : Type} [PyText F] [PyBuiltins F]

/-- A number that the validator accepts is one when it is read. -/
theorem getFloat_of_rangeIssues {d : Dict String (Json F)} {key path loText hiText : String}
    {lo hi default : F} (hzero : ∀ x : F, PyFloat.ofInt 0 = some x → PyFloat.lt x lo = true)
    (h : Experiment.rangeIssues path (d.getD key (.int 0)) lo hi loText hiText = []) :
    ∃ x, d.getFloat key default = some x ∧ PyFloat.lt x lo = false := by
  rw [Experiment.rangeIssues] at h
  split at h
  · simp at h
  · rename_i x hx
    simp only [issueIf_eq_nil, not_or, Bool.not_eq_true] at h
    obtain ⟨hvalue, -⟩ := Option.filter_eq_some_iff.mp hx
    refine ⟨x, ?_, h.1⟩
    rw [Dict.getFloat, Dict.getD]
    rw [Dict.getD] at hvalue
    cases hget : d.get? key with
    | none =>
        rw [hget, Option.getD_none] at hvalue
        exact absurd (hzero x hvalue) (by simp [h.1])
    | some value =>
        rw [hget] at hvalue
        exact hvalue

/-- A vector without issues can be read. -/
theorem isSome_normalizeVec3 {path : String} {value : Json F}
    (h : Experiment.vecIssues path value = []) :
    value.isSequence = true ∧ (normalizeVec3 value).isSome = true := by
  obtain ⟨x, y, z, rfl⟩ := Experiment.vecIssues_eq_nil h
  refine ⟨rfl, ?_⟩
  simp only [Experiment.vecIssues, List.mapIdx_cons, List.mapIdx_nil, List.flatten_cons,
    List.flatten_nil, List.append_nil, List.append_eq_nil_iff, issueIf_eq_nil, Option.isNone_iff_eq_none,
    ← ne_eq, Option.ne_none_iff_exists', Experiment.finite?, Option.filter_eq_some_iff] at h
  obtain ⟨⟨a, ha, hfa⟩, ⟨b, hb, hfb⟩, c, hc, hfc⟩ := h
  simp [normalizeVec3, Json.elements?, List.mapM_cons, ha, hb, hc, hfa, hfb, hfc]

end

section

variable [PyText ℝ]

/-- What the validator accepts as drone records. -/
theorem records_of_valid {i : ℕ} {ids : List String} {items : List (Json ℝ)}
    (h : recordIssues Experiment.positionIssues i ids items = []) :
    ∀ item ∈ items.filterMap Json.dict?, (item.get? "id").isSome = true ∧
      ∃ position, item.get? "position" = some position ∧ position.isSequence = true ∧
        (normalizeVec3 position).isSome = true := by
  induction items generalizing i ids with
  | nil => simp
  | cons value rest ih =>
      have hfirst := Experiment.recordIssues_eq_nil h value List.mem_cons_self
      obtain ⟨record, hrecord, hid, x, y, z, hposition⟩ := hfirst
      rw [recordIssues, hrecord] at h
      simp only [List.append_eq_nil_iff] at h
      obtain ⟨⟨-, hvector⟩, hrest⟩ := h
      rw [List.filterMap_cons, hrecord]
      refine List.forall_mem_cons.mpr ⟨⟨hid, _, hposition, ?_⟩, ih hrest⟩
      rw [Experiment.positionIssues, Dict.getD, hposition, Option.getD_some] at hvector
      exact isSome_normalizeVec3 hvector

/-- A validated configuration can be previewed. -/
theorem previewable_of_valid {config : Dict String (Json ℝ)}
    (h : Experiment.documentErrors config = some []) : Previewable config := by
  simp only [Experiment.documentErrors, bind, pure, Option.bind_eq_some_iff, Option.some.injEq,
    List.append_eq_nil_iff] at h
  obtain ⟨experiment, hexperiment, world, -, swarm, hswarm, topology, -, comm, hcomm,
    ⟨⟨⟨⟨-, hissues⟩, -⟩, hradio⟩, hantennas⟩, -⟩ := h
  have hswarm' := mappingOrEmpty_of_section? hswarm
  have hcomm' := mappingOrEmpty_of_section? hcomm
  have hzero : ∀ {lo : ℝ}, 0 < lo → ∀ x, PyFloat.ofInt 0 = some x → PyFloat.lt x lo = true := by
    intro lo hlo x hx
    obtain rfl : 0 = x := by simpa using Option.some.inj hx
    simpa using hlo
  -- every check that the preview relies on is one of those the validation made
  simp only [Experiment.swarmIssues, countIssues, List.append_eq_nil_iff, issueIf_eq_nil] at hissues
  obtain ⟨⟨⟨⟨⟨⟨⟨hcounts, -⟩, -⟩, -⟩, -⟩, hseparation⟩, hsized⟩, hrecords⟩ := hissues
  simp only [Experiment.communicationIssues, List.append_eq_nil_iff] at hradio
  obtain ⟨⟨⟨⟨⟨-, hbandwidth⟩, -⟩, -⟩, -⟩, -⟩ := hradio
  simp only [Experiment.antennaIssues, List.append_eq_nil_iff] at hantennas
  obtain ⟨⟨hdefinitions, -⟩, -⟩ := hantennas
  refine ⟨⟨experiment, hexperiment⟩, ?_, ?_, ?_, ?_, ?_, ?_⟩
  · rw [hswarm']
    rw [inventorySized] at hsized
    split at hsized
    · exact ⟨_, by assumption⟩
    · simp at hsized
  · -- the drone records are mappings with a position
    rw [hswarm', droneObjects]
    exact records_of_valid hrecords
  · rw [member_eq_mappingOrEmpty] at hdefinitions
    split at hdefinitions
    · rename_i items hitems
      rw [definitionsById, hitems]
      rfl
    · simp at hdefinitions
  · -- the relay count defaults to the drone count, which the validation read as well
    obtain ⟨counts, hcounts⟩ := Option.ne_none_iff_exists'.mp hcounts
    simp only [swarmCounts?, bind, pure, Option.bind_eq_some_iff, Option.some.injEq] at hcounts
    obtain ⟨total, htotal, relay, hrelay, -⟩ := hcounts
    rw [TopologyPreview.relayCount, hswarm', Dict.getD]
    rw [Dict.getD] at hrelay
    cases hget : swarm.get? "relay_count" with
    | none => rw [Option.getD_none, htotal]; rfl
    | some value =>
        rw [hget, Option.getD_some] at hrelay
        rw [Option.getD_some, hrelay]
        rfl
  · rw [hswarm']
    obtain ⟨x, hx, -⟩ := getFloat_of_rangeIssues (hzero (by norm_num)) hseparation
    rw [hx]
    rfl
  · rw [hcomm']
    exact getFloat_of_rangeIssues (hzero (by norm_num)) hbandwidth

end

end Netlab
