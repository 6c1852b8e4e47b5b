import Netlab.Config.Antennas
import Netlab.Config.Emittable

/-!
# Migrated documents

What every migrated document has: it is versioned, and migrating it again, at any time, gives a
document that covers the default experiment. The second migration changes nothing for a document
that came in the versioned form. For one that was read from a flat document it can change the
antenna assignments, and nothing else (`Migrated`).
-/

namespace Netlab.Experiment

variable {F : Type} [PyText F] [PyBuiltins F]

/-! ## The shape of the default experiment -/

omit [PyText F] in
private theorem distinct_drone (index : ℕ) (relayCount : ℤ) :
    (Json.ofDict (drone index relayCount : Dict String (Json F))).distinct = true :=
  Json.distinct_ofList (by simp [vec, Json.distinct, Json.distinctItems])

omit [PyText F] in
private theorem distinct_defaultSwarm :
    (Json.ofDict (defaultSwarm : Dict String (Json F))).distinct = true := by
  have hcontroller : (Json.ofDict (defaultController : Dict String (Json F))).distinct = true :=
    Json.distinct_ofList (by simp [Json.distinct])
  have hmobility : (Json.ofDict (defaultMobility : Dict String (Json F))).distinct = true :=
    Json.distinct_ofList (by simp [Json.distinct, Json.distinctMembers])
  have henergy : (Json.ofDict (defaultEnergy : Dict String (Json F))).distinct = true :=
    Json.distinct_ofList (by simp [Json.distinct])
  have hdrones : Json.distinctItems (drones 8 6 : List (Json F)) = true := by
    rw [Json.distinctItems_iff]
    intro item hitem
    obtain ⟨i, -, rfl⟩ := List.mem_map.mp hitem
    exact distinct_drone _ _
  exact Json.distinct_ofList (by
    simp [vec, Json.distinct, Json.distinctItems, hcontroller, hmobility, henergy, hdrones])

omit [PyText F] in
private theorem distinct_defaultAntennas :
    (Json.ofDict (defaultAntennas : Dict String (Json F))).distinct = true := by
  have hground : (Json.ofDict (groundSectorReference : Dict String (Json F))).distinct = true :=
    Json.distinct_ofList (by simp [vec, Json.distinct, Json.distinctItems])
  have huav : (Json.ofDict (uavOmniReference : Dict String (Json F))).distinct = true :=
    Json.distinct_ofList (by simp [vec, Json.distinct, Json.distinctItems])
  have hassignments :
      (Json.ofDict (defaultAssignments : Dict String (Json F))).distinct = true :=
    Json.distinct_ofList (by simp [Json.distinct])
  exact Json.distinct_ofList (by
    simp [Json.distinct, Json.distinctItems, hground, huav, hassignments])

omit [PyText F] in
/-- No section of the default experiment has an object that lists a key twice. -/
theorem distinct_defaultSections :
    ∀ e ∈ (defaultSections : List (String × Dict String (Json F))),
      (Json.ofDict e.2).distinct = true := by
  have henvironment :
      (Json.ofDict (defaultEnvironment : Dict String (Json F))).distinct = true :=
    Json.distinct_ofList (by simp [Json.distinct])
  have hflow : (Json.ofDict (defaultFlow : Dict String (Json F))).distinct = true :=
    Json.distinct_ofList (by simp [Json.distinct])
  simp only [defaultSections, List.forall_mem_cons]
  refine ⟨?clock, ?world, ?service, ?station, distinct_defaultSwarm, ?topology, ?comm,
    distinct_defaultAntennas, ?traffic, ?failures, ?visualization, ?evidence, ?runtime,
    ?compatibility, by simp⟩
  all_goals
    refine Json.distinct_ofList ?_
    simp [vec, Json.distinct, Json.distinctItems, henvironment, hflow]

omit [PyText F] in
/-- The values of the header are no objects. -/
theorem plain_of_defaultHeader {now : F} {key : String} {value : Json F}
    (h : (defaultHeader now).get? key = some value) : value.dict? = none := by
  exact Json.plain_of_ofList (by simp) h

omit [PyText F] in
theorem keys_defaultHeader (now now' : F) :
    (defaultHeader now').keys = (defaultHeader now).keys := by
  rw [Dict.keys, Dict.keys, defaultHeader, defaultHeader, Dict.entries_ofList (by simp),
    Dict.entries_ofList (by simp)]
  rfl

omit [PyText F] in
theorem get?_defaultExperiment_schema (now : F) :
    (defaultExperiment now).get? "schema_version" = some (.str schemaVersion) := by
  rw [Dict.get?_eq_some_iff, entries_defaultExperiment]
  exact List.mem_cons_self

omit [PyText F] in
/-- Two default experiments differ in their stamps only. -/
theorem sameShape_defaultExperiment (now now' : F) :
    SameShape (defaultExperiment now) (defaultExperiment now') := by
  refine ⟨by rw [keys_defaultExperiment, keys_defaultExperiment], fun key b v hb hv => ?_⟩
  have hmem := hb
  rw [Dict.get?_eq_some_iff, entries_defaultExperiment] at hmem
  rcases List.mem_cons.mp hmem with heq | hmem
  · obtain ⟨rfl, rfl⟩ := Prod.mk.injEq .. ▸ heq
    rw [get?_defaultExperiment_schema, Option.some.injEq] at hv
    exact hv ▸ .plain rfl rfl
  · rcases List.mem_cons.mp hmem with heq | hmem
    · obtain ⟨rfl, rfl⟩ := Prod.mk.injEq .. ▸ heq
      rw [get?_defaultExperiment_header, Option.some.injEq] at hv
      exact hv ▸ .object (keys_defaultHeader now now') fun key b v hb hv =>
        .plain (plain_of_defaultHeader hb) (plain_of_defaultHeader hv)
    · obtain ⟨e, he, heq⟩ := List.mem_map.mp hmem
      obtain ⟨rfl, rfl⟩ := Prod.mk.injEq .. ▸ heq
      rw [get?_defaultExperiment_section now' he, Option.some.injEq] at hv
      exact hv ▸ .refl (distinct_defaultSections e he)

omit [PyText F] in
/-- A section of the default experiment covers itself. -/
theorem covers_default {key : String} {base : Dict String (Json F)}
    (h : (key, base) ∈ defaultSections) : Covers base base :=
  covers_of_dict? (.refl (distinct_defaultSections _ h)) (Json.dict?_ofDict _)

/-! ## The sections of a flat document -/

/-- What was converted to a float is no object. -/
theorem plain_of_floatOf {value x : Json F} (h : floatOf value = some x) : x.dict? = none := by
  obtain ⟨y, -, rfl⟩ := Option.map_eq_some_iff.mp h
  rfl

theorem covers_flatHeader {now : F} {source header : Dict String (Json F)}
    (h : flatHeader now source = some header) (now' : F) : Covers (defaultHeader now') header := by
  simp only [flatHeader, bind, pure, Option.bind_eq_some_iff, Option.some.injEq] at h
  obtain ⟨seed, -, duration, hduration, rfl⟩ := h
  have hbase : Covers (defaultHeader now') (defaultHeader now) :=
    ⟨⟨[], by rw [keys_defaultHeader now' now, List.append_nil]⟩,
      fun key b v hb _ => .plain_base v (plain_of_defaultHeader hb)⟩
  refine (((hbase.store_plain "id" ?_).store_plain "name" rfl).store_plain "seed" rfl).store_plain
    "duration_s" (plain_of_floatOf hduration)
  split
  · rw [Dict.getD]
    cases hid : (defaultHeader now).get? "id" with
    | none => rfl
    | some value => exact plain_of_defaultHeader hid
  · rfl

theorem covers_flatSwarm {source swarm : Dict String (Json F)} {counts : FlatCounts}
    (h : flatSwarm source counts = some swarm) : Covers defaultSwarm swarm := by
  simp only [flatSwarm, bind, pure, Option.bind_eq_some_iff, Option.some.injEq] at h
  obtain ⟨visual, -, scale, hscale, rfl⟩ := h
  have hbase := @covers_default F _ "swarm" defaultSwarm (by simp [defaultSections])
  refine (hbase.update_plain ?_).store_plain _ rfl
  simp [plain_of_floatOf hscale]

theorem covers_flatWorld {source world : Dict String (Json F)} (h : flatWorld source = some world) :
    Covers defaultWorld world := by
  simp only [flatWorld, bind, pure, Option.bind_eq_some_iff, Option.some.injEq] at h
  obtain ⟨speed, hspeed, direction, hdirection, turbulence, hturbulence, rain, hrain, rfl⟩ := h
  have hbase := @covers_default F _ "world" defaultWorld (by simp [defaultSections])
  have henvironment : Covers (defaultEnvironment : Dict String (Json F)) defaultEnvironment :=
    covers_object? hbase get?_defaultWorld_environment (by
      rw [object?, get?_defaultWorld_environment, Option.bind_some, Json.dict?_ofDict])
  have hworld : Covers (defaultWorld : Dict String (Json F)) (defaultWorld.set "environment"
      (.ofDict (defaultEnvironment.update (.ofList [
        ("wind_speed_mps", speed), ("wind_direction_deg", direction),
        ("turbulence_intensity", turbulence), ("rain_rate_mm_h", rain)])))) := by
    refine hbase.store fun b hb => ?_
    rw [get?_defaultWorld_environment, Option.some.injEq] at hb
    subst hb
    refine (henvironment.update_plain ?_).ofDict
    simp [plain_of_floatOf hspeed, plain_of_floatOf hdirection, plain_of_floatOf hturbulence,
      plain_of_floatOf hrain]
  split
  · exact hworld.store_plain _ rfl
  · exact hworld

theorem covers_flatServiceRegion {source service : Dict String (Json F)}
    (h : flatServiceRegion source = some service) : Covers defaultServiceRegion service := by
  simp only [flatServiceRegion, bind, pure, Option.bind_eq_some_iff, Option.some.injEq] at h
  obtain ⟨length, hlength, width, hwidth, low, hlow, high, hhigh, rfl⟩ := h
  have hbase := @covers_default F _ "service_region" defaultServiceRegion
    (by simp [defaultSections])
  refine hbase.update_plain ?_
  simp [plain_of_floatOf hlength, plain_of_floatOf hwidth, plain_of_floatOf hlow,
    plain_of_floatOf hhigh]

omit [PyText F] in
theorem covers_flatStation (source : Dict String (Json F)) :
    Covers defaultStation (flatStation source) := by
  have hbase := @covers_default F _ "station" defaultStation (by simp [defaultSections])
  refine hbase.update fun e _ b hb => .plain_base _ ?_
  exact Json.plain_of_ofList (by simp [vec]) hb

theorem covers_flatTopology {source topology : Dict String (Json F)} {counts : FlatCounts}
    (h : flatTopology source counts = some topology) : Covers defaultTopology topology := by
  simp only [flatTopology, bind, pure, Option.bind_eq_some_iff, Option.some.injEq] at h
  obtain ⟨mode, -, branches, -, rfl⟩ := h
  have hbase := @covers_default F _ "topology" defaultTopology (by simp [defaultSections])
  exact hbase.update_plain (by simp)

theorem covers_flatCommunication {source comm : Dict String (Json F)}
    (h : flatCommunication source = some comm) : Covers defaultCommunication comm := by
  simp only [flatCommunication, bind, pure, Option.bind_eq_some_iff] at h
  obtain ⟨carrier, hcarrier, bandwidth, hbandwidth, power, hpower, range, hrange, outage, houtage,
    snr, hsnr, capacity, hcapacity, h⟩ := h
  have hbase := @covers_default F _ "communication" defaultCommunication (by simp [defaultSections])
  have hcomm : Covers (defaultCommunication : Dict String (Json F)) (defaultCommunication.update
      (.ofList [("carrier_frequency_hz", carrier), ("bandwidth_hz", bandwidth),
        ("tx_power_dbm", power), ("operational_range_m", range),
        ("hard_outage_distance_m", outage), ("min_snr_db", snr),
        ("min_capacity_mbps", capacity)])) := by
    refine hbase.update_plain ?_
    simp [plain_of_floatOf hcarrier, plain_of_floatOf hbandwidth, plain_of_floatOf hpower,
      plain_of_floatOf hrange, plain_of_floatOf houtage, plain_of_floatOf hsnr,
      plain_of_floatOf hcapacity]
  split at h
  · obtain rfl := Option.some.inj h
    exact hcomm
  · obtain ⟨floor, hfloor, h⟩ := Option.bind_eq_some_iff.mp h
    obtain rfl := Option.some.inj h
    exact hcomm.store_plain _ (plain_of_floatOf hfloor)

theorem covers_flatVisualization {source visualization : Dict String (Json F)}
    (h : flatVisualization source = some visualization) :
    Covers defaultVisualization visualization := by
  simp only [flatVisualization, bind, pure, Option.bind_eq_some_iff, Option.some.injEq] at h
  obtain ⟨scale, hscale, opacity, hopacity, rfl⟩ := h
  have hbase := @covers_default F _ "visualization" defaultVisualization (by simp [defaultSections])
  refine hbase.update_plain ?_
  simp [plain_of_floatOf hscale, plain_of_floatOf hopacity]

/-- An `antennas` section with the given definitions and assignments. -/
def antennasSection (definitions : List (Json F)) (assignments : Dict String (Json F)) :
    Dict String (Json F) :=
  .ofList [("definitions", .arr definitions), ("assignments", .ofDict assignments)]

omit [PyText F] [PyBuiltins F] in
theorem keys_antennasSection (definitions : List (Json F))
    (assignments : Dict String (Json F)) :
    (antennasSection definitions assignments).keys = ["definitions", "assignments"] := by
  rw [Dict.keys, antennasSection, Dict.entries_ofList (by simp)]
  rfl

omit [PyText F] [PyBuiltins F] in
theorem get?_antennasSection_definitions (definitions : List (Json F))
    (assignments : Dict String (Json F)) :
    (antennasSection definitions assignments).get? "definitions" = some (.arr definitions) :=
  Dict.get?_ofList_of_mem (by simp) (by simp)

omit [PyText F] [PyBuiltins F] in
theorem get?_antennasSection_assignments (definitions : List (Json F))
    (assignments : Dict String (Json F)) :
    (antennasSection definitions assignments).get? "assignments" = some (.ofDict assignments) :=
  Dict.get?_ofList_of_mem (by simp) (by simp)

/-- The antennas of a flat document are definitions with assignments. -/
theorem flatAntennas_eq {source communication antennas : Dict String (Json F)}
    (h : flatAntennas source communication = some antennas) :
    ∃ definitions assignments, antennas = antennasSection definitions assignments ∧
      ∀ item ∈ definitions, item.dict?.isSome = true := by
  simp only [flatAntennas, bind, pure, Option.bind_eq_some_iff] at h
  obtain ⟨listed, -, h⟩ := h
  split at h
  · obtain rfl := Option.some.inj h
    exact ⟨_, defaultAssignments, rfl, by simp⟩
  · obtain rfl := Option.some.inj h
    refine ⟨_, _, rfl, fun item hitem => ?_⟩
    obtain ⟨e, -, rfl⟩ := List.mem_map.mp hitem
    rw [Json.dict?_ofDict]
    rfl

/-! ## What a migration returns -/

/-- A document covers the default experiment of every time. -/
def CoversDefault (config : Dict String (Json F)) : Prop :=
  ∀ now, Covers (defaultExperiment now) config

/-- A flat document migrates to one that covers the default experiment but for its antennas. -/
theorem migrateFlat_spec {now later : F} {source config : Dict String (Json F)}
    (h : migrateFlat now later source = some config) :
    ∃ covered definitions assignments, CoversDefault covered ∧ isVersioned covered = true ∧
      (∀ item ∈ definitions, item.dict?.isSome = true) ∧
      config = covered.set "antennas" (.ofDict (antennasSection definitions assignments)) := by
  simp only [migrateFlat, bind, pure, Option.bind_eq_some_iff, Option.some.injEq] at h
  obtain ⟨header, hheader, counts, hcounts, swarm, hswarm, world, hworld, service, hservice,
    topology, htopology, comm, hcomm, antennas, hantennas, visualization, hvisualization, rfl⟩ := h
  obtain ⟨definitions, assignments, rfl, hdefinitions⟩ := flatAntennas_eq hantennas
  refine ⟨_, definitions, assignments, fun now' => ?_, ?_, hdefinitions, rfl⟩
  · -- a section that covers its default is put in the place of the default
    have hstore (key : String) {config section_ base : Dict String (Json F)}
        (hconfig : Covers (defaultExperiment now') config)
        (hbase : (key, base) ∈ defaultSections) (hsection : Covers base section_) :
        Covers (defaultExperiment now') (config.set key (.ofDict section_)) := by
      refine hconfig.store fun b hb => ?_
      rw [get?_defaultExperiment_section now' hbase, Option.some.injEq] at hb
      exact hb ▸ hsection.ofDict
    have hcompatibility : Covers (defaultCompatibility : Dict String (Json F))
        (defaultCompatibility.set "migrated_from_flat_config" (.bool true)) :=
      (@covers_default F _ "compatibility" defaultCompatibility
        (by simp [defaultSections])).store_plain _ rfl
    have hheader' : Covers (defaultExperiment now') ((defaultExperiment now).set "experiment"
        (.ofDict (header.set "updated_at" (.float later)))) := by
      refine (sameShape_defaultExperiment now' now).covers.store fun b hb => ?_
      rw [get?_defaultExperiment_header, Option.some.injEq] at hb
      exact hb ▸ ((covers_flatHeader hheader now').store_plain _ rfl).ofDict
    -- the sections are stored one after the other
    have hswarm' := hstore "swarm" hheader' (by simp [defaultSections]) (covers_flatSwarm hswarm)
    have hworld' := hstore "world" hswarm' (by simp [defaultSections]) (covers_flatWorld hworld)
    have hservice' :=
      hstore "service_region" hworld' (by simp [defaultSections])
        (covers_flatServiceRegion hservice)
    have hstation' :=
      hstore "station" hservice' (by simp [defaultSections]) (covers_flatStation source)
    have htopology' :=
      hstore "topology" hstation' (by simp [defaultSections]) (covers_flatTopology htopology)
    have hcomm' :=
      hstore "communication" htopology' (by simp [defaultSections]) (covers_flatCommunication hcomm)
    have hvisual' :=
      hstore "visualization" hcomm' (by simp [defaultSections])
        (covers_flatVisualization hvisualization)
    exact hstore "compatibility" hvisual' (by simp [defaultSections]) hcompatibility
  · simp [isVersioned, Dict.getD, Dict.get?_set, get?_defaultExperiment_schema]

omit [PyText F] [PyBuiltins F] in
/-- A versioned document stays one when it is merged over the default experiment. -/
theorem isVersioned_deepMerge {base config : Dict String (Json F)}
    (h : isVersioned config = true) : isVersioned (deepMerge base config) = true := by
  rw [isVersioned, Bool.and_eq_true, Json.isStr_iff] at h ⊢
  obtain ⟨hschema, hheader⟩ := h
  constructor
  · cases hget : config.get? "schema_version" with
    | none => simp [Dict.getD, hget] at hschema
    | some value =>
        rw [Dict.getD, hget, Option.getD_some] at hschema
        rw [Dict.getD, get?_deepMerge_of_some hget, Option.getD_some, hschema,
          Json.onto_of_plain _ rfl]
  · cases hget : config.get? "experiment" with
    | none => simp [hget] at hheader
    | some value =>
        rw [hget, Option.bind_some] at hheader
        rw [get?_deepMerge_of_some hget, Option.bind_some, Json.isSome_dict?_onto, hheader]

omit [PyText F] [PyBuiltins F] in
/-- The document in an envelope is versioned, and no object in it lists a key twice. -/
theorem envelope?_spec {config : Document F} {nested : Dict String (Json F)}
    (h : envelope? config.members = some nested) :
    isVersioned nested = true ∧ (Json.ofDict nested).distinct = true := by
  obtain ⟨key, -, hkey⟩ := List.exists_of_findSome?_eq_some h
  simp only [bind, Option.bind_eq_some_iff] at hkey
  obtain ⟨value, hvalue, nested', hnested, hkey⟩ := hkey
  split at hkey
  · rename_i hversioned
    obtain rfl := Option.some.inj hkey
    have hdistinct :=
      (Json.distinct_obj.mp config.distinct).2 _ _ (Dict.get?_eq_some_iff.mp hvalue)
    exact ⟨hversioned, Json.eq_ofDict_of_dict? hdistinct hnested ▸ hdistinct⟩
  · simp at hkey

/-- What migrating a migrated document again does: nothing, or the default assignments come back
that a flat document left out. -/
inductive Remigration (config : Dict String (Json F)) : Dict String (Json F) → Prop
  | same : Remigration config config
  | assignments {definitions : List (Json F)} {assignments : Dict String (Json F)} :
      config.get? "antennas" = some (.ofDict (antennasSection definitions assignments)) →
      (∀ item ∈ definitions, item.dict?.isSome = true) →
      Remigration config (config.set "antennas"
        (.ofDict (antennasSection definitions (deepMerge defaultAssignments assignments))))

omit [PyText F] in
theorem defaultAntennas_eq : (defaultAntennas : Dict String (Json F)) =
    antennasSection [.ofDict groundSectorReference, .ofDict uavOmniReference]
      defaultAssignments := rfl

omit [PyText F] in
/-- The merge of an `antennas` section over the default one. -/
theorem deepMerge_antennasSection (definitions : List (Json F))
    (assignments : Dict String (Json F)) :
    deepMerge defaultAntennas (antennasSection definitions assignments) =
      antennasSection definitions (deepMerge defaultAssignments assignments) := by
  rw [defaultAntennas_eq]
  refine Dict.ext_get? ?_ fun key hkey => ?_
  · rw [keys_deepMerge, keys_antennasSection, keys_antennasSection, keys_antennasSection]
    decide
  · rw [keys_deepMerge, keys_antennasSection, keys_antennasSection] at hkey
    have hcases : key = "definitions" ∨ key = "assignments" := by simpa using hkey
    rcases hcases with rfl | rfl
    · rw [get?_deepMerge_of_some (get?_antennasSection_definitions _ _),
        get?_antennasSection_definitions, get?_antennasSection_definitions,
        Json.onto_of_plain _ rfl]
    · rw [get?_deepMerge_of_some (get?_antennasSection_assignments _ _),
        get?_antennasSection_assignments, get?_antennasSection_assignments, Json.onto_ofDict]

omit [PyText F] in
/-- An `antennas` section with the default assignments that are not replaced covers the default
section. -/
theorem covers_antennasSection (definitions : List (Json F))
    (assignments : Dict String (Json F)) :
    Covers defaultAntennas
      (antennasSection definitions (deepMerge defaultAssignments assignments)) := by
  have hassignments : Covers defaultAssignments (deepMerge defaultAssignments assignments) :=
    covers_deepMerge_of_members rfl
      (fun _ _ v hb _ => .plain_base v (plain_of_defaultAssignments hb))
      fun _ _ _ _ hb _ _ => .plain_base _ (plain_of_defaultAssignments hb)
  rw [defaultAntennas_eq]
  refine ⟨⟨[], by rw [keys_antennasSection, keys_antennasSection]; rfl⟩, fun key b v hb hv => ?_⟩
  have hcases : key = "definitions" ∨ key = "assignments" := by
    have hkey := Dict.mem_keys_iff.mpr ⟨b, hb⟩
    rw [keys_antennasSection] at hkey
    simpa using hkey
  rcases hcases with rfl | rfl
  · rw [get?_antennasSection_definitions, Option.some.injEq] at hv
    exact hv ▸ .plain _ rfl
  · rw [get?_antennasSection_assignments, Option.some.injEq] at hb hv
    exact hb ▸ hv ▸ hassignments.ofDict

/-- A migrated document is versioned. Migrating it again gives, at any time, a document that covers
the default experiment. -/
theorem migrate_migrated {config : Document F} {now later : F} {v : Dict String (Json F)}
    (h : migrateLegacyConfig now later config.members = some v) :
    ∃ v', (∀ now later, migrateLegacyConfig now later v = some v') ∧ CoversDefault v' ∧
      isVersioned v' = true ∧ Remigration v v' := by
  -- a versioned document is merged into the defaults, and merging it again changes nothing
  have hmerged {nested : Dict String (Json F)} (hversioned : isVersioned nested = true)
      (hdistinct : (Json.ofDict nested).distinct = true)
      (hv : v = deepMerge (defaultExperiment now) nested) :
      ∃ v', (∀ now later, migrateLegacyConfig now later v = some v') ∧ CoversDefault v' ∧
        isVersioned v' = true ∧ Remigration v v' := by
    have hcovers : CoversDefault v := fun now' =>
      hv ▸ (sameShape_defaultExperiment now' now).covers_deepMerge hdistinct
    have hversioned' : isVersioned v = true := hv ▸ isVersioned_deepMerge hversioned
    refine ⟨v, fun now' later' => ?_, hcovers, hversioned', .same⟩
    rw [migrateLegacyConfig, if_pos hversioned', deepMerge_eq_self (hcovers now')]
  rw [migrateLegacyConfig] at h
  split at h
  · rename_i hversioned
    exact hmerged hversioned config.distinct (Option.some.inj h).symm
  · cases henvelope : envelope? config.members with
    | some nested =>
        obtain ⟨hversioned, hdistinct⟩ := envelope?_spec henvelope
        rw [henvelope] at h
        exact hmerged hversioned hdistinct (Option.some.inj h).symm
    -- a flat document: its antennas are merged with the default assignments the second time
    | none =>
        rw [henvelope] at h
        obtain ⟨covered, definitions, assignments, hcovers, hversioned, hdefinitions, rfl⟩ :=
          migrateFlat_spec h
        have hdefault (now' : F) : (defaultExperiment now').get? "antennas" =
            some (.ofDict defaultAntennas) :=
          get?_defaultExperiment_section now' (by simp [defaultSections])
        have hmerge (now' : F) := deepMerge_set (hcovers now') (hdefault now')
          (.ofDict (antennasSection definitions assignments))
        simp only [Json.onto_ofDict, deepMerge_antennasSection] at hmerge
        have hversioned' (value : Json F) :
            isVersioned (covered.set "antennas" value) = true := by
          simpa [isVersioned, Dict.getD, Dict.get?_set] using hversioned
        refine ⟨covered.set "antennas" (.ofDict (antennasSection definitions
          (deepMerge defaultAssignments assignments))), fun now' later' => ?_, fun now' => ?_,
          hversioned' _, ?_⟩
        · rw [migrateLegacyConfig, if_pos (hversioned' _), hmerge now']
        · refine (hcovers now').store fun b hb => ?_
          rw [hdefault, Option.some.injEq] at hb
          exact hb ▸ (covers_antennasSection definitions assignments).ofDict
        · have hget := Dict.get?_set_self covered "antennas"
            (.ofDict (antennasSection definitions assignments))
          simpa using Remigration.assignments hget hdefinitions

end Netlab.Experiment
