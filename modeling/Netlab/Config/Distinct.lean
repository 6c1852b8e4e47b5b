import Netlab.Config.RoundTrip

/-!
# Documents without repeated keys

A Python dictionary lists each key once, at every depth, and so does what the program makes of it.
Merging, storing and reading keep this (`Json.distinct_deepMerge`, `Json.distinct_set`), and so
does the migration (`distinct_migrateLegacyConfig`). What is loaded from a file is therefore a
versioned document without repeated keys (`versioned_loadExperiment`), and saving such a document
stores one that is loaded exactly as it was validated (`Versioned.load_saveExperiment`).
-/

variable {F : Type}

namespace Json

/-! ## Dictionaries of values without repeated keys -/

theorem distinct_ofDict {d : Dict String (Json F)} :
    (ofDict d).distinct = true ↔ ∀ key value, d.get? key = some value → value.distinct = true := by
  rw [ofDict, distinct_obj, and_iff_right d.nodup]
  simp only [Dict.get?_eq_some_iff]

/-- The dictionary of a value without repeated keys. -/
theorem distinct_dict? {value : Json F} {d : Dict String (Json F)} (h : value.distinct = true)
    (hd : value.dict? = some d) : (ofDict d).distinct = true :=
  eq_ofDict_of_dict? h hd ▸ h

theorem distinct_getD {d : Dict String (Json F)} (h : (ofDict d).distinct = true) (key : String)
    (default : Json F) (hdefault : default.distinct = true) :
    (d.getD key default).distinct = true := by
  rw [Dict.getD]
  cases hget : d.get? key with
  | none => exact hdefault
  | some value => exact distinct_ofDict.mp h key value hget

theorem distinct_set {d : Dict String (Json F)} (h : (ofDict d).distinct = true) (key : String)
    {value : Json F} (hvalue : value.distinct = true) :
    (ofDict (d.set key value)).distinct = true := by
  refine distinct_ofDict.mpr fun key' value' hget => ?_
  rw [Dict.get?_set] at hget
  split at hget
  · exact Option.some.inj hget ▸ hvalue
  · exact distinct_ofDict.mp h key' value' hget

theorem distinct_update {d d' : Dict String (Json F)} (h : (ofDict d).distinct = true)
    (h' : (ofDict d').distinct = true) : (ofDict (d.update d')).distinct = true :=
  Dict.update_induction (motive := fun d => (ofDict d).distinct = true) h fun e he _ hd =>
    distinct_set hd e.1 (distinct_ofDict.mp h' e.1 e.2 (Dict.get?_eq_some_iff.mpr he))

/-- The elements of a value without repeated keys. -/
theorem distinct_elements? {value : Json F} {items : List (Json F)} (h : value.distinct = true)
    (hitems : value.elements? = some items) : ∀ item ∈ items, item.distinct = true := by
  cases value with
  | arr items' =>
      obtain rfl := Option.some.inj hitems
      exact distinctItems_iff.mp h
  | str s =>
      obtain rfl := Option.some.inj hitems
      simp [distinct]
  | obj members =>
      obtain rfl := Option.some.inj hitems
      simp [distinct]
  | _ => simp [elements?] at hitems

theorem distinct_toDict? [PyText F] {value : Json F} {d : Dict String (Json F)}
    (h : value.distinct = true) (hd : value.toDict? = some d) : (ofDict d).distinct = true := by
  rw [toDict?] at hd
  cases hvalue : value.dict? with
  | some d' =>
      rw [hvalue] at hd
      exact Option.some.inj hd ▸ distinct_dict? h hvalue
  | none =>
      simp only [hvalue, bind, pure, Option.bind_eq_some_iff, Option.some.injEq] at hd
      obtain ⟨elements, helements, pairs, hpairs, rfl⟩ := hd
      refine distinct_ofList fun pair hpair => ?_
      obtain ⟨element, helement, hpair⟩ := (List.mem_mapM_iff hpairs).mp hpair
      obtain ⟨items, hitems, hpair⟩ := Option.bind_eq_some_iff.mp hpair
      have hdistinct := distinct_elements? (distinct_elements? h helements element helement) hitems
      split at hpair
      · obtain ⟨key, -, hpair⟩ := Option.bind_eq_some_iff.mp hpair
        obtain rfl := Option.some.inj hpair
        exact hdistinct _ (by simp)
      · cases hpair

/-! ## Merging -/

theorem distinct_deepMerge_of_onto {base override : Dict String (Json F)}
    (hbase : (ofDict base).distinct = true)
    (honto : ∀ key value, override.get? key = some value →
      (value.onto (base.get? key)).distinct = true) :
    (ofDict (deepMerge base override)).distinct = true := by
  refine distinct_ofDict.mpr fun key value hget => ?_
  cases hvalue : override.get? key with
  | none =>
      rw [get?_deepMerge_of_none hvalue] at hget
      exact distinct_ofDict.mp hbase key value hget
  | some value' =>
      rw [get?_deepMerge_of_some hvalue, Option.some.injEq] at hget
      exact hget ▸ honto key value' hvalue

theorem distinct_onto {value : Json F} (h : value.distinct = true) {base : Option (Json F)}
    (hbase : ∀ b, base = some b → b.distinct = true) : (value.onto base).distinct = true := by
  induction value using objInduction generalizing base with
  | plain value hplain => rwa [onto_of_plain base hplain]
  | object members ih =>
      obtain ⟨hnodup, hmembers⟩ := distinct_obj.mp h
      cases base with
      | none => rwa [onto_none]
      | some b =>
          cases hb : b.dict? with
          | none => rwa [onto_of_plain_base _ hb]
          | some d =>
              have hd := distinct_dict? (hbase b rfl) hb
              rw [eq_ofDict_of_dict? (hbase b rfl) hb,
                show obj members = ofDict ⟨members, hnodup⟩ from rfl, onto_ofDict]
              refine distinct_deepMerge_of_onto hd fun key value hget => ?_
              have hmem := Dict.get?_eq_some_iff.mp hget
              exact ih key value hmem (hmembers key value hmem) (distinct_ofDict.mp hd key)

/-- A merge of documents without repeated keys. -/
theorem distinct_deepMerge {base override : Dict String (Json F)}
    (hbase : (ofDict base).distinct = true) (h : (ofDict override).distinct = true) :
    (ofDict (deepMerge base override)).distinct = true :=
  distinct_deepMerge_of_onto hbase fun key value hget =>
    distinct_onto (distinct_ofDict.mp h key value hget) (distinct_ofDict.mp hbase key)

end Json

namespace Netlab.Experiment

variable [PyText F] [PyBuiltins F]

/-! ## The sections of a flat document -/

omit [PyText F] in
theorem distinct_defaultHeader (now : F) : (Json.ofDict (defaultHeader now)).distinct = true :=
  Json.distinct_ofList (by simp [Json.distinct, Json.distinctItems])

omit [PyText F] in
/-- The default experiment lists no key twice. -/
theorem distinct_defaultExperiment (now : F) :
    (Json.ofDict (defaultExperiment now)).distinct = true := by
  refine Json.distinct_ofList fun e he => ?_
  rw [defaultMembers] at he
  simp only [List.mem_cons, List.mem_map] at he
  obtain rfl | rfl | ⟨e, he, rfl⟩ := he
  · rfl
  · exact distinct_defaultHeader now
  · exact distinct_defaultSections e he

omit [PyText F] in
/-- A section of the default experiment lists no key twice. -/
theorem distinct_section (key : String) {base : Dict String (Json F)}
    (h : (key, base) ∈ defaultSections) : (Json.ofDict base).distinct = true :=
  distinct_defaultSections (key, base) h

omit [PyText F] [PyBuiltins F] in
theorem distinct_mappingOrEmpty {source : Dict String (Json F)}
    (h : (Json.ofDict source).distinct = true) (key : String) :
    (Json.ofDict (mappingOrEmpty source key)).distinct = true := by
  rw [mappingOrEmpty]
  cases hget : (source.get? key).bind Json.dict? with
  | none => rfl
  | some d =>
      obtain ⟨value, hvalue, hd⟩ := Option.bind_eq_some_iff.mp hget
      exact Json.distinct_dict? (Json.distinct_ofDict.mp h key value hvalue) hd

theorem distinct_floatOf {value x : Json F} (h : floatOf value = some x) : x.distinct = true := by
  obtain ⟨y, -, rfl⟩ := Option.map_eq_some_iff.mp h
  rfl

theorem distinct_flatHeader {now : F} {source header : Dict String (Json F)}
    (h : flatHeader now source = some header) : (Json.ofDict header).distinct = true := by
  simp only [flatHeader, bind, pure, Option.bind_eq_some_iff, Option.some.injEq] at h
  obtain ⟨seed, -, duration, hduration, rfl⟩ := h
  have hheader := distinct_defaultHeader now
  refine Json.distinct_set (Json.distinct_set (Json.distinct_set (Json.distinct_set hheader _ ?_) _
    rfl) _ rfl) _ (distinct_floatOf hduration)
  split
  · exact Json.distinct_getD hheader _ _ rfl
  · rfl

theorem distinct_flatDrone {counts : FlatCounts} {listed : List (Json F)}
    (h : ∀ item ∈ listed, item.distinct = true) (index : ℕ) :
    (flatDrone counts listed index).distinct = true := by
  have hdrone : (Json.ofDict (drone index counts.relay : Dict String (Json F))).distinct = true :=
    Json.distinct_ofList (by simp [vec, Json.distinct, Json.distinctItems])
  refine Json.distinct_set (Json.distinct_set (Json.distinct_update hdrone ?_) _ rfl) _ rfl
  cases hitem : listed[index - 1]?.bind Json.dict? with
  | none => rfl
  | some d =>
      obtain ⟨item, hget, hd⟩ := Option.bind_eq_some_iff.mp hitem
      exact Json.distinct_dict? (h item (List.mem_of_getElem? hget)) hd

theorem distinct_flatSwarm {source swarm : Dict String (Json F)} {counts : FlatCounts}
    (hsource : (Json.ofDict source).distinct = true) (h : flatSwarm source counts = some swarm) :
    (Json.ofDict swarm).distinct = true := by
  simp only [flatSwarm, bind, pure, Option.bind_eq_some_iff, Option.some.injEq] at h
  obtain ⟨visual, -, scale, hscale, rfl⟩ := h
  refine Json.distinct_set (Json.distinct_update
    (distinct_section "swarm" (by simp [defaultSections])) (Json.distinct_ofList ?_)) _ ?_
  · simp [Json.distinct, distinct_floatOf hscale]
  · rw [Json.distinct, Json.distinctItems_iff]
    split
    · rename_i hlisted
      have hitems := Json.distinct_getD hsource "drones" (.arr []) rfl
      rw [hlisted, Json.distinct, Json.distinctItems_iff] at hitems
      intro item hitem
      obtain ⟨i, -, rfl⟩ := List.mem_map.mp hitem
      exact distinct_flatDrone hitems _
    · intro item hitem
      obtain ⟨i, -, rfl⟩ := List.mem_map.mp hitem
      exact Json.distinct_ofList (by simp [vec, Json.distinct, Json.distinctItems])

theorem distinct_flatWorld {source world : Dict String (Json F)}
    (hsource : (Json.ofDict source).distinct = true) (h : flatWorld source = some world) :
    (Json.ofDict world).distinct = true := by
  simp only [flatWorld, bind, pure, Option.bind_eq_some_iff, Option.some.injEq] at h
  obtain ⟨speed, hspeed, direction, hdirection, turbulence, hturbulence, rain, hrain, rfl⟩ := h
  have henvironment : (Json.ofDict (defaultEnvironment : Dict String (Json F))).distinct = true :=
    Json.distinct_ofList (by simp [Json.distinct])
  have hworld : (Json.ofDict ((defaultWorld : Dict String (Json F)).set "environment"
      (.ofDict (defaultEnvironment.update (.ofList [
        ("wind_speed_mps", speed), ("wind_direction_deg", direction),
        ("turbulence_intensity", turbulence), ("rain_rate_mm_h", rain)]))))).distinct = true :=
    Json.distinct_set (distinct_section "world" (by simp [defaultSections])) _
      (Json.distinct_update henvironment (Json.distinct_ofList (by
        simp [distinct_floatOf hspeed, distinct_floatOf hdirection, distinct_floatOf hturbulence,
          distinct_floatOf hrain])))
  split
  · rename_i hassets
    refine Json.distinct_set hworld _ ?_
    rw [← hassets]
    exact Json.distinct_getD hsource _ _ rfl
  · exact hworld

theorem distinct_flatServiceRegion {source service : Dict String (Json F)}
    (h : flatServiceRegion source = some service) : (Json.ofDict service).distinct = true := by
  simp only [flatServiceRegion, bind, pure, Option.bind_eq_some_iff, Option.some.injEq] at h
  obtain ⟨length, hlength, width, hwidth, low, hlow, high, hhigh, rfl⟩ := h
  refine Json.distinct_update (distinct_section "service_region" (by simp [defaultSections]))
    (Json.distinct_ofList ?_)
  simp [distinct_floatOf hlength, distinct_floatOf hwidth, distinct_floatOf hlow,
    distinct_floatOf hhigh]

omit [PyText F] in
theorem distinct_flatStation {source : Dict String (Json F)}
    (hsource : (Json.ofDict source).distinct = true) :
    (Json.ofDict (flatStation source)).distinct = true :=
  Json.distinct_update (distinct_section "station" (by simp [defaultSections]))
    (distinct_mappingOrEmpty hsource _)

theorem distinct_flatBranches {source section_ : Dict String (Json F)} {mode : String}
    {counts : FlatCounts} {branches : List (Json F)}
    (hsource : (Json.ofDict source).distinct = true)
    (hsection : (Json.ofDict section_).distinct = true)
    (h : flatBranches source section_ mode counts = some branches) :
    ∀ branch ∈ branches, branch.distinct = true := by
  have hrelays : ∀ relay ∈ (List.range counts.relay).map fun i => (.int (i + 1) : Json F),
      relay.distinct = true := by
    intro relay hrelay
    obtain ⟨i, -, rfl⟩ := List.mem_map.mp hrelay
    rfl
  rw [flatBranches] at h
  split at h
  · rename_i hlisted
    obtain rfl := Option.some.inj h
    have hitems := Json.distinct_getD hsection "manual_branches" _
      (Json.distinct_getD hsource "manual_branches" (.arr []) rfl)
    rwa [hlisted, Json.distinct, Json.distinctItems_iff] at hitems
  · split at h
    · obtain rfl := Option.some.inj h
      rwa [List.forall_mem_singleton, Json.distinct, Json.distinctItems_iff]
    · obtain ⟨count, -, h⟩ := Option.bind_eq_some_iff.mp h
      obtain rfl := Option.some.inj h
      intro branch hbranch
      obtain ⟨row, hrow, rfl⟩ := List.mem_map.mp hbranch
      -- a dealt branch starts empty and holds relays of the range
      obtain ⟨start, hstart, share, rfl, hshare⟩ := List.exists_of_mem_deal hrow
      obtain rfl := (List.mem_replicate.mp hstart).2
      rw [Json.distinct, Json.distinctItems_iff]
      exact fun item hitem => hrelays item (hshare item hitem)

theorem distinct_flatTopology {source topology : Dict String (Json F)} {counts : FlatCounts}
    (hsource : (Json.ofDict source).distinct = true)
    (h : flatTopology source counts = some topology) :
    (Json.ofDict topology).distinct = true := by
  simp only [flatTopology, bind, pure, Option.bind_eq_some_iff, Option.some.injEq] at h
  obtain ⟨mode, -, branches, hbranches, rfl⟩ := h
  refine Json.distinct_update (distinct_section "topology" (by simp [defaultSections]))
    (Json.distinct_ofList ?_)
  have hlist : Json.distinctItems branches = true := Json.distinctItems_iff.mpr
    (distinct_flatBranches hsource (distinct_mappingOrEmpty hsource _) hbranches)
  simp [Json.distinct, hlist]

theorem distinct_flatCommunication {source comm : Dict String (Json F)}
    (h : flatCommunication source = some comm) : (Json.ofDict comm).distinct = true := by
  simp only [flatCommunication, bind, pure, Option.bind_eq_some_iff] at h
  obtain ⟨carrier, hcarrier, bandwidth, hbandwidth, power, hpower, range, hrange, outage, houtage,
    snr, hsnr, capacity, hcapacity, h⟩ := h
  have hcomm : (Json.ofDict ((defaultCommunication : Dict String (Json F)).update
      (.ofList [("carrier_frequency_hz", carrier), ("bandwidth_hz", bandwidth),
        ("tx_power_dbm", power), ("operational_range_m", range),
        ("hard_outage_distance_m", outage), ("min_snr_db", snr),
        ("min_capacity_mbps", capacity)]))).distinct = true :=
    Json.distinct_update (distinct_section "communication" (by simp [defaultSections]))
      (Json.distinct_ofList (by
        simp [distinct_floatOf hcarrier, distinct_floatOf hbandwidth, distinct_floatOf hpower,
          distinct_floatOf hrange, distinct_floatOf houtage, distinct_floatOf hsnr,
          distinct_floatOf hcapacity]))
  split at h
  · obtain rfl := Option.some.inj h
    exact hcomm
  · obtain ⟨floor, hfloor, h⟩ := Option.bind_eq_some_iff.mp h
    obtain rfl := Option.some.inj h
    exact Json.distinct_set hcomm _ (distinct_floatOf hfloor)

theorem distinct_flatAntenna {communication item : Dict String (Json F)} {position : ℕ}
    {e : Dict String (Json F) × String × String} (hitem : (Json.ofDict item).distinct = true)
    (h : flatAntenna communication position item = some e) :
    (Json.ofDict e.1).distinct = true := by
  simp only [flatAntenna, bind, pure, Option.bind_eq_some_iff, Option.some.injEq] at h
  obtain ⟨frequency, hfrequency, bandwidth, hbandwidth, gain, hgain, azimuth, hazimuth, elevation,
    helevation, offset, hoffset, rotation, hrotation, rfl⟩ := h
  have hvec : (vec 0.0 0.0 0.0 : Json F).distinct = true := rfl
  have hoffset' : Json.distinctItems offset = true := Json.distinctItems_iff.mpr
    (Json.distinct_elements? (Json.distinct_getD hitem _ _ hvec) hoffset)
  have hrotation' : Json.distinctItems rotation = true := Json.distinctItems_iff.mpr
    (Json.distinct_elements? (Json.distinct_getD hitem _ _ hvec) hrotation)
  dsimp only
  refine Json.distinct_ofList ?_
  simp [Json.distinct, distinct_floatOf hfrequency, distinct_floatOf hbandwidth,
    distinct_floatOf hgain, distinct_floatOf hazimuth, distinct_floatOf helevation, hoffset',
    hrotation']

theorem distinct_flatAntennas {source communication antennas : Dict String (Json F)}
    (hsource : (Json.ofDict source).distinct = true)
    (h : flatAntennas source communication = some antennas) :
    (Json.ofDict antennas).distinct = true := by
  simp only [flatAntennas, bind, pure, Option.bind_eq_some_iff] at h
  obtain ⟨listed, hlisted, h⟩ := h
  split at h
  · obtain rfl := Option.some.inj h
    -- without antennas of its own the document gets the default section
    exact distinct_section "antennas" (by simp [defaultSections])
  · obtain rfl := Option.some.inj h
    -- each antenna is made of a member of the list
    have hlist : ∀ e ∈ listed, (Json.ofDict e.1).distinct = true := by
      rw [flatAntennaList] at hlisted
      split at hlisted
      · rename_i hitems
        have hdistinct := Json.distinct_getD hsource "antennas" (.arr []) rfl
        rw [hitems, Json.distinct, Json.distinctItems_iff] at hdistinct
        intro e he
        obtain ⟨indexed, hindexed, heq⟩ := (List.mem_mapM_iff hlisted).mp he
        obtain ⟨⟨item, i⟩, hmem, hitem⟩ := List.mem_filterMap.mp hindexed
        obtain ⟨d, hd, rfl⟩ := Option.map_eq_some_iff.mp hitem
        have hmem' : item ∈ _ := (List.mem_zipIdx hmem).2.2 ▸ List.getElem_mem _
        exact distinct_flatAntenna (Json.distinct_dict? (hdistinct item hmem') hd) heq
      · obtain rfl := Option.some.inj hlisted
        simp
    refine Json.distinct_ofList ?_
    simp only [List.forall_mem_cons]
    refine ⟨?_, Json.distinct_ofList ?_, by simp⟩
    · rw [Json.distinct, Json.distinctItems_iff]
      intro item hitem
      obtain ⟨e, he, rfl⟩ := List.mem_map.mp hitem
      exact hlist e he
    · intro pair hpair
      obtain ⟨e, -, rfl⟩ := List.mem_map.mp hpair
      rfl

theorem distinct_flatVisualization {source visualization : Dict String (Json F)}
    (h : flatVisualization source = some visualization) :
    (Json.ofDict visualization).distinct = true := by
  simp only [flatVisualization, bind, pure, Option.bind_eq_some_iff, Option.some.injEq] at h
  obtain ⟨scale, hscale, opacity, hopacity, rfl⟩ := h
  refine Json.distinct_update (distinct_section "visualization" (by simp [defaultSections]))
    (Json.distinct_ofList ?_)
  simp [Json.distinct, distinct_floatOf hscale, distinct_floatOf hopacity]

/-! ## Migrated documents -/

theorem distinct_migrateFlat {now later : F} {source config : Dict String (Json F)}
    (hsource : (Json.ofDict source).distinct = true)
    (h : migrateFlat now later source = some config) :
    (Json.ofDict config).distinct = true := by
  simp only [migrateFlat, bind, pure, Option.bind_eq_some_iff, Option.some.injEq] at h
  obtain ⟨header, hheader, counts, hcounts, swarm, hswarm, world, hworld, service, hservice,
    topology, htopology, comm, hcomm, antennas, hantennas, visualization, hvisualization, rfl⟩ := h
  refine Json.distinct_set ?_ _ (distinct_flatAntennas hsource hantennas)
  refine Json.distinct_set ?_ _
    (Json.distinct_set (distinct_section "compatibility" (by simp [defaultSections])) _ rfl)
  refine Json.distinct_set ?_ _ (distinct_flatVisualization hvisualization)
  refine Json.distinct_set ?_ _ (distinct_flatCommunication hcomm)
  refine Json.distinct_set ?_ _ (distinct_flatTopology hsource htopology)
  refine Json.distinct_set ?_ _ (distinct_flatStation hsource)
  refine Json.distinct_set ?_ _ (distinct_flatServiceRegion hservice)
  refine Json.distinct_set ?_ _ (distinct_flatWorld hsource hworld)
  refine Json.distinct_set ?_ _ (distinct_flatSwarm hsource hswarm)
  exact Json.distinct_set (distinct_defaultExperiment now) _
    (Json.distinct_set (distinct_flatHeader hheader) _ rfl)

/-- The migration of a document lists no key twice. -/
theorem distinct_migrateLegacyConfig {config : Document F} {now later : F}
    {v : Dict String (Json F)} (h : migrateLegacyConfig now later config.members = some v) :
    (Json.ofDict v).distinct = true := by
  rw [migrateLegacyConfig] at h
  split at h
  · obtain rfl := Option.some.inj h
    exact Json.distinct_deepMerge (distinct_defaultExperiment now) config.distinct
  · cases henvelope : envelope? config.members with
    | some nested =>
        rw [henvelope] at h
        obtain rfl := Option.some.inj h
        exact Json.distinct_deepMerge (distinct_defaultExperiment now) (envelope?_spec henvelope).2
    | none =>
        rw [henvelope] at h
        exact distinct_migrateFlat config.distinct h

/-! ## Loading and saving -/

/-- A versioned document without repeated keys. -/
structure Versioned (config : Dict String (Json F)) : Prop where
  /-- It has the current schema and an `experiment` section. -/
  versioned : isVersioned config = true
  /-- No object in it lists a key twice. -/
  distinct : (Json.ofDict config).distinct = true

omit [PyText F] [PyBuiltins F] in
/-- Storing a section keeps a versioned document. -/
theorem Versioned.set {config : Dict String (Json F)} (h : Versioned config) (key : String)
    {value : Json F} (hschema : key ≠ "schema_version") (hexperiment : key ≠ "experiment")
    (hvalue : value.distinct = true) : Versioned (config.set key value) := by
  refine ⟨?_, Json.distinct_set h.distinct key hvalue⟩
  rw [isVersioned, Dict.getD, Dict.get?_set_of_ne _ _ hschema.symm,
    Dict.get?_set_of_ne _ _ hexperiment.symm]
  exact h.versioned

/-- What a document migrates to is versioned. -/
theorem versioned_migrateLegacyConfig (config : Document F) {now later : F}
    {v : Dict String (Json F)} (h : migrateLegacyConfig now later config.members = some v) :
    Versioned v := by
  refine ⟨?_, distinct_migrateLegacyConfig h⟩
  obtain ⟨v', -, -, hversioned, hremigration⟩ := migrate_migrated h
  cases hremigration with
  | same => exact hversioned
  | assignments =>
      rw [isVersioned, Dict.getD, Dict.get?_set_of_ne _ _ (by decide),
        Dict.get?_set_of_ne _ _ (by decide)] at hversioned
      exact hversioned

/-- What is loaded is versioned, whatever the file holds. -/
theorem versioned_loadExperiment {file : Option (Json F)} {now later : F}
    {config : Dict String (Json F)}
    (hfile : ∀ value, file = some value → value.distinct = true)
    (h : loadExperiment now later file = some config) : Versioned config := by
  cases file with
  | none =>
      obtain rfl := Option.some.inj h
      refine ⟨?_, distinct_defaultExperiment now⟩
      simp [isVersioned, Dict.getD, get?_defaultExperiment_schema, get?_defaultExperiment_header]
  | some value =>
      simp only [loadExperiment, validateExperiment, bind, pure, Option.bind_eq_some_iff,
        Option.map_eq_some_iff, Option.some.injEq] at h
      obtain ⟨d, hd, report, ⟨config', hmigrate, errors, -, rfl⟩, rfl⟩ := h
      exact versioned_migrateLegacyConfig ⟨d, Json.distinct_dict? (hfile value rfl) hd⟩ hmigrate

/-- A versioned document is validated to its merge over the default experiment. -/
theorem Versioned.validateStrict_eq {value v : Dict String (Json F)} (h : Versioned value)
    {now later : F} (hv : validateStrict now later value = some v) :
    v = deepMerge (defaultExperiment now) value ∧ CoversDefault v ∧ Versioned v := by
  obtain ⟨hmigrate, -⟩ := validateStrict_eq_some_iff.mp hv
  have hversioned := versioned_migrateLegacyConfig ⟨value, h.distinct⟩ hmigrate
  rw [migrateLegacyConfig, if_pos h.versioned] at hmigrate
  obtain rfl := Option.some.inj hmigrate
  exact ⟨rfl, fun now' => (sameShape_defaultExperiment now' now).covers_deepMerge h.distinct,
    hversioned⟩

/-- The file that is saved for what a versioned document was validated to loads as this, at any
time. -/
theorem Versioned.load_saveExperiment {value v file : Dict String (Json F)} (h : Versioned value)
    {t₁ t₂ t₃ t₄ t₅ t₆ : F} (hv : validateStrict t₁ t₂ value = some v)
    (hfile : saveExperiment t₃ t₄ t₅ t₆ v true = some file) (now later : F) :
    loadExperiment now later (some (.ofDict file)) = some v := by
  obtain ⟨-, hcovers, hversioned⟩ := h.validateStrict_eq hv
  obtain ⟨-, hvalid⟩ := validateStrict_eq_some_iff.mp hv
  -- the document covers the defaults, so no migration changes it again
  have hmigrate (t t' : F) : migrateLegacyConfig t t' v = some v := by
    rw [migrateLegacyConfig, if_pos hversioned.versioned, deepMerge_eq_self (hcovers t)]
  rw [saveExperiment, validateStrict_eq_some_iff.mpr ⟨hmigrate t₃ t₄, hvalid⟩] at hfile
  have hemit : emitDocument v = some file := by
    simpa [emitLegacyConfig, hmigrate] using hfile
  have hload := migrate_legacy hcovers hversioned.versioned hemit now later
  simp [loadExperiment, validateExperiment, hload, hvalid]

end Netlab.Experiment
