import Netlab.Config.Report

/-!
# Antenna references after the migration

A versioned document that brings its own antennas is merged key by key over the default experiment.
The definitions are a list and replace the default ones; the assignments are an object, so the
default assignments of the entities that the document leaves out come back. They refer to the
default antennas, which are known only if the document defines them as well
(`unknownAntenna_migrate_iff`).
-/

namespace Netlab.Experiment

variable {F : Type} [PyText F] [PyBuiltins F]

/-- Every assignment refers to one of the definitions. -/
def NoDangling (config : Dict String (Json F)) : Prop :=
  ∀ assignments, (member config "antennas" "assignments" (.obj [])).dict? = some assignments →
    ∀ e ∈ assignments.entries, e.2.toText ∈ antennaIds config

/-- A versioned document with antenna definitions and assignments of its own. -/
structure OwnAntennas (config : Dict String (Json F)) (own : Dict String (Json F)) : Prop where
  versioned : isVersioned config = true
  /-- The document defines antennas. -/
  defines : ∃ antennas, (config.get? "antennas").bind Json.dict? = some antennas ∧
    "definitions" ∈ antennas.keys ∧ (antennas.get? "assignments").bind Json.dict? = some own
  /-- Its assignments refer to its definitions. -/
  refers : ∀ e ∈ own.entries, e.2.toText ∈ antennaIds config

/-- Every entity of the default experiment that the document leaves out would refer to an antenna
that the document defines. -/
def DefaultsKnown (config own : Dict String (Json F)) : Prop :=
  ∀ e ∈ (defaultAssignments : Dict String (Json F)).entries, e.1 ∉ own.keys →
    e.2.toText ∈ antennaIds config

instance (config own : Dict String (Json F)) : Decidable (DefaultsKnown config own) := by
  unfold DefaultsKnown
  infer_instance

/-! ## Codes of issues -/

/-- No issue has the code. -/
def Free (code : String) (issues : List ConfigIssue) : Prop :=
  ∀ issue ∈ issues, issue.code ≠ code

instance (code : String) (issues : List ConfigIssue) : Decidable (Free code issues) := by
  unfold Free
  infer_instance

@[simp] theorem free_nil (code : String) : Free code [] := by
  simp [Free]

@[simp] theorem free_cons {code : String} {issue : ConfigIssue} {issues : List ConfigIssue} :
    Free code (issue :: issues) ↔ issue.code ≠ code ∧ Free code issues := by
  simp [Free]

@[simp] theorem free_append {code : String} {issues issues' : List ConfigIssue} :
    Free code (issues ++ issues') ↔ Free code issues ∧ Free code issues' := by
  simp only [Free, List.mem_append, or_imp, forall_and]

theorem free_flatten {code : String} {lists : List (List ConfigIssue)} :
    Free code lists.flatten ↔ ∀ issues ∈ lists, Free code issues := by
  simp only [Free, List.mem_flatten]
  exact ⟨fun h issues hmem issue hissue => h issue ⟨issues, hmem, hissue⟩,
    fun h issue ⟨issues, hmem, hissue⟩ => h issues hmem issue hissue⟩

theorem free_flatMap {α : Type*} {code : String} {xs : List α} {f : α → List ConfigIssue} :
    Free code (xs.flatMap f) ↔ ∀ x ∈ xs, Free code (f x) := by
  rw [List.flatMap_def, free_flatten]
  simp

@[simp] theorem free_issueIf {code path code' message : String} {failed : Prop}
    [Decidable failed] :
    Free code (issueIf failed path code' message) ↔ (failed → code' ≠ code) := by
  rw [issueIf]
  split <;> simp [*]

/-- A range check has two codes of its own. -/
theorem free_rangeIssues {code path loText hiText : String} (value : Json F) (lo hi : F)
    (hnumeric : code ≠ "NON_NUMERIC") (hrange : code ≠ "OUT_OF_RANGE") :
    Free code (rangeIssues path value lo hi loText hiText) := by
  rw [rangeIssues]
  split
  · simpa using hnumeric.symm
  · simpa using fun _ => hrange.symm

theorem free_vecIssues {code path : String} (value : Json F) (hlength : code ≠ "VECTOR_LENGTH")
    (hfinite : code ≠ "NON_FINITE") : Free code (vecIssues path value) := by
  unfold vecIssues
  split
  · rw [free_flatten]
    simp [hfinite.symm]
  · simpa using hlength.symm

/-! ## Where an unknown antenna is reported -/

private theorem free_recordIssues (i : ℕ) (ids : List String) (records : List (Json F)) :
    Free "UNKNOWN_ANTENNA" (recordIssues positionIssues i ids records) := by
  induction records generalizing i ids with
  | nil => exact free_nil _
  | cons item rest ih =>
      rw [recordIssues]
      cases item.dict? with
      | none => simp [ih]
      | some record =>
          simp only [free_append]
          refine ⟨⟨?_, free_vecIssues _ (by decide) (by decide)⟩, ih _ _⟩
          split <;> simp

private theorem free_swarmIssues (swarm : Dict String (Json F)) :
    Free "UNKNOWN_ANTENNA" (swarmIssues swarm) := by
  simp only [swarmIssues, countIssues, free_append, free_issueIf]
  simp [free_rangeIssues, free_recordIssues]

private theorem free_relayIssues (path : String) (relayCount : ℤ) (seen : List ℤ)
    (entries : List (Json F)) :
    Free "UNKNOWN_ANTENNA" (relayIssues path relayCount seen entries) := by
  induction entries generalizing seen with
  | nil => exact free_nil _
  | cons raw rest ih =>
      rw [relayIssues]
      cases raw.toInt? <;> simp [ih]

private theorem free_topologyIssues (config : ExperimentConfig F) :
    Free "UNKNOWN_ANTENNA" (topologyIssues config) := by
  have hedge (known : List String) (i : ℕ) (edge : Json F) :
      Free "UNKNOWN_ANTENNA" (edgeIssues known i edge) := by
    unfold edgeIssues
    dsimp only
    split <;> simp
  have hbranch (relayCount : ℤ) (i : ℕ) (branch : Json F) :
      Free "UNKNOWN_ANTENNA" (branchIssues relayCount i branch) := by
    unfold branchIssues
    dsimp only
    split
    · exact free_relayIssues _ _ _ _
    · simp
  unfold topologyIssues
  dsimp only
  rw [free_append]
  refine ⟨by simp, ?_⟩
  split
  · split
    · -- manual edges
      rw [free_flatten]
      simp only [List.mem_mapIdx]
      rintro _ ⟨i, hi, rfl⟩
      exact hedge _ _ _
    · simp
  · split
    · -- branches
      rw [free_flatten]
      simp only [List.mem_mapIdx]
      rintro _ ⟨i, hi, rfl⟩
      exact hbranch _ _ _
    · simp

private theorem free_definitionIssues (i : ℕ) (ids : List String) (items : List (Json F)) :
    Free "UNKNOWN_ANTENNA" (definitionIssues i ids items) := by
  induction items generalizing i ids with
  | nil => exact free_nil _
  | cons item rest ih =>
      rw [definitionIssues]
      cases item.dict? <;> simp [ih, free_rangeIssues]

private theorem free_flowIssues (i : ℕ) (ids : List String) (items : List (Json F)) :
    Free "UNKNOWN_ANTENNA" (flowIssues i ids items) := by
  induction items generalizing i ids with
  | nil => exact free_nil _
  | cons item rest ih =>
      rw [flowIssues]
      cases item.dict? <;> simp [ih, free_rangeIssues]

omit [PyBuiltins F] in
/-- An antenna that is referred to is known, when the assignments are an object. -/
theorem free_assignmentIssues {config assignments : Dict String (Json F)}
    (h : (member config "antennas" "assignments" (.obj [])).dict? = some assignments) :
    Free "UNKNOWN_ANTENNA" (assignmentIssues config) ↔ NoDangling config := by
  simp only [assignmentIssues, NoDangling, h, free_flatMap, free_issueIf, Option.some.injEq,
    forall_eq', ne_eq, not_true_eq_false, imp_false, not_not]

/-- The report has no unknown antenna exactly when no assignment dangles. -/
theorem free_documentErrors {config assignments : Dict String (Json F)}
    {errors : List ConfigIssue} (h : documentErrors config = some errors)
    (hassignments :
      (member config "antennas" "assignments" (.obj [])).dict? = some assignments) :
    Free "UNKNOWN_ANTENNA" errors ↔ NoDangling config := by
  simp only [documentErrors, bind, pure, Option.bind_eq_some_iff, Option.some.injEq] at h
  obtain ⟨experiment, _, world, _, swarm, _, topology, _, comm, _, rfl⟩ := h
  have hantennas : Free "UNKNOWN_ANTENNA" (antennaIssues config) ↔ NoDangling config := by
    rw [antennaIssues, free_append, free_append, free_assignmentIssues hassignments]
    refine ⟨fun h => h.2, fun h => ⟨⟨?_, free_definitionIssues _ _ _⟩, h⟩⟩
    split <;> simp
  have htraffic : Free "UNKNOWN_ANTENNA" (trafficIssues config) := by
    unfold trafficIssues
    split
    · exact free_flowIssues _ _ _
    · simp
  simp [hantennas, htraffic, schemaIssues, headerIssues, worldIssues, communicationIssues,
    free_swarmIssues, free_topologyIssues, free_rangeIssues, free_vecIssues]

/-! ## The merged section -/

omit [PyText F] in
/-- A section that is an object is merged over that of the default experiment. -/
theorem get?_merged_section {config value base : Dict String (Json F)} {key : String} (now : F)
    (hbase : (key, base) ∈ (defaultSections : List (String × Dict String (Json F))))
    (h : config.get? key = some (.ofDict value)) :
    (deepMerge (defaultExperiment now) config).get? key = some (.ofDict (deepMerge base value)) := by
  rw [get?_deepMerge_of_some h, get?_defaultExperiment_section now hbase, Json.onto_ofDict]

omit [PyText F] in
theorem get?_defaultAntennas_definitions :
    (defaultAntennas : Dict String (Json F)).get? "definitions" =
      some (.arr [.ofDict groundSectorReference, .ofDict uavOmniReference]) := rfl

omit [PyText F] in
theorem get?_defaultAntennas_assignments :
    (defaultAntennas : Dict String (Json F)).get? "assignments" =
      some (.ofDict defaultAssignments) := rfl

omit [PyText F] [PyBuiltins F] in
/-- What a default entity is assigned is a name. -/
theorem plain_of_defaultAssignments {key : String} {value : Json F}
    (h : (defaultAssignments : Dict String (Json F)).get? key = some value) :
    value.dict? = none := by
  refine Json.plain_of_ofList (List.forall_mem_cons.mpr ⟨rfl, fun e he => ?_⟩) h
  obtain ⟨name, -, rfl⟩ := List.mem_map.mp he
  rfl

omit [PyText F] [PyBuiltins F] in
/-- The merged assignments: those of the document, and the default ones of the entities that it
leaves out. -/
theorem mem_mergedAssignments {own : Dict String (Json F)} {e : String × Json F} :
    e ∈ (deepMerge defaultAssignments own).entries ↔
      e ∈ own.entries ∨
        (e ∈ (defaultAssignments : Dict String (Json F)).entries ∧ e.1 ∉ own.keys) := by
  obtain ⟨key, value⟩ := e
  rw [← Dict.get?_eq_some_iff, ← Dict.get?_eq_some_iff, ← Dict.get?_eq_some_iff, get?_deepMerge,
    ← Dict.get?_eq_none_iff]
  cases hown : own.get? key with
  | none => simp
  | some v =>
      have honto : v.onto ((defaultAssignments : Dict String (Json F)).get? key) = v := by
        cases hdefault : (defaultAssignments : Dict String (Json F)).get? key with
        | none => exact v.onto_none
        | some b => exact v.onto_of_plain_base (plain_of_defaultAssignments hdefault)
      simp [honto]

/-- The antennas of a document that brings its own, as the merge leaves them. -/
theorem merged_antennas {config : Document F} {own : Dict String (Json F)}
    (h : OwnAntennas config.members own) (now : F) :
    antennaIds (deepMerge (defaultExperiment now) config.members) = antennaIds config.members ∧
      member (deepMerge (defaultExperiment now) config.members) "antennas" "assignments" (.obj []) =
        .ofDict (deepMerge defaultAssignments own) := by
  obtain ⟨antennas, hantennas, hdefinitions, hown⟩ := h.defines
  obtain ⟨value, hvalue, hdict⟩ := Option.bind_eq_some_iff.mp hantennas
  obtain ⟨assignments, hassignments, hdict'⟩ := Option.bind_eq_some_iff.mp hown
  have hdistinct := (Json.distinct_obj.mp config.distinct).2 _ _ (Dict.get?_eq_some_iff.mp hvalue)
  -- with distinct keys an object is the mapping that is read from it
  obtain rfl := Json.eq_ofDict_of_dict? hdistinct hdict
  have hdistinct' := (Json.distinct_obj.mp hdistinct).2 _ _ (Dict.get?_eq_some_iff.mp hassignments)
  obtain rfl := Json.eq_ofDict_of_dict? hdistinct' hdict'
  have hsection : ("antennas", (defaultAntennas : Dict String (Json F))) ∈ defaultSections := by
    simp [defaultSections]
  have hmerged := get?_merged_section now hsection hvalue
  obtain ⟨definitions, hget⟩ := Dict.mem_keys_iff.mp hdefinitions
  -- definitions are a list, and a list replaces that of the default
  have hdefs : (deepMerge defaultAntennas antennas).get? "definitions" = some definitions := by
    rw [get?_deepMerge_of_some hget, get?_defaultAntennas_definitions,
      Json.onto_of_plain_base _ rfl]
  -- assignments are a mapping, and are merged key by key
  have hassigns : (deepMerge defaultAntennas antennas).get? "assignments" =
      some (.ofDict (deepMerge defaultAssignments own)) := by
    rw [get?_deepMerge_of_some hassignments, get?_defaultAntennas_assignments, Json.onto_ofDict]
  constructor
  · simp [antennaIds, antennaDefinitions, member, hmerged, hvalue, Dict.getD, hdefs, hget]
  · simp [member, hmerged, Dict.getD, hassigns]

/-- The migrated document has no dangling assignment exactly when the default antennas of the
entities that the document leaves out are among its definitions. -/
theorem noDangling_migrate_iff {config : Document F} {own : Dict String (Json F)}
    (h : OwnAntennas config.members own) (now : F) :
    NoDangling (deepMerge (defaultExperiment now) config.members) ↔
      DefaultsKnown config.members own := by
  obtain ⟨hids, hassignments⟩ := merged_antennas h now
  simp only [NoDangling, hids, hassignments, Json.dict?_ofDict, Option.some.injEq, forall_eq',
    mem_mergedAssignments]
  constructor
  · exact fun hall e he hnew => hall e (Or.inr ⟨he, hnew⟩)
  · rintro hall e (he | ⟨he, hnew⟩)
    · exact h.refers e he
    · exact hall e he hnew

/-! ## Main result -/

/-- A versioned document that brings its own antennas, all of them defined, migrates to a document
without dangling assignments, and none is reported, exactly when the default antennas of the
entities that it leaves out are among its definitions. -/
theorem unknownAntenna_migrate_iff (config : Document F) (own : Dict String (Json F))
    (h : OwnAntennas config.members own) (now later : F) :
    ∃ merged, migrateLegacyConfig now later config.members = some merged ∧
      (NoDangling merged ↔ DefaultsKnown config.members own) ∧
      ∀ report, validateExperiment now later config.members = some report →
        (Free "UNKNOWN_ANTENNA" report.errors ↔ DefaultsKnown config.members own) := by
  have hmigrate : migrateLegacyConfig now later config.members =
      some (deepMerge (defaultExperiment now) config.members) := by
    rw [migrateLegacyConfig, if_pos h.versioned]
  refine ⟨_, hmigrate, noDangling_migrate_iff h now, fun report hreport => ?_⟩
  simp only [validateExperiment, bind, pure, hmigrate, Option.bind_some, Option.bind_eq_some_iff,
    Option.some.injEq] at hreport
  obtain ⟨errors, herrors, rfl⟩ := hreport
  rw [← noDangling_migrate_iff h now]
  exact free_documentErrors herrors
    ((congrArg Json.dict? (merged_antennas h now).2).trans (Json.dict?_ofDict _))

/-- The members of a versioned document with one antenna of its own, assigned to the station. -/
def oneAntenna : Dict String (Json ℚ) :=
  .ofList [
    ("schema_version", .str "2.0.0"),
    ("experiment", .obj []),
    ("antennas", .obj [
      ("definitions", .arr [.obj [("id", .str "panel")]]),
      ("assignments", .obj [("station", .str "panel")])])]

/-- The assignments of `oneAntenna`. -/
def oneAssignment : Dict String (Json ℚ) := .ofList [("station", .str "panel")]

theorem ownAntennas_oneAntenna : OwnAntennas oneAntenna oneAssignment where
  versioned := by decide +kernel
  defines := ⟨_, rfl, by decide +kernel, rfl⟩
  refers := by decide +kernel

theorem unknownAntenna_migrate_oneAntenna :
    OwnAntennas oneAntenna oneAssignment ∧
      ∃ merged, migrateLegacyConfig 0 0 oneAntenna = some merged ∧
        (NoDangling merged ↔ DefaultsKnown oneAntenna oneAssignment) ∧
        ∀ report, validateExperiment 0 0 oneAntenna = some report →
          (Free "UNKNOWN_ANTENNA" report.errors ↔ DefaultsKnown oneAntenna oneAssignment) :=
  ⟨ownAntennas_oneAntenna, unknownAntenna_migrate_iff ⟨oneAntenna, by decide +kernel⟩ oneAssignment
    ownAntennas_oneAntenna 0 0⟩

/-- The drones are assigned the default antenna again, which the document does not define. -/
theorem unknownAntenna_oneAntenna :
    OwnAntennas oneAntenna oneAssignment ∧
      (∃ merged, migrateLegacyConfig 0 0 oneAntenna = some merged ∧ ¬NoDangling merged) ∧
      ∃ report, validateExperiment 0 0 oneAntenna = some report ∧
        ¬Free "UNKNOWN_ANTENNA" report.errors := by
  have hreport : (validateExperiment 0 0 oneAntenna).map (fun report =>
      decide (Free "UNKNOWN_ANTENNA" report.errors)) = some false := by
    decide +kernel
  obtain ⟨report, hvalidate, hfree⟩ := Option.map_eq_some_iff.mp hreport
  refine ⟨ownAntennas_oneAntenna, ⟨_, rfl, ?_⟩, report, hvalidate, by simpa using hfree⟩
  rw [@noDangling_migrate_iff ℚ _ _ ⟨oneAntenna, by decide +kernel⟩ _ ownAntennas_oneAntenna 0]
  decide +kernel

end Netlab.Experiment
