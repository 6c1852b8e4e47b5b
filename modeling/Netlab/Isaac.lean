import Mathlib.Data.List.Dedup
import Netlab.Config.Emission
import Netlab.Config.Migration
import Netlab.Prelude.JsonText
import Netlab.Prelude.Motion

/-!
# The Isaac bridge

`NetlabSnaasBridge._apply` of `netlab_snaas_bridge.py` moves the prims of a stage to the positions
of a desired configuration and acknowledges what it has seen there. The stage is taken to read back
what was last written; a prim that is missing or that cannot be moved is not `writable`.

The bridge looks at each drone right after it has moved it. An accepted acknowledgement tells where
every drone is in the end (`Truthful`) exactly if no drone is then taken elsewhere by a later one
with the same index (`truthful_iff`).
-/

namespace Netlab.Isaac

variable {F : Type}

/-! ## The stage -/

/-- A stage: which prims can be moved, and where the prims are. -/
structure Stage (F : Type) where
  writable : String → Bool
  translations : String → Option (Vec3 F)

namespace Stage

/-- `_set_translation`: whether the prim has been moved. -/
def setTranslation (stage : Stage F) (path : String) (position : Vec3 F) : Stage F × Bool :=
  if stage.writable path then
    ({ stage with translations := Function.update stage.translations path (some position) }, true)
  else (stage, false)

/-- `_observe_position`. -/
def observePosition (stage : Stage F) (path : String) : Option (Vec3 F) := stage.translations path

end Stage

/-! ## The desired drones -/

/-- A drone of the desired configuration. -/
structure DesiredDrone (F : Type) where
  index : ℤ
  droneId : String
  position : Vec3 F

/-- The path of the prim of a drone. -/
def DesiredDrone.path (demoRoot : String) (drone : DesiredDrone F) : String :=
  s!"{demoRoot}/Drone_{drone.index}"

section

variable [PyText F] [PyFloat F]

/-- Read one drone. -/
def readDrone (offset : ℕ) (drone : Dict String (Json F)) : Option (DesiredDrone F) := do
  let index ← (drone.getD "index" (.int offset)).toInt?
  let x ← PyFloat.ofInt index
  -- a drone without a position, or with one that cannot be read, stands in the default row
  let raw := drone.getD "position" (.arr [.float (x * 18.0), .float 0.0, .float 20.0])
  let read : Option (Vec3 F) := do
    return ⟨← (← raw.item? 0).toFloat?, ← (← raw.item? 1).toFloat?, ← (← raw.item? 2).toFloat?⟩
  return {
    index
    droneId := (drone.getD "id" (.str s!"drone_{offset}")).toText
    position := read.getD ⟨x * 18.0, 0.0, 20.0⟩ }

/-- The items of the inventory. -/
def inventory (value : Json F) : List (Json F) :=
  match value with
  | .arr items => items
  | _ => (value.dict?.map Dict.values).getD []

/-- `_iter_drones`. -/
def iterDrones (config : Dict String (Json F)) : Option (List (DesiredDrone F)) := do
  let drones := (Experiment.mappingOrEmpty config "swarm").getD "drones" (.arr [])
  let read ← ((inventory drones).zipIdx 1).mapM fun (item, offset) =>
    match item.dict? with
    | some drone => do return [← readDrone offset drone]
    | none => some []
  return read.flatten

end

/-! ## Applying a configuration -/

section

variable [PyMotion F]

/-- How far a prim is from where it should be. -/
def positionError (actual desired : Vec3 F) : F :=
  PyMotion.sqrt (PyFloat.sum [(actual.x - desired.x) * (actual.x - desired.x),
    (actual.y - desired.y) * (actual.y - desired.y),
    (actual.z - desired.z) * (actual.z - desired.z)])

/-- What the loop over the drones keeps. -/
structure Progress (F : Type) where
  stage : Stage F
  observed : Dict String (Vec3 F)
  applyFailures : List String
  appliedCount : ℕ
  maximumErrorM : F

/-- Before the first drone. -/
def Progress.start (stage : Stage F) : Progress F where
  stage
  observed := .empty
  applyFailures := []
  appliedCount := 0
  maximumErrorM := 0.0

/-- One pass of the loop. -/
def applyDrone (demoRoot : String) (s : Progress F) (drone : DesiredDrone F) : Progress F :=
  -- the prim is named by the index, the observation by the identifier
  let (stage, applied) := s.stage.setTranslation (drone.path demoRoot) drone.position
  let s := { s with stage, appliedCount := s.appliedCount + if applied then 1 else 0 }
  match applied, stage.observePosition (drone.path demoRoot) with
  | true, some actual => { s with
      observed := s.observed.set drone.droneId actual
      maximumErrorM := PyFloat.max s.maximumErrorM (positionError actual drone.position) }
  | _, _ => { s with applyFailures := s.applyFailures ++ [drone.droneId] }

/-- The loop. -/
def applyDrones (demoRoot : String) (stage : Stage F) (drones : List (DesiredDrone F)) :
    Progress F :=
  drones.foldl (applyDrone demoRoot) (.start stage)

/-- An acknowledgement, without its time and its checksum. -/
structure Acknowledgement (F : Type) where
  accepted : Bool
  revisionId : String
  parentRevisionId : String
  commandId : String
  observedHashes : Dict String (Json F)
  observedPositions : Dict String (Vec3 F)
  maximumPositionErrorM : F
  expectedEntityCount : ℕ
  appliedEntityCount : ℕ
  failedEntities : List String
  positionToleranceM : F

/-- The acknowledgement as it is written. -/
def Acknowledgement.toDict (ack : Acknowledgement F) : Json F :=
  .obj [("ok", .bool ack.accepted), ("accepted", .bool ack.accepted), ("participant", .str "isaac"),
    ("revision", .str ack.revisionId), ("revision_id", .str ack.revisionId),
    ("parent_revision_id", .str ack.parentRevisionId), ("command_id", .str ack.commandId),
    ("scene_ready", .bool ack.accepted),
    ("state", .str (if ack.accepted then "SCENE_READY" else "APPLY_FAILED")),
    ("observed_hashes", .ofDict ack.observedHashes),
    ("observed_positions", .ofDict (ack.observedPositions.map fun _ p => p.toJson)),
    ("maximum_position_error_m", .float ack.maximumPositionErrorM),
    ("expected_entity_count", .int ack.expectedEntityCount),
    ("applied_entity_count", .int ack.appliedEntityCount),
    ("failed_entities", .arr (ack.failedEntities.map .str)),
    ("position_tolerance_m", .float ack.positionToleranceM),
    ("error", .str (if ack.accepted then ""
      else "One or more desired UAV transforms were not applied or verified."))]

variable [PyText F]

/-- What the checksum of the scene is taken of. -/
def checksumPayload (config : Dict String (Json F)) (observed : Dict String (Vec3 F)) : Json F :=
  .obj [("observed_positions", .ofDict (observed.map fun _ p => p.toJson)),
    ("topology", .ofDict (Experiment.mappingOrEmpty config "topology"))]

/-- `_revision`. -/
def revision (signal : Dict String (Json F)) : String :=
  (((signal.getD "revision_id" .null).orElse (signal.getD "revision" .null)).orElse
    (.str "")).toText

/-- `_apply`, for the configuration that the signal stands for. A number that is not finite cannot
be written and raises. -/
def apply (demoRoot : String) (toleranceM : F) (config signal : Dict String (Json F))
    (stage : Stage F) : Option (Stage F × Acknowledgement F) := do
  let drones ← iterDrones config
  let s := applyDrones demoRoot stage drones
  -- the checksum is taken of a text in strict JSON, which has no number that is not finite
  if JsonText.finite (checksumPayload config s.observed) then
    let sceneReady := decide (0 < drones.length) && decide (s.appliedCount = drones.length) &&
      decide (s.observed.entries.length = drones.length) && PyFloat.le s.maximumErrorM toleranceM
    let acknowledgement : Acknowledgement F := {
      accepted := sceneReady
      revisionId := revision signal
      parentRevisionId := signal.getText "parent_revision_id" ""
      commandId := signal.getText "command_id" ""
      observedHashes := if sceneReady then Experiment.mappingOrEmpty signal "hashes" else .empty
      observedPositions := s.observed
      maximumPositionErrorM := s.maximumErrorM
      expectedEntityCount := drones.length
      appliedEntityCount := s.appliedCount
      failedEntities := s.applyFailures
      positionToleranceM := toleranceM }
    if JsonText.finite acknowledgement.toDict then some (s.stage, acknowledgement) else none
  else none

/-! ## What is asked of an acknowledgement -/

/-- An accepted acknowledgement means that every desired drone's prim is within the tolerance of its
position on the stage, and another one shows no hashes. -/
structure Truthful (demoRoot : String) (toleranceM : F) (drones : List (DesiredDrone F))
    (stage : Stage F) (ack : Acknowledgement F) : Prop where
  placed : ack.accepted = true → ∀ drone ∈ drones, ∃ actual,
    stage.observePosition (drone.path demoRoot) = some actual ∧
      PyFloat.le (positionError actual drone.position) toleranceM = true
  silent : ack.accepted = false → ack.observedHashes = .empty

/-- The last drone with a path. -/
def lastAt (demoRoot : String) (drones : List (DesiredDrone F)) (path : String) :
    Option (DesiredDrone F) :=
  drones.reverse.find? fun drone => drone.path demoRoot = path

/-- An inventory that the bridge accepts: it is not empty, no identifier is repeated, all prims can
be moved, and no position is farther from itself than the tolerance. -/
structure Acceptable (demoRoot : String) (toleranceM : F) (stage : Stage F)
    (drones : List (DesiredDrone F)) : Prop where
  nonempty : drones ≠ []
  distinct : (drones.map DesiredDrone.droneId).Nodup
  writable : ∀ drone ∈ drones, stage.writable (drone.path demoRoot) = true
  tolerant : PyFloat.le ((drones.map fun drone =>
    positionError drone.position drone.position).foldl PyFloat.max 0.0) toleranceM = true

/-- Every drone is within the tolerance of the last one with the same prim. -/
def Settled (demoRoot : String) (toleranceM : F) (drones : List (DesiredDrone F)) : Prop :=
  ∀ drone ∈ drones, ∃ last, lastAt demoRoot drones (drone.path demoRoot) = some last ∧
    PyFloat.le (positionError last.position drone.position) toleranceM = true

end

/-! ## The loop -/

section

variable [PyMotion F] {demoRoot : String} {stage : Stage F} {drones : List (DesiredDrone F)}
  {drone : DesiredDrone F} {s : Progress F}

omit [PyMotion F] in
/-- The last drone with a path, after one more drone. -/
theorem lastAt_append (path : String) : lastAt demoRoot (drones ++ [drone]) path =
    if drone.path demoRoot = path then some drone else lastAt demoRoot drones path := by
  rw [lastAt, List.reverse_append, List.reverse_singleton, List.singleton_append, List.find?_cons]
  by_cases h : drone.path demoRoot = path
  · simp [h]
  · simp [h, lastAt]

/-- A drone whose prim cannot be moved is a failure. -/
theorem applyDrone_of_not_writable (h : s.stage.writable (drone.path demoRoot) = false) :
    applyDrone demoRoot s drone =
      { s with applyFailures := s.applyFailures ++ [drone.droneId] } := by
  simp [applyDrone, Stage.setTranslation, h]

/-- A drone whose prim can be moved is seen where it has been moved to. -/
theorem applyDrone_of_writable (h : s.stage.writable (drone.path demoRoot) = true) :
    applyDrone demoRoot s drone = { s with
      stage := { s.stage with
        translations := Function.update s.stage.translations (drone.path demoRoot)
          (some drone.position) }
      appliedCount := s.appliedCount + 1
      observed := s.observed.set drone.droneId drone.position
      maximumErrorM :=
        PyFloat.max s.maximumErrorM (positionError drone.position drone.position) } := by
  simp [applyDrone, Stage.setTranslation, Stage.observePosition, h]

/-- The drones whose prims can be moved. -/
def moved (demoRoot : String) (stage : Stage F) (drones : List (DesiredDrone F)) :
    List (DesiredDrone F) :=
  drones.filter fun drone => stage.writable (drone.path demoRoot)

/-- What the loop has found out after some drones. -/
structure Reached (demoRoot : String) (stage : Stage F) (drones : List (DesiredDrone F))
    (s : Progress F) : Prop where
  writable : s.stage.writable = stage.writable
  /-- A prim is where the last drone has put it. -/
  translations : ∀ path, s.stage.translations path =
    ((lastAt demoRoot (moved demoRoot stage drones) path).map DesiredDrone.position).or
      (stage.translations path)
  applied : s.appliedCount = (moved demoRoot stage drones).length
  observed : ∀ id, id ∈ s.observed.keys ↔
    id ∈ (moved demoRoot stage drones).map DesiredDrone.droneId
  error : s.maximumErrorM = ((moved demoRoot stage drones).map fun drone =>
    positionError drone.position drone.position).foldl PyFloat.max 0.0

/-- The step: one more drone. -/
theorem Reached.applyDrone (h : Reached demoRoot stage drones s) :
    Reached demoRoot stage (drones ++ [drone]) (applyDrone demoRoot s drone) := by
  cases hwritable : stage.writable (drone.path demoRoot) with
  | false =>
      -- the drone is passed over
      have hmoved : moved demoRoot stage (drones ++ [drone]) = moved demoRoot stage drones := by
        simp [moved, hwritable]
      rw [applyDrone_of_not_writable (by rw [h.writable, hwritable])]
      exact ⟨h.writable, hmoved ▸ h.translations, hmoved ▸ h.applied, hmoved ▸ h.observed,
        hmoved ▸ h.error⟩
  | true =>
      have hmoved : moved demoRoot stage (drones ++ [drone]) =
          moved demoRoot stage drones ++ [drone] := by
        simp [moved, hwritable]
      rw [applyDrone_of_writable (by rw [h.writable, hwritable])]
      constructor
      · exact h.writable
      · intro path
        rw [hmoved, lastAt_append]
        by_cases hpath : drone.path demoRoot = path
        · subst hpath
          simp
        · rw [if_neg hpath, ← h.translations]
          exact Function.update_of_ne (Ne.symm hpath) _ _
      · rw [hmoved, List.length_append, ← h.applied, List.length_singleton]
      · intro id
        rw [hmoved, Dict.mem_keys_set, h.observed, List.map_append, List.mem_append,
          List.map_singleton, List.mem_singleton]
      · rw [hmoved, List.map_append, List.foldl_append, ← h.error]
        rfl

/-- The run: the whole loop. -/
theorem reached_applyDrones (demoRoot : String) (stage : Stage F) (drones : List (DesiredDrone F)) :
    Reached demoRoot stage drones (applyDrones demoRoot stage drones) := by
  induction drones using List.reverseRecOn with
  | nil => exact ⟨rfl, fun _ => rfl, rfl, fun _ => by simp [applyDrones, Progress.start, moved,
      Dict.keys], rfl⟩
  | append_singleton drones drone ih =>
      rw [applyDrones, List.foldl_append]
      exact ih.applyDrone

/-! ## Acceptance -/

omit [PyMotion F] in
/-- As many prims have been moved as there are drones when all can be moved. -/
theorem moved_eq_iff : (moved demoRoot stage drones).length = drones.length ↔
    ∀ drone ∈ drones, stage.writable (drone.path demoRoot) = true :=
  List.length_filter_eq_length_iff

/-- As many identifiers as drones have been seen when none is repeated. -/
theorem length_observed_iff (h : Reached demoRoot stage drones s)
    (hmoved : moved demoRoot stage drones = drones) :
    s.observed.entries.length = drones.length ↔
      (drones.map DesiredDrone.droneId).Nodup := by
  have hlength : s.observed.entries.length = (drones.map DesiredDrone.droneId).dedup.length := by
    have hperm : s.observed.keys.Perm (drones.map DesiredDrone.droneId).dedup := by
      refine (List.perm_ext_iff_of_nodup s.observed.nodup (List.nodup_dedup _)).mpr ?_
      intro id
      exact (h.observed id).trans (by rw [hmoved, List.mem_dedup])
    simpa [Dict.keys] using hperm.length_eq
  rw [hlength, ← List.length_map DesiredDrone.droneId]
  constructor
  · intro heq
    rw [← (List.dedup_sublist _).eq_of_length heq]
    exact List.nodup_dedup _
  · intro hnodup
    rw [hnodup.dedup]

variable [PyText F] {toleranceM : F} {config signal : Dict String (Json F)} {stage' : Stage F}
  {ack : Acknowledgement F}

/-- What an acknowledgement rests on. -/
theorem apply_spec (h : apply demoRoot toleranceM config signal stage = some (stage', ack))
    (hdrones : iterDrones config = some drones) :
    stage' = (applyDrones demoRoot stage drones).stage ∧
      ack.observedHashes =
        (if ack.accepted then Experiment.mappingOrEmpty signal "hashes" else .empty) ∧
      (ack.accepted = true ↔ Acceptable demoRoot toleranceM stage drones) := by
  have hreached := reached_applyDrones demoRoot stage drones
  simp only [apply, hdrones, Option.bind_eq_bind, Option.bind_some, Option.ite_none_right_eq_some,
    Option.some.injEq, Prod.mk.injEq] at h
  obtain ⟨-, -, rfl, rfl⟩ := h
  refine ⟨rfl, rfl, ?_⟩
  simp only [Bool.and_eq_true, decide_eq_true_eq, hreached.applied, moved_eq_iff]
  constructor
  · rintro ⟨⟨⟨hlength, hwritable⟩, hobserved⟩, herror⟩
    have hmoved : moved demoRoot stage drones = drones := List.filter_eq_self.mpr hwritable
    exact ⟨List.ne_nil_of_length_pos hlength, (length_observed_iff hreached hmoved).mp hobserved,
      hwritable, by rwa [hreached.error, hmoved] at herror⟩
  · intro hacceptable
    have hmoved : moved demoRoot stage drones = drones :=
      List.filter_eq_self.mpr hacceptable.writable
    exact ⟨⟨⟨List.length_pos_of_ne_nil hacceptable.nonempty, hacceptable.writable⟩,
      (length_observed_iff hreached hmoved).mpr hacceptable.distinct⟩,
      by rw [hreached.error, hmoved]; exact hacceptable.tolerant⟩

omit [PyText F] in
/-- Once an inventory has been accepted, a prim is where the last drone with its path belongs. -/
theorem observePosition_of_acceptable (h : Acceptable demoRoot toleranceM stage drones)
    (hdrone : drone ∈ drones) :
    ∃ last, lastAt demoRoot drones (drone.path demoRoot) = some last ∧
      (applyDrones demoRoot stage drones).stage.observePosition (drone.path demoRoot) =
        some last.position := by
  have hmoved : moved demoRoot stage drones = drones := List.filter_eq_self.mpr h.writable
  have hread := (reached_applyDrones demoRoot stage drones).translations (drone.path demoRoot)
  rw [hmoved] at hread
  obtain ⟨last, hlast⟩ : ∃ last, lastAt demoRoot drones (drone.path demoRoot) = some last := by
    apply Option.isSome_iff_exists.mp
    unfold lastAt
    rw [List.find?_isSome]
    exact ⟨drone, List.mem_reverse.mpr hdrone, by simp⟩
  exact ⟨last, hlast, by rw [Stage.observePosition, hread, hlast]; rfl⟩

/-- An acknowledgement is truthful exactly if the inventory is one that the bridge does not accept,
or every drone is within the tolerance of the last drone with the same prim. -/
theorem truthful_iff (h : apply demoRoot toleranceM config signal stage = some (stage', ack))
    (hdrones : iterDrones config = some drones) :
    Truthful demoRoot toleranceM drones stage' ack ↔
      (Acceptable demoRoot toleranceM stage drones → Settled demoRoot toleranceM drones) := by
  obtain ⟨hstage, hhashes, haccepted⟩ := apply_spec h hdrones
  subst hstage
  constructor
  · intro htruthful hacceptable drone hdrone
    obtain ⟨actual, hactual, hnear⟩ :=
      htruthful.placed (haccepted.mpr hacceptable) drone hdrone
    -- what is observed of a drone is the last position written to its path
    obtain ⟨last, hlast, hread⟩ := observePosition_of_acceptable hacceptable hdrone
    obtain rfl := Option.some.inj (hread.symm.trans hactual)
    exact ⟨last, hlast, hnear⟩
  · intro hsettled
    constructor
    · intro hready drone hdrone
      have hacceptable := haccepted.mp hready
      obtain ⟨last, hlast, hnear⟩ := hsettled hacceptable drone hdrone
      obtain ⟨last', hlast', hread⟩ := observePosition_of_acceptable hacceptable hdrone
      obtain rfl := Option.some.inj (hlast.symm.trans hlast')
      exact ⟨last.position, hread, hnear⟩
    · intro hrefused
      rw [hhashes, hrefused]
      rfl

end

/-! ## Two drones -/

/-- A configuration of two drones, 18 m apart. -/
def twoDrones (first second : ℤ) : Dict String (Json ℚ) :=
  .ofList [("swarm", .obj [("drones", .arr [
    .obj [("id", .str "drone_1"), ("index", .int first),
      ("position", .arr [.float 0, .float 0, .float 20])],
    .obj [("id", .str "drone_2"), ("index", .int second),
      ("position", .arr [.float 18, .float 0, .float 20])]])])]

/-- A stage on which every prim can be moved. -/
def openStage : Stage ℚ where
  writable _ := true
  translations _ := some ⟨0, 0, 0⟩

/-- With indices of their own, the drones are where the acknowledgement says. -/
theorem truthful_iff_twoDrones :
    ∃ stage ack drones,
      apply "/World" (1 / 20) (twoDrones 1 2) .empty openStage = some (stage, ack) ∧
      iterDrones (twoDrones 1 2) = some drones ∧
      (Truthful "/World" (1 / 20) drones stage ack ↔
        (Acceptable "/World" (1 / 20) openStage drones → Settled "/World" (1 / 20) drones)) := by
  have happlied : (apply "/World" (1 / 20) (twoDrones 1 2) .empty openStage).isSome = true := by
    decide +kernel
  obtain ⟨⟨stage, ack⟩, h⟩ := Option.isSome_iff_exists.mp happlied
  have hread : (iterDrones (twoDrones 1 2)).isSome = true := by decide +kernel
  obtain ⟨drones, hdrones⟩ := Option.isSome_iff_exists.mp hread
  exact ⟨stage, ack, drones, h, hdrones, truthful_iff h hdrones⟩

/-- With the same index, the second drone takes the prim of the first one along, and the
acknowledgement is accepted all the same. -/
theorem not_truthful :
    ¬∀ (demoRoot : String) (toleranceM : ℚ) (config signal : Dict String (Json ℚ))
      (stage stage' : Stage ℚ) (ack : Acknowledgement ℚ) (drones : List (DesiredDrone ℚ)),
      apply demoRoot toleranceM config signal stage = some (stage', ack) →
      iterDrones config = some drones → Truthful demoRoot toleranceM drones stage' ack := by
  intro hclaim
  -- two drones share a path: both are applied, and the second position is there at the end
  have happlied : (apply "/World" (1 / 20) (twoDrones 1 1) .empty openStage).any (fun r =>
      r.2.accepted && decide (r.1.observePosition "/World/Drone_1" = some ⟨18, 0, 20⟩)) = true := by
    decide +kernel
  have hread : (iterDrones (twoDrones 1 1)).any (fun drones => drones.any fun drone =>
      decide (drone.path "/World" = "/World/Drone_1") &&
        !PyFloat.le (positionError ⟨18, 0, 20⟩ drone.position) (1 / 20)) = true := by
    decide +kernel
  obtain ⟨⟨stage, ack⟩, h, hseen⟩ := (Option.any_eq_true _ _).mp happlied
  obtain ⟨drones, hdrones, hfar⟩ := (Option.any_eq_true _ _).mp hread
  rw [Bool.and_eq_true, decide_eq_true_eq] at hseen
  obtain ⟨drone, hdrone, hfar⟩ := List.any_eq_true.mp hfar
  rw [Bool.and_eq_true, decide_eq_true_eq, Bool.not_eq_true'] at hfar
  obtain ⟨actual, hactual, hnear⟩ :=
    (hclaim "/World" (1 / 20) _ .empty openStage stage ack drones h hdrones).placed hseen.1 drone
      hdrone
  rw [hfar.1, hseen.2] at hactual
  obtain rfl := Option.some.inj hactual
  exact Bool.false_ne_true (hfar.2.symm.trans hnear)

end Netlab.Isaac
