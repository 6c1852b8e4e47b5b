import Netlab.Relay.Branches

/-!
# The drones of the relay chain and where they are sent

The drone records of `snaas_relay_chain.py`, and what the controller writes into them. Where a drone
is told to go is its desired position. It is written from many places, all of which are an `aim`
here, and none of them changes who is a relay (`chain_aim`).
-/

namespace Netlab

variable {F : Type}

/-- A drone as the controller keeps it. The chain version in which it was placed last is left out,
since nothing reads it. -/
structure Drone (F : Type) extends DroneRuntime where
  failed : Bool
  droneId : String
  initialPosition : Vec3 F
  currentPosition : Vec3 F
  desiredPosition : Vec3 F
  batteryPct : F
  antennaGain : F
  antennaName : String
  /-- whether a pose has arrived (`last_pose_time` is set) -/
  posed : Bool
  deriving DecidableEq

/-- The inventory and the topology settings of the controller. -/
structure Fleet (F : Type) where
  droneCount : ℤ
  relayCount : ℤ
  standbyCount : ℤ
  branchCount : ℤ
  transmissionMode : String
  manualBranches : List (List ℤ)
  forwardingPolicy : String
  queueModel : String
  drones : Dict ℤ (Drone F)
  failedIndices : List ℤ

/-- The radio of the configuration (`radio_metadata`, whose numbers are also attributes). -/
structure Radio (F : Type) where
  frequency : F
  bandwidth : F
  txPower : F
  noiseFloor : F
  minSnr : F
  requiredCapacity : F
  stationAntennaName : String
  uavAntennaName : String
  antennaModel : String
  deriving Inhabited

/-- What the controller takes from the configuration besides its drones and its topology. -/
structure Settings (F : Type) where
  experimentName : String
  stationPosition : Vec3 F
  stationAntennaName : String
  stationAntennaGain : F
  coverageRadius : F
  coverageWidth : F
  directionDeg : F
  altitudeStart : F
  altitudeEnd : F
  maxSingleHopRange : F
  hardOutageRange : F
  allowDegradedForwarding : Bool
  distancePenalty : F
  standbyActivationRadius : F
  failureDetection : F
  hopPeriod : F
  movementPattern : String
  movementAmplitude : F
  movementSpeed : F
  visualFollowAlpha : F
  windSpeed : F
  windDirection : F
  turbulenceIntensity : F
  radio : Radio F
  antennas : List (Json F)
  worlds : List (Json F)
  deriving Inhabited

namespace Fleet

/-- What of a drone decides whether it is a relay in service. -/
def runtime (_ : ℤ) (drone : Drone F) : DroneRuntime := drone.toDroneRuntime

/-- What of the inventory and the topology decides about the branches. -/
def chain (fleet : Fleet F) : RelayChain where
  droneCount := fleet.droneCount
  relayCount := fleet.relayCount
  standbyCount := fleet.standbyCount
  branchCount := fleet.branchCount
  transmissionMode := fleet.transmissionMode
  manualBranches := fleet.manualBranches
  drones := fleet.drones.map runtime
  failedIndices := fleet.failedIndices

/-- `_active_chain`. -/
def activeChain (fleet : Fleet F) : List ℤ := fleet.chain.activeChain

/-- `_standby_indices`. -/
def standbyIndices (fleet : Fleet F) : List ℤ := fleet.chain.standbyIndices

/-- `_active_branches`. -/
def activeBranches (fleet : Fleet F) : List (List ℤ) := fleet.chain.activeBranches

/-- `index in self.drones`. -/
def known (fleet : Fleet F) (idx : ℤ) : Bool := (fleet.drones.get? idx).isSome

theorem known_chain (fleet : Fleet F) (idx : ℤ) :
    (fleet.chain.drones.get? idx).isSome = fleet.known idx := by
  simp [chain, known]

/-- Change the drone at an index. -/
def modify (fleet : Fleet F) (idx : ℤ) (f : Drone F → Drone F) : Fleet F :=
  { fleet with drones := fleet.drones.mapValues fun i drone => if i = idx then f drone else drone }

/-! ## Desired positions -/

/-- Write the desired positions. -/
def aim (fleet : Fleet F) (target : ℤ → Drone F → Vec3 F) : Fleet F :=
  { fleet with
    drones := fleet.drones.mapValues fun idx drone =>
      { drone with desiredPosition := target idx drone } }

/-- Send one drone to a position. -/
def aimAt (fleet : Fleet F) (idx : ℤ) (position : Vec3 F) : Fleet F :=
  fleet.aim fun i drone => if i = idx then position else drone.desiredPosition

/-- The desired position of a drone. -/
def desired (fleet : Fleet F) (idx : ℤ) : Option (Vec3 F) :=
  (fleet.drones.get? idx).map Drone.desiredPosition

/-- Writing desired positions changes nothing else. -/
@[simp] theorem chain_aim (fleet : Fleet F) (target : ℤ → Drone F → Vec3 F) :
    (fleet.aim target).chain = fleet.chain := by
  have hdrones : (fleet.aim target).drones.map runtime = fleet.drones.map runtime := by
    exact Dict.map_mapValues (by intros; rfl) fleet.drones
  rw [chain, chain, hdrones]
  rfl

@[simp] theorem desired_aim (fleet : Fleet F) (target : ℤ → Drone F → Vec3 F) (idx : ℤ) :
    (fleet.aim target).desired idx = (fleet.drones.get? idx).map (target idx) := by
  rw [desired, aim, Dict.get?_mapValues, Option.map_map]
  rfl

/-- Carry out position commands in order. -/
def aimAll (fleet : Fleet F) (commands : List (ℤ × Vec3 F)) : Fleet F :=
  commands.foldl (fun fleet command => fleet.aimAt command.1 command.2) fleet

/-- `fleet'` is `fleet` with other desired positions. -/
def Aimed (fleet fleet' : Fleet F) : Prop := ∃ target, fleet' = fleet.aim target

theorem Aimed.aim (fleet : Fleet F) (target : ℤ → Drone F → Vec3 F) :
    fleet.Aimed (fleet.aim target) :=
  ⟨target, rfl⟩

theorem Aimed.refl (fleet : Fleet F) : fleet.Aimed fleet := by
  refine ⟨fun _ drone => drone.desiredPosition, ?_⟩
  rw [Fleet.aim, Dict.mapValues_eq_self fun _ _ => rfl]

theorem Aimed.trans {fleet fleet' fleet'' : Fleet F} (h : fleet.Aimed fleet')
    (h' : fleet'.Aimed fleet'') : fleet.Aimed fleet'' := by
  obtain ⟨target, rfl⟩ := h
  obtain ⟨target', rfl⟩ := h'
  refine ⟨fun idx drone => target' idx { drone with desiredPosition := target idx drone }, ?_⟩
  rw [Fleet.aim, Fleet.aim, Fleet.aim, Dict.mapValues_mapValues]

theorem Aimed.chain_eq {fleet fleet' : Fleet F} (h : fleet.Aimed fleet') :
    fleet'.chain = fleet.chain := by
  obtain ⟨target, rfl⟩ := h
  exact fleet.chain_aim target

theorem aimed_aimAll (fleet : Fleet F) (commands : List (ℤ × Vec3 F)) :
    fleet.Aimed (fleet.aimAll commands) := by
  induction commands generalizing fleet with
  | nil => exact .refl fleet
  | cons command commands ih =>
      rw [aimAll, List.foldl_cons]
      exact (Aimed.aim fleet _).trans (ih _)

/-! ## The layout of the branches -/

section Layout

variable [PyTrig F]

/-- The position of a slot on a branch: along the heading by its share of the coverage radius, and
sideways by the branch. Slots count from one, branches from zero. -/
def slotPosition (settings : Settings F) (heading : F × F) (branchCount branchIdx length slot : ℕ) :
    Option (Vec3 F) := do
  let (dx, dy) := heading
  let spacing ← PyFloat.div settings.coverageRadius (← PyFloat.ofInt (max 1 length : ℕ))
  let lateral ←
    if branchCount = 1 then some 0.0
    else do
      let middle ← PyFloat.div (← PyFloat.ofInt (branchCount - 1 : ℕ)) 2.0
      let width ← PyFloat.div settings.coverageWidth (← PyFloat.ofInt (max 1 (branchCount - 1) : ℕ))
      pure (((← PyFloat.ofInt branchIdx) - middle) * width)
  let along := spacing * (← PyFloat.ofInt slot)
  let alpha ← PyFloat.div (← PyFloat.ofInt (slot - 1 : ℕ)) (← PyFloat.ofInt (max 1 (length - 1) : ℕ))
  return {
    x := settings.stationPosition.x + dx * along + -dy * lateral
    y := settings.stationPosition.y + dy * along + dx * lateral
    z := settings.altitudeStart + (settings.altitudeEnd - settings.altitudeStart) * alpha }

/-- The direction of the branches; raises when it is infinite. -/
def heading (settings : Settings F) : Option (F × F) := do
  let theta := PyTrig.radians settings.directionDeg
  return (← PyTrig.cos theta, ← PyTrig.sin theta)

/-- The drones on the branches in the order in which they are sent to their slots, each with the
position of its slot when it can be computed. -/
def slots (settings : Settings F) (heading : F × F) (branches : List (List ℤ)) :
    List (ℤ × Option (Vec3 F)) :=
  branches.zipIdx.flatMap fun (branch, branchIdx) =>
    branch.zipIdx.map fun (idx, slot) =>
      (idx, slotPosition settings heading (max 1 branches.length) branchIdx branch.length (slot + 1))

/-- The targets of the drones on the branches; raises when the heading is infinite. -/
def targets (settings : Settings F) (branches : List (List ℤ)) : Option (List (ℤ × Vec3 F)) := do
  (slots settings (← heading settings) branches).mapM fun (idx, position) => do
    return (idx, ← position)

/-- The targets that have been written when the layout raises: those before the first slot that has
no position. -/
def writtenTargets (settings : Settings F) (branches : List (List ℤ)) : List (ℤ × Vec3 F) :=
  match heading settings with
  | none => []
  | some heading =>
      ((slots settings heading branches).takeWhile fun (_, position) => position.isSome).filterMap
        fun (idx, position) => position.map (idx, ·)

/-- Send the drones to their targets. -/
def layOut (fleet : Fleet F) (targets : List (ℤ × Vec3 F)) : Fleet F :=
  fleet.aim fun idx drone => (targets.lookup idx).getD drone.desiredPosition

/-- Let the failed drones sink. -/
def sinkFailed (fleet : Fleet F) : Fleet F :=
  fleet.aim fun idx drone =>
    if idx ∈ fleet.failedIndices then
      { x := drone.currentPosition.x, y := drone.currentPosition.y
        z := PyFloat.max 0.3 (drone.currentPosition.z - 4.0) }
    else drone.desiredPosition

/-- `p == q`. -/
def samePoint (p q : Vec3 F) : Bool := PyTrig.samePoint (p.x, p.y, p.z) (q.x, q.y, q.z)

/-- Keep the standby drones that have not moved where they are. -/
def holdStandby (fleet : Fleet F) : Fleet F :=
  fleet.aim fun idx drone =>
    if idx ∈ fleet.standbyIndices ∧ samePoint drone.currentPosition drone.initialPosition then
      drone.initialPosition
    else drone.desiredPosition

/-- What a layout leaves behind when it raises: the targets of the slots before the one that has no
position, or a complete layout when it is the strategy that raises. -/
def interrupted (settings : Settings F) (fleet : Fleet F) : Fleet F :=
  match targets settings fleet.activeBranches with
  | none => fleet.layOut (writtenTargets settings fleet.activeBranches)
  | some targets => ((fleet.layOut targets).sinkFailed).holdStandby

end Layout

/-! ## Fleets with the same contents -/

/-- The fleets have the same drones, whatever their order, the same failed ones and the same
topology. -/
structure Same (fleet fleet' : Fleet F) : Prop where
  droneCount : fleet'.droneCount = fleet.droneCount
  relayCount : fleet'.relayCount = fleet.relayCount
  standbyCount : fleet'.standbyCount = fleet.standbyCount
  branchCount : fleet'.branchCount = fleet.branchCount
  transmissionMode : fleet'.transmissionMode = fleet.transmissionMode
  manualBranches : fleet'.manualBranches = fleet.manualBranches
  forwardingPolicy : fleet'.forwardingPolicy = fleet.forwardingPolicy
  queueModel : fleet'.queueModel = fleet.queueModel
  drones : ∀ idx, fleet'.drones.get? idx = fleet.drones.get? idx
  failed : ∀ idx, idx ∈ fleet'.failedIndices ↔ idx ∈ fleet.failedIndices

namespace Same

variable {fleet fleet' : Fleet F}

theorem refl (fleet : Fleet F) : fleet.Same fleet :=
  ⟨rfl, rfl, rfl, rfl, rfl, rfl, rfl, rfl, fun _ => rfl, fun _ => Iff.rfl⟩

theorem trans {fleet'' : Fleet F} (h : fleet.Same fleet') (h' : fleet'.Same fleet'') :
    fleet.Same fleet'' where
  droneCount := h'.droneCount.trans h.droneCount
  relayCount := h'.relayCount.trans h.relayCount
  standbyCount := h'.standbyCount.trans h.standbyCount
  branchCount := h'.branchCount.trans h.branchCount
  transmissionMode := h'.transmissionMode.trans h.transmissionMode
  manualBranches := h'.manualBranches.trans h.manualBranches
  forwardingPolicy := h'.forwardingPolicy.trans h.forwardingPolicy
  queueModel := h'.queueModel.trans h.queueModel
  drones idx := (h'.drones idx).trans (h.drones idx)
  failed idx := (h'.failed idx).trans (h.failed idx)

theorem symm (h : fleet.Same fleet') : fleet'.Same fleet :=
  ⟨h.droneCount.symm, h.relayCount.symm, h.standbyCount.symm, h.branchCount.symm,
    h.transmissionMode.symm, h.manualBranches.symm, h.forwardingPolicy.symm, h.queueModel.symm,
    fun idx => (h.drones idx).symm, fun idx => (h.failed idx).symm⟩

theorem desired (h : fleet.Same fleet') (idx : ℤ) : fleet'.desired idx = fleet.desired idx := by
  rw [Fleet.desired, h.drones idx, Fleet.desired]

theorem alike (h : fleet.Same fleet') : fleet.chain.Alike fleet'.chain where
  droneCount := h.droneCount
  branchCount := h.branchCount
  transmissionMode := h.transmissionMode
  manualBranches := h.manualBranches
  drones idx := by
    rw [chain, chain, Dict.get?_map, Dict.get?_map, h.drones idx]
  failed idx _ _ := h.failed idx

/-- Drones that are sent to the same places. -/
theorem aim (h : fleet.Same fleet') {target target' : ℤ → Drone F → Vec3 F}
    (htarget : ∀ idx drone, target' idx drone = target idx drone) :
    (fleet.aim target).Same (fleet'.aim target') := by
  obtain rfl : target' = target := funext fun idx => funext fun drone => htarget idx drone
  refine { h with drones := fun idx => ?_ }
  rw [Fleet.aim, Fleet.aim, Dict.get?_mapValues, Dict.get?_mapValues, h.drones idx]

theorem layOut (h : fleet.Same fleet') (targets : List (ℤ × Vec3 F)) :
    (fleet.layOut targets).Same (fleet'.layOut targets) :=
  h.aim fun _ _ => rfl

section

variable [PyTrig F]

theorem sinkFailed (h : fleet.Same fleet') : fleet.sinkFailed.Same fleet'.sinkFailed :=
  h.aim fun idx _ => by simp only [h.failed idx]

theorem holdStandby (h : fleet.Same fleet') : fleet.holdStandby.Same fleet'.holdStandby := by
  have hstandby : fleet'.standbyIndices = fleet.standbyIndices := h.alike.standbyIndices
  exact h.aim fun _ _ => by rw [hstandby]

theorem interrupted (h : fleet.Same fleet') (settings : Settings F) :
    (fleet.interrupted settings).Same (fleet'.interrupted settings) := by
  have hbranches : fleet'.activeBranches = fleet.activeBranches := h.alike.activeBranches
  rw [Fleet.interrupted, Fleet.interrupted, hbranches]
  split
  · exact h.layOut _
  · exact ((h.layOut _).sinkFailed).holdStandby

end

end Same

/-- A fleet whose drones have been sent where they were sent already is as before. -/
theorem Aimed.same {fleet fleet' : Fleet F} (h : fleet.Aimed fleet')
    (hdesired : ∀ idx drone, fleet.drones.get? idx = some drone →
      fleet'.desired idx = some drone.desiredPosition) : fleet.Same fleet' := by
  obtain ⟨target, rfl⟩ := h
  refine { Same.refl fleet with drones := fun idx => ?_ }
  rw [Fleet.aim, Dict.get?_mapValues]
  cases hdrone : fleet.drones.get? idx with
  | none => rfl
  | some drone =>
      have hidx := hdesired idx drone hdrone
      rw [desired_aim, hdrone, Option.map_some, Option.some.injEq] at hidx
      rw [Option.map_some, hidx]

/-! ## Commands of a strategy -/

section Strategy

variable [PyText F] [PyFloat F]

/-- The index that a key names, whether or not there is a drone of this index. -/
def namedIndex (value : Json F) : Option ℤ :=
  match value with
  | .str s => PyText.intOfText F ((PyText.lower F (PyText.strip F s)).replace "drone_" "")
  | value => value.toInt?

/-- `_parse_drone_index`. -/
def parseDroneIndex (fleet : Fleet F) (value : Json F) : Option ℤ := do
  let idx ← namedIndex value
  if fleet.known idx then some idx else none

/-- The relay that a key names, unless it is not in service. -/
def commandedRelay (fleet : Fleet F) (key : Json F) : Option ℤ := do
  let idx ← fleet.parseDroneIndex key
  if idx ∈ fleet.activeChain ∧ idx ∉ fleet.failedIndices then some idx else none

/-- The first three numbers of a list, as a position; raises when one of them is none. -/
def pointOf (values : List (Json F)) : Option (Vec3 F) :=
  match values with
  | x :: y :: z :: _ => do return { x := ← x.toFloat?, y := ← y.toFloat?, z := ← z.toFloat? }
  | _ => none

/-- Whether the coordinates of a position are finite. -/
def finitePoint (p : Vec3 F) : Bool :=
  PyFloat.isFinite p.x && PyFloat.isFinite p.y && PyFloat.isFinite p.z

/-- The commands in a position plan of a strategy. An entry that cannot be read is skipped. -/
def planCommands (fleet : Fleet F) (entries : List (Json F × Json F)) : List (ℤ × Vec3 F) :=
  entries.filterMap fun (key, value) => do
    let idx ← fleet.commandedRelay key
    let position ← pointOf (← value.elements?)
    if finitePoint position then some (idx, position) else none

/-- The commands in an algorithm action. An entry that is no list of numbers ends the loop. -/
def actionCommands (fleet : Fleet F) : List (Json F × Json F) → List (ℤ × Vec3 F)
  | [] => []
  | (key, value) :: rest =>
      match fleet.commandedRelay key with
      | none => fleet.actionCommands rest
      | some idx =>
          match value.elements? with
          -- a value that is no list raises, and what has been applied so far stays
          | none => []
          | some values =>
              if values.length ≠ 3 then fleet.actionCommands rest
              else
                match pointOf values with
                | none => []
                | some position =>
                    if finitePoint position then (idx, position) :: fleet.actionCommands rest
                    else fleet.actionCommands rest

/-- The position in an entry of an action: three finite numbers. -/
def readPosition? (value : Json F) : Option (Vec3 F) := do
  let values ← value.elements?
  if values.length ≠ 3 then none
  else
    let position ← pointOf values
    if finitePoint position then some position else none

/-- The loop over an action ends at a value that is no list, or that lists three things of which one
is no number. -/
def endsLoop (value : Json F) : Bool :=
  match value.elements? with
  | none => true
  | some values => values.length = 3 && (pointOf values).isNone

/-- The relay that a key names is one of the indices that keys name. -/
theorem commandedRelay_eq_some_iff {fleet : Fleet F} {key : Json F} {idx : ℤ} :
    fleet.commandedRelay key = some idx ↔
      namedIndex key = some idx ∧ fleet.known idx = true ∧ idx ∈ fleet.activeChain ∧
        idx ∉ fleet.failedIndices := by
  rw [commandedRelay, parseDroneIndex]
  cases namedIndex key with
  | none => simp
  | some i =>
      by_cases hi : i = idx
      · subst hi
        by_cases hknown : fleet.known i = true <;> simp [hknown]
      · by_cases hknown : fleet.known i = true <;> simp [hknown, hi]

/-- The first entry of a list comes first, or after nothing that is in the way. -/
private theorem exists_split_cons {α : Type*} {P Q : α → Prop} {e : α} {rest : List α} :
    (∃ before e' after, e :: rest = before ++ e' :: after ∧ P e' ∧ ∀ x ∈ before, Q x) ↔
      P e ∨ Q e ∧ ∃ before e' after, rest = before ++ e' :: after ∧ P e' ∧ ∀ x ∈ before, Q x := by
  constructor
  · rintro ⟨before, e', after, heq, he', hbefore⟩
    cases before with
    | nil =>
        obtain ⟨rfl, rfl⟩ := List.cons.inj heq
        exact Or.inl he'
    | cons x before =>
        obtain ⟨rfl, rfl⟩ := List.cons.inj heq
        exact Or.inr ⟨hbefore _ List.mem_cons_self, before, e', after, rfl, he',
          fun y hy => hbefore y (List.mem_cons_of_mem _ hy)⟩
  · rintro (he | ⟨he, before, e', after, rfl, he', hbefore⟩)
    · exact ⟨[], e, rest, rfl, he, by simp⟩
    · refine ⟨e :: before, e', after, rfl, he', fun x hx => ?_⟩
      rcases List.mem_cons.mp hx with rfl | hmem
      · exact he
      · exact hbefore x hmem

/-- The commands in an action are the positions for relays in service in the entries before the end
of the loop. -/
theorem mem_actionCommands {fleet : Fleet F} {entries : List (Json F × Json F)} {idx : ℤ}
    {p : Vec3 F} :
    (idx, p) ∈ fleet.actionCommands entries ↔ ∃ before e after, entries = before ++ e :: after ∧
      (fleet.commandedRelay e.1 = some idx ∧ readPosition? e.2 = some p) ∧
      ∀ x ∈ before, (fleet.commandedRelay x.1).isSome = true → endsLoop x.2 = false := by
  induction entries with
  | nil => simp [actionCommands]
  | cons e rest ih =>
      obtain ⟨key, value⟩ := e
      rw [exists_split_cons, ← ih, actionCommands]
      dsimp only
      cases hrelay : fleet.commandedRelay key with
      | none => simp
      | some i =>
          cases hvalues : value.elements? with
          | none => simp [readPosition?, endsLoop, hvalues]
          | some values =>
              -- three values that are no numbers end the loop, a wrong length skips the entry
              by_cases hlength : values.length = 3
              · cases hpoint : pointOf values with
                | none => simp [readPosition?, endsLoop, hvalues, hlength, hpoint]
                | some position =>
                    by_cases hfinite : finitePoint position = true
                    · have hread : readPosition? value = some position := by
                        simp [readPosition?, hvalues, hlength, hpoint, hfinite]
                      have hloop : endsLoop value = false := by
                        simp [endsLoop, hvalues, hlength, hpoint]
                      simp only [hlength, hpoint, hfinite, hread, hloop]
                      grind
                    · simp [readPosition?, endsLoop, hvalues, hlength, hpoint, hfinite]
              · simp [readPosition?, endsLoop, hvalues, hlength]

end Strategy

end Fleet

end Netlab
