import Netlab.Relay.Controller

/-!
# The commands of the packet controller

The callbacks of the control topics: inject a failure, heal a drone, set one on standby, reset the
chain, mission commands, movement patterns, algorithm actions, and the poses of the drones. A message
that names no drone of the inventory changes nothing. The configuration update has a file of its own.
-/

namespace Netlab

variable {F : Type}

namespace Fleet

/-- A drone is in service again. -/
def heal (fleet : Fleet F) (idx : ℤ) : Fleet F :=
  let fleet := fleet.modify idx fun drone =>
    { drone with failed := false, integrated := true, role := "relay" }
  { fleet with failedIndices := fleet.failedIndices.filter (· ≠ idx) }

/-- A drone is put on standby. -/
def setStandby (fleet : Fleet F) (idx : ℤ) : Fleet F :=
  fleet.modify idx fun drone => { drone with role := "standby", integrated := false }

/-- No drone has failed, and every drone that is not on standby is in service. -/
def reset (fleet : Fleet F) : Fleet F :=
  { fleet with
    failedIndices := []
    drones := fleet.drones.mapValues fun _ drone =>
      { drone with
        failed := false
        integrated := if drone.role ≠ "standby" then true else drone.integrated } }

end Fleet

/-- The mission commands. -/
inductive MissionCommand
  | takeoff
  | hold
  | resume
  | land
  | returnHome
  | emergencyStop
  | stopExperiment
  deriving DecidableEq, Repr

/-- The command that a text stands for, or none. -/
def MissionCommand.ofText? : String → Option MissionCommand
  | "takeoff" => some takeoff
  | "hold" => some hold
  | "pause" => some hold
  | "resume" => some resume
  | "land" => some land
  | "return_home" => some returnHome
  | "rtl" => some returnHome
  | "emergency_stop" => some emergencyStop
  | "stop" => some emergencyStop
  | "stop_experiment" => some stopExperiment
  | _ => none

/-- A message that sets how the drones move: the object that its text is, if it is one, and the words
of the text. -/
structure PatternMessage (F : Type) where
  payload : Option (Dict String (Json F))
  words : List String

/-- The movement patterns that exist. -/
def validMovementPatterns : List String :=
  ["hover", "oscillate", "patrol", "figure8", "orbit", "survey", "swarm", "wind", "spiral"]

/-- `_as_float`. -/
def asFloat [PyText F] [PyFloat F] (value : Json F) (default : F) : F := value.toFloat?.getD default

/-- A message of the algorithm bridge, as far as the controller acts on it. The payload is missing
when it is no JSON text. -/
structure ActionMessage (F : Type) where
  algorithmId : String
  sourceRevisionId : String
  payload : Option (Json F)

namespace Controller

/-- Whether a failure request is taken on: the drone exists and is neither failed nor pending. -/
def acceptsFailure (c : Controller F) (idx : ℤ) : Bool :=
  c.fleet.known idx && !(idx ∈ c.fleet.failedIndices) &&
    !(c.pendingFailure.any fun failure => failure.droneIndex = idx)

/-- `_fail_drone_cb`. -/
def failDrone [PyFloat F] (c : Controller F) (idx : ℤ) (now : F) : Controller F :=
  if c.acceptsFailure idx then
    { c with
      pendingFailure := some {
        droneIndex := idx
        detectionDeadline := now + c.settings.failureDetection } }
  else c

/-- The pose of a drone arrives. -/
def pose (c : Controller F) (idx : ℤ) (position : Vec3 F) : Controller F :=
  { c with
    fleet := c.fleet.modify idx fun drone =>
      { drone with currentPosition := position, posed := true } }

/-- `_mission_command_cb`. -/
def missionCommand [PyFloat F] (c : Controller F) : MissionCommand → Controller F
  | .resume => { c with operatorPaused := false, missionMode := .running }
  | .takeoff =>
      -- the target altitude is raised to the minimum, never lowered
      let minimum := PyFloat.max 0.5 c.settings.altitudeStart
      { c with
        fleet := c.fleet.aim fun _ drone =>
          { drone.desiredPosition with z := PyFloat.max drone.desiredPosition.z minimum }
        operatorPaused := false
        missionMode := .takeoff }
  | .hold =>
      { c with
        fleet := c.fleet.aim fun _ drone => drone.currentPosition
        operatorPaused := true
        missionMode := .hold }
  | .land =>
      { c with
        fleet := c.fleet.aim fun _ drone => { drone.currentPosition with z := 0.3 }
        operatorPaused := true
        missionMode := .landing }
  | .returnHome =>
      { c with
        fleet := c.fleet.aim fun idx drone =>
          -- a drone without a recorded home stays where it is
          (c.homePositions.get? idx).getD drone.currentPosition
        operatorPaused := true
        missionMode := .returnHome }
  | .stopExperiment => { c with operatorPaused := true, missionMode := .completed }
  | .emergencyStop =>
      { c with
        fleet := c.fleet.aim fun _ drone => drone.currentPosition
        operatorPaused := true
        missionMode := .emergencyStop }

section

variable [PyText F] [PyFloat F]

/-- The commands that an action message carries. It is ignored unless it comes from the loaded
strategy and is based on the revision of the last observation. -/
def acceptedCommands (c : Controller F) (message : ActionMessage F) : List (ℤ × Vec3 F) :=
  if c.strategyId = none ∨ c.strategyId = some "" ∨ c.strategyId ≠ some message.algorithmId then []
  -- an action for another revision is stale, unless it is for the running one
  else if c.pendingRevisionId ≠ "" ∧ message.sourceRevisionId ≠ c.pendingRevisionId ∧
      message.sourceRevisionId ≠ "runtime-current" then []
  else
    match message.payload.bind Json.dict? with
    | none => []
    | some payload =>
        match (payload.getD "desired_positions" (.obj [])).dict? with
        | none => []
        | some plan => c.fleet.actionCommands (plan.entries.map fun e => (.str e.1, e.2))

/-- The pattern, the amplitude and the speed that a message asks for. -/
def requestedMotion (s : Settings F) (message : PatternMessage F) : String × Option F × Option F :=
  let amplitude (value : Json F) : F := PyFloat.max 0.0 (asFloat value s.movementAmplitude)
  let speed (value : Json F) : F := PyFloat.max 0.05 (asFloat value s.movementSpeed)
  match message.payload with
  | some payload =>
      (PyText.lower F (payload.getTextOr "movement_pattern" "pattern" s.movementPattern),
        (payload.get? "movement_amplitude_m").map amplitude,
        (payload.get? "movement_speed").map speed)
  | none =>
      ((message.words[0]?.map (PyText.lower F)).getD s.movementPattern,
        message.words[1]?.map fun word => amplitude (.str word),
        message.words[2]?.map fun word => speed (.str word))

/-- `_set_pattern_cb`. -/
def setPattern (c : Controller F) (message : PatternMessage F) : Controller F :=
  let (pattern, amplitude, speed) := requestedMotion c.settings message
  if pattern ∈ validMovementPatterns then
    { c with
      settings := { c.settings with
        movementPattern := pattern
        movementAmplitude := amplitude.getD c.settings.movementAmplitude
        movementSpeed := speed.getD c.settings.movementSpeed } }
  else c

/-- A movement pattern changes nothing but settings. -/
theorem setPattern_keeps (c : Controller F) (message : PatternMessage F) :
    ∃ settings, c.setPattern message = { c with settings } := by
  simp only [setPattern]
  split <;> exact ⟨_, rfl⟩

/-- `_algorithm_action_cb`. -/
def algorithmAction (c : Controller F) (message : ActionMessage F) : Controller F :=
  { c with fleet := c.fleet.aimAll (c.acceptedCommands message) }

end

section

variable [PyText F] [PyTrig F]

/-- `_heal_drone_cb`. -/
def healDrone (c : Controller F) (idx : ℤ) (plan : Option (Plan F)) : Option (Controller F) :=
  if c.fleet.known idx then
    { c with fleet := c.fleet.heal idx, pendingFailure := none }.recompute true plan
  else some c

/-- `_standby_drone_cb`. -/
def standbyDrone (c : Controller F) (idx : ℤ) (plan : Option (Plan F)) : Option (Controller F) :=
  if !c.fleet.known idx || idx < 1 || c.fleet.droneCount < idx then some c
  else { c with fleet := c.fleet.setStandby idx }.recompute true plan

/-- `_reset_chain_cb`. -/
def resetChain (c : Controller F) (plan : Option (Plan F)) : Option (Controller F) :=
  { c with fleet := c.fleet.reset, pendingFailure := none }.recompute true plan

end

end Controller

end Netlab
