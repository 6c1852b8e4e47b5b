import Netlab.Relay.Runs

/-!
# Holding position

A hold and an emergency stop send every drone to where it is, and pause the packets. The pause does
not stop the rest of a tick: a failure that becomes due then, and a standby drone that is close to a
relay, lead to a new layout of the chain, and an algorithm action is carried out as before. What
holds is that the positions stay until one of these happens (`desired_hold`).
-/

namespace Netlab

variable {F : Type}

namespace Controller

variable [PyText F] [PyTrig F]

/-- A callback that leads to no new layout and carries out no commands: a tick at which no failure
of a drone of the mission is due and no standby drone joins, an action that is not accepted, a
request about a drone that does not exist, a failure request, a movement pattern, a pose or a status
report. -/
def Steady (c : Controller F) : Op F → Prop
  | .tick input =>
      (∀ idx, c.dueFailure input.now = some idx →
        c.fleet.known idx = false ∨ c.fleet.droneCount < idx) ∧
      c.fleet.joining c.settings = []
  | .heal idx _ => c.fleet.known idx = false
  | .standby idx _ => c.fleet.known idx = false ∨ idx < 1 ∨ c.fleet.droneCount < idx
  | .action message => c.acceptedCommands message = []
  | .fail _ _ => True
  | .setPattern _ => True
  | .pose _ _ => True
  | .publishStatus => True
  | .reset _ => False
  | .updateConfig _ _ => False
  | .mission _ => False

/-- The part of a steady tick before the packets move leaves the fleet alone. -/
theorem fleet_prepare_of_steady {c prepared : Controller F} {input : TickInput F}
    (h : c.Steady (.tick input)) (hprepare : c.prepare input = some prepared) :
    prepared.fleet = c.fleet := by
  obtain ⟨hdue, hjoining⟩ := h
  simp only [prepare, bind, Option.bind_eq_some_iff] at hprepare
  obtain ⟨processed, hprocess, hintegrate⟩ := hprepare
  have hload : (c.loadStrategy input).fleet = c.fleet ∧
      (c.loadStrategy input).settings = c.settings ∧
      (c.loadStrategy input).dueFailure input.now = c.dueFailure input.now := by
    rw [loadStrategy]
    split <;> exact ⟨rfl, rfl, rfl⟩
  have hprocessed : processed.fleet = c.fleet ∧ processed.settings = c.settings := by
    rcases processPendingFailure_spec hprocess with
      ⟨-, rfl⟩ | ⟨idx, hidx, ⟨-, rfl⟩ | ⟨hknown, hle, -⟩⟩
    · exact ⟨hload.1, hload.2.1⟩
    · exact ⟨hload.1, hload.2.1⟩
    · rw [hload.2.2] at hidx
      rw [hload.1] at hknown hle
      rcases hdue idx hidx with hunknown | hbeyond
      · cases hknown.symm.trans hunknown
      · omega
  rw [integrateStandby, hprocessed.1, hprocessed.2, if_pos hjoining] at hintegrate
  rw [← Option.some.inj hintegrate, hprocessed.1]

/-- A steady callback moves no desired position. -/
theorem desired_perform_of_steady {c c' : Controller F} {op : Op F} (h : c.Steady op)
    (hperform : c.perform op = some c') (idx : ℤ) : c'.fleet.desired idx = c.fleet.desired idx := by
  cases op with
  | tick input =>
      obtain ⟨moved, hmoved, rfl⟩ := Option.map_eq_some_iff.mp hperform
      obtain ⟨prepared, hprepare, hops, _, _, _, _, _, hkept⟩ := tick_keeps hmoved
      -- moving the packets drains batteries, so only the preparation could aim
      rw [hkept, ← fleet_prepare_of_steady h hprepare]
      exact Fleet.desired_drain _ _ _
  | fail failed now =>
      obtain rfl := Option.some.inj hperform
      rw [failDrone]
      split <;> rfl
  | heal healed plan =>
      rw [perform, healDrone, if_neg (by simp [show c.fleet.known healed = false from h])] at hperform
      rw [Option.some.inj hperform]
  | standby chosen plan =>
      -- the guard refuses the request for one of its three reasons
      have hinvalid : (!c.fleet.known chosen || chosen < 1 || c.fleet.droneCount < chosen) = true := by
        rcases h with hunknown | hlow | hbeyond
        · simp [hunknown]
        · simp [hlow]
        · simp [hbeyond]
      rw [perform, standbyDrone, if_pos hinvalid] at hperform
      rw [Option.some.inj hperform]
  | setPattern message =>
      obtain rfl := Option.some.inj hperform
      obtain ⟨_, hkept⟩ := c.setPattern_keeps message
      rw [hkept]
  | action message =>
      obtain rfl := Option.some.inj hperform
      rw [algorithmAction, show c.acceptedCommands message = [] from h]
      rfl
  | pose moved position =>
      obtain rfl := Option.some.inj hperform
      -- a pose writes the current position, not the desired one
      rw [pose, Fleet.desired, Fleet.modify, Dict.get?_mapValues, Option.map_map, Fleet.desired]
      congr 1
      funext drone
      by_cases hmoved : idx = moved <;> simp [hmoved]
  | publishStatus =>
      obtain rfl := Option.some.inj hperform
      rfl
  | reset plan => exact h.elim
  | updateConfig payload input => exact h.elim
  | mission command => exact h.elim

/-- After a hold or an emergency stop, in every run of steady callbacks, the desired positions are
those that the command has set: where the drones were at that time. -/
theorem desired_hold {c c' : Controller F} {command : MissionCommand} {ops : List (Op F)}
    (hcommand : command = .hold ∨ command = .emergencyStop)
    (hsteady : (c.missionCommand command).AllSteps Steady ops)
    (hrun : run (some (c.missionCommand command)) ops = some c') (idx : ℤ) :
    c'.fleet.desired idx = (c.missionCommand command).fleet.desired idx ∧
      c'.fleet.desired idx = (c.fleet.drones.get? idx).map Drone.currentPosition := by
  have hkept : c'.fleet.desired idx = (c.missionCommand command).fleet.desired idx := by
    refine run_invariant_of_allSteps
      (fun c' => c'.fleet.desired idx = (c.missionCommand command).fleet.desired idx)
      (fun before op after hbefore hop hperform => ?_) rfl hsteady hrun
    rw [desired_perform_of_steady hop hperform, hbefore]
  refine ⟨hkept, hkept.trans ?_⟩
  rcases hcommand with rfl | rfl
  · exact Fleet.desired_aim _ _ _
  · exact Fleet.desired_aim _ _ _

/-- A failure that was injected, and is not due yet, does not disturb a stop. -/
theorem desired_hold_sample :
    ∃ c', run (some (sampleChain.missionCommand .emergencyStop))
        [.fail 1 0, .tick (sampleTick 1)] = some c' ∧
      c'.fleet.desired 2 = (sampleChain.missionCommand .emergencyStop).fleet.desired 2 := by
  have hrun : (run (some (sampleChain.missionCommand .emergencyStop))
      [.fail 1 0, .tick (sampleTick 1)]).isSome = true := by
    decide +kernel
  have hdue : ((sampleChain.missionCommand .emergencyStop).failDrone 1 0).dueFailure 1 = none := by
    decide +kernel
  have hjoining : ((sampleChain.missionCommand .emergencyStop).failDrone 1 0).fleet.joining
      ((sampleChain.missionCommand .emergencyStop).failDrone 1 0).settings = [] := by
    decide +kernel
  obtain ⟨c', hc'⟩ := Option.isSome_iff_exists.mp hrun
  refine ⟨c', hc', (desired_hold (Or.inr rfl) ?_ hc' 2).1⟩
  refine ⟨fun _ _ => trivial, fun stopped hstopped => ?_, trivial⟩
  obtain rfl := Option.some.inj hstopped
  exact ⟨fun idx hidx => absurd (hdue.symm.trans hidx) (by simp), hjoining⟩

/-- A failure that becomes due after an emergency stop sends the other drones elsewhere. -/
theorem desired_moves_after_stop :
    (run (Controller.start (sampleConfig "chain" 3 1) sampleStart)
        [.fail 1 0, .mission .emergencyStop]).bind (fun c => c.fleet.desired 2) =
      some ⟨20, 0, 10⟩ ∧
    (run (Controller.start (sampleConfig "chain" 3 1) sampleStart)
        [.fail 1 0, .mission .emergencyStop, .tick (sampleTick 2)]).bind
          (fun c => c.fleet.desired 2) = some ⟨30, 0, 10⟩ := by
  decide +kernel

end Controller

end Netlab
