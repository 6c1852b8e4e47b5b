import Netlab.Relay.Replacement

/-!
# Drones that a configuration deactivates

A configuration can say of a drone that it is not active. The controller keeps that in one place
with the standby role and with not being integrated yet, so the rule that integrates standby drones
that are close also integrates a drone that was deactivated. Moreover the start does not read the
word, and an update that lists the failed drones puts every other relay into service. `staysOut_iff`
says exactly when a deactivated drone stays out.
-/

namespace Netlab

variable {F : Type}

namespace Fleet

/-- The drones that join are relays afterwards. -/
theorem mem_activeChain_integrate {fleet : Fleet F} {joining : List ℤ}
    (h : ∀ idx ∈ joining, idx ∈ fleet.standbyIndices) (k : ℤ) :
    k ∈ (fleet.integrate joining).activeChain ↔ k ∈ joining ∨ k ∈ fleet.activeChain := by
  have hkeys : (fleet.integrate joining).chain.drones.keys = fleet.chain.drones.keys := by
    simp [chain, integrate]
  have hget : (fleet.integrate joining).chain.drones.get? k =
      if k ∈ joining then (fleet.drones.get? k).map fun _ => { role := "relay", integrated := true }
      else fleet.chain.drones.get? k := by
    rw [chain, integrate, Dict.get?_map, Dict.get?_mapValues, Option.map_map, chain, Dict.get?_map]
    split
    · simp [Function.comp_def, runtime]
    · simp [Function.comp_def]
  rw [activeChain, activeChain, RelayChain.mem_activeChain, RelayChain.mem_activeChain, hkeys,
    RelayChain.isRelay, RelayChain.isRelay]
  -- integration changes roles and not what is available
  show _ ∧ fleet.chain.available k = true ∧ _ ↔ _
  by_cases hk : k ∈ joining
  · obtain ⟨hkey, havailable, -⟩ := RelayChain.mem_standbyIndices.mp (h k hk)
    rw [if_pos hk] at hget
    obtain ⟨drone, hdrone⟩ := Dict.mem_keys_iff.mp hkey
    have hsome : (fleet.drones.get? k).isSome = true := by
      rw [← known, ← known_chain, hdrone]
      rfl
    obtain ⟨_, hsome⟩ := Option.isSome_iff_exists.mp hsome
    rw [hget, hsome]
    simp [hk, hkey, havailable]
  · rw [if_neg hk] at hget
    rw [hget]
    simp [hk]

/-- A drone that joins is on standby. -/
theorem mem_standbyIndices_of_joining [PyFloat F] {fleet : Fleet F} {settings : Settings F} {idx : ℤ}
    (h : idx ∈ fleet.joining settings) : idx ∈ fleet.standbyIndices :=
  (List.mem_filter.mp h).1

/-- Other desired positions leave the relays in service alone. -/
theorem Aimed.activeChain_eq {fleet fleet' : Fleet F} (h : fleet.Aimed fleet') :
    fleet'.activeChain = fleet.activeChain :=
  congrArg RelayChain.activeChain h.chain_eq

theorem Aimed.standbyIndices_eq {fleet fleet' : Fleet F} (h : fleet.Aimed fleet') :
    fleet'.standbyIndices = fleet.standbyIndices :=
  congrArg RelayChain.standbyIndices h.chain_eq

end Fleet

namespace Controller

variable [PyText F] [PyTrig F]

/-- Processing a failure puts nobody on standby. -/
theorem standby_processPendingFailure {c c' : Controller F} {input : TickInput F}
    (h : c.processPendingFailure input = some c') {idx : ℤ} (hidx : idx ∈ c'.fleet.standbyIndices) :
    idx ∈ c.fleet.standbyIndices := by
  rcases processPendingFailure_spec h with
    ⟨-, rfl⟩ | ⟨failed, -, ⟨-, rfl⟩ | ⟨hknown, -, selections, hrecompute⟩⟩
  · exact hidx
  · exact hidx
  · rw [(aimed_recompute hrecompute).standbyIndices_eq] at hidx
    have hmarked : (c.fleet.markFailed failed).known failed = true := by
      rw [(c.fleet.sameDrones_markFailed failed).known]
      exact hknown
    have hbefore : idx ∈ (c.fleet.markFailed failed).standbyIndices := by
      change idx ∈ ((c.fleet.markFailed failed).activateBestStandby failed selections).standbyIndices
        at hidx
      rcases Fleet.activateBestStandby_cases hmarked selections with
        ⟨-, heq⟩ | ⟨joined, hjoined, position, heq⟩
      · rwa [heq] at hidx
      · rw [heq, Fleet.mem_standbyIndices_promote hjoined] at hidx
        exact hidx.1
    exact ((c.fleet.mem_standbyIndices_markFailed failed idx).mp hbefore).1

/-- Who is in service after a tick: who was after the failure that was due, and who has joined. -/
theorem mem_activeChain_tick {c processed : Controller F} {input : TickInput F} {moved : Moved F}
    (h : c.tick input = some moved)
    (hprocess : (c.loadStrategy input).processPendingFailure input = some processed) (idx : ℤ) :
    idx ∈ moved.controller.fleet.activeChain ↔
      idx ∈ processed.fleet.joining processed.settings ∨ idx ∈ processed.fleet.activeChain := by
  obtain ⟨processed', fleet, hops, hprocess', haimed, hdrained⟩ := tick_fleet h
  obtain rfl := Option.some.inj (hprocess'.symm.trans hprocess)
  rw [hdrained, Fleet.activeChain, Fleet.chain_drain, ← Fleet.activeChain, haimed.activeChain_eq]
  exact Fleet.mem_activeChain_integrate (fun _ hjoins => Fleet.mem_standbyIndices_of_joining hjoins) idx

/-! ## Coming into service -/

/-- A callback puts a drone into service. -/
def Enters (idx : ℤ) (c : Controller F) (op : Op F) : Prop :=
  idx ∉ c.fleet.activeChain ∧ ∃ c', c.perform op = some c' ∧ idx ∈ c'.fleet.activeChain

/-- In a tick, the drone is promoted for one that has failed: it is in service as soon as the
failure has been processed. -/
def Promotes (idx : ℤ) (c : Controller F) (op : Op F) : Prop :=
  ∃ input processed, op = .tick input ∧
    (c.loadStrategy input).processPendingFailure input = some processed ∧
    idx ∈ processed.fleet.activeChain

/-- In a tick, the drone is out of service but within the activation radius of the nearest relay in
service. -/
def Nears (idx : ℤ) (c : Controller F) (op : Op F) : Prop :=
  ∃ input moved processed, op = .tick input ∧ c.tick input = some moved ∧
    (c.loadStrategy input).processPendingFailure input = some processed ∧
    idx ∈ processed.fleet.joining processed.settings

/-- Ticks and poses. -/
def Op.IsMotion : Op F → Prop
  | .tick _ => True
  | .pose _ _ => True
  | _ => False

omit [PyText F] [PyTrig F] in
/-- Where the drones are does not change who is in service. -/
theorem activeChain_pose (c : Controller F) (moved : ℤ) (position : Vec3 F) :
    (c.pose moved position).fleet.activeChain = c.fleet.activeChain := by
  have hdrones : (c.pose moved position).fleet.chain = c.fleet.chain := by
    have hmap := Dict.map_mapValues (f := Fleet.runtime) (g := fun i (drone : Drone F) =>
      if i = moved then { drone with currentPosition := position, posed := true } else drone)
      (fun _ _ => by split <;> rfl) c.fleet.drones
    rw [Fleet.chain, Fleet.chain, ← hmap]
    rfl
  exact congrArg RelayChain.activeChain hdrones

/-- A tick or a pose puts a drone into service without promoting it exactly if it is a tick that
finds the drone near the relays in service. -/
theorem enters_iff_nears {op : Op F} (hop : op.IsMotion) (idx : ℤ) (c : Controller F) :
    (c.Enters idx op → c.Promotes idx op) ↔ ¬c.Nears idx op := by
  constructor
  · rintro hpromotes ⟨input, moved, processed, rfl, htick, hprocess, hjoins⟩
    have hstandby := Fleet.mem_standbyIndices_of_joining hjoins
    -- the drone was on standby before, so the tick puts it into service
    have hbefore := standby_processPendingFailure hprocess hstandby
    rw [(c.loadStrategy_keeps input).1] at hbefore
    have henters : c.Enters idx (.tick input) :=
      ⟨fun hactive => Fleet.not_mem_standbyIndices hactive hbefore, moved.controller,
        by rw [perform, htick, Option.map_some],
        (mem_activeChain_tick htick hprocess idx).mpr (Or.inl hjoins)⟩
    obtain ⟨input', processed', heq, hprocess', hactive⟩ := hpromotes henters
    cases heq
    obtain rfl := Option.some.inj (hprocess'.symm.trans hprocess)
    exact Fleet.not_mem_standbyIndices hactive hstandby
  · rintro hfar ⟨hbefore, c', hperform, hafter⟩
    cases op with
    | tick input =>
        obtain ⟨moved, htick, rfl⟩ := Option.map_eq_some_iff.mp hperform
        obtain ⟨processed, _, _, hprocess, -⟩ := tick_fleet htick
        rcases (mem_activeChain_tick htick hprocess idx).mp hafter with hjoins | hactive
        · exact absurd ⟨input, moved, processed, rfl, htick, hprocess, hjoins⟩ hfar
        · exact ⟨input, processed, rfl, hprocess, hactive⟩
    | pose moved position =>
        obtain rfl := Option.some.inj hperform
        rw [activeChain_pose] at hafter
        exact absurd hafter hbefore
    | fail _ _ => exact hop.elim
    | heal _ _ => exact hop.elim
    | standby _ _ => exact hop.elim
    | reset _ => exact hop.elim
    | mission _ => exact hop.elim
    | setPattern _ => exact hop.elim
    | updateConfig _ _ => exact hop.elim
    | action _ => exact hop.elim
    | publishStatus => exact hop.elim

/-! ## Configurations -/

/-- A configuration that is applied: the start with one, or an update of a running controller. -/
inductive Configuration (F : Type)
  | start (legacy : LegacyConfig F) (input : StartInput F)
  | update (c : Controller F) (payload : Json F) (input : UpdateInput F)

/-- The controller that has applied a configuration. -/
def Configuration.applied : Configuration F → Option (Controller F)
  | .start legacy input => Controller.start legacy input
  | .update c payload input => c.perform (.updateConfig payload input)

/-- A configuration says of a drone of the mission that it is not active, and not that it has
failed. -/
def Configuration.Deactivates (idx : ℤ) : Configuration F → Prop
  | .start legacy _ =>
      (1 ≤ idx ∧ idx ≤ (RelayChain.settings legacy).droneCount) ∧
        ∃ record, (RelayChain.recordsByIndex legacy.drones).get? idx = some record ∧
          record.active = false ∧ record.failed = false
  | .update c payload _ => ∃ d, payload.dict? = some d ∧ (1 ≤ idx ∧ idx ≤ c.requested d) ∧
      (c.specOf d idx).getBool "active" true = false ∧ c.declaredFailed d idx = false

/-- A configuration does not make a drone a relay in service: at the start it goes by the recorded
roles and the number of relays, and an update goes by the role and, unless it lists the failed
drones, by whether the drone is active. -/
def Configuration.LeavesOut (idx : ℤ) : Configuration F → Prop
  | .start legacy _ => idx ∉ RelayChain.configuredRelays legacy
  | .update c payload _ => ∀ d, payload.dict? = some d → d.get? "failed_indices" = none ∨
      Fleet.updatedRole (c.specOf d idx) (c.relayLimit d) idx = "standby"

/-- Whether a deactivated drone is in service as soon as the configuration is applied. -/
theorem Configuration.leavesOut_iff {configuration : Configuration F} {idx : ℤ} {c : Controller F}
    (happlied : configuration.applied = some c) (h : configuration.Deactivates idx) :
    idx ∉ c.fleet.activeChain ↔ configuration.LeavesOut idx := by
  cases configuration with
  | start legacy input =>
      simp only [applied, Controller.start, bind, pure, Option.bind_eq_some_iff,
        Option.some.injEq] at happlied
      obtain ⟨c', hc', rfl⟩ := happlied
      have hactive : c'.fleet.activeChain = RelayChain.configuredRelays legacy := by
        rw [(aimed_recompute hc').activeChain_eq, Fleet.activeChain, Fleet.chain_ofChain,
          RelayChain.activeChain_start]
        rfl
      -- a cold start reads the roles alone: the relays are the configured ones
      show idx ∉ c'.fleet.activeChain ↔ _
      rw [hactive]
      exact Iff.rfl
  | update before payload input =>
      obtain ⟨d, hd, hrange, hinactive, hworking⟩ := h
      rw [applied, perform] at happlied
      split at happlied
      · cases happlied
      · rename_i hraised
        obtain rfl := Option.some.inj happlied
        obtain ⟨d', hd', hsynced, hrecompute⟩ :=
          updateConfig_succeeds (Bool.eq_false_of_not_eq_true hraised)
        obtain rfl := Option.some.inj (hd'.symm.trans hd)
        obtain ⟨hcount, -, hinside, -⟩ := configured_spec hsynced
        obtain ⟨hfailed, hget⟩ := hinside idx hrange.1 hrange.2
        rw [(aimed_recompute hrecompute).activeChain_eq, Fleet.activeChain,
          RelayChain.mem_activeChain, Dict.mem_keys_iff, RelayChain.isRelay, hget]
        -- in an update the drone is in range and works, so its role alone decides
        have havailable : (before.configured d').fleet.chain.available idx = true := by
          refine decide_eq_true ⟨hrange.1, ?_, fun hlisted => ?_⟩
          · show idx ≤ (before.configured d').fleet.droneCount
            rw [hcount]
            exact hrange.2
          · rw [hfailed.mp hlisted] at hworking
            cases hworking
        have hleaves : (Configuration.update before payload input).LeavesOut idx ↔
            (d'.get? "failed_indices" = none ∨
              Fleet.updatedRole (before.specOf d' idx) (before.relayLimit d') idx = "standby") := by
          constructor
          · intro hall
            exact hall d' hd
          · intro hout d hd'
            obtain rfl := Option.some.inj (hd.symm.trans hd')
            exact hout
        rw [hleaves, havailable, hinactive, hworking]
        cases d'.get? "failed_indices" with
        | none => simp
        | some raw =>
            by_cases hrole : Fleet.updatedRole (before.specOf d' idx) (before.relayLimit d') idx =
                "standby" <;> simp [hrole]

/-- A drone stays out along callbacks: it is not in service, and no callback puts it there unless
the drone is promoted for one that has failed. -/
def StaysOut (idx : ℤ) (c : Controller F) (ops : List (Op F)) : Prop :=
  idx ∉ c.fleet.activeChain ∧ c.AllSteps (fun c op => c.Enters idx op → c.Promotes idx op) ops

/-- A deactivated drone stays out, along ticks and poses after the configuration was applied, if and
only if the configuration does not put it into service by itself and no tick finds the drone near
the relays in service. -/
theorem staysOut_iff {configuration : Configuration F} {idx : ℤ} {c : Controller F} {ops : List (Op F)}
    (happlied : configuration.applied = some c) (h : configuration.Deactivates idx)
    (hops : ∀ op ∈ ops, op.IsMotion) :
    c.StaysOut idx ops ↔
      configuration.LeavesOut idx ∧ c.AllSteps (fun c op => ¬c.Nears idx op) ops := by
  rw [StaysOut, Configuration.leavesOut_iff happlied h]
  refine and_congr_right fun _ => Run.allSteps_congr fun op hop s => ?_
  exact forall₂_congr fun c _ => enters_iff_nears (hops op hop) idx c

/-! ## A chain of three relays -/

/-- An update that deactivates the second drone. -/
def deactivation : Configuration ℚ :=
  .update sampleChain
    (.obj [("drones", .arr [.obj [("index", .int 2), ("active", .bool false)]])])
    { acceptsTimer := fun _ => true, plan := some .nothing }

theorem deactivates_deactivation : deactivation.Deactivates 2 :=
  ⟨_, rfl, by decide +kernel, by decide +kernel, by decide +kernel⟩

/-- The drone is out of reach of the others. -/
theorem staysOut_iff_sample : ∃ c, deactivation.applied = some c ∧
    (c.StaysOut 2 [.tick (sampleTick 1)] ↔ deactivation.LeavesOut 2 ∧
      c.AllSteps (fun c op => ¬c.Nears 2 op) [.tick (sampleTick 1)]) := by
  obtain ⟨c, happlied⟩ : ∃ c, deactivation.applied = some c :=
    Option.isSome_iff_exists.mp (by decide +kernel)
  exact ⟨c, happlied, staysOut_iff happlied deactivates_deactivation (by simp [Op.IsMotion])⟩

/-- When the deactivated drone flies past the first one, the next tick puts it into service. -/
theorem staysOut_fails_near : ¬∀ (configuration : Configuration ℚ) (idx : ℤ) (c : Controller ℚ)
    (ops : List (Op ℚ)), configuration.applied = some c → configuration.Deactivates idx →
    (∀ op ∈ ops, op.IsMotion) → c.StaysOut idx ops := by
  intro hall
  have hrun : ∃ c, deactivation.applied = some c ∧
      (c.pose 2 ⟨12, 0, 10⟩).fleet.activeChain = [1, 3] ∧
      ((c.pose 2 ⟨12, 0, 10⟩).loadStrategy (sampleTick 1)).pendingFailure.isNone = true ∧
      ∃ moved, (c.pose 2 ⟨12, 0, 10⟩).tick (sampleTick 1) = some moved ∧
        moved.controller.fleet.activeChain = [1, 2, 3] := by
    decide +kernel
  obtain ⟨c, happlied, hbefore, hpending, moved, htick, hafter⟩ := hrun
  have hstays := hall deactivation 2 c [.pose 2 ⟨12, 0, 10⟩, .tick (sampleTick 1)] happlied
    deactivates_deactivation (by simp [Op.IsMotion])
  obtain ⟨-, -, hstep, -⟩ := hstays
  have henters : (c.pose 2 ⟨12, 0, 10⟩).Enters 2 (.tick (sampleTick 1)) :=
    ⟨by simp [hbefore], moved.controller, by rw [perform, htick, Option.map_some], by simp [hafter]⟩
  obtain ⟨input, processed, heq, hprocess, hactive⟩ := hstep _ rfl henters
  cases heq
  -- no failure is due, so nobody was promoted
  have hsame : processed.fleet = (c.pose 2 ⟨12, 0, 10⟩).fleet := by
    rw [processPendingFailure, dueFailure, Option.isNone_iff_eq_none.mp hpending] at hprocess
    rw [← Option.some.inj hprocess, (loadStrategy_keeps _ _).1]
  rw [hsame, hbefore] at hactive
  exact absurd hactive (by decide)

end Controller

end Netlab
