import Netlab.Relay.InventoryUpdate
import Netlab.Relay.Runs

/-!
# Injected failures

A failure that is injected waits in one place until it is detected (`pendingFailure`), and then the
drone is listed as failed. A second failure takes that place, healing any drone empties it, and an
update can say that the drone works. As long as none of this happens, the failure stays recorded
(`recorded_run`).

The drones of the inventory are those with an index up to the number of drones, in every state that
is reached (`enrolled_run`), so a pending failure is never dropped for want of its drone.
-/

namespace Netlab

variable {F : Type}

namespace Fleet

/-- The inventory holds the drones of the mission. -/
def Enrolled (fleet : Fleet F) : Prop :=
  ∀ idx, fleet.known idx = true ↔ 1 ≤ idx ∧ idx ≤ fleet.droneCount

/-- The same drones, with the same number of drones. -/
structure SameDrones (fleet fleet' : Fleet F) : Prop where
  known : ∀ idx, fleet'.known idx = fleet.known idx
  droneCount : fleet'.droneCount = fleet.droneCount

theorem SameDrones.refl (fleet : Fleet F) : fleet.SameDrones fleet := ⟨fun _ => rfl, rfl⟩

theorem SameDrones.trans {fleet fleet' fleet'' : Fleet F} (h : fleet.SameDrones fleet')
    (h' : fleet'.SameDrones fleet'') : fleet.SameDrones fleet'' :=
  ⟨fun idx => (h'.known idx).trans (h.known idx), h'.droneCount.trans h.droneCount⟩

theorem Enrolled.same {fleet fleet' : Fleet F} (h : fleet.Enrolled)
    (h' : fleet.SameDrones fleet') : fleet'.Enrolled := by
  intro idx
  rw [h'.known, h'.droneCount]
  exact h idx

/-- Changing the entry of a drone keeps the drones. -/
theorem sameDrones_modify (fleet : Fleet F) (idx : ℤ) (f : Drone F → Drone F) :
    fleet.SameDrones (fleet.modify idx f) :=
  ⟨fun i => by simp [known, modify], rfl⟩

theorem sameDrones_markFailed (fleet : Fleet F) (idx : ℤ) :
    fleet.SameDrones (fleet.markFailed idx) :=
  ⟨fun i => by simp [known, markFailed, modify], rfl⟩

theorem sameDrones_integrate (fleet : Fleet F) (joining : List ℤ) :
    fleet.SameDrones (fleet.integrate joining) :=
  ⟨fun i => by simp [known, integrate], rfl⟩

theorem sameDrones_heal (fleet : Fleet F) (idx : ℤ) : fleet.SameDrones (fleet.heal idx) :=
  ⟨fun i => by simp [known, heal, modify], rfl⟩

theorem sameDrones_reset (fleet : Fleet F) : fleet.SameDrones fleet.reset :=
  ⟨fun i => by simp [known, reset], rfl⟩

theorem sameDrones_of_chain {fleet fleet' : Fleet F} (h : fleet'.chain = fleet.chain) :
    fleet.SameDrones fleet' := by
  refine ⟨fun idx => ?_, congrArg RelayChain.droneCount h⟩
  rw [← known_chain, h, known_chain]

theorem failedIndices_of_chain {fleet fleet' : Fleet F} (h : fleet'.chain = fleet.chain) :
    fleet'.failedIndices = fleet.failedIndices :=
  congrArg RelayChain.failedIndices h

/-- A standby drone that takes over is not taken off the list of failed drones. -/
theorem activateBestStandby_spec [PyText F] [PyFloat F] (fleet : Fleet F) (idx : ℤ)
    (selections : List (Json F)) :
    fleet.SameDrones (fleet.activateBestStandby idx selections) ∧
      (fleet.activateBestStandby idx selections).failedIndices = fleet.failedIndices := by
  rw [activateBestStandby]
  split
  · exact ⟨.refl fleet, rfl⟩
  · split
    · exact ⟨.refl fleet, rfl⟩
    · exact ⟨fleet.sameDrones_modify _ _, rfl⟩

end Fleet

namespace Controller

/-- Whether the failure of a drone waits to be detected. -/
def pending (c : Controller F) (idx : ℤ) : Bool :=
  c.pendingFailure.any fun failure => failure.droneIndex = idx

/-- The failure of a drone is pending, or the drone is listed as failed. -/
def Recorded (c : Controller F) (idx : ℤ) : Prop :=
  c.pending idx = true ∨ idx ∈ c.fleet.failedIndices

section

variable [PyText F] [PyTrig F]

/-- A new layout changes neither the drones nor what is known about failures. -/
theorem recompute_keeps {c c' : Controller F} {reset : Bool} {plan : Option (Plan F)}
    (h : c.recompute reset plan = some c') :
    c.fleet.SameDrones c'.fleet ∧ c'.fleet.failedIndices = c.fleet.failedIndices ∧
      c'.pendingFailure = c.pendingFailure := by
  obtain ⟨fleet, pendingRevisionId, haimed, rfl⟩ := recompute_spec h
  have hsame := Fleet.sameDrones_of_chain haimed.chain_eq
  have hfailed := Fleet.failedIndices_of_chain haimed.chain_eq
  cases reset <;> exact ⟨hsame, hfailed, rfl⟩

/-- What a tick does to the failures: nothing, or the one that is due is dropped because its drone
does not exist, or its drone is listed as failed. -/
theorem failures_tick {c : Controller F} {input : TickInput F} {moved : Moved F}
    (h : c.tick input = some moved) :
    c.fleet.SameDrones moved.controller.fleet ∧
      ((moved.controller.pendingFailure = c.pendingFailure ∧
          moved.controller.fleet.failedIndices = c.fleet.failedIndices) ∨
        ∃ idx, c.dueFailure input.now = some idx ∧
          (((c.fleet.known idx = false ∨ c.fleet.droneCount < idx) ∧
              moved.controller.fleet.failedIndices = c.fleet.failedIndices) ∨
            moved.controller.fleet.failedIndices = c.fleet.failedIndices.insert idx)) := by
  obtain ⟨prepared, hprepare, hops, _, _, _, _, _, hkept⟩ := tick_keeps h
  simp only [prepare, bind, Option.bind_eq_some_iff] at hprepare
  obtain ⟨processed, hprocess, hintegrate⟩ := hprepare
  -- loading the strategy and integrating a standby keep drones and failures;
  have hload : (c.loadStrategy input).fleet = c.fleet ∧
      (c.loadStrategy input).pendingFailure = c.pendingFailure := by
    rw [loadStrategy]
    split <;> exact ⟨rfl, rfl⟩
  -- what is due is decided by the pending failure alone
  have hdue : (c.loadStrategy input).dueFailure input.now = c.dueFailure input.now := by
    rw [dueFailure, hload.2, dueFailure]
  have hintegrated : processed.fleet.SameDrones prepared.fleet ∧
      prepared.fleet.failedIndices = processed.fleet.failedIndices ∧
      prepared.pendingFailure = processed.pendingFailure := by
    rw [integrateStandby] at hintegrate
    split at hintegrate
    · obtain rfl := Option.some.inj hintegrate
      exact ⟨.refl _, rfl, rfl⟩
    · obtain ⟨hsame, hfailed, hpending⟩ := recompute_keeps hintegrate
      exact ⟨(processed.fleet.sameDrones_integrate _).trans hsame, hfailed, hpending⟩
  rw [hkept]
  obtain ⟨hsame, hfailed, hpending⟩ := hintegrated
  replace hsame : processed.fleet.SameDrones (prepared.fleet.drain hops) :=
    hsame.trans (Fleet.sameDrones_of_chain (Fleet.chain_drain _ _))
  -- nothing due, a due failure of a drone that is gone, and a due failure that is carried out
  rcases processPendingFailure_spec hprocess with
    ⟨-, rfl⟩ | ⟨idx, hidx, ⟨hgone, rfl⟩ | ⟨-, -, selections, hrecompute⟩⟩
  · rw [hload.1] at hsame hfailed
    rw [hload.2] at hpending
    exact ⟨hsame, Or.inl ⟨hpending, hfailed⟩⟩
  · rw [hdue] at hidx
    rw [hload.1] at hgone
    change (c.loadStrategy input).fleet.SameDrones (prepared.fleet.drain hops) at hsame
    change prepared.fleet.failedIndices = (c.loadStrategy input).fleet.failedIndices at hfailed
    rw [hload.1] at hsame hfailed
    exact ⟨hsame, Or.inr ⟨idx, hidx, Or.inl ⟨hgone, hfailed⟩⟩⟩
  · rw [hdue] at hidx
    obtain ⟨hsame', hfailed', -⟩ := recompute_keeps hrecompute
    obtain ⟨hactivated, hlisted⟩ := Fleet.activateBestStandby_spec
      ((c.loadStrategy input).fleet.markFailed idx) idx selections
    rw [hload.1] at hactivated hlisted hsame' hfailed'
    have hmarked := c.fleet.sameDrones_markFailed idx
    refine ⟨((hmarked.trans hactivated).trans hsame').trans hsame, Or.inr ⟨idx, hidx, Or.inr ?_⟩⟩
    exact hfailed.trans (hfailed'.trans hlisted)

/-- The drones of a started controller are those of the mission. -/
theorem enrolled_start {legacy : LegacyConfig F} {input : StartInput F} {c : Controller F}
    (h : Controller.start legacy input = some c) : c.fleet.Enrolled := by
  simp only [Controller.start, bind, pure, Option.bind_eq_some_iff, Option.some.injEq] at h
  obtain ⟨c', hc', rfl⟩ := h
  refine Fleet.Enrolled.same (fun idx => ?_) (recompute_keeps hc').1
  have hkeys : idx ∈ (RelayChain.start legacy).drones.keys ↔
      1 ≤ idx ∧ idx ≤ (RelayChain.start legacy).droneCount := by
    rw [RelayChain.keys_start, RelayChain.mem_missionIndices]
  rw [Dict.mem_keys_iff, ← Option.isSome_iff_exists] at hkeys
  simpa [Fleet.known, Fleet.ofChain] using hkeys

/-- A callback other than a configuration update keeps the drones. -/
theorem sameDrones_perform {c c' : Controller F} {op : Op F} (h : c.perform op = some c')
    (hupdate : ∀ payload input, op ≠ .updateConfig payload input) :
    c.fleet.SameDrones c'.fleet := by
  cases op with
  | tick input =>
      obtain ⟨moved, hmoved, rfl⟩ := Option.map_eq_some_iff.mp h
      exact (failures_tick hmoved).1
  | fail idx now =>
      obtain rfl := Option.some.inj h
      rw [failDrone]
      split <;> exact .refl _
  | heal idx plan =>
      rw [perform, healDrone] at h
      split at h
      · exact (c.fleet.sameDrones_heal idx).trans (recompute_keeps h).1
      · obtain rfl := Option.some.inj h
        exact .refl _
  | standby idx plan =>
      rw [perform, standbyDrone] at h
      split at h
      · obtain rfl := Option.some.inj h
        exact .refl _
      · exact (c.fleet.sameDrones_modify idx _).trans (recompute_keeps h).1
  | reset plan => exact c.fleet.sameDrones_reset.trans (recompute_keeps h).1
  -- commands and actions only aim, and `sameDrones_of_chain` covers both
  | mission command =>
      obtain rfl := Option.some.inj h
      cases command <;> exact Fleet.sameDrones_of_chain (by simp [missionCommand])
  | setPattern message =>
      obtain rfl := Option.some.inj h
      obtain ⟨_, hkept⟩ := c.setPattern_keeps message
      rw [hkept]
      exact .refl _
  | updateConfig payload input => exact absurd rfl (hupdate payload input)
  | action message =>
      obtain rfl := Option.some.inj h
      exact Fleet.sameDrones_of_chain (Fleet.aimed_aimAll _ _).chain_eq
  | pose idx position =>
      obtain rfl := Option.some.inj h
      exact c.fleet.sameDrones_modify idx _
  | publishStatus =>
      obtain rfl := Option.some.inj h
      exact .refl _

/-- The drones of an updated controller are those of the mission. -/
theorem enrolled_updateConfig {c : Controller F} {payload : Json F} {input : UpdateInput F}
    (h : c.fleet.Enrolled) (hraised : (c.updateConfig payload input).raised = false) :
    (c.updateConfig payload input).controller.fleet.Enrolled := by
  obtain ⟨d, -, hsynced, hrecompute⟩ := updateConfig_succeeds hraised
  obtain ⟨hcount, -, hinside, houtside⟩ := configured_spec hsynced
  refine Fleet.Enrolled.same (fun idx => ?_) (recompute_keeps hrecompute).1
  rw [hcount]
  by_cases hrange : 1 ≤ idx ∧ idx ≤ c.requested d
  · obtain ⟨-, hget⟩ := hinside idx hrange.1 hrange.2
    have hknown : (c.configured d).fleet.known idx = true := by
      rw [← Fleet.known_chain, hget]
      rfl
    exact iff_of_true hknown hrange
  · rw [houtside idx hrange, Bool.and_eq_true, h idx, decide_eq_true_iff]
    exact iff_of_false (fun hold => hrange ⟨hold.1.1, hold.2⟩) hrange

/-- The drones of the inventory are those of the mission in every state that is reached. -/
theorem enrolled_perform {c c' : Controller F} {op : Op F} (h : c.fleet.Enrolled)
    (hperform : c.perform op = some c') : c'.fleet.Enrolled := by
  by_cases hupdate : ∃ payload input, op = .updateConfig payload input
  · obtain ⟨payload, input, rfl⟩ := hupdate
    rw [perform] at hperform
    split at hperform
    · cases hperform
    · rename_i hraised
      obtain rfl := Option.some.inj hperform
      exact enrolled_updateConfig h (Bool.eq_false_of_not_eq_true hraised)
  · exact h.same (sameDrones_perform hperform fun payload input heq =>
      hupdate ⟨payload, input, heq⟩)

theorem enrolled_run {legacy : LegacyConfig F} {input : StartInput F} {ops : List (Op F)}
    {c : Controller F} (h : run (Controller.start legacy input) ops = some c) : c.fleet.Enrolled :=
  run_invariant (fun c => c.fleet.Enrolled) (fun _ _ _ hc hperform => enrolled_perform hc hperform)
    (fun _ hstart => enrolled_start hstart) h

/-! ## Failures in a run -/

/-- The callbacks that end a failure: the drone itself is healed, the chain is reset, or an update
removes the drone. -/
def Releases (c : Controller F) (idx : ℤ) : Op F → Prop
  | .heal healed _ => healed = idx
  | .reset _ => True
  | .updateConfig payload _ => ∃ d, payload.dict? = some d ∧ c.requested d < idx
  | _ => False

/-- The callbacks that lose a failure: while it is pending, another failure is taken on or another
drone is healed; and once it is listed, an update says that the drone works. -/
def Discards (c : Controller F) (idx : ℤ) : Op F → Prop
  | .fail other _ => idx ∉ c.fleet.failedIndices ∧ c.acceptsFailure other = true
  | .heal other _ => other ≠ idx ∧ idx ∉ c.fleet.failedIndices ∧ c.fleet.known other = true
  | .updateConfig payload _ =>
      ∃ d, payload.dict? = some d ∧ c.pending idx = false ∧ c.declaredFailed d idx = false
  | _ => False

omit [PyText F] in
/-- The failure that is due is the one that is pending. -/
theorem eq_of_dueFailure {c : Controller F} {now : F} {idx due : ℤ} (hpending : c.pending idx = true)
    (hdue : c.dueFailure now = some due) : due = idx := by
  rw [pending, Option.any_eq_true_iff_get] at hpending
  obtain ⟨hsome, hidx⟩ := hpending
  rw [dueFailure] at hdue
  split at hdue
  · cases hdue
  · rename_i failure hfailure
    split at hdue
    · cases hdue
    · have hget : c.pendingFailure.get hsome = failure := by simp [hfailure]
      rw [hget, decide_eq_true_iff] at hidx
      exact (Option.some.inj hdue).symm.trans hidx

omit [PyText F] [PyTrig F] in
/-- What leaves the failures alone keeps them recorded. -/
theorem Recorded.of_eq {c c' : Controller F} {idx : ℤ} (h : c.Recorded idx)
    (hpending : c'.pendingFailure = c.pendingFailure)
    (hfailed : c'.fleet.failedIndices = c.fleet.failedIndices) : c'.Recorded idx := by
  rw [Recorded, pending, hpending, hfailed]
  exact h

/-- The failure of a drone of the mission stays recorded unless the callback ends or loses it. -/
theorem recorded_perform {c c' : Controller F} {op : Op F} {idx : ℤ} (henrolled : c.fleet.Enrolled)
    (h : c.Recorded idx) (hidx : 1 ≤ idx ∧ idx ≤ c.fleet.droneCount)
    (hreleases : ¬ c.Releases idx op) (hdiscards : ¬ c.Discards idx op)
    (hperform : c.perform op = some c') :
    c'.Recorded idx ∧ 1 ≤ idx ∧ idx ≤ c'.fleet.droneCount := by
  have hstays : (∀ payload input, op ≠ .updateConfig payload input) →
      1 ≤ idx ∧ idx ≤ c'.fleet.droneCount := fun hupdate => by
    rwa [(sameDrones_perform hperform hupdate).droneCount]
  cases op with
  | tick input =>
      refine ⟨?_, hstays (by simp)⟩
      obtain ⟨moved, hmoved, rfl⟩ := Option.map_eq_some_iff.mp hperform
      rcases (failures_tick hmoved).2 with
        ⟨hpending, hfailed⟩ | ⟨due, hdue, ⟨hgone, hfailed⟩ | hfailed⟩
      · exact h.of_eq hpending hfailed
      · rcases h with hpending | hlisted
        · -- the drone exists, so its failure is not dropped
          rw [eq_of_dueFailure hpending hdue] at hgone
          rcases hgone with hunknown | hbeyond
          · cases ((henrolled idx).mpr hidx).symm.trans hunknown
          · omega
        · exact Or.inr (hfailed ▸ hlisted)
      · refine Or.inr ?_
        rw [hfailed, List.mem_insert_iff]
        rcases h with hpending | hlisted
        · exact Or.inl (eq_of_dueFailure hpending hdue).symm
        · exact Or.inr hlisted
  | fail other now =>
      refine ⟨?_, hstays (by simp)⟩
      obtain rfl := Option.some.inj hperform
      rw [failDrone]
      split
      · rename_i haccepts
        by_contra hlost
        exact hdiscards ⟨fun hlisted => hlost (Or.inr hlisted), haccepts⟩
      · exact h
  | heal other plan =>
      refine ⟨?_, hstays (by simp)⟩
      rw [perform, healDrone] at hperform
      split at hperform
      · rename_i hknown
        have hother : other ≠ idx := hreleases
        have hlisted : idx ∈ c.fleet.failedIndices := by
          by_contra hnot
          exact hdiscards ⟨hother, hnot, hknown⟩
        refine Or.inr ?_
        rw [(recompute_keeps hperform).2.1]
        exact List.mem_filter.mpr ⟨hlisted, by simpa using hother.symm⟩
      · obtain rfl := Option.some.inj hperform
        exact h
  | standby other plan =>
      refine ⟨?_, hstays (by simp)⟩
      rw [perform, standbyDrone] at hperform
      split at hperform
      · obtain rfl := Option.some.inj hperform
        exact h
      · obtain ⟨-, hfailed, hpending⟩ := recompute_keeps hperform
        exact h.of_eq hpending hfailed
  | reset plan => exact absurd trivial hreleases
  | mission command =>
      refine ⟨?_, hstays (by simp)⟩
      obtain rfl := Option.some.inj hperform
      cases command <;> exact h
  | setPattern message =>
      refine ⟨?_, hstays (by simp)⟩
      obtain rfl := Option.some.inj hperform
      obtain ⟨_, hkept⟩ := c.setPattern_keeps message
      rw [hkept]
      exact h
  | updateConfig payload input =>
      rw [perform] at hperform
      split at hperform
      · cases hperform
      · rename_i hraised
        obtain rfl := Option.some.inj hperform
        obtain ⟨d, hd, hsynced, hrecompute⟩ :=
          updateConfig_succeeds (Bool.eq_false_of_not_eq_true hraised)
        obtain ⟨hcount, hpending, hinside, -⟩ := configured_spec hsynced
        obtain ⟨hsame, hfailed, hkept⟩ := recompute_keeps hrecompute
        have hrequested : idx ≤ c.requested d := by
          by_contra hbeyond
          exact hreleases ⟨d, hd, by omega⟩
        refine ⟨?_, hidx.1, by rw [hsame.droneCount, hcount]; exact hrequested⟩
        cases hwaits : c.pending idx with
        | true =>
            -- a pending failure is only given up for a drone that is removed
            refine Or.inl ?_
            rw [pending, hkept, hpending, resize]
            rw [pending] at hwaits
            cases hfailure : c.pendingFailure with
            | none => simp [hfailure] at hwaits
            | some failure =>
                have heq : failure.droneIndex = idx := by simpa [hfailure] using hwaits
                simp [heq, hrequested.not_gt]
        | false =>
            refine Or.inr ?_
            rw [hfailed]
            refine ((hinside idx hidx.1 hrequested).1).mpr ?_
            by_contra hworks
            exact hdiscards ⟨d, hd, hwaits, Bool.eq_false_of_not_eq_true hworks⟩
  | action message =>
      refine ⟨?_, hstays (by simp)⟩
      obtain rfl := Option.some.inj hperform
      exact h.of_eq rfl (Fleet.failedIndices_of_chain (Fleet.aimed_aimAll _ _).chain_eq)
  | pose other position =>
      refine ⟨?_, hstays (by simp)⟩
      obtain rfl := Option.some.inj hperform
      exact h
  | publishStatus =>
      refine ⟨?_, hstays (by simp)⟩
      obtain rfl := Option.some.inj hperform
      exact h

/-- The callbacks that lose a failure do lose it. -/
theorem not_recorded_of_discards {c c' : Controller F} {op : Op F} {idx : ℤ}
    (h : c.Recorded idx) (hidx : 1 ≤ idx) (hreleases : ¬ c.Releases idx op)
    (hdiscards : c.Discards idx op) (hperform : c.perform op = some c') : ¬ c'.Recorded idx := by
  cases op with
  | fail other now =>
      obtain ⟨hworks, haccepts⟩ := hdiscards
      -- a second failure takes the pending slot of the first
      have hpending : c.pending idx = true := h.resolve_right hworks
      have hother : other ≠ idx := by
        rintro rfl
        simp [acceptsFailure, show (c.pendingFailure.any fun failure =>
          failure.droneIndex = other) = true from hpending] at haccepts
      obtain rfl := Option.some.inj hperform
      rw [failDrone, if_pos haccepts, Recorded]
      simp [pending, hother, hworks]
  | heal other plan =>
      -- healing clears the pending failure, whichever drone it is for
      obtain ⟨-, hworks, hknown⟩ := hdiscards
      rw [perform, healDrone, if_pos hknown] at hperform
      obtain ⟨-, hfailed, hpending⟩ := recompute_keeps hperform
      rw [Recorded, pending, hpending, hfailed]
      simp [Fleet.heal, Fleet.modify, hworks]
  | updateConfig payload input =>
      obtain ⟨d, hd, hwaits, hworks⟩ := hdiscards
      rw [perform] at hperform
      split at hperform
      · cases hperform
      · rename_i hraised
        obtain rfl := Option.some.inj hperform
        obtain ⟨d', hd', hsynced, hrecompute⟩ :=
          updateConfig_succeeds (Bool.eq_false_of_not_eq_true hraised)
        obtain rfl := Option.some.inj (hd.symm.trans hd')
        obtain ⟨-, hpending, hinside, -⟩ := configured_spec hsynced
        obtain ⟨-, hfailed, hkept⟩ := recompute_keeps hrecompute
        -- an update that drops the drone would release it, so the drone is still in range
        have hrequested : idx ≤ c.requested d := by
          by_contra hbeyond
          exact hreleases ⟨d, hd, by omega⟩
        rw [Recorded, hfailed, (hinside idx hidx hrequested).1, hworks, pending, hkept, hpending,
          resize]
        rw [pending] at hwaits
        dsimp only
        split
        · simp
        · simp [hwaits]
  | tick input => exact hdiscards.elim
  | standby other plan => exact hdiscards.elim
  | reset plan => exact hdiscards.elim
  | mission command => exact hdiscards.elim
  | setPattern message => exact hdiscards.elim
  | action message => exact hdiscards.elim
  | pose other position => exact hdiscards.elim
  | publishStatus => exact hdiscards.elim

/-- Once a failure is taken on, it is pending or its drone is listed as failed, in every run of
callbacks that neither end it nor lose it. -/
theorem recorded_run {legacy : LegacyConfig F} {start : StartInput F} {before after : List (Op F)}
    {c c' : Controller F} {idx : ℤ} {now : F}
    (hbefore : run (Controller.start legacy start) before = some c)
    (haccepted : c.acceptsFailure idx = true)
    (hops : (c.failDrone idx now).AllSteps
      (fun c op => ¬ c.Releases idx op ∧ ¬ c.Discards idx op) after)
    (hafter : run (some (c.failDrone idx now)) after = some c') : c'.Recorded idx := by
  have henrolled := enrolled_run hbefore
  have hknown : c.fleet.known idx = true := by
    simp only [acceptsFailure, Bool.and_eq_true] at haccepted
    exact haccepted.1.1
  -- an accepted failure is pending at first
  have hinjected : (c.failDrone idx now).Recorded idx ∧
      (c.failDrone idx now).fleet = c.fleet := by
    rw [failDrone, if_pos haccepted]
    exact ⟨Or.inl (by simp [pending]), rfl⟩
  have hinv : c'.fleet.Enrolled ∧ c'.Recorded idx ∧ 1 ≤ idx ∧ idx ≤ c'.fleet.droneCount := by
    refine run_invariant_of_allSteps (fun c => c.fleet.Enrolled ∧ c.Recorded idx ∧ 1 ≤ idx ∧
      idx ≤ c.fleet.droneCount) (fun c op c' hc hop hperform => ?_) ?_ hops hafter
    · obtain ⟨hdrones, hrecorded, hidx⟩ := hc
      exact ⟨enrolled_perform hdrones hperform,
        recorded_perform hdrones hrecorded hidx hop.1 hop.2 hperform⟩
    · rw [hinjected.2]
      exact ⟨henrolled, hinjected.1, (henrolled idx).mp hknown⟩
  exact hinv.2.1

end

/-- A failure outlasts a pose of another drone and is detected. -/
theorem recorded_run_sample :
    ∃ c', run (some (sampleChain.failDrone 1 0)) [.pose 2 ⟨25, 0, 10⟩, .tick (sampleTick 2)] =
      some c' ∧ c'.Recorded 1 := by
  have haccepted : sampleChain.acceptsFailure 1 = true := by decide +kernel
  have hafter : (run (some (sampleChain.failDrone 1 0))
      [.pose 2 ⟨25, 0, 10⟩, .tick (sampleTick 2)]).isSome = true := by
    decide +kernel
  obtain ⟨c', hc'⟩ := Option.isSome_iff_exists.mp hafter
  have hops : (sampleChain.failDrone 1 0).AllSteps
      (fun c op => ¬ c.Releases 1 op ∧ ¬ c.Discards 1 op)
      [.pose 2 ⟨25, 0, 10⟩, .tick (sampleTick 2)] :=
    ⟨fun _ _ => ⟨id, id⟩, fun _ _ => ⟨id, id⟩, trivial⟩
  exact ⟨c', hc', @recorded_run _ _ _ (sampleConfig "chain" 3 1) sampleStart [] _ _ _ _ _
    start_sampleChain haccepted hops hc'⟩

/-- A second failure request replaces the first one, which is neither pending nor listed then. -/
theorem failure_replaced :
    (Controller.start (sampleConfig "chain" 3 1) sampleStart).map (·.acceptsFailure 1) = some true ∧
    (run (Controller.start (sampleConfig "chain" 3 1) sampleStart) [.fail 1 0, .fail 2 1]).map
      (fun c => (c.pending 1, c.fleet.failedIndices)) = some (false, []) := by
  decide +kernel

end Controller

end Netlab
