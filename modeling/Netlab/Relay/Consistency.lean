import Netlab.Relay.Failures

/-!
# The inventory of the packet controller

The controller keeps the drones, their failure flags, the list of failed drones and the numbers of
relays and standby drones apart. `Consistent` says that they agree. Every callback keeps that, and
so does the start (`consistent_run_iff`), unless all drones are recorded as standby: then the start
counts one relay too many, because it never counts fewer than one.
-/

namespace Netlab

variable {F : Type}

namespace Fleet

/-- The failure flag of a drone, if there is one. -/
def failedFlag (fleet : Fleet F) (idx : ℤ) : Option Bool := (fleet.drones.get? idx).map Drone.failed

/-- The failed indices are those of the drones whose flag is set. -/
def Flagged (fleet : Fleet F) : Prop :=
  ∀ idx, idx ∈ fleet.failedIndices ↔ fleet.failedFlag idx = some true

/-- The relays and the standby drones are counted as all drones. -/
def Counted (fleet : Fleet F) : Prop := fleet.relayCount + fleet.standbyCount = fleet.droneCount

/-- What is kept of the inventory agrees. -/
structure Consistent (fleet : Fleet F) : Prop where
  /-- the drones have the indices up to the number of drones -/
  enrolled : ∀ idx, fleet.known idx = true ↔ 1 ≤ idx ∧ idx ≤ fleet.droneCount
  /-- a drone is flagged if and only if it is listed as failed -/
  flag : ∀ idx drone, fleet.drones.get? idx = some drone →
    (drone.failed = true ↔ idx ∈ fleet.failedIndices)
  /-- only drones that exist are listed as failed -/
  listed : ∀ idx ∈ fleet.failedIndices, fleet.known idx = true
  /-- every drone is counted once -/
  counted : fleet.relayCount + fleet.standbyCount = fleet.droneCount

theorem consistent_iff {fleet : Fleet F} :
    fleet.Consistent ↔ fleet.Enrolled ∧ fleet.Flagged ∧ fleet.Counted := by
  constructor
  · intro h
    refine ⟨h.enrolled, fun idx => ?_, h.counted⟩
    constructor
    · intro hlisted
      obtain ⟨drone, hdrone⟩ := Option.isSome_iff_exists.mp (h.listed idx hlisted)
      rw [failedFlag, hdrone, Option.map_some, (h.flag idx drone hdrone).mpr hlisted]
    · intro hflag
      obtain ⟨drone, hdrone, hfailed⟩ := Option.map_eq_some_iff.mp hflag
      exact (h.flag idx drone hdrone).mp hfailed
  · rintro ⟨henrolled, hflagged, hcounted⟩
    refine ⟨henrolled, fun idx drone hdrone => ?_, fun idx hidx => ?_, hcounted⟩
    · rw [hflagged idx, failedFlag, hdrone, Option.map_some, Option.some_inj]
    · obtain ⟨drone, hdrone, -⟩ := Option.map_eq_some_iff.mp ((hflagged idx).mp hidx)
      exact Option.isSome_iff_exists.mpr ⟨drone, hdrone⟩

/-- The numbers of drones are the same. -/
structure SameCounts (fleet fleet' : Fleet F) : Prop where
  droneCount : fleet'.droneCount = fleet.droneCount
  relayCount : fleet'.relayCount = fleet.relayCount
  standbyCount : fleet'.standbyCount = fleet.standbyCount

theorem SameCounts.refl (fleet : Fleet F) : fleet.SameCounts fleet := ⟨rfl, rfl, rfl⟩

theorem SameCounts.trans {fleet fleet' fleet'' : Fleet F} (h : fleet.SameCounts fleet')
    (h' : fleet'.SameCounts fleet'') : fleet.SameCounts fleet'' :=
  ⟨h'.droneCount.trans h.droneCount, h'.relayCount.trans h.relayCount,
    h'.standbyCount.trans h.standbyCount⟩

theorem Counted.same {fleet fleet' : Fleet F} (h : fleet.Counted) (h' : fleet.SameCounts fleet') :
    fleet'.Counted := by
  rw [Counted, h'.relayCount, h'.standbyCount, h'.droneCount]
  exact h

theorem Aimed.sameCounts {fleet fleet' : Fleet F} (h : fleet.Aimed fleet') :
    fleet.SameCounts fleet' := by
  obtain ⟨target, rfl⟩ := h
  exact ⟨rfl, rfl, rfl⟩

/-! ## The failure flags -/

/-- Other desired positions leave the flags alone. -/
theorem Aimed.failedFlag_eq {fleet fleet' : Fleet F} (h : fleet.Aimed fleet') (idx : ℤ) :
    fleet'.failedFlag idx = fleet.failedFlag idx := by
  obtain ⟨target, rfl⟩ := h
  rw [failedFlag, Fleet.aim, Dict.get?_mapValues, Option.map_map]
  rfl

theorem Flagged.aimed {fleet fleet' : Fleet F} (h : fleet.Flagged) (h' : fleet.Aimed fleet') :
    fleet'.Flagged := by
  intro idx
  rw [h'.failedFlag_eq, failedIndices_of_chain h'.chain_eq]
  exact h idx

theorem Flagged.drain [PyFloat F] {fleet : Fleet F} (h : fleet.Flagged) (hops : List Hop) :
    (fleet.drain hops).Flagged := by
  intro idx
  rw [failedFlag, Fleet.drain, Dict.get?_mapValues, Option.map_map]
  exact h idx

/-- The flags after one drone has changed. -/
theorem failedFlag_modify (fleet : Fleet F) (idx i : ℤ) (f : Drone F → Drone F) :
    (fleet.modify idx f).failedFlag i =
      if i = idx then (fleet.drones.get? i).map fun drone => (f drone).failed
      else fleet.failedFlag i := by
  rw [failedFlag, modify, Dict.get?_mapValues, Option.map_map]
  by_cases hi : i = idx
  · simp [hi, Function.comp_def]
  · simp [hi, failedFlag, Function.comp_def]

/-- A change that does not touch the flag. -/
theorem Flagged.modify {fleet : Fleet F} (h : fleet.Flagged) (idx : ℤ) {f : Drone F → Drone F}
    (hf : ∀ drone, (f drone).failed = drone.failed) : (fleet.modify idx f).Flagged := by
  intro i
  rw [failedFlag_modify]
  simp only [hf]
  split <;> exact h i

theorem Flagged.markFailed {fleet : Fleet F} (h : fleet.Flagged) {idx : ℤ}
    (hknown : fleet.known idx = true) : (fleet.markFailed idx).Flagged := by
  intro i
  obtain ⟨drone, hdrone⟩ := Option.isSome_iff_exists.mp hknown
  show i ∈ fleet.failedIndices.insert idx ↔ (fleet.modify idx _).failedFlag i = some true
  rw [failedFlag_modify, List.mem_insert_iff]
  by_cases hi : i = idx
  · simp [hi, hdrone]
  · simp only [hi, false_or, if_false]
    exact h i

/-- A drone that is not listed as failed can be promoted. -/
theorem Flagged.promote {fleet : Fleet F} (h : fleet.Flagged) {idx : ℤ}
    (hidx : idx ∉ fleet.failedIndices) (position : Vec3 F) : (fleet.promote idx position).Flagged := by
  intro i
  show i ∈ fleet.failedIndices ↔ (fleet.modify idx _).failedFlag i = some true
  rw [failedFlag_modify]
  by_cases hi : i = idx
  · simp [hi, hidx]
  · simp only [hi, if_false]
    exact h i

theorem Flagged.integrate {fleet : Fleet F} (h : fleet.Flagged) (joining : List ℤ) :
    (fleet.integrate joining).Flagged := by
  intro i
  have hflag : (fleet.integrate joining).failedFlag i = fleet.failedFlag i := by
    rw [failedFlag, Fleet.integrate, Dict.get?_mapValues, Option.map_map, failedFlag]
    congr 1
    funext drone
    dsimp only [Function.comp_apply]
    split <;> rfl
  rw [hflag]
  exact h i

theorem Flagged.heal {fleet : Fleet F} (h : fleet.Flagged) (idx : ℤ) : (fleet.heal idx).Flagged := by
  intro i
  show i ∈ fleet.failedIndices.filter (· ≠ idx) ↔ (fleet.modify idx _).failedFlag i = some true
  rw [failedFlag_modify, List.mem_filter, decide_eq_true_eq]
  by_cases hi : i = idx
  · simp [hi]
  · simp only [hi, ne_eq, not_false_eq_true, and_true, if_false]
    exact h i

theorem flagged_reset (fleet : Fleet F) : fleet.reset.Flagged := by
  intro i
  show i ∈ [] ↔ _
  rw [failedFlag, Fleet.reset, Dict.get?_mapValues, Option.map_map]
  simp

/-- Drones beyond the requested number are taken off the list with their flags. -/
theorem Flagged.prune {fleet : Fleet F} (h : fleet.Flagged) (requested : ℤ) :
    (fleet.prune requested).Flagged := by
  intro i
  show i ∈ fleet.failedIndices.filter _ ↔
    ((fleet.drones.restrict fun idx => idx ≤ requested).get? i).map Drone.failed = some true
  rw [List.mem_filter, Dict.get?_restrict]
  have hi := h i
  rw [failedFlag] at hi
  by_cases hle : i ≤ requested
  · simp [hle, hi, not_lt.mpr hle]
  · simp only [hle, decide_false, Bool.false_eq_true, if_false, Option.map_none, reduceCtorEq,
      iff_false, not_and]
    intro hlisted
    obtain ⟨drone, hdrone, -⟩ := Option.map_eq_some_iff.mp (hi.mp hlisted)
    simp [known, hdrone, not_le.mp hle]

section

variable [PyText F] [PyFloat F]

/-- What becomes of the flags when the record of a drone is taken over. -/
theorem Flagged.takeSpec {fleet : Fleet F} (h : fleet.Flagged) {idx : ℤ}
    (hknown : fleet.known idx = true) (spec : Dict String (Json F)) (limit : ℤ) :
    (fleet.takeSpec spec limit idx).Flagged := by
  intro i
  rw [mem_failedIndices_takeSpec]
  by_cases hi : i = idx
  · subst hi
    obtain ⟨drone, hdrone⟩ := Option.isSome_iff_exists.mp hknown
    rw [if_pos rfl, failedFlag, get?_takeSpec_self, hdrone, Option.map_some, Option.map_some,
      Option.some_inj]
    rfl
  · rw [if_neg hi, failedFlag, get?_takeSpec_of_ne _ _ _ hi]
    exact h i

/-- The failed indices of an update set the flags. -/
theorem Enrolled.flagged_takeFailedIndices {fleet : Fleet F} (h : fleet.Enrolled) (raw : Json F) :
    (fleet.takeFailedIndices raw).Flagged := by
  intro i
  have hflag : (fleet.takeFailedIndices raw).failedFlag i = (fleet.drones.get? i).map fun _ =>
      decide (i ∈ (fleet.takeFailedIndices raw).failedIndices) := by
    simp only [failedFlag, takeFailedIndices, Dict.get?_mapValues, Option.map_map, List.mem_dedup]
    rfl
  rw [hflag]
  constructor
  · intro hlisted
    have hrange := (mem_failedIndices_takeFailedIndices.mp hlisted).2
    obtain ⟨drone, hdrone⟩ := Option.isSome_iff_exists.mp ((h i).mpr hrange)
    simp [hdrone, hlisted]
  · intro hflag
    obtain ⟨_, -, hlisted⟩ := Option.map_eq_some_iff.mp hflag
    exact of_decide_eq_true hlisted

theorem sameDrones_takeFailedIndices (fleet : Fleet F) (raw : Json F) :
    fleet.SameDrones (fleet.takeFailedIndices raw) :=
  ⟨fun i => by simp [known, takeFailedIndices], rfl⟩

omit [PyText F] in
/-- A smallest element is an element. -/
theorem minBy_mem {key : ℤ → F} {xs : List ℤ} {x : ℤ} (h : minBy key xs = some x) : x ∈ xs := by
  cases xs with
  | nil => cases h
  | cons first rest =>
      obtain rfl := Option.some.inj h
      -- the best so far is the first element or one of those looked at
      have hfold : ∀ (rest : List ℤ) (best : ℤ), rest.foldl (fun best y =>
          if PyFloat.lt (key y) (key best) then y else best) best ∈ best :: rest := by
        intro rest
        induction rest with
        | nil => exact fun best => List.mem_cons_self
        | cons y rest ih =>
            intro best
            rw [List.foldl_cons]
            have hmem := ih (if PyFloat.lt (key y) (key best) then y else best)
            split at hmem <;> grind
      exact hfold rest first

omit [PyText F] in
/-- There is a smallest element unless there is none at all. -/
theorem minBy_isSome {key : ℤ → F} {xs : List ℤ} (h : xs ≠ []) : (minBy key xs).isSome = true := by
  cases xs with
  | nil => exact absurd rfl h
  | cons first rest => rfl

/-- A drone that replaces another is a standby drone. -/
theorem replacement_mem {fleet : Fleet F} {position : Vec3 F} {selections : List (Json F)} {idx : ℤ}
    (h : fleet.replacement position selections = some idx) : idx ∈ fleet.standbyIndices := by
  rw [replacement, Option.or_eq_some_iff] at h
  rcases h with hselected | ⟨-, hnearest⟩
  · rw [strategySelectedStandby] at hselected
    simpa using List.find?_some hselected
  · exact minBy_mem hnearest

/-- After the failure of a drone the flags agree, whoever replaces it. -/
theorem Flagged.replaced {fleet : Fleet F} (h : fleet.Flagged) {idx : ℤ}
    (hknown : fleet.known idx = true) (selections : List (Json F)) :
    ((fleet.markFailed idx).activateBestStandby idx selections).Flagged := by
  have hmarked := h.markFailed hknown
  rw [activateBestStandby]
  split
  · exact hmarked
  · split
    · exact hmarked
    · rename_i replacement hreplacement
      refine hmarked.promote (fun hlisted => ?_) _
      have havailable := (List.mem_filter.mp (replacement_mem hreplacement)).2
      rw [Bool.and_eq_true] at havailable
      exact (of_decide_eq_true havailable.1).2.2 hlisted

theorem sameCounts_activateBestStandby (fleet : Fleet F) (idx : ℤ) (selections : List (Json F)) :
    fleet.SameCounts (fleet.activateBestStandby idx selections) := by
  rw [activateBestStandby]
  split
  · exact .refl fleet
  · split <;> exact ⟨rfl, rfl, rfl⟩

end

end Fleet

namespace Controller

variable [PyText F] [PyTrig F]

/-! ## What the callbacks do to the fleet -/

/-- A new layout only changes desired positions. -/
theorem aimed_recompute {c c' : Controller F} {reset : Bool} {plan : Option (Plan F)}
    (h : c.recompute reset plan = some c') : c.fleet.Aimed c'.fleet := by
  obtain ⟨fleet, pendingRevisionId, haimed, rfl⟩ := recompute_spec h
  cases reset <;> exact haimed

/-- Integrating the standby drones that are close is changing their roles and laying out anew. -/
theorem integrateStandby_spec {c c' : Controller F} {plan : Option (Plan F)}
    (h : c.integrateStandby plan = some c') :
    (c.fleet.integrate (c.fleet.joining c.settings)).Aimed c'.fleet := by
  rw [integrateStandby] at h
  split at h
  · rename_i hnone
    obtain rfl := Option.some.inj h
    have hsame : c.fleet.integrate [] = c.fleet := by
      rw [Fleet.integrate, Dict.mapValues_eq_self fun _ _ => by simp]
    rw [hnone, hsame]
    exact .refl _
  · exact aimed_recompute h

/-- What a tick does to the fleet: the failure that is due is processed, then standby drones are
integrated, and last the batteries are drained. -/
theorem tick_fleet {c : Controller F} {input : TickInput F} {moved : Moved F}
    (h : c.tick input = some moved) :
    ∃ processed fleet hops, (c.loadStrategy input).processPendingFailure input = some processed ∧
      (processed.fleet.integrate (processed.fleet.joining processed.settings)).Aimed fleet ∧
      moved.controller.fleet = fleet.drain hops := by
  obtain ⟨prepared, hprepare, hops, _, _, _, _, _, hkept⟩ := tick_keeps h
  simp only [prepare, bind, Option.bind_eq_some_iff] at hprepare
  obtain ⟨processed, hprocess, hintegrate⟩ := hprepare
  exact ⟨processed, prepared.fleet, hops, hprocess, integrateStandby_spec hintegrate, by rw [hkept]⟩

omit [PyText F] [PyTrig F] in
/-- Loading a strategy leaves the fleet, its settings and the pending failure alone. -/
theorem loadStrategy_keeps (c : Controller F) (input : TickInput F) :
    (c.loadStrategy input).fleet = c.fleet ∧ (c.loadStrategy input).settings = c.settings ∧
      (c.loadStrategy input).pendingFailure = c.pendingFailure := by
  rw [loadStrategy]
  split <;> exact ⟨rfl, rfl, rfl⟩

/-- What processing a failure keeps of the flags and the numbers. -/
theorem processPendingFailure_keeps {c c' : Controller F} {input : TickInput F}
    (hflagged : c.fleet.Flagged) (h : c.processPendingFailure input = some c') :
    c'.fleet.Flagged ∧ c.fleet.SameCounts c'.fleet := by
  rcases processPendingFailure_spec h with
    ⟨-, rfl⟩ | ⟨idx, -, ⟨-, rfl⟩ | ⟨hknown, -, selections, hrecompute⟩⟩
  · exact ⟨hflagged, .refl _⟩
  · exact ⟨hflagged, .refl _⟩
  · have haimed := aimed_recompute hrecompute
    refine ⟨(hflagged.replaced hknown selections).aimed haimed, ?_⟩
    have hcounts : c.fleet.SameCounts (c.fleet.markFailed idx) := ⟨rfl, rfl, rfl⟩
    exact (hcounts.trans (Fleet.sameCounts_activateBestStandby _ _ _)).trans haimed.sameCounts

/-- A callback other than a configuration update keeps the flags and the numbers. -/
theorem flagged_perform {c c' : Controller F} {op : Op F} (hflagged : c.fleet.Flagged)
    (h : c.perform op = some c') (hupdate : ∀ payload input, op ≠ .updateConfig payload input) :
    c'.fleet.Flagged ∧ c.fleet.SameCounts c'.fleet := by
  cases op with
  | tick input =>
      obtain ⟨moved, hmoved, rfl⟩ := Option.map_eq_some_iff.mp h
      -- a pending failure and a joining standby keep the flags; moving only aims
      obtain ⟨processed, fleet, hops, hprocess, haimed, hdrained⟩ := tick_fleet hmoved
      obtain ⟨hfleet, -, -⟩ := c.loadStrategy_keeps input
      obtain ⟨hprocessed, hcounts⟩ :=
        processPendingFailure_keeps (hfleet.symm ▸ hflagged) hprocess
      rw [hfleet] at hcounts
      have hjoined : processed.fleet.SameCounts
          (processed.fleet.integrate (processed.fleet.joining processed.settings)) := ⟨rfl, rfl, rfl⟩
      have hlaid := (hcounts.trans hjoined).trans haimed.sameCounts
      rw [hdrained]
      exact ⟨((hprocessed.integrate _).aimed haimed).drain hops, hlaid.trans ⟨rfl, rfl, rfl⟩⟩
  | fail idx now =>
      obtain rfl := Option.some.inj h
      rw [failDrone]
      split <;> exact ⟨hflagged, .refl _⟩
  | heal idx plan =>
      rw [perform, healDrone] at h
      split at h
      · have haimed := aimed_recompute h
        have hcounts : c.fleet.SameCounts (c.fleet.heal idx) := ⟨rfl, rfl, rfl⟩
        exact ⟨(hflagged.heal idx).aimed haimed, hcounts.trans haimed.sameCounts⟩
      · obtain rfl := Option.some.inj h
        exact ⟨hflagged, .refl _⟩
  | standby idx plan =>
      rw [perform, standbyDrone] at h
      split at h
      · obtain rfl := Option.some.inj h
        exact ⟨hflagged, .refl _⟩
      · have haimed := aimed_recompute h
        have hcounts : c.fleet.SameCounts (c.fleet.setStandby idx) := ⟨rfl, rfl, rfl⟩
        -- `setStandby` writes the role alone
        have hset : (c.fleet.setStandby idx).Flagged := hflagged.modify idx fun _ => rfl
        exact ⟨hset.aimed haimed, hcounts.trans haimed.sameCounts⟩
  | reset plan =>
      have haimed := aimed_recompute h
      have hcounts : c.fleet.SameCounts c.fleet.reset := ⟨rfl, rfl, rfl⟩
      exact ⟨(Fleet.flagged_reset _).aimed haimed, hcounts.trans haimed.sameCounts⟩
  | mission command =>
      obtain rfl := Option.some.inj h
      have haimed : c.fleet.Aimed (c.missionCommand command).fleet := by
        cases command <;> first | exact .refl _ | exact .aim _ _
      exact ⟨hflagged.aimed haimed, haimed.sameCounts⟩
  | setPattern message =>
      obtain rfl := Option.some.inj h
      obtain ⟨_, hkept⟩ := c.setPattern_keeps message
      rw [hkept]
      exact ⟨hflagged, .refl _⟩
  | updateConfig payload input => exact absurd rfl (hupdate payload input)
  | action message =>
      obtain rfl := Option.some.inj h
      have haimed := Fleet.aimed_aimAll c.fleet (c.acceptedCommands message)
      exact ⟨hflagged.aimed haimed, haimed.sameCounts⟩
  | pose idx position =>
      obtain rfl := Option.some.inj h
      exact ⟨hflagged.modify idx fun _ => rfl, ⟨rfl, rfl, rfl⟩⟩
  | publishStatus =>
      obtain rfl := Option.some.inj h
      exact ⟨hflagged, .refl _⟩

/-! ## Configuration updates -/

/-- The flags agree at every turn of the loop over the drones. -/
theorem flagged_syncInventory {c : Controller F} (h : c.fleet.Flagged) (total relay : ℤ)
    (specs : Option (List (Json F))) : (c.syncInventory total relay specs).controller.fleet.Flagged := by
  refine syncInventory_keeps (fun c => c.fleet.Flagged) (h.prune _) fun c idx _ _ hc => ?_
  refine syncDrone_keeps (fun c => c.fleet.Flagged) hc fun fleet hensured => ?_
  obtain ⟨⟨drone, hdroneAt, hget⟩, ⟨drones, hrest⟩, hothers⟩ := Fleet.ensureDrone_spec hensured
  refine Fleet.Flagged.takeSpec (fun i => ?_) (Option.isSome_iff_exists.mpr ⟨drone, hget⟩) _ _
  by_cases hold : c.fleet.known idx = true
  · rw [Fleet.ensureDrone, if_pos hold] at hensured
    obtain rfl := Option.some.inj hensured
    exact hc i
  · -- a new drone is neither flagged nor listed
    have hfailed : fleet.failedIndices = c.fleet.failedIndices := by rw [hrest]
    rw [hfailed, hc i]
    by_cases hi : i = idx
    · subst hi
      rw [Fleet.known, Bool.not_eq_true, Option.isSome_eq_false_iff, Option.isNone_iff_eq_none] at hold
      rw [Fleet.droneAt, hold, Option.none_or] at hdroneAt
      rw [Fleet.failedFlag, hold, Fleet.failedFlag, hget, Option.map_some,
        Fleet.failed_newDrone hdroneAt]
      simp
    · rw [Fleet.failedFlag, Fleet.failedFlag, hothers i hi]

/-- An update that succeeds leads to an inventory that agrees. -/
theorem consistent_updateConfig {c : Controller F} {payload : Json F} {input : UpdateInput F}
    (h : c.fleet.Consistent) (hraised : (c.updateConfig payload input).raised = false) :
    (c.updateConfig payload input).controller.fleet.Consistent := by
  obtain ⟨henrolled, hflagged, -⟩ := Fleet.consistent_iff.mp h
  have henrolled' := enrolled_updateConfig henrolled hraised
  obtain ⟨d, -, hsynced, hrecompute⟩ := updateConfig_succeeds hraised
  have haimed := aimed_recompute hrecompute
  have hsame := (recompute_keeps hrecompute).1
  refine Fleet.consistent_iff.mpr ⟨henrolled', ?_, ?_⟩
  · refine Fleet.Flagged.aimed ?_ haimed
    have hloop : ((c.takeHeader d).syncInventory ((c.takeHeader d).requestedCounts d).1
        ((c.takeHeader d).requestedCounts d).2 (droneSpecs d)).controller.fleet.Flagged :=
      flagged_syncInventory (c := c.takeHeader d) hflagged _ _ _
    generalize hattempt : ((c.takeHeader d).syncInventory ((c.takeHeader d).requestedCounts d).1
      ((c.takeHeader d).requestedCounts d).2 (droneSpecs d)).controller = synced at hloop
    have hconfigured : (c.configured d).fleet = (synced.takeTopology d).fleet := by
      rw [← hattempt]
      rfl
    rw [hconfigured] at hsame ⊢
    cases hlist : d.get? "failed_indices" with
    | none =>
        simp only [takeTopology, hlist]
        exact hloop
    | some raw =>
        simp only [takeTopology, hlist] at hsame ⊢
        -- the failed indices name drones of the mission
        have hdrones : synced.fleet.SameDrones (c.updateConfig payload input).controller.fleet :=
          (synced.fleet.sameDrones_takeFailedIndices raw).trans ⟨hsame.known, hsame.droneCount⟩
        have hsyncedEnrolled : synced.fleet.Enrolled := fun idx => by
          rw [← hdrones.known, ← hdrones.droneCount]
          exact henrolled' idx
        exact hsyncedEnrolled.flagged_takeFailedIndices raw
  · refine Fleet.Counted.same ?_ haimed.sameCounts
    obtain ⟨hdrone, hrelay, hstandby, -⟩ := configured_topology hsynced
    have hle : c.relayLimit d ≤ c.requested d := by
      rw [relayLimit, requested]
      omega
    rw [Fleet.Counted, hdrone, hrelay, hstandby]
    omega

/-- Every callback keeps the inventory consistent. -/
theorem consistent_perform {c c' : Controller F} {op : Op F} (h : c.fleet.Consistent)
    (hperform : c.perform op = some c') : c'.fleet.Consistent := by
  by_cases hupdate : ∃ payload input, op = .updateConfig payload input
  · obtain ⟨payload, input, rfl⟩ := hupdate
    rw [perform] at hperform
    split at hperform
    · cases hperform
    · rename_i hraised
      obtain rfl := Option.some.inj hperform
      exact consistent_updateConfig h (Bool.eq_false_of_not_eq_true hraised)
  · obtain ⟨henrolled, hflagged, hcounted⟩ := Fleet.consistent_iff.mp h
    obtain ⟨hflagged', hcounts⟩ := flagged_perform hflagged hperform fun payload input heq =>
      hupdate ⟨payload, input, heq⟩
    exact Fleet.consistent_iff.mpr
      ⟨enrolled_perform henrolled hperform, hflagged', hcounted.same hcounts⟩

end Controller

/-! ## The start -/

namespace RelayChain

variable [PyText F] [PyFloat F]

/-- All drones of a configuration are recorded as standby. -/
def AllStandby (legacy : LegacyConfig F) : Prop :=
  ∀ idx, 1 ≤ idx → idx ≤ (settings legacy).droneCount → roleAt legacy.drones idx = "standby"

/-- The start counts every drone once unless all are recorded as standby. -/
theorem counts_start (legacy : LegacyConfig F) :
    (start legacy).relayCount + (start legacy).standbyCount = (start legacy).droneCount ↔
      ¬AllStandby legacy := by
  obtain ⟨hdrone, hrelay, hle⟩ := settings_counts legacy
  have hlength : ((missionIndices (settings legacy).droneCount).length : ℤ) =
      (settings legacy).droneCount := by
    rw [length_missionIndices]
    omega
  have htotal : ((loadedDrones legacy).keys.length : ℤ) = (settings legacy).droneCount := by
    rw [keys_loadedDrones, hlength]
  rw [start_eq, applyRoleCounts]
  simp only [htotal, if_neg (show ¬(settings legacy).droneCount ≤ 0 by omega)]
  split
  · -- the explicit roles are kept: one relay is counted even if there is none
    rw [explicitStandby_loaded_eq]
    have hall : ((missionIndices (settings legacy).droneCount).filter fun idx =>
        roleAt legacy.drones idx = "standby").length =
          (missionIndices (settings legacy).droneCount).length ↔ AllStandby legacy := by
      rw [List.length_filter_eq_length_iff]
      simp only [mem_missionIndices, and_imp, decide_eq_true_eq]
      exact Iff.rfl
    have hlen := List.length_filter_le (fun idx => decide (roleAt legacy.drones idx = "standby"))
      (missionIndices (settings legacy).droneCount)
    rw [← hall]
    dsimp only
    omega
  · rename_i hkeep
    refine iff_of_true (by dsimp only; omega) fun hall => hkeep ?_
    -- there is a first drone, so its standby role is explicit
    have hfirst : (1 : ℤ) ∈ missionIndices (settings legacy).droneCount :=
      mem_missionIndices.mpr ⟨le_refl 1, hdrone⟩
    have hrole := hall 1 (le_refl 1) hdrone
    rw [Bool.and_eq_true, Bool.not_eq_true', Bool.not_eq_true', keys_recordsByIndex_isEmpty,
      List.isEmpty_eq_false_iff, List.isEmpty_eq_false_iff]
    refine ⟨fun hnone => ?_, (explicitStandby_loaded legacy).mpr ⟨1, hfirst, hrole⟩⟩
    rw [hnone] at hrole
    exact absurd hrole (show ("relay" : String) ≠ "standby" by decide)

end RelayChain

namespace Controller

variable [PyText F] [PyTrig F]

/-- A started controller has a consistent inventory unless all drones are recorded as standby. -/
theorem consistent_start_iff {legacy : LegacyConfig F} {input : StartInput F} {c : Controller F}
    (h : Controller.start legacy input = some c) :
    c.fleet.Consistent ↔ ¬RelayChain.AllStandby legacy := by
  have henrolled := enrolled_start h
  simp only [Controller.start, bind, pure, Option.bind_eq_some_iff, Option.some.injEq] at h
  obtain ⟨c', hc', rfl⟩ := h
  have haimed := aimed_recompute hc'
  -- a cold start forgets the failures, and flags none of the drones
  have hflagged : (Fleet.ofChain (RelayChain.start legacy) input).Flagged := by
    intro idx
    have hnone : (RelayChain.start legacy).failedIndices = [] :=
      (RelayChain.applyRoleCounts_keeps _ _ _).2.2
    show idx ∈ (RelayChain.start legacy).failedIndices ↔ _
    rw [hnone, Fleet.failedFlag, Fleet.ofChain, Dict.get?_map, Option.map_map]
    simp
  rw [← RelayChain.counts_start, Fleet.consistent_iff]
  have hcounts : c'.fleet.Counted ↔ (Fleet.ofChain (RelayChain.start legacy) input).Counted := by
    rw [Fleet.Counted, haimed.sameCounts.relayCount, haimed.sameCounts.standbyCount,
      haimed.sameCounts.droneCount]
    exact Iff.rfl
  constructor
  · rintro ⟨-, -, hcounted⟩
    exact hcounts.mp hcounted
  · intro hcounted
    exact ⟨henrolled, hflagged.aimed haimed, hcounts.mpr hcounted⟩

/-- The inventory is consistent in every state of every run if and only if not all drones of the
configuration are recorded as standby. -/
theorem consistent_run_iff {legacy : LegacyConfig F} {input : StartInput F} {c : Controller F}
    (h : Controller.start legacy input = some c) :
    (∀ (ops : List (Op F)) (c' : Controller F), run (some c) ops = some c' → c'.fleet.Consistent) ↔
      ¬RelayChain.AllStandby legacy := by
  rw [← consistent_start_iff h]
  constructor
  · intro hall
    exact hall [] c rfl
  · intro hc ops c' hrun
    exact run_invariant (fun c => c.fleet.Consistent)
      (fun _ _ _ hc hperform => consistent_perform hc hperform)
      (fun _ hstart => Option.some.inj hstart ▸ hc) hrun

/-- The inventory of a chain of three relays stays consistent. -/
theorem consistent_run_iff_sample :
    (∀ (ops : List (Op ℚ)) (c' : Controller ℚ), run (some sampleChain) ops = some c' →
      c'.fleet.Consistent) ↔ ¬RelayChain.AllStandby (sampleConfig "chain" 3 1) :=
  consistent_run_iff start_sampleChain

/-- A configuration with one drone, which is on standby. -/
def standbyConfig : LegacyConfig ℚ :=
  { sampleConfig "chain" 1 1 with
    drones := [{
      id := .str "drone_1"
      index := .int 1
      role := .str "standby"
      active := true
      failed := false }] }

/-- The start counts one relay and one standby drone, but there is only one drone. -/
theorem consistent_fails_standbyConfig : ¬∀ (legacy : LegacyConfig ℚ) (input : StartInput ℚ)
    (c c' : Controller ℚ) (ops : List (Op ℚ)), Controller.start legacy input = some c →
    run (some c) ops = some c' → c'.fleet.Consistent := by
  intro hall
  have hstart : ∃ c, Controller.start standbyConfig sampleStart = some c ∧
      c.fleet.relayCount = 1 ∧ c.fleet.standbyCount = 1 ∧ c.fleet.droneCount = 1 := by
    decide +kernel
  obtain ⟨c, hc, hrelay, hstandby, hdrone⟩ := hstart
  have hcounts := (hall standbyConfig sampleStart c c [] hc rfl).counted
  omega

end Controller

end Netlab
