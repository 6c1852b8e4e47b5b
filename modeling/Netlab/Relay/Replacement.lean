import Netlab.Relay.Consistency
import Netlab.Relay.Partition

/-!
# Who replaces a failed drone

When a failure is detected, the controller promotes a standby drone if there is one, whoever failed.
That replaces a relay that was in service (`Recovers`), but it also promotes a drone when one of
several standby drones fails, and that one had no place to be taken (`recovers_iff`).
-/

namespace Netlab

variable {F : Type}

namespace RelayChain

/-- The relays in service. -/
theorem mem_activeChain {chain : RelayChain} {idx : ℤ} :
    idx ∈ chain.activeChain ↔
      idx ∈ chain.drones.keys ∧ chain.available idx = true ∧ chain.isRelay idx = true := by
  rw [activeChain, List.mem_filter, Bool.and_eq_true, sortedIndices, List.mem_insertionSort]

/-- The drones on standby. -/
theorem mem_standbyIndices {chain : RelayChain} {idx : ℤ} :
    idx ∈ chain.standbyIndices ↔
      idx ∈ chain.drones.keys ∧ chain.available idx = true ∧ chain.isRelay idx = false := by
  rw [standbyIndices, List.mem_filter, Bool.and_eq_true, sortedIndices, List.mem_insertionSort,
    Bool.not_eq_true']

end RelayChain

namespace Fleet

/-- How a fleet changes when the failure of a drone is detected, as it is meant: a relay in service
is replaced by one standby drone if there is one, and a standby drone is just missing. -/
structure Recovers (fleet fleet' : Fleet F) (idx : ℤ) : Prop where
  /-- the drone is failed -/
  failed : idx ∈ fleet'.failedIndices ∧ fleet'.failedFlag idx = some true
  /-- the drone is not in service -/
  inactive : idx ∉ fleet'.activeChain
  /-- exactly one standby drone joins in the place of a relay -/
  replaced : idx ∈ fleet.activeChain → fleet.standbyIndices ≠ [] →
    (∃ joined ∈ fleet.standbyIndices,
      ∀ k, k ∈ fleet'.activeChain ↔ k = joined ∨ (k ∈ fleet.activeChain ∧ k ≠ idx)) ∧
      fleet'.activeChain.length = fleet.activeChain.length
  /-- without standby drones there is one relay less -/
  dropped : idx ∈ fleet.activeChain → fleet.standbyIndices = [] →
    fleet'.activeChain.length + 1 = fleet.activeChain.length
  /-- nobody joins in the place of a standby drone -/
  standby : idx ∈ fleet.standbyIndices →
    (∀ k, k ∈ fleet'.standbyIndices ↔ k ∈ fleet.standbyIndices ∧ k ≠ idx) ∧
      ∀ k, k ∈ fleet'.activeChain ↔ k ∈ fleet.activeChain

/-- A failed drone is neither in service nor on standby. -/
theorem available_markFailed (fleet : Fleet F) (idx k : ℤ) :
    (fleet.markFailed idx).chain.available k = true ↔ fleet.chain.available k = true ∧ k ≠ idx := by
  simp only [RelayChain.available, decide_eq_true_eq]
  show _ ∧ _ ∧ k ∉ fleet.failedIndices.insert idx ↔ (_ ∧ _ ∧ k ∉ fleet.failedIndices) ∧ _
  rw [List.mem_insert_iff, not_or]
  tauto

/-- Marking a drone as failed leaves the roles alone. -/
theorem drones_chain_markFailed (fleet : Fleet F) (idx : ℤ) :
    (fleet.markFailed idx).chain.drones = fleet.chain.drones :=
  Dict.map_mapValues (fun k drone => by dsimp only; split <;> rfl) fleet.drones

theorem mem_activeChain_markFailed (fleet : Fleet F) (idx k : ℤ) :
    k ∈ (fleet.markFailed idx).activeChain ↔ k ∈ fleet.activeChain ∧ k ≠ idx := by
  rw [activeChain, activeChain, RelayChain.mem_activeChain, RelayChain.mem_activeChain,
    available_markFailed, RelayChain.isRelay, RelayChain.isRelay, drones_chain_markFailed]
  tauto

theorem mem_standbyIndices_markFailed (fleet : Fleet F) (idx k : ℤ) :
    k ∈ (fleet.markFailed idx).standbyIndices ↔ k ∈ fleet.standbyIndices ∧ k ≠ idx := by
  rw [standbyIndices, standbyIndices, RelayChain.mem_standbyIndices, RelayChain.mem_standbyIndices,
    available_markFailed, RelayChain.isRelay, RelayChain.isRelay, drones_chain_markFailed]
  tauto

/-- A drone is a relay after it was promoted. -/
theorem isRelay_promote (fleet : Fleet F) (idx k : ℤ) (position : Vec3 F) :
    (fleet.promote idx position).chain.isRelay k =
      if k = idx then fleet.known k else fleet.chain.isRelay k := by
  have hget : (fleet.promote idx position).chain.drones.get? k =
      if k = idx then (fleet.drones.get? k).map fun _ => { role := "relay", integrated := true }
      else fleet.chain.drones.get? k := by
    rw [chain, promote, modify, Dict.get?_map, Dict.get?_mapValues, Option.map_map, chain,
      Dict.get?_map]
    split
    · rename_i hk
      simp [hk, Function.comp_def, runtime]
    · simp [Function.comp_def]
  by_cases hk : k = idx
  · rw [if_pos hk] at hget ⊢
    rw [RelayChain.isRelay, hget, known]
    cases fleet.drones.get? k <;> rfl
  · rw [if_neg hk] at hget ⊢
    rw [RelayChain.isRelay, hget, RelayChain.isRelay]

/-- The promoted drone joins the relays in service. -/
theorem mem_activeChain_promote {fleet : Fleet F} {idx : ℤ} (h : idx ∈ fleet.standbyIndices)
    (position : Vec3 F) (k : ℤ) :
    k ∈ (fleet.promote idx position).activeChain ↔ k = idx ∨ k ∈ fleet.activeChain := by
  obtain ⟨hkey, havailable, -⟩ := RelayChain.mem_standbyIndices.mp h
  have hkeys : (fleet.promote idx position).chain.drones.keys = fleet.chain.drones.keys := by
    simp [chain, promote, modify]
  have hknown : fleet.known idx = true := by
    rw [← known_chain, Option.isSome_iff_exists, ← Dict.mem_keys_iff]
    exact hkey
  rw [activeChain, activeChain, RelayChain.mem_activeChain, RelayChain.mem_activeChain,
    isRelay_promote, hkeys]
  show _ ∧ fleet.chain.available k = true ∧ _ ↔ _
  by_cases hk : k = idx
  · subst hk
    simp [hkey, havailable, hknown]
  · simp [hk]

theorem mem_standbyIndices_promote {fleet : Fleet F} {idx : ℤ} (h : idx ∈ fleet.standbyIndices)
    (position : Vec3 F) (k : ℤ) :
    k ∈ (fleet.promote idx position).standbyIndices ↔ k ∈ fleet.standbyIndices ∧ k ≠ idx := by
  obtain ⟨hkey, -, -⟩ := RelayChain.mem_standbyIndices.mp h
  have hkeys : (fleet.promote idx position).chain.drones.keys = fleet.chain.drones.keys := by
    simp [chain, promote, modify]
  have hknown : fleet.known idx = true := by
    rw [← known_chain, Option.isSome_iff_exists, ← Dict.mem_keys_iff]
    exact hkey
  rw [standbyIndices, standbyIndices, RelayChain.mem_standbyIndices, RelayChain.mem_standbyIndices,
    isRelay_promote, hkeys]
  show _ ∧ fleet.chain.available k = true ∧ _ ↔ _
  by_cases hk : k = idx
  · simp [hk, hknown]
  · simp [hk]

section

variable [PyText F] [PyFloat F]

/-- Who replaces a drone: nobody when there is no standby drone, and one of them otherwise. -/
theorem activateBestStandby_cases {fleet : Fleet F} {idx : ℤ} (h : fleet.known idx = true)
    (selections : List (Json F)) :
    (fleet.standbyIndices = [] ∧ fleet.activateBestStandby idx selections = fleet) ∨
      ∃ joined ∈ fleet.standbyIndices, ∃ position,
        fleet.activateBestStandby idx selections = fleet.promote joined position := by
  obtain ⟨drone, hdrone⟩ := Option.isSome_iff_exists.mp h
  have hdesired : fleet.desired idx = some drone.desiredPosition := by
    rw [desired, hdrone, Option.map_some]
  by_cases hnone : fleet.standbyIndices = []
  · refine Or.inl ⟨hnone, ?_⟩
    have hreplacement : fleet.replacement drone.desiredPosition selections = none := by
      rw [Option.eq_none_iff_forall_ne_some]
      intro joined hjoined
      have hmem := replacement_mem hjoined
      rw [hnone] at hmem
      cases hmem
    simp only [activateBestStandby, hdesired, hreplacement]
  · have hsome : (fleet.replacement drone.desiredPosition selections).isSome = true := by
      rw [replacement, Option.isSome_or, minBy_isSome hnone, Bool.or_true]
    obtain ⟨joined, hjoined⟩ := Option.isSome_iff_exists.mp hsome
    refine Or.inr ⟨joined, replacement_mem hjoined, drone.desiredPosition, ?_⟩
    simp only [activateBestStandby, hdesired, hjoined]

end

/-- No relay is in service twice. -/
theorem nodup_activeChain (fleet : Fleet F) : fleet.activeChain.Nodup :=
  fleet.chain.nodup_activeChain

/-- A relay that is out of service, and nobody in its place. -/
theorem length_activeChain_of_dropped {fleet fleet' : Fleet F} {idx : ℤ}
    (hidx : idx ∈ fleet.activeChain)
    (h : ∀ k, k ∈ fleet'.activeChain ↔ k ∈ fleet.activeChain ∧ k ≠ idx) :
    fleet'.activeChain.length + 1 = fleet.activeChain.length := by
  have hperm : fleet'.activeChain.Perm (fleet.activeChain.erase idx) := by
    refine (List.perm_ext_iff_of_nodup fleet'.nodup_activeChain
      (fleet.nodup_activeChain.erase idx)).mpr fun k => ?_
    rw [h k, fleet.nodup_activeChain.mem_erase_iff]
    exact and_comm
  have hpos := List.length_pos_of_mem hidx
  rw [hperm.length_eq, List.length_erase_of_mem hidx]
  omega

/-- A relay that is out of service, and another drone in its place. -/
theorem length_activeChain_of_replaced {fleet fleet' : Fleet F} {idx joined : ℤ}
    (hidx : idx ∈ fleet.activeChain) (hjoined : joined ∉ fleet.activeChain)
    (h : ∀ k, k ∈ fleet'.activeChain ↔ k = joined ∨ (k ∈ fleet.activeChain ∧ k ≠ idx)) :
    fleet'.activeChain.length = fleet.activeChain.length := by
  have hperm : fleet'.activeChain.Perm (joined :: fleet.activeChain.erase idx) := by
    refine (List.perm_ext_iff_of_nodup fleet'.nodup_activeChain ?_).mpr fun k => ?_
    · exact List.nodup_cons.mpr ⟨fun hmem => hjoined (List.mem_of_mem_erase hmem),
        fleet.nodup_activeChain.erase idx⟩
    · rw [h k, List.mem_cons, fleet.nodup_activeChain.mem_erase_iff]
      tauto
  have hpos := List.length_pos_of_mem hidx
  rw [hperm.length_eq, List.length_cons, List.length_erase_of_mem hidx]
  omega

/-- The relays in service are not on standby. -/
theorem not_mem_standbyIndices {fleet : Fleet F} {idx : ℤ} (h : idx ∈ fleet.activeChain) :
    idx ∉ fleet.standbyIndices :=
  (RelayChain.of_mem_activeChain h).2.2.2

/-- Nobody is promoted in the place of a drone that had none: the fleet recovers as it is meant to
unless a standby drone fails and there is another one. -/
theorem recovers_replaced_iff [PyText F] [PyFloat F] {fleet : Fleet F} {idx : ℤ}
    (h : fleet.known idx = true) (selections : List (Json F)) :
    fleet.Recovers ((fleet.markFailed idx).activateBestStandby idx selections) idx ↔
      ¬(idx ∈ fleet.standbyIndices ∧ ∃ other ∈ fleet.standbyIndices, other ≠ idx) := by
  have hmarked : (fleet.markFailed idx).known idx = true := by
    rw [(fleet.sameDrones_markFailed idx).known]
    exact h
  have hlisted : idx ∈ (fleet.markFailed idx).failedIndices := List.mem_insert_self
  have hflag : (fleet.markFailed idx).failedFlag idx = some true := by
    obtain ⟨drone, hdrone⟩ := Option.isSome_iff_exists.mp h
    show (fleet.modify idx _).failedFlag idx = some true
    rw [failedFlag_modify, if_pos rfl, hdrone]
    rfl
  rcases activateBestStandby_cases hmarked selections with
    ⟨hnone, heq⟩ | ⟨joined, hjoined, position, heq⟩
  · rw [heq]
    -- no other drone is on standby
    have hother : ∀ k ∈ fleet.standbyIndices, k = idx := by
      intro k hk
      by_contra hne
      have hmem := (fleet.mem_standbyIndices_markFailed idx k).mpr ⟨hk, hne⟩
      rw [hnone] at hmem
      cases hmem
    refine iff_of_true ?_ fun hstandby => ?_
    · refine ⟨⟨hlisted, hflag⟩, fun hmem => ?_, fun hactive hsome => ?_, fun hactive _ => ?_,
        fun hstandby => ⟨fleet.mem_standbyIndices_markFailed idx, fun k => ?_⟩⟩
      · exact ((fleet.mem_activeChain_markFailed idx idx).mp hmem).2 rfl
      · obtain ⟨k, hk⟩ := List.exists_mem_of_ne_nil _ hsome
        exact absurd (hother k hk ▸ hk) (not_mem_standbyIndices hactive)
      · exact length_activeChain_of_dropped hactive (fleet.mem_activeChain_markFailed idx)
      · rw [mem_activeChain_markFailed, and_iff_left_iff_imp]
        rintro hk rfl
        exact not_mem_standbyIndices hk hstandby
    · obtain ⟨-, other, hmem, hne⟩ := hstandby
      exact hne (hother other hmem)
  · rw [heq]
    obtain ⟨hstandby, hne⟩ := (fleet.mem_standbyIndices_markFailed idx joined).mp hjoined
    have hchain : ∀ k, k ∈ ((fleet.markFailed idx).promote joined position).activeChain ↔
        k = joined ∨ (k ∈ fleet.activeChain ∧ k ≠ idx) := by
      intro k
      rw [mem_activeChain_promote hjoined, mem_activeChain_markFailed]
    have hinactive : joined ∉ fleet.activeChain := fun hactive =>
      not_mem_standbyIndices hactive hstandby
    by_cases hidx : idx ∈ fleet.standbyIndices
    · -- the promoted drone was not in service before
      refine iff_of_false (fun hrecovers => ?_) fun hcond => hcond ⟨hidx, joined, hstandby, hne⟩
      exact hinactive (((hrecovers.standby hidx).2 joined).mp ((hchain joined).mpr (Or.inl rfl)))
    · refine iff_of_true ?_ fun hcond => hidx hcond.1
      refine ⟨⟨hlisted, ?_⟩, fun hmem => ?_, fun hactive _ => ?_, fun _ hnone => ?_, fun hmem => ?_⟩
      · show (Fleet.modify _ joined _).failedFlag idx = some true
        rw [failedFlag_modify, if_neg (Ne.symm hne)]
        exact hflag
      · rcases (hchain idx).mp hmem with heq | hactive
        · exact hne heq.symm
        · exact hactive.2 rfl
      · exact ⟨⟨joined, hstandby, hchain⟩,
          length_activeChain_of_replaced hactive hinactive hchain⟩
      · rw [hnone] at hstandby
        cases hstandby
      · exact absurd hmem hidx

end Fleet

namespace Controller

/-- The failure that is pending is that of a drone of the mission. -/
def PendingEnrolled (c : Controller F) : Prop :=
  ∀ failure, c.pendingFailure = some failure →
    1 ≤ failure.droneIndex ∧ failure.droneIndex ≤ c.fleet.droneCount

variable [PyText F] [PyTrig F]

/-- A tick leaves the pending failure as it is, or takes it away. -/
theorem pendingFailure_tick {c : Controller F} {input : TickInput F} {moved : Moved F}
    (h : c.tick input = some moved) :
    moved.controller.pendingFailure = c.pendingFailure ∨ moved.controller.pendingFailure = none := by
  obtain ⟨prepared, hprepare, _, _, _, _, _, _, hkept⟩ := tick_keeps h
  simp only [prepare, bind, Option.bind_eq_some_iff] at hprepare
  obtain ⟨processed, hprocess, hintegrate⟩ := hprepare
  have hprepared : prepared.pendingFailure = processed.pendingFailure := by
    rw [integrateStandby] at hintegrate
    split at hintegrate
    · exact congrArg _ (Option.some.inj hintegrate).symm
    · exact (recompute_keeps hintegrate).2.2
  have hmovedPending : moved.controller.pendingFailure = processed.pendingFailure := by
    rw [hkept]
    exact hprepared
  rw [hmovedPending]
  rcases processPendingFailure_spec hprocess with
    ⟨-, rfl⟩ | ⟨idx, -, ⟨-, rfl⟩ | ⟨-, -, selections, hrecompute⟩⟩
  · exact Or.inl (c.loadStrategy_keeps input).2.2
  · exact Or.inr rfl
  · exact Or.inr (recompute_keeps hrecompute).2.2

/-- Every callback keeps the pending failure that of a drone of the mission. -/
theorem pendingEnrolled_perform {c c' : Controller F} {op : Op F} (henrolled : c.fleet.Enrolled)
    (h : c.PendingEnrolled) (hperform : c.perform op = some c') : c'.PendingEnrolled := by
  have hkept : (∀ payload input, op ≠ .updateConfig payload input) →
      (c'.pendingFailure = c.pendingFailure ∨ c'.pendingFailure = none) → c'.PendingEnrolled := by
    intro hupdate hpending failure hfailure
    rw [(sameDrones_perform hperform hupdate).droneCount]
    rcases hpending with hpending | hpending
    · exact h failure (hpending ▸ hfailure)
    · rw [hpending] at hfailure
      cases hfailure
  cases op with
  | tick input =>
      obtain ⟨moved, hmoved, rfl⟩ := Option.map_eq_some_iff.mp hperform
      exact hkept (by simp) (pendingFailure_tick hmoved)
  | fail idx now =>
      obtain rfl := Option.some.inj hperform
      rw [failDrone] at hkept ⊢
      split
      · rename_i haccepts
        intro failure hfailure
        obtain rfl := Option.some.inj hfailure
        rw [acceptsFailure, Bool.and_eq_true, Bool.and_eq_true] at haccepts
        exact (henrolled idx).mp haccepts.1.1
      · exact h
  | heal idx plan =>
      refine hkept (by simp) ?_
      rw [perform, healDrone] at hperform
      split at hperform
      · exact Or.inr (recompute_keeps hperform).2.2
      · exact Or.inl (congrArg _ (Option.some.inj hperform).symm)
  | standby idx plan =>
      refine hkept (by simp) (Or.inl ?_)
      rw [perform, standbyDrone] at hperform
      split at hperform
      · exact congrArg _ (Option.some.inj hperform).symm
      · exact (recompute_keeps hperform).2.2
  | reset plan => exact hkept (by simp) (Or.inr (recompute_keeps hperform).2.2)
  | mission command =>
      obtain rfl := Option.some.inj hperform
      exact hkept (by simp) (Or.inl (by cases command <;> rfl))
  | setPattern message =>
      obtain rfl := Option.some.inj hperform
      obtain ⟨_, hsettings⟩ := c.setPattern_keeps message
      exact hkept (by simp) (Or.inl (by rw [hsettings]))
  | updateConfig payload input =>
      rw [perform] at hperform
      split at hperform
      · cases hperform
      · rename_i hraised
        obtain rfl := Option.some.inj hperform
        obtain ⟨d, -, hsynced, hrecompute⟩ :=
          updateConfig_succeeds (Bool.eq_false_of_not_eq_true hraised)
        obtain ⟨hcount, hpending, -⟩ := configured_spec hsynced
        obtain ⟨hsame, -, hlaid⟩ := recompute_keeps hrecompute
        intro failure hfailure
        rw [hsame.droneCount, hcount]
        rw [hlaid, hpending] at hfailure
        -- a failure of a removed drone is dropped
        dsimp only [resize] at hfailure
        split at hfailure
        · cases hfailure
        · rename_i hremains
          rw [hfailure, Option.any_some, decide_eq_true_eq, not_lt] at hremains
          exact ⟨(h failure hfailure).1, hremains⟩
  | action message =>
      obtain rfl := Option.some.inj hperform
      exact hkept (by simp) (Or.inl rfl)
  | pose idx position =>
      obtain rfl := Option.some.inj hperform
      exact hkept (by simp) (Or.inl rfl)
  | publishStatus =>
      obtain rfl := Option.some.inj hperform
      exact hkept (by simp) (Or.inl rfl)

/-- A failure that is due in a state of a run is that of a drone of the mission. -/
theorem range_of_dueFailure {legacy : LegacyConfig F} {start : StartInput F} {ops : List (Op F)}
    {c : Controller F} (hrun : run (Controller.start legacy start) ops = some c) {now : F} {idx : ℤ}
    (hdue : c.dueFailure now = some idx) : 1 ≤ idx ∧ idx ≤ c.fleet.droneCount := by
  have hinvariant : c.fleet.Enrolled ∧ c.PendingEnrolled := by
    refine run_invariant (fun c => c.fleet.Enrolled ∧ c.PendingEnrolled)
      (fun c op c' hc hperform => ⟨enrolled_perform hc.1 hperform,
        pendingEnrolled_perform hc.1 hc.2 hperform⟩) (fun c hstart => ?_) hrun
    refine ⟨enrolled_start hstart, fun failure hfailure => ?_⟩
    -- nothing is pending at the start
    simp only [Controller.start, bind, pure, Option.bind_eq_some_iff, Option.some.injEq] at hstart
    obtain ⟨c', hc', rfl⟩ := hstart
    have hnone := (recompute_keeps hc').2.2.symm.trans hfailure
    cases hnone
  rw [dueFailure] at hdue
  split at hdue
  · cases hdue
  · rename_i failure hfailure
    split at hdue
    · cases hdue
    · obtain rfl := Option.some.inj hdue
      exact hinvariant.2 failure hfailure

/-- When a failure that is due has been processed, in any state of any run and whatever the hooks of
the strategy answer, the fleet has recovered as it is meant to, unless a standby drone failed and
there was another one. -/
theorem recovers_iff {legacy : LegacyConfig F} {start : StartInput F} {ops : List (Op F)}
    {c c' : Controller F} (hrun : run (Controller.start legacy start) ops = some c)
    {input : TickInput F} {idx : ℤ} (hdue : c.dueFailure input.now = some idx)
    (hprocess : c.processPendingFailure input = some c') :
    c.fleet.Recovers c'.fleet idx ↔
      ¬(idx ∈ c.fleet.standbyIndices ∧ ∃ other ∈ c.fleet.standbyIndices, other ≠ idx) := by
  have hrange := range_of_dueFailure hrun hdue
  have hknown : c.fleet.known idx = true := (enrolled_run hrun idx).mpr hrange
  rcases processPendingFailure_spec hprocess with
    ⟨hnone, -⟩ | ⟨due, hdue', ⟨hgone, -⟩ | ⟨-, -, selections, hrecompute⟩⟩
  · cases hnone.symm.trans hdue
  · obtain rfl := Option.some.inj (hdue'.symm.trans hdue)
    rcases hgone with hunknown | hbeyond
    · cases hunknown.symm.trans hknown
    · omega
  · obtain rfl := Option.some.inj (hdue'.symm.trans hdue)
    rw [← Fleet.recovers_replaced_iff hknown selections]
    -- the new layout changes neither roles nor failures
    have haimed := aimed_recompute hrecompute
    have hchain := haimed.chain_eq
    have hflag := haimed.failedFlag_eq due
    change _ = ((c.fleet.markFailed due).activateBestStandby due selections).failedFlag due at hflag
    have hactive := congrArg RelayChain.activeChain hchain
    have hstandby := congrArg RelayChain.standbyIndices hchain
    have hfailed := congrArg RelayChain.failedIndices hchain
    change c'.fleet.activeChain = Fleet.activeChain _ at hactive
    change c'.fleet.standbyIndices = Fleet.standbyIndices _ at hstandby
    change c'.fleet.failedIndices = Fleet.failedIndices _ at hfailed
    constructor
    · rintro ⟨h1, h2, h3, h4, h5⟩
      rw [hactive] at h2 h3 h4 h5
      rw [hstandby] at h5
      rw [hfailed, hflag] at h1
      exact ⟨h1, h2, h3, h4, h5⟩
    · rintro ⟨h1, h2, h3, h4, h5⟩
      rw [← hactive] at h2 h3 h4 h5
      rw [← hstandby] at h5
      rw [← hfailed, ← hflag] at h1
      exact ⟨h1, h2, h3, h4, h5⟩

/-- In a chain of three relays the second one fails. -/
theorem recovers_iff_sample : ∃ c c',
    run (Controller.start (sampleConfig "chain" 3 1) sampleStart) [.fail 2 0] = some c ∧
      c.processPendingFailure (sampleTick 5) = some c' ∧
      (c.fleet.Recovers c'.fleet 2 ↔
        ¬(2 ∈ c.fleet.standbyIndices ∧ ∃ other ∈ c.fleet.standbyIndices, other ≠ 2)) := by
  have hsome : ∃ c, run (Controller.start (sampleConfig "chain" 3 1) sampleStart) [.fail 2 0] = some c ∧
      c.dueFailure 5 = some 2 ∧ ∃ c', c.processPendingFailure (sampleTick 5) = some c' ∧ 0 < 1 := by
    decide +kernel
  obtain ⟨c, hrun, hdue, c', hprocess, -⟩ := hsome
  exact ⟨c, c', hrun, hprocess, recovers_iff hrun hdue hprocess⟩

/-- One relay and two standby drones. -/
def reserveConfig : LegacyConfig ℚ := { sampleConfig "chain" 3 1 with relayCount := .int 1 }

/-- When the first of two standby drones fails, the second one becomes a relay. -/
theorem recovers_fails_reserve : ¬∀ (legacy : LegacyConfig ℚ) (start : StartInput ℚ)
    (ops : List (Op ℚ)) (c c' : Controller ℚ) (input : TickInput ℚ) (idx : ℤ),
    run (Controller.start legacy start) ops = some c → c.dueFailure input.now = some idx →
    c.processPendingFailure input = some c' → c.fleet.Recovers c'.fleet idx := by
  intro hall
  have hsome : ∃ c, run (Controller.start reserveConfig sampleStart) [.fail 2 0] = some c ∧
      c.dueFailure 5 = some 2 ∧ c.fleet.standbyIndices = [2, 3] ∧ c.fleet.activeChain = [1] ∧
      ∃ c', c.processPendingFailure (sampleTick 5) = some c' ∧ c'.fleet.activeChain = [1, 3] := by
    decide +kernel
  obtain ⟨c, hrun, hdue, hstandby, hactive, c', hprocess, hactive'⟩ := hsome
  have hrecovers := hall reserveConfig sampleStart [.fail 2 0] c c' (sampleTick 5) 2 hrun hdue hprocess
  have hsame := (hrecovers.standby (by simp [hstandby])).2 3
  rw [hactive, hactive'] at hsame
  exact absurd (hsame.mp (by decide)) (by decide)

end Controller

end Netlab
