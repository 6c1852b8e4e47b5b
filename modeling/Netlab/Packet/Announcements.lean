import Netlab.Packet.History
import Netlab.Telemetry

/-!
# Creation events before delivery events

`ensure_packets` and the next packet after a delivery are announced by a `PACKET_CREATED` event.
`replace_route` and a `step_stream` on a stream without a packet draw one in silence, so its
delivery has no creation before it and the delivery ratio of the telemetry can exceed one. In a run
without such calls the creation events list every id that was drawn, in order.
-/

namespace Netlab.Packet

variable {F : Type} {uuid4 : IdSupply}

/-- Each delivery of the log comes after exactly one creation of the same packet id. -/
def Announced (events : List (RuntimeEvent F)) : Prop :=
  ∀ before ev after q gate, events = before ++ ev :: after →
    ev.payload = .packetDelivered q gate →
      ((creations before).map (·.packetId)).count q.packetId = 1

/-- The types of the events of a log, as the telemetry reads them. -/
def eventTypes (events : List (RuntimeEvent F)) : List String :=
  events.map fun ev => ev.payload.eventType

/-- A call that draws a packet without announcing it. -/
def Op.Silent (rt : PacketRuntime F) : Op F → Prop
  | .stepStream k _ => (Move.ready k : Move F).Silent rt
  | .replaceRoute k route => (Move.replace k route : Move F).Silent rt
  | _ => False

/-! ## The log and its prefixes -/

/-- Events may follow that deliver only announced packets. -/
theorem Announced.append {events ev : List (RuntimeEvent F)} (h : Announced events)
    (hev : ∀ q ∈ deliveries ev, creations ev = [] ∧
      ((creations events).map (·.packetId)).count q.packetId = 1) : Announced (events ++ ev) := by
  intro before e after q gate hsplit hpayload
  have hmem : ∀ as, ev = as ++ e :: after → q ∈ deliveries ev := fun as hsplit => by
    rw [hsplit, deliveries_append]
    simp [deliveries, hpayload]
  rcases List.append_eq_append_iff.mp hsplit with ⟨as, rfl, hev'⟩ | ⟨bs, rfl, hev'⟩
  · -- the delivery is among the new events
    obtain ⟨hnone, hcount⟩ := hev q (hmem as hev')
    have hcreations : creations as = [] := by
      rw [hev', creations_append] at hnone
      exact (List.append_eq_nil_iff.mp hnone).1
    simpa [hcreations] using hcount
  · cases bs with
    | nil =>
        obtain ⟨_, hcount⟩ := hev q (hmem [] (by simpa using hev'.symm))
        simpa using hcount
    | cons b bs =>
        obtain ⟨rfl, rfl⟩ := List.cons.inj hev'
        exact h before e bs q gate rfl hpayload

private theorem isGenerated_eventType (payload : EventPayload F) :
    Telemetry.isGenerated payload.eventType =
      match payload with
      | .packetCreated _ => true
      | _ => false := by
  cases payload <;> simp only [EventPayload.eventType] <;> decide

private theorem isDelivered_eventType (payload : EventPayload F) :
    Telemetry.isDelivered payload.eventType =
      match payload with
      | .packetDelivered _ _ => true
      | _ => false := by
  cases payload <;> simp only [EventPayload.eventType] <;> decide

/-- The telemetry counts the creations of a log as generated packets. -/
theorem countP_isGenerated (events : List (RuntimeEvent F)) :
    (eventTypes events).countP Telemetry.isGenerated = (creations events).length := by
  induction events with
  | nil => rfl
  | cons ev events ih =>
      rw [eventTypes, List.map_cons, List.countP_cons, ← eventTypes, ih, isGenerated_eventType]
      cases hp : ev.payload <;> simp [creations, hp]

/-- The telemetry counts the deliveries of a log as delivered packets. -/
theorem countP_isDelivered (events : List (RuntimeEvent F)) :
    (eventTypes events).countP Telemetry.isDelivered = (deliveries events).length := by
  induction events with
  | nil => rfl
  | cons ev events ih =>
      rw [eventTypes, List.map_cons, List.countP_cons, ← eventTypes, ih, isDelivered_eventType]
      cases hp : ev.payload <;> simp [deliveries, hp]

/-- Where every delivery is announced and none is repeated, no more packets are delivered than
generated. -/
theorem Announced.packetDeliveryRatio_le_one {events log : List (RuntimeEvent F)}
    (h : Announced events) (hnodup : ((deliveries events).map (·.packetId)).Nodup)
    (hlog : log <+: events) :
    (Telemetry.aggregate (eventTypes log)).packetDeliveryRatio ≤ 1 := by
  obtain ⟨rest, rfl⟩ := hlog
  apply Telemetry.packetDeliveryRatio_le_one
  rw [countP_isDelivered, countP_isGenerated]
  have hnodup' : ((deliveries log).map (·.packetId)).Nodup := by
    rw [deliveries_append, List.map_append] at hnodup
    exact hnodup.of_append_left
  -- what is delivered has been created before, in a prefix as in the whole log
  have hsub : (deliveries log).map (·.packetId) ⊆ (creations log).map (·.packetId) := by
    intro id hid
    obtain ⟨q, hq, rfl⟩ := List.mem_map.mp hid
    obtain ⟨ev, hev, hpayload⟩ := List.mem_filterMap.mp hq
    obtain ⟨before, after, rfl⟩ := List.append_of_mem hev
    cases hp : ev.payload with
    | packetDelivered q' gate =>
        obtain rfl : q' = q := by simpa [hp] using hpayload
        have hone := h before ev (after ++ rest) q' gate (by simp) hp
        have hmem : q'.packetId ∈ (creations before).map (·.packetId) :=
          List.count_pos_iff.mp (by omega)
        rw [creations_append, List.map_append]
        exact List.mem_append_left _ hmem
    | _ => simp [hp] at hpayload
  simpa using (hnodup'.subperm hsub).length_le

/-! ## Runs without silent draws -/

/-- The creations of the log are the draws so far, and its deliveries are announced. -/
structure AnnouncedInv (uuid4 : IdSupply) (h : History F) : Prop where
  created : (creations h.runtime.events).map (·.packetId) =
    (List.range h.runtime.sequence).map fun i => uuid4.id (i + 1)
  announced : Announced h.runtime.events

/-- A drawn id was announced once. -/
theorem AnnouncedInv.count_eq_one {h : History F} (inv : AnnouncedInv uuid4 h) {n : ℕ}
    (hpos : 0 < n) (hle : n ≤ h.runtime.sequence) :
    ((creations h.runtime.events).map (·.packetId)).count (uuid4.id n) = 1 := by
  rw [inv.created]
  refine List.count_eq_one_of_mem ?_ (List.mem_map.mpr ⟨n - 1, ?_, ?_⟩)
  · refine List.nodup_range.map fun i j hij => ?_
    have := uuid4.injective _ _ hij
    omega
  · rw [List.mem_range]
    omega
  · rw [Nat.sub_add_cancel hpos]

/-- A move that draws nothing in silence keeps the invariant. -/
theorem AnnouncedInv.move {h : History F} (inv : AnnouncedInv uuid4 h)
    (hrt : RuntimeInv h.runtime) (hinv : HistoryInv uuid4 h) {m : Move F}
    (haudible : ¬ m.Silent h.runtime) : AnnouncedInv uuid4 (h.move uuid4 m) := by
  have effect := History.move_effect uuid4 h hrt m
  generalize h.move uuid4 m = h' at effect ⊢
  cases effect with
  | idle _ _ => exact inv
  | @drawn _ _ _ _ p announced effect _ silent =>
      -- a packet that is drawn audibly is announced
      have htrue : announced = true := by
        cases announced
        · exact absurd (silent.mpr rfl) haudible
        · rfl
      obtain ⟨ev, hev, hdel, hcre⟩ := effect.events
      rw [if_pos htrue] at hcre
      refine ⟨?_, ?_⟩
      · rw [hev, creations_append, hcre, effect.sequence, List.range_succ, List.map_append,
          List.map_append, inv.created]
        simp [effect.packetId]
      · rw [hev]
        exact inv.announced.append (by simp [hdel])
  | @answered _ k _ _ p p' _ effect _ _ =>
      obtain ⟨ev, hev, hcre, hdel⟩ := effect.events
      have hpk : h.runtime.packetAt k = some p := by
        simp [PacketRuntime.packetAt, effect.get, effect.before]
      obtain ⟨_, ⟨hpos, hle⟩, hid⟩ := hinv.packet k p hpk
      refine ⟨?_, ?_⟩
      · rw [hev, creations_append, hcre, List.append_nil, effect.sequence, inv.created]
      · rw [hev]
        refine inv.announced.append fun q hq => ⟨hcre, ?_⟩
        -- only the packet of this call can have been delivered
        have hqid : q.packetId = uuid4.id p.sequenceNumber := by
          rw [hdel] at hq
          split at hq
          · rw [List.mem_singleton.mp hq, effect.packetId, hid]
          · simp at hq
        rw [hqid]
        exact inv.count_eq_one hpos hle
  | kept effect _ _ =>
      obtain ⟨ev, hev, hcre, hdel⟩ := effect.events
      refine ⟨?_, ?_⟩
      · rw [hev, creations_append, hcre, List.append_nil, effect.sequence, inv.created]
      · rw [hev]
        exact inv.announced.append (by simp [hdel])

/-! ## The moves of a call that is not silent -/

/-- The streams of the branches in `keys` carry packets. -/
def Filled (keys : List String) (rt : PacketRuntime F) : Prop :=
  ∀ k ∈ keys, ∀ stream, rt.streams.get? k = some stream → stream.currentPacket ≠ none

/-- No move takes the packet off a stream. -/
theorem Effect.filled {h h' : History F} {m : Move F} (effect : Effect uuid4 h m h')
    {keys : List String} (hfilled : Filled keys h.runtime) : Filled keys h'.runtime := by
  have hset : ∀ {k : String} {stream stream' : BranchStream F},
      h.runtime.streams.get? k = some stream →
      (stream.currentPacket ≠ none → stream'.currentPacket ≠ none) →
      h'.runtime.streams = h.runtime.streams.set k stream' → Filled keys h'.runtime := by
    intro k stream stream' hget hkeep hset k' hk' s hs
    rw [hset, Dict.get?_set] at hs
    split at hs
    · rename_i hkk
      obtain rfl := Option.some.inj hs
      exact hkeep (hfilled k (hkk ▸ hk') stream hget)
    · exact hfilled k' hk' s hs
  cases effect with
  | idle _ _ => exact hfilled
  | drawn effect _ _ => exact hset effect.get (by simp [effect.current]) effect.set
  | answered effect _ _ => exact hset effect.get (by simp [effect.after]) effect.set
  | kept effect _ _ =>
      refine hset effect.get (fun hne => ?_) effect.set
      simpa [effect.current] using hne

/-- A stream that `ensure_packets` visited carries a packet. -/
private theorem filled_ensureAt (rt : PacketRuntime F) (k : String) :
    Filled [k] (rt.ensureAt uuid4 k) := by
  intro k' hk' stream' hget
  obtain rfl := List.mem_singleton.mp hk'
  cases hk : rt.streams.get? k' with
  | none => simp [PacketRuntime.ensureAt, hk] at hget
  | some stream =>
      cases hp : stream.currentPacket with
      | some p =>
          obtain rfl : stream = stream' := by simpa [PacketRuntime.ensureAt, hk, hp] using hget
          simp [hp]
      | none =>
          simp only [PacketRuntime.ensureAt, hk, hp, PacketRuntime.setStream_streams,
            Dict.get?_set_self, Option.some.injEq] at hget
          simp [← hget, PacketRuntime.create, PacketRuntime.draw, BranchStream.newPacket]

/-- The moves of `ensure_packets` fill the streams they visit. -/
private theorem filled_ensure {h : History F} (hrt : RuntimeInv h.runtime)
    (keys : List String) :
    Filled keys (Run.run (History.move uuid4) h (keys.map .ensure)).runtime := by
  induction keys using List.reverseRecOn with
  | nil => simp [Filled]
  | append_singleton keys k ih =>
      rw [List.map_append, Run.run_append]
      have hinv := Run.run_invariant (fun h : History F => RuntimeInv h.runtime)
        (fun h m => History.move_inv uuid4 m) hrt (keys.map .ensure)
      have hkeys := (History.move_effect uuid4 _ hinv (.ensure k)).filled ih
      intro k' hk'
      rcases List.mem_append.mp hk' with hk' | hk'
      · exact hkeys k' hk'
      · exact filled_ensureAt _ k k' hk'

/-- Stepping filled streams draws nothing in silence. -/
private theorem allSteps_stepMoves {h : History F} (hrt : RuntimeInv h.runtime)
    (gate : ℕ → GateEvaluator F) {keys : List String} (hfilled : Filled keys h.runtime) :
    Run.AllSteps (History.move uuid4) (fun h m => ¬ m.Silent h.runtime) h
      (stepMoves gate keys) := by
  induction keys generalizing h gate with
  | nil => trivial
  | cons k keys ih =>
      have hready := History.move_effect uuid4 h hrt (.ready k)
      have hrt' := History.move_inv uuid4 (.ready k) hrt
      have hforward := History.move_effect uuid4 _ hrt' (.forward k (gate 0))
      refine ⟨?_, id, ih (History.move_inv uuid4 _ hrt') _ ?_⟩
      · rintro ⟨stream, hget, hnone⟩
        exact hfilled k List.mem_cons_self stream hget hnone
      · intro k' hk'
        exact hforward.filled (hready.filled hfilled) k' (List.mem_cons_of_mem k hk')

/-- The moves of a call that is not silent are not silent. -/
theorem Op.allSteps_moves {h : History F} (hrt : RuntimeInv h.runtime) {op : Op F}
    (haudible : ¬ op.Silent h.runtime) :
    Run.AllSteps (History.move uuid4) (fun h m => ¬ m.Silent h.runtime) h
      (op.moves h.runtime) := by
  -- of the moves only a replaced route can be silent
  have hmap : ∀ (make : String → Move F), (∀ k rt, ¬ (make k).Silent rt) →
      ∀ (keys : List String) (h : History F),
        Run.AllSteps (History.move uuid4) (fun h m => ¬ m.Silent h.runtime) h
          (keys.map make) := by
    intro make hmake keys
    induction keys with
    | nil => exact fun _ => trivial
    | cons k keys ih => exact fun h => ⟨hmake k _, ih _⟩
  cases op with
  | ensurePackets => exact hmap .ensure (fun _ _ => id) _ h
  | clearOutage branchId => exact hmap .clear (fun _ _ => id) _ h
  | replaceRoute k route => exact ⟨haudible, trivial⟩
  | stepStream k gate => exact ⟨haudible, id, trivial⟩
  | step gate =>
      rw [Op.moves, Run.allSteps_append]
      refine ⟨hmap .ensure (fun _ _ => id) _ h, allSteps_stepMoves ?_ gate ?_⟩
      · exact Run.run_invariant (fun h : History F => RuntimeInv h.runtime)
          (fun h m => History.move_inv uuid4 m) hrt _
      · refine fun k hk => filled_ensure hrt h.runtime.streams.keys k ?_
        unfold PacketRuntime.stepKeys at hk
        split at hk
        · exact List.mem_of_mem_take hk
        · exact hk

/-! ## Runs -/

/-- A call that is not silent keeps the invariants. -/
private theorem announcedInv_perform {h : History F} (op : Op F)
    (hinv : RuntimeInv h.runtime ∧ HistoryInv uuid4 h ∧ AnnouncedInv uuid4 h)
    (haudible : ¬ op.Silent h.runtime) :
    let h' := h.perform uuid4 op
    RuntimeInv h'.runtime ∧ HistoryInv uuid4 h' ∧ AnnouncedInv uuid4 h' := by
  intro h'
  rw [show h' = _ from History.perform_eq_run uuid4 h op]
  refine Run.run_invariant_of_allSteps
    (fun h => RuntimeInv h.runtime ∧ HistoryInv uuid4 h ∧ AnnouncedInv uuid4 h)
    (fun h m hinv haudible => ?_) hinv (Op.allSteps_moves hinv.1 haudible)
  exact ⟨History.move_inv uuid4 m hinv.1, hinv.2.1.move hinv.1 m,
    hinv.2.2.move hinv.1 hinv.2.1 haudible⟩

/-- In a run from `from_branches` without silent calls, each delivery event comes after exactly one
creation event of the same packet id, and on every prefix of the event log the telemetry reports a
packet delivery ratio of at most one. -/
theorem deliveries_announced (uuid4 : IdSupply) (branches : List (List ℤ))
    (mode source experimentId runId : String) (packetSizeBytes : ℤ) (ops : List (Op F))
    (haudible : Run.AllSteps (History.perform uuid4) (fun h op => ¬ op.Silent h.runtime)
      (.start branches mode source experimentId runId packetSizeBytes) ops) :
    let events := (Run.run (History.perform uuid4)
      (.start branches mode source experimentId runId packetSizeBytes) ops).runtime.events
    Announced events ∧
      ∀ log, log <+: events →
        (Telemetry.aggregate (eventTypes log)).packetDeliveryRatio ≤ 1 := by
  intro events
  have hstart : AnnouncedInv uuid4
      (.start branches mode source experimentId runId packetSizeBytes : History F) :=
    { created := rfl
      announced := fun before ev after q gate hnil => by
        simp [History.start, PacketRuntime.fromBranches] at hnil }
  obtain ⟨_, hinv, hannounced⟩ := Run.run_invariant_of_allSteps
    (fun h => RuntimeInv h.runtime ∧ HistoryInv uuid4 h ∧ AnnouncedInv uuid4 h)
    (fun h op hinv haudible => announcedInv_perform op hinv haudible)
    ⟨fromBranches_inv branches mode source experimentId runId packetSizeBytes,
      HistoryInv.start branches mode source experimentId runId packetSizeBytes, hstart⟩ haudible
  exact ⟨hannounced.announced, fun log hlog =>
    hannounced.announced.packetDeliveryRatio_le_one hinv.deliveries_packetId_nodup hlog⟩

/-- Filling the streams first announces every packet. -/
theorem deliveries_announced_chain :
    let events := (Run.run (History.perform (F := ℚ) .unary)
      (.start [[1]] "chain" "station" "" "" 512) [.step fun _ => openGate]).runtime.events
    Announced events ∧
      ∀ log, log <+: events →
        (Telemetry.aggregate (eventTypes log)).packetDeliveryRatio ≤ 1 :=
  deliveries_announced .unary [[1]] "chain" "station" "" "" 512 [.step fun _ => openGate]
    ⟨id, trivial⟩

/-- After its route was replaced, a stream delivers a packet that no event created: the first packet
was delivered as well, so two deliveries stand against one creation. -/
theorem replaced_packet_unannounced :
    ¬ ∀ (branches : List (List ℤ)) (mode source experimentId runId : String)
        (packetSizeBytes : ℤ) (ops : List (Op ℚ)),
      let events := (Run.run (History.perform .unary)
        (.start branches mode source experimentId runId packetSizeBytes) ops).runtime.events
      Announced events ∧
        ∀ log, log <+: events →
          (Telemetry.aggregate (eventTypes log)).packetDeliveryRatio ≤ 1 := by
  intro hall
  have h := (hall [[1]] "chain" "station" "" "" 512
    [.step fun _ => openGate, .replaceRoute "branch_0" ["station", "drone_2"],
      .step fun _ => openGate]).2 _ List.prefix_rfl
  -- the packet of the replaced route is delivered without having been announced
  have htypes : eventTypes (Run.run (History.perform (F := ℚ) .unary)
      (.start [[1]] "chain" "station" "" "" 512)
      [.step fun _ => openGate, .replaceRoute "branch_0" ["station", "drone_2"],
        .step fun _ => openGate]).runtime.events =
      ["PACKET_CREATED", "PACKET_DELIVERED", "ROUTE_RECOMPUTED", "PACKET_DELIVERED"] := by
    decide
  have hgenerated : ["PACKET_CREATED", "PACKET_DELIVERED", "ROUTE_RECOMPUTED",
      "PACKET_DELIVERED"].countP Telemetry.isGenerated = 1 := by decide
  have hdelivered : ["PACKET_CREATED", "PACKET_DELIVERED", "ROUTE_RECOMPUTED",
      "PACKET_DELIVERED"].countP Telemetry.isDelivered = 2 := by decide
  rw [htypes] at h
  simp only [Telemetry.aggregate, Telemetry.total_counter, hgenerated, hdelivered] at h
  norm_num at h

end Netlab.Packet
