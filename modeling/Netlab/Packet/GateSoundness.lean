import Netlab.Packet.History

/-!
# Packets move on feasible answers only, and are delivered once

Two facts complete the run invariant of `Netlab.Packet.History`. A call asks the gate at most once
about each packet (`numbers_nodup_of_perform`), because it steps every stream at most once and no
two streams carry the same packet. And a packet that a call leaves on a stream is either the one the
stream had before, on the same route, or a new one (`Succeeds`). So the walk of a packet grows by at
most one question in each call.
-/

namespace Netlab.Packet

variable {F : Type} {uuid4 : IdSupply}

/-! ## Packets from one state to the next -/

/-- Every packet of `rt'` was on the same stream of `rt`, with the same route, or was
drawn since. -/
def Succeeds (rt rt' : PacketRuntime F) : Prop :=
  rt.sequence ≤ rt'.sequence ∧
  ∀ k p', rt'.packetAt k = some p' →
    (∃ p, rt.packetAt k = some p ∧ p.sequenceNumber = p'.sequenceNumber ∧ p.route = p'.route) ∨
      rt.sequence < p'.sequenceNumber

theorem Succeeds.refl (rt : PacketRuntime F) : Succeeds rt rt :=
  ⟨le_rfl, fun _ p hp => Or.inl ⟨p, hp, rfl, rfl⟩⟩

theorem Succeeds.trans {rt₁ rt₂ rt₃ : PacketRuntime F} (h₁₂ : Succeeds rt₁ rt₂)
    (h₂₃ : Succeeds rt₂ rt₃) : Succeeds rt₁ rt₃ := by
  refine ⟨h₁₂.1.trans h₂₃.1, fun k p₃ hp₃ => ?_⟩
  rcases h₂₃.2 k p₃ hp₃ with ⟨p₂, hp₂, hn₂, hroute₂⟩ | hlt
  · rcases h₁₂.2 k p₂ hp₂ with ⟨p₁, hp₁, hn₁, hroute₁⟩ | hlt
    · exact Or.inl ⟨p₁, hp₁, hn₁.trans hn₂, hroute₁.trans hroute₂⟩
    · exact Or.inr (by omega)
  · exact Or.inr (by have := h₁₂.1; omega)

/-- A move leaves each stream its packet or gives it a new one. -/
theorem Effect.succeeds {h h' : History F} {m : Move F} (effect : Effect uuid4 h m h') :
    Succeeds h.runtime h'.runtime := by
  cases effect with
  | idle _ _ => exact .refl _
  -- a drawn packet has the next number, and every other effect keeps number and route
  | drawn effect _ _ =>
      refine ⟨by have := effect.sequence; omega, fun k p' hp' => ?_⟩
      rw [PacketRuntime.packetAt_set effect.set] at hp'
      split at hp'
      · obtain rfl := Option.some.inj (effect.current.symm.trans hp')
        exact Or.inr (by have := effect.number; omega)
      · exact Or.inl ⟨p', hp', rfl, rfl⟩
  | @answered _ k stream _ p _ _ effect _ _ =>
      refine ⟨effect.sequence.ge, fun k' p' hp' => ?_⟩
      rw [PacketRuntime.packetAt_set effect.set] at hp'
      split at hp'
      · rename_i hkk
        obtain rfl := Option.some.inj (effect.after.symm.trans hp')
        exact Or.inl ⟨p, by simp [PacketRuntime.packetAt, hkk, effect.get, effect.before],
          effect.number.symm, effect.route.symm⟩
      · exact Or.inl ⟨p', hp', rfl, rfl⟩
  | kept effect _ _ =>
      refine ⟨effect.sequence.ge, fun k' p' hp' => ?_⟩
      obtain ⟨p, hp, agree⟩ := effect.packetAt hp'
      exact Or.inl ⟨p, hp, agree.number.symm, agree.route.symm⟩

/-- A call leaves each stream its packet or gives it a new one. -/
theorem History.perform_succeeds (uuid4 : IdSupply) {h : History F} (inv : RuntimeInv h.runtime)
    (op : Op F) : Succeeds h.runtime (h.perform uuid4 op).runtime := by
  rw [History.perform_eq_run]
  have hrun := Run.run_invariant (fun h' => RuntimeInv h'.runtime ∧ Succeeds h.runtime h'.runtime)
    (fun h' m hinv => ⟨History.move_inv uuid4 m hinv.1,
      hinv.2.trans (History.move_effect uuid4 h' hinv.1 m).succeeds⟩)
    ⟨inv, .refl _⟩ (op.moves h.runtime)
  exact hrun.2

/-! ## One question for each packet in a call -/

namespace PacketRuntime

variable (uuid4)

/-- The packet that was put to the gate stays on the stream, and the question is about it. -/
private theorem forward_asked (rt : PacketRuntime F) (stream : BranchStream F)
    (packet : PacketState) (gate : GateEvaluator F) :
    (rt.forward stream packet gate).stream.currentPacket.map (·.sequenceNumber) =
      some packet.sequenceNumber ∧
    ∀ call, (rt.forward stream packet gate).asked = some call →
      call.sequenceNumber = packet.sequenceNumber := by
  unfold forward
  split
  · simp
  · dsimp only
    split
    · exact ⟨rfl, fun call hcall => by cases hcall; rfl⟩
    · split <;> exact ⟨rfl, fun call hcall => by cases hcall; rfl⟩

/-- Stepping one stream leaves the packets of the others. -/
private theorem stepAt_packetAt_of_ne (rt : PacketRuntime F) {k k' : String}
    (gate : GateEvaluator F) (hne : k' ≠ k) :
    (rt.stepAt uuid4 k gate).runtime.packetAt k' = rt.packetAt k' := by
  unfold stepAt
  split
  · rfl
  · simp only [packetAt, stepStream, setStream_streams, Dict.get?_set_of_ne _ _ hne,
      forward_streams, readyPacket_streams]

/-- Stepping a stream asks at most one question, about the packet it leaves there. -/
private theorem stepAt_asked (rt : PacketRuntime F) (k : String) (gate : GateEvaluator F) :
    (rt.stepAt uuid4 k gate).asked = [] ∨
      ∃ call p, (rt.stepAt uuid4 k gate).asked = [call] ∧
        (rt.stepAt uuid4 k gate).runtime.packetAt k = some p ∧
        p.sequenceNumber = call.sequenceNumber := by
  cases hk : rt.streams.get? k with
  | none => simp [stepAt, hk]
  | some stream =>
      obtain ⟨hcurrent, hcall⟩ := forward_asked (rt.readyPacket uuid4 stream).1
        (rt.readyPacket uuid4 stream).2.1 (rt.readyPacket uuid4 stream).2.2 gate
      obtain ⟨p, hp, hn⟩ := Option.map_eq_some_iff.mp hcurrent
      cases hasked : ((rt.readyPacket uuid4 stream).1.forward (rt.readyPacket uuid4 stream).2.1
          (rt.readyPacket uuid4 stream).2.2 gate).asked with
      | none => simp [stepAt, hk, stepStream, hasked]
      | some call =>
          refine Or.inr ⟨call, p, ?_, ?_, hn.trans (hcall call hasked).symm⟩
          · simp [stepAt, hk, stepStream, hasked]
          · simp [stepAt, hk, stepStream, packetAt, hp]

private theorem stepEach_packetAt (rt : PacketRuntime F) (gate : ℕ → GateEvaluator F)
    {keys : List String} {k : String} (hk : k ∉ keys) :
    (stepEach uuid4 gate keys rt).runtime.packetAt k = rt.packetAt k := by
  induction keys generalizing rt gate with
  | nil => rfl
  | cons k' keys ih =>
      rw [List.mem_cons, not_or] at hk
      rw [stepEach, ih _ _ hk.2, stepAt_packetAt_of_ne uuid4 rt _ hk.1]

/-- Stepping distinct streams asks about the packets they carry afterwards, once each. -/
private theorem stepEach_asked (rt : PacketRuntime F) (gate : ℕ → GateEvaluator F)
    {keys : List String} (hkeys : keys.Nodup) :
    ((stepEach uuid4 gate keys rt).asked.map (·.sequenceNumber)).Sublist
      (keys.filterMap fun k =>
        ((stepEach uuid4 gate keys rt).runtime.packetAt k).map (·.sequenceNumber)) := by
  induction keys generalizing rt gate with
  | nil => simp [stepEach]
  | cons k keys ih =>
      rw [List.nodup_cons] at hkeys
      have hrest := ih (rt.stepAt uuid4 k (gate 0)).runtime (fun i => gate (i + 1)) hkeys.2
      -- the later steps leave the packet of `k`
      have hkeep := stepEach_packetAt uuid4 (rt.stepAt uuid4 k (gate 0)).runtime
        (fun i => gate (i + 1)) hkeys.1
      rcases stepAt_asked uuid4 rt k (gate 0) with hnone | ⟨call, p, hcall, hp, hn⟩
      · simp only [stepEach, hnone, List.nil_append, List.filterMap_cons]
        split
        · exact hrest
        · exact hrest.cons _
      · simp only [stepEach, hcall, List.singleton_append, List.map_cons, List.filterMap_cons,
          hkeep, hp, Option.map_some, hn]
        exact hrest.cons_cons _

end PacketRuntime

/-- A call asks the gate at most once about each packet. -/
theorem numbers_nodup_of_perform {h : History F} (op : Op F)
    (inv : HistoryInv uuid4 (h.perform uuid4 op)) :
    ((Packet.perform uuid4 h.runtime op).asked.map (·.sequenceNumber)).Nodup := by
  -- each branch asks once, for its own packet, and no two packets share a number
  have hstep : ∀ (rt : PacketRuntime F) (gate : ℕ → GateEvaluator F) (keys : List String),
      keys.Nodup → (PacketRuntime.stepEach uuid4 gate keys rt).runtime =
        (Packet.perform uuid4 h.runtime op).runtime →
      ((PacketRuntime.stepEach uuid4 gate keys rt).asked.map (·.sequenceNumber)).Nodup := by
    intro rt gate keys hkeys hrt
    refine (PacketRuntime.stepEach_asked uuid4 rt gate hkeys).nodup ?_
    rw [hrt]
    refine hkeys.filterMap fun k k' n hn hn' => ?_
    obtain ⟨p, hp, rfl⟩ := Option.map_eq_some_iff.mp hn
    obtain ⟨p', hp', heq⟩ := Option.map_eq_some_iff.mp hn'
    exact inv.owner k k' p p' hp hp' heq.symm
  cases op with
  | ensurePackets => simp [Packet.perform]
  | clearOutage branchId => simp [Packet.perform]
  | replaceRoute branchId route => simp [Packet.perform]
  | step gate =>
      refine hstep _ _ _ ?_ rfl
      split
      · exact ((h.runtime.ensurePackets uuid4).streams.nodup).sublist (List.take_sublist _ _)
      · exact (h.runtime.ensurePackets uuid4).streams.nodup
  | stepStream branchId gate =>
      have := hstep h.runtime (fun _ => gate) [branchId] (List.nodup_singleton _) rfl
      simpa [PacketRuntime.stepEach, Packet.perform] using this

private theorem callsFor_length_le {asked : List (GateCall F)}
    (h : (asked.map (·.sequenceNumber)).Nodup) (n : ℕ) : (callsFor asked n).length ≤ 1 := by
  have hcount := List.nodup_iff_count_le_one.mp h n
  rwa [List.count, List.countP_map, List.countP_eq_length_filter] at hcount

/-! ## The cursor of a packet -/

/-- Where the cursor of the packet `p'` stood in `rt` on the stream of branch `k`: at the start
of its route when the stream had another packet or none. -/
def PacketRuntime.hopBefore (rt : PacketRuntime F) (k : String) (p' : PacketState) : ℕ :=
  match rt.packetAt k with
  | some p => if p.packetId = p'.packetId then p.currentHopIndex else 0
  | none => 0

/-- What was asked about the packet of a stream before a call took its cursor to `hopBefore`. -/
private theorem walk_hopBefore {h : History F} (hrt : RuntimeInv h.runtime)
    (inv : HistoryInv uuid4 h) (op : Op F) (inv' : HistoryInv uuid4 (h.perform uuid4 op))
    {k : String} {p' : PacketState} (hp' : (h.perform uuid4 op).runtime.packetAt k = some p') :
    Walk p'.route (callsFor h.asked p'.sequenceNumber) (h.runtime.hopBefore k p') := by
  have hid' := (inv'.packet k p' hp').2.2
  rcases (History.perform_succeeds uuid4 hrt op).2 k p' hp' with ⟨p, hp, hn, hroute⟩ | hnew
  · have hid : p.packetId = p'.packetId := by rw [(inv.packet k p hp).2.2, hid', hn]
    have hwalk := inv.walk k p hp
    rw [hn, hroute] at hwalk
    simpa [PacketRuntime.hopBefore, hp, hid] using hwalk
  · -- a packet that is new has not been asked for, and starts at the first hop
    have hnil : callsFor h.asked p'.sequenceNumber = [] := by
      refine List.filter_eq_nil_iff.mpr fun call hcall => ?_
      have := inv.asked call hcall
      simp only [decide_eq_true_eq]
      omega
    -- the id tells the packet from the one before it
    have hzero : h.runtime.hopBefore k p' = 0 := by
      unfold PacketRuntime.hopBefore
      split
      · rename_i p hp
        have hpacket := inv.packet k p hp
        rw [if_neg]
        intro heq
        have := uuid4.injective _ _ (hpacket.2.2.symm.trans (heq.trans hid'))
        omega
      · rfl
    rw [hnil, hzero]
    exact .start

/-- A walk that at most one question makes longer: the question is about the hop at the cursor,
and the cursor rises by one exactly when the answer is feasible. -/
theorem Walk.extend {route : List String} {asked calls : List (GateCall F)} {before hop : ℕ}
    (h : Walk route asked before) (h' : Walk route (asked ++ calls) hop)
    (hone : calls.length ≤ 1) :
    (∀ call ∈ calls, route[before]? = some call.src ∧ route[before + 1]? = some call.dst) ∧
      (hop = before + 1 ↔ ∃ call ∈ calls, call.decision.feasible = true) ∧
      (hop ≠ before + 1 → hop = before) := by
  match calls with
  | [] =>
      rw [List.append_nil] at h'
      have hhop : hop = before := h'.hop_eq.trans h.hop_eq.symm
      simp [hhop]
  | [call] =>
      obtain ⟨hop', hpre, hsrc, hdst, hhop⟩ := h'.last
      obtain rfl : hop' = before := hpre.hop_eq.trans h.hop_eq.symm
      cases hfeasible : call.decision.feasible <;> simp_all
  | _ :: _ :: _ => simp at hone

/-- Let `h` be the state after any run from `from_branches`, and perform one more call.

The call asks the gate at most once about the packet that it leaves on a stream; when it does, the
question is about the hop at the cursor that the packet had before the call. The cursor rises by one
exactly when the answer is feasible and stays otherwise.

In `h`, the feasible questions asked about a delivered packet are the hops of its route, once each
and in order; the packets that the streams show as delivered are those with a delivery event; no
packet id is delivered twice; and a stream has completed as many packets as its branch has
delivered. -/
theorem gate_sound_and_delivered_once (uuid4 : IdSupply) (branches : List (List ℤ))
    (mode source experimentId runId : String) (packetSizeBytes : ℤ) (ops : List (Op F))
    (op : Op F) :
    let h := Run.run (History.perform uuid4)
      (.start branches mode source experimentId runId packetSizeBytes) ops
    let outcome := perform uuid4 h.runtime op
    (∀ k p', outcome.runtime.packetAt k = some p' →
      let before := h.runtime.hopBefore k p'
      let calls := callsFor outcome.asked p'.sequenceNumber
      calls.length ≤ 1 ∧
      (∀ call ∈ calls, p'.route[before]? = some call.src ∧
        p'.route[before + 1]? = some call.dst) ∧
      (p'.currentHopIndex = before + 1 ↔ ∃ call ∈ calls, call.decision.feasible = true) ∧
      (p'.currentHopIndex ≠ before + 1 → p'.currentHopIndex = before)) ∧
    (∀ q ∈ deliveries h.runtime.events,
      ((callsFor h.asked q.sequenceNumber).filter (·.decision.feasible)).map GateCall.hop =
        q.route.hops) ∧
    (∀ k p, h.runtime.packetAt k = some p →
      (p.status = .delivered ↔ p.packetId ∈ (deliveries h.runtime.events).map (·.packetId))) ∧
    ((deliveries h.runtime.events).map (·.packetId)).Nodup ∧
    (∀ k stream, h.runtime.streams.get? k = some stream →
      stream.completedPackets =
        ((deliveries h.runtime.events).filter fun q => q.branchId = k).length) := by
  intro h outcome
  obtain ⟨hrt, inv⟩ : RuntimeInv h.runtime ∧ HistoryInv uuid4 h :=
    History.reachable_inv uuid4 branches mode source experimentId runId packetSizeBytes ops
  have inv' : HistoryInv uuid4 (h.perform uuid4 op) := by
    have hreach := (History.reachable_inv uuid4 branches mode source experimentId runId packetSizeBytes
      (ops ++ [op])).2
    rwa [Run.run_append] at hreach
  refine ⟨fun k p' hp' => ?_, fun q hq => ?_, fun k p hp => ?_,
    inv.deliveries_packetId_nodup, inv.completed⟩
  · -- one call at most moves the packet on from where it was
    have hwalk := walk_hopBefore hrt inv op inv' hp'
    have hwalk' : Walk p'.route (callsFor h.asked p'.sequenceNumber ++
        callsFor outcome.asked p'.sequenceNumber) p'.currentHopIndex := by
      have := inv'.walk k p' hp'
      rwa [History.perform, callsFor_append] at this
    have hone := callsFor_length_le (numbers_nodup_of_perform op inv') p'.sequenceNumber
    exact ⟨hone, hwalk.extend hwalk' hone⟩
  · -- a delivered packet has walked its whole route
    obtain ⟨_, _, hwalk⟩ := inv.arrived q hq
    rw [hwalk.feasible_hops, List.take_of_length_le (by simp)]
  · rw [inv.delivered k p hp, (inv.packet k p hp).2.2]
    constructor
    · intro hmem
      obtain ⟨q, hq, hn⟩ := List.mem_map.mp hmem
      exact List.mem_map.mpr ⟨q, hq, by rw [(inv.arrived q hq).2.1, hn]⟩
    · intro hmem
      obtain ⟨q, hq, hid⟩ := List.mem_map.mp hmem
      rw [(inv.arrived q hq).2.1] at hid
      exact List.mem_map.mpr ⟨q, hq, uuid4.injective _ _ hid⟩

end Netlab.Packet
