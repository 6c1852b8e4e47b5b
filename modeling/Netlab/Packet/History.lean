import Netlab.Packet.Effects
import Netlab.Prelude.Hops

/-!
# What a run asks its gate

A packet walks its route on the answers of the gate. `Walk route calls hop` says that asking the
questions `calls` about one packet, in order, brings its cursor from the start of the route to
`hop`: each question is about the hop under the cursor, and the cursor moves on exactly the
feasible answers.

The run invariant `HistoryInv` ties every packet to the questions that were asked about it and the
counters of the streams to the delivery events of the log.
-/

namespace Netlab.Packet

variable {F : Type}

/-- The questions asked about one packet. -/
def callsFor (asked : List (GateCall F)) (sequenceNumber : ℕ) : List (GateCall F) :=
  asked.filter fun call => call.sequenceNumber = sequenceNumber

/-- The packet that the stream of a branch carries. -/
def PacketRuntime.packetAt (rt : PacketRuntime F) (branchId : String) : Option PacketState :=
  (rt.streams.get? branchId).bind (·.currentPacket)

/-! ## Walks along a route -/

/-- The questions `calls` take the cursor of a packet from the start of `route` to `hop`. -/
inductive Walk (route : List String) : List (GateCall F) → ℕ → Prop
  | start : Walk route [] 0
  | ask {calls : List (GateCall F)} {hop : ℕ} {call : GateCall F} (walk : Walk route calls hop)
      (src : route[hop]? = some call.src) (dst : route[hop + 1]? = some call.dst) :
      Walk route (calls ++ [call]) (if call.decision.feasible then hop + 1 else hop)

/-- The hops that were answered feasible are the hops before the cursor, once each and in order. -/
theorem Walk.feasible_hops {route : List String} {calls : List (GateCall F)} {hop : ℕ}
    (h : Walk route calls hop) :
    (calls.filter (·.decision.feasible)).map GateCall.hop = route.hops.take hop := by
  induction h with
  | start => simp
  | @ask calls hop call walk src dst ih =>
      cases hf : call.decision.feasible with
      | false => simpa [hf] using ih
      | true => simp [hf, ih, List.take_succ_hops src dst, GateCall.hop]

/-- The cursor is the number of feasible answers. -/
theorem Walk.hop_eq {route : List String} {calls : List (GateCall F)} {hop : ℕ}
    (h : Walk route calls hop) : hop = (calls.filter (·.decision.feasible)).length := by
  induction h with
  | start => rfl
  | @ask calls hop call walk src dst ih =>
      cases hf : call.decision.feasible <;> simp [hf, ih]

/-- The last question of a walk was about the hop under the cursor at that time. -/
theorem Walk.last {route : List String} {calls : List (GateCall F)} {call : GateCall F} {hop : ℕ}
    (h : Walk route (calls ++ [call]) hop) :
    ∃ before, Walk route calls before ∧ route[before]? = some call.src ∧
      route[before + 1]? = some call.dst ∧
      hop = if call.decision.feasible then before + 1 else before := by
  generalize hall : calls ++ [call] = all at h
  cases h with
  | start => simp at hall
  | @ask calls' before call' walk src dst =>
      obtain ⟨rfl, hcall⟩ := List.append_inj' hall rfl
      obtain rfl := List.singleton_inj.mp hcall
      exact ⟨before, walk, src, dst, rfl⟩

/-! ## The run invariant -/

/-- The packets of a history and the questions asked about them. -/
structure HistoryInv (uuid4 : IdSupply) (h : History F) : Prop where
  /-- a stream is stored under its own branch id -/
  branchId : ∀ k stream, h.runtime.streams.get? k = some stream → stream.branchId = k
  /-- a packet carries the id of its branch, a number that was drawn, and the id of that draw -/
  packet : ∀ k p, h.runtime.packetAt k = some p → p.branchId = k ∧
    (0 < p.sequenceNumber ∧ p.sequenceNumber ≤ h.runtime.sequence) ∧
    p.packetId = uuid4.id p.sequenceNumber
  /-- the cursor of a packet is where the answers took it -/
  walk : ∀ k p, h.runtime.packetAt k = some p →
    Walk p.route (callsFor h.asked p.sequenceNumber) p.currentHopIndex
  /-- a packet is delivered exactly when a delivery event says so -/
  delivered : ∀ k p, h.runtime.packetAt k = some p →
    (p.status = .delivered ↔
      p.sequenceNumber ∈ (deliveries h.runtime.events).map (·.sequenceNumber))
  /-- no two streams carry the same packet -/
  owner : ∀ k k' p p', h.runtime.packetAt k = some p → h.runtime.packetAt k' = some p' →
    p.sequenceNumber = p'.sequenceNumber → k = k'
  /-- the gate was only asked about packets that were drawn -/
  asked : ∀ call ∈ h.asked, call.sequenceNumber ≤ h.runtime.sequence
  /-- a delivered packet walked its whole route -/
  arrived : ∀ q ∈ deliveries h.runtime.events, q.sequenceNumber ≤ h.runtime.sequence ∧
    q.packetId = uuid4.id q.sequenceNumber ∧
    Walk q.route (callsFor h.asked q.sequenceNumber) (q.route.length - 1)
  /-- no packet is delivered twice -/
  once : ((deliveries h.runtime.events).map (·.sequenceNumber)).Nodup
  /-- a stream counts the deliveries of its branch -/
  completed : ∀ k stream, h.runtime.streams.get? k = some stream →
    stream.completedPackets =
      ((deliveries h.runtime.events).filter fun q => q.branchId = k).length

/-- The stream found after one is stored. -/
theorem PacketRuntime.packetAt_set {rt rt' : PacketRuntime F} {k : String}
    {stream : BranchStream F} (hset : rt'.streams = rt.streams.set k stream) (k' : String) :
    rt'.packetAt k' = if k' = k then stream.currentPacket else rt.packetAt k' := by
  rw [packetAt, hset, Dict.get?_set]
  split <;> simp [packetAt]

private theorem callsFor_eq_nil {asked : List (GateCall F)} {n : ℕ}
    (h : ∀ call ∈ asked, call.sequenceNumber ≠ n) : callsFor asked n = [] := by
  simpa [callsFor, List.filter_eq_nil_iff] using h

theorem callsFor_append (asked asked' : List (GateCall F)) (n : ℕ) :
    callsFor (asked ++ asked') n = callsFor asked n ++ callsFor asked' n := by
  simp [callsFor]

variable {uuid4 : IdSupply}

/-- A new packet has a number that nothing was asked about or delivered under. -/
theorem HistoryInv.drawn {h h' : History F} (inv : HistoryInv uuid4 h) {k : String}
    {stream stream' : BranchStream F} {p : PacketState} {announced : Bool}
    (d : Drawn uuid4 h h' k stream stream' p announced) : HistoryInv uuid4 h' := by
  have hkid := inv.branchId k stream d.get
  have hat := PacketRuntime.packetAt_set d.set
  have hn := d.number
  have hseq := d.sequence
  have hev : deliveries h'.runtime.events = deliveries h.runtime.events := by
    obtain ⟨ev, hev, hdel, _⟩ := d.events
    simp [hev, hdel]
  -- the number is new, so the gate has not been asked about it, and it was not delivered
  have hfresh : callsFor h.asked p.sequenceNumber = [] :=
    callsFor_eq_nil fun call hcall => by have := inv.asked call hcall; omega
  have hundelivered :
      p.sequenceNumber ∉ (deliveries h.runtime.events).map (·.sequenceNumber) := by
    intro hmem
    obtain ⟨q, hq, heq⟩ := List.mem_map.mp hmem
    have := (inv.arrived q hq).1
    omega
  -- streams, packets, walks, deliveries, owners, calls, arrivals and counts, in this order
  refine
    { branchId := fun k' s hs => ?_, packet := fun k' q hq => ?_, walk := fun k' q hq => ?_
      delivered := fun k' q hq => ?_, owner := fun k₁ k₂ q₁ q₂ h₁ h₂ heq => ?_
      asked := fun call hcall => ?_, arrived := fun q hq => ?_, once := hev ▸ inv.once
      completed := fun k' s hs => ?_ }
  · rw [d.set, Dict.get?_set] at hs
    split at hs
    · rename_i hkk
      obtain rfl := Option.some.inj hs
      rw [d.branchId, hkid, hkk]
    · exact inv.branchId k' s hs
  · rw [hat, d.current] at hq
    split at hq
    · rename_i hkk
      obtain rfl := Option.some.inj hq
      exact ⟨by rw [d.packetBranch, hkid, hkk], by omega, by rw [d.packetId, hn]⟩
    · obtain ⟨hb, hle, hid⟩ := inv.packet k' q hq
      exact ⟨hb, by omega, hid⟩
  · rw [hat, d.current] at hq
    rw [d.asked]
    split at hq
    · obtain rfl := Option.some.inj hq
      rw [hfresh, d.start]
      exact .start
    · exact inv.walk k' q hq
  · rw [hat, d.current] at hq
    rw [hev]
    split at hq
    · obtain rfl := Option.some.inj hq
      exact iff_of_false d.fresh hundelivered
    · exact inv.delivered k' q hq
  · rw [hat, d.current] at h₁ h₂
    split at h₁ <;> split at h₂
    · simp_all
    · obtain rfl := Option.some.inj h₁
      have := (inv.packet k₂ q₂ h₂).2.1.2
      omega
    · obtain rfl := Option.some.inj h₂
      have := (inv.packet k₁ q₁ h₁).2.1.2
      omega
    · exact inv.owner k₁ k₂ q₁ q₂ h₁ h₂ heq
  · rw [d.asked] at hcall
    have := inv.asked call hcall
    omega
  · rw [hev] at hq
    obtain ⟨hle, hid, hwalk⟩ := inv.arrived q hq
    rw [d.asked]
    exact ⟨by omega, hid, hwalk⟩
  · rw [hev]
    rw [d.set, Dict.get?_set] at hs
    split at hs
    · rename_i hkk
      obtain rfl := Option.some.inj hs
      rw [d.completed, inv.completed k stream d.get, hkk]
    · exact inv.completed k' s hs

/-- The packet put to the gate follows the answer; the other packets keep their questions. -/
theorem HistoryInv.answered {h h' : History F} (inv : HistoryInv uuid4 h) {k : String}
    {stream stream' : BranchStream F} {p p' : PacketState} {call : GateCall F}
    (a : Answered h h' k stream stream' p p' call) : HistoryInv uuid4 h' := by
  have hkid := inv.branchId k stream a.get
  have hat := PacketRuntime.packetAt_set a.set
  have hn := a.number
  have hseq := a.sequence
  have habout := a.about
  have hpk : h.runtime.packetAt k = some p := by simp [PacketRuntime.packetAt, a.get, a.before]
  obtain ⟨hpbranch, hple, hpid⟩ := inv.packet k p hpk
  have hnot : p.sequenceNumber ∉ (deliveries h.runtime.events).map (·.sequenceNumber) :=
    fun hmem => a.undelivered ((inv.delivered k p hpk).mpr hmem)
  have hev : deliveries h'.runtime.events =
      deliveries h.runtime.events ++ if p'.status = .delivered then [p'] else [] := by
    obtain ⟨ev, hev, _, hdel⟩ := a.events
    simp [hev, hdel]
  -- the call is about this packet only
  have hother : ∀ n, n ≠ p.sequenceNumber → callsFor h'.asked n = callsFor h.asked n := by
    intro n hne
    have hnew : callsFor [call] n = [] := callsFor_eq_nil (by simp [habout, hne.symm])
    rw [a.asked, callsFor_append, hnew, List.append_nil]
  have hwalk : Walk p'.route (callsFor h'.asked p'.sequenceNumber) p'.currentHopIndex := by
    have hcalls : callsFor h'.asked p'.sequenceNumber =
        callsFor h.asked p.sequenceNumber ++ [call] := by
      rw [hn, a.asked, callsFor_append]
      simp [callsFor, habout]
    rw [hcalls, a.hop, a.route]
    exact (inv.walk k p hpk).ask a.src a.dst
  have hdel : (deliveries h'.runtime.events).map (·.sequenceNumber) =
      (deliveries h.runtime.events).map (·.sequenceNumber) ++
        if p'.status = .delivered then [p.sequenceNumber] else [] := by
    rw [hev, List.map_append]
    split <;> simp [hn]
  -- streams, packets, walks, deliveries, owners, calls, arrivals, single deliveries and counts
  refine
    { branchId := fun k' s hs => ?_, packet := fun k' q hq => ?_, walk := fun k' q hq => ?_
      delivered := fun k' q hq => ?_, owner := fun k₁ k₂ q₁ q₂ h₁ h₂ heq => ?_
      asked := fun c hc => ?_, arrived := fun q hq => ?_, once := ?_
      completed := fun k' s hs => ?_ }
  · rw [a.set, Dict.get?_set] at hs
    split at hs
    · rename_i hkk
      obtain rfl := Option.some.inj hs
      rw [a.branchId, hkid, hkk]
    · exact inv.branchId k' s hs
  · rw [hat, a.after] at hq
    rw [hseq]
    split at hq
    · rename_i hkk
      obtain rfl := Option.some.inj hq
      exact ⟨by rw [a.packetBranch, hpbranch, hkk], by omega, by rw [a.packetId, hpid, hn]⟩
    · exact inv.packet k' q hq
  · rw [hat, a.after] at hq
    split at hq
    · obtain rfl := Option.some.inj hq
      exact hwalk
    · rename_i hkk
      rw [hother q.sequenceNumber fun heq => hkk (inv.owner k' k q p hq hpk heq)]
      exact inv.walk k' q hq
  · rw [hat, a.after] at hq
    rw [hdel]
    split at hq
    · obtain rfl := Option.some.inj hq
      by_cases hd : p'.status = .delivered <;> simp [hd, hn, hnot]
    · rename_i hkk
      have hne : q.sequenceNumber ≠ p.sequenceNumber :=
        fun heq => hkk (inv.owner k' k q p hq hpk heq)
      rw [inv.delivered k' q hq, List.mem_append]
      by_cases hd : p'.status = .delivered <;> simp [hd, hne]
  · rw [hat, a.after] at h₁ h₂
    split at h₁ <;> split at h₂
    · simp_all
    · obtain rfl := Option.some.inj h₁
      exact (‹k₁ = k›).trans (inv.owner k k₂ p q₂ hpk h₂ (hn ▸ heq))
    · obtain rfl := Option.some.inj h₂
      exact (inv.owner k₁ k q₁ p h₁ hpk (hn ▸ heq)).trans (‹k₂ = k›).symm
    · exact inv.owner k₁ k₂ q₁ q₂ h₁ h₂ heq
  · rw [a.asked, List.mem_append, List.mem_singleton] at hc
    rw [hseq]
    rcases hc with hc | rfl
    · exact inv.asked c hc
    · omega
  · rw [hev, List.mem_append] at hq
    rw [hseq]
    rcases hq with hq | hq
    · have hne : q.sequenceNumber ≠ p.sequenceNumber :=
        fun heq => hnot (heq ▸ List.mem_map.mpr ⟨q, hq, rfl⟩)
      rw [hother _ hne]
      exact inv.arrived q hq
    · by_cases hd : p'.status = .delivered
      · rw [if_pos hd, List.mem_singleton] at hq
        subst hq
        exact ⟨by omega, by rw [a.packetId, hpid, hn], a.arrived hd ▸ hwalk⟩
      · simp [hd] at hq
  · rw [hdel]
    by_cases hd : p'.status = .delivered
    · rw [if_pos hd]
      exact List.nodup_append_comm.mp (List.nodup_cons.mpr ⟨hnot, inv.once⟩)
    · simpa [hd] using inv.once
  · rw [hev, List.filter_append, List.length_append]
    rw [a.set, Dict.get?_set] at hs
    split at hs
    · rename_i hkk
      obtain rfl := Option.some.inj hs
      rw [a.completed, inv.completed k stream a.get, hkk]
      by_cases hd : p'.status = .delivered <;> simp [hd, a.packetBranch, hpbranch]
    · rename_i hkk
      rw [inv.completed k' s hs]
      by_cases hd : p'.status = .delivered
      · simp [hd, a.packetBranch, hpbranch, Ne.symm hkk]
      · simp [hd]

/-- A packet after a kept move agrees with the one before it. -/
theorem Kept.packetAt {h h' : History F} {k : String} {stream stream' : BranchStream F}
    {change : PacketState → PacketState} (c : Kept h h' k stream stream' change)
    {k' : String} {q : PacketState} (hq : h'.runtime.packetAt k' = some q) :
    ∃ p, h.runtime.packetAt k' = some p ∧ p.Agree q := by
  rw [PacketRuntime.packetAt_set c.set] at hq
  split at hq
  · rename_i hkk
    rw [c.current] at hq
    obtain ⟨p, hp, rfl⟩ := Option.map_eq_some_iff.mp hq
    exact ⟨p, by simp [PacketRuntime.packetAt, hkk, c.get, hp], c.agree p⟩
  · exact ⟨q, hq, .refl q⟩

/-- What a kept move changes is not read by the invariant. -/
theorem HistoryInv.kept {h h' : History F} (inv : HistoryInv uuid4 h) {k : String}
    {stream stream' : BranchStream F} {change : PacketState → PacketState}
    (c : Kept h h' k stream stream' change) : HistoryInv uuid4 h' := by
  have hseq := c.sequence
  -- nothing is delivered, so the deliveries are those of before
  have hev : deliveries h'.runtime.events = deliveries h.runtime.events := by
    obtain ⟨ev, hev, _, hdel⟩ := c.events
    simp [hev, hdel]
  have hget : ∀ k' s, h'.runtime.streams.get? k' = some s →
      ∃ s₀, h.runtime.streams.get? k' = some s₀ ∧ s.branchId = s₀.branchId ∧
        s.completedPackets = s₀.completedPackets := by
    intro k' s hs
    rw [c.set, Dict.get?_set] at hs
    split at hs
    · rename_i hkk
      obtain rfl := Option.some.inj hs
      exact ⟨stream, by rw [hkk, c.get], c.branchId, c.completed⟩
    · exact ⟨s, hs, rfl, rfl⟩
  -- a packet in flight agrees with one of before in all that its history tells
  refine
    { branchId := fun k' s hs => ?_, packet := fun k' q hq => ?_, walk := fun k' q hq => ?_
      delivered := fun k' q hq => ?_, owner := fun k₁ k₂ q₁ q₂ h₁ h₂ heq => ?_
      asked := by rw [c.asked, hseq]; exact inv.asked
      arrived := by rw [hev, c.asked, hseq]; exact inv.arrived
      once := hev ▸ inv.once, completed := fun k' s hs => ?_ }
  · obtain ⟨s₀, hs₀, hid₀, _⟩ := hget k' s hs
    rw [hid₀, inv.branchId k' s₀ hs₀]
  · obtain ⟨p, hp, agree⟩ := c.packetAt hq
    rw [agree.branchId, agree.number, agree.packetId, hseq]
    exact inv.packet k' p hp
  · obtain ⟨p, hp, agree⟩ := c.packetAt hq
    rw [c.asked, agree.number, agree.route, agree.hop]
    exact inv.walk k' p hp
  · obtain ⟨p, hp, agree⟩ := c.packetAt hq
    rw [hev, agree.number, agree.delivered]
    exact inv.delivered k' p hp
  · obtain ⟨p₁, hp₁, agree₁⟩ := c.packetAt h₁
    obtain ⟨p₂, hp₂, agree₂⟩ := c.packetAt h₂
    exact inv.owner k₁ k₂ p₁ p₂ hp₁ hp₂ (by rw [← agree₁.number, ← agree₂.number, heq])
  · obtain ⟨s₀, hs₀, _, hc₀⟩ := hget k' s hs
    rw [hev, hc₀, inv.completed k' s₀ hs₀]

/-- Every move keeps the invariant. -/
theorem HistoryInv.move {h : History F} (inv : HistoryInv uuid4 h) (hrt : RuntimeInv h.runtime)
    (m : Move F) : HistoryInv uuid4 (h.move uuid4 m) := by
  have effect := History.move_effect uuid4 h hrt m
  generalize h.move uuid4 m = h' at effect ⊢
  cases effect with
  | idle _ _ => exact inv
  | drawn effect _ _ => exact inv.drawn effect
  | answered effect _ _ => exact inv.answered effect
  | kept effect _ _ => exact inv.kept effect

/-- What `from_branches` puts under a branch id: a stream of that id without a packet. -/
theorem fromBranches_get {branches : List (List ℤ)} {mode source experimentId runId : String}
    {packetSizeBytes : ℤ} {k : String} {stream : BranchStream F}
    (hget : (PacketRuntime.fromBranches branches mode source experimentId runId
      packetSizeBytes).streams.get? k = some stream) :
    stream.branchId = k ∧ stream.currentPacket = none ∧ stream.completedPackets = 0 ∧
      stream.droppedPackets = 0 := by
  obtain ⟨⟨branch, i⟩, _, hbranch⟩ := List.mem_filterMap.mp (Dict.mem_of_get?_ofList hget)
  dsimp only at hbranch
  split at hbranch
  · cases hbranch
  · obtain ⟨rfl, rfl⟩ := Prod.mk.inj (Option.some.inj hbranch)
    exact ⟨rfl, rfl, rfl, rfl⟩

/-- Nothing was drawn, asked or delivered at the start. -/
theorem HistoryInv.start (branches : List (List ℤ)) (mode source experimentId runId : String)
    (packetSizeBytes : ℤ) :
    HistoryInv uuid4
      (.start branches mode source experimentId runId packetSizeBytes : History F) := by
  have hnone : ∀ k, (History.start branches mode source experimentId runId packetSizeBytes :
      History F).runtime.packetAt k = none := by
    intro k
    cases hk : (History.start branches mode source experimentId runId packetSizeBytes :
      History F).runtime.streams.get? k with
    | none => simp [PacketRuntime.packetAt, hk]
    | some stream => simpa [PacketRuntime.packetAt, hk] using (fromBranches_get hk).2.1
  exact
    { branchId := fun k s hs => (fromBranches_get hs).1
      packet := fun k p hp => by simp [hnone] at hp
      walk := fun k p hp => by simp [hnone] at hp
      delivered := fun k p hp => by simp [hnone] at hp
      owner := fun k k' p p' hp _ _ => by simp [hnone] at hp
      asked := by simp [History.start]
      arrived := by simp [History.start, PacketRuntime.fromBranches, deliveries]
      once := by simp [History.start, PacketRuntime.fromBranches, deliveries]
      completed := fun k s hs => by
        rw [(fromBranches_get hs).2.2.1]
        simp [History.start, PacketRuntime.fromBranches, deliveries] }

/-- No packet id is delivered twice. -/
theorem HistoryInv.deliveries_packetId_nodup {h : History F} (inv : HistoryInv uuid4 h) :
    ((deliveries h.runtime.events).map (·.packetId)).Nodup := by
  have hids : (deliveries h.runtime.events).map (·.packetId) =
      ((deliveries h.runtime.events).map (·.sequenceNumber)).map uuid4.id := by
    rw [List.map_map]
    exact List.map_congr_left fun q hq => (inv.arrived q hq).2.1
  rw [hids]
  exact inv.once.map uuid4.injective

/-- The state of every run satisfies both invariants. -/
theorem History.reachable_inv (uuid4 : IdSupply) (branches : List (List ℤ))
    (mode source experimentId runId : String) (packetSizeBytes : ℤ) (ops : List (Op F)) :
    let h := Run.run (History.perform uuid4)
      (.start branches mode source experimentId runId packetSizeBytes) ops
    RuntimeInv h.runtime ∧ HistoryInv uuid4 h :=
  History.run_invariant_of_moves uuid4 (fun h => RuntimeInv h.runtime ∧ HistoryInv uuid4 h)
    (fun _ m hinv => ⟨History.move_inv uuid4 m hinv.1, hinv.2.move hinv.1 m⟩)
    ⟨fromBranches_inv branches mode source experimentId runId packetSizeBytes,
      HistoryInv.start branches mode source experimentId runId packetSizeBytes⟩ ops

end Netlab.Packet
