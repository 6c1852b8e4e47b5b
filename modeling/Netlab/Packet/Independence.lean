import Netlab.Packet.Invariant
import Netlab.Prelude.Hops

/-!
# Parallel branches do not interfere

Outside chain mode a step moves every stream once, and what happens to a stream depends on nothing
but the stream and the answers of the gate on its hops. `Progress` keeps of a stream what a client
sees of its branch, together with the routes that decide which hops the gate is asked about, and
`Progress.step` is the machine of one branch alone. A step of the runtime acts on each branch as
that machine does (`step_progress`), so two runs that answer alike on the hops of a branch look
alike there, whatever happens on the other branches.
-/

namespace Netlab.Packet

variable {F : Type}

/-! ## What a client sees of a branch -/

/-- The part of a branch that a client observes. Packet ids and sequence numbers, which the
branches draw from one counter, are left out. -/
structure BranchView where
  hop : Option ℕ
  status : Option PacketStatus
  completedPackets : ℕ
  paused : Bool
  deriving DecidableEq

namespace PacketRuntime

/-- What is seen of a branch. -/
def view (rt : PacketRuntime F) (b : String) : Option BranchView :=
  (rt.streams.get? b).map fun stream =>
    { hop := stream.currentPacket.map (·.currentHopIndex)
      status := stream.currentPacket.map (·.status)
      completedPackets := stream.completedPackets
      paused := stream.paused }

/-- What is seen of a branch after each step of a run; `gates` answers one step after the other. -/
def views (uuid4 : IdSupply) (b : String) :
    PacketRuntime F → List (ℕ → GateEvaluator F) → List (Option BranchView)
  | _, [] => []
  | rt, gate :: gates =>
      let rt' := (rt.step uuid4 gate).runtime
      rt'.view b :: views uuid4 b rt' gates

/-- The hops of a branch: those of its route, and those of the route its packet is on. -/
def branchHops (rt : PacketRuntime F) (b : String) : List (String × String) :=
  match rt.streams.get? b with
  | none => []
  | some stream => stream.route.hops ++ (stream.currentPacket.map (·.route.hops)).getD []

/-- The place of a branch in the order in which a step visits the streams. -/
def turn (rt : PacketRuntime F) (b : String) : ℕ := rt.streams.keys.idxOf b

/-- Two gates answer alike on the hops of a branch when its turn comes. -/
def AnswerAlike (rt : PacketRuntime F) (b : String) (gate gate' : ℕ → GateEvaluator F) : Prop :=
  ∀ hop ∈ rt.branchHops b,
    (gate (rt.turn b) hop.1 hop.2).feasible = (gate' (rt.turn b) hop.1 hop.2).feasible

end PacketRuntime

/-! ## One branch alone -/

/-- Where a packet stands on its route. -/
structure Cursor where
  route : List String
  hop : ℕ
  status : PacketStatus

/-- A stream without its identifiers: what decides how the branch goes on. -/
structure Progress where
  route : List String
  packet : Option Cursor
  completedPackets : ℕ
  paused : Bool

/-- The progress of a stream. -/
def BranchStream.progress (stream : BranchStream F) : Progress where
  route := stream.route
  packet := stream.currentPacket.map fun p => ⟨p.route, p.currentHopIndex, p.status⟩
  completedPackets := stream.completedPackets
  paused := stream.paused

namespace Progress

/-- The hops that the gate can be asked about. -/
def hops (p : Progress) : List (String × String) :=
  p.route.hops ++ (p.packet.map (·.route.hops)).getD []

/-- What is seen of the branch. -/
def view (p : Progress) : BranchView where
  hop := p.packet.map (·.hop)
  status := p.packet.map (·.status)
  completedPackets := p.completedPackets
  paused := p.paused

/-- A new packet starts on the route of the branch. -/
def restart (p : Progress) : Progress × Cursor :=
  let cursor : Cursor := { route := p.route, hop := 0, status := .queued }
  ({ p with packet := some cursor, paused := false }, cursor)

/-- The packet to work on: the one under way, or a new one. -/
def ready (p : Progress) : Progress × Cursor :=
  match p.packet with
  | some cursor => if cursor.status = .delivered then p.restart else (p, cursor)
  | none => p.restart

/-- Ask about the next hop of a packet and cross it if the answer is positive. -/
def forward (passes : String × String → Bool) (p : Progress) (cursor : Cursor) : Progress :=
  if cursor.route.length - 1 ≤ cursor.hop then
    { p with
      packet := some { cursor with status := .delivered }
      completedPackets := p.completedPackets + 1 }
  -- the gate is asked about the next hop only
  else if passes (cursor.route.getD cursor.hop "", cursor.route.getD (cursor.hop + 1) "") then
    if cursor.route.length - 1 ≤ cursor.hop + 1 then
      { p with
        packet := some { cursor with hop := cursor.hop + 1, status := .delivered }
        completedPackets := p.completedPackets + 1
        paused := false }
    else
      { p with
        packet := some { cursor with hop := cursor.hop + 1, status := .advanced }
        paused := false }
  else { p with packet := some { cursor with status := .pausedOutage }, paused := true }

/-- A step of the branch alone. -/
def step (passes : String × String → Bool) (p : Progress) : Progress :=
  p.ready.1.forward passes p.ready.2

/-- The packet to work on is on a route whose hops are hops of the branch. -/
theorem hops_ready (p : Progress) :
    p.ready.1.hops ⊆ p.hops ∧ p.ready.2.route.hops ⊆ p.hops := by
  cases hp : p.packet with
  | none => simp [ready, restart, hops, hp]
  | some cursor =>
      by_cases hd : cursor.status = .delivered
      · simp [ready, restart, hops, hp, hd]
      · simp [ready, hops, hp, hd]

/-- Forwarding keeps the routes. -/
theorem hops_forward (passes : String × String → Bool) (p : Progress) (cursor : Cursor) :
    (p.forward passes cursor).hops = p.route.hops ++ cursor.route.hops := by
  unfold forward
  split
  · rfl
  · split
    · split <;> rfl
    · rfl

/-- A step asks about no new hops later on. -/
theorem hops_step (passes : String × String → Bool) (p : Progress) :
    (p.step passes).hops ⊆ p.hops := by
  obtain ⟨hroute, hcursor⟩ := p.hops_ready
  rw [step, hops_forward]
  refine List.append_subset.mpr ⟨fun hop hhop => hroute ?_, hcursor⟩
  exact List.mem_append_left _ hhop

/-- A step depends on the answers on the hops of the branch only. -/
theorem step_congr {passes passes' : String × String → Bool} {p : Progress}
    (h : ∀ hop ∈ p.hops, passes hop = passes' hop) : p.step passes = p.step passes' := by
  rw [step, step, forward, forward]
  split
  · rfl
  · rename_i hmore
    -- the hop under the cursor is a hop of the packet's route
    have hsrc : p.ready.2.route[p.ready.2.hop]? =
        some (p.ready.2.route.getD p.ready.2.hop "") := by
      rw [List.getD_eq_getElem?_getD, List.getElem?_eq_getElem (by omega), Option.getD_some]
    have hdst : p.ready.2.route[p.ready.2.hop + 1]? =
        some (p.ready.2.route.getD (p.ready.2.hop + 1) "") := by
      rw [List.getD_eq_getElem?_getD, List.getElem?_eq_getElem (by omega), Option.getD_some]
    have hhop := List.mem_of_getElem? (List.getElem?_hops hsrc hdst)
    rw [h _ (p.hops_ready.2 hhop)]

end Progress

/-! ## The runtime acts on each branch alone -/

namespace PacketRuntime

variable (uuid4 : IdSupply)

theorem view_eq {rt : PacketRuntime F} {b : String} {stream : BranchStream F}
    (h : rt.streams.get? b = some stream) : rt.view b = some stream.progress.view := by
  simp [view, h, Progress.view, BranchStream.progress, Function.comp_def]

theorem branchHops_eq {rt : PacketRuntime F} {b : String} {stream : BranchStream F}
    (h : rt.streams.get? b = some stream) : rt.branchHops b = stream.progress.hops := by
  simp [branchHops, h, Progress.hops, BranchStream.progress, Function.comp_def]

/-- Making a packet ready, seen on the branch. -/
theorem progress_readyPacket (rt : PacketRuntime F) (stream : BranchStream F) :
    (rt.readyPacket uuid4 stream).2.1.progress = stream.progress.ready.1 ∧
      (⟨(rt.readyPacket uuid4 stream).2.2.route, (rt.readyPacket uuid4 stream).2.2.currentHopIndex,
        (rt.readyPacket uuid4 stream).2.2.status⟩ : Cursor) = stream.progress.ready.2 := by
  cases hp : stream.currentPacket with
  | none => simp [readyPacket, hp, draw, BranchStream.newPacket, BranchStream.progress,
      Progress.ready, Progress.restart]
  | some packet =>
      by_cases hd : packet.status = .delivered
      · simp [readyPacket, hp, hd, create, draw, BranchStream.newPacket, BranchStream.progress,
          Progress.ready, Progress.restart]
      · simp [readyPacket, hp, hd, BranchStream.progress, Progress.ready]

/-- Forwarding a packet, seen on the branch. -/
theorem progress_forward (rt : PacketRuntime F) (stream : BranchStream F) (packet : PacketState)
    (gate : GateEvaluator F) :
    (rt.forward stream packet gate).stream.progress =
      stream.progress.forward (fun hop => (gate hop.1 hop.2).feasible)
        ⟨packet.route, packet.currentHopIndex, packet.status⟩ := by
  unfold forward Progress.forward
  dsimp only
  split
  · rfl
  · by_cases hfeas : (gate (packet.route.getD packet.currentHopIndex "")
        (packet.route.getD (packet.currentHopIndex + 1) "")).feasible = true
    · simp only [hfeas, Bool.not_true, Bool.false_eq_true, ↓reduceIte]
      split <;> rfl
    · simp only [hfeas, Bool.not_false, Bool.false_eq_true, ↓reduceIte]
      rfl

/-- Stepping another stream leaves a branch alone. -/
theorem get?_stepAt_of_ne (rt : PacketRuntime F) {k b : String} (gate : GateEvaluator F)
    (hne : b ≠ k) :
    (rt.stepAt uuid4 k gate).runtime.streams.get? b = rt.streams.get? b := by
  unfold stepAt
  split
  · rfl
  · simp only [stepStream, setStream_streams, Dict.get?_set_of_ne _ _ hne, forward_streams,
      readyPacket_streams]

/-- Stepping a stream is a step of its branch alone. -/
theorem progress_stepAt {rt : PacketRuntime F} {b : String} {stream : BranchStream F}
    (gate : GateEvaluator F) (h : rt.streams.get? b = some stream) :
    ∃ stream', (rt.stepAt uuid4 b gate).runtime.streams.get? b = some stream' ∧
      stream'.progress = stream.progress.step fun hop => (gate hop.1 hop.2).feasible := by
  obtain ⟨hprogress, hcursor⟩ := progress_readyPacket uuid4 rt stream
  refine ⟨(rt.stepStream uuid4 stream gate).stream, ?_, ?_⟩
  · simp only [stepAt, h, setStream_streams, Dict.get?_set_self]
  · rw [stepStream, progress_forward, hprogress, hcursor, Progress.step]

/-- Stepping streams in turn, each branch makes one step of its own. -/
theorem progress_stepEach {rt : PacketRuntime F} {b : String} {stream : BranchStream F}
    {keys : List String} (gate : ℕ → GateEvaluator F) (hkeys : keys.Nodup) (hb : b ∈ keys)
    (h : rt.streams.get? b = some stream) :
    ∃ stream', (stepEach uuid4 gate keys rt).runtime.streams.get? b = some stream' ∧
      stream'.progress =
        stream.progress.step fun hop => (gate (keys.idxOf b) hop.1 hop.2).feasible := by
  -- a step of another branch leaves this one alone
  have hkeep : ∀ (keys : List String) (rt : PacketRuntime F) (gate : ℕ → GateEvaluator F),
      b ∉ keys → (stepEach uuid4 gate keys rt).runtime.streams.get? b = rt.streams.get? b := by
    intro keys
    induction keys with
    | nil => exact fun _ _ _ => rfl
    | cons k keys ih =>
        intro rt gate hnot
        rw [List.mem_cons, not_or] at hnot
        rw [stepEach, ih _ _ hnot.2, get?_stepAt_of_ne uuid4 rt _ hnot.1]
  -- the branch has its turn at its index among the keys, at which its gate is asked
  induction keys generalizing rt gate with
  | nil => cases hb
  | cons k keys ih =>
      rw [List.nodup_cons] at hkeys
      by_cases hk : b = k
      · subst hk
        obtain ⟨stream', hget, hprogress⟩ := progress_stepAt uuid4 (gate 0) h
        refine ⟨stream', ?_, ?_⟩
        · rw [stepEach, hkeep _ _ _ hkeys.1, hget]
        · rw [hprogress, List.idxOf_cons_self]
      · have hmem := (List.mem_cons.mp hb).resolve_left hk
        obtain ⟨stream', hget, hprogress⟩ := ih (fun i => gate (i + 1)) hkeys.2 hmem
          ((get?_stepAt_of_ne uuid4 rt (gate 0) hk).trans h)
        refine ⟨stream', hget, ?_⟩
        rw [hprogress, List.idxOf_cons_ne _ (Ne.symm hk)]

/-- Filling the streams leaves a branch with the same packet to work on. -/
theorem progress_ensurePackets {rt : PacketRuntime F} {b : String} {stream : BranchStream F}
    (h : rt.streams.get? b = some stream) :
    ∃ stream', (rt.ensurePackets uuid4).streams.get? b = some stream' ∧
      stream'.progress.ready = stream.progress.ready := by
  refine List.foldlRecOn (motive := fun rt' : PacketRuntime F => ∃ stream',
    rt'.streams.get? b = some stream' ∧ stream'.progress.ready = stream.progress.ready)
    rt.streams.keys (ensureAt uuid4) ⟨stream, h, rfl⟩ ?_
  rintro rt' ⟨stream', hget, hready⟩ k -
  unfold ensureAt
  split
  · exact ⟨stream', hget, hready⟩
  · rename_i old hold
    split
    · exact ⟨stream', hget, hready⟩
    · rename_i hnone
      -- a packet that is created is ready at the start of the route, like the stream before
      by_cases hk : b = k
      · subst hk
        obtain rfl := Option.some.inj (hold.symm.trans hget)
        refine ⟨(rt'.create uuid4 old).2.1, ?_, ?_⟩
        · simp only [setStream_streams, Dict.get?_set_self]
        · rw [← hready]
          simp [create, draw, BranchStream.newPacket, BranchStream.progress, Progress.ready,
            Progress.restart, hnone]
      · refine ⟨stream', ?_, hready⟩
        rw [setStream_streams, Dict.get?_set_of_ne _ _ hk]
        exact hget

/-- Stepping a stream keeps the branches and the mode. -/
private theorem keys_mode_stepAt (rt : PacketRuntime F) (k : String) (gate : GateEvaluator F) :
    (rt.stepAt uuid4 k gate).runtime.streams.keys = rt.streams.keys ∧
      (rt.stepAt uuid4 k gate).runtime.mode = rt.mode := by
  unfold stepAt
  split
  · exact ⟨rfl, rfl⟩
  · rename_i stream hstream
    have hk : k ∈ rt.streams.keys := Dict.mem_keys_iff.mpr ⟨stream, hstream⟩
    constructor
    · rw [stepStream, setStream_streams, forward_streams, readyPacket_streams,
        Dict.keys_set_of_mem _ hk]
    · rw [stepStream, setStream_mode, forward_mode, readyPacket_mode]

/-- A step keeps the branches and the mode. -/
theorem keys_mode_step (rt : PacketRuntime F) (gate : ℕ → GateEvaluator F) :
    (rt.step uuid4 gate).runtime.streams.keys = rt.streams.keys ∧
      (rt.step uuid4 gate).runtime.mode = rt.mode := by
  have heach : ∀ (keys : List String) (rt : PacketRuntime F) (gate : ℕ → GateEvaluator F),
      (stepEach uuid4 gate keys rt).runtime.streams.keys = rt.streams.keys ∧
        (stepEach uuid4 gate keys rt).runtime.mode = rt.mode := by
    intro keys
    induction keys with
    | nil => exact fun _ _ => ⟨rfl, rfl⟩
    | cons k keys ih =>
        intro rt gate
        obtain ⟨hkeys, hmode⟩ := keys_mode_stepAt uuid4 rt k (gate 0)
        obtain ⟨hkeys', hmode'⟩ := ih (rt.stepAt uuid4 k (gate 0)).runtime fun i => gate (i + 1)
        exact ⟨hkeys'.trans hkeys, hmode'.trans hmode⟩
  obtain ⟨hkeys, hmode⟩ := keys_mode_ensurePackets uuid4 rt
  obtain ⟨hkeys', hmode'⟩ := heach (rt.ensurePackets uuid4).stepKeys (rt.ensurePackets uuid4) gate
  exact ⟨hkeys'.trans hkeys, hmode'.trans hmode⟩

/-- A step acts on each branch alone. -/
theorem step_progress {rt : PacketRuntime F} {b : String} {stream : BranchStream F}
    (gate : ℕ → GateEvaluator F) (hmode : rt.mode ≠ "chain")
    (h : rt.streams.get? b = some stream) :
    ∃ stream', (rt.step uuid4 gate).runtime.streams.get? b = some stream' ∧
      stream'.progress =
        stream.progress.step fun hop => (gate (rt.turn b) hop.1 hop.2).feasible := by
  obtain ⟨ready, hget, hready⟩ := progress_ensurePackets uuid4 h
  obtain ⟨hkeys, hkeepMode⟩ := keys_mode_ensurePackets uuid4 rt
  have hb : b ∈ (rt.ensurePackets uuid4).streams.keys := Dict.mem_keys_iff.mpr ⟨ready, hget⟩
  obtain ⟨stream', hget', hprogress⟩ := progress_stepEach uuid4 gate
    (rt.ensurePackets uuid4).streams.nodup hb hget
  refine ⟨stream', ?_, ?_⟩
  · have hnot : (rt.ensurePackets uuid4).mode ≠ "chain" := hkeepMode.trans_ne hmode
    simp only [step, if_neg hnot]
    exact hget'
  · rw [hprogress, Progress.step, Progress.step, hready, turn, ← hkeys]
    rfl

/-! ## Runs -/

/-- What is seen of a branch over a run is decided by its progress and by the answers on its
hops. -/
private theorem views_congr {b : String} {hops : List (String × String)} {place : ℕ}
    {gates gates' : List (ℕ → GateEvaluator F)}
    (halike : List.Forall₂ (fun gate gate' => ∀ hop ∈ hops,
      (gate place hop.1 hop.2).feasible = (gate' place hop.1 hop.2).feasible) gates gates') :
    ∀ (rt rt' : PacketRuntime F) (stream stream' : BranchStream F),
      rt.mode ≠ "chain" → rt'.mode ≠ "chain" → rt.turn b = place → rt'.turn b = place →
      rt.streams.get? b = some stream → rt'.streams.get? b = some stream' →
      stream.progress = stream'.progress → stream.progress.hops ⊆ hops →
      views uuid4 b rt gates = views uuid4 b rt' gates' := by
  induction halike with
  | nil => exact fun _ _ _ _ _ _ _ _ _ _ _ _ => rfl
  | @cons gate gate' gates gates' hgate _ ih =>
      intro rt rt' stream stream' hmode hmode' hturn hturn' hget hget' heq hhops
      obtain ⟨next, hnext, hprogress⟩ := step_progress uuid4 gate hmode hget
      obtain ⟨next', hnext', hprogress'⟩ := step_progress uuid4 gate' hmode' hget'
      obtain ⟨hkeys, hkeep⟩ := keys_mode_step uuid4 rt gate
      obtain ⟨hkeys', hkeep'⟩ := keys_mode_step uuid4 rt' gate'
      -- both runs make the same step of the branch alone
      have hsame : next.progress = next'.progress := by
        rw [hprogress, hprogress', ← heq, hturn, hturn']
        exact Progress.step_congr fun hop hhop => hgate hop (hhops hhop)
      rw [views, views]
      congr 1
      · rw [view_eq hnext, view_eq hnext', hsame]
      · refine ih _ _ next next' (hkeep.trans_ne hmode) (hkeep'.trans_ne hmode') ?_ ?_ hnext
          hnext' hsame ?_
        · rw [turn, hkeys]
          exact hturn
        · rw [turn, hkeys']
          exact hturn'
        · rw [hprogress]
          exact List.Subset.trans (Progress.hops_step _ _) hhops

/-- What is seen of a branch that the runtime does not have. -/
private theorem views_of_none {b : String} {rt : PacketRuntime F}
    (h : b ∉ rt.streams.keys) (gates : List (ℕ → GateEvaluator F)) :
    views uuid4 b rt gates = gates.map fun _ => none := by
  induction gates generalizing rt with
  | nil => rfl
  | cons gate gates ih =>
      obtain ⟨hkeys, _⟩ := keys_mode_step uuid4 rt gate
      have hnot : b ∉ (rt.step uuid4 gate).runtime.streams.keys := by rwa [hkeys]
      have hnone : (rt.step uuid4 gate).runtime.streams.get? b = none := by
        by_contra hsome
        exact hnot (Dict.mem_keys_iff.mpr (Option.ne_none_iff_exists'.mp hsome))
      rw [views, ih hnot, List.map_cons, view, hnone]
      rfl

/-- Outside chain mode, two runs of a runtime whose gates answer alike on the hops of a branch look
alike on that branch after every step, whatever the gates answer elsewhere. -/
theorem branches_do_not_interfere {rt : PacketRuntime F} (hmode : rt.mode ≠ "chain") (b : String)
    {gates gates' : List (ℕ → GateEvaluator F)}
    (halike : List.Forall₂ (rt.AnswerAlike b) gates gates') :
    rt.views uuid4 b gates = rt.views uuid4 b gates' := by
  cases hget : rt.streams.get? b with
  | none =>
      have hnot : b ∉ rt.streams.keys := fun hb => by
        obtain ⟨stream, hstream⟩ := Dict.mem_keys_iff.mp hb
        rw [hget] at hstream
        cases hstream
      rw [views_of_none uuid4 hnot, views_of_none uuid4 hnot, List.map_const', List.map_const',
        halike.length_eq]
  | some stream =>
      refine views_congr uuid4 halike rt rt stream stream hmode hmode rfl rfl hget hget rfl ?_
      rw [branchHops_eq hget]
      exact List.Subset.refl _

end PacketRuntime

/-- Two branches that share no hop. -/
def twoBranches : PacketRuntime ℚ := .fromBranches [[1], [2]] "parallel" "station" "" "" 512

/-- A gate that answers on the hops to one node only. -/
def gateTo (node : String) : ℕ → GateEvaluator ℚ := fun _ _ dst =>
  { feasible := dst = node, reason := .feasible, predicates := [] }

/-- An outage of the second branch is not seen on the first one. -/
theorem branches_do_not_interfere_outage :
    twoBranches.views .unary "branch_0" [gateTo "drone_1"] =
      twoBranches.views .unary "branch_0" [fun _ => openGate] :=
  PacketRuntime.branches_do_not_interfere .unary (by decide) "branch_0"
    (.cons (by unfold PacketRuntime.AnswerAlike; decide) .nil)

end Netlab.Packet
