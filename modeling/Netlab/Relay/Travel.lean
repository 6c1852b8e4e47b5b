import Mathlib.Data.List.Forall2
import Netlab.Prelude.Hops
import Netlab.Relay.Streams

/-!
# How a packet travels along its branch

The cursor of a stream is the number of hops that its packet has made in the current direction, and
the traces of the packet list them (`StreamInv`). A turn keeps this, and tells which hop was tried
(`Flow.turn_spec`); a lap of all flows consists of their turns (`lap_spec`).
-/

namespace Netlab

/-! ## The nodes of a branch -/

@[simp] theorem length_nodes (branch : List ℤ) (phase : Phase) :
    (nodes branch phase).length = branch.length + 1 := by
  cases phase <;> simp [nodes]

/-- The way back visits the same nodes in the opposite order. -/
theorem nodes_reverse (branch : List ℤ) :
    nodes branch .reverse = (nodes branch .forward).reverse := by
  simp [nodes, List.map_reverse]

theorem mem_nodes {branch : List ℤ} {phase : Phase} {node : Node} :
    node ∈ nodes branch phase ↔ node = .station ∨ ∃ idx ∈ branch, node = .drone idx := by
  cases phase <;> simp [nodes, eq_comm, or_comm]

/-! ## Streams -/

/-- The cursor is within the nodes of the branch, and the traces are the hops made. -/
structure StreamInv (branch : List ℤ) (s : Stream) : Prop where
  cursor : s.cursor ≤ branch.length
  forward : s.phase = .forward →
    s.packet.forwardTrace = (nodes branch .forward).hops.take s.cursor ∧
      s.packet.reverseTrace = []
  reverse : s.phase = .reverse →
    s.packet.forwardTrace = (nodes branch .forward).hops ∧
      s.packet.reverseTrace = (nodes branch .reverse).hops.take s.cursor

/-- A new packet has made no hops. -/
theorem StreamInv.fresh (branch : List ℤ) (packetId : ℕ) :
    StreamInv branch (.fresh packetId) where
  cursor := Nat.zero_le _
  forward _ := ⟨rfl, rfl⟩
  reverse h := by cases h

/-- The traces of a round trip are the hops of its branch, and these in reverse. -/
structure Trip.Sound (trip : Trip) : Prop where
  forward : trip.packet.forwardTrace = (nodes trip.branch .forward).hops
  reverse : trip.packet.reverseTrace = (trip.packet.forwardTrace.map Prod.swap).reverse

/-- All hops of a branch, when the cursor is at its end. -/
private theorem take_hops_of_end {branch : List ℤ} {s : Stream} (h : StreamInv branch s)
    (hend : ¬ s.cursor < (nodes branch s.phase).length - 1) (phase : Phase) :
    (nodes branch phase).hops.take s.cursor = (nodes branch phase).hops := by
  have hlen : (nodes branch phase).hops.length = s.cursor := by
    have := h.cursor
    simp only [length_nodes, List.length_hops] at hend ⊢
    omega
  rw [← hlen, List.take_length]

/-- Turning around keeps the invariant, and a round trip that ends is sound. The cursor stays or is
set back. -/
theorem Stream.turnAround_spec {branch : List ℤ} {s : Stream} (h : StreamInv branch s)
    (next : List ℤ) (packetCount : ℕ) :
    let departure := s.turnAround branch next packetCount
    StreamInv departure.branch departure.stream ∧
      (departure.branch ≠ [] → departure.stream.cursor < departure.branch.length) ∧
      (departure.stream = s ∨ departure.stream.cursor = 0) ∧
      (departure.branch = branch ∧ departure.trip = none ∨
        departure.branch = next ∧ ∃ trip, departure.trip = some trip ∧ trip.branch = branch ∧
          trip.Sound) := by
  intro departure
  by_cases hmid : s.cursor < (nodes branch s.phase).length - 1
  · -- links ahead: nothing changes
    have hdeparture : departure =
        { stream := s, branch, packetCount, trip := none } := if_pos hmid
    rw [hdeparture]
    refine ⟨h, fun _ => by simpa using hmid, Or.inl rfl, Or.inl ⟨rfl, rfl⟩⟩
  · cases hphase : s.phase with
    -- at the station: the same packet goes back along the links it came by
    | forward =>
        have hdeparture : departure =
            { stream := { s with phase := .reverse, cursor := 0 }, branch, packetCount
              trip := none } := by
          simp only [departure]
          rw [turnAround, if_neg hmid]
          simp only [hphase]
        have htraces := h.forward hphase
        rw [take_hops_of_end h hmid] at htraces
        rw [hdeparture]
        refine ⟨⟨Nat.zero_le _, fun hforward => ?_, fun _ => htraces⟩, ?_, Or.inr rfl,
          Or.inl ⟨rfl, rfl⟩⟩
        · cases hforward
        · exact fun hne => List.length_pos_iff.mpr hne
    -- back at the source: the trip is complete and the next branch starts a new packet
    | reverse =>
        have hdeparture : departure =
            { stream := fresh (packetCount + 1), branch := next, packetCount := packetCount + 1
              trip := some { branch, packet := s.packet } } := by
          simp only [departure]
          rw [turnAround, if_neg hmid]
          simp only [hphase]
        obtain ⟨hforward, hreverse⟩ := h.reverse hphase
        rw [take_hops_of_end h hmid, nodes_reverse, List.hops_reverse, ← hforward] at hreverse
        rw [hdeparture]
        exact ⟨.fresh next _, fun hne => List.length_pos_iff.mpr hne, Or.inr rfl,
          Or.inr ⟨rfl, _, rfl, rfl, ⟨hforward, hreverse⟩⟩⟩

/-- The packet is on the other branch exactly when a round trip ended. -/
theorem Stream.branch_turnAround (s : Stream) (branch next : List ℤ) (packetCount : ℕ) :
    (s.turnAround branch next packetCount).branch =
      if (s.turnAround branch next packetCount).trip.isSome then next else branch := by
  rw [turnAround]
  split
  · rfl
  · split <;> rfl

/-- The cursor of a hop stands on an existing node and is followed by another one. -/
structure Hop.Sound (around : Surroundings) (hop : Hop) : Prop where
  src : (nodes hop.branch hop.phase)[hop.cursor]? = some hop.src
  dst : (nodes hop.branch hop.phase)[hop.cursor + 1]? = some hop.dst
  knownSrc : around.known hop.src = true
  knownDst : around.known hop.dst = true

/-- A hop on which the packet goes ahead: no end of it has failed, and the gate found
it feasible. -/
structure Hop.Cleared (around : Surroundings) (hop : Hop) : Prop where
  srcWorks : around.failed hop.src = false
  dstWorks : around.failed hop.dst = false
  feasible : around.gate hop.src hop.dst = some "FEASIBLE"

/-- A stream is as it was, or at the start of its nodes, or has just made a cleared hop. -/
def Stream.Stepped (around : Surroundings) (s s' : Stream) (hop : Hop) : Prop :=
  s' = s ∨ s'.cursor = 0 ∨
    hop.Cleared around ∧ s'.phase = hop.phase ∧ s'.cursor = hop.cursor + 1 ∧
      s'.packet.packetId = hop.packetId

/-- Trying a hop keeps the invariant. -/
theorem Stream.cross_spec {branch : List ℤ} {s s' : Stream} {around : Surroundings} {hop : Hop}
    (h : StreamInv branch s) (hcross : s.cross branch around = some (s', hop)) :
    StreamInv branch s' ∧ hop.branch = branch ∧ hop.Sound around ∧ s.Stepped around s' hop := by
  simp only [cross, bind, pure, guard, Option.bind_eq_some_iff, Option.some.injEq,
    Prod.mk.injEq] at hcross
  obtain ⟨src, hsrc, dst, hdst, _, hknown, reason, hreason, rfl, rfl⟩ := hcross
  have hknown' : around.known src = true ∧ around.known dst = true := by
    split at hknown
    · rename_i hboth
      simpa using hboth
    · cases hknown
  have hsound : Hop.Sound around ⟨branch, s.phase, s.cursor, src, dst, s.packet.packetId,
      reason⟩ := ⟨hsrc, hdst, hknown'.1, hknown'.2⟩
  split
  · rename_i hok
    -- the gate was asked, so neither end has failed
    have hfeasible : reason = some "FEASIBLE" := of_decide_eq_true hok
    have hcleared : around.failed src = false ∧ around.failed dst = false ∧
        around.gate src dst = some "FEASIBLE" := by
      rw [Surroundings.reason, hfeasible] at hreason
      split at hreason
      · cases hreason
      · rename_i hworks
        simp only [Bool.or_eq_true, not_or, Bool.not_eq_true] at hworks
        obtain ⟨text, htext, heq⟩ := Option.map_eq_some_iff.mp hreason
        exact ⟨hworks.1, hworks.2, htext.trans heq⟩
    refine ⟨?_, rfl, hsound, Or.inr (Or.inr ⟨⟨hcleared.1, hcleared.2.1, hcleared.2.2⟩, rfl, rfl,
      ?_⟩)⟩
    · have hlt : s.cursor + 1 < (nodes branch s.phase).length := by
        obtain ⟨hlt, -⟩ := List.getElem?_eq_some_iff.mp hdst
        exact hlt
      rw [length_nodes] at hlt
      refine ⟨by simpa [advance] using Nat.lt_succ_iff.mp hlt, fun hphase => ?_, fun hphase => ?_⟩
      · change s.phase = .forward at hphase
        obtain ⟨hforward, hreverse⟩ := h.forward hphase
        rw [hphase] at hsrc hdst
        simp only [advance, hphase, hforward, hreverse, List.take_succ_hops hsrc hdst, and_self]
      · change s.phase = .reverse at hphase
        obtain ⟨hforward, hreverse⟩ := h.reverse hphase
        rw [hphase] at hsrc hdst
        simp only [advance, hphase, hforward, hreverse, List.take_succ_hops hsrc hdst, and_self]
    · cases hphase : s.phase <;> simp [advance, hphase]
  · exact ⟨h, rfl, hsound, Or.inl rfl⟩

/-- A hop can be tried when the branch has it, its nodes exist and the gate answers. -/
theorem Stream.cross_isSome {branch : List ℤ} {s : Stream} {around : Surroundings}
    (hcursor : s.cursor < branch.length) (hknown : ∀ node ∈ nodes branch s.phase,
      around.known node = true) (hgate : ∀ src dst, (around.gate src dst).isSome = true) :
    (s.cross branch around).isSome = true := by
  have hsrc : s.cursor < (nodes branch s.phase).length := by
    rw [length_nodes]
    omega
  have hdst : s.cursor + 1 < (nodes branch s.phase).length := by
    rw [length_nodes]
    omega
  obtain ⟨reason, hreason⟩ := Option.isSome_iff_exists.mp
    (hgate (nodes branch s.phase)[s.cursor] (nodes branch s.phase)[s.cursor + 1])
  have hasked : (around.reason (nodes branch s.phase)[s.cursor]
      (nodes branch s.phase)[s.cursor + 1]).isSome = true := by
    rw [Surroundings.reason, hreason]
    split <;> rfl
  obtain ⟨asked, hasked⟩ := Option.isSome_iff_exists.mp hasked
  simp only [cross, List.getElem?_eq_getElem hsrc, List.getElem?_eq_getElem hdst, bind,
    Option.bind_some, hknown _ (List.getElem_mem hsrc), hknown _ (List.getElem_mem hdst),
    Bool.and_self, guard, ↓reduceIte, pure, hasked, Option.isSome_some]

/-! ## Flows -/

/-- The turn of a flow keeps its branch and the invariant of its stream, its hop and its round trip
are sound, and its cursor goes ahead only over a cleared hop. -/
theorem Flow.turn_spec {flow : Flow} {around : Surroundings} {packetCount : ℕ} {turn : FlowTurn}
    (h : StreamInv flow.activeBranch flow.stream)
    (hturn : flow.turn around packetCount = some turn) :
    turn.flow.activeBranch = flow.activeBranch ∧
      StreamInv flow.activeBranch turn.flow.stream ∧
      (∀ trip, turn.trip = some trip → trip.branch = flow.activeBranch ∧ trip.Sound) ∧
      (∀ tried, turn.tried = some tried →
        tried.2.branch = flow.activeBranch ∧ tried.2.Sound around) ∧
      (turn.flow.stream = flow.stream ∨ turn.flow.stream.cursor = 0 ∨
        ∃ tried, turn.tried = some tried ∧ flow.paused = false ∧ tried.2.Cleared around ∧
          turn.flow.stream.phase = tried.2.phase ∧
          turn.flow.stream.cursor = tried.2.cursor + 1 ∧
          turn.flow.stream.packet.packetId = tried.2.packetId) := by
  rw [Flow.turn] at hturn
  split at hturn
  · obtain rfl := Option.some.inj hturn
    exact ⟨rfl, h, by simp, by simp, Or.inl rfl⟩
  · rename_i hactive
    simp only [bind, pure, Option.bind_eq_some_iff, Option.some.injEq] at hturn
    obtain ⟨⟨stream, hop⟩, hcross, rfl⟩ := hturn
    obtain ⟨hinv, -, hstay, htrip⟩ :=
      Stream.turnAround_spec h flow.activeBranch packetCount
    -- a flow turns around on its own branch, so it never leaves it
    have hbranch : (flow.stream.turnAround flow.activeBranch flow.activeBranch
        packetCount).branch = flow.activeBranch := by
      rcases htrip with ⟨hbranch, -⟩ | ⟨hbranch, -⟩
      · exact hbranch
      · exact hbranch
    rw [hbranch] at hinv hcross
    obtain ⟨hinv', hhop, hsound, hstepped⟩ := Stream.cross_spec hinv hcross
    refine ⟨rfl, hinv', fun trip htrip' => ?_, fun tried htried => ?_, ?_⟩
    · rcases htrip with ⟨-, hnone⟩ | ⟨-, trip', hsome, hof, hsound'⟩
      · rw [hnone] at htrip'
        cases htrip'
      · obtain rfl := Option.some.inj (hsome.symm.trans htrip')
        exact ⟨hof, hsound'⟩
    · obtain rfl := Option.some.inj htried
      exact ⟨hhop, hsound⟩
    · have hpaused : flow.paused = false := by
        simpa using fun hpaused => hactive (Or.inr hpaused)
      rcases hstepped with heq | hzero | ⟨hcleared, hphase, hcursor, hid⟩
      · rcases hstay with hsame | hzero
        · exact Or.inl (heq.trans hsame)
        · exact Or.inr (Or.inl (by rw [heq]; exact hzero))
      · exact Or.inr (Or.inl hzero)
      · exact Or.inr (Or.inr ⟨_, rfl, hpaused, hcleared, hphase, hcursor, hid⟩)

/-- A flow has its turn when the nodes of its branch exist and the gate answers. -/
theorem Flow.turn_isSome {flow : Flow} {around : Surroundings} (packetCount : ℕ)
    (h : StreamInv flow.activeBranch flow.stream)
    (hknown : ∀ phase, ∀ node ∈ nodes flow.activeBranch phase, around.known node = true)
    (hgate : ∀ src dst, (around.gate src dst).isSome = true) :
    (flow.turn around packetCount).isSome = true := by
  rw [Flow.turn]
  split
  · rfl
  · rename_i hactive
    obtain ⟨-, hcursor, -, htrip⟩ := Stream.turnAround_spec h flow.activeBranch packetCount
    have hbranch : (flow.stream.turnAround flow.activeBranch flow.activeBranch
        packetCount).branch = flow.activeBranch := by
      rcases htrip with ⟨hbranch, -⟩ | ⟨hbranch, -⟩
      · exact hbranch
      · exact hbranch
    rw [hbranch] at hcursor
    obtain ⟨result, hresult⟩ := Option.isSome_iff_exists.mp
      (Stream.cross_isSome (hcursor fun hnil => hactive (Or.inl hnil)) (hknown _) hgate)
    simp [hbranch, hresult]

/-- A paused flow has no turn. -/
theorem Flow.turn_of_paused {flow : Flow} (hpaused : flow.paused = true) (around : Surroundings)
    (packetCount : ℕ) :
    flow.turn around packetCount = some { flow, packetCount, tried := none, trip := none } := by
  rw [Flow.turn, if_pos (Or.inr hpaused)]

/-- A lap is made of the turns of the flows. -/
theorem lap_spec {around : Surroundings} {flows : List Flow} :
    ∀ {branchId packetCount : ℕ} {result : Lap},
      lap around branchId flows packetCount = some result →
      ∃ turns : List FlowTurn,
        List.Forall₂ (fun flow turn => ∃ count, flow.turn around count = some turn) flows turns ∧
        result.flows = turns.map FlowTurn.flow ∧
        (∀ hop, hop ∈ result.hops ↔
          ∃ turn ∈ turns, ∃ tried, turn.tried = some tried ∧ tried.2 = hop) ∧
        ∀ trip, trip ∈ result.trips ↔ ∃ turn ∈ turns, turn.trip = some trip := by
  induction flows with
  | nil =>
      intro branchId packetCount result h
      obtain rfl := Option.some.inj h
      exact ⟨[], .nil, rfl, by simp, by simp⟩
  | cons flow rest ih =>
      intro branchId packetCount result h
      simp only [lap, bind, pure, Option.bind_eq_some_iff, Option.some.injEq] at h
      obtain ⟨turn, hturn, others, hothers, rfl⟩ := h
      obtain ⟨turns, hturns, hflows, hhops, htrips⟩ := ih hothers
      refine ⟨turn :: turns, .cons ⟨_, hturn⟩ hturns, by simp [hflows], fun hop => ?_,
        fun trip => ?_⟩
      · simp [hhops]
      · simp [htrips]

private theorem getElem?_of_forall₂ {α β : Type*} {R : α → β → Prop} {l : List α} {l' : List β}
    (h : List.Forall₂ R l l') {i : ℕ} {b : β} (hb : l'[i]? = some b) :
    ∃ a, l[i]? = some a ∧ R a b := by
  induction h generalizing i with
  | nil => simp at hb
  | cons hab _ ih =>
      cases i with
      | zero =>
          obtain rfl := Option.some.inj hb
          exact ⟨_, rfl, hab⟩
      | succ i => exact ih hb

/-- A flow after the lap has had its turn, and the hop it tried is among the hops of the lap. -/
theorem lap_flow {around : Surroundings} {flows : List Flow} {branchId packetCount : ℕ}
    {result : Lap} (h : lap around branchId flows packetCount = some result) {i : ℕ} {flow' : Flow}
    (hflow' : result.flows[i]? = some flow') :
    ∃ flow turn count, flows[i]? = some flow ∧ flow.turn around count = some turn ∧
      turn.flow = flow' ∧ ∀ tried, turn.tried = some tried → tried.2 ∈ result.hops := by
  obtain ⟨turns, hturns, hflows, hhops, -⟩ := lap_spec h
  rw [hflows, List.getElem?_map] at hflow'
  obtain ⟨turn, hturn, rfl⟩ := Option.map_eq_some_iff.mp hflow'
  obtain ⟨flow, hflow, count, hcount⟩ := getElem?_of_forall₂ hturns hturn
  exact ⟨flow, turn, count, hflow, hcount, rfl, fun tried htried =>
    (hhops _).mpr ⟨turn, List.mem_of_getElem? hturn, tried, htried, rfl⟩⟩

/-- The hops and round trips of a lap are those of the turns of the flows. -/
theorem lap_tried {around : Surroundings} {flows : List Flow} {branchId packetCount : ℕ}
    {result : Lap} (h : lap around branchId flows packetCount = some result) :
    (∀ hop ∈ result.hops, ∃ flow ∈ flows, ∃ turn count, flow.turn around count = some turn ∧
      ∃ tried, turn.tried = some tried ∧ tried.2 = hop) ∧
    ∀ trip ∈ result.trips, ∃ flow ∈ flows, ∃ turn count, flow.turn around count = some turn ∧
      turn.trip = some trip := by
  obtain ⟨turns, hturns, -, hhops, htrips⟩ := lap_spec h
  have hturn : ∀ turn ∈ turns, ∃ flow ∈ flows, ∃ count, flow.turn around count = some turn := by
    intro turn hmem
    obtain ⟨i, hi⟩ := List.getElem?_of_mem hmem
    obtain ⟨flow, hflow, hcount⟩ := getElem?_of_forall₂ hturns hi
    exact ⟨flow, List.mem_of_getElem? hflow, hcount⟩
  constructor
  · intro hop hhop
    obtain ⟨turn, hmem, htried⟩ := (hhops hop).mp hhop
    obtain ⟨flow, hflow, count, hcount⟩ := hturn turn hmem
    exact ⟨flow, hflow, turn, count, hcount, htried⟩
  · intro trip htrip
    obtain ⟨turn, hmem, hsome⟩ := (htrips trip).mp htrip
    obtain ⟨flow, hflow, count, hcount⟩ := hturn turn hmem
    exact ⟨flow, hflow, turn, count, hcount, hsome⟩

/-- The turn of a flow keeps its branch. -/
theorem Flow.activeBranch_turn {flow : Flow} {around : Surroundings} {packetCount : ℕ}
    {turn : FlowTurn} (h : flow.turn around packetCount = some turn) :
    turn.flow.activeBranch = flow.activeBranch := by
  rw [Flow.turn] at h
  split at h
  · obtain rfl := Option.some.inj h
    rfl
  · simp only [bind, pure, Option.bind_eq_some_iff, Option.some.injEq] at h
    obtain ⟨_, -, rfl⟩ := h
    rfl

/-- After a lap the flows are on the same branches. -/
theorem map_activeBranch_lap {around : Surroundings} {flows : List Flow} {branchId packetCount : ℕ}
    {result : Lap} (h : lap around branchId flows packetCount = some result) :
    result.flows.map Flow.activeBranch = flows.map Flow.activeBranch := by
  obtain ⟨turns, hturns, hflows, -⟩ := lap_spec h
  rw [hflows, List.map_map]
  clear hflows h
  induction hturns with
  | nil => rfl
  | cons hturn _ ih =>
      obtain ⟨count, hcount⟩ := hturn
      rw [List.map_cons, List.map_cons, ih, Function.comp_apply, Flow.activeBranch_turn hcount]

/-- All flows have their turns when each of them has. -/
theorem lap_isSome {around : Surroundings} {flows : List Flow} :
    ∀ {branchId packetCount : ℕ},
      (∀ flow ∈ flows, ∀ count, (flow.turn around count).isSome = true) →
      (lap around branchId flows packetCount).isSome = true := by
  induction flows with
  | nil => exact fun _ => rfl
  | cons flow rest ih =>
      intro branchId packetCount h
      obtain ⟨turn, hturn⟩ := Option.isSome_iff_exists.mp (h flow List.mem_cons_self packetCount)
      obtain ⟨others, hothers⟩ := Option.isSome_iff_exists.mp
        (@ih (branchId + 1) turn.packetCount fun flow hflow =>
          h flow (List.mem_cons_of_mem _ hflow))
      simp [lap, hturn, hothers]

/-! ## The flows of the branches -/

/-- After the synchronization each branch has its flow. -/
theorem map_activeBranch_syncFlows (branches : List (List ℤ)) :
    ∀ (flows : List Flow) (packetCount : ℕ),
      (syncFlows branches flows packetCount).1.map Flow.activeBranch = branches := by
  induction branches with
  | nil => exact fun _ _ => rfl
  | cons branch branches ih =>
      intro flows packetCount
      cases flows with
      | nil => simpa [syncFlows, Flow.fresh] using ih [] (packetCount + 1)
      | cons flow rest =>
          by_cases hsame : flow.activeBranch = branch
          · simpa [syncFlows, hsame] using ih rest packetCount
          · simpa [syncFlows, hsame, Flow.fresh] using ih rest (packetCount + 1)

/-- A flow after the synchronization was there before, at the same position, or starts anew. -/
theorem getElem?_syncFlows {branches : List (List ℤ)} :
    ∀ {flows : List Flow} {packetCount i : ℕ} {flow : Flow},
      (syncFlows branches flows packetCount).1[i]? = some flow →
      flows[i]? = some flow ∨ ∃ branch packetId, flow = .fresh branch packetId := by
  induction branches with
  | nil => simp [syncFlows]
  | cons branch branches ih =>
      intro flows packetCount i flow h
      cases flows with
      | nil =>
          cases i with
          | zero => exact Or.inr ⟨branch, packetCount + 1, by simpa [syncFlows, eq_comm] using h⟩
          | succ i => exact @ih [] (packetCount + 1) i flow (by simpa [syncFlows] using h)
      | cons first rest =>
          by_cases hsame : first.activeBranch = branch
          · cases i with
            | zero => exact Or.inl (by simpa [syncFlows, hsame] using h)
            | succ i => exact @ih rest packetCount i flow (by simpa [syncFlows, hsame] using h)
          · cases i with
            | zero =>
                exact Or.inr ⟨branch, packetCount + 1, by
                  simpa [syncFlows, hsame, eq_comm] using h⟩
            | succ i => exact @ih rest (packetCount + 1) i flow (by simpa [syncFlows, hsame] using h)

/-- Flows that fit the branches stay. -/
theorem syncFlows_of_fits {branches : List (List ℤ)} :
    ∀ {flows : List Flow} (packetCount : ℕ), flows.map Flow.activeBranch = branches →
      syncFlows branches flows packetCount = (flows, packetCount) := by
  induction branches with
  | nil =>
      intro flows packetCount h
      rw [List.map_eq_nil_iff.mp h]
      rfl
  | cons branch branches ih =>
      intro flows packetCount h
      obtain ⟨flow, rest, rfl, hflow, hrest⟩ := List.map_eq_cons_iff.mp h
      simp [syncFlows, hflow, ih packetCount hrest]

end Netlab
