import Mathlib.Data.Prod.Lex
import Mathlib.Data.String.Basic
import Netlab.Models
import Netlab.Prelude.HeapQueue
import Netlab.Prelude.Run

/-!
# The packet queue

`PacketQueue` holds at most `capacity` packets in one list, which the `priority` discipline keeps as
a heap and every other discipline as a line. `heapq` is given by its operations.
-/

namespace Netlab

/-- The string that a status is. -/
def PacketStatus.value : PacketStatus → String
  | created => "CREATED"
  | queued => "QUEUED"
  | waitingForLink => "WAITING_FOR_LINK"
  | transmitting => "TRANSMITTING"
  | advanced => "ADVANCED"
  | delivered => "DELIVERED"
  | pausedOutage => "PAUSED_OUTAGE"
  | retrying => "RETRYING"
  | dropped => "DROPPED"
  | expired => "EXPIRED"
  | cancelled => "CANCELLED"

namespace Traffic

/-- `QueuedPacket`. Its first field is the pair `sort_key` of the two after it. -/
structure QueuedPacket (R : Type) where
  priority : ℤ
  createdAt : R
  packetId : String
  flowId : String
  sizeBytes : ℤ
  deadlineS : Option R
  status : PacketStatus

namespace QueuedPacket

variable {R : Type}

/-- A packet as it is made, with `__post_init__`. -/
def init (priority : ℤ) (createdAt : R) (packetId flowId : String) (sizeBytes : ℤ)
    (deadlineS : Option R) : QueuedPacket R :=
  { priority, createdAt, packetId, flowId, sizeBytes, deadlineS, status := .queued }

variable [LinearOrder R]

/-- `sort_key`. -/
def sortKey (packet : QueuedPacket R) : ℤ ×ₗ R := toLex (-packet.priority, packet.createdAt)

/-- `p < q`, which `dataclass(order=True)` makes of the fields in order: the first field in which
two packets differ decides, and a deadline does not compare with `None`. -/
def lt? (p q : QueuedPacket R) : Option Bool :=
  if p.sortKey ≠ q.sortKey then some (decide (p.sortKey < q.sortKey))
  else if p.priority ≠ q.priority then some (decide (p.priority < q.priority))
  else if p.createdAt ≠ q.createdAt then some (decide (p.createdAt < q.createdAt))
  else if p.packetId ≠ q.packetId then some (decide (p.packetId < q.packetId))
  else if p.flowId ≠ q.flowId then some (decide (p.flowId < q.flowId))
  else if p.sizeBytes ≠ q.sizeBytes then some (decide (p.sizeBytes < q.sizeBytes))
  else
    match p.deadlineS, q.deadlineS with
    | none, none => some (decide (p.status.value < q.status.value))
    | some d, some e =>
        if d = e then some (decide (p.status.value < q.status.value)) else some (decide (d < e))
    -- a deadline and none cannot be compared
    | _, _ => none

/-- What two packets with different identities are compared by. -/
def key (packet : QueuedPacket R) : (ℤ ×ₗ R) ×ₗ String := toLex (packet.sortKey, packet.packetId)

/-- Two packets with different identities are compared by their keys. -/
theorem lt?_of_ne {p q : QueuedPacket R} (h : p.packetId ≠ q.packetId) :
    p.lt? q = some (decide (p.key < q.key)) := by
  by_cases hkey : p.sortKey = q.sortKey
  · have hparts : p.priority = q.priority ∧ p.createdAt = q.createdAt := by
      have hpair := congrArg ofLex hkey
      simpa [sortKey] using hpair
    have hlt : p.key < q.key ↔ p.packetId < q.packetId := by
      simp [key, Prod.Lex.toLex_lt_toLex, hkey]
    simp [lt?, hkey, hparts, h, hlt]
  · have hlt : p.key < q.key ↔ p.sortKey < q.sortKey := by
      simp [key, Prod.Lex.toLex_lt_toLex, hkey]
    simp [lt?, hkey, hlt]

/-- A packet with a key that is not above another's has a higher priority, or the same and was
created no later. -/
theorem served_of_key_le {p q : QueuedPacket R} (h : p.key ≤ q.key) :
    q.priority ≤ p.priority ∧ (q.priority = p.priority → p.createdAt ≤ q.createdAt) := by
  have hsort : p.sortKey ≤ q.sortKey := by
    rcases Prod.Lex.toLex_le_toLex.mp h with h | h
    · exact le_of_lt h
    · exact le_of_eq h.1
  rcases Prod.Lex.toLex_le_toLex.mp hsort with h | ⟨h, hcreated⟩
  · have hpriority : -p.priority < -q.priority := h
    exact ⟨by omega, fun heq => by omega⟩
  · have hpriority : -p.priority = -q.priority := h
    exact ⟨by omega, fun _ => hcreated⟩

/-- Packets with distinct identities are compared by their keys. -/
theorem keyedBy_of_nodup {packets : List (QueuedPacket R)}
    (h : (packets.map (·.packetId)).Nodup) : packets.KeyedBy lt? key :=
  (List.pairwise_map.mp h).imp fun hne => ⟨lt?_of_ne hne, lt?_of_ne (Ne.symm hne)⟩

end QueuedPacket

/-- `PacketQueue`. -/
structure PacketQueue (R : Type) where
  capacity : ℤ
  discipline : String
  items : List (QueuedPacket R)
  dropped : ℕ

/-- The calls on a queue. -/
inductive QueueCall (R : Type)
  | push (packet : QueuedPacket R)
  | pop

/-- What a call returns: whether the packet is accepted, or the packet taken out. -/
inductive QueueReply (R : Type)
  | pushed (packet : QueuedPacket R) (accepted : Bool)
  | popped (packet : Option (QueuedPacket R))

namespace PacketQueue

variable {R : Type} [LinearOrder R] (heapq : HeapQueue (@QueuedPacket.lt? R _) QueuedPacket.key)

/-- A queue as it is made. -/
def init (capacity : ℤ) (discipline : String) : PacketQueue R :=
  { capacity, discipline, items := [], dropped := 0 }

/-- `push`: the queue and the packet after it, and whether the packet is accepted. -/
def push (queue : PacketQueue R) (packet : QueuedPacket R) :
    PacketQueue R × QueuedPacket R × Bool :=
  if queue.capacity ≤ queue.items.length then
    ({ queue with dropped := queue.dropped + 1 }, { packet with status := .dropped }, false)
  else if queue.discipline = "priority" then
    ({ queue with items := heapq.heappush queue.items packet }, packet, true)
  else ({ queue with items := queue.items ++ [packet] }, packet, true)

/-- `pop`: the queue after it and the packet taken out. -/
def pop (queue : PacketQueue R) : PacketQueue R × Option (QueuedPacket R) :=
  if queue.items = [] then (queue, none)
  else if queue.discipline = "priority" then
    match heapq.heappop queue.items with
    | some (packet, items) => ({ queue with items }, some packet)
    | none => (queue, none)
  else ({ queue with items := queue.items.tail }, queue.items.head?)

/-- The queue after a call. -/
def step (queue : PacketQueue R) : QueueCall R → PacketQueue R
  | .push packet => (queue.push heapq packet).1
  | .pop => (queue.pop heapq).1

/-- What a call returns. -/
def reply (queue : PacketQueue R) : QueueCall R → Option (QueueReply R)
  | .push packet => some (.pushed packet (queue.push heapq packet).2.2)
  | .pop => some (.popped (queue.pop heapq).2)

end PacketQueue

/-- The identities of the packets that a sequence of calls pushes. -/
def pushedIds {R : Type} (calls : List (QueueCall R)) : List String :=
  calls.filterMap fun
    | .push packet => some packet.packetId
    | .pop => none

/-- The packets that were accepted, in the order of the calls. -/
def accepted {R : Type} (replies : List (QueueReply R)) : List (QueuedPacket R) :=
  replies.filterMap fun
    | .pushed packet true => some packet
    | _ => none

/-- The packets that were rejected, in the order of the calls. -/
def rejected {R : Type} (replies : List (QueueReply R)) : List (QueuedPacket R) :=
  replies.filterMap fun
    | .pushed packet false => some packet
    | _ => none

/-- The packets that were taken out, in the order of the calls. -/
def popped {R : Type} (replies : List (QueueReply R)) : List (QueuedPacket R) :=
  replies.filterMap fun
    | .popped packet => packet
    | _ => none

namespace PacketQueue

variable {R : Type} [LinearOrder R] {heapq : HeapQueue (@QueuedPacket.lt? R _) QueuedPacket.key}

/-- The packets of the queue have distinct identities, there are no more of them than the capacity
admits, and the `priority` discipline finds them in the order of a heap. -/
structure WellFormed (heapq : HeapQueue (@QueuedPacket.lt? R _) QueuedPacket.key)
    (queue : PacketQueue R) : Prop where
  nodup : (queue.items.map (·.packetId)).Nodup
  bounded : (queue.items.length : ℤ) ≤ max 0 queue.capacity
  isHeap : queue.discipline = "priority" → heapq.IsHeap queue.items

/-- The call does not push a packet with the identity of one that is queued. -/
def Fresh (queue : PacketQueue R) : QueueCall R → Prop
  | .push packet => packet.packetId ∉ queue.items.map (·.packetId)
  | .pop => True

/-- A new queue is well formed. -/
theorem wellFormed_init (capacity : ℤ) (discipline : String) :
    (init capacity discipline).WellFormed heapq where
  nodup := List.nodup_nil
  bounded := by simp [init]
  isHeap _ := heapq.isHeap_nil

/-! ### One call -/

/-- What a push does: it counts a packet that finds the queue full, and adds any other. -/
theorem push_cases {queue : PacketQueue R} (hwf : queue.WellFormed heapq)
    {packet : QueuedPacket R} (hfresh : queue.Fresh (.push packet)) :
    (queue.push heapq packet =
        ({ queue with dropped := queue.dropped + 1 }, { packet with status := .dropped }, false)) ∨
      ∃ items, (queue.items.length : ℤ) < queue.capacity ∧
        queue.push heapq packet = ({ queue with items }, packet, true) ∧
        items.Perm (packet :: queue.items) ∧
        (queue.discipline ≠ "priority" → items = queue.items ++ [packet]) ∧
        (queue.discipline = "priority" → heapq.IsHeap items) := by
  unfold push
  split
  next => exact Or.inl rfl
  next hroom =>
    refine Or.inr ?_
    split
    next hdiscipline =>
      -- the packet is new, so the comparison goes by the keys
      have hkeys : (packet :: queue.items).KeyedBy QueuedPacket.lt? QueuedPacket.key :=
        QueuedPacket.keyedBy_of_nodup (List.nodup_cons.mpr ⟨hfresh, hwf.nodup⟩)
      have hheap := hwf.isHeap hdiscipline
      exact ⟨_, by omega, rfl, heapq.heappush_perm hheap hkeys, fun h => absurd hdiscipline h,
        fun _ => heapq.isHeap_heappush hheap hkeys⟩
    next hdiscipline =>
      exact ⟨_, by omega, rfl, List.perm_append_singleton _ _, fun _ => rfl,
        fun h => absurd h hdiscipline⟩

/-- What a pop does: it takes out the first packet of the line, or one with a least key. -/
theorem pop_cases {queue : PacketQueue R} (hwf : queue.WellFormed heapq) :
    (queue.items = [] ∧ queue.pop heapq = (queue, none)) ∨
      ∃ packet items, queue.pop heapq = ({ queue with items }, some packet) ∧
        queue.items.Perm (packet :: items) ∧
        (queue.discipline ≠ "priority" → queue.items = packet :: items) ∧
        (queue.discipline = "priority" →
          heapq.IsHeap items ∧ ∀ other ∈ items, packet.key ≤ other.key) := by
  unfold pop
  split
  next hempty => exact Or.inl ⟨hempty, rfl⟩
  next hne =>
    refine Or.inr ?_
    split
    next hdiscipline =>
      obtain ⟨packet, items, hpop, hperm, hheap, hleast⟩ :=
        heapq.heappop_eq (hwf.isHeap hdiscipline) (QueuedPacket.keyedBy_of_nodup hwf.nodup) hne
      rw [hpop]
      exact ⟨packet, items, rfl, hperm, fun h => absurd hdiscipline h, fun _ => ⟨hheap, hleast⟩⟩
    next hdiscipline =>
      obtain ⟨packet, items, hitems⟩ := List.exists_cons_of_ne_nil hne
      rw [hitems]
      exact ⟨packet, items, rfl, List.Perm.refl _, fun _ => rfl, fun h => absurd h hdiscipline⟩

/-- Every call keeps a queue well formed. -/
theorem wellFormed_step (queue : PacketQueue R) (call : QueueCall R)
    (hwf : queue.WellFormed heapq) (hfresh : queue.Fresh call) :
    (queue.step heapq call).WellFormed heapq := by
  cases call with
  | push packet =>
      show (queue.push heapq packet).1.WellFormed heapq
      rcases push_cases hwf hfresh with hpush | ⟨items, hroom, hpush, hperm, -, hheap⟩
      · rw [hpush]
        exact ⟨hwf.nodup, hwf.bounded, hwf.isHeap⟩
      · rw [hpush]
        -- the packet is new, so its id is not in the queue
        refine ⟨(hperm.map _).nodup_iff.mpr (List.nodup_cons.mpr ⟨hfresh, hwf.nodup⟩), ?_, hheap⟩
        have hlength := hperm.length_eq
        simp only [List.length_cons] at hlength
        show (items.length : ℤ) ≤ max 0 queue.capacity
        omega
  | pop =>
      show (queue.pop heapq).1.WellFormed heapq
      rcases pop_cases hwf with ⟨-, hpop⟩ | ⟨packet, items, hpop, hperm, -, hheap⟩
      · rw [hpop]
        exact hwf
      · rw [hpop]
        have hnodup := (hperm.map (·.packetId)).nodup_iff.mp hwf.nodup
        refine ⟨(List.nodup_cons.mp hnodup).2, ?_, fun h => (hheap h).1⟩
        have hlength := hperm.length_eq
        have hbounded := hwf.bounded
        simp only [List.length_cons] at hlength
        show (items.length : ℤ) ≤ max 0 queue.capacity
        omega

/-- The replies account for how the queue changed: the packets that were there or accepted are those
taken out or there now, in the same order unless the discipline is `priority`, and the rejected ones
are counted. -/
structure Accounts (queue : PacketQueue R) (replies : List (QueueReply R))
    (queue' : PacketQueue R) : Prop where
  capacity : queue'.capacity = queue.capacity
  discipline : queue'.discipline = queue.discipline
  conserved : (queue.items ++ accepted replies).Perm (popped replies ++ queue'.items)
  inOrder : queue.discipline ≠ "priority" →
    queue.items ++ accepted replies = popped replies ++ queue'.items
  dropped : queue'.dropped = queue.dropped + (rejected replies).length

omit [LinearOrder R] in
theorem Accounts.refl (queue : PacketQueue R) : queue.Accounts [] queue :=
  ⟨rfl, rfl, by simp [accepted, popped], fun _ => by simp [accepted, popped], by simp [rejected]⟩

omit [LinearOrder R] in
theorem Accounts.trans {queue queue' queue'' : PacketQueue R} {replies replies' : List (QueueReply R)}
    (h : queue.Accounts replies queue') (h' : queue'.Accounts replies' queue'') :
    queue.Accounts (replies ++ replies') queue'' where
  capacity := h'.capacity.trans h.capacity
  discipline := h'.discipline.trans h.discipline
  conserved := by
    have hleft := h.conserved.append_right (accepted replies')
    have hright := h'.conserved.append_left (popped replies)
    simp only [List.append_assoc] at hleft hright
    simpa [accepted, popped] using hleft.trans hright
  inOrder hne := by
    have hleft := h.inOrder hne
    have hright := h'.inOrder (by rwa [h.discipline])
    have hacc : accepted (replies ++ replies') = accepted replies ++ accepted replies' := by
      simp [accepted]
    have hpop : popped (replies ++ replies') = popped replies ++ popped replies' := by
      simp [popped]
    rw [hacc, hpop, ← List.append_assoc, hleft, List.append_assoc, hright, List.append_assoc]
  dropped := by
    rw [h'.dropped, h.dropped]
    simp [rejected, Nat.add_assoc]

/-- The reply to a call accounts for what the call does. -/
theorem accounts_step {queue : PacketQueue R} (hwf : queue.WellFormed heapq)
    {call : QueueCall R} (hfresh : queue.Fresh call) :
    queue.Accounts (queue.reply heapq call).toList (queue.step heapq call) := by
  cases call with
  | push packet =>
      rcases push_cases hwf hfresh with hpush | ⟨items, -, hpush, hperm, horder, -⟩
      · simp only [reply, step, hpush]
        exact ⟨rfl, rfl, by simp [accepted, popped], fun _ => by simp [accepted, popped],
          by simp [rejected]⟩
      · simp only [reply, step, hpush]
        refine ⟨rfl, rfl, ?_, fun hne => ?_, by simp [rejected]⟩
        · simpa [accepted, popped] using
            (List.perm_append_singleton packet queue.items).trans hperm.symm
        · simp [accepted, popped, horder hne]
  | pop =>
      rcases pop_cases hwf with ⟨hempty, hpop⟩ | ⟨packet, items, hpop, hperm, horder, -⟩
      · simp only [reply, step, hpop]
        exact ⟨rfl, rfl, by simp [accepted, popped], fun _ => by simp [accepted, popped],
          by simp [rejected]⟩
      · simp only [reply, step, hpop]
        refine ⟨rfl, rfl, ?_, fun hne => ?_, by simp [rejected]⟩
        · simpa [accepted, popped] using hperm
        · simpa [accepted, popped] using horder hne

/-- The identities queued after a call are those queued before it, with the pushed one. -/
theorem subperm_step {queue : PacketQueue R} (hwf : queue.WellFormed heapq) {call : QueueCall R}
    (hfresh : queue.Fresh call) :
    ((queue.step heapq call).items.map (·.packetId)).Subperm
      (pushedIds [call] ++ queue.items.map (·.packetId)) := by
  cases call with
  | push packet =>
      show ((queue.push heapq packet).1.items.map _).Subperm _
      rcases push_cases hwf hfresh with hpush | ⟨items, -, hpush, hperm, -, -⟩
      · rw [hpush]
        exact (List.sublist_append_right _ _).subperm
      · rw [hpush]
        exact (hperm.map _).subperm
  | pop =>
      show ((queue.pop heapq).1.items.map _).Subperm _
      rcases pop_cases hwf with ⟨-, hpop⟩ | ⟨packet, items, hpop, hperm, -, -⟩
      · rw [hpop]
        exact List.Subperm.refl _
      · rw [hpop]
        exact (List.sublist_cons_self _ _).subperm.trans (hperm.map _).symm.subperm

/-! ### Runs -/

omit [LinearOrder R] in
/-- The identities that a sequence of calls pushes, first call first. -/
theorem pushedIds_cons (call : QueueCall R) (calls : List (QueueCall R)) :
    pushedIds (call :: calls) = pushedIds [call] ++ pushedIds calls := by
  cases call <;> simp [pushedIds]

/-- When the packets of a run have distinct identities, none is pushed while one with its identity
is queued. -/
theorem allSteps_fresh {queue : PacketQueue R} (hwf : queue.WellFormed heapq)
    {calls : List (QueueCall R)}
    (hids : (queue.items.map (·.packetId) ++ pushedIds calls).Nodup) :
    Run.AllSteps (step heapq) Fresh queue calls := by
  induction calls generalizing queue with
  | nil => trivial
  | cons call calls ih =>
      rw [pushedIds_cons, ← List.append_assoc] at hids
      have hfresh : queue.Fresh call := by
        cases call with
        | push packet =>
            have hdisjoint := List.nodup_append.mp (List.nodup_append.mp hids).1
            exact fun hmem => hdisjoint.2.2 _ hmem _ (List.mem_singleton_self _) rfl
        | pop => trivial
      refine ⟨hfresh, ih (wellFormed_step queue call hwf hfresh) ?_⟩
      have hperm := (@List.perm_append_comm _ (queue.items.map (·.packetId))
        (pushedIds [call])).append_right (pushedIds calls)
      have hsub := ((List.subperm_append_right (pushedIds calls)).mpr
        (subperm_step hwf hfresh)).trans hperm.symm.subperm
      rw [List.nodup_iff_count_le_one] at hids ⊢
      exact fun id => (hsub.count_le id).trans (hids id)

/-- The replies of a run account for how it changes the queue. -/
theorem accounts_run {queue : PacketQueue R} (hwf : queue.WellFormed heapq)
    {calls : List (QueueCall R)} (hfresh : Run.AllSteps (step heapq) Fresh queue calls) :
    queue.Accounts (Run.replies (step heapq) (reply heapq) queue calls)
      (Run.run (step heapq) queue calls) := by
  induction calls generalizing queue with
  | nil => exact Accounts.refl queue
  | cons call calls ih =>
      exact (accounts_step hwf hfresh.1).trans
        (ih (wellFormed_step queue call hwf hfresh.1) hfresh.2)

/-- A pop of a queue that is not empty takes out one of its packets, of the highest priority and,
among those, created first. -/
def Urgent (heapq : HeapQueue (@QueuedPacket.lt? R _) QueuedPacket.key) (queue : PacketQueue R) :
    QueueCall R → Prop
  | .push _ => True
  | .pop => queue.items ≠ [] → ∃ packet ∈ queue.items, (queue.pop heapq).2 = some packet ∧
      ∀ other ∈ queue.items, other.priority ≤ packet.priority ∧
        (other.priority = packet.priority → packet.createdAt ≤ other.createdAt)

/-- A well-formed queue serves the most urgent packet under the `priority` discipline. -/
theorem urgent_of_wellFormed {queue : PacketQueue R} (hwf : queue.WellFormed heapq)
    (hdiscipline : queue.discipline = "priority") (call : QueueCall R) :
    queue.Urgent heapq call := by
  cases call with
  | push packet => trivial
  | pop =>
      intro hne
      rcases pop_cases hwf with ⟨hempty, -⟩ | ⟨packet, items, hpop, hperm, -, hheap⟩
      · exact absurd hempty hne
      · refine ⟨packet, hperm.mem_iff.mpr (List.mem_cons_self ..), by rw [hpop], ?_⟩
        intro other hother
        refine QueuedPacket.served_of_key_le ?_
        rcases List.mem_cons.mp (hperm.mem_iff.mp hother) with rfl | hmem
        · exact le_refl _
        · exact (hheap hdiscipline).2 other hmem

/-- Under the `priority` discipline every pop of a run serves the most urgent packet. -/
theorem allSteps_urgent {queue : PacketQueue R} (hwf : queue.WellFormed heapq)
    (hdiscipline : queue.discipline = "priority") {calls : List (QueueCall R)}
    (hfresh : Run.AllSteps (step heapq) Fresh queue calls) :
    Run.AllSteps (step heapq) (Urgent heapq) queue calls := by
  induction calls generalizing queue with
  | nil => trivial
  | cons call calls ih =>
      refine ⟨urgent_of_wellFormed hwf hdiscipline call,
        ih (wellFormed_step queue call hwf hfresh.1) ?_ hfresh.2⟩
      rw [(accounts_step hwf hfresh.1).discipline, hdiscipline]

/-- For every capacity, discipline and sequence of calls that push packets with distinct identities:
the queue is never longer than the capacity admits, the accepted packets are those taken out and
those still queued, the rejected ones are counted as dropped, a queue that is not `priority` takes
packets out as they came, and a `priority` queue always serves the most urgent one. -/
theorem queue_accounts (heapq : HeapQueue (@QueuedPacket.lt? R _) QueuedPacket.key) (capacity : ℤ)
    (discipline : String) (calls : List (QueueCall R)) (hids : (pushedIds calls).Nodup) :
    let start : PacketQueue R := init capacity discipline
    let queue := Run.run (step heapq) start calls
    let replies := Run.replies (step heapq) (reply heapq) start calls
    (queue.items.length : ℤ) ≤ max 0 capacity ∧
      (accepted replies).length = (popped replies).length + queue.items.length ∧
      (accepted replies).Perm (popped replies ++ queue.items) ∧
      (rejected replies).length = queue.dropped ∧
      (discipline ≠ "priority" → accepted replies = popped replies ++ queue.items) ∧
      (discipline = "priority" → Run.AllSteps (step heapq) (Urgent heapq) start calls) := by
  intro start queue replies
  have hwf : start.WellFormed heapq := wellFormed_init capacity discipline
  have hfresh : Run.AllSteps (step heapq) Fresh start calls := allSteps_fresh hwf hids
  have haccounts : start.Accounts replies queue := accounts_run hwf hfresh
  have hend : queue.WellFormed heapq :=
    Run.run_invariant_of_allSteps (WellFormed heapq) wellFormed_step hwf hfresh
  have hconserved : (accepted replies).Perm (popped replies ++ queue.items) := haccounts.conserved
  refine ⟨?_, ?_, hconserved, ?_, haccounts.inOrder, fun h => allSteps_urgent hwf h hfresh⟩
  · rw [← show queue.capacity = capacity from haccounts.capacity]
    exact hend.bounded
  · simpa using hconserved.length_eq
  · have hdropped : queue.dropped = 0 + (rejected replies).length := haccounts.dropped
    omega

/-- A full `priority` queue of two, which drops a third packet and serves the urgent one first. -/
theorem queue_accounts_priority :
    let calls : List (QueueCall ℚ) :=
      [.push (.init 0 1 "p1" "f" 100 none), .push (.init 5 2 "p2" "f" 100 (some 9)),
        .push (.init 9 3 "p3" "f" 100 none), .pop]
    let heapq := HeapQueue.sorted (@QueuedPacket.lt? ℚ _) QueuedPacket.key
    (pushedIds calls).Nodup ∧
      (Run.run (step heapq) (init 2 "priority") calls).dropped = 1 ∧
      (rejected (Run.replies (step heapq) (reply heapq) (init 2 "priority") calls)).length =
        (Run.run (step heapq) (init 2 "priority") calls).dropped ∧
      Run.AllSteps (step heapq) (Urgent heapq) (init 2 "priority") calls := by
  intro calls heapq
  have hids : (pushedIds calls).Nodup := by decide
  obtain ⟨-, -, -, hrejected, -, hurgent⟩ := queue_accounts heapq 2 "priority" calls hids
  exact ⟨hids, by rfl, hrejected, hurgent rfl⟩

end PacketQueue

end Traffic
end Netlab
