import Netlab.Packet.History
import Mathlib.Algebra.BigOperators.Group.List.Basic

/-!
# Packet conservation

Every packet that was drawn should be completed, dropped, or still on its stream. `replace_route`
breaks the sum: it draws a packet for the new route and forgets the one that was under way, although
the stream has a counter for dropped packets. Each such call adds one to the `deficit`, and nothing
else changes it, so the sum holds after a run exactly when no call of the run was of this kind.
-/

namespace Netlab.Packet

variable {F : Type} {uuid4 : IdSupply}

/-- The packets of a stream that are still accounted for. -/
def BranchStream.accounted (stream : BranchStream F) : ℕ :=
  stream.completedPackets + stream.droppedPackets +
    match stream.currentPacket with
    | some packet => if packet.status = .delivered then 0 else 1
    | none => 0

/-- Every packet that was drawn is completed, dropped or still on its stream. -/
def Conserved (rt : PacketRuntime F) : Prop :=
  rt.sequence = rt.streams.sum BranchStream.accounted

instance (rt : PacketRuntime F) : Decidable (Conserved rt) :=
  inferInstanceAs (Decidable (rt.sequence = _))

/-- A call that replaces the route under an undelivered packet. -/
def Op.Lossy (rt : PacketRuntime F) : Op F → Prop
  | .replaceRoute k route => (Move.replace k route).Lossy rt
  | _ => False

/-- How many packets that were drawn are no longer accounted for. -/
def deficit (rt : PacketRuntime F) : ℤ :=
  rt.sequence - rt.streams.sum BranchStream.accounted

theorem conserved_iff_deficit (rt : PacketRuntime F) : Conserved rt ↔ deficit rt = 0 := by
  unfold Conserved deficit
  omega

/-- Storing a stream changes the sum by the change of what the stream accounts for. -/
private theorem sum_accounted {rt rt' : PacketRuntime F} {k : String}
    {stream stream' : BranchStream F} (hget : rt.streams.get? k = some stream)
    (hset : rt'.streams = rt.streams.set k stream') :
    (rt'.streams.sum BranchStream.accounted : ℤ) =
      rt.streams.sum BranchStream.accounted + stream'.accounted - stream.accounted := by
  have := Dict.sum_set BranchStream.accounted stream' hget
  rw [hset]
  omega

open Classical in
/-- A move adds one to the deficit when it replaces an undelivered packet, and nothing otherwise. -/
private theorem Effect.deficit_eq {h h' : History F} {m : Move F}
    (effect : Effect uuid4 h m h') :
    deficit h'.runtime = deficit h.runtime + if m.Lossy h.runtime then 1 else 0 := by
  cases effect with
  | idle lossless _ => simp [lossless]
  | @drawn _ _ stream stream' p _ effect lossy _ =>
      have hsum := sum_accounted effect.get effect.set
      have hnew : stream'.accounted = stream.completedPackets + stream.droppedPackets + 1 := by
        simp [BranchStream.accounted, effect.current, effect.fresh, effect.completed,
          effect.dropped]
      -- the old packet is forgotten if it was still on its way
      have hold : stream.accounted = stream.completedPackets + stream.droppedPackets +
          if m.Lossy h.runtime then 1 else 0 := by
        cases hp : stream.currentPacket with
        | none => simp [BranchStream.accounted, lossy, BranchStream.InFlight, hp]
        | some old =>
            by_cases hd : old.status = .delivered <;>
              simp [BranchStream.accounted, lossy, BranchStream.InFlight, hp, hd]
      have hseq := effect.sequence
      unfold deficit
      by_cases hl : m.Lossy h.runtime <;> simp only [hl, ↓reduceIte] at hold ⊢ <;> omega
  | @answered _ _ stream stream' p p' _ effect lossless _ =>
      have hsum := sum_accounted effect.get effect.set
      have hold : stream.accounted = stream.completedPackets + stream.droppedPackets + 1 := by
        simp [BranchStream.accounted, effect.before, effect.undelivered]
      have hnew : stream'.accounted = stream.completedPackets + stream.droppedPackets + 1 := by
        by_cases hd : p'.status = .delivered <;>
          simp [BranchStream.accounted, effect.after, effect.completed, effect.dropped, hd]
        omega
      have hseq := effect.sequence
      simp only [lossless, ↓reduceIte]
      unfold deficit
      omega
  | @kept _ _ stream stream' change effect lossless _ =>
      have hsum := sum_accounted effect.get effect.set
      -- only the status of the packet may have changed
      have hsame : stream'.accounted = stream.accounted := by
        cases hp : stream.currentPacket with
        | none =>
            simp [BranchStream.accounted, effect.current, effect.completed, effect.dropped, hp]
        | some p =>
            simp [BranchStream.accounted, effect.current, effect.completed, effect.dropped, hp,
              (effect.agree p).delivered]
      have hseq := effect.sequence
      simp only [lossless, ↓reduceIte]
      unfold deficit
      omega

/-- Moves that are no route replacements leave the deficit as it is. -/
private theorem deficit_run_of_not_replace {moves : List (Move F)}
    (hmoves : ∀ m ∈ moves, ∀ rt, ¬ m.Lossy rt) {h : History F} (inv : RuntimeInv h.runtime) :
    deficit (Run.run (History.move uuid4) h moves).runtime = deficit h.runtime := by
  induction moves generalizing h with
  | nil => rfl
  | cons m moves ih =>
      rw [Run.run_cons, ih (fun m' hm' => hmoves m' (List.mem_cons_of_mem m hm'))
        (History.move_inv uuid4 m inv), (History.move_effect uuid4 h inv m).deficit_eq]
      simp [hmoves m List.mem_cons_self]

private theorem stepMoves_not_lossy (gate : ℕ → GateEvaluator F) (keys : List String) :
    ∀ m ∈ stepMoves gate keys, ∀ rt, ¬ m.Lossy rt := by
  induction keys generalizing gate with
  | nil => simp [stepMoves]
  | cons k keys ih =>
      intro m hm
      simp only [stepMoves, List.mem_cons] at hm
      rcases hm with rfl | rfl | hm
      · exact fun _ => id
      · exact fun _ => id
      · exact ih _ m hm

open Classical in
/-- A call adds one to the deficit when it replaces an undelivered packet. -/
private theorem deficit_perform (uuid4 : IdSupply) {h : History F} (inv : RuntimeInv h.runtime)
    (op : Op F) :
    deficit (h.perform uuid4 op).runtime =
      deficit h.runtime + if op.Lossy h.runtime then 1 else 0 := by
  cases op with
  | replaceRoute k route =>
      exact (History.move_effect uuid4 h inv (.replace k route)).deficit_eq
  -- the other calls are made of moves that lose nothing
  | ensurePackets =>
      rw [History.perform_eq_run, deficit_run_of_not_replace _ inv]
      · simp [Op.Lossy]
      · intro m hm rt
        obtain ⟨k, _, rfl⟩ := List.mem_map.mp hm
        exact id
  | step gate =>
      rw [History.perform_eq_run, deficit_run_of_not_replace _ inv]
      · simp [Op.Lossy]
      · intro m hm rt
        rcases List.mem_append.mp hm with hm | hm
        · obtain ⟨k, _, rfl⟩ := List.mem_map.mp hm
          exact id
        · exact stepMoves_not_lossy gate _ m hm rt
  | stepStream k gate =>
      rw [History.perform_eq_run, deficit_run_of_not_replace _ inv]
      · simp [Op.Lossy]
      · intro m hm rt
        simp only [Op.moves, List.mem_cons, List.not_mem_nil, or_false] at hm
        rcases hm with rfl | rfl <;> exact id
  | clearOutage branchId =>
      rw [History.perform_eq_run, deficit_run_of_not_replace _ inv]
      · simp [Op.Lossy]
      · intro m hm rt
        obtain ⟨k, _, rfl⟩ := List.mem_map.mp hm
        exact id

/-- Nothing is missing at the start. -/
private theorem deficit_start (branches : List (List ℤ)) (mode source experimentId runId : String)
    (packetSizeBytes : ℤ) :
    deficit (History.start branches mode source experimentId runId packetSizeBytes :
      History F).runtime = 0 := by
  have hsum : (History.start branches mode source experimentId runId packetSizeBytes :
      History F).runtime.streams.sum BranchStream.accounted = 0 := by
    refine List.sum_eq_zero fun n hn => ?_
    obtain ⟨⟨k, stream⟩, he, rfl⟩ := List.mem_map.mp hn
    obtain ⟨_, hcurrent, hcompleted, hdropped⟩ := fromBranches_get (Dict.get?_eq_some_iff.mpr he)
    simp [BranchStream.accounted, hcurrent, hcompleted, hdropped]
  rw [deficit, hsum]
  rfl

/-- After a run from `from_branches`, the packets drawn are those completed, dropped or still on a
stream exactly when no call of the run replaced the route under an undelivered packet. -/
theorem conserved_iff_lossless (uuid4 : IdSupply) (branches : List (List ℤ))
    (mode source experimentId runId : String) (packetSizeBytes : ℤ) (ops : List (Op F)) :
    Conserved (Run.run (History.perform uuid4)
        (.start branches mode source experimentId runId packetSizeBytes) ops).runtime ↔
      Run.AllSteps (History.perform uuid4) (fun h op => ¬ op.Lossy h.runtime)
        (.start branches mode source experimentId runId packetSizeBytes) ops := by
  classical
  have hstart : RuntimeInv (History.start branches mode source experimentId runId
      packetSizeBytes : History F).runtime :=
    fromBranches_inv branches mode source experimentId runId packetSizeBytes
  have hstep : ∀ (h : History F) (op : Op F), RuntimeInv h.runtime →
      RuntimeInv (h.perform uuid4 op).runtime := fun h op inv =>
    History.run_invariant_of_moves uuid4 (fun h => RuntimeInv h.runtime)
      (fun h m => History.move_inv uuid4 m) inv [op]
  have hrun := Run.run_balance (fun h : History F => RuntimeInv h.runtime)
    (fun h => deficit h.runtime) hstep (fun h op inv => deficit_perform uuid4 inv op)
    hstart ops
  rw [deficit_start, zero_add] at hrun
  rw [conserved_iff_deficit, ← Run.countSteps_eq_zero_iff]
  omega

/-- A relay is on its way when its route is replaced: two packets were drawn, one is left. -/
theorem replaced_packet_unaccounted :
    ¬ ∀ (branches : List (List ℤ)) (mode source experimentId runId : String)
        (packetSizeBytes : ℤ) (ops : List (Op ℚ)),
      Conserved (Run.run (History.perform .unary)
        (.start branches mode source experimentId runId packetSizeBytes) ops).runtime := by
  intro hall
  have h := hall [[1]] "parallel" "station" "" "" 512
    [.ensurePackets, .replaceRoute "branch_0" ["station", "drone_2"]]
  revert h
  decide

end Netlab.Packet
