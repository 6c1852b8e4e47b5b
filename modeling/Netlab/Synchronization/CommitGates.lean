import Netlab.Revisions.Commit
import Netlab.Synchronization.Runs

/-!
# The two commit gates

`RevisionManager.commit` asks every participant for an acknowledgement of the revision with all of
its hashes. `RevisionStore.commit`, behind the coordinator, only compares the hashes that an
acknowledgement mentions. The gates agree on a call unless every participant accepts and the hashes
that some of them leave out are the only ones at fault.
-/

namespace Netlab.Coordination

variable {F : Type}

/-- The record of a revision, as far as the check of the revision manager reads it. -/
def Revision.toRecord (r : Revision F) : Revisions.Record F where
  revisionId := r.revisionId
  parentRevisionId := r.parentRevisionId
  phase := .draftSaved
  state := .pendingRos
  hashes := r.hashes
  candidate := r.candidate
  requiredParticipants := []
  participants := .empty

/-- A value is found equal exactly when the mapping has the key with that value. -/
theorem find?_eq_equal_iff (value : Json F) (key expected : String) :
    value.find? key expected = some .equal ↔
      (value.dict?.getD .empty).get? key = some (.str expected) := by
  cases value with
  | obj members =>
      simp only [Json.find?, Json.dict?, Option.getD_some]
      cases hget : (Dict.ofList members).get? key with
      | none => simp
      | some item =>
          by_cases hitem : item.isStr expected = true
          · simp [Json.isStr_iff.mp hitem]
          · simp [hitem, mt Json.isStr_iff.mpr hitem]
  | arr items => simp [Json.find?, Json.dict?]
  | str s => simp [Json.find?, Json.dict?]
  | null => simp [Json.find?, Json.dict?]
  | bool b => simp [Json.find?, Json.dict?]
  | int n => simp [Json.find?, Json.dict?]
  | float x => simp [Json.find?, Json.dict?]

variable [PyText F]

/-- The entry that the revision manager would make of an acknowledgement. -/
def ParticipantAck.toEntry (ack : ParticipantAck F) : Revisions.Participant F where
  state := if ack.accepted then .acknowledged else .failed
  observedRevision := ack.revisionId
  observedHashes := (RevisionStore.observedHashes ack).dict?.getD .empty
  message := ack.message

/-- What the revision manager demands of a participant: that it accepted this revision and reports
every hash with the value expected. -/
theorem matches_toEntry_iff (r : Revision F) (ack : ParticipantAck F) :
    r.toRecord.Matches ack.toEntry = true ↔
      ack.accepted = true ∧ ack.revisionId = r.revisionId ∧ ack.Complete r.hashes := by
  have hstate : ack.toEntry.state = .acknowledged ↔ ack.accepted = true := by
    cases h : ack.accepted <;> simp [ParticipantAck.toEntry, h]
  have hhashes : (∀ key value, r.hashes.get? key = some value →
      ack.toEntry.observedHashes.get? key = some (.str value)) ↔ ack.Complete r.hashes := by
    simp [ParticipantAck.Complete, ParticipantAck.toEntry, find?_eq_equal_iff,
      Dict.get?_eq_some_iff]
  rw [Revisions.Record.matches_iff]
  constructor
  · intro h
    exact ⟨hstate.mp h.state, h.revision, hhashes.mp h.hashes⟩
  · rintro ⟨haccepted, hid, hcomplete⟩
    exact ⟨hstate.mpr haccepted, hid, hhashes.mpr hcomplete⟩

/-- Every acknowledgement of a call reports every hash. -/
def Call.Complete (call : Call F) (hashes : Dict String String) : Prop :=
  ∀ participant ∈ call.participants, ∀ ack, participant.answer = some ack → ack.Complete hashes

/-- A call makes a revision current only when each participant meets what the revision manager
demands of it. -/
def GatesAgree (uuid4 : IdSupply) (sha256Value : Json F → Option String) (c : Coordinator F)
    (call : Call F) : Prop :=
  let c' := c.perform uuid4 sha256Value call
  ∀ r, c'.store.current = some r → c'.store.current ≠ c.store.current →
    ∀ participant ∈ call.participants, ∃ ack, participant.answer = some ack ∧
      r.toRecord.Matches ack.toEntry = true

/-- After any calls, the next one makes a revision current only on acknowledgements that pass the
revision manager's check, exactly when it is not the case that every participant accepts and reports
no wrong hash, while one of them leaves out a hash. -/
theorem gatesAgree_iff (uuid4 : IdSupply) (sha256Value : Json F → Option String)
    (calls : List (Call F)) (call : Call F)
    (hnames : (call.participants.map Participant.name).Nodup) :
    let c := Run.run (Coordinator.perform uuid4 sha256Value) .empty calls
    GatesAgree uuid4 sha256Value c call ↔
      ∀ hashes, Hashing.componentHashes sha256Value call.candidate = some hashes →
        call.AllAccept (uuid4.id c.store.draws) → call.Undisputed hashes →
          call.Complete hashes := by
  intro c
  have hdrawn : c.store.Drawn uuid4 := drawn_run calls
  cases hcandidate : Hashing.componentHashes sha256Value call.candidate with
  -- a candidate that cannot be hashed is not started, so no revision is committed
  | none =>
      have hstart : c.start uuid4 sha256Value call = none := by
        simp [Coordinator.start, RevisionStore.create, hcandidate]
      have hsame : c.perform uuid4 sha256Value call = c := by
        simp only [Coordinator.perform, Coordinator.apply, hstart]
      refine ⟨fun _ hashes hsome => ?_, fun _ r _ hne => ?_⟩
      · cases hsome
      · rw [hsame] at hne
        exact absurd rfl hne
  | some hashes =>
      -- all accepted and undisputed, all accepted and disputed, and a participant that refused
      rcases c.apply_spec uuid4 hcandidate hnames with
        ⟨hall, ⟨hundisputed, hcommitted⟩ | ⟨hdisputed, haborted, -⟩⟩ |
        ⟨pre, participant, post, hsplit, -, hnot, haborted, -, -⟩
      · obtain ⟨r, hr, hrid, hrhashes⟩ := hcommitted.current
        have hne := (hcommitted.spec hdrawn).1
        constructor
        · intro hagree hashes' hsome _ _ participant hmem ack hack
          obtain rfl := Option.some.inj hsome
          obtain ⟨own, hown, hmatches⟩ := hagree r hr hne participant hmem
          obtain rfl := Option.some.inj (hown.symm.trans hack)
          have hcomplete := ((matches_toEntry_iff r own).mp hmatches).2.2
          rwa [hrhashes] at hcomplete
        · intro hcomplete r' hr' _ participant hmem
          obtain rfl := Option.some.inj (hr.symm.trans hr')
          obtain ⟨ack, hanswer, haccepted⟩ := hall participant hmem
          refine ⟨ack, hanswer.1, (matches_toEntry_iff r ack).mpr ⟨haccepted, ?_, ?_⟩⟩
          · rw [hanswer.2.1, hrid]
          · rw [hrhashes]
            exact hcomplete hashes rfl hall hundisputed participant hmem ack hanswer.1
      · refine ⟨fun _ hashes' hsome _ hundisputed => ?_, fun _ r _ hne => ?_⟩
        · obtain rfl := Option.some.inj hsome
          exact absurd hundisputed hdisputed
        · exact absurd haborted.current hne
      · refine ⟨fun _ _ _ hall _ => ?_, fun _ r _ hne => ?_⟩
        · exact absurd (hall participant (by simp [hsplit])) hnot
        · exact absurd haborted.current hne

/-- `ros` accepts the first revision without reporting a single hash. -/
def silentRos : Call ℚ where
  candidate := .obj []
  command := { commandId := "" }
  participants := [immediateParticipant "x" .empty "ros" true]

/-- On a call in which a participant refuses, the gates agree. -/
theorem gatesAgree_isaacRefuses :
    GatesAgree .unary (fun _ => some "h") .empty isaacRefuses := by
  refine (gatesAgree_iff .unary (fun _ => some "h") [] isaacRefuses (by decide)).mpr ?_
  intro hashes _ hall
  obtain ⟨ack, ⟨hack, -⟩, haccepted⟩ :=
    hall (immediateParticipant "x" .empty "isaac" false) (by simp [isaacRefuses])
  obtain rfl := Option.some.inj hack
  cases haccepted

/-- A revision becomes current on an acknowledgement that reports none of its hashes. -/
theorem gates_disagree_silentRos :
    ¬ ∀ (calls : List (Call ℚ)) (call : Call ℚ), (call.participants.map Participant.name).Nodup →
      GatesAgree .unary (fun _ => some "h")
        (Run.run (Coordinator.perform .unary fun _ => some "h") .empty calls) call := by
  intro hall
  obtain ⟨ack, hack, hmatches⟩ := hall [] silentRos (by decide) _ rfl (Option.some_ne_none _)
    (immediateParticipant "x" .empty "ros" true) (by simp [silentRos])
  obtain rfl := Option.some.inj hack
  revert hmatches
  decide

end Netlab.Coordination
