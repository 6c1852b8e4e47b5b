import Netlab.Revisions.Commit

/-!
# When a revision is reported in sync

`mark_participant` writes the verdict `IN_SYNC` into the record as soon as `isaac` acknowledges,
whoever else is still pending, and keeps it when a participant of an in-sync record reports a state
that is neither `ACKNOWLEDGED` nor `FAILED`. `status` overrides the stored verdict only when every
required participant has acknowledged, so it reports such a record as in sync. As long as no mark is
of this kind, a record that stores the verdict has all of its acknowledgements.
-/

namespace Netlab.Revisions

variable {F : Type}

/-- A mark that leaves `IN_SYNC` in a record that lacks an acknowledgement. -/
def Op.premature (store : Store F) : Op F → Bool
  | .mark revisionId participant entry =>
      participant ∈ requiredParticipants &&
        (store.read revisionId).any fun record =>
          ((entry.state = .acknowledged && participant = "isaac") ||
            (entry.state ≠ .acknowledged && entry.state ≠ .failed && record.state = .inSync)) &&
          !(record.withParticipant participant entry).allRequiredAcknowledged
  | _ => false

/-- A record that stores the verdict `IN_SYNC` has all of its acknowledgements. -/
def Record.Settled (record : Record F) : Prop :=
  record.state = .inSync → record.allRequiredAcknowledged = true

/-- Every record on disk is settled. -/
structure Store.Settled (store : Store F) : Prop where
  records : ∀ id record, store.records.get? id = some record → record.Settled
  desired : ∀ record, store.desired = some record → record.Settled
  committed : ∀ record, store.committed = some record → record.Settled

/-- The state of a record after a mark. -/
theorem Record.marked_state (record : Record F) (participant : String) (entry : Participant F) :
    (record.marked participant entry).state =
      if entry.state = .acknowledged then stateAfterAck participant
      else if entry.state = .failed then .failed
      else record.state := by
  cases hstate : entry.state <;> simp [marked, hstate, withParticipant]

/-- The acknowledgements of a record after a mark are those with the new report entered. -/
theorem Record.marked_allRequiredAcknowledged (record : Record F) (participant : String)
    (entry : Participant F) :
    (record.marked participant entry).allRequiredAcknowledged =
      (record.withParticipant participant entry).allRequiredAcknowledged := by
  cases hstate : entry.state <;> simp only [marked, hstate] <;> rfl

/-- A mark that is not premature leaves a settled record. -/
private theorem settled_marked {store : Store F} {revisionId participant : String}
    {entry : Participant F} {record : Record F} (known : participant ∈ requiredParticipants)
    (read : store.read revisionId = some record)
    (htimely : (Op.mark revisionId participant entry).premature store = false) :
    (record.marked participant entry).Settled := by
  intro hstate
  rw [Record.marked_allRequiredAcknowledged]
  by_contra hack
  have hnot : ¬ ((entry.state = .acknowledged ∧ participant = "isaac") ∨
      (entry.state ≠ .acknowledged ∧ entry.state ≠ .failed ∧ record.state = .inSync)) := by
    have hcond : (entry.state = .acknowledged → participant ≠ "isaac") ∧
        (entry.state ≠ .acknowledged → entry.state ≠ .failed → record.state ≠ .inSync) := by
      simpa [Op.premature, known, read, hack] using htimely
    rintro (⟨hentry, hisaac⟩ | ⟨hentry, hfailed, hin⟩)
    · exact hcond.1 hentry hisaac
    · exact hcond.2 hentry hfailed hin
  refine hnot ?_
  rw [Record.marked_state] at hstate
  split at hstate
  · rename_i hentry
    -- of the three participants only the last one leads to the verdict
    simp only [requiredParticipants, List.mem_cons, List.not_mem_nil, or_false] at known
    rcases known with rfl | rfl | rfl
    · exact absurd hstate (by decide)
    · exact absurd hstate (by decide)
    · exact Or.inl ⟨hentry, rfl⟩
  · rename_i hentry
    split at hstate
    · cases hstate
    · rename_i hfailed
      exact Or.inr ⟨hentry, hfailed, hstate⟩

/-- Writing a settled record keeps the store settled. -/
private theorem Store.Settled.write {store : Store F} (h : store.Settled) {record : Record F}
    (hrecord : record.Settled) : (store.write record).Settled where
  records := by
    intro id r hr
    rw [Store.write, Dict.get?_set] at hr
    split at hr
    · obtain rfl := Option.some.inj hr
      exact hrecord
    · exact h.records id r hr
  desired := h.desired
  committed := h.committed

/-- `create` writes a settled record. -/
private theorem Store.Settled.create {uuid4 : IdSupply} {sha256Value : Json F → Option String}
    {store store' : Store F} (h : store.Settled) {candidate : Json F} {required : List String}
    {record : Record F}
    (hcreate : store.create uuid4 sha256Value candidate required = some (record, store')) :
    store'.Settled := by
  obtain ⟨hstate, _, hrecords, hdesired, hcommitted⟩ := Store.create_spec hcreate
  have hrecord : record.Settled := fun hin => by rw [hstate] at hin; cases hin
  refine ⟨fun id r hr => ?_, fun r hr => ?_, fun r hr => h.committed r (hcommitted ▸ hr)⟩
  · rw [hrecords] at hr
    exact (h.write hrecord).records id r hr
  · rw [hdesired] at hr
    obtain rfl := Option.some.inj hr
    exact hrecord

/-- A call that is not a premature mark keeps the store settled. -/
theorem Store.Settled.perform {uuid4 : IdSupply} {sha256Value : Json F → Option String}
    {store : Store F} {op : Op F} (h : store.Settled) (htimely : op.premature store = false) :
    (store.perform uuid4 sha256Value op).Settled := by
  have hperformed := store.performed uuid4 sha256Value op
  generalize store.perform uuid4 sha256Value op = store' at hperformed ⊢
  cases hperformed with
  | unchanged => exact h
  | ackFile file content => exact ⟨h.records, h.desired, h.committed⟩
  | created create => exact h.create create
  | marked known read => exact h.write (settled_marked known read htimely)
  | @committed revisionId record read ready =>
      have hrecord : Record.Settled { record with phase := .committed, state := .inSync } :=
        fun _ => ready
      have hwrite := h.write hrecord
      refine ⟨hwrite.records, fun r hr => ?_, fun r hr => ?_⟩
      · obtain rfl := Option.some.inj hr
        exact hrecord
      · obtain rfl := Option.some.inj hr
        exact hrecord
  | rolledBack read create => exact (h.create create).write fun hin => by cases hin

/-- The record that `status` reports on is one of those on disk. -/
theorem Store.Settled.statusRecord {store : Store F} (h : store.Settled)
    {revisionId : Option String} {record : Record F}
    (hrecord : store.statusRecord revisionId = some (some record)) : record.Settled := by
  have hor : store.desired.or store.committed = some record → record.Settled := by
    intro hr
    rcases Option.or_eq_some_iff.mp hr with hdesired | ⟨_, hcommitted⟩
    · exact h.desired record hdesired
    · exact h.committed record hcommitted
  unfold Store.statusRecord at hrecord
  split at hrecord
  · split at hrecord
    · exact hor (Option.some.inj hrecord)
    · obtain ⟨r, hr, heq⟩ := Option.map_eq_some_iff.mp hrecord
      obtain rfl := Option.some.inj heq
      exact h.records _ r hr
  · exact hor (Option.some.inj hrecord)

/-- A settled record is reported in sync only when it is committed and nothing is pending. -/
theorem Record.Settled.of_reportedState {record : Record F} (h : record.Settled)
    {drift : List (String × AckDrift)} (hstate : record.reportedState drift = .inSync) :
    record.phase = .committed ∧ record.pending = [] := by
  unfold reportedState at hstate
  split at hstate
  · cases hstate
  · split at hstate
    · rename_i hready
      split at hstate
      · rename_i hphase
        exact ⟨hphase, hready.1⟩
      · cases hstate
    · rename_i hnot
      have hack := h hstate
      exact absurd ⟨record.pending_eq_nil hack, hack⟩ hnot

/-- What `status` reports as in sync comes from a record whose derived state is `IN_SYNC`. -/
theorem Store.status_inSync [PyText F] {store : Store F} {revisionId : Option String}
    {report : Status F} (h : store.status revisionId = some report)
    (hin : report.inSync = true) :
    ∃ record drift, store.statusRecord revisionId = some (some record) ∧
      record.reportedState drift = .inSync ∧ report.phase = some record.phase ∧
      report.pendingParticipants = record.pending := by
  rw [Store.status, Option.bind_eq_bind, Option.bind_eq_some_iff] at h
  obtain ⟨record?, hrecord, h⟩ := h
  cases record? with
  | none =>
      obtain rfl := Option.some.inj h
      cases hin
  | some record =>
      simp only [Option.bind_eq_bind, Option.bind_eq_some_iff, pure, Option.some.injEq] at h
      obtain ⟨drift, _, rfl⟩ := h
      exact ⟨record, drift, hrecord, by simpa using hin, rfl, rfl⟩

/-- In a run from the empty store in which no mark leaves `IN_SYNC` in a record that lacks an
acknowledgement, whatever `status` reports as in sync is committed, and none of its participants is
pending. -/
theorem inSync_committed [PyText F] (uuid4 : IdSupply) (sha256Value : Json F → Option String)
    (ops : List (Op F))
    (htimely : Run.AllSteps (Store.perform uuid4 sha256Value)
      (fun store op => op.premature store = false) .empty ops)
    (revisionId : Option String) (report : Status F)
    (hreport : (Run.run (Store.perform uuid4 sha256Value) .empty ops).status revisionId =
      some report)
    (hin : report.inSync = true) :
    report.phase = some .committed ∧ report.pendingParticipants = [] := by
  have hempty : (Store.empty : Store F).Settled :=
    { records := fun _ _ h => by simp [Store.empty] at h
      desired := fun _ h => by cases h
      committed := fun _ h => by cases h }
  have hsettled := Run.run_invariant_of_allSteps Store.Settled
    (fun _ _ h htimely => h.perform htimely) hempty htimely
  obtain ⟨record, drift, hrecord, hstate, hphase, hpending⟩ := Store.status_inSync hreport hin
  obtain ⟨hcommitted, hnil⟩ := (hsettled.statusRecord hrecord).of_reportedState hstate
  exact ⟨hphase.trans (congrArg some hcommitted), hpending.trans hnil⟩

/-- An acknowledgement of the revision `"x"` of the empty configuration, where every digest is
`"h"`. -/
def fullAck : Participant ℚ :=
  { state := .acknowledged
    observedRevision := "x"
    observedHashes := .ofList <| ["config_hash", "topology_hash", "swarm_hash", "antennas_hash",
      "world_hash", "traffic_hash", "failure_hash", "antenna_hash"].map fun name =>
        (name, .str "h")
    message := "" }

/-- The three participants acknowledge in order, and the revision is committed. -/
def commitRun : List (Op ℚ) :=
  [.create (.obj []) requiredParticipants, .mark "x" "ros" fullAck, .mark "x" "sionna" fullAck,
    .mark "x" "isaac" fullAck, .commit "x"]

/-- A revision that all participants acknowledged is reported in sync once it is committed. -/
theorem inSync_committed_commitRun :
    ∃ report : Status ℚ,
      (Run.run (Store.perform .unary fun _ => some "h") .empty commitRun).status (some "x") =
        some report ∧
      report.inSync = true ∧ report.phase = some .committed ∧
        report.pendingParticipants = [] := by
  refine ⟨_, rfl, by decide, ?_⟩
  exact inSync_committed .unary (fun _ => some "h") commitRun (by decide) (some "x") _ rfl
    (by decide)

/-- `isaac` alone acknowledges: the revision is reported in sync, with `ros` and `sionna`
pending. -/
theorem inSync_isaac_alone :
    ¬ ∀ (ops : List (Op ℚ)) (revisionId : Option String) (report : Status ℚ),
      (Run.run (Store.perform .unary fun _ => some "h") .empty ops).status revisionId =
          some report →
        report.inSync = true →
          report.phase = some .committed ∧ report.pendingParticipants = [] := by
  intro hall
  have h := hall [.create (.obj []) requiredParticipants, .mark "x" "isaac" fullAck] (some "x")
    _ rfl (by decide)
  revert h
  decide

end Netlab.Revisions
