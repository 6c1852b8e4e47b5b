import Netlab.Prelude.Traverse
import Netlab.Synchronization.Coordinator

/-!
# What a call of the coordinator does

The loop over the participants goes through when each of them accepts, and otherwise ends at the
first one that does not (`contact_spec`). The store then commits unless a reported hash differs
(`commit_of_undisputed`, `commit_of_disputed`). A hash that a participant does not report is not
looked at.
-/

namespace Netlab.Coordination

variable {F : Type}

/-! ## Answers -/

/-- A participant answers under its own name and for the revision `rid`. -/
def Participant.Answers (rid : String) (participant : Participant F) (ack : ParticipantAck F) :
    Prop :=
  participant.answer = some ack ∧ ack.revisionId = rid ∧ ack.participant = participant.name

/-- A participant accepts the revision `rid`. -/
def Participant.Accepts (rid : String) (participant : Participant F) : Prop :=
  ∃ ack, participant.Answers rid ack ∧ ack.accepted = true

section

variable [PyText F]

/-- No hash that an acknowledgement reports differs from the one expected, and all can be looked
up. -/
def ParticipantAck.Undisputed (hashes : Dict String String) (ack : ParticipantAck F) : Prop :=
  ∀ e ∈ hashes.entries,
    (RevisionStore.observedHashes ack).find? e.1 e.2 = some .missing ∨
      (RevisionStore.observedHashes ack).find? e.1 e.2 = some .equal

/-- An acknowledgement reports every hash, with the value expected. -/
def ParticipantAck.Complete (hashes : Dict String String) (ack : ParticipantAck F) : Prop :=
  ∀ e ∈ hashes.entries, (RevisionStore.observedHashes ack).find? e.1 e.2 = some .equal

theorem ParticipantAck.Complete.undisputed {hashes : Dict String String} {ack : ParticipantAck F}
    (h : ack.Complete hashes) : ack.Undisputed hashes :=
  fun e he => Or.inr (h e he)

/-- The observed hashes of an acknowledgement can be looked up. -/
def ParticipantAck.Searchable (hashes : Dict String String) (ack : ParticipantAck F) : Prop :=
  ∀ e ∈ hashes.entries, ∃ found, (RevisionStore.observedHashes ack).find? e.1 e.2 = some found

end

/-! ## What the steps of a call leave alone -/

/-- The revision keeps its identity and the store its current and its desired revision. -/
structure Progress.Frame (p p' : Progress F) : Prop where
  revisionId : p'.revision.revisionId = p.revision.revisionId
  hashes : p'.revision.hashes = p.revision.hashes
  current : p'.coordinator.store.current = p.coordinator.store.current
  desired : p'.coordinator.store.desired = p.coordinator.store.desired
  draws : p'.coordinator.store.draws = p.coordinator.store.draws

theorem Progress.Frame.refl (p : Progress F) : p.Frame p := ⟨rfl, rfl, rfl, rfl, rfl⟩

theorem Progress.Frame.trans {p p' p'' : Progress F} (h : p.Frame p') (h' : p'.Frame p'') :
    p.Frame p'' :=
  ⟨h'.revisionId.trans h.revisionId, h'.hashes.trans h.hashes, h'.current.trans h.current,
    h'.desired.trans h.desired, h'.draws.trans h.draws⟩

/-- Saving a revision that keeps its identity. -/
theorem Progress.frame_saveRevision {p : Progress F} {revision : Revision F}
    (hid : revision.revisionId = p.revision.revisionId)
    (hhashes : revision.hashes = p.revision.hashes) : p.Frame (p.saveRevision revision) :=
  ⟨hid, hhashes, rfl, rfl, rfl⟩

/-! ## The loop over the participants -/

/-- The acknowledgements on file when every participant answered. -/
def acksAfter (acks : Dict String (ParticipantAck F)) (participants : List (Participant F)) :
    Dict String (ParticipantAck F) :=
  participants.foldl (fun acks participant =>
    match participant.answer with
    | some ack => acks.set ack.participant ack
    | none => acks) acks

theorem acksAfter_cons {rid : String} {participant : Participant F} {ack : ParticipantAck F}
    (acks : Dict String (ParticipantAck F)) (rest : List (Participant F))
    (h : participant.Answers rid ack) :
    acksAfter acks (participant :: rest) = acksAfter (acks.set participant.name ack) rest := by
  obtain ⟨hack, -, hname⟩ := h
  simp [acksAfter, hack, hname]

/-- The state after the acknowledgement of a participant was filed and taken over. -/
def Progress.answered (p : Progress F) (name : String) (ack : ParticipantAck F) : Progress F :=
  let p := (p.announce name).acknowledge ack
  { p with
    command := { p.command with acknowledgements := p.command.acknowledgements.set name ack } }

/-- The state after a participant accepted. -/
def Progress.accepted (p : Progress F) (name : String) (ack : ParticipantAck F) : Progress F :=
  (p.answered name ack).saveRevision
    { (p.answered name ack).revision with status := appliedStatus name }

/-- The acknowledgement of a participant that answers under its own name is taken over. -/
theorem Progress.takeOver_acknowledge (p : Progress F) {name : String} {ack : ParticipantAck F}
    (hname : ack.participant = name) :
    ((p.announce name).acknowledge ack).takeOver name = some (p.answered name ack) := by
  simp [takeOver, answered, acknowledge, saveRevision, hname]

/-- The turn of a participant that accepts. -/
theorem Progress.contact_cons_accepts {p : Progress F} {participant : Participant F}
    {ack : ParticipantAck F} (rest : List (Participant F))
    (hanswer : participant.Answers p.revision.revisionId ack) (haccepted : ack.accepted = true) :
    p.contact (participant :: rest) = (p.accepted participant.name ack).contact rest := by
  obtain ⟨hack, hid, hname⟩ := hanswer
  have hid' : ack.revisionId = (p.announce participant.name).revision.revisionId := hid
  simp only [contact, hack, hid', ne_eq, not_true_eq_false, ↓reduceIte, takeOver_acknowledge _ hname,
    haccepted, Bool.not_true, Bool.false_eq_true]
  rfl

/-- How the loop ends at a participant that does not accept. -/
structure Progress.Stopped (p p' : Progress F) (participant : Participant F) (ending : Ending) :
    Prop where
  frame : p.Frame p'
  contacted : p'.contacted = p.contacted ++ [participant.name]
  notCommitted : ending ≠ .committed
  notCompleted : p'.command.status ≠ .completed
  rejected : ∀ ack, participant.Answers p.revision.revisionId ack → ending = .rejected ∧
    ∃ report, p'.coordinator.status = some report ∧ report.status = .degraded

/-- The turn of a participant that does not accept. -/
theorem Progress.contact_cons_stops {p : Progress F} {participant : Participant F}
    (rest : List (Participant F)) (hnot : ¬ participant.Accepts p.revision.revisionId)
    (hfresh : p.revision.acknowledgements.get? participant.name = none) :
    ∃ p' ending, p.contact (participant :: rest) = (p', some ending) ∧
      p.Stopped p' participant ending := by
  cases hack : participant.answer with
  | none =>
      refine ⟨p.announce participant.name, .raised, by simp only [contact, hack], ?_⟩
      refine ⟨⟨rfl, rfl, rfl, rfl, rfl⟩, rfl, by simp, by simp [announce, report], ?_⟩
      rintro ack ⟨hanswer, -, -⟩
      simp [hack] at hanswer
  | some ack =>
      by_cases hid : ack.revisionId = (p.announce participant.name).revision.revisionId
      · by_cases hname : ack.participant = participant.name
        · -- the participant answered, so it did not accept
          have hrejects : ack.accepted = false := by
            by_contra haccepted
            exact hnot ⟨ack, ⟨hack, hid, hname⟩, by simpa using haccepted⟩
          refine ⟨(p.answered participant.name ack).reject participant.name ack.message, .rejected,
            ?_, ?_⟩
          · simp only [contact, hack, hid, ne_eq, not_true_eq_false, ↓reduceIte,
              takeOver_acknowledge _ hname, hrejects, Bool.not_false]
          · refine ⟨⟨rfl, rfl, rfl, rfl, rfl⟩, rfl, by simp, by simp [reject, report], ?_⟩
            exact fun _ _ => ⟨rfl, _, rfl, rfl⟩
        · have hmissing : ((p.announce participant.name).acknowledge ack).takeOver
              participant.name = none := by
            have hget : ((p.announce participant.name).acknowledge ack).revision.acknowledgements.get?
                participant.name = none := by
              rw [acknowledge, saveRevision, Dict.get?_set_of_ne _ _ (Ne.symm hname)]
              exact hfresh
            rw [takeOver, hget]
            rfl
          refine ⟨(p.announce participant.name).acknowledge ack, .raised, by simp only [contact,
            hack, hid, ne_eq, not_true_eq_false, ↓reduceIte, hmissing], ?_⟩
          refine ⟨⟨rfl, rfl, rfl, rfl, rfl⟩, rfl, by simp, by simp [announce, acknowledge,
            saveRevision, report], ?_⟩
          rintro ack' ⟨hanswer, -, hname'⟩
          obtain rfl := Option.some.inj (hack.symm.trans hanswer)
          exact absurd hname' hname
      · refine ⟨p.announce participant.name, .raised, by simp only [contact, hack, ne_eq, hid,
          not_false_eq_true, ↓reduceIte], ?_⟩
        refine ⟨⟨rfl, rfl, rfl, rfl, rfl⟩, rfl, by simp, by simp [announce, report], ?_⟩
        rintro ack' ⟨hanswer, hid', -⟩
        obtain rfl := Option.some.inj (hack.symm.trans hanswer)
        exact absurd hid' hid

/-- The loop over the participants goes through when every one of them accepts, and otherwise ends at
the first one that does not. -/
theorem Progress.contact_spec (participants : List (Participant F)) :
    ∀ p : Progress F, (participants.map Participant.name).Nodup →
      (∀ participant ∈ participants,
        p.revision.acknowledgements.get? participant.name = none) →
      (∀ participant ∈ participants, participant.Accepts p.revision.revisionId) ∧
          (∃ p', p.contact participants = (p', none) ∧ p.Frame p' ∧
            p'.contacted = p.contacted ++ participants.map Participant.name ∧
            p'.revision.acknowledgements = acksAfter p.revision.acknowledgements participants ∧
            (p.command.status ≠ .completed → p'.command.status ≠ .completed)) ∨
        ∃ pre participant post p₁ p' ending, participants = pre ++ participant :: post ∧
          (∀ earlier ∈ pre, earlier.Accepts p.revision.revisionId) ∧
          ¬ participant.Accepts p.revision.revisionId ∧
          p.contact participants = (p', some ending) ∧ p.Frame p₁ ∧
          p₁.contacted = p.contacted ++ pre.map Participant.name ∧
          p₁.Stopped p' participant ending := by
  induction participants with
  | nil =>
      intro p _ _
      refine Or.inl ⟨by simp, p, rfl, .refl p, by simp, rfl, id⟩
  | cons participant rest ih =>
      intro p hnames hfresh
      rw [List.map_cons, List.nodup_cons] at hnames
      by_cases haccepts : participant.Accepts p.revision.revisionId
      · obtain ⟨ack, hanswer, haccepted⟩ := haccepts
        have hframe : p.Frame (p.accepted participant.name ack) := ⟨rfl, rfl, rfl, rfl, rfl⟩
        have hacks : (p.accepted participant.name ack).revision.acknowledgements =
            p.revision.acknowledgements.set participant.name ack := by
          rw [← hanswer.2.2]
          rfl
        have hstep := contact_cons_accepts rest hanswer haccepted
        -- the names are distinct, so this acknowledgement is not one of those still awaited
        have hrest : ∀ other ∈ rest, (p.accepted participant.name
            ack).revision.acknowledgements.get? other.name = none := by
          intro other hother
          have hne : other.name ≠ participant.name := fun heq =>
            hnames.1 (heq ▸ List.mem_map_of_mem hother)
          rw [hacks, Dict.get?_set_of_ne _ _ hne]
          exact hfresh other (List.mem_cons_of_mem _ hother)
        rcases ih (p.accepted participant.name ack) hnames.2 hrest with
          ⟨hall, p', hcontact, hframe', hcontacted, hacks', hcommand⟩ |
          ⟨pre, other, post, p₁, p', ending, hsplit, hpre, hnot, hcontact, hframe', hcontacted,
            hstopped⟩
        · refine Or.inl ⟨?_, p', hstep.trans hcontact, hframe.trans hframe', ?_, ?_, ?_⟩
          · intro q hq
            rcases List.mem_cons.mp hq with rfl | hq
            · exact ⟨ack, hanswer, haccepted⟩
            · exact hall q hq
          · rw [hcontacted]
            simp [accepted, answered, announce, acknowledge, saveRevision, report]
          · rw [hacks', hacks, acksAfter_cons _ _ hanswer]
          · exact fun _ => hcommand (by simp [accepted, answered, announce, acknowledge,
              saveRevision, report])
        · refine Or.inr ⟨participant :: pre, other, post, p₁, p', ending, by rw [hsplit]; rfl, ?_,
            hnot, hstep.trans hcontact, hframe.trans hframe', ?_, hstopped⟩
          · intro q hq
            rcases List.mem_cons.mp hq with rfl | hq
            · exact ⟨ack, hanswer, haccepted⟩
            · exact hpre q hq
          · rw [hcontacted]
            simp [accepted, answered, announce, acknowledge, saveRevision, report]
      · obtain ⟨p', ending, hcontact, hstopped⟩ :=
          contact_cons_stops rest haccepts (hfresh participant List.mem_cons_self)
        exact Or.inr ⟨[], participant, rest, p, p', ending, rfl, by simp, haccepts, hcontact,
          .refl p, by simp, hstopped⟩

/-- The acknowledgement of an accepting participant stays on file. -/
theorem acksAfter_get? {rid : String} {participants : List (Participant F)} :
    ∀ acks : Dict String (ParticipantAck F), (participants.map Participant.name).Nodup →
      (∀ participant ∈ participants, participant.Accepts rid) →
      ∀ participant ∈ participants, ∀ ack, participant.answer = some ack →
        (acksAfter acks participants).get? participant.name = some ack := by
  -- a name that is not among the participants keeps the answer that it had
  have hkeep : ∀ (participants : List (Participant F)) (acks : Dict String (ParticipantAck F))
      (name : String), name ∉ participants.map Participant.name →
      (∀ participant ∈ participants, participant.Accepts rid) →
      (acksAfter acks participants).get? name = acks.get? name := by
    intro participants
    induction participants with
    | nil => exact fun _ _ _ _ => rfl
    | cons participant rest ih =>
        intro acks name hname hall
        rw [List.map_cons, List.mem_cons, not_or] at hname
        obtain ⟨ack, hanswer, -⟩ := hall participant List.mem_cons_self
        rw [acksAfter_cons _ _ hanswer,
          ih _ name hname.2 fun q hq => hall q (List.mem_cons_of_mem _ hq),
          Dict.get?_set_of_ne _ _ hname.1]
  induction participants with
  | nil => simp
  | cons participant rest ih =>
      intro acks hnames hall q hq ack hack
      rw [List.map_cons, List.nodup_cons] at hnames
      have hrest : ∀ q ∈ rest, q.Accepts rid := fun q hq => hall q (List.mem_cons_of_mem _ hq)
      obtain ⟨own, hanswer, -⟩ := hall participant List.mem_cons_self
      rw [acksAfter_cons _ _ hanswer]
      rcases List.mem_cons.mp hq with rfl | hq
      · obtain rfl := Option.some.inj (hanswer.1.symm.trans hack)
        rw [hkeep rest _ _ hnames.1 hrest, Dict.get?_set_self]
      · exact ih _ hnames.2 hrest q hq ack hack

/-! ## The check of the store -/

namespace RevisionStore

variable [PyText F]

/-- The findings about an acknowledgement exist when its hashes can be looked up. -/
theorem hashFindings_isSome_iff {r : Revision F} {ack : ParticipantAck F} :
    (∃ findings, hashFindings r ack = some findings) ↔ ack.Searchable r.hashes := by
  rw [hashFindings, List.exists_mapM_eq_some_iff]
  simp [ParticipantAck.Searchable, Option.bind_eq_some_iff]

/-- No finding is a difference exactly when the acknowledgement is undisputed. -/
theorem hashFindings_undisputed_iff {r : Revision F} {ack : ParticipantAck F}
    {findings : List (String × Json.Found)} (h : hashFindings r ack = some findings) :
    ((findings.filter fun e => e.2 = .different).map Prod.fst) = [] ↔
      ack.Undisputed r.hashes := by
  -- every hash of the revision has a finding
  have hfound : ∀ e ∈ r.hashes.entries, ∃ found,
      (observedHashes ack).find? e.1 e.2 = some found ∧ (e.1, found) ∈ findings := by
    intro e he
    obtain ⟨found, hfound⟩ := hashFindings_isSome_iff.mp ⟨findings, h⟩ e he
    exact ⟨found, hfound, (List.mem_mapM_iff h).mpr ⟨e, he, by simp [hfound]⟩⟩
  rw [List.map_eq_nil_iff, List.filter_eq_nil_iff]
  constructor
  · intro hnone e he
    obtain ⟨found, hfind, hmem⟩ := hfound e he
    have hdifferent := hnone _ hmem
    cases found with
    | missing => exact Or.inl hfind
    | equal => exact Or.inr hfind
    | different => simp at hdifferent
  · intro hundisputed e he
    obtain ⟨entry, hentry, hfind⟩ := (List.mem_mapM_iff h).mp he
    simp only [bind, pure, Option.bind_eq_some_iff, Option.some.injEq] at hfind
    obtain ⟨found, hfind, rfl⟩ := hfind
    rcases hundisputed entry hentry with hmissing | hequal
    · simp [Option.some.inj (hfind.symm.trans hmissing)]
    · simp [Option.some.inj (hfind.symm.trans hequal)]

/-- The acknowledgements on file for `names` are acceptances. -/
def Accepted (r : Revision F) (names : List String) : Prop :=
  ∀ name ∈ names, ∃ ack, r.acknowledgements.get? name = some ack ∧ ack.accepted = true

/-- The check of a participant that accepted. -/
theorem checkParticipant_eq {r : Revision F} {name : String} {ack : ParticipantAck F}
    (hget : r.acknowledgements.get? name = some ack) (haccepted : ack.accepted = true) :
    checkParticipant r name = (hashFindings r ack).map fun findings =>
      (false, (findings.filter fun e => e.2 = .different).map Prod.fst) := by
  simp only [checkParticipant, hget, haccepted, Bool.not_true, Bool.false_eq_true, ↓reduceIte]
  cases hashFindings r ack <;> rfl

/-- The check of participants that accepted finds nobody missing, and no mismatch exactly when
their acknowledgements are undisputed. -/
theorem checkAll_of_accepted {r : Revision F} {names : List String} (h : Accepted r names)
    {missing : List String} {mismatch : List (String × String)}
    (hcheck : checkAll r names = some (missing, mismatch)) :
    missing = [] ∧ (mismatch = [] ↔ ∀ name ∈ names, ∀ ack,
      r.acknowledgements.get? name = some ack → ack.Undisputed r.hashes) := by
  induction names generalizing missing mismatch with
  | nil =>
      obtain ⟨rfl, rfl⟩ := Prod.mk.injEq .. ▸ Option.some.inj hcheck
      simp
  | cons name rest ih =>
      obtain ⟨ack, hget, haccepted⟩ := h name List.mem_cons_self
      simp only [checkAll, checkParticipant_eq hget haccepted, bind, pure,
        Option.bind_eq_some_iff, Option.map_eq_some_iff, Option.some.injEq, Prod.mk.injEq] at hcheck
      obtain ⟨_, ⟨findings, hfindings, rfl⟩, ⟨names, entries⟩, hrest, rfl, rfl⟩ := hcheck
      obtain ⟨rfl, hentries⟩ := ih (fun n hn => h n (List.mem_cons_of_mem _ hn)) hrest
      refine ⟨rfl, ?_⟩
      rw [List.append_eq_nil_iff, List.map_eq_nil_iff, hentries,
        hashFindings_undisputed_iff hfindings, List.forall_mem_cons]
      simp [hget]

/-- The check of participants that accepted ends when their hashes can be looked up. -/
theorem checkAll_isSome_iff {r : Revision F} {names : List String} (h : Accepted r names) :
    (∃ result, checkAll r names = some result) ↔ ∀ name ∈ names, ∀ ack,
      r.acknowledgements.get? name = some ack → ack.Searchable r.hashes := by
  induction names with
  | nil => simp [checkAll]
  | cons name rest ih =>
      obtain ⟨ack, hget, haccepted⟩ := h name List.mem_cons_self
      rw [List.forall_mem_cons, ← ih fun n hn => h n (List.mem_cons_of_mem _ hn)]
      simp only [checkAll, checkParticipant_eq hget haccepted, bind, pure,
        Option.bind_eq_some_iff, Option.map_eq_some_iff, hget, Option.some.injEq, forall_eq',
        ← hashFindings_isSome_iff]
      constructor
      · rintro ⟨_, _, ⟨findings, hfindings, rfl⟩, result, hresult, -⟩
        exact ⟨⟨findings, hfindings⟩, ⟨result, hresult⟩⟩
      · rintro ⟨⟨findings, hfindings⟩, ⟨result, hresult⟩⟩
        exact ⟨_, _, ⟨findings, hfindings, rfl⟩, result, hresult, rfl⟩

/-- The acknowledgements on file for `names` are undisputed. -/
def Undisputed (r : Revision F) (names : List String) : Prop :=
  ∀ name ∈ names, ∀ ack, r.acknowledgements.get? name = some ack → ack.Undisputed r.hashes

/-- The store commits a revision that all participants accepted without dispute. -/
theorem commit_of_undisputed (store : RevisionStore F) {r : Revision F} {names : List String}
    (haccepted : Accepted r names) (hundisputed : Undisputed r names) :
    store.commit r names = some (.ok ({ r with status := .committed },
      { store.save { r with status := .committed } with
        current := some { r with status := .committed } })) := by
  have hsearchable : ∀ name ∈ names, ∀ ack, r.acknowledgements.get? name = some ack →
      ack.Searchable r.hashes := by
    intro name hname ack hget e he
    rcases hundisputed name hname ack hget e he with hfound | hfound
    · exact ⟨_, hfound⟩
    · exact ⟨_, hfound⟩
  obtain ⟨⟨missing, mismatch⟩, hcheck⟩ := (checkAll_isSome_iff haccepted).mpr hsearchable
  obtain ⟨rfl, hmismatch⟩ := checkAll_of_accepted haccepted hcheck
  obtain rfl := hmismatch.mpr hundisputed
  simp [commit, hcheck]

/-- The store does not commit a revision with a disputed acknowledgement: it refuses, or raises on
hashes that cannot be looked up. -/
theorem commit_of_disputed (store : RevisionStore F) {r : Revision F} {names : List String}
    (haccepted : Accepted r names) (hdisputed : ¬ Undisputed r names) :
    (store.commit r names = none ∧ ¬ ∀ name ∈ names, ∀ ack,
        r.acknowledgements.get? name = some ack → ack.Searchable r.hashes) ∨
      ∃ refusal, store.commit r names = some (.error refusal) := by
  cases hcheck : checkAll r names with
  | none =>
      refine Or.inl ⟨by simp [commit, hcheck], fun hsearchable => ?_⟩
      obtain ⟨result, hresult⟩ := (checkAll_isSome_iff haccepted).mpr hsearchable
      rw [hcheck] at hresult
      cases hresult
  | some result =>
      obtain ⟨missing, mismatch⟩ := result
      obtain ⟨rfl, hmismatch⟩ := checkAll_of_accepted haccepted hcheck
      have hne : mismatch ≠ [] := fun hnil => hdisputed (hmismatch.mp hnil)
      exact Or.inr ⟨.mismatch mismatch, by simp [commit, hcheck, hne]⟩

end RevisionStore

/-! ## A whole call -/

/-- A call that made its revision current. -/
structure Committed (c : Coordinator F) (rid : String) (hashes : Dict String String)
    (result : Result F) : Prop where
  ending : result.ending = .committed
  current : ∃ r, result.coordinator.store.current = some r ∧ r.revisionId = rid ∧
    r.hashes = hashes
  desired : ∃ r, result.coordinator.store.desired = some r ∧ r.revisionId = rid
  draws : result.coordinator.store.draws = c.store.draws + 1
  completed : result.command.status = .completed

/-- A call that left the current revision alone. -/
structure Aborted (c : Coordinator F) (rid : String) (result : Result F) : Prop where
  ending : result.ending ≠ .committed
  current : result.coordinator.store.current = c.store.current
  desired : ∃ r, result.coordinator.store.desired = some r ∧ r.revisionId = rid
  draws : result.coordinator.store.draws = c.store.draws + 1
  notCompleted : result.command.status ≠ .completed

/-- The status file says that the revision is degraded or drifted. -/
def Coordinator.OutOfSync (c : Coordinator F) : Prop :=
  ∃ report, c.status = some report ∧
    (report.status = .degraded ∨ report.status = .driftDetected)

variable {uuid4 : IdSupply} {sha256Value : Json F → Option String}

variable (uuid4) in
/-- What a call starts with. -/
theorem Coordinator.start_spec {c : Coordinator F} {call : Call F} {hashes : Dict String String}
    (h : Hashing.componentHashes sha256Value call.candidate = some hashes) :
    ∃ p, c.start uuid4 sha256Value call = some p ∧
      p.revision.revisionId = uuid4.id c.store.draws ∧ p.revision.hashes = hashes ∧
      p.revision.acknowledgements = .empty ∧ p.contacted = [] ∧
      p.coordinator.store.current = c.store.current ∧
      (∃ r, p.coordinator.store.desired = some r ∧ r.revisionId = uuid4.id c.store.draws) ∧
      p.coordinator.store.draws = c.store.draws + 1 ∧ p.command.status ≠ .completed := by
  simp only [start, RevisionStore.create, h, bind, Option.bind_some, pure]
  exact ⟨_, rfl, rfl, rfl, rfl, rfl, rfl, ⟨_, rfl, rfl⟩, rfl,
    by simp [Progress.report, Progress.saveRevision]⟩

/-- Every participant of a call accepts the revision. -/
def Call.AllAccept (call : Call F) (rid : String) : Prop :=
  ∀ participant ∈ call.participants, participant.Accepts rid

/-- What the store reads after every participant accepted: the acknowledgement of each one. -/
theorem Call.acknowledgement_eq {call : Call F} {rid : String}
    (hnames : (call.participants.map Participant.name).Nodup) (hall : call.AllAccept rid)
    {r : Revision F} (hacks : r.acknowledgements = acksAfter .empty call.participants)
    {participant : Participant F} (hmem : participant ∈ call.participants) :
    r.acknowledgements.get? participant.name = participant.answer := by
  obtain ⟨ack, hanswer, -⟩ := hall participant hmem
  rw [hacks, hanswer.1]
  exact acksAfter_get? _ hnames hall participant hmem ack hanswer.1

section

variable [PyText F]

/-- The acknowledgements of a call are undisputed. -/
def Call.Undisputed (call : Call F) (hashes : Dict String String) : Prop :=
  ∀ participant ∈ call.participants, ∀ ack, participant.answer = some ack →
    ack.Undisputed hashes

/-- The end of a call in which every participant accepted. -/
theorem Call.conclude_spec {call : Call F} {rid : String} {hashes : Dict String String}
    (hnames : (call.participants.map Participant.name).Nodup) (hall : call.AllAccept rid)
    {p : Progress F} (hhashes : p.revision.hashes = hashes)
    (hacks : p.revision.acknowledgements = acksAfter .empty call.participants) :
    let names := call.participants.map Participant.name
    (call.Undisputed hashes ∧ ∃ p', p.conclude names = (p', .committed) ∧
        (∃ r, p'.coordinator.store.current = some r ∧ r.revisionId = p.revision.revisionId ∧
          r.hashes = hashes) ∧
        p'.coordinator.store.desired = p.coordinator.store.desired ∧
        p'.coordinator.store.draws = p.coordinator.store.draws ∧
        p'.contacted = p.contacted ∧ p'.command.status = .completed) ∨
      ¬ call.Undisputed hashes ∧ ∃ p' ending, p.conclude names = (p', ending) ∧ p.Frame p' ∧
        ending ≠ .committed ∧ p'.contacted = p.contacted ∧
        (p.command.status ≠ .completed → p'.command.status ≠ .completed) ∧
        ((∀ participant ∈ call.participants, ∀ ack, participant.answer = some ack →
          ack.Searchable hashes) → p'.coordinator.OutOfSync) := by
  intro names
  obtain ⟨r, hr⟩ : ∃ r, r = { p.revision with status := RevisionStatus.inSync } := ⟨_, rfl⟩
  have hread : ∀ participant ∈ call.participants,
      r.acknowledgements.get? participant.name = participant.answer := fun participant hmem =>
    Call.acknowledgement_eq hnames hall (hr ▸ hacks) hmem
  have hrhashes : r.hashes = hashes := by rw [hr, ← hhashes]
  -- the store reads the participants' answers
  have hnamesAll : ∀ P : ParticipantAck F → Prop,
      (∀ name ∈ names, ∀ ack, r.acknowledgements.get? name = some ack → P ack) ↔
        ∀ participant ∈ call.participants, ∀ ack, participant.answer = some ack → P ack := by
    intro P
    rw [List.forall_mem_map]
    constructor
    · intro h participant hmem ack hack
      exact h participant hmem ack ((hread participant hmem).trans hack)
    · intro h participant hmem ack hack
      exact h participant hmem ack ((hread participant hmem).symm.trans hack)
  have haccepted : RevisionStore.Accepted r names := by
    intro name hname
    obtain ⟨participant, hmem, rfl⟩ := List.mem_map.mp hname
    obtain ⟨ack, hanswer, haccept⟩ := hall participant hmem
    exact ⟨ack, (hread participant hmem).trans hanswer.1, haccept⟩
  have hundisputed : RevisionStore.Undisputed r names ↔ call.Undisputed hashes := by
    rw [RevisionStore.Undisputed, hnamesAll fun ack => ack.Undisputed r.hashes, hrhashes]
    rfl
  by_cases h : call.Undisputed hashes
  · refine Or.inl ⟨h, ?_⟩
    have hcommit := RevisionStore.commit_of_undisputed (p.coordinator.store.save r) haccepted
      (hundisputed.mpr h)
    subst hr
    simp only [Progress.conclude, Progress.saveRevision, hcommit]
    exact ⟨_, rfl, ⟨_, rfl, rfl, hhashes⟩, rfl, rfl, rfl, rfl⟩
  · refine Or.inr ⟨h, ?_⟩
    rcases RevisionStore.commit_of_disputed (p.coordinator.store.save r) haccepted
        (fun hr => h (hundisputed.mp hr)) with ⟨hraise, hunsearchable⟩ | ⟨refusal, hrefuse⟩
    · rw [hnamesAll fun ack => ack.Searchable r.hashes, hrhashes] at hunsearchable
      subst hr
      simp only [Progress.conclude, Progress.saveRevision, hraise]
      exact ⟨_, _, rfl, ⟨rfl, rfl, rfl, rfl, rfl⟩, by simp, rfl, id,
        fun hsearchable => absurd hsearchable hunsearchable⟩
    · subst hr
      simp only [Progress.conclude, Progress.saveRevision, hrefuse]
      exact ⟨_, _, rfl, ⟨rfl, rfl, rfl, rfl, rfl⟩, by simp, rfl, by simp [Progress.report],
        fun _ => ⟨_, rfl, Or.inr rfl⟩⟩

variable (uuid4) in
/-- A call commits exactly when every participant accepts and no hash that is reported differs;
otherwise it is aborted, at the first participant that does not accept or by the store. -/
theorem Coordinator.apply_spec (c : Coordinator F) {call : Call F} {hashes : Dict String String}
    (hhashes : Hashing.componentHashes sha256Value call.candidate = some hashes)
    (hnames : (call.participants.map Participant.name).Nodup) :
    let rid := uuid4.id c.store.draws
    let result := c.apply uuid4 sha256Value call
    call.AllAccept rid ∧
        (call.Undisputed hashes ∧ Committed c rid hashes result ∨
          ¬ call.Undisputed hashes ∧ Aborted c rid result ∧
            ((∀ participant ∈ call.participants, ∀ ack, participant.answer = some ack →
              ack.Searchable hashes) → result.coordinator.OutOfSync)) ∨
      ∃ pre participant post, call.participants = pre ++ participant :: post ∧
        (∀ earlier ∈ pre, earlier.Accepts rid) ∧ ¬ participant.Accepts rid ∧
        Aborted c rid result ∧
        result.contacted = (pre ++ [participant]).map Participant.name ∧
        (∀ ack, participant.Answers rid ack → result.coordinator.OutOfSync) := by
  intro rid result
  obtain ⟨p, hstart, hid, hphashes, hacks, hcontacted, hcurrent, hdesired, hdraws, hcommand⟩ :=
    start_spec uuid4 (c := c) hhashes
  -- the run starts without acknowledgements, so every participant is still to answer
  have hfresh : ∀ participant ∈ call.participants,
      p.revision.acknowledgements.get? participant.name = none := by
    intro participant _
    rw [hacks]
    rfl
  rcases p.contact_spec call.participants hnames hfresh with
    ⟨hall, p', hcontact, hframe, hcontacted', hacks', hcompleted⟩ |
    ⟨pre, participant, post, p₁, p', ending, hsplit, hpre, hnot, hcontact, hframe, hcontacted',
      hstopped⟩
  · rw [hid] at hall
    refine Or.inl ⟨hall, ?_⟩
    -- all accepted: the commit decides
    rcases Call.conclude_spec hnames hall (hframe.hashes.trans hphashes)
        (hacks'.trans (by rw [hacks])) with
      ⟨hundisputed, p'', hconclude, ⟨r, hr, hrid, hrhashes⟩, hdesired', hdraws', -, hdone⟩ |
      ⟨hdisputed, p'', ending, hconclude, hframe', hending, -, hnotDone, hsync⟩
    · refine Or.inl ⟨hundisputed, ?_⟩
      have hresult : result = ⟨p''.coordinator, some p''.revision, p''.command, p''.contacted,
          .committed⟩ := by
        simp only [result, apply, hstart, hcontact, hconclude]
      rw [hresult]
      refine ⟨rfl, ⟨r, hr, hrid.trans (hframe.revisionId.trans hid), hrhashes⟩, ?_, ?_, hdone⟩
      · simpa only [hdesired', hframe.desired] using hdesired
      · simpa only [hdraws', hframe.draws] using hdraws
    · refine Or.inr ⟨hdisputed, ?_⟩
      have hresult : result = ⟨p''.coordinator, some p''.revision, p''.command, p''.contacted,
          ending⟩ := by
        simp only [result, apply, hstart, hcontact, hconclude]
      rw [hresult]
      refine ⟨⟨hending, ?_, ?_, ?_, hnotDone (hcompleted hcommand)⟩, hsync⟩
      · simpa only [hframe'.current, hframe.current] using hcurrent
      · simpa only [hframe'.desired, hframe.desired] using hdesired
      · simpa only [hframe'.draws, hframe.draws] using hdraws
  · rw [hid] at hpre hnot
    have hresult : result = ⟨p'.coordinator, some p'.revision, p'.command, p'.contacted,
        ending⟩ := by
      simp only [result, apply, hstart, hcontact]
    have hid₁ : p₁.revision.revisionId = rid := hframe.revisionId.trans hid
    refine Or.inr ⟨pre, participant, post, hsplit, hpre, hnot, ?_, ?_, ?_⟩
    · rw [hresult]
      refine ⟨hstopped.notCommitted, ?_, ?_, ?_, hstopped.notCompleted⟩
      · simpa only [hstopped.frame.current, hframe.current] using hcurrent
      · simpa only [hstopped.frame.desired, hframe.desired] using hdesired
      · simpa only [hstopped.frame.draws, hframe.draws] using hdraws
    · rw [hresult]
      simp [hstopped.contacted, hcontacted', hcontacted]
    · intro ack hanswer
      obtain ⟨-, report, hreport, hstatus⟩ := hstopped.rejected ack (hid₁ ▸ hanswer)
      rw [hresult]
      exact ⟨report, hreport, Or.inl hstatus⟩

end

end Netlab.Coordination
