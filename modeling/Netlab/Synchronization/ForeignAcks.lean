import Netlab.Synchronization.Actions
import Netlab.Revisions.Drafts

/-!
# Acknowledgements of another revision

A wait that finds no acknowledgement of its revision ends with the last one it saw, and
`_mark_from_ack` enters that one without a look at the revision it names; of `sionna` any positive
answer is entered. So an acknowledgement of another revision is inert exactly when no participant
that is asked leaves the synchronizer with such an answer (`foreign_acks_inert`).
-/

namespace Netlab.Synchronization

open Revisions

variable {F : Type} [PyText F]

/-! ## What a wait finds -/

/-- What the files hold when they are read in one round, and the files after it. A content that is
no mapping is `none`. -/
def pollContents (poll : Poll F) :
    List AckFile → Watch F → List (Option (Dict String (Json F))) × Watch F
  | [], watch => ([], watch)
  | file :: files, watch =>
      let watch := watch.after (poll file)
      let (others, last) := pollContents poll files watch
      (watch.read file :: others, last)

/-- What the files hold when they are read, round after round until the deadline. -/
def contents (files : List AckFile) :
    List (Poll F) → Watch F → List (Option (Dict String (Json F)))
  | [], _ => []
  | poll :: polls, watch =>
      let (round, watch) := pollContents poll files watch
      round ++ contents files polls watch

/-- The answer that a wait ends with, from the contents that it would read until the deadline. -/
def settle (revisionId : String) :
    List (Option (Dict String (Json F))) → Dict String (Json F) → Option (Dict String (Json F))
  | [], latest => some latest
  | none :: _, _ => none
  | some ack :: others, latest =>
      if ackRevision ack = revisionId then some ack
      else settle revisionId others (if ack.entries.isEmpty then latest else ack)

/-- One round of a wait. -/
theorem pollFiles_settle (revisionId : String) (poll : Poll F) (files : List AckFile)
    (watch : Watch F) (latest : Answer F) (others : List (Option (Dict String (Json F)))) :
    match pollFiles revisionId poll files watch latest with
    | none => settle revisionId ((pollContents poll files watch).1 ++ others) latest.ack = none
    | some (_, answer, true) =>
        settle revisionId ((pollContents poll files watch).1 ++ others) latest.ack =
          some answer.ack
    | some (watch', answer, false) =>
        watch' = (pollContents poll files watch).2 ∧
          settle revisionId ((pollContents poll files watch).1 ++ others) latest.ack =
            settle revisionId others answer.ack := by
  induction files generalizing watch latest with
  | nil => exact ⟨rfl, rfl⟩
  | cons file files ih =>
      simp only [pollFiles, pollContents, List.cons_append]
      cases hread : (watch.after (poll file)).read file with
      | none => rfl
      | some ack =>
          simp only [Option.bind_eq_bind, Option.bind_some]
          -- the first file that names the revision ends the poll; an empty one is passed over
          by_cases hnames : ackRevision ack = revisionId
          · simp [hnames, settle]
          · have hrest := ih (watch.after (poll file))
              (if ack.entries.isEmpty then latest
                else { ack, fresh := (watch.after (poll file)).written file })
            have hlatest : (if ack.entries.isEmpty then latest
                else { ack, fresh := (watch.after (poll file)).written file }).ack =
                if ack.entries.isEmpty then latest.ack else ack := by
              split <;> rfl
            rw [hlatest] at hrest
            simpa only [hnames, ↓reduceIte, settle] using hrest

/-- A wait ends with the answer that the contents settle on. -/
theorem waitAck_settle (files : List AckFile) (revisionId : String) (polls : List (Poll F))
    (watch : Watch F) (latest : Answer F) :
    (waitAck files revisionId polls watch latest).map (fun r => r.2.ack) =
      settle revisionId (contents files polls watch) latest.ack := by
  induction polls generalizing watch latest with
  | nil => rfl
  | cons poll polls ih =>
      have hround := pollFiles_settle revisionId poll files watch latest
        (contents files polls (pollContents poll files watch).2)
      rw [contents, waitAck]
      cases hpoll : pollFiles revisionId poll files watch latest with
      | none =>
          rw [hpoll] at hround
          exact hround.symm
      | some result =>
          obtain ⟨watch', answer, found⟩ := result
          rw [hpoll] at hround
          cases found with
          | true => exact hround.symm
          | false =>
              obtain ⟨rfl, hsettle⟩ := hround
              rw [hsettle]
              exact ih _ _

/-- The last acknowledgement that is not empty. -/
def lastSeen (acks : List (Dict String (Json F))) : Option (Dict String (Json F)) :=
  (acks.filter fun ack => !ack.entries.isEmpty).getLast?

/-- A wait for a revision is left with an acknowledgement that does not name it: every content can
be read, none names the revision, and the acknowledgement is the last one seen. -/
def LeftWith (revisionId : String) (contents : List (Option (Dict String (Json F))))
    (ack : Dict String (Json F)) : Prop :=
  ∃ acks, contents = acks.map some ∧ (∀ a ∈ acks, ackRevision a ≠ revisionId) ∧
    lastSeen acks = some ack

omit [PyText F] in
theorem lastSeen_cons (ack : Dict String (Json F)) (acks : List (Dict String (Json F))) :
    lastSeen (ack :: acks) =
      (lastSeen acks).or (if ack.entries.isEmpty then none else some ack) := by
  cases hempty : ack.entries.isEmpty with
  | true => simp [lastSeen, hempty]
  | false => simp [lastSeen, hempty, List.getLast?_cons]

/-- Contents settle on an acknowledgement that does not name the revision exactly when none does,
and it is the last one seen. -/
theorem settle_eq_some_iff {revisionId : String} {contents : List (Option (Dict String (Json F)))}
    {latest ack : Dict String (Json F)} (hother : ackRevision ack ≠ revisionId) :
    settle revisionId contents latest = some ack ↔
      ∃ acks, contents = acks.map some ∧ (∀ a ∈ acks, ackRevision a ≠ revisionId) ∧
        (lastSeen acks).getD latest = ack := by
  induction contents generalizing latest with
  | nil =>
      rw [settle, Option.some.injEq]
      constructor
      · rintro rfl
        exact ⟨[], rfl, by simp, rfl⟩
      · rintro ⟨acks, hacks, -, rfl⟩
        rw [List.map_eq_nil_iff.mp hacks.symm]
        rfl
  | cons content contents ih =>
      cases content with
      -- an unreadable file raises, so nothing is settled
      | none =>
          refine iff_of_false (by simp [settle]) ?_
          rintro ⟨acks, hacks, -⟩
          cases acks <;> simp at hacks
      | some first =>
          -- the latest answer so far stands for the contents already read
          have hlatest : ∀ acks : List (Dict String (Json F)),
              (lastSeen acks).getD (if first.entries.isEmpty then latest else first) =
                (lastSeen (first :: acks)).getD latest := by
            intro acks
            rw [lastSeen_cons]
            cases lastSeen acks with
            | none => cases first.entries.isEmpty <;> rfl
            | some last => rfl
          rw [settle]
          split
          · rename_i hnames
            refine iff_of_false (fun heq => ?_) ?_
            · exact hother (Option.some.inj heq ▸ hnames)
            · rintro ⟨acks, hacks, hnone, -⟩
              cases acks with
              | nil => simp at hacks
              | cons a acks =>
                  obtain rfl : first = a := by simpa using (List.cons.inj hacks).1
                  exact hnone first List.mem_cons_self hnames
          · rename_i hnames
            rw [ih]
            constructor
            · rintro ⟨acks, rfl, hnone, hlast⟩
              refine ⟨first :: acks, rfl, ?_, (hlatest acks).symm.trans hlast⟩
              rintro a (_ | ⟨_, ha⟩)
              · exact hnames
              · exact hnone a ha
            · rintro ⟨acks, hacks, hnone, hlast⟩
              cases acks with
              | nil => simp at hacks
              | cons a acks =>
                  obtain ⟨hfirst, hrest⟩ := List.cons.inj hacks
                  obtain rfl := Option.some.inj hfirst
                  exact ⟨acks, hrest, fun b hb => hnone b (List.mem_cons_of_mem _ hb),
                    (hlatest acks).trans hlast⟩

/-- A wait returns an acknowledgement that is neither empty nor of the revision exactly when it is
left with it. -/
theorem waitAck_leftWith_iff {files : List AckFile} {revisionId : String} {polls : List (Poll F)}
    {watch : Watch F} {ack : Dict String (Json F)} :
    (∃ watch' answer, waitAck files revisionId polls watch noAnswer = some (watch', answer) ∧
        answer.ack = ack ∧ (!ack.entries.isEmpty) = true ∧ ackRevision ack ≠ revisionId) ↔
      LeftWith revisionId (contents files polls watch) ack ∧ ackRevision ack ≠ revisionId := by
  -- the wait is a fold over the contents that it reads
  have hsettle := waitAck_settle files revisionId polls watch noAnswer
  have hnoAnswer : (noAnswer : Answer F).ack = .empty := rfl
  constructor
  · rintro ⟨watch', answer, hwait, rfl, hne, hother⟩
    rw [hwait, Option.map_some, hnoAnswer] at hsettle
    obtain ⟨acks, hacks, hnone, hlast⟩ := (settle_eq_some_iff hother).mp hsettle.symm
    refine ⟨⟨acks, hacks, hnone, ?_⟩, hother⟩
    cases hseen : lastSeen acks with
    | none =>
        rw [hseen, Option.getD_none] at hlast
        simp [← hlast] at hne
    | some last => rw [← hlast, hseen, Option.getD_some]
  · rintro ⟨⟨acks, hacks, hnone, hlast⟩, hother⟩
    have hsome : settle revisionId (contents files polls watch) .empty = some ack :=
      (settle_eq_some_iff hother).mpr ⟨acks, hacks, hnone, by rw [hlast]; rfl⟩
    rw [hnoAnswer, hsome] at hsettle
    obtain ⟨⟨watch', answer⟩, hwait, hack⟩ := Option.map_eq_some_iff.mp hsettle
    have hseen := List.mem_of_mem_getLast? hlast
    exact ⟨watch', answer, hwait, hack, (List.mem_filter.mp hseen).2, hother⟩

/-! ## The calls that are made -/

/-- The participant calls that `apply` makes, each with the files when it begins. -/
def made (revisionId : String) (offlineIsPending : Bool) :
    List (Call F) → Watch F → List (Call F × Watch F)
  | [], _ => []
  | call :: calls, watch =>
      (call, watch) ::
        match call.ask watch with
        | none => []
        | some (watch, answer) =>
            -- an acknowledgement that cannot be entered raises
            if call.marks answer.ack && (entryOfAck answer.ack).isNone then []
            else if !answer.accepted revisionId && !offlineIsPending then []
            else made revisionId offlineIsPending calls watch

/-- The participant calls that `apply` makes for a record. -/
def madeOn (store : Store F) (record : Record F) (env : Environment F)
    (offlineIsPending : Bool) : List (Call F × Watch F) :=
  made record.revisionId offlineIsPending (calls env record)
    { acks := store.acks, written := fun _ => false }

/-- The reports that are entered are the answers to the calls made, as far as these are entered. -/
theorem mem_attempt_iff {revisionId : String} {offlineIsPending : Bool} {calls : List (Call F)}
    {watch : Watch F} {report : String × Participant F} :
    report ∈ (attempt revisionId offlineIsPending calls watch).1 ↔
      ∃ m ∈ made revisionId offlineIsPending calls watch, ∃ watch' answer,
        m.1.ask m.2 = some (watch', answer) ∧ m.1.marks answer.ack = true ∧
          m.1.name = report.1 ∧ entryOfAck answer.ack = some report.2 := by
  induction calls generalizing watch with
  | nil => simp [attempt, made]
  | cons call calls ih =>
      simp only [attempt, made, List.mem_cons, exists_eq_or_imp]
      cases hask : call.ask watch with
      | none => simp
      | some result =>
          obtain ⟨watch₁, answer⟩ := result
          -- the call has one answer, so what is said of some answer is said of it
          have hown : ∀ P : Watch F → Answer F → Prop,
              (∃ watch' answer', some (watch₁, answer) = some (watch', answer') ∧ P watch' answer') ↔
                P watch₁ answer := by
            intro P
            constructor
            · rintro ⟨watch', answer', heq, h⟩
              obtain ⟨rfl, rfl⟩ := Prod.mk.inj (Option.some.inj heq)
              exact h
            · exact fun h => ⟨_, _, rfl, h⟩
          rw [hown]
          dsimp only
          -- marked or not, and then whether the answer ends the attempt
          by_cases hmarks : call.marks answer.ack = true
          · cases hentry : entryOfAck answer.ack with
            | none => simp [hmarks]
            | some entry =>
                have hreport : report = (call.name, entry) ↔
                    call.name = report.1 ∧ entry = report.2 :=
                  ⟨fun h => by rw [h]; exact ⟨rfl, rfl⟩, fun h => Prod.ext h.1.symm h.2.symm⟩
                by_cases hstop : (!answer.accepted revisionId && !offlineIsPending) = true
                · simp [hmarks, hstop, hreport]
                · simp [hmarks, hstop, ih, hreport]
          · by_cases hstop : (!answer.accepted revisionId && !offlineIsPending) = true
            · simp [hmarks, hstop]
            · simp [hmarks, hstop, ih]

/-- A participant leaves the synchronizer with an acknowledgement that does not name the revision,
and that one is entered for it. -/
inductive Misled (env : Environment F) (record : Record F) (name : String) (watch : Watch F)
    (ack : Dict String (Json F)) : Prop
  | ros (asked : name = "ros")
      (left : LeftWith record.revisionId (contents [.revisionRos, .ros] env.ros watch) ack)
      (other : ackRevision ack ≠ record.revisionId)
  | sionna (asked : name = "sionna") (response : Json F) (answered : env.sionna = .ok response)
      (mapping : response.dict? = some ack)
      (positive : ((ack.get? "ok").getD .null).truthy = true ∨
        ((ack.get? "accepted").getD .null).truthy = true)
      (other : ackRevision ack ≠ record.revisionId)
  | isaac (asked : name = "isaac")
      (copied : ((record.candidate.orElse (.obj [])).toDict?).isSome = true)
      (left : LeftWith record.revisionId (contents [.isaac] env.isaac watch) ack)
      (other : ackRevision ack ≠ record.revisionId)

/-- A participant call enters an acknowledgement that does not name the revision exactly when the
participant misleads the synchronizer. -/
theorem misled_iff {env : Environment F} {record : Record F} {call : Call F}
    (hcall : call ∈ calls env record) {watch : Watch F} {ack : Dict String (Json F)} :
    (∃ watch' answer, call.ask watch = some (watch', answer) ∧ call.marks answer.ack = true ∧
        answer.ack = ack ∧ ackRevision ack ≠ record.revisionId) ↔
      Misled env record call.name watch ack := by
  simp only [calls, List.mem_cons, List.not_mem_nil, or_false] at hcall
  rcases hcall with rfl | rfl | rfl
  · constructor
    · rintro ⟨watch', answer, hask, hmarks, rfl, hother⟩
      -- only an acknowledgement that was left in the file can name another revision
      obtain ⟨hleft, -⟩ := waitAck_leftWith_iff.mp ⟨watch', answer, hask, rfl, hmarks, hother⟩
      exact .ros rfl hleft hother
    · rintro (⟨-, hleft, hother⟩ | ⟨asked, -⟩ | ⟨asked, -⟩)
      · obtain ⟨watch', answer, hask, rfl, hmarks, -⟩ :=
          waitAck_leftWith_iff.mpr ⟨hleft, hother⟩
        exact ⟨watch', answer, hask, hmarks, rfl, hother⟩
      · simp [applyRos] at asked
      · simp [applyRos] at asked
  · constructor
    · rintro ⟨watch', answer, hask, hmarks, rfl, hother⟩
      -- the answer comes with the response, and nothing is waited for
      cases hsionna : env.sionna with
      | error message =>
          simp only [applySionna, hsionna, Option.some.injEq, Prod.mk.injEq] at hask
          obtain ⟨-, rfl⟩ := hask
          cases hmarks
      | ok response =>
          simp only [applySionna, hsionna, bind, Option.bind_eq_some_iff, pure, Option.some.injEq,
            Prod.mk.injEq] at hask
          obtain ⟨ack, hmapping, -, rfl⟩ := hask
          exact .sionna rfl response hsionna hmapping (by simpa [applySionna] using hmarks) hother
    · rintro (⟨asked, -⟩ | ⟨-, response, hanswered, hmapping, hpositive, hother⟩ | ⟨asked, -⟩)
      · simp [applySionna] at asked
      · refine ⟨watch, { ack, fresh := true }, ?_, ?_, rfl, hother⟩
        · simp [applySionna, hanswered, hmapping]
        · simpa [applySionna] using hpositive
      · simp [applySionna] at asked
  · constructor
    · rintro ⟨watch', answer, hask, hmarks, rfl, hother⟩
      obtain ⟨candidate, hcopied, hask⟩ := Option.bind_eq_some_iff.mp hask
      obtain ⟨hleft, -⟩ := waitAck_leftWith_iff.mp ⟨watch', answer, hask, rfl, hmarks, hother⟩
      exact .isaac rfl (by rw [hcopied]; rfl) hleft hother
    · rintro (⟨asked, -⟩ | ⟨asked, -⟩ | ⟨-, hcopied, hleft, hother⟩)
      · simp [applyIsaac] at asked
      · simp [applyIsaac] at asked
      · obtain ⟨watch', answer, hask, rfl, hmarks, -⟩ :=
          waitAck_leftWith_iff.mpr ⟨hleft, hother⟩
        obtain ⟨candidate, hcandidate⟩ := Option.isSome_iff_exists.mp hcopied
        refine ⟨watch', answer, ?_, hmarks, rfl, hother⟩
        exact Option.bind_eq_some_iff.mpr ⟨candidate, hcandidate, hask⟩

/-- The entry that an acknowledgement leads to, and what it says. -/
theorem entryOfAck_spec {ack : Dict String (Json F)} {entry : Participant F}
    (h : entryOfAck ack = some entry) :
    entry.observedRevision = ackRevision ack ∧
      entry.state = if ackAccepted ack then .acknowledged else .failed := by
  simp only [entryOfAck, bind, Option.bind_eq_some_iff, pure, Option.some.injEq] at h
  obtain ⟨hashes, -, rfl⟩ := h
  exact ⟨rfl, rfl⟩

/-- Every call that is made is one of the three. -/
theorem mem_calls_of_mem_made {revisionId : String} {offlineIsPending : Bool}
    {calls : List (Call F)} {watch : Watch F} {m : Call F × Watch F}
    (h : m ∈ made revisionId offlineIsPending calls watch) : m.1 ∈ calls := by
  induction calls generalizing watch with
  | nil => cases h
  | cons call calls ih =>
      rcases List.mem_cons.mp h with rfl | h
      · exact List.mem_cons_self
      · refine List.mem_cons_of_mem _ ?_
        split at h
        · cases h
        · split at h
          · cases h
          · split at h
            · cases h
            · exact ih h

/-- A report that does not name the revision is entered exactly when a participant that is asked
misleads the synchronizer with it. -/
theorem mem_attemptOn_iff {store : Store F} {record : Record F} {env : Environment F}
    {offlineIsPending : Bool} {report : String × Participant F}
    (hother : report.2.observedRevision ≠ record.revisionId) :
    report ∈ (attemptOn store record env offlineIsPending).1 ↔
      ∃ m ∈ madeOn store record env offlineIsPending, m.1.name = report.1 ∧
        ∃ ack, Misled env record m.1.name m.2 ack ∧ entryOfAck ack = some report.2 := by
  rw [attemptOn, mem_attempt_iff]
  constructor
  · rintro ⟨m, hm, watch', answer, hask, hmarks, hname, hentry⟩
    refine ⟨m, hm, hname, answer.ack, ?_, hentry⟩
    refine (misled_iff (mem_calls_of_mem_made hm)).mp ⟨watch', answer, hask, hmarks, rfl, ?_⟩
    rwa [← (entryOfAck_spec hentry).1]
  · rintro ⟨m, hm, hname, ack, hmisled, hentry⟩
    obtain ⟨watch', answer, hask, hmarks, rfl, -⟩ :=
      (misled_iff (mem_calls_of_mem_made hm)).mpr hmisled
    exact ⟨m, hm, watch', answer, hask, hmarks, hname, hentry⟩

/-! ## Inertness -/

/-- A call of the manager enters, into the record of a revision, an acknowledgement that names
another one. -/
def Foreign : Op F → Prop
  | .mark revisionId _ entry => entry.observedRevision ≠ "" ∧ entry.observedRevision ≠ revisionId
  | _ => False

/-- No participant that is asked for a revision misleads the synchronizer with an acknowledgement
that names another one. -/
def Undeceived (store : Store F) (record : Record F) (env : Environment F)
    (offlineIsPending : Bool) : Prop :=
  ∀ m ∈ madeOn store record env offlineIsPending, ∀ ack, Misled env record m.1.name m.2 ack →
    (entryOfAck ack).isSome = true → ackRevision ack = ""

/-- `apply` enters no foreign acknowledgement exactly when no participant misleads it with one. -/
theorem undeceived_iff {store : Store F} {record : Record F} {env : Environment F}
    {offlineIsPending : Bool} :
    (∀ op ∈ applyOps store record env offlineIsPending, ¬ Foreign op) ↔
      Undeceived store record env offlineIsPending := by
  constructor
  · -- a call that is misled marks its participant with the other revision
    intro hinert m hm ack hmisled hsome
    obtain ⟨entry, hentry⟩ := Option.isSome_iff_exists.mp hsome
    by_contra hnamed
    have hobserved := (entryOfAck_spec hentry).1
    have hother : entry.observedRevision ≠ record.revisionId := by
      rw [hobserved]
      cases hmisled <;> assumption
    have hmem : (m.1.name, entry) ∈ (attemptOn store record env offlineIsPending).1 :=
      (mem_attemptOn_iff hother).mpr ⟨m, hm, rfl, ack, hmisled, hentry⟩
    refine hinert (.mark record.revisionId m.1.name entry) ?_ ⟨?_, hother⟩
    · exact List.mem_append_left _ (List.mem_map.mpr ⟨_, hmem, rfl⟩)
    · rwa [hobserved]
  · intro hall op hop hforeign
    rcases List.mem_append.mp hop with hop | hop
    · obtain ⟨report, hmem, rfl⟩ := List.mem_map.mp hop
      obtain ⟨m, hm, -, ack, hmisled, hentry⟩ := (mem_attemptOn_iff hforeign.2).mp hmem
      refine hforeign.1 ?_
      rw [(entryOfAck_spec hentry).1]
      exact hall m hm ack hmisled (by rw [hentry]; rfl)
    · obtain ⟨file, -, rfl⟩ := List.mem_map.mp hop
      exact hforeign

/-! ## The observed revision -/

/-- The participant that a phase names observed the revision of the record. -/
def Observed (store : Store F) : Prop :=
  ∀ id record, store.read id = some record → ∀ name ∈ requiredParticipants,
    record.phase = phaseAfterAck name →
      ∃ entry, record.participants.get? name = some entry ∧ entry.observedRevision = id

/-- A mark that leads to the phase of its participant, or leaves it there, names the revision. -/
def Named (store : Store F) : Op F → Prop
  | .mark revisionId name entry => ∀ record, store.read revisionId = some record →
      entry.state = .acknowledged ∨
        (entry.state ≠ .failed ∧ record.phase = phaseAfterAck name) →
      entry.observedRevision = revisionId
  | _ => True

/-- No participant that is asked for a revision misleads the synchronizer with a positive
acknowledgement. -/
def Trusted (store : Store F) (record : Record F) (env : Environment F)
    (offlineIsPending : Bool) : Prop :=
  ∀ m ∈ madeOn store record env offlineIsPending, ∀ ack, Misled env record m.1.name m.2 ack →
    (entryOfAck ack).isSome = true → ackAccepted ack = false

/-- A step enters no acknowledgement that does not name the revision. -/
def Action.Named (store : Store F) : Action F → Prop
  | .manager op => Synchronization.Named store op
  | .apply record env offlineIsPending => Trusted store record env offlineIsPending
  | .reconcile revisionId env =>
      ∀ record, reconciled store revisionId = some record → Trusted store record env true

/-- The participant is known by the phase that its acknowledgement leads to. -/
theorem phaseAfterAck_injOn {name name' : String} (h : name ∈ requiredParticipants)
    (h' : name' ∈ requiredParticipants) (heq : phaseAfterAck name = phaseAfterAck name') :
    name = name' := by
  simp only [requiredParticipants, List.mem_cons, List.not_mem_nil, or_false] at h h'
  rcases h with rfl | rfl | rfl <;> rcases h' with rfl | rfl | rfl <;>
    first | rfl | simp [phaseAfterAck] at heq

/-- The phases that acknowledgements lead to. -/
theorem phaseAfterAck_mem (name : String) :
    phaseAfterAck name ∈
      [RevisionPhase.appliedToRos, .appliedToSionna, .appliedToIsaac] := by
  rw [phaseAfterAck]
  split
  · simp
  · split <;> simp

omit [PyText F] in
/-- A record after a mark that names the revision. -/
theorem Observed.marked {store : Store F} (h : Observed store) {revisionId name : String}
    {entry : Participant F} {record : Record F} (hknown : name ∈ requiredParticipants)
    (hread : store.read revisionId = some record)
    (hnamed : Synchronization.Named store (.mark revisionId name entry)) :
    ∀ name' ∈ requiredParticipants,
      (record.marked name entry).phase = phaseAfterAck name' →
        ∃ entry', (record.marked name entry).participants.get? name' = some entry' ∧
          entry'.observedRevision = revisionId := by
  intro name' hknown' hphase
  have hparticipants : (record.marked name entry).participants =
      record.participants.set name entry := by
    cases hstate : entry.state <;> simp [Record.marked, hstate, Record.withParticipant]
  rw [hparticipants, Dict.get?_set]
  by_cases hname : name' = name
  · subst hname
    rw [if_pos rfl]
    refine ⟨entry, rfl, hnamed record hread ?_⟩
    -- only an acknowledgement, or a state that leaves the phase as it was, gets here
    cases hstate : entry.state with
    | acknowledged => exact Or.inl rfl
    | failed =>
        have hfailed : (record.marked name' entry).phase = .failed := by
          simp [Record.marked, hstate]
        have hmem := phaseAfterAck_mem name'
        rw [← hphase, hfailed] at hmem
        simp at hmem
    | _ =>
        refine Or.inr ⟨by simp, ?_⟩
        simpa [Record.marked, hstate, Record.withParticipant] using hphase
  · rw [if_neg hname]
    -- the phase is that of another participant, whose entry was there before
    refine h revisionId record hread name' hknown' ?_
    cases hstate : entry.state with
    | acknowledged =>
        refine absurd (phaseAfterAck_injOn hknown' hknown ?_) hname
        rw [← hphase]
        simp [Record.marked, hstate]
    | failed =>
        have hmem := phaseAfterAck_mem name'
        have hfailed : (record.marked name entry).phase = .failed := by
          simp [Record.marked, hstate]
        rw [← hphase, hfailed] at hmem
        simp at hmem
    | _ => simpa [Record.marked, hstate, Record.withParticipant] using hphase

omit [PyText F] in
/-- A record whose phase is not that of an acknowledgement can be filed. -/
theorem Observed.of_set {store store' : Store F} (h : Observed store) {id : String}
    {record : Record F} (hrecords : store'.records = store.records.set id record)
    (hphase : record.phase ∉ [RevisionPhase.appliedToRos, .appliedToSionna, .appliedToIsaac]) :
    Observed store' := by
  intro id' record' hread name hknown hname
  rw [Store.read, hrecords, Dict.get?_set] at hread
  split at hread
  · obtain rfl := Option.some.inj hread
    exact absurd (hname ▸ phaseAfterAck_mem name) hphase
  · exact h id' record' hread name hknown hname

omit [PyText F] in
/-- A call of the manager keeps the observed revisions, if it is no mark of another revision. -/
theorem Observed.perform {uuid4 : IdSupply} {sha256Value : Json F → Option String}
    {store : Store F} (h : Observed store) {op : Op F} (hop : Synchronization.Named store op) :
    Observed (store.perform uuid4 sha256Value op) := by
  have hperformed := store.performed uuid4 sha256Value op
  generalize store.perform uuid4 sha256Value op = store' at hperformed ⊢
  cases hperformed with
  | unchanged => exact h
  | ackFile file content => exact h
  | created create =>
      obtain ⟨-, hphase, hrecords, -, -⟩ := Store.create_spec create
      exact h.of_set hrecords (by simp [hphase])
  | @marked revisionId name entry record known read =>
      intro id record' hread' name' hknown' hphase
      rw [Store.read, Store.write_records, (record.marked_identity _ _).1,
        store.keyed _ _ read, Dict.get?_set] at hread'
      split at hread'
      · rename_i hid
        obtain rfl := Option.some.inj hread'
        rw [hid]
        exact h.marked known read hop name' hknown' hphase
      · exact h id record' hread' name' hknown' hphase
  | committed read ready => exact h.of_set (Store.write_records _ _) (by simp)
  | @rolledBack revisionId target record store₁ read create =>
      obtain ⟨-, -, hrecords, -, -⟩ := Store.create_spec create
      -- the record that is created for the rollback is stored as rolled back
      have hset : (store₁.write { record with phase := .rolledBack, state := .rolledBack }).records =
          store.records.set record.revisionId
            { record with phase := .rolledBack, state := .rolledBack } := by
        rw [Store.write_records, hrecords, Dict.set_set]
      exact h.of_set hset (by simp)

/-- A trusted `apply` names the revision in every mark that is not a failure. -/
theorem Trusted.named {store : Store F} {record : Record F} {env : Environment F}
    {offlineIsPending : Bool} (h : Trusted store record env offlineIsPending) {op : Op F}
    (hop : op ∈ applyOps store record env offlineIsPending) (store' : Store F) :
    Synchronization.Named store' op := by
  rcases List.mem_append.mp hop with hop | hop
  · obtain ⟨report, hmem, rfl⟩ := List.mem_map.mp hop
    rintro stored - hcounts
    by_contra hother
    obtain ⟨m, hm, -, ack, hmisled, hentry⟩ := (mem_attemptOn_iff hother).mp hmem
    have hrejected := h m hm ack hmisled (by rw [hentry]; rfl)
    have hfailed : report.2.state = .failed := by
      rw [(entryOfAck_spec hentry).2, hrejected]
      rfl
    rw [hfailed] at hcounts
    rcases hcounts with hstate | ⟨hstate, -⟩
    · cases hstate
    · exact hstate rfl
  · obtain ⟨file, -, rfl⟩ := List.mem_map.mp hop
    trivial

/-- A step that names the revision keeps the observed revisions. -/
theorem observed_perform {uuid4 : IdSupply} {sha256Value : Json F → Option String}
    {store : Store F} (h : Observed store) {action : Action F} (haction : action.Named store) :
    Observed (Synchronization.perform uuid4 sha256Value store action) := by
  -- a list of calls that name the revision whatever the store
  have hrun : ∀ (ops : List (Op F)) (store : Store F), Observed store →
      (∀ op ∈ ops, ∀ store', Synchronization.Named store' op) →
        Observed (Run.run (Store.perform uuid4 sha256Value) store ops) := by
    intro ops
    induction ops with
    | nil => exact fun _ h _ => h
    | cons op ops ih =>
        intro store h hops
        rw [List.forall_mem_cons] at hops
        exact ih _ (h.perform (hops.1 store)) hops.2
  cases action with
  | manager op => exact h.perform haction
  | apply record env offlineIsPending =>
      exact hrun _ _ h fun op hop store' => Trusted.named haction hop store'
  | reconcile revisionId env =>
      rw [Synchronization.perform, Action.ops]
      cases hfound : reconciled store revisionId with
      | none => exact h
      | some record => exact hrun _ _ h fun op hop store' => (haction record hfound).named hop store'

/-- `apply` enters no acknowledgement that names another revision, exactly when no participant that
is asked misleads it with one. And after steps that enter nothing but what names the revision, the
phase of a record tells which participant observed the revision. -/
theorem foreign_acks_inert (uuid4 : IdSupply) (sha256Value : Json F → Option String) :
    (∀ (store : Store F) (record : Record F) (env : Environment F) (offlineIsPending : Bool),
        (∀ op ∈ applyOps store record env offlineIsPending, ¬ Foreign op) ↔
          Undeceived store record env offlineIsPending) ∧
      ∀ actions : List (Action F),
        Run.AllSteps (Synchronization.perform uuid4 sha256Value)
            (fun store action => action.Named store) .empty actions →
          Observed (Run.run (Synchronization.perform uuid4 sha256Value) .empty actions) := by
  refine ⟨fun _ _ _ _ => undeceived_iff, fun actions hactions => ?_⟩
  exact Run.run_invariant_of_allSteps Observed (fun _ _ h haction => observed_perform h haction)
    (fun _ _ h => by simp [Store.read, Store.empty] at h) hactions

/-! ## An acknowledgement that was left behind -/

/-- An acknowledgement of the revision `"w"`. -/
def otherAck : Json ℚ := .obj [("revision_id", .str "w"), ("accepted", .bool true)]

/-- `ros` does not answer; its file still holds what was written for another revision. -/
def rosSilent : Environment ℚ where
  ros := [fun file => if file = .ros then [(.ros, some otherAck)] else []]
  sionna := .error "connection refused"
  isaac := []

/-- A draft, and then an acknowledgement by `ros` that names it: the phase tells that `ros` observed
the revision. -/
theorem foreign_acks_inert_reachable :
    Observed (Run.run (perform .unary fun _ => some "h") .empty
      [.manager (.create (.obj []) requiredParticipants),
        .manager (.mark "x" "ros" { fullAck with observedRevision := "x" })]) := by
  refine (foreign_acks_inert .unary fun _ => some "h").2 _ ⟨trivial, ?_, trivial⟩
  rintro record - -
  rfl

/-- With `ros` silent, `apply` enters the acknowledgement of another revision. -/
theorem foreign_ack_entered :
    ¬ ∀ (store : Store ℚ) (record : Record ℚ) (env : Environment ℚ) (offlineIsPending : Bool),
      ∀ op ∈ applyOps store record env offlineIsPending, ¬ Foreign op := by
  intro hall
  have hreports : (attemptOn draftStore draft rosSilent true).1.map
      (fun report => (report.1, report.2.observedRevision)) = [("ros", "w")] := by decide
  obtain ⟨report, hmem, hreport⟩ : ∃ report ∈ (attemptOn draftStore draft rosSilent true).1,
      (report.1, report.2.observedRevision) = ("ros", "w") := by
    rw [← List.mem_map, hreports]
    exact List.mem_singleton_self _
  refine hall draftStore draft rosSilent true (.mark draft.revisionId report.1 report.2) ?_ ?_
  · exact List.mem_append_left _ (List.mem_map.mpr ⟨report, hmem, rfl⟩)
  · rw [Foreign, (Prod.mk.inj hreport).2]
    decide

end Netlab.Synchronization
