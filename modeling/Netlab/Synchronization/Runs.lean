import Netlab.Prelude.Run
import Netlab.Synchronization.Dispatch

/-!
# Runs of the coordinator

Calls follow each other on one store. The current and the desired revision always carry an id that
was drawn before, so the revision of the next call is a new one, and the current revision changes
exactly in a call that commits.
-/

namespace Netlab.Coordination

variable {F : Type}

/-- What stands up to the first element without a property stands up to any element without it. -/
theorem subset_of_first_rejection {α : Type*} {P : α → Prop} {pre post pre' post' : List α}
    {x y : α} (h : pre ++ x :: post = pre' ++ y :: post') (hpre : ∀ z ∈ pre, P z) (hy : ¬ P y) :
    pre ++ [x] ⊆ pre' ++ [y] := by
  rcases List.append_eq_append_iff.mp h with ⟨between, rfl, heq⟩ | ⟨between, rfl, heq⟩
  · cases between with
    | nil =>
        obtain ⟨rfl, -⟩ := List.cons.inj heq
        simp
    | cons z between =>
        obtain ⟨rfl, -⟩ := List.cons.inj heq
        intro w hw
        simp only [List.mem_append, List.mem_cons] at hw ⊢
        tauto
  · cases between with
    | nil =>
        obtain ⟨rfl, -⟩ := List.cons.inj heq
        simp
    | cons z between =>
        obtain ⟨rfl, -⟩ := List.cons.inj heq
        exact absurd (hpre y (by simp)) hy

/-! ## Ids that were drawn -/

/-- An id was among the first `draws` of a supply. -/
def Drawn (uuid4 : IdSupply) (draws : ℕ) (id : String) : Prop := ∃ n < draws, id = uuid4.id n

theorem Drawn.mono {uuid4 : IdSupply} {m n : ℕ} {id : String} (h : Drawn uuid4 m id)
    (hle : m ≤ n) : Drawn uuid4 n id := by
  obtain ⟨k, hk, hid⟩ := h
  exact ⟨k, hk.trans_le hle, hid⟩

/-- The next id was not drawn before. -/
theorem Drawn.ne_next {uuid4 : IdSupply} {draws : ℕ} {id : String} (h : Drawn uuid4 draws id) :
    id ≠ uuid4.id draws := by
  obtain ⟨n, hn, rfl⟩ := h
  exact fun heq => hn.ne (uuid4.injective n draws heq)

/-- The current and the desired revision carry ids that were drawn. -/
structure RevisionStore.Drawn (uuid4 : IdSupply) (store : RevisionStore F) : Prop where
  current : ∀ r, store.current = some r → Coordination.Drawn uuid4 store.draws r.revisionId
  desired : ∀ r, store.desired = some r → Coordination.Drawn uuid4 store.draws r.revisionId

/-- Taking over an acknowledgement touches the command only. -/
theorem Progress.frame_takeOver {p p' : Progress F} {name : String}
    (h : p.takeOver name = some p') : p.Frame p' := by
  simp only [takeOver, bind, Option.bind_eq_some_iff, pure, Option.some.injEq] at h
  obtain ⟨_, _, rfl⟩ := h
  exact ⟨rfl, rfl, rfl, rfl, rfl⟩

/-- The loop over the participants keeps the identity of the revision and what the store calls
current and desired. -/
theorem Progress.frame_contact (participants : List (Participant F)) :
    ∀ p : Progress F, p.Frame (p.contact participants).1 := by
  induction participants with
  | nil => exact fun p => .refl p
  | cons participant rest ih =>
      intro p
      have hannounce : p.Frame (p.announce participant.name) := ⟨rfl, rfl, rfl, rfl, rfl⟩
      simp only [contact]
      split
      · exact hannounce
      · rename_i ack _
        split
        · exact hannounce
        · have hfiled : p.Frame ((p.announce participant.name).acknowledge ack) :=
            hannounce.trans (frame_saveRevision rfl rfl)
          split
          · exact hfiled
          · rename_i p' htake
            have htaken := hfiled.trans (frame_takeOver htake)
            split
            · exact htaken.trans ⟨rfl, rfl, rfl, rfl, rfl⟩
            · refine (htaken.trans ?_).trans (ih _)
              exact frame_saveRevision rfl rfl

variable {uuid4 : IdSupply}

/-- A call that commits makes its own, new revision the current one. -/
theorem Committed.spec {c : Coordinator F} {hashes : Dict String String} {result : Result F}
    (h : Committed c (uuid4.id c.store.draws) hashes result) (hdrawn : c.store.Drawn uuid4) :
    result.coordinator.store.current ≠ c.store.current ∧
      result.coordinator.inspect.inSync = true := by
  obtain ⟨r, hr, hrid, -⟩ := h.current
  obtain ⟨d, hd, hdid⟩ := h.desired
  refine ⟨fun heq => ?_, ?_⟩
  · exact (hdrawn.current r (heq.symm.trans hr)).ne_next hrid
  · simp [Coordinator.inspect, hr, hd, hrid, hdid]

/-- After a call that does not commit, the current revision is not the desired one. -/
theorem Aborted.inSync_eq_false {c : Coordinator F} {result : Result F}
    (h : Aborted c (uuid4.id c.store.draws) result) (hdrawn : c.store.Drawn uuid4) :
    result.coordinator.inspect.inSync = false := by
  obtain ⟨d, hd, hdid⟩ := h.desired
  have hcurrent := h.current
  cases hold : c.store.current with
  | none => simp [Coordinator.inspect, hd, hcurrent, hold]
  | some r =>
      have hne : d.revisionId ≠ r.revisionId := fun heq =>
        (hdrawn.current r hold).ne_next (heq.symm.trans hdid)
      simp [Coordinator.inspect, hd, hcurrent, hold, hne]

variable [PyText F]

/-- What `commit` writes is the revision under its own id. -/
theorem RevisionStore.commit_spec {store store' : RevisionStore F} {r r' : Revision F}
    {participants : List String} (h : store.commit r participants = some (.ok (r', store'))) :
    r'.revisionId = r.revisionId ∧ store'.current = some r' ∧ store'.desired = store.desired ∧
      store'.draws = store.draws := by
  simp only [commit, bind, Option.bind_eq_some_iff] at h
  obtain ⟨⟨missing, mismatch⟩, -, h⟩ := h
  simp only [pure] at h
  split at h
  · cases h
  · split at h
    · cases h
    · obtain ⟨rfl, rfl⟩ := Prod.mk.inj (Except.ok.inj (Option.some.inj h))
      exact ⟨rfl, rfl, rfl, rfl⟩

/-- The end of a call makes at most the revision of the call current. -/
theorem Progress.conclude_frame (p : Progress F) (participants : List String) :
    let p' := (p.conclude participants).1
    (p'.coordinator.store.current = p.coordinator.store.current ∨
        ∃ r, p'.coordinator.store.current = some r ∧ r.revisionId = p.revision.revisionId) ∧
      p'.coordinator.store.desired = p.coordinator.store.desired ∧
      p'.coordinator.store.draws = p.coordinator.store.draws := by
  intro p'
  obtain ⟨q, hq⟩ : ∃ q, q = p.saveRevision { p.revision with status := .inSync } := ⟨_, rfl⟩
  -- the commit may raise, refuse, or replace the current revision
  cases hcommit : q.coordinator.store.commit q.revision participants with
  | none =>
      have hp' : p' = q := by simp only [p', conclude, ← hq, hcommit]
      rw [hp', hq]
      exact ⟨Or.inl rfl, rfl, rfl⟩
  | some outcome =>
      cases outcome with
      | error refusal =>
          have hp' : p'.coordinator.store.current = q.coordinator.store.current ∧
              p'.coordinator.store.desired = q.coordinator.store.desired ∧
              p'.coordinator.store.draws = q.coordinator.store.draws := by
            simp only [p', conclude, ← hq, hcommit]
            exact ⟨rfl, rfl, rfl⟩
          rw [hp'.1, hp'.2.1, hp'.2.2, hq]
          exact ⟨Or.inl rfl, rfl, rfl⟩
      | ok result =>
          obtain ⟨r, store⟩ := result
          have hp' : p'.coordinator.store = store := by
            simp only [p', conclude, ← hq, hcommit]
            rfl
          obtain ⟨hid, hcurrent, hdesired, hdraws⟩ := RevisionStore.commit_spec hcommit
          rw [hp', hcurrent, hdesired, hdraws, hq]
          exact ⟨Or.inr ⟨r, rfl, by rw [hid, hq]; rfl⟩, rfl, rfl⟩

variable {sha256Value : Json F → Option String}

/-- Whatever a call is like, the current and the desired revision still carry ids that were
drawn. -/
theorem RevisionStore.Drawn.perform {c : Coordinator F} (h : c.store.Drawn uuid4)
    (call : Call F) : (c.perform uuid4 sha256Value call).store.Drawn uuid4 := by
  rw [Coordinator.perform, Coordinator.apply]
  cases hhashes : Hashing.componentHashes sha256Value call.candidate with
  | none =>
      have hstart : c.start uuid4 sha256Value call = none := by
        simp [Coordinator.start, create, hhashes]
      rw [hstart]
      exact h
  | some hashes =>
      obtain ⟨p, hstart, hid, -, -, -, hcurrent, ⟨r, hdesired, hrid⟩, hdraws, -⟩ :=
        Coordinator.start_spec uuid4 (c := c) hhashes
      -- the revision of the call takes the next id
      have hown : Coordination.Drawn uuid4 (c.store.draws + 1) (uuid4.id c.store.draws) :=
        ⟨c.store.draws, Nat.lt_succ_self _, rfl⟩
      have hold : ∀ r, c.store.current = some r →
          Coordination.Drawn uuid4 (c.store.draws + 1) r.revisionId := fun r hr =>
        (h.current r hr).mono (Nat.le_succ _)
      have hframe := p.frame_contact call.participants
      obtain ⟨⟨p', ending?⟩, hcontact⟩ : ∃ outcome, outcome = p.contact call.participants :=
        ⟨_, rfl⟩
      rw [← hcontact] at hframe
      have hdraws' : p'.coordinator.store.draws = c.store.draws + 1 := hframe.draws.trans hdraws
      have hdesired' : p'.coordinator.store.desired = some r := hframe.desired.trans hdesired
      have hcurrent' : p'.coordinator.store.current = c.store.current :=
        hframe.current.trans hcurrent
      simp only [hstart, ← hcontact]
      cases ending? with
      | some ending =>
          refine ⟨fun r' hr' => ?_, fun r' hr' => ?_⟩
          · rw [hcurrent'] at hr'
            rw [hdraws']
            exact hold r' hr'
          · rw [hdesired'] at hr'
            obtain rfl := Option.some.inj hr'
            rw [hdraws', hrid]
            exact hown
      | none =>
          obtain ⟨hcases, hdesired'', hdraws''⟩ :=
            p'.conclude_frame (call.participants.map Participant.name)
          refine ⟨fun r' hr' => ?_, fun r' hr' => ?_⟩
          · rw [hdraws'', hdraws']
            rcases hcases with heq | ⟨s, hs, hsid⟩
            · exact hold r' (hcurrent'.symm.trans (heq.symm.trans hr'))
            · obtain rfl := Option.some.inj (hs.symm.trans hr')
              rw [hsid, hframe.revisionId.trans hid]
              exact hown
          · rw [hdraws'', hdraws']
            obtain rfl := Option.some.inj ((hdesired''.trans hdesired').symm.trans hr')
            rw [hrid]
            exact hown

/-- In every run the current and the desired revision carry ids that were drawn. -/
theorem drawn_run (calls : List (Call F)) :
    (Run.run (Coordinator.perform uuid4 sha256Value) .empty calls).store.Drawn uuid4 := by
  have hempty : (Coordinator.empty : Coordinator F).store.Drawn uuid4 :=
    { current := fun _ h => by cases h
      desired := fun _ h => by cases h }
  exact Run.run_invariant (fun c : Coordinator F => c.store.Drawn uuid4)
    (fun c call h => h.perform call) hempty calls

/-! ## The next call of a run -/

/-- The participants of a call have distinct names, and each answers under its own name and for the
revision `rid`, with a mapping of hashes. -/
structure Call.WellFormed (call : Call F) (rid : String) : Prop where
  names : (call.participants.map Participant.name).Nodup
  answers : ∀ participant ∈ call.participants, ∃ ack members,
    participant.Answers rid ack ∧ ack.observedHashes = .obj members

/-- A mapping of hashes can be looked up. -/
theorem ParticipantAck.searchable_of_obj {ack : ParticipantAck F}
    {members : List (String × Json F)} (h : ack.observedHashes = .obj members)
    (hashes : Dict String String) : ack.Searchable hashes := by
  intro e _
  have hobj : ∃ members, RevisionStore.observedHashes ack = .obj members := by
    rw [RevisionStore.observedHashes, Json.orElse, h]
    split
    · exact ⟨_, rfl⟩
    · exact ⟨_, rfl⟩
  obtain ⟨members', hmembers⟩ := hobj
  rw [hmembers, Json.find?]
  split
  · exact ⟨_, rfl⟩
  · exact ⟨_, rfl⟩

/-- After any calls, perform a further one in which every participant answers.

If they all accept and no hash they report differs, the revision of the call becomes the current
one, the command is completed and the coordinator is in sync. Otherwise the current revision stays,
the status is degraded or drifted, the command is not completed, the coordinator is not in sync, and
nobody after the first participant that rejects is contacted. A call whose candidate has no
canonical text raises before there is a revision, and changes nothing. -/
theorem apply_all_or_nothing (uuid4 : IdSupply) (sha256Value : Json F → Option String)
    (calls : List (Call F)) (call : Call F)
    (hcall : call.WellFormed
      (uuid4.id (Run.run (Coordinator.perform uuid4 sha256Value) .empty calls).store.draws)) :
    let c := Run.run (Coordinator.perform uuid4 sha256Value) .empty calls
    let rid := uuid4.id c.store.draws
    let result := c.apply uuid4 sha256Value call
    let c' := result.coordinator
    (∀ hashes, Hashing.componentHashes sha256Value call.candidate = some hashes →
      (call.AllAccept rid ∧ call.Undisputed hashes →
        (∃ r, c'.store.current = some r ∧ r.revisionId = rid) ∧
          c'.store.current ≠ c.store.current ∧ result.command.status = .completed ∧
          c'.inspect.inSync = true) ∧
      (¬ (call.AllAccept rid ∧ call.Undisputed hashes) →
        c'.store.current = c.store.current ∧ c'.OutOfSync ∧
          result.command.status ≠ .completed ∧ c'.inspect.inSync = false ∧
          ∀ pre participant post, call.participants = pre ++ participant :: post →
            ¬ participant.Accepts rid →
            ∀ later ∈ post, later.name ∉ result.contacted)) ∧
    (Hashing.componentHashes sha256Value call.candidate = none →
      c' = c ∧ result.ending = .raised ∧ result.command.status ≠ .completed ∧
        result.contacted = []) := by
  intro c rid result c'
  have hdrawn : c.store.Drawn uuid4 := drawn_run calls
  refine ⟨fun hashes hhashes => ?_, fun hhashes => ?_⟩
  · have hsearchable : ∀ participant ∈ call.participants, ∀ ack, participant.answer = some ack →
        ack.Searchable hashes := by
      intro participant hmem ack hack
      obtain ⟨own, members, hanswer, hobj⟩ := hcall.answers participant hmem
      obtain rfl := Option.some.inj (hanswer.1.symm.trans hack)
      exact ParticipantAck.searchable_of_obj hobj hashes
    rcases c.apply_spec uuid4 hhashes hcall.names with
      ⟨hall, ⟨hundisputed, hcommitted⟩ | ⟨hdisputed, haborted, hsync⟩⟩ |
      ⟨pre, participant, post, hsplit, hpre, hnot, haborted, hcontacted, hsync⟩
    · refine ⟨fun _ => ?_, fun h => absurd ⟨hall, hundisputed⟩ h⟩
      obtain ⟨r, hr, hrid, -⟩ := hcommitted.current
      obtain ⟨hne, hin⟩ := hcommitted.spec hdrawn
      exact ⟨⟨r, hr, hrid⟩, hne, hcommitted.completed, hin⟩
    · refine ⟨fun h => absurd h.2 hdisputed, fun _ => ?_⟩
      refine ⟨haborted.current, hsync hsearchable, haborted.notCompleted,
        haborted.inSync_eq_false hdrawn, ?_⟩
      intro pre participant post hsplit hnot
      have hmem : participant ∈ call.participants := by simp [hsplit]
      exact absurd (hall participant hmem) hnot
    · have hmem : participant ∈ call.participants := by simp [hsplit]
      refine ⟨fun h => absurd (h.1 participant hmem) hnot, fun _ => ?_⟩
      obtain ⟨ack, _, hanswer, -⟩ := hcall.answers participant hmem
      refine ⟨haborted.current, hsync ack hanswer, haborted.notCompleted,
        haborted.inSync_eq_false hdrawn, ?_⟩
      intro pre' rejecting post' hsplit' hnot' later hlater hcontact
      -- whoever was contacted stands up to the participant that rejects
      rw [hcontacted] at hcontact
      obtain ⟨contacted, hmem', hname⟩ := List.mem_map.mp hcontact
      have hbefore := subset_of_first_rejection (hsplit.symm.trans hsplit') hpre hnot' hmem'
      have hnames := hcall.names
      rw [hsplit', ← List.singleton_append, ← List.append_assoc, List.map_append,
        List.nodup_append] at hnames
      exact hnames.2.2 _ (List.mem_map_of_mem hbefore) _ (List.mem_map_of_mem hlater) hname
  · have hstart : c.start uuid4 sha256Value call = none := by
      simp [Coordinator.start, RevisionStore.create, hhashes]
    have hresult : result = ⟨c, none, { call.command with status := .validating }, [],
        .raised⟩ := by
      simp only [result, Coordinator.apply, hstart]
    rw [hresult]
    exact ⟨by simp only [c', hresult], rfl, by simp, rfl⟩

/-- `ImmediateParticipant`: it answers at once, with the hashes of the revision. -/
def immediateParticipant (rid : String) (hashes : Dict String String) (name : String)
    (accept : Bool) : Participant F where
  name
  answer := some {
    participant := name
    revisionId := rid
    accepted := accept
    observedHashes := .obj (hashes.entries.map fun e => (e.1, .str e.2))
    message := "embedded acceptance participant" }

omit [PyText F] in
/-- Immediate participants with distinct names make a well-formed call. -/
theorem wellFormed_immediate {call : Call F} {rid : String} (hashes : Dict String String)
    {answers : List (String × Bool)} (hnames : (answers.map Prod.fst).Nodup)
    (h : call.participants =
      answers.map fun answer => immediateParticipant rid hashes answer.1 answer.2) :
    call.WellFormed rid := by
  refine ⟨?_, ?_⟩
  · rw [h, List.map_map]
    exact hnames
  · intro participant hmem
    rw [h] at hmem
    obtain ⟨answer, -, rfl⟩ := List.mem_map.mp hmem
    exact ⟨_, _, ⟨rfl, rfl, rfl⟩, rfl⟩

/-- The first call on a store, which `isaac` refuses. -/
def isaacRefuses : Call ℚ where
  candidate := .obj []
  command := { commandId := "" }
  participants := [("ros", true), ("isaac", false), ("sionna", true)].map fun answer =>
    immediateParticipant "x" .empty answer.1 answer.2

/-- After `isaac` refused, nothing is current and `sionna` was not contacted. -/
theorem apply_all_or_nothing_isaacRefuses :
    let result := Coordinator.empty.apply .unary (fun _ => some "h") isaacRefuses
    result.coordinator.store.current = none ∧ result.coordinator.OutOfSync ∧
      "sionna" ∉ result.contacted := by
  intro result
  have hwf : isaacRefuses.WellFormed "x" := wellFormed_immediate .empty (by decide) rfl
  obtain ⟨hall, -⟩ := apply_all_or_nothing .unary (fun _ => some "h") [] isaacRefuses hwf
  have hnot : ¬ (immediateParticipant (F := ℚ) "x" .empty "isaac" false).Accepts "x" := by
    rintro ⟨ack, ⟨hack, -⟩, haccepted⟩
    obtain rfl := Option.some.inj hack
    cases haccepted
  obtain ⟨hcurrent, hsync, -, -, hcontacted⟩ := (hall _ rfl).2 fun h =>
    hnot (h.1 _ (by simp [isaacRefuses]))
  refine ⟨hcurrent, hsync, ?_⟩
  exact hcontacted [_] _ [_] rfl hnot _ (List.mem_singleton.mpr rfl)

end Netlab.Coordination
