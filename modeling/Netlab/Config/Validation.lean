import Netlab.Topology.Edges

/-!
# Validation of an experiment configuration

The sections of `validate_experiment` that decide about the inventory and the topology, on the
migrated configuration: the drone counts, the drone records, and the branches or the manual edges.
Each issue names the field it is about. The remaining sections check other fields and are left out,
so a configuration that the source accepts is one in which the sections here find no issue.
-/

namespace Netlab

variable {F : Type}

/-- The two sections of a migrated configuration that describe the inventory and the topology. -/
structure ExperimentConfig (F : Type) where
  swarm : Dict String (Json F)
  topology : Dict String (Json F)

/-- An error of the validator. -/
structure ConfigIssue where
  path : String
  code : String
  message : String
  deriving DecidableEq, Repr

/-- The drone counts of a swarm section. -/
structure SwarmCounts where
  total : ℤ
  relay : ℤ
  standby : ℤ
  deriving DecidableEq, Repr

variable [PyText F] [PyFloat F]

/-- The counts, all three of which have to be integers. -/
def swarmCounts? (swarm : Dict String (Json F)) : Option SwarmCounts := do
  return {
    total := ← (swarm.getD "drone_count" (.int 0)).toInt?
    relay := ← (swarm.getD "relay_count" (.int 0)).toInt?
    standby := ← (swarm.getD "standby_count" (.int 0)).toInt? }

/-- The counts that the validator goes on with. -/
def swarmCounts (swarm : Dict String (Json F)) : SwarmCounts :=
  (swarmCounts? swarm).getD ⟨0, 0, 0⟩

/-- One issue, when a check fails. -/
def issueIf (failed : Prop) [Decidable failed] (path code message : String) : List ConfigIssue :=
  if failed then [⟨path, code, message⟩] else []

/-- The issues about the counts. -/
def countIssues (swarm : Dict String (Json F)) : List ConfigIssue :=
  let counts := swarmCounts swarm
  issueIf (swarmCounts? swarm = none) "swarm" "COUNT_TYPE" "Drone counts must be integers." ++
    -- counts that are no integers have been replaced, and are checked all the same
    issueIf (counts.total < 1 ∨ 512 < counts.total) "swarm.drone_count" "OUT_OF_RANGE"
      "Drone count must be between 1 and 512." ++
    issueIf (counts.relay < 1 ∨ counts.total < counts.relay) "swarm.relay_count"
      "COUNT_CONSISTENCY" "Relay count must be between 1 and drone count." ++
    issueIf (counts.standby < 0 ∨ counts.relay + counts.standby ≠ counts.total)
      "swarm.standby_count" "COUNT_CONSISTENCY"
      "Relay plus standby count must equal drone count."

/-- The drone records of a swarm section; anything but a list has none. -/
def droneRecords (swarm : Dict String (Json F)) : List (Json F) :=
  match swarm.getD "drones" (.arr []) with
  | .arr records => records
  | _ => []

/-- The identifier of a drone record. -/
def droneId (record : Dict String (Json F)) : String := record.getText "id" ""

/-- The issues about the drone records from position `i` on, after the given identifiers; `further`
are those of a record at its position besides the ones about its identifier. -/
def recordIssues (further : ℕ → Dict String (Json F) → List ConfigIssue) (i : ℕ)
    (ids : List String) : List (Json F) → List ConfigIssue
  | [] => []
  | item :: rest =>
      match item.dict? with
      | none =>
          ⟨s!"swarm.drones[{i}]", "OBJECT", "Drone entry must be an object."⟩ ::
            recordIssues further (i + 1) ids rest
      | some record =>
          let id := droneId record
          let path := s!"swarm.drones[{i}].id"
          -- an empty id is reported once, and not as a duplicate
          (if id = "" then [⟨path, "REQUIRED", "Drone ID is required."⟩]
            else issueIf (id ∈ ids) path "DUPLICATE" s!"Duplicate drone ID {id}.") ++
            further i record ++ recordIssues further (i + 1) (id :: ids) rest

omit [PyFloat F] in
/-- Records without issues have none about their identifiers. -/
theorem recordIssues_identifiers {further : ℕ → Dict String (Json F) → List ConfigIssue}
    {i : ℕ} {ids : List String} {records : List (Json F)}
    (h : recordIssues further i ids records = []) :
    recordIssues (fun _ _ => []) i ids records = [] := by
  induction records generalizing i ids with
  | nil => rfl
  | cons item rest ih =>
      rw [recordIssues] at h ⊢
      cases hitem : item.dict? with
      | none => simp [hitem] at h
      | some record =>
          simp only [hitem, List.append_eq_nil_iff] at h ⊢
          exact ⟨⟨h.1.1, trivial⟩, ih h.2⟩

/-- The identifiers of all drone records that are objects. -/
def droneIds (swarm : Dict String (Json F)) : List String :=
  (droneRecords swarm).filterMap fun item => item.dict?.map droneId

/-- Whether the drones are a list with one record for each drone. -/
def inventorySized (swarm : Dict String (Json F)) : Bool :=
  match swarm.getD "drones" (.arr []) with
  | .arr records => (records.length : ℤ) = (swarmCounts swarm).total
  | _ => false

/-- The issues of the inventory. -/
def inventoryIssues (swarm : Dict String (Json F)) : List ConfigIssue :=
  countIssues swarm ++
    issueIf (inventorySized swarm = false) "swarm.drones" "INVENTORY_SIZE"
      s!"Expected exactly {(swarmCounts swarm).total} drone records." ++
    -- what else is checked of a record is no matter of the inventory
    recordIssues (fun _ _ => []) 0 [] (droneRecords swarm)

/-- The mode of a topology section, in lower case. -/
def topologyMode (topology : Dict String (Json F)) : String :=
  PyText.lower F (topology.getText "mode" "chain")

/-- The issues about the entries of a branch, after the given relays of the same branch. -/
def relayIssues (path : String) (relayCount : ℤ) (seen : List ℤ) :
    List (Json F) → List ConfigIssue
  | [] => []
  | raw :: rest =>
      -- the index is converted, and may have been a text or a fraction
      match raw.toInt? with
      | none =>
          ⟨path, "INTEGER", "Relay indices must be integers."⟩ ::
            relayIssues path relayCount seen rest
      | some idx =>
          issueIf (idx < 1 ∨ relayCount < idx) path "UNKNOWN_RELAY"
              s!"Relay {idx} is outside active relay inventory 1..{relayCount}." ++
            issueIf (idx ∈ seen) path "DUPLICATE_NODE"
              s!"Relay {idx} occurs twice in one branch." ++
            relayIssues path relayCount (idx :: seen) rest

/-- The issues about one branch. -/
def branchIssues (relayCount : ℤ) (bi : ℕ) (branch : Json F) : List ConfigIssue :=
  let path := s!"topology.branches[{bi}]"
  match branch with
  | .arr (raw :: rest) => relayIssues path relayCount [] (raw :: rest)
  | _ => [⟨path, "EMPTY_BRANCH", "A branch must contain at least one relay."⟩]

/-- The issues about one manual edge between known entities. -/
def edgeIssues (known : List String) (i : ℕ) (edge : Json F) : List ConfigIssue :=
  let path := s!"topology.manual_edges[{i}]"
  match edge with
  | .arr [src, dst] =>
      issueIf (src.toText ∉ known ∨ dst.toText ∉ known) path "UNKNOWN_ENDPOINT"
          s!"Unknown manual-edge endpoint {src.toText}->{dst.toText}." ++
        issueIf (src.toText = dst.toText) path "SELF_LOOP"
          "Self-loops are not permitted in an operational relay graph."
  | _ => [⟨path, "EDGE_SHAPE", "Manual edges must be [source, destination] pairs."⟩]

/-- The issues of the topology: of the edges in manual mode, otherwise of the branches. -/
def topologyIssues (config : ExperimentConfig F) : List ConfigIssue :=
  let mode := topologyMode config.topology
  issueIf (TopologyMode.ofValue? mode = none) "topology.mode" "ENUM"
      "Topology mode must be chain, parallel, forest, or manual." ++
    if mode = "manual" then
      -- a manual topology has edges, and the other modes have branches
      match config.topology.getD "manual_edges" (.arr []) with
      | .arr (edge :: edges) =>
          ((edge :: edges).mapIdx fun i edge =>
            edgeIssues ("station" :: droneIds config.swarm) i edge).flatten
      | _ => [⟨"topology.manual_edges", "REQUIRED",
          "Manual topology requires at least one directed edge."⟩]
    else
      match config.topology.getD "branches" (.arr []) with
      | .arr (branch :: branches) =>
          ((branch :: branches).mapIdx fun bi branch =>
            branchIssues (swarmCounts config.swarm).relay bi branch).flatten
      | _ => [⟨"topology.branches", "REQUIRED", "At least one branch is required."⟩]

/-- The inventory and the topology have no issue. -/
def ExperimentConfig.Valid (config : ExperimentConfig F) : Prop :=
  inventoryIssues config.swarm = [] ∧ topologyIssues config = []

instance (config : ExperimentConfig F) : Decidable config.Valid := by
  unfold ExperimentConfig.Valid
  infer_instance

end Netlab
