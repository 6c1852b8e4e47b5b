import Netlab.Config.Distinct
import Netlab.Prelude.Comprehension
import Netlab.Topology.Edges

/-!
# The edits of Mission Control

What `update_swarm`, `update_topology` and the routes that replace one section make of the
configuration that a request loaded, before it is saved. Each edit reads and writes certain places
of the document (`Request.touches`). It keeps a versioned document without repeated keys
(`Request.versioned_edit`), and the document that it is validated to still has at every other place
what was loaded (`Request.read_of_untouched`).
-/

namespace Netlab.MissionControl

open Experiment

variable {F : Type}

/-! ## Edits -/

/-- Why a request does not save anything. -/
inductive Refusal
  /-- A step raised. -/
  | raised
  /-- `UNKNOWN_UAV`, with the identifier as its message. -/
  | unknownUav (id : String)
  /-- `TOPOLOGY_VALIDATION_FAILED`. -/
  | topologyInvalid
  deriving DecidableEq, Repr

/-- The result of a step that may raise. -/
def orRaise {α : Type} : Option α → Except Refusal α
  | some a => .ok a
  | none => .error .raised

theorem bind_eq_ok {α β : Type} {x : Except Refusal α} {f : α → Except Refusal β} {b : β} :
    x >>= f = .ok b ↔ ∃ a, x = .ok a ∧ f a = .ok b := by
  cases x with
  | error refusal => exact iff_of_false (fun h => by cases h) fun ⟨_, h, _⟩ => by cases h
  | ok a => exact ⟨fun h => ⟨a, rfl, h⟩, fun ⟨_, ha, h⟩ => Except.ok.inj ha ▸ h⟩

theorem orRaise_eq_ok {α : Type} {x : Option α} {a : α} : orRaise x = .ok a ↔ x = some a := by
  cases x <;> simp [orRaise]

section Records

variable [PyText F]

/-- The identifier of a drone record (`str(item.get("id"))`). -/
def recordId (record : Dict String (Json F)) : String := (record.getD "id" .null).toText

/-- The drone records by identifier. Of the records with one identifier the last is found. -/
def recordTable (records : List (Dict String (Json F))) :
    Dict String (Dict String (Json F)) :=
  .ofList (records.map fun record => (recordId record, record))

/-- The fields of a drone record that `update_swarm` writes. -/
def editableFields : List String :=
  ["position", "orientation_xyzw", "role", "active", "battery_soc_pct", "antenna_id"]

/-- Write the fields of an update into a record. -/
def writeFields (update record : Dict String (Json F)) : Dict String (Json F) :=
  editableFields.foldl (fun record key =>
    match update.get? key with
    | some value => record.set key value
    | none => record) record

/-- Change the last record with an identifier, if there is one. -/
def modifyLast (id : String) (f : Dict String (Json F) → Dict String (Json F)) :
    List (Dict String (Json F)) → Option (List (Dict String (Json F)))
  | [] => none
  | record :: rest =>
      match modifyLast id f rest with
      | some rest => some (record :: rest)
      | none => if recordId record = id then some (f record :: rest) else none

/-- The identifier that an update is for. -/
def updateId (update : Dict String (Json F)) : String := (update.getD "id" (.str "")).toText

/-- Carry out one update of `update_swarm`. What is no object is skipped. -/
def applyUpdate (records : List (Dict String (Json F))) (item : Json F) :
    Except Refusal (List (Dict String (Json F))) :=
  match item.dict? with
  | none => .ok records
  | some update =>
      match modifyLast (updateId update) (writeFields update) records with
      | some records => .ok records
      | none => .error (.unknownUav (updateId update))

/-- The updates in the body of a request. -/
def updatesOf (payload : Dict String (Json F)) : List (Json F) :=
  match payload.get? "drones" with
  | some (.arr items) => items
  | _ => []

/-- Edit the records of some UAVs (`update_swarm`). -/
def updateSwarm (payload config : Dict String (Json F)) :
    Except Refusal (Dict String (Json F)) := do
  let swarm ← orRaise (object? config "swarm")
  let drones ← orRaise (swarm.get? "drones")
  -- `by_id` subscripts every record with `"id"`
  let records ← orRaise ((← orRaise drones.elements?).mapM fun item =>
    item.dict?.filter fun record => (record.get? "id").isSome)
  let edited ← (updatesOf payload).foldlM applyUpdate records
  -- without records there is nothing to write, and `drones` may be no list
  if edited.isEmpty then return config
  else return config.set "swarm" (.ofDict (swarm.set "drones" (.arr (edited.map .ofDict))))

/-- Whether a topology request replaces the inventory. -/
def replacesInventory (payload : Dict String (Json F)) : Bool :=
  (payload.getD "replace_inventory" .null).truthy

/-- The records that a topology request leaves in the inventory, where `incoming` are those that it
lists: alone, or stored after the present ones, each in the place of the one with its identifier. -/
def inventoryWith (payload swarm : Dict String (Json F)) (incoming : List (Dict String (Json F))) :
    Option (List (Dict String (Json F))) :=
  if replacesInventory payload then some incoming
  else do
    let records ← (← (swarm.getD "drones" (.arr [])).elements?).mapM Json.dict?
    return (recordTable (records ++ incoming)).values

/-- The `swarm` section with the inventory of a topology request. -/
def swarmWith (payload swarm : Dict String (Json F)) : Option (Dict String (Json F)) :=
  match payload.get? "drones" with
  | some (.arr items) => do
      let records ← inventoryWith payload swarm (items.filterMap Json.dict?)
      return swarm.set "drones" (.arr (records.map .ofDict))
  | _ => some swarm

/-- Count the drones, the relays and the standby drones of an inventory again. -/
def recounted (swarm : Dict String (Json F)) : Option (Dict String (Json F)) := do
  let records ← (← (swarm.getD "drones" (.arr [])).elements?).mapM Json.dict?
  let standby := records.countP fun record => (record.getD "role" .null).isStr "standby"
  return swarm
    |>.set "drone_count" (.int records.length)
    |>.set "relay_count" (.int (records.length - standby : ℕ))
    |>.set "standby_count" (.int standby)

/-- The `topology` section with what a request proposes. A body without `topology` is itself the
proposal. -/
def topologyWith [PyFloat F] (payload topology : Dict String (Json F)) : Dict String (Json F) :=
  let topology := match (payload.getD "topology" (.ofDict payload)).dict? with
    | some proposed => topology.update proposed
    | none => topology
  match topology.get? "branches" with
  | some branches =>
      -- shared relays are allowed here, and the bound on the indices is no bound
      let rows := sanitizeBranches 100000 true branches
      topology
        |>.set "branches" (.arr (rows.map fun row => .arr (row.map .int)))
        |>.set "branch_count" (.int rows.length)
  | none => topology

/-- The station that a topology request brings. -/
def stationOf (payload : Dict String (Json F)) : Option (Dict String (Json F)) :=
  (payload.get? "station").bind Json.dict?

/-- Edit the topology, and with it the inventory and the station (`update_topology`). What
`validate_config_topology` finds in the edited document is the parameter `topologyValid`; it may
raise. A `topology` section that is no object fails in the validation at the latest. -/
def updateTopology [PyFloat F] (topologyValid : Dict String (Json F) → Option Bool)
    (payload config : Dict String (Json F)) : Except Refusal (Dict String (Json F)) := do
  let topology ← orRaise (object? config "topology")
  let swarm ← orRaise (object? config "swarm")
  let swarm ← orRaise ((swarmWith payload swarm).bind recounted)
  let edited := (config.set "topology" (.ofDict (topologyWith payload topology))).set "swarm"
    (.ofDict swarm)
  let edited := match stationOf payload with
    | some station => edited.set "station" (.ofDict station)
    | none => edited
  -- the whole configuration is checked, and not saved if it fails
  if ← orRaise (topologyValid edited) then return edited else throw .topologyInvalid

/-- Replace a section by what a body has for it; a body without it is the section itself. -/
def replaceSection (key : String) (body config : Dict String (Json F)) :
    Except Refusal (Dict String (Json F)) := do
  let value ← orRaise (body.getD key (.ofDict body)).toDict?
  return config.set key (.ofDict value)

end Records

/-- A request that edits the configuration, with its body. -/
inductive Request (F : Type)
  | swarm (payload : Document F)
  | topology (payload : Document F)
  | antennas (body : Document F)
  | world (body : Document F)
  | failures (body : Document F)
  | traffic (body : Document F)

/-- What a request makes of the configuration that it loaded. -/
def Request.edit [PyText F] [PyFloat F] (topologyValid : Dict String (Json F) → Option Bool) :
    Request F → Dict String (Json F) → Except Refusal (Dict String (Json F))
  | .swarm payload => updateSwarm payload.members
  | .topology payload => updateTopology topologyValid payload.members
  | .antennas body => replaceSection "antennas" body.members
  | .world body => replaceSection "world" body.members
  | .failures body => replaceSection "failures" body.members
  | .traffic body => replaceSection "traffic" body.members

/-! ## Places -/

/-- A section that is edited as a whole, or with a record of each UAV besides. -/
inductive Section
  | topology
  | station
  | antennas
  | world
  | failures
  | traffic
  deriving DecidableEq, Repr

/-- The key of a section. -/
def Section.name : Section → String
  | topology => "topology"
  | station => "station"
  | antennas => "antennas"
  | world => "world"
  | failures => "failures"
  | traffic => "traffic"

theorem Section.name_injective : Function.Injective Section.name := by
  intro part other h
  cases part <;> cases other <;> first | rfl | simp [name] at h

theorem Section.name_ne_swarm (part : Section) : part.name ≠ "swarm" := by
  cases part <;> decide

/-- One of the counts in the `swarm` section. -/
inductive Count
  | drones
  | relays
  | standby
  deriving DecidableEq, Repr

/-- The key of a count. -/
def Count.name : Count → String
  | drones => "drone_count"
  | relays => "relay_count"
  | standby => "standby_count"

/-- A part of the configuration that a request can edit. -/
inductive Place
  | uav (id : String)
  | count (field : Count)
  | whole (part : Section)
  deriving DecidableEq, Repr

section Places

variable [PyText F]

/-- What the `swarm` section has under a key. -/
def swarmMember (config : Dict String (Json F)) (key : String) : Option (Json F) :=
  (object? config "swarm").bind fun swarm => swarm.get? key

/-- The drone records of a configuration. -/
def inventory (config : Dict String (Json F)) : List (Dict String (Json F)) :=
  match swarmMember config "drones" with
  | some (.arr items) => items.filterMap Json.dict?
  | _ => []

/-- What a configuration has at a place. -/
def Place.read (config : Dict String (Json F)) : Place → Option (Json F)
  | .uav id => ((recordTable (inventory config)).get? id).map .ofDict
  | .count field => swarmMember config field.name
  | .whole part => config.get? part.name

/-- The places that a request edits. A topology request edits the counts along with the inventory,
and each UAV if it replaces the inventory. -/
def Request.touches : Request F → Place → Bool
  | .swarm payload, .uav id =>
      (updatesOf payload.members).any fun item =>
        item.dict?.any fun update => updateId update = id
  | .topology payload, .uav id =>
      match payload.members.get? "drones" with
      | some (.arr items) =>
          replacesInventory payload.members || (items.filterMap Json.dict?).any fun record =>
            recordId record = id
      | _ => false
  -- the counts are written anew by every edit of the topology
  | .topology _, .count _ => true
  | .topology _, .whole .topology => true
  | .topology payload, .whole .station => (stationOf payload.members).isSome
  | .antennas _, .whole .antennas => true
  | .world _, .whole .world => true
  | .failures _, .whole .failures => true
  | .traffic _, .whole .traffic => true
  | _, _ => false

/-- Two requests that edit different UAVs or different sections. -/
def Request.Apart (r r' : Request F) : Prop :=
  ∀ place, r.touches place = true → r'.touches place = false

end Places

/-! ## Edits keep a document versioned -/

section Distinct

variable [PyText F]

omit [PyText F] in
theorem distinct_writeFields {update record : Dict String (Json F)}
    (hupdate : (Json.ofDict update).distinct = true)
    (hrecord : (Json.ofDict record).distinct = true) :
    (Json.ofDict (writeFields update record)).distinct = true := by
  refine List.foldlRecOn (motive := fun record => (Json.ofDict record).distinct = true)
    editableFields _ hrecord fun record hrecord key _ => ?_
  cases hget : update.get? key with
  | none => exact hrecord
  | some value => exact Json.distinct_set hrecord key (Json.distinct_ofDict.mp hupdate key value hget)

/-- What is true of the records and of the record that is written is true of the records after. -/
theorem forall_mem_modifyLast {P : Dict String (Json F) → Prop} {id : String}
    {f : Dict String (Json F) → Dict String (Json F)} (hf : ∀ record, P record → P (f record))
    {records records' : List (Dict String (Json F))} (h : modifyLast id f records = some records')
    (hrecords : ∀ record ∈ records, P record) : ∀ record ∈ records', P record := by
  induction records generalizing records' with
  | nil => cases h
  | cons record rest ih =>
      obtain ⟨hrecord, hrest⟩ := List.forall_mem_cons.mp hrecords
      rw [modifyLast] at h
      cases hmodified : modifyLast id f rest with
      | some rest' =>
          rw [hmodified] at h
          obtain rfl := Option.some.inj h
          exact List.forall_mem_cons.mpr ⟨hrecord, ih hmodified hrest⟩
      | none =>
          rw [hmodified] at h
          dsimp only at h
          split at h
          · obtain rfl := Option.some.inj h
            exact List.forall_mem_cons.mpr ⟨hf record hrecord, hrest⟩
          · cases h

/-- One update, when it is carried out: nothing, or a write to the last record with its
identifier. -/
theorem applyUpdate_cases {records records' : List (Dict String (Json F))} {item : Json F}
    (h : applyUpdate records item = .ok records') :
    records' = records ∨ ∃ update, item.dict? = some update ∧
      modifyLast (updateId update) (writeFields update) records = some records' := by
  rw [applyUpdate] at h
  cases hitem : item.dict? with
  | none =>
      rw [hitem] at h
      exact Or.inl (Except.ok.inj h).symm
  | some update =>
      simp only [hitem] at h
      cases hmodified : modifyLast (updateId update) (writeFields update) records with
      | none => simp [hmodified] at h
      | some records'' =>
          simp only [hmodified] at h
          obtain rfl := Except.ok.inj h
          exact Or.inr ⟨update, rfl, hmodified⟩

/-- What each update of a list keeps, the list of them keeps. -/
theorem foldlM_applyUpdate {P : List (Dict String (Json F)) → Prop} {items : List (Json F)}
    (hstep : ∀ item ∈ items, ∀ records records', P records →
      applyUpdate records item = .ok records' → P records')
    {records records' : List (Dict String (Json F))}
    (h : items.foldlM applyUpdate records = .ok records') (hrecords : P records) : P records' := by
  induction items generalizing records with
  | nil => exact Except.ok.inj h ▸ hrecords
  | cons item items ih =>
      rw [List.foldlM_cons] at h
      cases hitem : applyUpdate records item with
      | error refusal =>
          rw [hitem] at h
          cases h
      | ok next =>
          rw [hitem] at h
          exact ih (fun item hmem => hstep item (List.mem_cons_of_mem _ hmem)) h
            (hstep item List.mem_cons_self records next hrecords hitem)

omit [PyText F] in
/-- The records that a loop over the inventory reads, when it reads all of them. -/
theorem filterMap_of_mapM {g : Json F → Option (Dict String (Json F))}
    (hg : ∀ item record, g item = some record → item.dict? = some record) {items : List (Json F)}
    {records : List (Dict String (Json F))} (h : items.mapM g = some records) :
    items.filterMap Json.dict? = records := by
  rw [List.mapM_eq_some_iff_forall₂] at h
  induction h with
  | nil => rfl
  | cons hitem _ ih => rw [List.filterMap_cons_some (hg _ _ hitem), ih]

omit [PyText F] in
/-- What a loop that subscripts every element of the inventory reads is the inventory. -/
theorem inventory_of_mapM {config swarm : Dict String (Json F)} {drones : Json F}
    (hswarm : object? config "swarm" = some swarm) (hdrones : swarm.get? "drones" = some drones)
    {g : Json F → Option (Dict String (Json F))}
    (hg : ∀ item record, g item = some record → item.dict? = some record) {items : List (Json F)}
    (hitems : drones.elements? = some items) {records : List (Dict String (Json F))}
    (h : items.mapM g = some records) : inventory config = records := by
  have hmember : swarmMember config "drones" = some drones := by
    rw [swarmMember, hswarm, Option.bind_some, hdrones]
  -- the characters of a string and the keys of an object are no records
  have htexts (texts : List String) (htexts : items = texts.map .str) : records = [] := by
    rw [← filterMap_of_mapM hg h, htexts, List.filterMap_map, List.filterMap_eq_nil_iff]
    exact fun _ _ => rfl
  rw [inventory, hmember]
  cases drones with
  | arr items' =>
      obtain rfl := Option.some.inj hitems
      exact filterMap_of_mapM hg h
  | str s =>
      refine (htexts (s.toList.map Char.toString) ?_).symm
      rw [← Option.some.inj hitems, List.map_map]
      rfl
  | obj members => exact (htexts _ (Option.some.inj hitems).symm).symm
  | _ => simp [Json.elements?] at hitems

omit [PyText F] in
theorem distinct_inventory {config : Dict String (Json F)}
    (h : (Json.ofDict config).distinct = true) :
    ∀ record ∈ inventory config, (Json.ofDict record).distinct = true := by
  rw [inventory]
  split
  · rename_i items hitems
    obtain ⟨swarm, hswarm, hdrones⟩ := Option.bind_eq_some_iff.mp hitems
    obtain ⟨section_, hsection, hdict⟩ := Option.bind_eq_some_iff.mp hswarm
    have hdistinct := Json.distinct_ofDict.mp
      (Json.distinct_dict? (Json.distinct_ofDict.mp h _ _ hsection) hdict) _ _ hdrones
    intro record hrecord
    obtain ⟨item, hitem, hrecord⟩ := List.mem_filterMap.mp hrecord
    exact Json.distinct_dict? (Json.distinctItems_iff.mp hdistinct item hitem) hrecord
  · simp

omit [PyText F] in
theorem distinct_records {records : List (Dict String (Json F))}
    (h : ∀ record ∈ records, (Json.ofDict record).distinct = true) :
    (Json.arr (records.map .ofDict) : Json F).distinct = true := by
  rw [Json.distinct, Json.distinctItems_iff]
  intro item hitem
  obtain ⟨record, hrecord, rfl⟩ := List.mem_map.mp hitem
  exact h record hrecord

omit [PyText F] in
theorem distinct_object? {config d : Dict String (Json F)} {key : String}
    (h : (Json.ofDict config).distinct = true) (hd : object? config key = some d) :
    (Json.ofDict d).distinct = true := by
  obtain ⟨value, hvalue, hd⟩ := Option.bind_eq_some_iff.mp hd
  exact Json.distinct_dict? (Json.distinct_ofDict.mp h key value hvalue) hd

/-- What `update_swarm` returns: the inventory with the updates carried out. -/
theorem updateSwarm_spec {payload config value : Dict String (Json F)}
    (h : updateSwarm payload config = .ok value) :
    ∃ swarm edited, object? config "swarm" = some swarm ∧
      (updatesOf payload).foldlM applyUpdate (inventory config) = .ok edited ∧
      (edited = [] ∧ value = config ∨
        value = config.set "swarm" (.ofDict (swarm.set "drones" (.arr (edited.map .ofDict))))) := by
  simp only [updateSwarm, bind_eq_ok, orRaise_eq_ok] at h
  obtain ⟨swarm, hswarm, drones, hdrones, items, hitems, records, hrecords, edited, hedited, h⟩ := h
  have hinventory := inventory_of_mapM hswarm hdrones
    (fun item record hrecord => (Option.filter_eq_some_iff.mp hrecord).1) hitems hrecords
  refine ⟨swarm, edited, hswarm, hinventory ▸ hedited, ?_⟩
  split at h
  · rename_i hempty
    exact Or.inl ⟨List.isEmpty_iff.mp hempty, (Except.ok.inj h).symm⟩
  · exact Or.inr (Except.ok.inj h).symm

theorem versioned_updateSwarm [PyBuiltins F] {payload : Document F}
    {config value : Dict String (Json F)} (hconfig : Versioned config)
    (h : updateSwarm payload.members config = .ok value) : Versioned value := by
  obtain ⟨swarm, edited, hswarm, hedited, ⟨-, rfl⟩ | rfl⟩ := updateSwarm_spec h
  · exact hconfig
  have hupdates : ∀ item ∈ updatesOf payload.members, item.distinct = true := by
    rw [updatesOf]
    split
    · rename_i items hitems
      exact Json.distinctItems_iff.mp (Json.distinct_ofDict.mp payload.distinct _ _ hitems)
    · simp
  have hrecords : ∀ record ∈ edited, (Json.ofDict record).distinct = true := by
    refine foldlM_applyUpdate (P := fun records =>
      ∀ record ∈ records, (Json.ofDict record).distinct = true)
      (fun item hitem records records' hrecords hupdate => ?_) hedited
      (distinct_inventory hconfig.distinct)
    rcases applyUpdate_cases hupdate with rfl | ⟨update, hdict, hmodified⟩
    · exact hrecords
    · have hdistinct := Json.distinct_dict? (hupdates item hitem) hdict
      exact forall_mem_modifyLast (P := fun record => (Json.ofDict record).distinct = true)
        (fun _ => distinct_writeFields hdistinct) hmodified hrecords
  exact hconfig.set "swarm" (by decide) (by decide)
    (Json.distinct_set (distinct_object? hconfig.distinct hswarm) _ (distinct_records hrecords))

/-- The records of a table are those that it was made of. -/
theorem mem_of_mem_recordTable {records : List (Dict String (Json F))}
    {record : Dict String (Json F)} (h : record ∈ (recordTable records).values) :
    record ∈ records := by
  obtain ⟨e, he, rfl⟩ := List.mem_map.mp h
  obtain ⟨record, hrecord, heq⟩ := List.mem_map.mp
    (Dict.mem_of_get?_ofList (Dict.get?_eq_some_iff.mpr he))
  obtain ⟨-, rfl⟩ := Prod.mk.inj heq
  exact hrecord

/-- The inventory that a topology request leaves: the records that it lists, or the table that they
are stored in after the present ones. -/
theorem inventoryWith_spec {payload config swarm : Dict String (Json F)}
    {incoming records : List (Dict String (Json F))}
    (hswarm : object? config "swarm" = some swarm)
    (h : inventoryWith payload swarm incoming = some records) :
    (replacesInventory payload = true ∧ records = incoming) ∨
      (replacesInventory payload = false ∧
        records = (recordTable (inventory config ++ incoming)).values) := by
  rw [inventoryWith] at h
  split at h
  · rename_i hreplaces
    exact Or.inl ⟨hreplaces, (Option.some.inj h).symm⟩
  · rename_i hreplaces
    simp only [bind, pure, Option.bind_eq_some_iff, Option.some.injEq] at h
    obtain ⟨items, hitems, present, hpresent, rfl⟩ := h
    refine Or.inr ⟨Bool.eq_false_of_not_eq_true hreplaces, ?_⟩
    rw [Dict.getD] at hitems
    -- a swarm without drones has an empty inventory
    cases hdrones : swarm.get? "drones" with
    | some drones =>
        rw [hdrones, Option.getD_some] at hitems
        rw [inventory_of_mapM hswarm hdrones (fun _ _ hitem => hitem) hitems hpresent]
    | none =>
        rw [hdrones, Option.getD_none] at hitems
        obtain rfl := Option.some.inj hitems
        obtain rfl : [] = present := Option.some.inj hpresent
        rw [inventory, swarmMember, hswarm, Option.bind_some, hdrones]

theorem distinct_inventoryWith {payload config swarm : Dict String (Json F)}
    {incoming records : List (Dict String (Json F))}
    (hconfig : (Json.ofDict config).distinct = true)
    (hincoming : ∀ record ∈ incoming, (Json.ofDict record).distinct = true)
    (hswarm : object? config "swarm" = some swarm)
    (h : inventoryWith payload swarm incoming = some records) :
    ∀ record ∈ records, (Json.ofDict record).distinct = true := by
  rcases inventoryWith_spec hswarm h with ⟨-, rfl⟩ | ⟨-, rfl⟩
  · exact hincoming
  · intro record hrecord
    rcases List.mem_append.mp (mem_of_mem_recordTable hrecord) with hmem | hmem
    · exact distinct_inventory hconfig record hmem
    · exact hincoming record hmem

/-- The `swarm` section that a topology request leaves: the one that was loaded, or with another
inventory. -/
theorem swarmWith_spec {payload swarm swarm' : Dict String (Json F)}
    (h : swarmWith payload swarm = some swarm') :
    swarm' = swarm ∧ (∀ items, payload.get? "drones" ≠ some (.arr items)) ∨
      ∃ items records, payload.get? "drones" = some (.arr items) ∧
        inventoryWith payload swarm (items.filterMap Json.dict?) = some records ∧
        swarm' = swarm.set "drones" (.arr (records.map .ofDict)) := by
  rw [swarmWith] at h
  split at h
  · rename_i items hitems
    obtain ⟨records, hrecords, h⟩ := Option.bind_eq_some_iff.mp h
    exact Or.inr ⟨items, records, hitems, hrecords, (Option.some.inj h).symm⟩
  · rename_i hnone
    exact Or.inl ⟨(Option.some.inj h).symm, fun items hitems => hnone items hitems⟩

omit [PyText F] in
/-- A recount stores the three counts. -/
theorem recounted_spec {swarm swarm' : Dict String (Json F)} (h : recounted swarm = some swarm') :
    ∃ total relay standby, swarm' = ((swarm.set Count.drones.name (.int total)).set
      Count.relays.name (.int relay)).set Count.standby.name (.int standby) := by
  simp only [recounted, bind, pure, Option.bind_eq_some_iff, Option.some.injEq] at h
  obtain ⟨items, -, records, -, rfl⟩ := h
  exact ⟨_, _, _, rfl⟩

omit [PyText F] in
theorem distinct_recounted {swarm swarm' : Dict String (Json F)}
    (hswarm : (Json.ofDict swarm).distinct = true) (h : recounted swarm = some swarm') :
    (Json.ofDict swarm').distinct = true := by
  obtain ⟨total, relay, standby, rfl⟩ := recounted_spec h
  exact Json.distinct_set (Json.distinct_set (Json.distinct_set hswarm _ rfl) _ rfl) _ rfl

theorem distinct_topologyWith [PyFloat F] {payload topology : Dict String (Json F)}
    (hpayload : (Json.ofDict payload).distinct = true)
    (htopology : (Json.ofDict topology).distinct = true) :
    (Json.ofDict (topologyWith payload topology)).distinct = true := by
  rw [topologyWith]
  -- what is proposed may be the whole payload
  have hproposed : (Json.ofDict (match (payload.getD "topology" (.ofDict payload)).dict? with
      | some proposed => topology.update proposed
      | none => topology)).distinct = true := by
    split
    · rename_i proposed hproposed
      exact Json.distinct_update htopology
        (Json.distinct_dict? (Json.distinct_getD hpayload _ _ hpayload) hproposed)
    · exact htopology
  dsimp only
  split
  · refine Json.distinct_set (Json.distinct_set hproposed _ ?_) _ rfl
    rw [Json.distinct, Json.distinctItems_iff]
    intro item hitem
    obtain ⟨row, -, rfl⟩ := List.mem_map.mp hitem
    rw [Json.distinct, Json.distinctItems_iff]
    intro index hindex
    obtain ⟨_, -, rfl⟩ := List.mem_map.mp hindex
    rfl
  · exact hproposed

/-- What `update_topology` returns: the sections that it edits are stored in their places. -/
theorem updateTopology_spec [PyFloat F] {topologyValid : Dict String (Json F) → Option Bool}
    {payload config value : Dict String (Json F)}
    (h : updateTopology topologyValid payload config = .ok value) :
    ∃ topology swarm swarm' swarm'', object? config "topology" = some topology ∧
      object? config "swarm" = some swarm ∧ swarmWith payload swarm = some swarm' ∧
      recounted swarm' = some swarm'' ∧
      value = (stationOf payload).elim id (fun station edited =>
        edited.set "station" (.ofDict station))
          ((config.set "topology" (.ofDict (topologyWith payload topology))).set "swarm"
            (.ofDict swarm'')) := by
  simp only [updateTopology, bind_eq_ok, orRaise_eq_ok] at h
  obtain ⟨topology, htopology, swarm, hswarm, swarm'', hswarm'', valid, -, h⟩ := h
  obtain ⟨swarm', hswarm', hrecounted⟩ := Option.bind_eq_some_iff.mp hswarm''
  refine ⟨topology, swarm, swarm', swarm'', htopology, hswarm, hswarm', hrecounted, ?_⟩
  split at h
  · rw [← Except.ok.inj h]
    cases stationOf payload <;> rfl
  · cases h

theorem versioned_updateTopology [PyBuiltins F]
    {topologyValid : Dict String (Json F) → Option Bool} {payload : Document F}
    {config value : Dict String (Json F)} (hconfig : Versioned config)
    (h : updateTopology topologyValid payload.members config = .ok value) : Versioned value := by
  obtain ⟨topology, swarm, swarm', swarm'', htopology, hswarm, hswarm', hrecounted, rfl⟩ :=
    updateTopology_spec h
  have hdistinct := distinct_object? hconfig.distinct hswarm
  have hinventory : (Json.ofDict swarm').distinct = true := by
    rcases swarmWith_spec hswarm' with ⟨rfl, -⟩ | ⟨items, records, hitems, hrecords, rfl⟩
    · exact hdistinct
    · have hlisted := Json.distinctItems_iff.mp
        (Json.distinct_ofDict.mp payload.distinct _ _ hitems)
      refine Json.distinct_set hdistinct _ (distinct_records
        (distinct_inventoryWith hconfig.distinct (fun record hrecord => ?_) hswarm hrecords))
      obtain ⟨item, hitem, hrecord⟩ := List.mem_filterMap.mp hrecord
      exact Json.distinct_dict? (hlisted item hitem) hrecord
  -- the sections are stored one after the other, each with distinct keys
  have hsection := hconfig.set "topology" (by decide) (by decide)
    (distinct_topologyWith payload.distinct (distinct_object? hconfig.distinct htopology))
  have hedited := hsection.set "swarm" (by decide) (by decide)
    (distinct_recounted hinventory hrecounted)
  cases hstation : stationOf payload.members with
  | none => exact hedited
  | some station =>
      obtain ⟨value, hvalue, hdict⟩ := Option.bind_eq_some_iff.mp hstation
      exact hedited.set "station" (by decide) (by decide)
        (Json.distinct_dict? (Json.distinct_ofDict.mp payload.distinct _ _ hvalue) hdict)

theorem versioned_replaceSection [PyBuiltins F] {key : String} (hschema : key ≠ "schema_version")
    (hexperiment : key ≠ "experiment") {body : Document F} {config value : Dict String (Json F)}
    (hconfig : Versioned config) (h : replaceSection key body.members config = .ok value) :
    Versioned value := by
  simp only [replaceSection, bind_eq_ok, orRaise_eq_ok] at h
  obtain ⟨d, hd, h⟩ := h
  obtain rfl := Except.ok.inj h
  exact hconfig.set key hschema hexperiment
    (Json.distinct_toDict? (Json.distinct_getD body.distinct _ _ body.distinct) hd)

/-- An edit of a versioned document without repeated keys gives one. -/
theorem Request.versioned_edit [PyBuiltins F]
    {topologyValid : Dict String (Json F) → Option Bool} {request : Request F}
    {config value : Dict String (Json F)} (hconfig : Versioned config)
    (h : request.edit topologyValid config = .ok value) : Versioned value := by
  cases request with
  | swarm payload => exact versioned_updateSwarm hconfig h
  | topology payload => exact versioned_updateTopology hconfig h
  | antennas body => exact versioned_replaceSection (by decide) (by decide) hconfig h
  | world body => exact versioned_replaceSection (by decide) (by decide) hconfig h
  | failures body => exact versioned_replaceSection (by decide) (by decide) hconfig h
  | traffic body => exact versioned_replaceSection (by decide) (by decide) hconfig h

end Distinct

/-! ## Edits leave the other places -/

section Untouched

variable [PyText F]

theorem recordId_writeFields (update record : Dict String (Json F)) :
    recordId (writeFields update record) = recordId record := by
  refine List.foldlRecOn (motive := fun edited => recordId edited = recordId record)
    editableFields _ rfl fun edited hedited key hkey => ?_
  cases update.get? key with
  | none => exact hedited
  | some value =>
      have hne : "id" ≠ key := by
        rintro rfl
        simp [editableFields] at hkey
      rw [← hedited, recordId, recordId, Dict.getD, Dict.getD, Dict.get?_set_of_ne _ _ hne]

theorem get?_recordTable_cons (record : Dict String (Json F))
    (records : List (Dict String (Json F))) (id : String) :
    (recordTable (record :: records)).get? id = ((recordTable records).get? id).or
      (if id = recordId record then some record else none) :=
  Dict.get?_ofList_cons _ _ _

theorem get?_recordTable_append (records incoming : List (Dict String (Json F))) (id : String) :
    (recordTable (records ++ incoming)).get? id =
      ((recordTable incoming).get? id).or ((recordTable records).get? id) := by
  induction records with
  | nil => rw [List.nil_append, show (recordTable []).get? id = none from rfl, Option.or_none]
  | cons record records ih =>
      rw [List.cons_append, get?_recordTable_cons, get?_recordTable_cons, ih, Option.or_assoc]

/-- A table has no record under an identifier that no record has. -/
theorem get?_recordTable_eq_none {records : List (Dict String (Json F))} {id : String}
    (h : ∀ record ∈ records, recordId record ≠ id) : (recordTable records).get? id = none := by
  rw [Option.eq_none_iff_forall_ne_some]
  intro record hget
  obtain ⟨record', hmem, heq⟩ := List.mem_map.mp (Dict.mem_of_get?_ofList hget)
  obtain ⟨hid, -⟩ := Prod.mk.inj heq
  exact h record' hmem hid

/-- Making a table of the records of a table gives the same one. -/
theorem recordTable_values (records : List (Dict String (Json F))) :
    recordTable (recordTable records).values = recordTable records := by
  have hkeyed : ∀ e ∈ (recordTable records).entries, (recordId e.2, e.2) = e := by
    intro e he
    obtain ⟨record, -, heq⟩ := List.mem_map.mp
      (Dict.mem_of_get?_ofList (Dict.get?_eq_some_iff.mpr he))
    obtain ⟨hid, hrecord⟩ := Prod.mk.inj heq
    subst hrecord
    rw [hid]
  generalize recordTable records = table at hkeyed ⊢
  have hmap : table.values.map (fun record => (recordId record, record)) = table.entries := by
    rw [Dict.values, List.map_map]
    exact (List.map_congr_left hkeyed).trans (List.map_id _)
  rw [recordTable, hmap, Dict.ofList_entries]

/-- A write to the record of one UAV leaves those of the others. -/
theorem get?_recordTable_modifyLast {id other : String} (hne : other ≠ id)
    {f : Dict String (Json F) → Dict String (Json F)}
    (hf : ∀ record, recordId (f record) = recordId record)
    {records records' : List (Dict String (Json F))} (h : modifyLast id f records = some records') :
    (recordTable records').get? other = (recordTable records).get? other := by
  induction records generalizing records' with
  | nil => cases h
  | cons record rest ih =>
      rw [modifyLast] at h
      -- the record is changed in the rest of the list if the id occurs there again
      cases hmodified : modifyLast id f rest with
      | some rest' =>
          rw [hmodified] at h
          obtain rfl := Option.some.inj h
          rw [get?_recordTable_cons, get?_recordTable_cons, ih hmodified]
      | none =>
          rw [hmodified] at h
          dsimp only at h
          split at h
          · rename_i hid
            obtain rfl := Option.some.inj h
            have hother : ¬ other = recordId record := fun heq => hne (heq.trans hid)
            rw [get?_recordTable_cons, get?_recordTable_cons, hf, if_neg hother,
              if_neg hother]
          · cases h

/-- The updates of a request leave the records of the UAVs that it does not name. -/
theorem get?_recordTable_applyUpdates {items : List (Json F)} {id : String}
    (hitems : (items.any fun item => item.dict?.any fun update => updateId update = id) = false)
    {records edited : List (Dict String (Json F))}
    (h : items.foldlM applyUpdate records = .ok edited) :
    (recordTable edited).get? id = (recordTable records).get? id := by
  refine foldlM_applyUpdate (P := fun edited =>
    (recordTable edited).get? id = (recordTable records).get? id)
    (fun item hitem edited edited' hedited hupdate => ?_) h rfl
  rcases applyUpdate_cases hupdate with rfl | ⟨update, hdict, hmodified⟩
  · exact hedited
  · have hne : id ≠ updateId update := by
      rintro rfl
      have hnot := List.any_eq_false.mp hitems item hitem
      simp [hdict] at hnot
    rw [get?_recordTable_modifyLast hne (recordId_writeFields update) hmodified, hedited]

/-- The section that a place belongs to. -/
def Place.key : Place → String
  | .uav _ => "swarm"
  | .count _ => "swarm"
  | .whole part => part.name

theorem Place.key_ne {place : Place} {part : Section} (h : place ≠ .whole part) :
    place.key ≠ part.name := by
  cases place with
  | uav id => exact part.name_ne_swarm.symm
  | count field => exact part.name_ne_swarm.symm
  | whole other => exact fun heq => h (congrArg Place.whole (Section.name_injective heq))

/-- A place is read from its section alone. -/
theorem Place.read_congr {config config' : Dict String (Json F)} {place : Place}
    (h : config.get? place.key = config'.get? place.key) : place.read config = place.read config' := by
  cases place with
  | uav id =>
      have hmember : swarmMember config "drones" = swarmMember config' "drones" := by
        rw [swarmMember, swarmMember, object?, object?, show config.get? "swarm" = _ from h]
        rfl
      rw [read, read, inventory, inventory, hmember]
  | count field =>
      rw [read, read, swarmMember, swarmMember, object?, object?,
        show config.get? "swarm" = _ from h]
      rfl
  | whole part => exact h

variable [PyBuiltins F] {config value : Dict String (Json F)}

/-- Where an edit left the section of a place, validation leaves the place. -/
theorem Place.read_of_section (hcovers : CoversDefault config) {place : Place}
    (h : value.get? place.key = config.get? place.key) (now : F) :
    place.read (deepMerge (defaultExperiment now) value) = place.read config := by
  refine Place.read_congr ?_
  rw [get?_deepMerge, h, ← get?_deepMerge, deepMerge_eq_self (hcovers now)]

omit [PyText F] in
/-- What the `swarm` section of an edited document has after validation, under a key that the edit
left or stored no object under. -/
theorem swarmMember_deepMerge (hcovers : CoversDefault config) {swarm swarm' : Dict String (Json F)}
    (hswarm : object? config "swarm" = some swarm)
    (hvalue : value.get? "swarm" = some (.ofDict swarm')) {key : String}
    (hkey : swarm'.get? key = swarm.get? key ∨ ∃ x, swarm'.get? key = some x ∧ x.dict? = none)
    (now : F) :
    swarmMember (deepMerge (defaultExperiment now) value) key = swarm'.get? key := by
  have hdefault := get?_defaultExperiment_section now
    (show ("swarm", (defaultSwarm : Dict String (Json F))) ∈ _ by simp [defaultSections])
  have hmerged : object? (deepMerge (defaultExperiment now) value) "swarm" =
      some (deepMerge defaultSwarm swarm') := by
    rw [object?, get?_deepMerge_of_some hvalue, hdefault, Json.onto_ofDict, Option.bind_some,
      Json.dict?_ofDict]
  rw [swarmMember, hmerged, Option.bind_some]
  rcases hkey with hsame | ⟨x, hx, hplain⟩
  · have hbase : Covers defaultSwarm swarm := covers_object? (hcovers now) hdefault hswarm
    rw [get?_deepMerge, hsame, ← get?_deepMerge, deepMerge_eq_self hbase]
  · rw [get?_deepMerge_of_some hx, Json.onto_of_plain _ hplain, hx]

omit [PyText F] [PyBuiltins F] in
/-- The inventory when its records are stored one after the other. -/
theorem inventory_of_records {records : List (Dict String (Json F))}
    (h : swarmMember config "drones" = some (.arr (records.map .ofDict))) :
    inventory config = records := by
  rw [inventory, h]
  dsimp only
  rw [List.filterMap_map]
  exact (List.filterMap_congr fun record _ => Json.dict?_ofDict record).trans List.filterMap_some

/-- `update_swarm` leaves every place but the records that it names. -/
theorem read_updateSwarm (hcovers : CoversDefault config) {payload : Document F}
    (h : updateSwarm payload.members config = .ok value) {place : Place}
    (hplace : (Request.swarm payload).touches place = false) (now : F) :
    place.read (deepMerge (defaultExperiment now) value) = place.read config := by
  obtain ⟨swarm, edited, hswarm, hedited, ⟨-, rfl⟩ | rfl⟩ := updateSwarm_spec h
  · exact Place.read_of_section hcovers rfl now
  have hmember (key : String) := @swarmMember_deepMerge _ _ _ _ hcovers _ _ hswarm
    (Dict.get?_set_self config "swarm" (.ofDict (swarm.set "drones" (.arr (edited.map .ofDict))))) key
  cases place with
  | uav id =>
      have hdrones := hmember "drones" (Or.inr ⟨_, Dict.get?_set_self _ _ _, rfl⟩) now
      rw [Dict.get?_set_self] at hdrones
      rw [Place.read, Place.read, inventory_of_records hdrones,
        get?_recordTable_applyUpdates hplace hedited]
  | count field =>
      have hne : field.name ≠ "drones" := by cases field <;> decide
      have hsame := Dict.get?_set_of_ne swarm (.arr (edited.map Json.ofDict)) hne
      rw [Place.read, Place.read, hmember _ (Or.inl hsame) now, hsame, swarmMember, hswarm,
        Option.bind_some]
  | whole part =>
      refine Place.read_of_section hcovers ?_ now
      exact Dict.get?_set_of_ne config _ part.name_ne_swarm

omit [PyBuiltins F] in
/-- The records of the UAVs that a topology request does not touch stay, in whatever order the
inventory lists them. -/
theorem get?_recordTable_inventoryWith {payload swarm : Dict String (Json F)} {id : String}
    {incoming records : List (Dict String (Json F))}
    (hswarm : object? config "swarm" = some swarm)
    (hrecords : inventoryWith payload swarm incoming = some records)
    (h : (replacesInventory payload ||
      incoming.any fun record => recordId record = id) = false) :
    (recordTable records).get? id = (recordTable (inventory config)).get? id := by
  obtain ⟨hreplaces, hincoming⟩ := Bool.or_eq_false_iff.mp h
  rcases inventoryWith_spec hswarm hrecords with ⟨hreplaces', -⟩ | ⟨-, rfl⟩
  · cases hreplaces.symm.trans hreplaces'
  · have hnone : (recordTable incoming).get? id = none :=
      get?_recordTable_eq_none fun record hrecord => by
        simpa using List.any_eq_false.mp hincoming record hrecord
    rw [recordTable_values, get?_recordTable_append, hnone, Option.none_or]

/-- `update_topology` leaves every place but its sections, the counts and the records that it
lists. -/
theorem read_updateTopology (hcovers : CoversDefault config)
    {topologyValid : Dict String (Json F) → Option Bool} {payload : Document F}
    (h : updateTopology topologyValid payload.members config = .ok value) {place : Place}
    (hplace : (Request.topology payload).touches place = false) (now : F) :
    place.read (deepMerge (defaultExperiment now) value) = place.read config := by
  obtain ⟨topology, swarm, swarm', swarm'', htopology, hswarm, hswarm', hrecounted, rfl⟩ :=
    updateTopology_spec h
  -- the station is stored last, and only if the payload has one
  have hget {key : String} (hkey : key ≠ "station") :
      ((stationOf payload.members).elim id (fun station edited =>
        edited.set "station" (.ofDict station))
          ((config.set "topology" (.ofDict (topologyWith payload.members topology))).set "swarm"
            (.ofDict swarm''))).get? key =
        ((config.set "topology" (.ofDict (topologyWith payload.members topology))).set "swarm"
            (.ofDict swarm'')).get? key := by
    cases stationOf payload.members with
    | none => rfl
    | some station => exact Dict.get?_set_of_ne _ _ hkey
  cases place with
  | uav id =>
      -- the recount writes the three counts and leaves the list of drones as it is
      have hdrones : swarm''.get? "drones" = swarm'.get? "drones" := by
        obtain ⟨total, relay, standby, rfl⟩ := recounted_spec hrecounted
        rw [Dict.get?_set_of_ne _ _ (by decide), Dict.get?_set_of_ne _ _ (by decide),
          Dict.get?_set_of_ne _ _ (by decide)]
      have hmember := @swarmMember_deepMerge _ _ _ _ hcovers _ _ hswarm
        ((hget (by decide)).trans (Dict.get?_set_self _ _ _)) "drones"
      -- without assignments the swarm is stored as it was loaded
      rcases swarmWith_spec hswarm' with ⟨rfl, -⟩ | ⟨items, records, hitems, hrecords, rfl⟩
      · have hsame : ∀ d, swarmMember d "drones" = swarmMember config "drones" →
            inventory d = inventory config := fun d hd => by rw [inventory, inventory, hd]
        rw [Place.read, Place.read, hsame _ ?_]
        rw [hmember (Or.inl hdrones) now, hdrones, swarmMember, hswarm, Option.bind_some]
      · rw [Dict.get?_set_self] at hdrones
        have hstored := hmember (Or.inr ⟨_, hdrones, rfl⟩) now
        rw [hdrones] at hstored
        rw [Request.touches, hitems] at hplace
        rw [Place.read, Place.read, inventory_of_records hstored,
          get?_recordTable_inventoryWith hswarm hrecords hplace]
  | count field => cases hplace
  | whole part =>
      refine Place.read_of_section hcovers ?_ now
      show _ = config.get? part.name
      by_cases hstation : part = .station
      · subst hstation
        have hnone : stationOf payload.members = none := by
          simpa [Request.touches] using hplace
        rw [hnone]
        exact (Dict.get?_set_of_ne _ _ (by decide)).trans (Dict.get?_set_of_ne _ _ (by decide))
      · have htopology : Place.whole part ≠ .whole .topology := by
          intro heq
          rw [heq] at hplace
          cases hplace
        have hstationKey : part.name ≠ "station" := fun heq =>
          hstation (Section.name_injective heq)
        exact (hget hstationKey).trans ((Dict.get?_set_of_ne _ _ part.name_ne_swarm).trans
          (Dict.get?_set_of_ne _ _ (Place.key_ne htopology)))

/-- A route that replaces a section leaves every place but this section. -/
theorem read_replaceSection (hcovers : CoversDefault config) {part : Section}
    {body : Document F} (h : replaceSection part.name body.members config = .ok value)
    {place : Place} (hplace : place ≠ .whole part) (now : F) :
    place.read (deepMerge (defaultExperiment now) value) = place.read config := by
  simp only [replaceSection, bind_eq_ok] at h
  obtain ⟨d, -, h⟩ := h
  obtain rfl := Except.ok.inj h
  exact Place.read_of_section hcovers (Dict.get?_set_of_ne config _ (Place.key_ne hplace)) now

/-- A document that covers the defaults, edited and validated, has at every place that the request
does not edit what it had before. -/
theorem Request.read_of_untouched {topologyValid : Dict String (Json F) → Option Bool}
    {request : Request F} (hcovers : CoversDefault config)
    (h : request.edit topologyValid config = .ok value) {place : Place}
    (hplace : request.touches place = false) (now : F) :
    place.read (deepMerge (defaultExperiment now) value) = place.read config := by
  -- what the request touches is not the place
  have hne {part : Section} (htouches : request.touches (.whole part) = true) :
      place ≠ .whole part := by
    rintro rfl
    cases htouches.symm.trans hplace
  cases request with
  | swarm payload => exact read_updateSwarm hcovers h hplace now
  | topology payload => exact read_updateTopology hcovers h hplace now
  | antennas body => exact @read_replaceSection _ _ _ _ _ hcovers .antennas _ h _ (hne rfl) now
  | world body => exact @read_replaceSection _ _ _ _ _ hcovers .world _ h _ (hne rfl) now
  | failures body => exact @read_replaceSection _ _ _ _ _ hcovers .failures _ h _ (hne rfl) now
  | traffic body => exact @read_replaceSection _ _ _ _ _ hcovers .traffic _ h _ (hne rfl) now

end Untouched

end Netlab.MissionControl
