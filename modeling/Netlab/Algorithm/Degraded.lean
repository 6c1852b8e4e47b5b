import Netlab.Algorithm.Planners
import Netlab.Prelude.Loop
import Mathlib.Tactic.IntervalCases

/-!
# Planners and a degraded fleet

When do `learn_as_you_fly`, `joint_trajectory_communication` and `voronoi_coverage` return a plan
for well-typed fields (`WellTyped`), and for which UAVs? The plans only command UAVs that are active
and have not failed. But a planner with somebody to serve takes the minimum over these UAVs, which
raises when there is none. So the planners survive exactly if there is such a UAV, or nobody to
serve (`survive_iff`); besides, the squares that they take must not be too large for a float.
-/

namespace Netlab.Baseline

variable {F : Type}

/-! ## Well-typed fields -/

/-- The division and the trigonometry that the planners rely on: only a division by zero raises, and
the angle zero has a cosine and a sine. -/
class LawfulPlanner (F : Type) [PyText F] [PyPlanner F] : Prop where
  div_isSome : ∀ x y : F, PyText.truthy y = true → (PyFloat.div x y).isSome = true
  truthy_one : PyText.truthy (1.0 : F) = true
  truthy_two : PyText.truthy (2.0 : F) = true
  truthy_hundred : PyText.truthy (100.0 : F) = true
  cos_isSome : (PyTrig.cos (PyTrig.radians (0.0 : F))).isSome = true
  sin_isSome : (PyTrig.sin (PyTrig.radians (0.0 : F))).isSome = true

instance : LawfulPlanner ℚ where
  div_isSome x y h := by
    have hy : y ≠ 0 := by simpa [PyText.truthy] using h
    simp [PyFloat.div, hy]
  truthy_one := by decide +kernel
  truthy_two := by decide +kernel
  truthy_hundred := by decide +kernel
  cos_isSome := by decide +kernel
  sin_isSome := by decide +kernel

variable [PyText F] [PyPlanner F]

/-- The given fields read as numbers where they are present. -/
def NumericFields (keys : List String) (item : Dict String (Json F)) : Prop :=
  ∀ key ∈ keys, ∀ value, item.get? key = some value → ∃ x, value.toFloat? = some x

/-- The fields of a UAV. -/
structure WellTypedUav (item : Dict String (Json F)) : Prop where
  id : ∃ value, item.get? "id" = some value
  position : ∃ p, position item = some p
  numbers : NumericFields ["battery_soc_pct"] item

/-- The fields of an entity on the ground. -/
structure WellTypedEntity (item : Dict String (Json F)) : Prop where
  type : (item.getD "type" .null).isHashable = true
  position : ∃ p, position item = some p
  numbers : NumericFields ["throughput_mbps", "demand_mbps", "weight"] item

/-- The parameters of the planners that are numbers. -/
def numericParameters : List String :=
  ["altitude_m", "learning_rate", "spacing_m", "step_size", "max_tx_power_dbm", "base_tx_power_dbm",
    "fairness_gain_db", "connectivity_weight", "formation_weight", "energy_weight", "lloyd_gain"]

/-- The fields of a snapshot, and the parameters. -/
structure WellTyped (snapshot parameters : Dict String (Json F)) : Prop where
  uavs : ∃ uavs, activeUavs snapshot = some uavs ∧ ∀ item ∈ uavs, WellTypedUav item
  ground : ∃ items, snapshot.getD "ground_entities" (.arr []) = .arr items ∧
    ∀ item ∈ items, ∃ entity, item.dict? = some entity ∧ WellTypedEntity entity
  links : ∃ items, snapshot.getD "links" (.arr []) = .arr items ∧
    ∀ item ∈ items, ∀ link, item.dict? = some link →
      NumericFields ["range_margin_m", "snr_margin_db", "capacity_margin_mbps"] link
  seed : ∃ n, (snapshot.getD "seed" (.int 0)).toInt? = some n
  region : ∃ constraints region, Experiment.section? snapshot "constraints" = some constraints ∧
    Experiment.section? constraints "service_region" = some region ∧
    NumericFields ["length_m", "width_m"] region ∧
    ∀ i < 2, ∃ value x,
      (region.getD "center" (.arr [.int 0, .int 0, .int 0])).item? i = some value ∧
      value.toFloat? = some x
  numbers : NumericFields numericParameters parameters
  sampleCount : ∃ n, (parameters.getD "sample_count" (.int 64)).toInt? = some n

/-- What is read where a field is a number. -/
theorem NumericFields.exists_getFloat {keys : List String} {item : Dict String (Json F)}
    (h : NumericFields keys item) (key : String) (default : F) (hkey : key ∈ keys) :
    ∃ x, item.getFloat key default = some x := by
  unfold Dict.getFloat Dict.getD
  cases hvalue : item.get? key with
  | none => exact ⟨default, rfl⟩
  | some value => exact h key hkey value hvalue

/-! ## Minima -/

section

variable {uavs : List (Dict String (Json F))}

omit [PyText F] in
/-- The minimum of some items whose keys can be computed is one of them. -/
theorem exists_minKey {α : Type} {key : α → Option F} {items : List α} (h : items ≠ [])
    (hkey : ∀ item ∈ items, ∃ k, key item = some k) :
    ∃ item ∈ items, minKey key items = some item := by
  obtain ⟨keyed, hkeyed⟩ : ∃ keyed, (items.mapM fun item => do return (item, ← key item)) =
      some keyed := by
    apply List.exists_mapM_eq_some_iff.mpr
    intro item hitem
    obtain ⟨k, hk⟩ := hkey item hitem
    exact ⟨(item, k), by rw [hk]; rfl⟩
  have hitems : keyed.map Prod.fst = items := by
    refine (List.map_eq_of_mapM (g := id) hkeyed ?_).trans (List.map_id _)
    intro item e he
    obtain ⟨k, -, he⟩ := Option.bind_eq_some_iff.mp he
    exact (congrArg Prod.fst (Option.some.inj he)).symm
  -- the best so far is one of the items
  have hbest : ∀ (rest : List (α × F)) (best : α × F),
      rest.foldl (fun best e => if PyFloat.lt e.2 best.2 then e else best) best ∈ best :: rest := by
    intro rest
    induction rest with
    | nil => exact fun best => List.mem_cons_self
    | cons e rest ih =>
        intro best
        rw [List.foldl_cons]
        have hmem := ih (if PyFloat.lt e.2 best.2 then e else best)
        split at hmem <;> grind
  cases keyed with
  | nil => exact absurd hitems.symm h
  | cons first rest =>
      refine ⟨_, ?_, by rw [minKey, hkeyed]; rfl⟩
      rw [← hitems]
      exact List.mem_map_of_mem (hbest rest first)

omit [PyText F] in
/-- The minimum of nothing raises. -/
theorem minKey_nil {α : Type} (key : α → Option F) : minKey key [] = none := rfl

omit [PyText F] in
/-- Of some UAVs whose places are known, one is nearest to a point. -/
theorem exists_nearest {place : Dict String (Json F) → Option (Vec3 F)} (h : uavs ≠ [])
    (hplace : ∀ item ∈ uavs, ∃ p, place item = some p) (point : Vec3 F) :
    ∃ item ∈ uavs, nearest uavs place point = some item := by
  apply exists_minKey h
  intro item hitem
  obtain ⟨p, hp⟩ := hplace item hitem
  exact ⟨p.dist point, by rw [hp]; rfl⟩

/-- The identifier of a well-typed UAV. -/
theorem WellTypedUav.exists_uavId {item : Dict String (Json F)} (h : WellTypedUav item) :
    ∃ id, uavId item = some id := by
  obtain ⟨value, hvalue⟩ := h.id
  exact ⟨value.toText, by rw [uavId, hvalue]; rfl⟩

omit [PyText F] [PyPlanner F] in
/-- The keys of what a loop over entities collects under their identifiers. -/
theorem mem_keys_of_mapM {α β γ : Type} {l : List α} {f : α → Option β} {rows : List β}
    (key : α → Option String) (name : β → String) (g : β → γ) (h : l.mapM f = some rows)
    (hname : ∀ a row, f a = some row → key a = some (name row)) (id : String) :
    id ∈ (Dict.ofList (rows.map fun row => (name row, g row))).keys ↔ ∃ a ∈ l, key a = some id := by
  rw [Dict.mem_keys_ofList, List.map_map, List.mem_map]
  constructor
  · rintro ⟨row, hrow, rfl⟩
    obtain ⟨a, ha, hf⟩ := (List.mem_mapM_iff h).mp hrow
    exact ⟨a, ha, hname a row hf⟩
  · rintro ⟨a, ha, hkey⟩
    obtain ⟨row, hrow⟩ := List.exists_mapM_eq_some_iff.mp ⟨rows, h⟩ a ha
    exact ⟨row, (List.mem_mapM_iff h).mpr ⟨a, ha, hrow⟩,
      Option.some.inj ((hname a row hrow).symm.trans hkey)⟩

/-! ## Assignments -/

/-- What is known of UAVs with well-typed fields: each has an identifier and a position. -/
theorem exists_start {α : Type} (huavs : ∀ item ∈ uavs, WellTypedUav item) :
    ∃ start : List (String × List α), (uavs.mapM fun item => do return (← uavId item, [])) =
      some start := by
  apply List.exists_mapM_eq_some_iff.mpr
  intro item hitem
  obtain ⟨id, hid⟩ := (huavs item hitem).exists_uavId
  exact ⟨(id, []), by rw [hid]; rfl⟩

/-- If there is a UAV or nothing to give, everything is given to a UAV. -/
theorem exists_assign {α : Type} (place : α → Option (Vec3 F)) (elements : List α)
    (h : uavs ≠ [] ∨ elements = []) (huavs : ∀ item ∈ uavs, WellTypedUav item)
    (hplace : ∀ element ∈ elements, ∃ p, place element = some p) :
    ∃ cells, assign uavs place elements = some cells ∧
      (∀ item ∈ uavs, ∀ id, uavId item = some id → id ∈ cells.keys) ∧
      ∀ id cell, cells.get? id = some cell → ∀ element ∈ cell, element ∈ elements := by
  obtain ⟨start, hstart⟩ := exists_start (α := α) huavs
  have hkeys : ∀ id, id ∈ (Dict.ofList start).keys ↔ ∃ item ∈ uavs, uavId item = some id := by
    intro id
    have hrows := mem_keys_of_mapM uavId Prod.fst Prod.snd hstart
      (fun item row hrow => by
        obtain ⟨id, hid, hrow⟩ := Option.bind_eq_some_iff.mp hrow
        rw [hid, ← Option.some.inj hrow]) id
    simpa using hrows
  have hfirst : ∀ id cell, (Dict.ofList start).get? id = some cell →
      ∀ element ∈ cell, element ∈ elements := by
    intro id cell hcell
    obtain ⟨item, -, hrow⟩ := (List.mem_mapM_iff hstart).mp (Dict.mem_of_get?_ofList hcell)
    obtain ⟨_, -, hrow⟩ := Option.bind_eq_some_iff.mp hrow
    rw [← (Prod.mk.inj (Option.some.inj hrow)).2]
    exact fun element helement => absurd helement List.not_mem_nil
  -- every pass keeps the cells, and only puts elements into them
  have hstep : ∀ (cells : Dict String (List α)), ∀ element ∈ elements,
      ((∀ item ∈ uavs, ∀ id, uavId item = some id → id ∈ cells.keys) ∧
        ∀ id cell, cells.get? id = some cell → ∀ element ∈ cell, element ∈ elements) →
      ∃ cells', (do
          let owner ← nearest uavs position (← place element)
          let id ← uavId owner
          let cell ← cells.get? id
          return cells.set id (cell ++ [element])) = some cells' ∧
        (∀ item ∈ uavs, ∀ id, uavId item = some id → id ∈ cells'.keys) ∧
        ∀ id cell, cells'.get? id = some cell → ∀ element ∈ cell, element ∈ elements := by
    rintro cells element helement ⟨hkept, hinside⟩
    have hsome : uavs ≠ [] := h.resolve_right (List.ne_nil_of_mem helement)
    obtain ⟨p, hp⟩ := hplace element helement
    obtain ⟨owner, howner, hnearest⟩ := exists_nearest hsome
      (fun item hitem => (huavs item hitem).position) p
    obtain ⟨id, hid⟩ := (huavs owner howner).exists_uavId
    obtain ⟨cell, hcell⟩ := Dict.mem_keys_iff.mp (hkept owner howner id hid)
    refine ⟨cells.set id (cell ++ [element]), ?_, ?_, ?_⟩
    · simp only [hp, hnearest, hid, hcell, Option.bind_eq_bind, Option.bind_some]
      rfl
    · intro item hitem other hother
      exact Dict.mem_keys_set.mpr (.inl (hkept item hitem other hother))
    · intro other content hcontent
      rw [Dict.get?_set] at hcontent
      split at hcontent
      · obtain rfl := Option.some.inj hcontent
        rw [List.forall_mem_append]
        exact ⟨hinside id cell hcell, by simpa using helement⟩
      · exact hinside other content hcontent
  obtain ⟨cells, hcells, hcell, helements⟩ := List.exists_foldlM_eq_some _ hstep
    ⟨fun item hitem id hid => (hkeys id).mpr ⟨item, hitem, hid⟩, hfirst⟩
  refine ⟨cells, ?_, hcell, helements⟩
  rw [assign, hstart]
  exact hcells

/-- Without a UAV, nothing can be given. -/
theorem assign_nil {α : Type} (place : α → Option (Vec3 F)) {elements : List α}
    (h : elements ≠ []) : assign [] place elements = none := by
  obtain ⟨element, rest, rfl⟩ := List.exists_cons_of_ne_nil h
  unfold assign
  simp only [List.mapM_nil, List.foldlM_cons, nearest, minKey_nil, Option.bind_eq_bind, pure,
    Option.bind_none, Option.bind_fun_none]

/-- Every user ends up nearest to a UAV. -/
theorem exists_associate {desired : Dict String (Vec3 F)} {people : List (Dict String (Json F))}
    (h : uavs ≠ []) (huavs : ∀ item ∈ uavs, WellTypedUav item)
    (hdesired : ∀ item ∈ uavs, ∃ p, desiredOf desired item = some p)
    (hpeople : ∀ user ∈ people, WellTypedEntity user) :
    ∃ association, associate uavs desired people = some association := by
  obtain ⟨entries, hentries⟩ : ∃ entries, (people.mapM fun user => do
      let owner ← nearest uavs (desiredOf desired) (← position user)
      return ((user.getD "id" .null).toText, ← owner.get? "id")) = some entries := by
    apply List.exists_mapM_eq_some_iff.mpr
    intro user huser
    obtain ⟨p, hp⟩ := (hpeople user huser).position
    obtain ⟨owner, howner, hnearest⟩ := exists_nearest h hdesired p
    obtain ⟨id, hid⟩ := (huavs owner howner).id
    exact ⟨_, by rw [hp, Option.bind_eq_bind, Option.bind_some, hnearest, Option.bind_eq_bind,
      Option.bind_some, hid]; rfl⟩
  exact ⟨.ofList entries, by rw [associate, hentries]; rfl⟩

end

/-! ## What the planners read -/

section

variable {snapshot parameters : Dict String (Json F)} {uavs people : List (Dict String (Json F))}

/-- The centroid of points exists: its denominator is not zero. -/
theorem exists_centroid [LawfulPlanner F] (points : List (Vec3 F)) (weights : List F) :
    ∃ p, centroid points weights = some p := by
  have hdiv : ∀ x y : F, PyText.truthy y = true → ∃ z, PyFloat.div x y = some z :=
    fun x y hy => Option.isSome_iff_exists.mp (LawfulPlanner.div_isSome x y hy)
  unfold centroid
  split
  · exact ⟨origin, rfl⟩
  · dsimp only
    generalize (if weights.isEmpty then points.map fun _ => 1.0 else weights) = w
    have htotal : PyText.truthy
        (if PyText.truthy (PyFloat.sum w) then PyFloat.sum w else 1.0 : F) = true := by
      split
      · assumption
      · exact LawfulPlanner.truthy_one
    obtain ⟨x, hx⟩ := hdiv
      (PyFloat.sum (w.zipWith (fun weight point => weight * point.x) points)) _ htotal
    obtain ⟨y, hy⟩ := hdiv
      (PyFloat.sum (w.zipWith (fun weight point => weight * point.y) points)) _ htotal
    obtain ⟨z, hz⟩ := hdiv
      (PyFloat.sum (w.zipWith (fun weight point => weight * point.z) points)) _ htotal
    exact ⟨⟨x, y, z⟩, by rw [hx, hy, hz]; rfl⟩

/-- The origin of a formation: the first ground entity has a position. -/
theorem WellTyped.exists_station (h : WellTyped snapshot parameters) :
    ∃ entity start, station snapshot = some entity ∧ position entity = some start := by
  obtain ⟨items, hitems, hentities⟩ := h.ground
  unfold station
  cases hget : snapshot.get? "ground_entities" with
  | none =>
      rw [Dict.getD, hget]
      exact ⟨.empty, origin, rfl, rfl⟩
  | some ground =>
      have hground : ground = .arr items := by
        rw [Dict.getD, hget] at hitems
        exact hitems
      subst hground
      rw [Dict.getD, hget, Option.getD_some]
      cases items with
      | nil => exact ⟨.empty, origin, rfl, rfl⟩
      | cons item items =>
          obtain ⟨entity, hentity, htyped⟩ := hentities item List.mem_cons_self
          obtain ⟨start, hstart⟩ := htyped.position
          exact ⟨entity, start, hentity, hstart⟩

/-- The users. -/
theorem WellTyped.exists_users (h : WellTyped snapshot parameters) :
    ∃ people, users snapshot = some people ∧ ∀ user ∈ people, WellTypedEntity user := by
  obtain ⟨items, hitems, hentities⟩ := h.ground
  have hread : ∀ item ∈ items, ∃ kept, userOf item = some kept ∧
      ∀ user ∈ kept, WellTypedEntity user := by
    intro item hitem
    obtain ⟨entity, hentity, htyped⟩ := hentities item hitem
    simp only [userOf, hentity, htyped.type, Bool.not_true, Bool.false_eq_true, if_false]
    split
    · exact ⟨[], rfl, fun user huser => absurd huser List.not_mem_nil⟩
    · exact ⟨[entity], rfl, fun user huser => List.mem_singleton.mp huser ▸ htyped⟩
  obtain ⟨kept, hkept⟩ := List.exists_mapM_eq_some_iff.mpr fun item hitem =>
    (hread item hitem).imp fun _ hkept => hkept.1
  refine ⟨kept.flatten, ?_, ?_⟩
  · rw [users, hitems]
    simp only [Json.elements?, hkept, Option.bind_eq_bind, Option.bind_some, pure]
  · intro user huser
    obtain ⟨group, hgroup, huser⟩ := List.mem_flatten.mp huser
    obtain ⟨item, hitem, hfound⟩ := (List.mem_mapM_iff hkept).mp hgroup
    obtain ⟨group', hgroup', htyped⟩ := hread item hitem
    obtain rfl := Option.some.inj (hfound.symm.trans hgroup')
    exact htyped user huser

/-- The fields of the active UAVs. -/
theorem WellTyped.typed_uavs (h : WellTyped snapshot parameters)
    (huavs : activeUavs snapshot = some uavs) : ∀ item ∈ uavs, WellTypedUav item := by
  obtain ⟨uavs', huavs', htyped⟩ := h.uavs
  obtain rfl := Option.some.inj (huavs.symm.trans huavs')
  exact htyped

/-- The fields of the users. -/
theorem WellTyped.typed_users (h : WellTyped snapshot parameters)
    (hpeople : users snapshot = some people) : ∀ user ∈ people, WellTypedEntity user := by
  obtain ⟨people', hpeople', hentities⟩ := h.exists_users
  obtain rfl := Option.some.inj (hpeople.symm.trans hpeople')
  exact hentities

omit [PyPlanner F] in
/-- The relays are among the active UAVs. -/
theorem exists_relays (huavs : activeUavs snapshot = some uavs) :
    ∃ relays, relaysOf snapshot = some relays ∧ ∀ item ∈ relays, item ∈ uavs := by
  refine ⟨_, by rw [relaysOf, huavs]; rfl, fun item hitem => ?_⟩
  exact (List.mem_filter.mp hitem).1

/-- The margins of the links. -/
theorem WellTyped.exists_linkMargins (h : WellTyped snapshot parameters) :
    ∃ margins, linkMargins snapshot = some margins := by
  obtain ⟨items, hitems, hlinks⟩ := h.links
  have hread : ∀ item ∈ items, ∃ kept, linkMargin item = some kept := by
    intro item hitem
    unfold linkMargin
    cases hdict : item.dict? with
    | none => exact ⟨[], rfl⟩
    | some link =>
        have hnumbers := hlinks item hitem link hdict
        obtain ⟨range, hrange⟩ := hnumbers.exists_getFloat "range_margin_m" 1e9 (by simp)
        obtain ⟨snr, hsnr⟩ := hnumbers.exists_getFloat "snr_margin_db" 1e9 (by simp)
        obtain ⟨capacity, hcapacity⟩ :=
          hnumbers.exists_getFloat "capacity_margin_mbps" 1e9 (by simp)
        exact ⟨_, by simp only [hrange, hsnr, hcapacity]; rfl⟩
  obtain ⟨margins, hmargins⟩ := List.exists_mapM_eq_some_iff.mpr hread
  refine ⟨.ofList margins.flatten, ?_⟩
  rw [linkMargins, hitems]
  simp only [Json.elements?, hmargins, Option.bind_eq_bind, Option.bind_some, pure]

/-! ## Survival -/

/-- A planner returns a plan, and only for UAVs that are active and have not failed. -/
def Survives (snapshot : Dict String (Json F)) (planned : Option (Plan F)) : Prop :=
  ∃ plan uavs, planned = some plan ∧ activeUavs snapshot = some uavs ∧
    ∀ id ∈ plan.desiredPositions.keys, ∃ item ∈ uavs, uavId item = some id

/-- No square of a displacement is too large when the relays are sent to a formation, which happens
without users. -/
def FormationInRange (snapshot parameters : Dict String (Json F)) : Prop :=
  users snapshot = some [] → ∀ relays gains entity start, relaysOf snapshot = some relays →
    formationGains parameters = some gains → station snapshot = some entity →
    position entity = some start → ∀ e ∈ relays.zipIdx, ∀ current, position e.1 = some current →
      ∃ length, norm (sub (formationTarget start gains e.2) current) = some length

/-- No square of a distance is too large in the cells of the UAVs. -/
def CoverageInRange (uniform : ℤ → ℕ → F → F → F) (snapshot parameters : Dict String (Json F)) :
    Prop :=
  ∀ uavs demand cells gain altitude, activeUavs snapshot = some uavs →
    demandOf uniform snapshot parameters = some demand →
    assign uavs position demand = some cells → parameters.getFloat "lloyd_gain" 0.5 = some gain →
    parameters.getFloat "altitude_m" 35.0 = some altitude → ∀ uav ∈ uavs, ∀ id items moved,
      uavId uav = some id → cells.get? id = some items →
      lloydMove (share gain) altitude items uav = some moved →
      ∀ item ∈ items, ∀ p, position item = some p →
        ∃ square, PyPlanner.square (moved.dist p) = some square

omit [PyPlanner F] in
/-- What a loop over entities collects for UAVs under their identifiers is for these UAVs. -/
theorem commands_of_mapM {α β γ : Type} {l : List α} {f : α → Option (String × β)}
    {rows : List (String × β)} (item : α → Dict String (Json F)) (g : String × β → γ)
    (h : l.mapM f = some rows) (hname : ∀ a row, f a = some row → uavId (item a) = some row.1)
    (hmem : ∀ a ∈ l, item a ∈ uavs) :
    ∀ id ∈ (Dict.ofList (rows.map fun row => (row.1, g row))).keys,
      ∃ uav ∈ uavs, uavId uav = some id := by
  intro id hid
  obtain ⟨a, ha, hkey⟩ := (mem_keys_of_mapM _ _ _ h hname _).mp hid
  exact ⟨item a, hmem a ha, hkey⟩

/-- The identifier under which a relay of a chain is sent. -/
theorem uavId_of_chainStep {start : Vec3 F} {spacing altitude direction : F}
    {item : Dict String (Json F)} {index : ℕ} {row : String × Vec3 F}
    (h : chainStep start spacing altitude direction item index = some row) :
    uavId item = some row.1 := by
  obtain ⟨id, hid, h⟩ := Option.bind_eq_some_iff.mp h
  obtain ⟨cos, -, h⟩ := Option.bind_eq_some_iff.mp h
  obtain ⟨sin, -, h⟩ := Option.bind_eq_some_iff.mp h
  rw [hid, ← Option.some.inj h]

/-- A chain is planned for the relays. -/
theorem survives_chain [LawfulPlanner F] (h : WellTyped snapshot parameters) (altitude : F) :
    Survives snapshot (researcherChainSpacing snapshot (.ofList [
      ("spacing_m", parameters.getD "spacing_m" (.float 30.0)),
      ("altitude_m", .float altitude)])) := by
  obtain ⟨uavs, huavs, htyped⟩ := h.uavs
  obtain ⟨relays, hrelays, hmem⟩ := exists_relays huavs
  obtain ⟨entity, start, hentity, hstart⟩ := h.exists_station
  obtain ⟨spacing, hspacing⟩ := h.numbers.exists_getFloat "spacing_m" 30.0 (by decide)
  obtain ⟨cos, hcos⟩ := Option.isSome_iff_exists.mp (LawfulPlanner.cos_isSome (F := F))
  obtain ⟨sin, hsin⟩ := Option.isSome_iff_exists.mp (LawfulPlanner.sin_isSome (F := F))
  have hrelay : ∀ e ∈ relays.zipIdx, e.1 ∈ uavs := fun e he =>
    hmem e.1 (List.fst_mem_of_mem_zipIdx he)
  obtain ⟨desired, hdesired⟩ : ∃ desired, relays.zipIdx.mapM (fun e =>
      chainStep start spacing altitude (PyTrig.radians 0.0) e.1 e.2) = some desired := by
    apply List.exists_mapM_eq_some_iff.mpr
    intro e he
    obtain ⟨id, hid⟩ := (htyped e.1 (hrelay e he)).exists_uavId
    exact ⟨_, by simp only [chainStep, hid, hcos, hsin]; rfl⟩
  have hcommands := commands_of_mapM Prod.fst Prod.snd hdesired (fun _ _ => uavId_of_chainStep)
    hrelay
  rw [List.map_id'] at hcommands
  -- the parameters that the chain is given
  have hgiven : (Dict.ofList [("spacing_m", parameters.getD "spacing_m" (.float 30.0)),
      ("altitude_m", .float altitude)]).getFloat "spacing_m" 28.0 = some spacing := hspacing
  have haltitude : (Dict.ofList [("spacing_m", parameters.getD "spacing_m" (.float 30.0)),
      ("altitude_m", .float altitude)]).getFloat "altitude_m" 30.0 = some altitude := rfl
  have hdirection : (Dict.ofList [("spacing_m", parameters.getD "spacing_m" (.float 30.0)),
      ("altitude_m", .float altitude)]).getFloat "direction_deg" 0.0 = some 0.0 := rfl
  simp only [researcherChainSpacing, hgiven, haltitude, hdirection, hentity, hstart, hrelays,
    hdesired, Option.bind_eq_bind, Option.bind_some]
  exact ⟨_, uavs, rfl, huavs, hcommands⟩

/-- The gains of the formation. -/
theorem WellTyped.exists_formationGains (h : WellTyped snapshot parameters) :
    ∃ gains, formationGains parameters = some gains := by
  obtain ⟨spacing, hspacing⟩ := h.numbers.exists_getFloat "spacing_m" 28.0 (by decide)
  obtain ⟨altitude, haltitude⟩ := h.numbers.exists_getFloat "altitude_m" 30.0 (by decide)
  obtain ⟨connectivity, hconnectivity⟩ :=
    h.numbers.exists_getFloat "connectivity_weight" 2.0 (by decide)
  obtain ⟨formation, hformation⟩ := h.numbers.exists_getFloat "formation_weight" 1.0 (by decide)
  obtain ⟨energy, henergy⟩ := h.numbers.exists_getFloat "energy_weight" 0.2 (by decide)
  simp only [formationGains, hspacing, haltitude, hconnectivity, hformation, henergy]
  exact ⟨_, rfl⟩

/-- The identifier under which a relay of a formation is sent. -/
theorem uavId_of_formationStep {relays : List (Dict String (Json F))} {start : Vec3 F}
    {margins : Dict String F} {gains : FormationGains F} {item : Dict String (Json F)} {index : ℕ}
    {row : String × Vec3 F × F}
    (h : formationStep relays start margins gains item index = some row) :
    uavId item = some row.1 := by
  simp only [formationStep, bind, Option.bind_eq_some_iff] at h
  obtain ⟨current, -, soc, -, battery, -, predecessor, -, id, hid, length, -, h⟩ := h
  rw [hid, ← Option.some.inj h]

/-- A relay of a formation is sent somewhere exactly if the square of its displacement exists. -/
theorem exists_formationStep_iff [LawfulPlanner F] {relays : List (Dict String (Json F))}
    {start : Vec3 F} {margins : Dict String F} {gains : FormationGains F}
    (htyped : ∀ item ∈ relays, WellTypedUav item) {e : Dict String (Json F) × ℕ}
    (he : e ∈ relays.zipIdx) :
    (∃ row, formationStep relays start margins gains e.1 e.2 = some row) ↔
      ∀ current, position e.1 = some current →
        ∃ length, norm (sub (formationTarget start gains e.2) current) = some length := by
  obtain ⟨item, index⟩ := e
  have hitem := htyped item (List.fst_mem_of_mem_zipIdx he)
  obtain ⟨current, hcurrent⟩ := hitem.position
  obtain ⟨soc, hsoc⟩ := hitem.numbers.exists_getFloat "battery_soc_pct" 100.0 (by simp)
  obtain ⟨battery, hbattery⟩ := Option.isSome_iff_exists.mp
    (LawfulPlanner.div_isSome soc 100.0 LawfulPlanner.truthy_hundred)
  obtain ⟨id, hid⟩ := hitem.exists_uavId
  -- the predecessor of the first relay is the station, of any other one the relay before it
  obtain ⟨predecessor, hpredecessor⟩ : ∃ predecessor, predecessorOf relays index =
      some predecessor := by
    cases index with
    | zero => exact ⟨"station", rfl⟩
    | succ previous =>
        have hbound : previous < relays.length := by
          have := List.snd_lt_of_mem_zipIdx he
          omega
        obtain ⟨id, hid⟩ := (htyped relays[previous] (List.getElem_mem hbound)).exists_uavId
        exact ⟨id, by rw [predecessorOf, List.getElem?_eq_getElem hbound]; exact hid⟩
  simp only [formationStep, hcurrent, hsoc, hbattery, hid, hpredecessor, Option.bind_eq_bind,
    Option.bind_some, Option.some.injEq, forall_eq']
  constructor
  · rintro ⟨row, hrow⟩
    obtain ⟨length, hlength, -⟩ := Option.bind_eq_some_iff.mp hrow
    exact ⟨length, hlength⟩
  · rintro ⟨length, hlength⟩
    rw [hlength]
    exact ⟨_, rfl⟩

/-- The target of a well-typed UAV exists. -/
theorem exists_targetOf [LawfulPlanner F] {item : Dict String (Json F)} (h : WellTypedUav item)
    (points : List (Vec3 F)) (weights : List F) :
    ∃ target, targetOf points weights item = some target := by
  unfold targetOf
  split
  · exact h.position
  · exact exists_centroid points weights

omit [PyText F] [PyPlanner F] in
/-- A loop over something collects something. -/
theorem ne_nil_of_mapM {α β : Type} {l : List α} {f : α → Option β} {rows : List β}
    (h : l.mapM f = some rows) (hne : l ≠ []) : rows ≠ [] := by
  obtain ⟨a, rest, rfl⟩ := List.exists_cons_of_ne_nil hne
  obtain ⟨row, hrow⟩ := List.exists_mapM_eq_some_iff.mp ⟨rows, h⟩ a List.mem_cons_self
  exact List.ne_nil_of_mem ((List.mem_mapM_iff h).mpr ⟨a, List.mem_cons_self, hrow⟩)

/-- Without users, a formation is planned exactly if the squares of the displacements exist. -/
theorem survives_formation_iff [LawfulPlanner F] (h : WellTyped snapshot parameters)
    (hpeople : users snapshot = some []) :
    Survives snapshot (connectivityAwareFormation snapshot parameters) ↔
      FormationInRange snapshot parameters := by
  obtain ⟨uavs, huavs, htyped⟩ := h.uavs
  obtain ⟨relays, hrelays, hmem⟩ := exists_relays huavs
  obtain ⟨entity, start, hentity, hstart⟩ := h.exists_station
  obtain ⟨gains, hgains⟩ := h.exists_formationGains
  obtain ⟨margins, hmargins⟩ := h.exists_linkMargins
  have hrelay : ∀ item ∈ relays, WellTypedUav item := fun item hitem =>
    htyped item (hmem item hitem)
  -- the condition speaks about what is read, which is given here
  have hrange : FormationInRange snapshot parameters ↔ ∀ e ∈ relays.zipIdx, ∀ current,
      position e.1 = some current →
        ∃ length, norm (sub (formationTarget start gains e.2) current) = some length := by
    constructor
    · intro hformation
      exact hformation hpeople relays gains entity start hrelays hgains hentity hstart
    · intro hlengths _ relays' gains' entity' start' hrelays' hgains' hentity' hstart'
      obtain rfl := Option.some.inj (hrelays.symm.trans hrelays')
      obtain rfl := Option.some.inj (hgains.symm.trans hgains')
      obtain rfl := Option.some.inj (hentity.symm.trans hentity')
      obtain rfl := Option.some.inj (hstart.symm.trans hstart')
      exact hlengths
  have hsteps : (∃ steps, relays.zipIdx.mapM (fun e =>
      formationStep relays start margins gains e.1 e.2) = some steps) ↔
        FormationInRange snapshot parameters := by
    rw [List.exists_mapM_eq_some_iff, hrange]
    exact forall₂_congr fun e he => exists_formationStep_iff hrelay he
  rw [← hsteps]
  simp only [connectivityAwareFormation, hrelays, hgains, hentity, hstart, hmargins,
    Option.bind_eq_bind, Option.bind_some]
  constructor
  · rintro ⟨plan, _, hplan, -⟩
    obtain ⟨steps, hsteps, -⟩ := Option.bind_eq_some_iff.mp hplan
    exact ⟨steps, hsteps⟩
  · rintro ⟨steps, hsteps⟩
    rw [hsteps]
    exact ⟨_, uavs, rfl, huavs, commands_of_mapM Prod.fst (fun step => step.2.1) hsteps
      (fun _ _ => uavId_of_formationStep) fun e he => hmem e.1 (List.fst_mem_of_mem_zipIdx he)⟩

/-- The identifier under which a UAV is sent to its users. -/
theorem uavId_of_learnMove {assignments : Dict String (List (Vec3 F))} {altitude rate : F}
    {item : Dict String (Json F)} {row : String × Vec3 F}
    (h : learnMove assignments altitude rate item = some row) : uavId item = some row.1 := by
  simp only [learnMove, bind, Option.bind_eq_some_iff] at h
  obtain ⟨id, hid, owned, -, target, -, current, -, h⟩ := h
  rw [hid, ← Option.some.inj h]

/-- Users are served exactly if there is somebody who can. -/
theorem survives_learn_iff [LawfulPlanner F] (h : WellTyped snapshot parameters)
    (huavs : activeUavs snapshot = some uavs) (hpeople : users snapshot = some people) :
    Survives snapshot (learnAsYouFly snapshot parameters) ↔ uavs ≠ [] ∨ people = [] := by
  obtain ⟨altitude, haltitude⟩ := h.numbers.exists_getFloat "altitude_m" 45.0 (by decide)
  obtain ⟨rate, hrate⟩ := h.numbers.exists_getFloat "learning_rate" 0.35 (by decide)
  have htyped := h.typed_uavs huavs
  have hentities := h.typed_users hpeople
  by_cases hempty : people = []
  · subst hempty
    have hchain := survives_chain h altitude
    simpa [learnAsYouFly, huavs, hpeople, haltitude, hrate] using hchain
  obtain ⟨points, hpoints⟩ := List.exists_mapM_eq_some_iff.mpr fun user huser =>
    (hentities user huser).position
  have hnone : points ≠ [] := ne_nil_of_mapM hpoints hempty
  simp only [learnAsYouFly, huavs, hpeople, haltitude, hrate, hpoints, List.isEmpty_iff, hempty,
    if_false, Option.bind_eq_bind, Option.bind_some, or_false]
  constructor
  · -- nobody is nearest to a user
    rintro ⟨plan, _, hplan, -⟩ rfl
    rw [assign_nil _ hnone] at hplan
    cases hplan
  · intro hsome
    obtain ⟨assignments, hassignments, hcells, -⟩ := exists_assign some points (.inl hsome) htyped
      fun point _ => ⟨point, rfl⟩
    obtain ⟨moves, hmoves⟩ : ∃ moves, uavs.mapM (learnMove assignments altitude (share rate)) =
        some moves := by
      apply List.exists_mapM_eq_some_iff.mpr
      intro item hitem
      obtain ⟨id, hid⟩ := (htyped item hitem).exists_uavId
      obtain ⟨owned, howned⟩ := Dict.mem_keys_iff.mp (hcells item hitem id hid)
      obtain ⟨current, hcurrent⟩ := (htyped item hitem).position
      obtain ⟨target, htarget⟩ := exists_targetOf (htyped item hitem) owned []
      simp only [learnMove, hid, howned, htarget, hcurrent, Option.bind_eq_bind, Option.bind_some]
      exact ⟨_, rfl⟩
    -- every UAV has been moved, so its new position is known
    have hkeys : ∀ item ∈ uavs, ∃ p, desiredOf (.ofList moves) item = some p := by
      intro item hitem
      obtain ⟨id, hid⟩ := (htyped item hitem).exists_uavId
      have hkey := (mem_keys_of_mapM uavId Prod.fst Prod.snd hmoves
        (fun _ _ => uavId_of_learnMove) id).mpr ⟨item, hitem, hid⟩
      rw [List.map_id'] at hkey
      obtain ⟨p, hp⟩ := Dict.mem_keys_iff.mp hkey
      exact ⟨p, by rw [desiredOf, hid]; exact hp⟩
    -- every user has a nearest UAV, and every UAV is moved by some length
    obtain ⟨association, hassociation⟩ := exists_associate hsome htyped hkeys hentities
    obtain ⟨lengths, hlengths⟩ : ∃ lengths, uavs.mapM (moveLength (.ofList moves)) =
        some lengths := by
      apply List.exists_mapM_eq_some_iff.mpr
      intro item hitem
      obtain ⟨p, hp⟩ := hkeys item hitem
      obtain ⟨q, hq⟩ := (htyped item hitem).position
      exact ⟨p.dist q, by rw [moveLength, hp, hq]; rfl⟩
    have hcommands := commands_of_mapM id Prod.snd hmoves (fun _ _ => uavId_of_learnMove)
      fun item hitem => hitem
    rw [List.map_id'] at hcommands
    simp only [hassignments, hmoves, hassociation, hlengths, Option.bind_some]
    exact ⟨_, uavs, rfl, huavs, hcommands⟩

/-- The identifier under which one of several UAVs is sent to a user. -/
theorem uavId_of_jointMove {count index : ℕ} {target : Vec3 F} {step altitude : F}
    {uav : Dict String (Json F)} {row : String × Vec3 F × F}
    (h : jointMove parameters count target step altitude uav index = some row) :
    uavId uav = some row.1 := by
  simp only [jointMove, bind, Option.bind_eq_some_iff] at h
  obtain ⟨current, -, middle, -, spacing, -, id, hid, maximum, -, base, -, fairness, -, h⟩ := h
  rw [hid, ← Option.some.inj h]

/-- What the users get can be read, and one of them gets least. -/
theorem exists_targetUser (hpeople : ∀ user ∈ people, WellTypedEntity user) (hne : people ≠ []) :
    ∃ throughput targetUser, throughputs people = some throughput ∧ targetUser ∈ people ∧
      minKey (fun user => throughput.get? (user.getD "id" .null).toText) people =
        some targetUser := by
  obtain ⟨entries, hentries⟩ : ∃ entries, (people.mapM fun user => do
      return ((user.getD "id" .null).toText,
        ← user.getFloatOr "throughput_mbps" "demand_mbps" 1.0)) = some entries := by
    apply List.exists_mapM_eq_some_iff.mpr
    intro user huser
    obtain ⟨x, hx⟩ : ∃ x, user.getFloatOr "throughput_mbps" "demand_mbps" 1.0 = some x := by
      have hnumbers := (hpeople user huser).numbers
      unfold Dict.getFloatOr Dict.getD
      cases hthroughput : user.get? "throughput_mbps" with
      | some value => exact hnumbers "throughput_mbps" (by simp) value hthroughput
      | none => exact hnumbers.exists_getFloat "demand_mbps" 1.0 (by simp)
    exact ⟨_, by rw [hx]; rfl⟩
  -- the table has an entry for every user, under the id that the key function looks up
  have hkeys : ∀ user ∈ people, ∃ x,
      (Dict.ofList entries).get? (user.getD "id" .null).toText = some x := by
    intro user huser
    apply Dict.mem_keys_iff.mp
    have hkey := (mem_keys_of_mapM (fun user => some (user.getD "id" .null).toText)
      Prod.fst Prod.snd hentries (fun user row hrow => by
        obtain ⟨x, -, hrow⟩ := Option.bind_eq_some_iff.mp hrow
        rw [← Option.some.inj hrow]) _).mpr ⟨user, huser, rfl⟩
    rwa [List.map_id'] at hkey
  obtain ⟨targetUser, huser, htarget⟩ := exists_minKey hne hkeys
  exact ⟨.ofList entries, targetUser, by rw [throughputs, hentries]; rfl, huser, htarget⟩

/-- Users are flown to exactly if there is somebody who can; without users, the
formation decides. -/
theorem survives_joint_iff [LawfulPlanner F] (h : WellTyped snapshot parameters)
    (huavs : activeUavs snapshot = some uavs) (hpeople : users snapshot = some people) :
    Survives snapshot (jointTrajectoryCommunication snapshot parameters) ↔
      (uavs ≠ [] ∨ people = []) ∧ FormationInRange snapshot parameters := by
  obtain ⟨altitude, haltitude⟩ := h.numbers.exists_getFloat "altitude_m" 50.0 (by decide)
  obtain ⟨step, hstep⟩ := h.numbers.exists_getFloat "step_size" 0.25 (by decide)
  have htyped := h.typed_uavs huavs
  have hentities := h.typed_users hpeople
  by_cases hempty : people = []
  · subst hempty
    have hformation := survives_formation_iff h hpeople
    simpa [jointTrajectoryCommunication, huavs, hpeople, haltitude, hstep] using hformation
  have hrange : FormationInRange snapshot parameters := fun hnone =>
    absurd (Option.some.inj (hpeople.symm.trans hnone)) hempty
  obtain ⟨throughput, targetUser, hthroughput, huser, htargetUser⟩ :=
    exists_targetUser hentities hempty
  obtain ⟨target, htarget⟩ := (hentities targetUser huser).position
  obtain ⟨spacing, hspacing⟩ := h.numbers.exists_getFloat "spacing_m" 20.0 (by decide)
  obtain ⟨maximum, hmaximum⟩ := h.numbers.exists_getFloat "max_tx_power_dbm" 30.0 (by decide)
  obtain ⟨base, hbase⟩ := h.numbers.exists_getFloat "base_tx_power_dbm" 23.0 (by decide)
  obtain ⟨fairness, hfairness⟩ := h.numbers.exists_getFloat "fairness_gain_db" 2.0 (by decide)
  obtain ⟨moves, hmoves⟩ : ∃ moves, uavs.zipIdx.mapM (fun e =>
      jointMove parameters uavs.length target (share step) altitude e.1 e.2) = some moves := by
    apply List.exists_mapM_eq_some_iff.mpr
    intro e he
    have hitem := htyped e.1 (List.fst_mem_of_mem_zipIdx he)
    obtain ⟨current, hcurrent⟩ := hitem.position
    obtain ⟨id, hid⟩ := hitem.exists_uavId
    obtain ⟨middle, hmiddle⟩ := Option.isSome_iff_exists.mp (LawfulPlanner.div_isSome
      (PyFloat.ofCount (uavs.length - 1) : F) 2.0 LawfulPlanner.truthy_two)
    simp only [jointMove, hcurrent, hid, hmiddle, hspacing, hmaximum, hbase, hfairness,
      Option.bind_eq_bind, Option.bind_some]
    exact ⟨_, rfl⟩
  have hcommands := commands_of_mapM Prod.fst (fun move => move.2.1) hmoves
    (fun _ _ => uavId_of_jointMove) fun e he => List.fst_mem_of_mem_zipIdx he
  simp only [jointTrajectoryCommunication, huavs, hpeople, haltitude, hstep, hthroughput,
    htargetUser, htarget, hmoves, List.isEmpty_iff, hempty, if_false, Option.bind_eq_bind,
    Option.bind_some, or_false, hrange, and_true]
  constructor
  · rintro ⟨plan, _, hplan, -⟩ rfl
    -- no UAV is nearest to the first user
    obtain ⟨user, rest, rfl⟩ := List.exists_cons_of_ne_nil hempty
    obtain ⟨p, hp⟩ := (hentities user List.mem_cons_self).position
    have hnone : associate [] (.ofList (moves.map fun move => (move.1, move.2.1))) (user :: rest) =
        none := by
      simp only [associate, List.mapM_cons, hp, nearest, minKey_nil, Option.bind_eq_bind,
        Option.bind_some, Option.bind_none]
    rw [hnone] at hplan
    cases hplan
  · intro hsome
    have hkeys : ∀ item ∈ uavs, ∃ p,
        desiredOf (.ofList (moves.map fun move => (move.1, move.2.1))) item = some p := by
      intro item hitem
      obtain ⟨id, hid⟩ := (htyped item hitem).exists_uavId
      obtain ⟨index, hindex⟩ := List.mem_iff_getElem?.mp hitem
      have hkey := (mem_keys_of_mapM (fun e => uavId e.1) Prod.fst (fun move => move.2.1) hmoves
        (fun _ _ => uavId_of_jointMove) id).mpr
          ⟨(item, index), List.mk_mem_zipIdx_iff_getElem?.mpr hindex, hid⟩
      obtain ⟨p, hp⟩ := Dict.mem_keys_iff.mp hkey
      exact ⟨p, by rw [desiredOf, hid]; exact hp⟩
    obtain ⟨association, hassociation⟩ := exists_associate hsome htyped hkeys hentities
    rw [hassociation]
    exact ⟨_, uavs, rfl, huavs, hcommands⟩

/-- The identifier under which a UAV is sent to its cell. -/
theorem uavId_of_coverCell {cells : Dict String (List (Dict String (Json F)))} {gain altitude : F}
    {uav : Dict String (Json F)} {row : String × Vec3 F × F}
    (h : coverCell cells gain altitude uav = some row) : uavId uav = some row.1 := by
  simp only [coverCell, bind, Option.bind_eq_some_iff] at h
  obtain ⟨id, hid, items, -, moved, -, cost, -, h⟩ := h
  rw [hid, ← Option.some.inj h]

/-- A cell has a cost exactly if the squares of its distances exist. -/
theorem exists_cellCost_iff (moved : Vec3 F) {items : List (Dict String (Json F))}
    (hitems : ∀ item ∈ items, WellTypedEntity item) :
    (∃ cost, cellCost moved items = some cost) ↔ ∀ item ∈ items, ∀ p, position item = some p →
      ∃ square, PyPlanner.square (moved.dist p) = some square := by
  have hcosts : (∃ cost, cellCost moved items = some cost) ↔
      ∃ costs, (items.mapM fun item => do
        return (← item.getFloat "weight" 1.0) *
          (← PyPlanner.square (moved.dist (← position item)))) = some costs := by
    unfold cellCost
    constructor
    · rintro ⟨cost, hcost⟩
      obtain ⟨costs, hcosts, -⟩ := Option.bind_eq_some_iff.mp hcost
      exact ⟨costs, hcosts⟩
    · rintro ⟨costs, hcosts⟩
      exact ⟨PyFloat.sum costs, by rw [hcosts]; rfl⟩
  rw [hcosts, List.exists_mapM_eq_some_iff]
  -- weight and position can be read, so only the square may overflow
  refine forall₂_congr fun item hitem => ?_
  obtain ⟨p, hp⟩ := (hitems item hitem).position
  obtain ⟨weight, hweight⟩ := (hitems item hitem).numbers.exists_getFloat "weight" 1.0 (by simp)
  simp only [hp, hweight, Option.bind_eq_bind, Option.bind_some, Option.some.injEq, forall_eq']
  constructor
  · rintro ⟨cost, hcost⟩
    obtain ⟨square, hsquare, -⟩ := Option.bind_eq_some_iff.mp hcost
    exact ⟨square, hsquare⟩
  · rintro ⟨square, hsquare⟩
    rw [hsquare]
    exact ⟨_, rfl⟩

/-- A UAV is sent somewhere for its cell. -/
theorem exists_lloydMove [LawfulPlanner F] {items : List (Dict String (Json F))}
    {uav : Dict String (Json F)} (huav : WellTypedUav uav)
    (hitems : ∀ item ∈ items, WellTypedEntity item) (gain altitude : F) :
    ∃ moved, lloydMove gain altitude items uav = some moved := by
  obtain ⟨points, hpoints⟩ := List.exists_mapM_eq_some_iff.mpr fun item hitem =>
    (hitems item hitem).position
  obtain ⟨weights, hweights⟩ : ∃ weights, (items.mapM fun item => item.getFloat "weight" 1.0) =
      some weights := List.exists_mapM_eq_some_iff.mpr fun item hitem =>
    (hitems item hitem).numbers.exists_getFloat "weight" 1.0 (by simp)
  obtain ⟨target, htarget⟩ := exists_targetOf huav points weights
  obtain ⟨current, hcurrent⟩ := huav.position
  simp only [lloydMove, hpoints, hweights, htarget, hcurrent, Option.bind_eq_bind, Option.bind_some]
  exact ⟨_, rfl⟩

/-- The points that want to be covered are covered exactly if there is somebody who can, and the
squares of the distances exist. -/
theorem survives_voronoi_iff [LawfulPlanner F] {uniform : ℤ → ℕ → F → F → F}
    {demand : List (Dict String (Json F))} (h : WellTyped snapshot parameters)
    (huavs : activeUavs snapshot = some uavs)
    (hdemand : demandOf uniform snapshot parameters = some demand)
    (hentities : ∀ point ∈ demand, WellTypedEntity point) :
    Survives snapshot (voronoiCoverage uniform snapshot parameters) ↔
      (uavs ≠ [] ∨ demand = []) ∧ CoverageInRange uniform snapshot parameters := by
  obtain ⟨gain, hgain⟩ := h.numbers.exists_getFloat "lloyd_gain" 0.5 (by decide)
  obtain ⟨altitude, haltitude⟩ := h.numbers.exists_getFloat "altitude_m" 35.0 (by decide)
  have htyped := h.typed_uavs huavs
  simp only [voronoiCoverage, huavs, hdemand, hgain, haltitude, Option.bind_eq_bind,
    Option.bind_some]
  by_cases hserved : uavs ≠ [] ∨ demand = []
  · obtain ⟨cells, hcells, hkeys, helements⟩ := exists_assign position demand hserved htyped
      fun point hpoint => (hentities point hpoint).position
    simp only [hcells, Option.bind_some, hserved, true_and]
    -- a cell is left out of the plan only if a square is too large
    have hcover : ∀ uav ∈ uavs, (∃ row, coverCell cells (share gain) altitude uav = some row) ↔
        ∀ id items moved, uavId uav = some id → cells.get? id = some items →
          lloydMove (share gain) altitude items uav = some moved →
          ∀ item ∈ items, ∀ p, position item = some p →
            ∃ square, PyPlanner.square (moved.dist p) = some square := by
      intro uav huav
      obtain ⟨id, hid⟩ := (htyped uav huav).exists_uavId
      obtain ⟨items, hitems⟩ := Dict.mem_keys_iff.mp (hkeys uav huav id hid)
      have hcell : ∀ item ∈ items, WellTypedEntity item := fun item hitem =>
        hentities item (helements id items hitems item hitem)
      obtain ⟨moved, hmoved⟩ := exists_lloydMove (htyped uav huav) hcell (share gain) altitude
      have hcost := exists_cellCost_iff moved hcell
      constructor
      · rintro ⟨row, hrow⟩ id' items' moved' hid' hitems' hmoved'
        obtain rfl := Option.some.inj (hid.symm.trans hid')
        obtain rfl := Option.some.inj (hitems.symm.trans hitems')
        obtain rfl := Option.some.inj (hmoved.symm.trans hmoved')
        simp only [coverCell, hid, hitems, hmoved, Option.bind_eq_bind, Option.bind_some] at hrow
        obtain ⟨cost, hcost', -⟩ := Option.bind_eq_some_iff.mp hrow
        exact hcost.mp ⟨cost, hcost'⟩
      · intro hsquares
        obtain ⟨cost, hcost'⟩ := hcost.mpr (hsquares id items moved hid hitems hmoved)
        simp only [coverCell, hid, hitems, hmoved, hcost', Option.bind_eq_bind, Option.bind_some]
        exact ⟨_, rfl⟩
    have hrange : CoverageInRange uniform snapshot parameters ↔
        ∃ moves, uavs.mapM (coverCell cells (share gain) altitude) = some moves := by
      rw [List.exists_mapM_eq_some_iff, forall₂_congr hcover]
      constructor
      · intro hrange uav huav
        exact hrange uavs demand cells gain altitude huavs hdemand hcells hgain haltitude uav huav
      · intro hsquares uavs' demand' cells' gain' altitude' huavs' hdemand' hcells' hgain'
          haltitude'
        obtain rfl := Option.some.inj (huavs.symm.trans huavs')
        obtain rfl := Option.some.inj (hdemand.symm.trans hdemand')
        obtain rfl := Option.some.inj (hcells.symm.trans hcells')
        obtain rfl := Option.some.inj (hgain.symm.trans hgain')
        obtain rfl := Option.some.inj (haltitude.symm.trans haltitude')
        exact hsquares
    rw [hrange]
    constructor
    · rintro ⟨plan, _, hplan, -⟩
      obtain ⟨moves, hmoves, -⟩ := Option.bind_eq_some_iff.mp hplan
      exact ⟨moves, hmoves⟩
    · rintro ⟨moves, hmoves⟩
      rw [hmoves]
      exact ⟨_, uavs, rfl, huavs, commands_of_mapM id (fun move => move.2.1) hmoves
        (fun _ _ => uavId_of_coverCell) fun uav huav => huav⟩
  · simp only [hserved, false_and, iff_false]
    rw [not_or, not_not] at hserved
    obtain ⟨rfl, hsome⟩ := hserved
    rintro ⟨plan, _, hplan, -⟩
    rw [assign_nil _ hsome] at hplan
    cases hplan

/-- A sample point is as well typed as an entity on the ground. -/
theorem typed_of_samplePoint {uniform : ℕ → F → F → F} {center : Json F} {length width : F} {i : ℕ}
    {point : Dict String (Json F)} (h : samplePoint uniform center length width i = some point) :
    WellTypedEntity point := by
  simp only [samplePoint, bind, Option.bind_eq_some_iff] at h
  obtain ⟨_, -, x, -, back, -, front, -, _, -, y, -, left, -, right, -, h⟩ := h
  obtain rfl := Option.some.inj h
  refine ⟨rfl, ⟨_, rfl⟩, ?_⟩
  intro key hkey value hvalue
  simp only [List.mem_cons, List.not_mem_nil, or_false] at hkey
  obtain rfl | rfl | rfl := hkey
  · cases hvalue
  · cases hvalue
  · cases hvalue
    exact ⟨1.0, rfl⟩

/-- The points that want to be covered: there are none exactly if there are neither users nor sample
points. -/
theorem WellTyped.exists_demand [LawfulPlanner F] (h : WellTyped snapshot parameters)
    (hpeople : users snapshot = some people) (uniform : ℤ → ℕ → F → F → F) :
    ∃ demand, demandOf uniform snapshot parameters = some demand ∧
      (∀ point ∈ demand, WellTypedEntity point) ∧
      (demand = [] ↔ people = [] ∧ ∀ count,
        (parameters.getD "sample_count" (.int 64)).toInt? = some count → count ≤ 0) := by
  have hentities := h.typed_users hpeople
  -- without users, points of the service region are sampled
  by_cases hempty : people = []
  · subst hempty
    obtain ⟨seed, hseed⟩ := h.seed
    obtain ⟨count, hcount⟩ := h.sampleCount
    obtain ⟨constraints, region, hconstraints, hregion, hnumbers, hcenter⟩ := h.region
    obtain ⟨length, hlength⟩ := hnumbers.exists_getFloat "length_m" 200.0 (by simp)
    obtain ⟨width, hwidth⟩ := hnumbers.exists_getFloat "width_m" 100.0 (by simp)
    obtain ⟨first, x, hfirst, hx⟩ := hcenter 0 (by omega)
    obtain ⟨second, y, hsecond, hy⟩ := hcenter 1 (by omega)
    have hhalf : ∀ z : F, ∃ half, PyFloat.div z 2.0 = some half := fun z =>
      Option.isSome_iff_exists.mp (LawfulPlanner.div_isSome z 2.0 LawfulPlanner.truthy_two)
    obtain ⟨points, hpoints⟩ : ∃ points, (List.range count.toNat).mapM (samplePoint (uniform seed)
        (region.getD "center" (.arr [.int 0, .int 0, .int 0])) length width) = some points := by
      apply List.exists_mapM_eq_some_iff.mpr
      intro i _
      obtain ⟨back, hback⟩ := hhalf (-length)
      obtain ⟨front, hfront⟩ := hhalf length
      obtain ⟨left, hleft⟩ := hhalf (-width)
      obtain ⟨right, hright⟩ := hhalf width
      simp only [samplePoint, hfirst, hx, hsecond, hy, hback, hfront, hleft, hright,
        Option.bind_eq_bind, Option.bind_some]
      exact ⟨_, rfl⟩
    refine ⟨points, ?_, ?_, ?_⟩
    · simpa [demandOf, hpeople, samplePoints, hseed, hcount, hconstraints, hregion, hlength,
        hwidth] using hpoints
    · intro point hpoint
      obtain ⟨i, -, hi⟩ := (List.mem_mapM_iff hpoints).mp hpoint
      exact typed_of_samplePoint hi
    · simp only [hcount, Option.some.injEq, forall_eq', true_and]
      constructor
      · intro hnil
        -- a sample of at least one point is not empty
        by_contra hpositive
        refine ne_nil_of_mapM hpoints (fun hrange => ?_) hnil
        rw [List.range_eq_nil] at hrange
        omega
      · intro hnonpos
        have hzero : count.toNat = 0 := by omega
        rw [hzero] at hpoints
        exact (Option.some.inj hpoints).symm
  · refine ⟨people, by simp [demandOf, hpeople, hempty], hentities, ?_⟩
    simp [hempty]

/-- There is a UAV that is active and has not failed, or nobody to serve: no users, and no sample
points either. -/
def Staffed (snapshot parameters : Dict String (Json F)) : Prop :=
  (∃ uavs, activeUavs snapshot = some uavs ∧ uavs ≠ []) ∨
    users snapshot = some [] ∧ ∀ count,
      (parameters.getD "sample_count" (.int 64)).toInt? = some count → count ≤ 0

/-- The three planners return, with positions for active UAVs that have not failed only, exactly if
there is such a UAV or nobody to serve, and no square that they take is too large. -/
theorem survive_iff [LawfulPlanner F] {uniform : ℤ → ℕ → F → F → F}
    (h : WellTyped snapshot parameters) :
    (Survives snapshot (learnAsYouFly snapshot parameters) ∧
      Survives snapshot (jointTrajectoryCommunication snapshot parameters) ∧
      Survives snapshot (voronoiCoverage uniform snapshot parameters)) ↔
    Staffed snapshot parameters ∧ FormationInRange snapshot parameters ∧
      CoverageInRange uniform snapshot parameters := by
  obtain ⟨uavs, huavs, -⟩ := h.uavs
  obtain ⟨people, hpeople, -⟩ := h.exists_users
  obtain ⟨demand, hdemand, hentities, hnothing⟩ := h.exists_demand hpeople uniform
  rw [survives_learn_iff h huavs hpeople, survives_joint_iff h huavs hpeople,
    survives_voronoi_iff h huavs hdemand hentities, hnothing]
  have hstaffed : Staffed snapshot parameters ↔ uavs ≠ [] ∨ people = [] ∧ ∀ count,
      (parameters.getD "sample_count" (.int 64)).toInt? = some count → count ≤ 0 := by
    simp [Staffed, huavs, hpeople]
  rw [hstaffed]
  constructor
  · rintro ⟨-, ⟨-, hformation⟩, hserved, hcoverage⟩
    exact ⟨hserved, hformation, hcoverage⟩
  · rintro ⟨hserved, hformation, hcoverage⟩
    have hlearn : uavs ≠ [] ∨ people = [] := hserved.imp_right And.left
    exact ⟨hlearn, ⟨hlearn, hformation⟩, hserved, hcoverage⟩

end

/-! ## One UAV and one user -/

/-- A snapshot of a user and a UAV, which has failed or not. -/
def uavAndUser (failed : Bool) : Dict String (Json ℚ) :=
  .ofList [
    ("uavs", .arr [.obj [("id", .str "drone_1"), ("failed", .bool failed),
      ("position", .arr [.float 0, .float 0, .float 30])]]),
    ("ground_entities", .arr [.obj [("id", .str "user_1"), ("type", .str "user"),
      ("position", .arr [.float 40, .float 0, .float 0])]])]

/-- Its fields are well typed, and so are the default parameters. -/
theorem wellTyped_uavAndUser (failed : Bool) : WellTyped (uavAndUser failed) .empty where
  uavs := by
    cases failed with
    | false =>
        refine ⟨_, rfl, fun item hitem => ?_⟩
        obtain rfl := List.mem_singleton.mp hitem
        refine ⟨⟨_, rfl⟩, ⟨_, rfl⟩, fun key hkey value hvalue => ?_⟩
        obtain rfl := List.mem_singleton.mp hkey
        cases hvalue
    | true => exact ⟨[], rfl, fun item hitem => absurd hitem List.not_mem_nil⟩
  ground := by
    refine ⟨_, rfl, fun item hitem => ?_⟩
    obtain rfl := List.mem_singleton.mp hitem
    refine ⟨_, rfl, rfl, ⟨_, rfl⟩, fun key hkey value hvalue => ?_⟩
    simp only [List.mem_cons, List.not_mem_nil, or_false] at hkey
    obtain rfl | rfl | rfl := hkey <;> cases hvalue
  links := ⟨[], rfl, fun item hitem => absurd hitem List.not_mem_nil⟩
  seed := ⟨0, rfl⟩
  region := by
    refine ⟨.empty, .empty, rfl, rfl, fun key _ value hvalue => ?_, fun i hi => ?_⟩
    · cases hvalue
    interval_cases i
    · exact ⟨.int 0, 0, rfl, rfl⟩
    · exact ⟨.int 0, 0, rfl, rfl⟩
  numbers := fun key _ value hvalue => by cases hvalue
  sampleCount := ⟨64, rfl⟩

/-- A generator that always draws the lower bound. -/
def lowest (_ : ℤ) (_ : ℕ) (a _ : ℚ) : ℚ := a

/-- With a UAV that flies. -/
theorem survive_iff_flying :
    (Survives (uavAndUser false) (learnAsYouFly (uavAndUser false) .empty) ∧
      Survives (uavAndUser false) (jointTrajectoryCommunication (uavAndUser false) .empty) ∧
      Survives (uavAndUser false) (voronoiCoverage lowest (uavAndUser false) .empty)) ↔
    Staffed (uavAndUser false) .empty ∧ FormationInRange (uavAndUser false) .empty ∧
      CoverageInRange lowest (uavAndUser false) .empty :=
  survive_iff (wellTyped_uavAndUser false)

/-- With one that has failed, nobody is nearest to the user. -/
theorem not_survive :
    ¬∀ (uniform : ℤ → ℕ → ℚ → ℚ → ℚ) (snapshot parameters : Dict String (Json ℚ)),
      WellTyped snapshot parameters → Survives snapshot (learnAsYouFly snapshot parameters) ∧
        Survives snapshot (jointTrajectoryCommunication snapshot parameters) ∧
        Survives snapshot (voronoiCoverage uniform snapshot parameters) := by
  intro hclaim
  obtain ⟨plan, _, hplan, -⟩ := (hclaim lowest _ _ (wellTyped_uavAndUser true)).1
  have hraises : (learnAsYouFly (uavAndUser true) .empty).isNone = true := by decide +kernel
  rw [hplan] at hraises
  cases hraises

end Netlab.Baseline
