import Netlab.Link.Budget
import Netlab.Prelude.Order

/-!
# The output of a plug-in

`validate_position_plan` of `netlab/plugins.py` checks the positions that a plug-in plans for some
of the UAVs of a fleet: each of them, and the separation of any two of them. It does not look at the
UAVs that the plan leaves where they are.

So a plan that is accepted keeps the whole fleet safe exactly if these UAVs keep their distance, as
far as the limits and the distances are numbers at all (`fleetSafe_iff`).
-/

namespace Netlab

variable {F : Type}

/-- The distance of two points does not depend on their order. -/
class PyFloat.Symmetric (F : Type) [PyFloat F] : Prop where
  dist_comm (p q : F × F × F) : PyFloat.dist p q = PyFloat.dist q p

instance : PyFloat.Symmetric ℚ where
  dist_comm p q := by
    show |_| + |_| + |_| = |_| + |_| + |_|
    rw [abs_sub_comm, abs_sub_comm p.2.1, abs_sub_comm p.2.2]

/-- What `validate_position_plan` raises: a `ValidationError`, or something else. -/
inductive PlanError
  | validation (code message : String)
  | raised
  deriving DecidableEq, Repr

/-- The limits that a plan has to keep to. -/
structure PlanLimits (F : Type) where
  maxDisplacementM : F
  lowestM : F
  highestM : F
  minimumSeparationM : F

section

variable [PyText F] [PyFloat F]

/-- `[float(v) for v in value]` of a value with three items. -/
def threeFloats (value : Json F) : Option (Vec3 F) := do
  match ← (← value.elements?).mapM Json.toFloat? with
  | [x, y, z] => some ⟨x, y, z⟩
  | _ => none

/-- Whether a value is a list of three items. -/
def isTriple : Json F → Bool
  | .arr items => items.length = 3
  | _ => false

/-- Where a UAV is now; `None` is no position. -/
def presentPosition (currentPositions : Dict String (Json F)) (uavId : String) : Option (Json F) :=
  match currentPositions.get? uavId with
  | some .null => none
  | current => current

/-- Whether a position is too far from the current one; a current position that has not three
coordinates raises. -/
def tooFar (limits : PlanLimits F) (current : Option (Json F)) (position : Vec3 F) : Option Bool :=
  match current with
  | none => some false
  | some value => do
      return PyFloat.lt limits.maxDisplacementM (position.dist (← threeFloats value))

/-- The check of one planned position. -/
def checkPosition (known : List String) (currentPositions : Dict String (Json F))
    (limits : PlanLimits F) (uavId : String) (raw : Json F) : Except PlanError (Vec3 F) :=
  if uavId ∉ known then
    .error (.validation "PLUGIN_UNKNOWN_UAV" ("Plugin returned unknown UAV " ++ uavId ++ "."))
  else if !isTriple raw then
    .error (.validation "PLUGIN_POSITION_SHAPE"
      ("Position for " ++ uavId ++ " must contain three values."))
  else
    match threeFloats raw with
    | none => .error .raised
    | some position =>
        if !([position.x, position.y, position.z].all PyFloat.isFinite) then
          .error (.validation "PLUGIN_NON_FINITE"
            ("Position for " ++ uavId ++ " contains a non-finite value."))
        else if !(PyFloat.le limits.lowestM position.z &&
            PyFloat.le position.z limits.highestM) then
          .error (.validation "PLUGIN_ALTITUDE"
            ("Position for " ++ uavId ++ " violates altitude bounds."))
        else
          -- a UAV whose current position is not known may be sent anywhere
          match tooFar limits (presentPosition currentPositions uavId) position with
          | none => .error .raised
          | some true => .error (.validation "PLUGIN_DISPLACEMENT"
              ("Position for " ++ uavId ++ " exceeds the per-update displacement limit."))
          | some false => .ok position

/-- The check of all planned positions, in order. -/
def checkPositions (known : List String) (currentPositions : Dict String (Json F))
    (limits : PlanLimits F) :
    List (String × Json F) → Except PlanError (List (String × Vec3 F))
  | [] => .ok []
  | (uavId, raw) :: rest =>
      match checkPosition known currentPositions limits uavId raw with
      -- the first error rejects the plan
      | .error error => .error error
      | .ok position =>
          (checkPositions known currentPositions limits rest).map fun items =>
            (uavId, position) :: items

/-- The first two items that are nearer to each other than a distance. -/
def tooClose (minimum : F) : List (String × Vec3 F) → Option (String × String)
  | [] => none
  | item :: items =>
      match items.find? fun other => PyFloat.lt (item.2.dist other.2) minimum with
      | some other => some (item.1, other.1)
      | none => tooClose minimum items

/-- `validate_position_plan`. -/
def validatePositionPlan (known : List String) (currentPositions : Dict String (Json F))
    (limits : PlanLimits F) (plan : Json F) : Except PlanError (Dict String (Vec3 F)) :=
  match plan.dict? with
  | none => .error (.validation "PLUGIN_OUTPUT_TYPE"
      "Position plan must be an object keyed by UAV ID.")
  | some plan =>
      match checkPositions known currentPositions limits plan.entries with
      | .error error => .error error
      | .ok items =>
          -- only planned positions are compared with each other
          match tooClose limits.minimumSeparationM items with
          | some (first, second) => .error (.validation "PLUGIN_SEPARATION"
              ("Plugin plan violates minimum separation between " ++ first ++ " and " ++ second ++
                "."))
          | none => .ok (.ofList items)

/-! ## The fleet -/

/-- The position that a plan has for a UAV. -/
def plannedPosition (plan : Json F) (uavId : String) : Option (Vec3 F) := do
  threeFloats (← (← plan.dict?).get? uavId)

/-- Where a UAV stays that is not planned. -/
def stayingPosition (currentPositions : Dict String (Json F)) (uavId : String) :
    Option (Vec3 F) := do
  threeFloats (← presentPosition currentPositions uavId)

/-- Where a UAV is after the planned ones have moved. -/
def positionAfter (currentPositions : Dict String (Json F)) (moved : Dict String (Vec3 F))
    (uavId : String) : Option (Vec3 F) :=
  (moved.get? uavId).or (stayingPosition currentPositions uavId)

/-- The whole fleet is safe after the UAVs of a plan have moved. -/
structure FleetSafe (known : List String) (currentPositions : Dict String (Json F))
    (limits : PlanLimits F) (moved : Dict String (Vec3 F)) : Prop where
  separated : ∀ first ∈ known, ∀ second ∈ known, first ≠ second →
    first ∈ moved.keys ∨ second ∈ moved.keys → ∀ p q,
      positionAfter currentPositions moved first = some p →
      positionAfter currentPositions moved second = some q →
        PyFloat.le limits.minimumSeparationM (p.dist q) = true
  altitude : ∀ uavId p, moved.get? uavId = some p →
    PyFloat.le limits.lowestM p.z = true ∧ PyFloat.le p.z limits.highestM = true
  displacement : ∀ uavId p c, moved.get? uavId = some p →
    stayingPosition currentPositions uavId = some c →
      PyFloat.le (p.dist c) limits.maxDisplacementM = true

/-- The UAVs that a plan leaves where they are keep their distance from the planned positions, and
what is compared with a limit does compare with it. -/
structure ClearOfOthers (known : List String) (currentPositions : Dict String (Json F))
    (limits : PlanLimits F) (plan : Json F) : Prop where
  others : ∀ uavId p, plannedPosition plan uavId = some p → ∀ other ∈ known,
    plannedPosition plan other = none → ∀ q, stayingPosition currentPositions other = some q →
      PyFloat.le limits.minimumSeparationM (p.dist q) = true
  separations : ∀ first second p q, first ≠ second → plannedPosition plan first = some p →
    plannedPosition plan second = some q →
      PyFloat.Comparable limits.minimumSeparationM (p.dist q)
  displacements : ∀ uavId p c, plannedPosition plan uavId = some p →
    stayingPosition currentPositions uavId = some c →
      PyFloat.Comparable (p.dist c) limits.maxDisplacementM

/-! ## What is accepted -/

/-- What a planned position that passes has been checked for. -/
theorem checkPosition_eq_ok {known : List String} {currentPositions : Dict String (Json F)}
    {limits : PlanLimits F} {uavId : String} {raw : Json F} {p : Vec3 F}
    (h : checkPosition known currentPositions limits uavId raw = .ok p) :
    uavId ∈ known ∧ threeFloats raw = some p ∧
      PyFloat.le limits.lowestM p.z = true ∧ PyFloat.le p.z limits.highestM = true ∧
      tooFar limits (presentPosition currentPositions uavId) p = some false := by
  -- the checks come one after the other, and each that fails leaves with its error
  unfold checkPosition at h
  split at h
  · cases h
  rename_i hknown
  split at h
  · cases h
  split at h
  · cases h
  rename_i position hposition
  split at h
  · cases h
  split at h
  · cases h
  rename_i haltitude
  split at h
  · cases h
  · cases h
  · rename_i hfar
    obtain rfl := Except.ok.inj h
    have hbounds : PyFloat.le limits.lowestM position.z = true ∧
        PyFloat.le position.z limits.highestM = true := by simpa using haltitude
    exact ⟨by simpa using hknown, hposition, hbounds.1, hbounds.2, hfar⟩

/-- The items of a plan whose positions all pass: each entry with its position. -/
theorem checkPositions_eq_ok {known : List String} {currentPositions : Dict String (Json F)}
    {limits : PlanLimits F} {entries : List (String × Json F)} {items : List (String × Vec3 F)}
    (h : checkPositions known currentPositions limits entries = .ok items) :
    items.map Prod.fst = entries.map Prod.fst ∧ ∀ entry ∈ entries, ∃ position,
      (entry.1, position) ∈ items ∧
        checkPosition known currentPositions limits entry.1 entry.2 = .ok position := by
  induction entries generalizing items with
  | nil =>
      obtain rfl : [] = items := Except.ok.inj h
      exact ⟨rfl, by simp⟩
  | cons entry rest ih =>
      obtain ⟨uavId, raw⟩ := entry
      rw [checkPositions] at h
      split at h
      · cases h
      · rename_i position hposition
        cases hrest : checkPositions known currentPositions limits rest with
        | error error =>
            rw [hrest] at h
            cases h
        | ok items' =>
            rw [hrest] at h
            obtain rfl := Except.ok.inj h
            -- the first error would have ended the loop
            obtain ⟨hkeys, hall⟩ := ih hrest
            refine ⟨by rw [List.map_cons, List.map_cons, hkeys], ?_⟩
            refine List.forall_mem_cons.mpr ⟨⟨position, List.mem_cons_self, hposition⟩, ?_⟩
            intro entry hentry
            obtain ⟨other, hmem, hother⟩ := hall entry hentry
            exact ⟨other, List.mem_cons_of_mem _ hmem, hother⟩

omit [PyText F] in
/-- No two items are too close. -/
theorem tooClose_eq_none_iff {minimum : F} {items : List (String × Vec3 F)} :
    tooClose minimum items = none ↔
      items.Pairwise fun a b => PyFloat.lt (a.2.dist b.2) minimum = false := by
  induction items with
  | nil => exact ⟨fun _ => List.Pairwise.nil, fun _ => rfl⟩
  | cons item items ih =>
      rw [tooClose, List.pairwise_cons, ← ih]
      split
      · rename_i other hother
        refine ⟨fun h => absurd h (by simp), fun ⟨hall, _⟩ => ?_⟩
        have hclose := List.find?_some hother
        exact absurd (hclose.symm.trans (hall other (List.mem_of_find?_eq_some hother))) (by simp)
      · rename_i hnone
        have hall : ∀ other ∈ items, PyFloat.lt (item.2.dist other.2) minimum = false := by
          simpa using hnone
        exact ⟨fun h => ⟨hall, h⟩, fun h => h.2⟩

/-- What is known of a plan that is accepted. -/
structure Accepted (known : List String) (currentPositions : Dict String (Json F))
    (limits : PlanLimits F) (plan : Json F) (moved : Dict String (Vec3 F)) : Prop where
  get? : ∀ uavId, moved.get? uavId = plannedPosition plan uavId
  checked : ∀ uavId p, moved.get? uavId = some p → uavId ∈ known ∧
    PyFloat.le limits.lowestM p.z = true ∧ PyFloat.le p.z limits.highestM = true ∧
    tooFar limits (presentPosition currentPositions uavId) p = some false
  apart : moved.entries.Pairwise fun a b =>
    PyFloat.lt (a.2.dist b.2) limits.minimumSeparationM = false

theorem accepted_of_ok {known : List String} {currentPositions : Dict String (Json F)}
    {limits : PlanLimits F} {plan : Json F} {moved : Dict String (Vec3 F)}
    (h : validatePositionPlan known currentPositions limits plan = .ok moved) :
    Accepted known currentPositions limits plan moved := by
  unfold validatePositionPlan at h
  split at h
  · cases h
  rename_i members hmembers
  split at h
  · cases h
  rename_i items hitems
  split at h
  · cases h
  rename_i hclose
  obtain rfl := Except.ok.inj h
  obtain ⟨hkeys, hchecked⟩ := checkPositions_eq_ok hitems
  have hnodup : (items.map Prod.fst).Nodup := hkeys ▸ members.nodup
  -- each UAV of the plan has been checked, and only these move
  have hmoved : ∀ uavId raw, members.get? uavId = some raw → ∃ p,
      (Dict.ofList items).get? uavId = some p ∧
        checkPosition known currentPositions limits uavId raw = .ok p := by
    intro uavId raw hraw
    obtain ⟨p, hmem, hp⟩ := hchecked (uavId, raw) (Dict.get?_eq_some_iff.mp hraw)
    exact ⟨p, Dict.get?_ofList_of_mem hnodup hmem, hp⟩
  have hothers : ∀ uavId, members.get? uavId = none → (Dict.ofList items).get? uavId = none := by
    intro uavId hnone
    by_contra hsome
    obtain ⟨p, hp⟩ := Option.ne_none_iff_exists'.mp hsome
    have hmem : uavId ∈ items.map Prod.fst := List.mem_map.mpr ⟨_, Dict.mem_of_get?_ofList hp, rfl⟩
    rw [hkeys] at hmem
    obtain ⟨raw, hraw⟩ := Dict.mem_keys_iff.mp hmem
    exact absurd (hraw.symm.trans hnone) (by simp)
  have hplanned : ∀ uavId, plannedPosition plan uavId = (members.get? uavId).bind threeFloats := by
    intro uavId
    rw [plannedPosition, hmembers]
    rfl
  refine ⟨fun uavId => ?_, fun uavId p hp => ?_, ?_⟩
  · rw [hplanned]
    cases hraw : members.get? uavId with
    | none => exact hothers uavId hraw
    | some raw =>
        obtain ⟨p, hp, hcheck⟩ := hmoved uavId raw hraw
        rw [hp, Option.bind_some, (checkPosition_eq_ok hcheck).2.1]
  · cases hraw : members.get? uavId with
    | none => exact absurd (hp.symm.trans (hothers uavId hraw)) (by simp)
    | some raw =>
        obtain ⟨q, hq, hcheck⟩ := hmoved uavId raw hraw
        obtain rfl := Option.some.inj (hp.symm.trans hq)
        obtain ⟨hknown, -, hlow, hhigh, hfar⟩ := checkPosition_eq_ok hcheck
        exact ⟨hknown, hlow, hhigh, hfar⟩
  · rw [Dict.entries_ofList hnodup]
    exact tooClose_eq_none_iff.mp hclose

end

section

variable [PyText F] [PyOrder F] [PyFloat.Symmetric F]

/-- Two planned positions are not too close. -/
theorem Accepted.not_lt {known : List String} {currentPositions : Dict String (Json F)}
    {limits : PlanLimits F} {plan : Json F} {moved : Dict String (Vec3 F)}
    (h : Accepted known currentPositions limits plan moved) {first second : String} {p q : Vec3 F}
    (hne : first ≠ second) (hp : moved.get? first = some p) (hq : moved.get? second = some q) :
    PyFloat.lt (p.dist q) limits.minimumSeparationM = false := by
  have : Std.Symm fun a b : String × Vec3 F =>
      PyFloat.lt (a.2.dist b.2) limits.minimumSeparationM = false := by
    refine ⟨fun a b hab => ?_⟩
    rw [Vec3.dist, PyFloat.Symmetric.dist_comm]
    exact hab
  exact h.apart.forall (Dict.get?_eq_some_iff.mp hp) (Dict.get?_eq_some_iff.mp hq)
    fun heq => hne (Prod.mk.inj heq).1

omit [PyFloat.Symmetric F] in
/-- A planned UAV has moved. -/
theorem positionAfter_of_some {currentPositions : Dict String (Json F)}
    {moved : Dict String (Vec3 F)} {uavId : String} {p : Vec3 F} (h : moved.get? uavId = some p) :
    positionAfter currentPositions moved uavId = some p := by
  rw [positionAfter, h, Option.some_or]

omit [PyFloat.Symmetric F] in
/-- Another one stays. -/
theorem positionAfter_of_none {currentPositions : Dict String (Json F)}
    {moved : Dict String (Vec3 F)} {uavId : String} (h : moved.get? uavId = none) :
    positionAfter currentPositions moved uavId = stayingPosition currentPositions uavId := by
  rw [positionAfter, h, Option.none_or]

omit [PyFloat.Symmetric F] in
/-- What a fleet needs to be safe after a plan. -/
theorem Accepted.clearOfOthers {known : List String} {currentPositions : Dict String (Json F)}
    {limits : PlanLimits F} {plan : Json F} {moved : Dict String (Vec3 F)}
    (h : Accepted known currentPositions limits plan moved)
    (hsafe : FleetSafe known currentPositions limits moved) :
    ClearOfOthers known currentPositions limits plan := by
  constructor
  · intro uavId p hp other hother hstays q hq
    rw [← h.get?] at hp hstays
    have hne : uavId ≠ other := by
      rintro rfl
      exact absurd (hp.symm.trans hstays) (by simp)
    exact hsafe.separated uavId (h.checked uavId p hp).1 other hother hne
      (Or.inl (Dict.mem_keys_iff.mpr ⟨p, hp⟩)) p q (positionAfter_of_some hp)
      (by rw [positionAfter_of_none hstays, hq])
  · intro first second p q hne hp hq
    rw [← h.get?] at hp hq
    exact Or.inl (hsafe.separated first (h.checked first p hp).1 second (h.checked second q hq).1
      hne (Or.inl (Dict.mem_keys_iff.mpr ⟨p, hp⟩)) p q (positionAfter_of_some hp)
      (positionAfter_of_some hq))
  · intro uavId p c hp hc
    rw [← h.get?] at hp
    exact Or.inl (hsafe.displacement uavId p c hp hc)

/-- Where it has that, it is safe. -/
theorem Accepted.fleetSafe {known : List String} {currentPositions : Dict String (Json F)}
    {limits : PlanLimits F} {plan : Json F} {moved : Dict String (Vec3 F)}
    (h : Accepted known currentPositions limits plan moved)
    (hclear : ClearOfOthers known currentPositions limits plan) :
    FleetSafe known currentPositions limits moved := by
  constructor
  · intro first hfirst second hsecond hne hplanned p q hp hq
    cases hfirstMoved : moved.get? first with
    | some p' =>
        rw [positionAfter_of_some hfirstMoved] at hp
        obtain rfl := Option.some.inj hp
        cases hsecondMoved : moved.get? second with
        | some q' =>
            rw [positionAfter_of_some hsecondMoved] at hq
            obtain rfl := Option.some.inj hq
            exact (hclear.separations first second _ _ hne (h.get? first ▸ hfirstMoved)
              (h.get? second ▸ hsecondMoved)).le_of_not_lt (h.not_lt hne hfirstMoved hsecondMoved)
        | none =>
            rw [positionAfter_of_none hsecondMoved] at hq
            exact hclear.others first _ (h.get? first ▸ hfirstMoved) second hsecond
              (h.get? second ▸ hsecondMoved) q hq
    | none =>
        -- so the second one has moved, and the distance is that from there
        have hmoved : second ∈ moved.keys := by
          refine hplanned.resolve_left fun hmem => ?_
          obtain ⟨p', hp'⟩ := Dict.mem_keys_iff.mp hmem
          exact absurd (hp'.symm.trans hfirstMoved) (by simp)
        obtain ⟨q', hq'⟩ := Dict.mem_keys_iff.mp hmoved
        rw [positionAfter_of_some hq'] at hq
        rw [positionAfter_of_none hfirstMoved] at hp
        obtain rfl := Option.some.inj hq
        rw [Vec3.dist, PyFloat.Symmetric.dist_comm]
        exact hclear.others second _ (h.get? second ▸ hq') first hfirst
          (h.get? first ▸ hfirstMoved) p hp
  · intro uavId p hp
    exact ⟨(h.checked uavId p hp).2.1, (h.checked uavId p hp).2.2.1⟩
  · intro uavId p c hp hc
    have hfar := (h.checked uavId p hp).2.2.2
    obtain ⟨value, hvalue, hread⟩ := Option.bind_eq_some_iff.mp hc
    rw [hvalue, tooFar, hread] at hfar
    exact (hclear.displacements uavId p c (h.get? uavId ▸ hp) hc).le_of_not_lt
      (Option.some.inj hfar)

/-- A plan that is accepted keeps the whole fleet safe exactly when the UAVs that it leaves where
they are keep their distance, and the limits compare with what they limit. -/
theorem fleetSafe_iff {known : List String} {currentPositions : Dict String (Json F)}
    {limits : PlanLimits F} {plan : Json F} {moved : Dict String (Vec3 F)}
    (h : validatePositionPlan known currentPositions limits plan = .ok moved) :
    FleetSafe known currentPositions limits moved ↔
      ClearOfOthers known currentPositions limits plan :=
  ⟨(accepted_of_ok h).clearOfOthers, (accepted_of_ok h).fleetSafe⟩

end

/-! ## Two UAVs -/

/-- Where two UAVs are. -/
def twoUavs : Dict String (Json ℚ) := .ofList
  [("drone_1", .arr [.int 0, .int 0, .int 30]), ("drone_2", .arr [.int 30, .int 0, .int 30])]

/-- Four metres apart, between ten and a hundred and twenty metres high. -/
def fourMetres : PlanLimits ℚ where
  maxDisplacementM := 100
  lowestM := 10
  highestM := 120
  minimumSeparationM := 4

/-- A plan for the first UAV alone. -/
def planFor (x : ℤ) : Json ℚ := .obj [("drone_1", .arr [.int x, .int 0, .int 30])]

/-- A result with the entries of a dictionary is this dictionary. -/
theorem eq_ok_of_entries {result : Except PlanError (Dict String (Vec3 F))}
    {moved : Dict String (Vec3 F)} (h : result.toOption.map Dict.entries = some moved.entries) :
    result = .ok moved := by
  cases result with
  | error error => exact absurd h (by simp [Except.toOption])
  | ok other => rw [Dict.ext (Option.some.inj h)]

/-- A step of ten metres leaves the two UAVs apart. -/
theorem fleetSafe_iff_apart :
    FleetSafe ["drone_1", "drone_2"] twoUavs fourMetres (.ofList [("drone_1", ⟨10, 0, 30⟩)]) ↔
      ClearOfOthers ["drone_1", "drone_2"] twoUavs fourMetres (planFor 10) :=
  fleetSafe_iff (eq_ok_of_entries (by decide +kernel))

/-- The first UAV may be sent next to the second one. -/
theorem not_fleetSafe :
    ¬∀ (known : List String) (currentPositions : Dict String (Json ℚ)) (limits : PlanLimits ℚ)
      (plan : Json ℚ) (moved : Dict String (Vec3 ℚ)),
      validatePositionPlan known currentPositions limits plan = .ok moved →
        FleetSafe known currentPositions limits moved := by
  intro hclaim
  have hsafe := hclaim ["drone_1", "drone_2"] twoUavs fourMetres (planFor 29)
    (.ofList [("drone_1", ⟨29, 0, 30⟩)]) (eq_ok_of_entries (by decide +kernel))
  have hseparated := hsafe.separated "drone_1" (by decide) "drone_2" (by decide) (by decide)
    (Or.inl (by decide +kernel)) ⟨29, 0, 30⟩ ⟨30, 0, 30⟩ (by decide +kernel) (by decide +kernel)
  exact absurd hseparated (by decide +kernel)

end Netlab
