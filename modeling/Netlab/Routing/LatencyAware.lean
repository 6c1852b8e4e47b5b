import Netlab.Routing.Links

/-!
# Latency-aware routing

The plugin `latency_aware_routing` looks for a path of feasible links with the least delay in total,
where every link has the delay of its record and a penalty, and counts as nothing if this is
negative. Its search is a best-first search in which the label of a path is its cost. In exact
arithmetic the cost is the sum over the links, so a longer path costs no less, and links that cost
nothing do no harm: the search replaces a cost by a smaller one only.
-/

namespace Netlab.LatencyAware

open BestFirst Routing

section

variable {F : Type} [PyFloat F]

/-- The cost of a link with the delay of its record. -/
def weight (penalty delay : F) : F := PyFloat.max 0.0 (delay + penalty)

/-- The cost of a record's link. -/
def weight? [PyText F] (penalty : F) (link : Dict String (Json F)) : Option (Option F) := do
  let delay ← link.getFloatOr "total_delay_ms" "propagation_delay_ms" 0.0
  return some (weight penalty delay)

/-- `x < float("inf")`: a number is below infinity if it is finite or negative. -/
def belowInfinity (x : F) : Bool := PyFloat.isFinite x || PyFloat.lt x 0.0

/-- What the plugin does with the cost of a path. -/
def policy : Policy F F where
  start := 0.0
  extend cost weight := cost + weight
  improves best candidate :=
    match best with
    -- a path that costs the same is not taken, so a cycle that costs nothing is not entered
    | some distance => PyFloat.lt candidate distance
    | none => belowInfinity candidate
  stale best cost :=
    match best with
    | some distance => !(PyFloat.le cost distance && PyFloat.le distance cost)
    | none => true
  enqueue cost := cost
  dequeue cost := cost

/-- The result of the plugin. -/
structure Result (F : Type) where
  route : List String
  reason : String
  estimatedDelayMs : Option F

/-- The result for the best route, if there is one. -/
def conclude : Option (List String × F) → Result F
  | none => ⟨[], "NO_FEASIBLE_ROUTE", none⟩
  | some (route, distance) => ⟨route, "CANDIDATE_ROUTE", some distance⟩

variable [PyText F]

/-- The search among the links. -/
def task (context : Dict String (Json F)) (links : List (Link String F)) : Task String F F :=
  ⟨policy, graphOf links, source context, destination context⟩

/-- `plan_route`. -/
def planRoute {K : Type} [LinearOrder K] {value : F → K}
    (heapq : HeapQueue (entryLt? (F := F)) (entryKey value)) (context : Dict String (Json F)) :
    Option (Result F) := do
  let penalty ← parameter? context "hop_penalty_ms" 0.1
  let links ← readLinks (weight? penalty) (← records? context)
  return conclude (← (task context links).bestRoute heapq)

end

/-! ## Exact arithmetic -/

theorem weight_real (penalty delay : ℝ) : weight penalty delay = max 0 (delay + penalty) := by
  have hzero : (0.0 : ℝ) = 0 := by norm_num
  rw [weight, PyFloat.max_real, hzero]

theorem lawful : (policy (F := ℝ)).Lawful (N := String) entryLt? id (0 ≤ ·) (0 ≤ ·) where
  isLabel_start := by
    show (0 : ℝ) ≤ 0.0
    norm_num
  isLabel_extend hlabel hweight := add_nonneg hlabel hweight
  dequeue_enqueue _ := rfl
  improves_none _ := rfl
  improves_some {old label} _ _ := by
    show PyFloat.lt label old = true ↔ label < old
    rw [PyFloat.lt_real, decide_eq_true_eq]
  stale_some {best label} _ _ hle := by
    show (!(PyFloat.le label best && PyFloat.le best label)) = true ↔ best < label
    have hle : best ≤ label := hle
    rw [PyFloat.le_real, PyFloat.le_real, decide_eq_true hle, Bool.and_true, Bool.not_eq_true',
      decide_eq_false_iff_not, not_le]
  rank_le_extend _ hweight := le_add_of_nonneg_right hweight
  extend_le_extend _ _ _ hle := add_le_add_left hle _
  lt?_eq _ _ _ _ := entryLt?_eq (PyFloat.le_real _ _) (PyFloat.le_real _ _) (PyFloat.lt_real _ _)

/-- The cost of a path is the sum over its links. -/
theorem label_eq_sum (path : List (Link String ℝ)) :
    policy.label path = (path.map Link.weight).sum := by
  induction path using List.reverseRecOn with
  | nil =>
      show (0.0 : ℝ) = 0
      norm_num
  | append_singleton path link ih =>
      rw [Policy.label_concat, List.map_append, List.sum_append, ih, List.map_singleton,
        List.sum_singleton]
      rfl

/-! ## Optimality -/

section

variable [PyText ℝ]

/-- A feasible link of the records with its cost. -/
def IsUsable (penalty : ℝ) (records : List (Json ℝ)) (link : Link String ℝ) : Prop :=
  ∃ record ∈ records, ∃ fields, record.dict? = some fields ∧ isFeasible fields = true ∧
    link.src = src fields ∧ link.dst = dst fields ∧
    ∃ delay, fields.getFloatOr "total_delay_ms" "propagation_delay_ms" 0.0 = some delay ∧
      link.weight = max 0 (delay + penalty)

/-- A record of a link: an object that has a number for its delay if it is feasible. -/
def IsRecord (record : Json ℝ) : Prop :=
  ∃ fields, record.dict? = some fields ∧ (isFeasible fields = true →
    ∃ delay, fields.getFloatOr "total_delay_ms" "propagation_delay_ms" 0.0 = some delay)

/-- The route of a result is that of a path of usable links, the result has the sum over them, and
no other path of usable links has a smaller one. -/
structure IsShortestPath (usable : Link String ℝ → Prop) (source destination : String)
    (result : Result ℝ) (path : List (Link String ℝ)) : Prop where
  isPath : Path usable source path destination
  route : result.route = nodes source path
  total : result.estimatedDelayMs = some (path.map Link.weight).sum
  shortest (other : List (Link String ℝ)) (hother : Path usable source other destination) :
    (path.map Link.weight).sum ≤ (other.map Link.weight).sum

/-- The links that are searched over are the feasible ones. -/
theorem exists_usableLinks (penalty : ℝ) {records : List (Json ℝ)}
    (hrecords : ∀ record ∈ records, IsRecord record) :
    ∃ links, readLinks (weight? penalty) records = some links ∧
      ∀ link, link ∈ links ↔ IsUsable penalty records link := by
  have hweight : ∀ fields w, weight? penalty fields = some (some w) ↔
      ∃ delay, fields.getFloatOr "total_delay_ms" "propagation_delay_ms" 0.0 = some delay ∧
        w = max 0 (delay + penalty) := by
    intro fields w
    unfold weight?
    cases fields.getFloatOr "total_delay_ms" "propagation_delay_ms" 0.0 with
    | none => simp
    | some delay => simp [weight_real, eq_comm]
  have hread : ∀ record ∈ records, ∃ fields, record.dict? = some fields ∧
      (isFeasible fields = true → ∃ weight, weight? penalty fields = some weight) := by
    intro record hrecord
    obtain ⟨fields, hfields, hdelay⟩ := hrecords record hrecord
    refine ⟨fields, hfields, fun hfeasible => ?_⟩
    obtain ⟨delay, hdelay⟩ := hdelay hfeasible
    exact ⟨_, (hweight fields _).mpr ⟨delay, hdelay, rfl⟩⟩
  obtain ⟨links, hlinks, hmem⟩ := exists_readLinks hread
  refine ⟨links, hlinks, fun link => (hmem link).trans ?_⟩
  simp only [IsLinkOf, IsUsable, hweight]

/-- The plugin returns an empty route when no path of feasible links leads to the destination, and a
shortest path otherwise. -/
theorem planRoute_shortest (heapq : HeapQueue (entryLt? (F := ℝ)) (entryKey (id : ℝ → ℝ)))
    {context : Dict String (Json ℝ)} {penalty : ℝ} {records : List (Json ℝ)}
    (hparameter : parameter? context "hop_penalty_ms" 0.1 = some penalty)
    (hlinks : records? context = some records)
    (hrecords : ∀ record ∈ records, IsRecord record) :
    ∃ result, planRoute heapq context = some result ∧
      (result.route = [] ↔ ∀ path, ¬ Path (IsUsable penalty records) (source context) path
        (destination context)) ∧
      (result.route ≠ [] → ∃ path, IsShortestPath (IsUsable penalty records) (source context)
        (destination context) result path) := by
  obtain ⟨links, hread, hmem⟩ := exists_usableLinks penalty hrecords
  have hweights : ∀ link ∈ links, 0 ≤ link.weight := by
    intro link hlink
    obtain ⟨_, _, _, _, _, _, _, delay, _, hweight⟩ := (hmem link).mp hlink
    rw [hweight]
    exact le_max_left _ _
  -- the links that are read are the usable records, so the paths are the same
  have hpath : ∀ path, Path (· ∈ links) (source context) path (destination context) ↔
      Path (IsUsable penalty records) (source context) path (destination context) :=
    fun path => ⟨fun h => h.imp fun link => (hmem link).mp,
      fun h => h.imp fun link => (hmem link).mpr⟩
  have hplan : planRoute heapq context = ((task context links).bestRoute heapq).map conclude := by
    simp only [planRoute, hparameter, hlinks, hread, bind, Option.bind_some, pure]
    exact Option.map_eq_bind.symm
  rw [hplan]
  rcases Task.bestRoute_spec heapq (task context links) lawful rfl hweights with
    ⟨hroute, hno⟩ | ⟨path, hisPath, hroute, -, hbest⟩
  · rw [hroute]
    refine ⟨_, rfl, ?_, fun h => absurd rfl h⟩
    exact iff_of_true rfl fun path h => hno path ((hpath path).mpr h)
  · rw [hroute]
    have hisPath' := (hpath path).mp hisPath
    refine ⟨_, rfl, ?_, fun _ => ⟨path, hisPath', rfl, ?_, fun other hother => ?_⟩⟩
    · exact iff_of_false (List.cons_ne_nil _ _) fun h => h path hisPath'
    · exact congrArg some (label_eq_sum path)
    · rw [← label_eq_sum, ← label_eq_sum]
      exact hbest other ((hpath other).mpr hother)

end

/-- The record of a feasible link. -/
def relayRecord (src dst : String) (delay : ℤ) : Json ℝ :=
  .obj [("src", .str src), ("dst", .str dst), ("feasible", .bool true),
    ("total_delay_ms", .int delay)]

/-- A way to the second UAV, from which a cycle leads back that costs nothing. -/
def relayRecords : List (Json ℝ) :=
  [relayRecord "station" "uav_1" 2, relayRecord "uav_1" "uav_2" (-1),
    relayRecord "uav_2" "uav_1" (-1)]

/-- The context of a route from the station to the second UAV. -/
def relayContext : Dict String (Json ℝ) :=
  .ofList [("destination", .str "uav_2"), ("links", .arr relayRecords)]

theorem planRoute_shortest_relay :
    ∃ result, @planRoute ℝ _ PyText.exact ℝ _ id (.sorted _ (entryKey id)) relayContext =
        some result ∧
      (result.route = [] ↔ ∀ path, ¬ Path (@IsUsable PyText.exact 0.1 relayRecords)
        (@source ℝ PyText.exact relayContext) path (@destination ℝ PyText.exact relayContext)) ∧
      (result.route ≠ [] → ∃ path, IsShortestPath (@IsUsable PyText.exact 0.1 relayRecords)
        (@source ℝ PyText.exact relayContext) (@destination ℝ PyText.exact relayContext) result
        path) := by
  have hrecord : ∀ src dst : String, ∀ delay : ℤ,
      @IsRecord PyText.exact (relayRecord src dst delay) :=
    fun src dst delay => ⟨_, rfl, fun _ => ⟨delay, rfl⟩⟩
  refine @planRoute_shortest PyText.exact (.sorted _ _) _ _ _ rfl rfl ?_
  simp only [relayRecords, List.forall_mem_cons]
  exact ⟨hrecord _ _ _, hrecord _ _ _, hrecord _ _ _, by simp⟩

end Netlab.LatencyAware
