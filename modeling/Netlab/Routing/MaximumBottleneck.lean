import Netlab.Routing.Links

/-!
# Maximum-bottleneck routing

The plugin `maximum_bottleneck_routing` looks for a path of feasible links with enough capacity
whose smallest capacity is as large as possible. Its search is a best-first search in which the
label of a path is its smallest capacity, and the label of no links at all is infinite. It is
correct whatever the floats are, as long as the capacities are numbers.
-/

/-- A type of floats with an infinite one. -/
class PyInfinite (F : Type) extends PyFloat F where
  /-- `float("inf")`. -/
  inf : F

attribute [instance (100)] PyInfinite.toPyFloat

/-- Exact fractions as floats, for evaluations on concrete values. In place of infinity there is a
fraction above those that occur. -/
instance : PyInfinite ℚ where
  inf := 10 ^ 308

/-- The floats that are numbers, and their values in a linear order: every float but NaN. -/
structure FloatNumbers (F K : Type) [PyInfinite F] [LinearOrder K] where
  IsNumber : F → Prop
  /-- The value of a number. The two zeros have one. -/
  value : F → K
  le_eq {x y : F} (hx : IsNumber x) (hy : IsNumber y) : PyFloat.le x y = decide (value x ≤ value y)
  lt_eq {x y : F} (hx : IsNumber x) (hy : IsNumber y) : PyFloat.lt x y = decide (value x < value y)
  isNumber_neg {x : F} (hx : IsNumber x) : IsNumber (-x)
  neg_neg {x : F} (hx : IsNumber x) : - -x = x
  neg_le_neg {x y : F} (hx : IsNumber x) (hy : IsNumber y) :
    value (-x) ≤ value (-y) ↔ value y ≤ value x
  isNumber_inf : IsNumber PyInfinite.inf
  le_inf {x : F} (hx : IsNumber x) : value x ≤ value PyInfinite.inf
  isNumber_zero : IsNumber 0.0
  isNumber_one : IsNumber 1.0
  negOne_lt_zero : value (-1.0) < value 0.0

namespace FloatNumbers

variable {F K : Type} [PyInfinite F] [LinearOrder K] (numbers : FloatNumbers F K) {x y : F}

theorem neg_lt_neg (hx : numbers.IsNumber x) (hy : numbers.IsNumber y) :
    numbers.value (-x) < numbers.value (-y) ↔ numbers.value y < numbers.value x := by
  rw [← not_le, numbers.neg_le_neg hy hx, not_le]

theorem isNumber_min (hx : numbers.IsNumber x) (hy : numbers.IsNumber y) :
    numbers.IsNumber (PyFloat.min x y) := by
  unfold PyFloat.min
  split
  · exact hy
  · exact hx

/-- The value of the smaller of two numbers. -/
theorem value_min (hx : numbers.IsNumber x) (hy : numbers.IsNumber y) :
    numbers.value (PyFloat.min x y) = min (numbers.value x) (numbers.value y) := by
  rw [PyFloat.min, numbers.lt_eq hy hx]
  by_cases h : numbers.value y < numbers.value x
  · rw [if_pos (decide_eq_true h), min_eq_right h.le]
  · rw [if_neg (by simpa using h), min_eq_left (not_lt.mp h)]

/-- The fractions up to the one in place of infinity. -/
def bounded : FloatNumbers ℚ ℚ where
  IsNumber x := -PyInfinite.inf ≤ x ∧ x ≤ PyInfinite.inf
  value x := x
  le_eq _ _ := rfl
  lt_eq _ _ := rfl
  isNumber_neg hx := ⟨neg_le_neg_iff.mpr hx.2, neg_le.mp hx.1⟩
  neg_neg _ := InvolutiveNeg.neg_neg _
  neg_le_neg _ _ := neg_le_neg_iff
  isNumber_inf := by decide +kernel
  le_inf hx := hx.2
  isNumber_zero := by decide +kernel
  isNumber_one := by decide +kernel
  negOne_lt_zero := by decide +kernel

/-- Small integers are numbers. -/
theorem isNumber_bounded {n : ℤ} (h : 0 ≤ n) (h' : n ≤ 1000) : bounded.IsNumber (n : ℚ) := by
  have hinf : (1000 : ℚ) ≤ PyInfinite.inf := by decide +kernel
  have hlow : (0 : ℚ) ≤ n := by exact_mod_cast h
  have hhigh : (n : ℚ) ≤ 1000 := by exact_mod_cast h'
  show -PyInfinite.inf ≤ (n : ℚ) ∧ (n : ℚ) ≤ PyInfinite.inf
  constructor <;> linarith

end FloatNumbers

namespace Netlab.MaximumBottleneck

open BestFirst Routing

variable {F K : Type} [PyInfinite F] [LinearOrder K]

section

variable [PyText F]

/-- The capacity of a link, if it is not below the minimum. -/
def usableCapacity? (minimum : F) (link : Dict String (Json F)) : Option (Option F) := do
  let capacity ← link.getFloat "capacity_mbps" 0.0
  if PyFloat.lt capacity minimum then return none
  return some capacity

/-- What the plugin does with the smallest capacity of a path, its score. The heap holds negated
scores, since it gives the smallest entry. -/
def policy : Policy F F where
  start := PyInfinite.inf
  extend := PyFloat.min
  -- every capacity is above the default, so a node is always reached for the first time
  improves best candidate := PyFloat.lt (best.getD (-1.0)) candidate
  stale best score := PyFloat.lt score (best.getD 0.0)
  enqueue score := -score
  dequeue negative := -negative

/-- The result of the plugin. -/
structure Result (F : Type) where
  route : List String
  reason : String
  bottleneckCapacityMbps : F

/-- The search among the links. -/
def task (context : Dict String (Json F)) (links : List (Link String F)) : Task String F F :=
  ⟨policy, graphOf links, source context, destination context⟩

/-- The result for the best route, if there is one. -/
def conclude : Option (List String × F) → Result F
  | none => ⟨[], "NO_FEASIBLE_ROUTE", 0.0⟩
  | some (route, capacity) => ⟨route, "CANDIDATE_ROUTE", capacity⟩

/-- `plan_route`. -/
def planRoute {value : F → K} (heapq : HeapQueue (entryLt? (F := F)) (entryKey value))
    (context : Dict String (Json F)) : Option (Result F) := do
  let minimum ← parameter? context "minimum_capacity_mbps" 1.0
  let links ← readLinks (usableCapacity? minimum) (← records? context)
  return conclude (← (task context links).bestRoute heapq)

end

/-! ## The policy -/

/-- The capacities that are looked at, and the scores: numbers that are not negative. -/
def IsCapacity (numbers : FloatNumbers F K) (x : F) : Prop :=
  numbers.IsNumber x ∧ numbers.value 0.0 ≤ numbers.value x

theorem lawful (numbers : FloatNumbers F K) :
    (policy (F := F)).Lawful (N := String) entryLt? numbers.value (IsCapacity numbers)
      (IsCapacity numbers) where
  isLabel_start := ⟨numbers.isNumber_inf, numbers.le_inf numbers.isNumber_zero⟩
  isLabel_extend hlabel hweight := by
    refine ⟨numbers.isNumber_min hlabel.1 hweight.1, ?_⟩
    show _ ≤ numbers.value (PyFloat.min _ _)
    rw [numbers.value_min hlabel.1 hweight.1]
    exact le_min hlabel.2 hweight.2
  dequeue_enqueue hlabel := numbers.neg_neg hlabel.1
  -- a node not reached yet has the default capacity `-1.0`, below every capacity
  improves_none {label} hlabel := by
    show PyFloat.lt (-1.0) label = true
    rw [numbers.lt_eq (numbers.isNumber_neg numbers.isNumber_one) hlabel.1]
    exact decide_eq_true (numbers.negOne_lt_zero.trans_le hlabel.2)
  improves_some {old label} hold hlabel := by
    show PyFloat.lt old label = true ↔ numbers.value (-label) < numbers.value (-old)
    rw [numbers.lt_eq hold.1 hlabel.1, decide_eq_true_eq, numbers.neg_lt_neg hlabel.1 hold.1]
  stale_some {best label} hbest hlabel _ := by
    show PyFloat.lt label best = true ↔ numbers.value (-best) < numbers.value (-label)
    rw [numbers.lt_eq hlabel.1 hbest.1, decide_eq_true_eq, numbers.neg_lt_neg hbest.1 hlabel.1]
  rank_le_extend {label weight} hlabel hweight := by
    show numbers.value (-label) ≤ numbers.value (-PyFloat.min label weight)
    rw [numbers.neg_le_neg hlabel.1 (numbers.isNumber_min hlabel.1 hweight.1),
      numbers.value_min hlabel.1 hweight.1]
    exact min_le_left _ _
  extend_le_extend {label label' weight} hlabel hlabel' hweight hle := by
    show numbers.value (-PyFloat.min label weight) ≤ numbers.value (-PyFloat.min label' weight)
    have hle : numbers.value label' ≤ numbers.value label :=
      (numbers.neg_le_neg hlabel.1 hlabel'.1).mp hle
    rw [numbers.neg_le_neg (numbers.isNumber_min hlabel.1 hweight.1)
      (numbers.isNumber_min hlabel'.1 hweight.1), numbers.value_min hlabel.1 hweight.1,
      numbers.value_min hlabel'.1 hweight.1]
    exact min_le_min_right _ hle
  lt?_eq hlabel hlabel' node node' :=
    have hx := numbers.isNumber_neg hlabel.1
    have hy := numbers.isNumber_neg hlabel'.1
    entryLt?_eq (numbers.le_eq hx hy) (numbers.le_eq hy hx) (numbers.lt_eq hx hy)

/-! ## Smallest capacities -/

/-- The smallest of the capacities on a path. -/
def IsBottleneck (path : List (Link String F)) (x : F) : Prop :=
  (∃ link ∈ path, PyFloat.le link.weight x = true) ∧
    ∀ link ∈ path, PyFloat.le x link.weight = true

/-- The label of a path is not above the capacities on it, and not below all of them
and infinity. -/
theorem value_label (numbers : FloatNumbers F K) {path : List (Link String F)}
    (hpath : ∀ link ∈ path, numbers.IsNumber link.weight) :
    numbers.IsNumber (policy.label path) ∧
      (∀ link ∈ path, numbers.value (policy.label path) ≤ numbers.value link.weight) ∧
      ((∃ link ∈ path, numbers.value link.weight ≤ numbers.value (policy.label path)) ∨
        numbers.value PyInfinite.inf ≤ numbers.value (policy.label path)) := by
  -- the empty path has an infinite label, and each link takes the minimum
  induction path using List.reverseRecOn with
  | nil => exact ⟨numbers.isNumber_inf, by simp, Or.inr (le_refl _)⟩
  | append_singleton path last ih =>
      obtain ⟨hnumber, hbelow, habove⟩ := ih fun link hlink =>
        hpath link (List.mem_append_left _ hlink)
      have hlast := hpath last (by simp)
      have hvalue : numbers.value (policy.label (path ++ [last])) =
          min (numbers.value (policy.label path)) (numbers.value last.weight) := by
        rw [Policy.label_concat]
        exact numbers.value_min hnumber hlast
      rw [hvalue]
      refine ⟨?_, fun link hlink => ?_, ?_⟩
      · rw [Policy.label_concat]
        exact numbers.isNumber_min hnumber hlast
      · rcases List.mem_append.mp hlink with hlink | hlink
        · exact (min_le_left _ _).trans (hbelow link hlink)
        · obtain rfl := List.mem_singleton.mp hlink
          exact min_le_right _ _
      · rcases le_total (numbers.value last.weight) (numbers.value (policy.label path)) with h | h
        · exact Or.inl ⟨last, by simp, by rw [min_eq_right h]⟩
        · rw [min_eq_left h]
          refine habove.imp_left fun ⟨link, hlink, hle⟩ => ?_
          exact ⟨link, List.mem_append_left _ hlink, hle⟩

/-- Some link of a path has no more capacity than its label says. -/
theorem exists_le_label (numbers : FloatNumbers F K) {path : List (Link String F)}
    (hpath : ∀ link ∈ path, numbers.IsNumber link.weight) (hne : path ≠ []) :
    ∃ link ∈ path, numbers.value link.weight ≤ numbers.value (policy.label path) := by
  obtain ⟨-, -, hlink | hinf⟩ := value_label numbers hpath
  · exact hlink
  · obtain ⟨first, hfirst⟩ := List.exists_mem_of_ne_nil path hne
    exact ⟨first, hfirst, (numbers.le_inf (hpath first hfirst)).trans hinf⟩

/-- The label of a path with links is its smallest capacity. -/
theorem isBottleneck_label (numbers : FloatNumbers F K) {path : List (Link String F)}
    (hpath : ∀ link ∈ path, numbers.IsNumber link.weight) (hne : path ≠ []) :
    IsBottleneck path (policy.label path) := by
  obtain ⟨hnumber, hbelow, -⟩ := value_label numbers hpath
  obtain ⟨least, hleast, hle⟩ := exists_le_label numbers hpath hne
  refine ⟨⟨least, hleast, ?_⟩, fun link hlink => ?_⟩
  · rw [numbers.le_eq (hpath least hleast) hnumber]
    exact decide_eq_true hle
  · rw [numbers.le_eq hnumber (hpath link hlink)]
    exact decide_eq_true (hbelow link hlink)

/-! ## Optimality -/

section

variable [PyText F]

/-- A feasible link of the records with at least the minimum capacity. -/
def IsUsable (minimum : F) (records : List (Json F)) (link : Link String F) : Prop :=
  ∃ record ∈ records, ∃ fields, record.dict? = some fields ∧ isFeasible fields = true ∧
    link.src = src fields ∧ link.dst = dst fields ∧
    fields.getFloat "capacity_mbps" 0.0 = some link.weight ∧
    PyFloat.le minimum link.weight = true

/-- A record of a link: an object that has a number for its capacity if it is feasible. -/
def IsRecord (numbers : FloatNumbers F K) (record : Json F) : Prop :=
  ∃ fields, record.dict? = some fields ∧ (isFeasible fields = true →
    ∃ capacity, fields.getFloat "capacity_mbps" 0.0 = some capacity ∧ numbers.IsNumber capacity)

theorem usableCapacity?_eq_some {minimum capacity : F} {fields : Dict String (Json F)} :
    usableCapacity? minimum fields = some (some capacity) ↔
      fields.getFloat "capacity_mbps" 0.0 = some capacity ∧
        PyFloat.lt capacity minimum = false := by
  unfold usableCapacity?
  cases fields.getFloat "capacity_mbps" 0.0 with
  | none => simp
  | some x =>
      by_cases hlow : PyFloat.lt x minimum = true
      · have himp : x = capacity → ¬ PyFloat.lt capacity minimum = false := by
          rintro rfl
          simp [hlow]
        simpa [hlow] using himp
      · have himp : x = capacity → PyFloat.lt capacity minimum = false := by
          rintro rfl
          simpa using hlow
        simpa [hlow] using himp

/-- The links that are searched over are the usable ones. -/
theorem exists_usableLinks (numbers : FloatNumbers F K) {minimum : F}
    (hminimum : numbers.IsNumber minimum) {records : List (Json F)}
    (hrecords : ∀ record ∈ records, IsRecord numbers record) :
    ∃ links, readLinks (usableCapacity? minimum) records = some links ∧
      ∀ link, link ∈ links ↔ IsUsable minimum records link := by
  have hread : ∀ record ∈ records, ∃ fields, record.dict? = some fields ∧
      (isFeasible fields = true → ∃ weight, usableCapacity? minimum fields = some weight) := by
    intro record hrecord
    obtain ⟨fields, hfields, hcapacity⟩ := hrecords record hrecord
    refine ⟨fields, hfields, fun hfeasible => ?_⟩
    obtain ⟨capacity, hcapacity, -⟩ := hcapacity hfeasible
    unfold usableCapacity?
    simp only [hcapacity, bind, Option.bind_some]
    split
    · exact ⟨_, rfl⟩
    · exact ⟨_, rfl⟩
  obtain ⟨links, hlinks, hmem⟩ := exists_readLinks hread
  refine ⟨links, hlinks, fun link => (hmem link).trans ?_⟩
  simp only [IsLinkOf, IsUsable, usableCapacity?_eq_some]
  refine exists_congr fun record => and_congr_right fun hrecord => exists_congr fun fields =>
    and_congr_right fun hfields => and_congr_right fun hfeasible => and_congr_right fun _ =>
      and_congr_right fun _ => and_congr_right fun hcapacity => ?_
  -- a capacity is a number, so it is at least the minimum when it is not below it
  obtain ⟨fields', hfields', hnumber⟩ := hrecords record hrecord
  obtain rfl : fields = fields' := Option.some.inj (hfields.symm.trans hfields')
  obtain ⟨capacity, hcapacity', hnumber⟩ := hnumber hfeasible
  obtain rfl : capacity = link.weight := Option.some.inj (hcapacity'.symm.trans hcapacity)
  rw [numbers.lt_eq hnumber hminimum, numbers.le_eq hminimum hnumber, decide_eq_false_iff_not,
    decide_eq_true_eq, not_lt]

/-- The route of a result is that of a simple path of usable links, the result has its smallest
capacity, and no other path of usable links has more capacity throughout. -/
structure IsWidestPath (usable : Link String F → Prop) (source destination : String)
    (result : Result F) (path : List (Link String F)) : Prop where
  isPath : Path usable source path destination
  route : result.route = nodes source path
  nodup : result.route.Nodup
  bottleneck : IsBottleneck path result.bottleneckCapacityMbps
  widest (other : List (Link String F)) (hother : Path usable source other destination) :
    ∃ link ∈ other, PyFloat.le link.weight result.bottleneckCapacityMbps = true

/-- The plugin returns an empty route when no path of usable links leads to the destination, and a
widest path otherwise. -/
theorem planRoute_widest (numbers : FloatNumbers F K)
    (heapq : HeapQueue (entryLt? (F := F)) (entryKey numbers.value))
    {context : Dict String (Json F)} {minimum : F} {records : List (Json F)}
    (hparameter : parameter? context "minimum_capacity_mbps" 1.0 = some minimum)
    (hminimum : numbers.IsNumber minimum) (hnonneg : PyFloat.le 0.0 minimum = true)
    (hlinks : records? context = some records)
    (hrecords : ∀ record ∈ records, IsRecord numbers record)
    (hne : source context ≠ destination context) :
    ∃ result, planRoute heapq context = some result ∧
      (result.route = [] ↔ ∀ path, ¬ Path (IsUsable minimum records) (source context) path
        (destination context)) ∧
      (result.route ≠ [] → ∃ path, IsWidestPath (IsUsable minimum records) (source context)
        (destination context) result path) := by
  obtain ⟨links, hread, hmem⟩ := exists_usableLinks numbers hminimum hrecords
  have hcapacity : ∀ link ∈ links, IsCapacity numbers link.weight := by
    intro link hlink
    obtain ⟨record, hrecord, fields, hfields, hfeasible, -, -, hget, hle⟩ := (hmem link).mp hlink
    obtain ⟨fields', hfields', hnumber⟩ := hrecords record hrecord
    obtain rfl : fields = fields' := Option.some.inj (hfields.symm.trans hfields')
    obtain ⟨capacity, hcapacity, hnumber⟩ := hnumber hfeasible
    obtain rfl : capacity = link.weight := Option.some.inj (hcapacity.symm.trans hget)
    rw [numbers.le_eq hminimum hnumber, decide_eq_true_eq] at hle
    rw [numbers.le_eq numbers.isNumber_zero hminimum, decide_eq_true_eq] at hnonneg
    exact ⟨hnumber, hnonneg.trans hle⟩
  have hto : ∀ {path}, Path (· ∈ links) (source context) path (destination context) →
      Path (IsUsable minimum records) (source context) path (destination context) :=
    fun h => h.imp fun link => (hmem link).mp
  have hfrom : ∀ {path}, Path (IsUsable minimum records) (source context) path
      (destination context) → Path (· ∈ links) (source context) path (destination context) :=
    fun h => h.imp fun link => (hmem link).mpr
  -- a path has links, and their capacities are numbers
  have hpath : ∀ {path}, Path (· ∈ links) (source context) path (destination context) →
      (∀ link ∈ path, numbers.IsNumber link.weight) ∧ path ≠ [] := by
    intro path h
    refine ⟨fun link hlink => (hcapacity link (h.isUsable link hlink)).1, ?_⟩
    rintro rfl
    exact hne h.eq_of_nil.symm
  have hplan : planRoute heapq context = ((task context links).bestRoute heapq).map conclude := by
    simp only [planRoute, hparameter, hlinks, hread, bind, Option.bind_some, pure]
    exact Option.map_eq_bind.symm
  rw [hplan]
  rcases Task.bestRoute_spec heapq (task context links) (lawful numbers) rfl hcapacity with
    ⟨hroute, hno⟩ | ⟨path, hisPath, hroute, hnodup, hbest⟩
  · rw [hroute]
    refine ⟨_, rfl, ?_, fun h => absurd rfl h⟩
    exact iff_of_true rfl fun path h => hno path (hfrom h)
  · rw [hroute]
    refine ⟨_, rfl, ?_, fun _ => ⟨path, hto hisPath, rfl, hnodup, ?_, ?_⟩⟩
    · exact iff_of_false (List.cons_ne_nil _ _) fun h => h path (hto hisPath)
    · exact isBottleneck_label numbers (hpath hisPath).1 (hpath hisPath).2
    · intro other hother
      obtain ⟨hnumbers, hlinks⟩ := hpath (hfrom hother)
      obtain ⟨least, hleast, hle⟩ := exists_le_label numbers hnumbers hlinks
      refine ⟨least, hleast, ?_⟩
      have hlabel := (value_label numbers (hpath hisPath).1).1
      have hrank := (numbers.neg_le_neg hlabel (value_label numbers hnumbers).1).mp
        (hbest other (hfrom hother))
      exact (numbers.le_eq (hnumbers least hleast) hlabel).trans
        (decide_eq_true (hle.trans hrank))

end

/-- The record of a feasible link. -/
def relayRecord (src dst : String) (capacity : ℤ) : Json ℚ :=
  .obj [("src", .str src), ("dst", .str dst), ("feasible", .bool true),
    ("capacity_mbps", .int capacity)]

/-- A link, and a way around it with more capacity. -/
def relayRecords : List (Json ℚ) :=
  [relayRecord "station" "uav_2" 2, relayRecord "station" "uav_1" 5, relayRecord "uav_1" "uav_2" 3]

/-- The context of a route from the station to the second UAV. -/
def relayContext : Dict String (Json ℚ) :=
  .ofList [("destination", .str "uav_2"), ("links", .arr relayRecords)]

theorem planRoute_widest_relay :
    ∃ result, planRoute (.sorted _ (entryKey FloatNumbers.bounded.value)) relayContext =
        some result ∧
      (result.route = [] ↔ ∀ path, ¬ Path (IsUsable 1.0 relayRecords) (source relayContext) path
        (destination relayContext)) ∧
      (result.route ≠ [] → ∃ path, IsWidestPath (IsUsable 1.0 relayRecords) (source relayContext)
        (destination relayContext) result path) := by
  have hrecord : ∀ src dst : String, ∀ capacity : ℤ, 0 ≤ capacity → capacity ≤ 1000 →
      IsRecord FloatNumbers.bounded (relayRecord src dst capacity) :=
    fun src dst capacity hlow hhigh =>
      ⟨_, rfl, fun _ => ⟨capacity, rfl, FloatNumbers.isNumber_bounded hlow hhigh⟩⟩
  refine planRoute_widest FloatNumbers.bounded (.sorted _ _) rfl
    FloatNumbers.bounded.isNumber_one (by decide +kernel) rfl ?_ (by decide +kernel)
  simp only [relayRecords, List.forall_mem_cons]
  exact ⟨hrecord _ _ _ (by decide) (by decide), hrecord _ _ _ (by decide) (by decide),
    hrecord _ _ _ (by decide) (by decide), by simp⟩

end Netlab.MaximumBottleneck
