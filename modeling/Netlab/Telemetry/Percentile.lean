import Netlab.Prelude.Interpolate
import Mathlib.Algebra.Order.BigOperators.Group.List
import Mathlib.Data.Rat.Floor
import Mathlib.Tactic.FieldSimp
import Mathlib.Tactic.Positivity

/-!
# Percentiles

The descriptive statistics of `netlab/telemetry.py` in exact arithmetic. `percentile` sorts the
finite readings and reads between two neighbours on a straight line: it is the interpolation of the
sorted data at a position that grows with `q` (`percentile_eq_interpolate`). The laws of percentiles
follow from those of the interpolation.
-/

namespace Netlab.Telemetry

/-- A float as it is read: a number, or one of the values for which `math.isfinite` fails. -/
inductive Reading (K : Type)
  | finite (x : K)
  | infinite (negative : Bool)
  | nan

variable {K : Type}

/-- The number that a finite reading is. -/
def Reading.finite? : Reading K → Option K
  | finite x => some x
  | _ => none

/-- The readings that are finite. -/
def finiteReadings (values : List (Reading K)) : List K := values.filterMap Reading.finite?

section Definitions

variable [Field K] [LinearOrder K]

/-- The finite readings in ascending order. -/
def sortedReadings (values : List (Reading K)) : List K :=
  (finiteReadings values).insertionSort (· ≤ ·)

/-- The value at a position of sorted readings; between two readings it is on a straight line. -/
def valueAt [FloorRing K] (ordered : List K) (position : K) : Option K :=
  let lower := ⌊position⌋
  let upper := ⌈position⌉
  if lower = upper then ordered[lower.toNat]?
  else do
    let fraction := position - lower
    return (← ordered[lower.toNat]?) * (1 - fraction) + (← ordered[upper.toNat]?) * fraction

/-- The value at the part `q` of the sorted finite readings (`percentile`); without readings there
is none. -/
def percentile [FloorRing K] (values : List (Reading K)) (q : K) : Option K :=
  let ordered := sortedReadings values
  if ordered = [] then none
  else valueAt ordered ((ordered.length - 1) * max 0 (min 1 q))

/-- The middle element of sorted data, or the mean of the two in the middle. -/
def middle (ordered : List K) : Option K :=
  if ordered.length % 2 = 1 then ordered[ordered.length / 2]?
  else do
    return ((← ordered[ordered.length / 2 - 1]?) + (← ordered[ordered.length / 2]?)) / (2 : ℕ)

/-- `statistics.median`. -/
def median (data : List K) : Option K := middle (data.insertionSort (· ≤ ·))

/-- `statistics.fmean`. -/
def mean (data : List K) : K := data.sum / data.length

/-- What `describe` says about a series. Without finite readings every entry is `None`. -/
structure Description (K : Type) where
  count : Option K := none
  mean : Option K := none
  median : Option K := none
  stddev : Option K := none
  min : Option K := none
  max : Option K := none
  p05 : Option K := none
  p50 : Option K := none
  p95 : Option K := none

/-- Describe a series of readings (`describe`). The square root of `statistics.pstdev` is a
parameter. -/
def describe [FloorRing K] (sqrt : K → K) (values : List (Reading K)) : Description K :=
  let data := finiteReadings values
  if data = [] then {}
  else
    { count := some data.length
      mean := some (mean data)
      median := median data
      -- the deviation of the whole population, and not the estimate from a sample
      stddev := some (if 1 < data.length then
        sqrt (mean (data.map fun x => (x - mean data) ^ 2)) else 0)
      min := data.min?
      max := data.max?
      p05 := percentile (data.map .finite) 0.05
      p50 := percentile (data.map .finite) 0.50
      p95 := percentile (data.map .finite) 0.95 }

end Definitions

@[simp] theorem finiteReadings_finite (data : List K) :
    finiteReadings (data.map .finite) = data := by
  rw [finiteReadings, List.filterMap_map]
  exact List.filterMap_some

/-! ## Sorted readings -/

section Sorted

variable [LinearOrder K]

theorem sortedReadings_ne_nil {values : List (Reading K)} (h : finiteReadings values ≠ []) :
    sortedReadings values ≠ [] := by
  rwa [sortedReadings, Ne, ← List.length_eq_zero_iff, List.length_insertionSort,
    List.length_eq_zero_iff]

theorem mem_sortedReadings {values : List (Reading K)} {x : K} :
    x ∈ sortedReadings values ↔ x ∈ finiteReadings values := List.mem_insertionSort _

theorem sortedLE_sortedReadings (values : List (Reading K)) : (sortedReadings values).SortedLE :=
  List.sortedLE_iff_pairwise.mpr (List.pairwise_insertionSort _ _)

/-- The order of the readings makes no difference. -/
theorem sortedReadings_perm {values values' : List (Reading K)} (h : values.Perm values') :
    sortedReadings values = sortedReadings values' := by
  have hperm : (sortedReadings values).Perm (sortedReadings values') :=
    ((List.perm_insertionSort _ _).trans (h.filterMap _)).trans (List.perm_insertionSort _ _).symm
  exact List.Perm.eq_of_pairwise' (List.pairwise_insertionSort _ _)
    (List.pairwise_insertionSort _ _) hperm

/-- The first of the sorted readings is the least one. -/
theorem min?_finiteReadings {values : List (Reading K)} (h : finiteReadings values ≠ []) :
    (finiteReadings values).min? =
      some ((sortedReadings values).sample (sortedReadings_ne_nil h) 0) := by
  rw [List.min?_eq_some_iff]
  refine ⟨mem_sortedReadings.mp (List.sample_mem _ _), fun x hx => ?_⟩
  obtain ⟨i, rfl⟩ := List.exists_sample_of_mem (sortedReadings_ne_nil h) (mem_sortedReadings.mpr hx)
  exact List.monotone_sample _ (sortedLE_sortedReadings values) (Nat.zero_le i)

/-- The last of the sorted readings is the greatest one. -/
theorem max?_finiteReadings {values : List (Reading K)} (h : finiteReadings values ≠ []) :
    (finiteReadings values).max? =
      some ((sortedReadings values).sample (sortedReadings_ne_nil h)
        ((sortedReadings values).length - 1)) := by
  rw [List.max?_eq_some_iff]
  refine ⟨mem_sortedReadings.mp (List.sample_mem _ _), fun x hx => ?_⟩
  obtain ⟨i, rfl⟩ := List.exists_sample_of_mem (sortedReadings_ne_nil h) (mem_sortedReadings.mpr hx)
  exact List.monotone_sample _ (sortedLE_sortedReadings values) (Nat.le_sub_one_of_lt i.2)

end Sorted

/-! ## The interpolation -/

variable [Field K] [LinearOrder K] [FloorRing K]

theorem percentile_perm {values values' : List (Reading K)} (h : values.Perm values') (q : K) :
    percentile values q = percentile values' q := by
  rw [percentile, percentile, sortedReadings_perm h]

/-- Outside of `[0, 1]` the percentile is that of the next bound. -/
theorem percentile_clamp (values : List (Reading K)) (q : K) :
    percentile values (max 0 (min 1 q)) = percentile values q := by
  have hclamp : max 0 (min 1 (max 0 (min 1 q))) = max 0 (min 1 q) := by
    rw [min_eq_right (max_le zero_le_one (min_le_left 1 q)), max_eq_right (le_max_left 0 _)]
  rw [percentile, percentile, hclamp]

/-- What `describe` reports where there are finite readings. -/
theorem describe_eq {values : List (Reading K)} (h : finiteReadings values ≠ []) (sqrt : K → K) :
    (describe sqrt values).median = median (finiteReadings values) ∧
      (describe sqrt values).min = (finiteReadings values).min? ∧
      (describe sqrt values).max = (finiteReadings values).max? ∧
      (describe sqrt values).p05 = percentile values 0.05 ∧
      (describe sqrt values).p50 = percentile values 0.50 ∧
      (describe sqrt values).p95 = percentile values 0.95 := by
  have hdata : ∀ q : K,
      percentile ((finiteReadings values).map .finite) q = percentile values q := by
    intro q
    rw [percentile, percentile, sortedReadings, finiteReadings_finite, ← sortedReadings]
  simp only [describe, if_neg h, hdata, and_self]

variable [IsStrictOrderedRing K]

/-- Where `q` lies among the sorted readings. -/
def rank (values : List (Reading K)) (q : K) : K :=
  ((sortedReadings values).length - 1) * max 0 (min 1 q)

theorem length_sub_one_nonneg {values : List (Reading K)} (h : finiteReadings values ≠ []) :
    (0 : K) ≤ (sortedReadings values).length - 1 := by
  have hlen : 1 ≤ (sortedReadings values).length :=
    List.length_pos_iff.mpr (sortedReadings_ne_nil h)
  have hcast : (1 : K) ≤ (sortedReadings values).length := by exact_mod_cast hlen
  linarith

theorem rank_nonneg {values : List (Reading K)} (h : finiteReadings values ≠ []) (q : K) :
    0 ≤ rank values q :=
  mul_nonneg (length_sub_one_nonneg h) (le_max_left 0 _)

theorem rank_mono {values : List (Reading K)} (h : finiteReadings values ≠ []) :
    Monotone (rank values) := by
  intro q q' hq
  exact mul_le_mul_of_nonneg_left (max_le_max_left 0 (min_le_min_left 1 hq))
    (length_sub_one_nonneg h)

theorem rank_le {values : List (Reading K)} (h : finiteReadings values ≠ []) (q : K) :
    rank values q ≤ (sortedReadings values).length - 1 :=
  mul_le_of_le_one_right (length_sub_one_nonneg h) (max_le zero_le_one (min_le_left 1 q))

/-- The value at a position of a list is read off the interpolation. -/
theorem valueAt_eq_interpolate {ordered : List K} (hne : ordered ≠ []) {position : K}
    (hnonneg : 0 ≤ position) (hle : position ≤ ordered.length - 1) :
    valueAt ordered position = some (interpolate (ordered.sample hne) position) := by
  have hlen : 1 ≤ ordered.length := List.length_pos_iff.mpr hne
  have hcast : ((ordered.length - 1 : ℕ) : K) = (ordered.length : K) - 1 := by
    rw [Nat.cast_sub hlen, Nat.cast_one]
  have hceil : ⌈position⌉₊ < ordered.length := by
    have hbound : ⌈position⌉₊ ≤ ordered.length - 1 := Nat.ceil_le.mpr (hcast ▸ hle)
    omega
  have hfloor : ⌊position⌋₊ < ordered.length := (Nat.floor_le_ceil position).trans_lt hceil
  have hcastFloor : (⌊position⌋ : K) = ⌊position⌋₊ := (natCast_floor_eq_intCast_floor hnonneg).symm
  have hcastCeil : (⌈position⌉ : K) = ⌈position⌉₊ := (natCast_ceil_eq_intCast_ceil hnonneg).symm
  rw [valueAt, Int.floor_toNat, Int.ceil_toNat, List.getElem?_eq_sample hne hfloor,
    List.getElem?_eq_sample hne hceil]
  dsimp only
  split
  · -- at a reading
    rename_i heq
    have hposition : position = ⌊position⌋₊ := by
      rw [← hcastFloor]
      exact le_antisymm (heq ▸ Int.le_ceil position) (Int.floor_le position)
    rw [hposition, interpolate_natCast, Nat.floor_natCast]
  · -- between two readings
    rename_i hneq
    have hnext : ⌈position⌉₊ = ⌊position⌋₊ + 1 := by
      refine le_antisymm (Nat.ceil_le_floor_add_one position) (Nat.lt_ceil.mpr ?_)
      rw [← hcastFloor]
      refine lt_of_le_of_ne (Int.floor_le position) fun heq => hneq ?_
      rw [← heq, Int.floor_intCast, Int.ceil_intCast]
    rw [hnext, interpolate, hcastFloor]
    simp only [Option.bind_eq_bind, Option.bind_some, Option.pure_def, Option.some_inj]
    ring

/-- A percentile is read off the interpolation of the sorted readings. -/
theorem percentile_eq_interpolate {values : List (Reading K)} (h : finiteReadings values ≠ [])
    (q : K) :
    percentile values q =
      some (interpolate ((sortedReadings values).sample (sortedReadings_ne_nil h))
        (rank values q)) := by
  rw [percentile, if_neg (sortedReadings_ne_nil h)]
  exact valueAt_eq_interpolate _ (rank_nonneg h q) (rank_le h q)

/-- The percentiles of readings, as a function. -/
theorem exists_percentile {values : List (Reading K)} (h : finiteReadings values ≠ []) :
    ∃ p : K → K, (∀ q, percentile values q = some (p q)) ∧ Monotone p := by
  refine ⟨_, percentile_eq_interpolate h, fun q q' hq => ?_⟩
  exact monotoneOn_interpolate (List.monotone_sample _ (sortedLE_sortedReadings values))
    (rank_nonneg h q) (rank_nonneg h q') (rank_mono h hq)

/-- The lowest percentile is the minimum. -/
theorem percentile_zero {values : List (Reading K)} (h : finiteReadings values ≠ []) :
    percentile values 0 = (finiteReadings values).min? := by
  have hrank : rank values (0 : K) = (0 : ℕ) := by simp [rank]
  rw [percentile_eq_interpolate h, min?_finiteReadings h, hrank, interpolate_natCast]

/-- The highest percentile is the maximum. -/
theorem percentile_one {values : List (Reading K)} (h : finiteReadings values ≠ []) :
    percentile values 1 = (finiteReadings values).max? := by
  have hrank : rank values (1 : K) = ((sortedReadings values).length - 1 : ℕ) := by
    rw [Nat.cast_sub (List.length_pos_iff.mpr (sortedReadings_ne_nil h)), Nat.cast_one]
    simp [rank]
  rw [percentile_eq_interpolate h, max?_finiteReadings h, hrank, interpolate_natCast]

/-- The middle is read off the interpolation as well. -/
theorem middle_eq_interpolate {ordered : List K} (hne : ordered ≠ []) :
    middle ordered =
      some (interpolate (ordered.sample hne) ((ordered.length - 1) * (1 / 2))) := by
  have hlen : 0 < ordered.length := List.length_pos_iff.mpr hne
  rw [middle]
  split
  · -- an odd number of readings
    rename_i hodd
    obtain ⟨k, hk⟩ : ∃ k, ordered.length = 2 * k + 1 := ⟨ordered.length / 2, by omega⟩
    have hposition : ((ordered.length : K) - 1) * (1 / 2) = k := by
      rw [hk]
      push_cast
      ring
    rw [hposition, interpolate_natCast, ← List.getElem?_eq_sample hne (by omega)]
    congr 1
    omega
  · -- an even number
    rename_i heven
    obtain ⟨k, hk⟩ : ∃ k, ordered.length = 2 * (k + 1) := ⟨ordered.length / 2 - 1, by omega⟩
    have hposition : ((ordered.length : K) - 1) * (1 / 2) = k + 1 / 2 := by
      rw [hk]
      push_cast
      ring
    have hlow : ordered.length / 2 - 1 = k := by omega
    have hhigh : ordered.length / 2 = k + 1 := by omega
    rw [hposition, interpolate_add_half, hlow, hhigh, List.getElem?_eq_sample hne (by omega),
      List.getElem?_eq_sample hne (by omega)]
    rfl

/-- The percentile in the middle is the median. -/
theorem percentile_half {values : List (Reading K)} (h : finiteReadings values ≠ []) :
    percentile values (1 / 2) = median (finiteReadings values) := by
  have hclamp : max 0 (min 1 (1 / 2 : K)) = 1 / 2 := by
    rw [min_eq_right (by linarith), max_eq_right (by linarith)]
  rw [percentile_eq_interpolate h, median, rank, hclamp]
  exact (middle_eq_interpolate (sortedReadings_ne_nil h)).symm

/-- The percentiles of readings do not depend on their order. As a function of `q` they do not
decrease and are constant outside of `[0, 1]`, they lead from the minimum to the maximum, and the
one in the middle is the median that is reported; so the percentiles that are reported are in
order. -/
theorem percentile_laws (sqrt : K → K) (values : List (Reading K))
    (h : finiteReadings values ≠ []) :
    (∀ values', values.Perm values' → ∀ q, percentile values' q = percentile values q) ∧
    ∃ p : K → K, (∀ q, percentile values q = some (p q)) ∧
      Monotone p ∧ (∀ q, p (max 0 (min 1 q)) = p q) ∧
      (∀ q, p 0 ≤ p q ∧ p q ≤ p 1) ∧
      (finiteReadings values).min? = some (p 0) ∧ (finiteReadings values).max? = some (p 1) ∧
      (describe sqrt values).median = some (p (1 / 2)) ∧
      (describe sqrt values).p05 = some (p 0.05) ∧ (describe sqrt values).p50 = some (p 0.50) ∧
      (describe sqrt values).p95 = some (p 0.95) ∧ p 0.05 ≤ p 0.50 ∧ p 0.50 ≤ p 0.95 := by
  obtain ⟨p, hp, hmono⟩ := exists_percentile h
  obtain ⟨hmedian, -, -, h05, h50, h95⟩ := describe_eq h sqrt
  have hclamp : ∀ q, p (max 0 (min 1 q)) = p q := by
    intro q
    rw [← Option.some_inj, ← hp, ← hp, percentile_clamp]
  refine ⟨fun values' hperm q => (percentile_perm hperm q).symm, p, hp, hmono, hclamp,
    fun q => ⟨?_, ?_⟩, (percentile_zero h).symm.trans (hp 0), (percentile_one h).symm.trans (hp 1),
    hmedian.trans ((percentile_half h).symm.trans (hp _)), h05.trans (hp _), h50.trans (hp _),
    h95.trans (hp _), hmono (by norm_num), hmono (by norm_num)⟩
  · rw [← hclamp q]
    exact hmono (le_max_left 0 _)
  · rw [← hclamp q]
    exact hmono (max_le zero_le_one (min_le_left 1 q))

theorem percentile_laws_pair :
    ∃ p : ℚ → ℚ, (∀ q, percentile [.finite 3, .nan, .finite 1] q = some (p q)) ∧ Monotone p := by
  obtain ⟨-, p, hp, hmono, -⟩ :=
    percentile_laws (K := ℚ) id [.finite 3, .nan, .finite 1]
      (by simp [finiteReadings, Reading.finite?])
  exact ⟨p, hp, hmono⟩

end Netlab.Telemetry
