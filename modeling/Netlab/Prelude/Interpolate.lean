import Mathlib.Algebra.Order.Floor.Ring
import Mathlib.Algebra.Order.Floor.Semiring
import Mathlib.Data.List.Sort
import Mathlib.Tactic.Linarith
import Mathlib.Tactic.Ring

/-!
# Linear interpolation

A sequence of values at `0, 1, 2, …` and the straight lines between neighbours (`interpolate`).
Where the sequence does not decrease, neither does the interpolation (`monotoneOn_interpolate`). A
list stands for the sequence that stays at its last element (`List.sample`), which does not decrease
when the list is sorted.
-/

section Interpolate

variable {K : Type*} [Field K] [LinearOrder K] [IsStrictOrderedRing K] [FloorSemiring K]

/-- The value at `x` of the straight lines through the points `(i, f i)`. -/
def interpolate (f : ℕ → K) (x : K) : K := f ⌊x⌋₊ + (f (⌊x⌋₊ + 1) - f ⌊x⌋₊) * (x - ⌊x⌋₊)

@[simp] theorem interpolate_natCast (f : ℕ → K) (n : ℕ) : interpolate f n = f n := by
  simp [interpolate]

/-- Halfway between two points the value is their mean. -/
theorem interpolate_add_half (f : ℕ → K) (n : ℕ) :
    interpolate f (n + 1 / 2) = (f n + f (n + 1)) / 2 := by
  have hfloor : ⌊(n + 1 / 2 : K)⌋₊ = n := by
    rw [Nat.floor_eq_iff (by positivity)]
    constructor <;> linarith
  rw [interpolate, hfloor]
  ring

variable {f : ℕ → K} {x y : K}

/-- The value lies above that at the last point. -/
theorem le_interpolate (hf : Monotone f) (hx : 0 ≤ x) : f ⌊x⌋₊ ≤ interpolate f x :=
  le_add_of_nonneg_right
    (mul_nonneg (sub_nonneg.mpr (hf (Nat.le_succ _))) (sub_nonneg.mpr (Nat.floor_le hx)))

/-- The value lies below that at the next point. -/
theorem interpolate_le (hf : Monotone f) : interpolate f x ≤ f (⌊x⌋₊ + 1) := by
  have hfraction : x - ⌊x⌋₊ ≤ 1 := by
    have hlt := Nat.lt_floor_add_one x
    linarith
  have hstep := mul_le_mul_of_nonneg_left hfraction (sub_nonneg.mpr (hf (Nat.le_succ ⌊x⌋₊)))
  rw [interpolate]
  linarith

/-- The interpolation of a sequence that does not decrease does not decrease. -/
theorem monotoneOn_interpolate (hf : Monotone f) : MonotoneOn (interpolate f) (Set.Ici 0) := by
  intro x hx y hy hxy
  rcases (Nat.floor_mono hxy).eq_or_lt with heq | hlt
  · -- on one line
    rw [interpolate, interpolate, heq]
    have hstep := sub_nonneg.mpr (hf (Nat.le_succ ⌊y⌋₊))
    gcongr
  · -- a point lies between
    calc interpolate f x ≤ f (⌊x⌋₊ + 1) := interpolate_le hf
      _ ≤ f ⌊y⌋₊ := hf hlt
      _ ≤ interpolate f y := le_interpolate hf hy

end Interpolate

namespace List

variable {K : Type*} {xs : List K}

/-- The elements of a list as a sequence; after the last one it stays there. -/
def sample (xs : List K) (h : xs ≠ []) (i : ℕ) : K :=
  xs.get ⟨min i (xs.length - 1), by
    have hlen := length_pos_iff.mpr h
    omega⟩

theorem getElem?_eq_sample (h : xs ≠ []) {i : ℕ} (hi : i < xs.length) :
    xs[i]? = some (xs.sample h i) := by
  have hmin : min i (xs.length - 1) = i := by omega
  rw [getElem?_eq_getElem hi]
  simp [sample, hmin]

theorem sample_mem (h : xs ≠ []) (i : ℕ) : xs.sample h i ∈ xs := get_mem _ _

theorem exists_sample_of_mem (h : xs ≠ []) {x : K} (hx : x ∈ xs) :
    ∃ i : Fin xs.length, xs.sample h i = x := by
  obtain ⟨i, hi, rfl⟩ := mem_iff_getElem.mp hx
  refine ⟨⟨i, hi⟩, Option.some_inj.mp ?_⟩
  rw [← getElem?_eq_sample _ hi, getElem?_eq_getElem hi]

theorem monotone_sample [LinearOrder K] (h : xs ≠ []) (hsorted : xs.SortedLE) :
    Monotone (xs.sample h) := by
  intro i j hij
  exact hsorted.monotone_get (Fin.mk_le_mk.mpr (min_le_min_right _ hij))

end List
