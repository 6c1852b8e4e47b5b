import Netlab.Prelude.Float

/-!
# Steps of limited length

The functions of `math` with which a program limits how far something moves, and what such a limit
does to a real number: it is clamped to an interval, or it comes to lie between where it was and
where it should go.
-/

/-- A type of floats with `==`, `abs` and the functions of `math` that a limited step needs. -/
class PyMotion (F : Type) extends PyFloat F where
  /-- `x == y`. -/
  eq : F → F → Bool
  /-- `math.sqrt(x)` of a number that is not negative. -/
  sqrt : F → F
  /-- `abs(x)`. -/
  abs : F → F
  /-- `math.copysign(x, y)`. -/
  copysign : F → F → F

attribute [instance (100)] PyMotion.toPyFloat

open Classical in
/-- Exact arithmetic. -/
noncomputable instance : PyMotion ℝ where
  eq x y := decide (x = y)
  sqrt := Real.sqrt
  abs x := |x|
  copysign x y := if y < 0 then -|x| else |x|

/-- Exact fractions as floats, for evaluations on concrete values. A square root is right where it
is a fraction. -/
instance : PyMotion ℚ where
  eq x y := decide (x = y)
  sqrt x := x.num.toNat.sqrt / x.den.sqrt
  abs x := |x|
  copysign x y := if y < 0 then -|x| else |x|

namespace PyMotion

theorem eq_real (x y : ℝ) : eq x y = true ↔ x = y := by
  show @decide _ (Classical.propDecidable _) = true ↔ _
  exact decide_eq_true_iff

@[simp] theorem sqrt_real (x : ℝ) : sqrt x = √x := rfl

@[simp] theorem abs_real (x : ℝ) : abs x = |x| := rfl

theorem copysign_real (x y : ℝ) : copysign x y = if y < 0 then -|x| else |x| := by
  show (@ite _ _ (Classical.propDecidable _) _ _) = _
  congr

end PyMotion

/-- A point as a list of numbers. -/
def Vec3.toJson {F : Type} (p : Vec3 F) : Json F := .arr [.float p.x, .float p.y, .float p.z]

namespace PyFloat

@[simp] theorem min_real (x y : ℝ) : min x y = Min.min x y := by
  rw [min, lt_real]
  by_cases h : y < x
  · rw [if_pos (by simpa using h), min_eq_right h.le]
  · rw [if_neg (by simpa using h), min_eq_left (not_lt.mp h)]

end PyFloat

namespace Vec3

/-- Each coordinate of `p` lies between those of `a` and `b`. -/
structure Between (a b p : Vec3 ℝ) : Prop where
  x : p.x ∈ Set.uIcc a.x b.x
  y : p.y ∈ Set.uIcc a.y b.y
  z : p.z ∈ Set.uIcc a.z b.z

/-- A point whose coordinates are no farther from those of `a` is no farther from `a`. -/
theorem dist_le_dist {a p q : Vec3 ℝ} (hx : |p.x - a.x| ≤ |q.x - a.x|)
    (hy : |p.y - a.y| ≤ |q.y - a.y|) (hz : |p.z - a.z| ≤ |q.z - a.z|) : p.dist a ≤ q.dist a := by
  rw [dist_real, dist_real]
  refine Real.sqrt_le_sqrt ?_
  have hx := sq_le_sq.mpr hx
  have hy := sq_le_sq.mpr hy
  have hz := sq_le_sq.mpr hz
  linarith

namespace Between

theorem right (a b : Vec3 ℝ) : Between a b b :=
  ⟨Set.right_mem_uIcc, Set.right_mem_uIcc, Set.right_mem_uIcc⟩

/-- A part of the way. -/
theorem scale (a b : Vec3 ℝ) {s : ℝ} (h0 : 0 ≤ s) (h1 : s ≤ 1) :
    Between a b ⟨a.x + (b.x - a.x) * s, a.y + (b.y - a.y) * s, a.z + (b.z - a.z) * s⟩ := by
  have hmem : ∀ u v : ℝ, u + (v - u) * s ∈ Set.uIcc u v := by
    intro u v
    rcases le_total u v with huv | hvu
    · exact Set.mem_uIcc.mpr (Or.inl ⟨by nlinarith, by nlinarith⟩)
    · exact Set.mem_uIcc.mpr (Or.inr ⟨by nlinarith, by nlinarith⟩)
  exact ⟨hmem _ _, hmem _ _, hmem _ _⟩

/-- A point on the way to a point on the way. -/
theorem trans {a b p q : Vec3 ℝ} (hp : Between a b p) (hq : Between a p q) : Between a b q :=
  ⟨Set.uIcc_subset_uIcc Set.left_mem_uIcc hp.x hq.x,
    Set.uIcc_subset_uIcc Set.left_mem_uIcc hp.y hq.y,
    Set.uIcc_subset_uIcc Set.left_mem_uIcc hp.z hq.z⟩

/-- On the way no point is farther from the start than the end. -/
theorem dist_le {a b p : Vec3 ℝ} (h : Between a b p) : p.dist a ≤ b.dist a := by
  have hcoordinate : ∀ {u v w : ℝ}, w ∈ Set.uIcc u v → |w - u| ≤ |v - u| := fun hw =>
    Set.abs_sub_left_of_mem_uIcc hw
  exact dist_le_dist (hcoordinate h.x) (hcoordinate h.y) (hcoordinate h.z)

end Between

/-- How far a part of the way is. -/
theorem dist_scale (a b : Vec3 ℝ) {s : ℝ} (hs : 0 ≤ s) :
    dist ⟨a.x + (b.x - a.x) * s, a.y + (b.y - a.y) * s, a.z + (b.z - a.z) * s⟩ a =
      b.dist a * s := by
  rw [dist_real, dist_real, ← Real.sqrt_sq hs, ← Real.sqrt_mul (by positivity), Real.sqrt_sq hs]
  congr 1
  ring

end Vec3
