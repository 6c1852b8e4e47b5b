import Netlab.Prelude.Float

/-!
# Floats in order

What `<=` and `<` of Python's floats keep of an order. A float that is not a number compares with
nothing, not even with itself; the others are in a linear order.
-/

namespace PyFloat

/-- Python's comparisons have the laws of an order, as far as numbers go. -/
class Ordered (F : Type) [PyFloat F] : Prop where
  le_trans {x y z : F} : le x y = true → le y z = true → le x z = true
  lt_iff {x y : F} : lt x y = true ↔ le x y = true ∧ le y x = false
  /-- Of two numbers one is at most the other. -/
  total {x y : F} : le x x = true → le y y = true → le x y = true ∨ le y x = true

namespace Ordered

variable {F : Type} [PyFloat F] [Ordered F] {x y z : F}

theorem le_of_lt (h : lt x y = true) : le x y = true := (lt_iff.mp h).1

theorem lt_of_lt_of_le (h : lt x y = true) (h' : le y z = true) : lt x z = true := by
  obtain ⟨hle, hnot⟩ := lt_iff.mp h
  refine lt_iff.mpr ⟨le_trans hle h', ?_⟩
  by_contra hback
  exact Bool.false_ne_true (hnot.symm.trans (le_trans h' (by simpa using hback)))

/-- What is at most a number is not above it. -/
theorem lt_eq_false_of_le (h : le x y = true) : lt y x = false := by
  by_contra hlt
  obtain ⟨-, hnot⟩ := lt_iff.mp (Bool.eq_true_of_not_eq_false hlt)
  exact Bool.false_ne_true (hnot.symm.trans h)

end Ordered

/-- Two floats that `<=` holds of in one direction at least: both are numbers. -/
def Comparable {F : Type} [PyFloat F] (x y : F) : Prop := le x y = true ∨ le y x = true

/-- Of two numbers that compare, one is at most the other unless it is above it. -/
theorem Comparable.le_of_not_lt {F : Type} [PyFloat F] [Ordered F] {x y : F} (h : Comparable x y)
    (hlt : lt y x = false) : le x y = true := by
  rcases h with h | h
  · exact h
  · by_contra hnot
    have := Ordered.lt_iff.mpr ⟨h, Bool.eq_false_of_not_eq_true hnot⟩
    exact Bool.false_ne_true (hlt.symm.trans this)

end PyFloat

namespace PyFloat

/-- The laws of a clock: only numbers compare, and the later an instant, the less time has passed
since. -/
class Timed (F : Type) [PyFloat F] : Prop where
  number_of_le {x y : F} : le x y = true → le x x = true ∧ le y y = true
  sub_le {x y z : F} : isFinite z = true → le x y = true → le (z - y) (z - x) = true

end PyFloat

/-- A type of floats with the laws of Python's comparisons. -/
class PyOrder (F : Type) extends PyFloat F, PyFloat.Ordered F

attribute [instance (100)] PyOrder.toPyFloat

instance : PyFloat.Ordered ℝ where
  le_trans h h' := by
    rw [PyFloat.le_real, decide_eq_true_eq] at *
    exact h.trans h'
  lt_iff := by
    intro x y
    rw [PyFloat.lt_real, PyFloat.le_real, PyFloat.le_real, decide_eq_true_eq, decide_eq_true_eq,
      decide_eq_false_iff_not, not_le]
    exact ⟨fun h => ⟨h.le, h⟩, fun h => h.2⟩
  total {x y} _ _ := by
    rw [PyFloat.le_real, PyFloat.le_real, decide_eq_true_eq, decide_eq_true_eq]
    exact le_total x y

noncomputable instance : PyOrder ℝ where

instance : PyFloat.Ordered ℚ where
  le_trans h h' := decide_eq_true ((of_decide_eq_true h).trans (of_decide_eq_true h'))
  lt_iff {x y} := by
    show decide (x < y) = true ↔ decide (x ≤ y) = true ∧ decide (y ≤ x) = false
    rw [decide_eq_true_eq, decide_eq_true_eq, decide_eq_false_iff_not, not_le]
    exact ⟨fun h => ⟨h.le, h⟩, fun h => h.2⟩
  total {x y} _ _ := by
    show decide (x ≤ y) = true ∨ decide (y ≤ x) = true
    rw [decide_eq_true_eq, decide_eq_true_eq]
    exact le_total x y

instance : PyOrder ℚ where

instance : PyFloat.Timed ℚ where
  number_of_le _ := ⟨decide_eq_true (le_refl _), decide_eq_true (le_refl _)⟩
  sub_le _ h := decide_eq_true (sub_le_sub_left (of_decide_eq_true h) _)
