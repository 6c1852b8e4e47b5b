import Mathlib.Algebra.Order.Ring.Rat
import Mathlib.Tactic.GCongr
import Mathlib.Tactic.NormNum

/-!
# Arithmetic that keeps the order

What an arithmetic on numbers keeps of the order when every operation may round its result. Rounding
to the nearest number is monotone and leaves a number that needs no rounding as it is, so binary
floating point has these laws where no result overflows, and so has exact arithmetic. Nothing here
says that addition is associative, or that adding a positive number changes anything.
-/

/-- Numbers in a linear order with operations that may round but keep the order. -/
class Rounded (R : Type) extends LinearOrder R, Zero R, Add R, Sub R, Mul R where
  /-- The number nearest to an integer. -/
  ofInt : ℤ → R
  add_mono {a b : R} (h : a ≤ b) (c : R) : c + a ≤ c + b
  sub_mono {a b : R} (h : a ≤ b) (c : R) : a - c ≤ b - c
  mul_mono {a b c : R} (h : a ≤ b) (hc : 0 ≤ c) : a * c ≤ b * c
  add_nothing (a : R) : a + 0 = a
  sub_same (a : R) : a - a = 0
  nothing_mul (a : R) : 0 * a = 0
  ofInt_nonneg {n : ℤ} (h : 0 ≤ n) : 0 ≤ ofInt n

attribute [instance (100)] Rounded.toZero

namespace Rounded

/-- Exact arithmetic in an ordered ring, where nothing is rounded. -/
abbrev exact (R : Type) [Ring R] [LinearOrder R] [IsStrictOrderedRing R] : Rounded R where
  ofInt n := n
  add_mono h c := by gcongr
  sub_mono h c := by gcongr
  mul_mono h hc := by gcongr
  add_nothing a := by simp
  sub_same a := by simp
  nothing_mul a := by simp
  ofInt_nonneg h := by exact_mod_cast h

instance : Rounded ℚ := exact ℚ

variable {R : Type} [Rounded R]

/-- Adding a number that is not negative does not lower a number. -/
theorem le_add_of_nonneg {b : R} (a : R) (h : 0 ≤ b) : a ≤ a + b := by
  calc a = a + 0 := (add_nothing a).symm
    _ ≤ a + b := add_mono h a

/-- A product of two numbers that are not negative is not negative. -/
theorem nonneg_mul {a b : R} (ha : 0 ≤ a) (hb : 0 ≤ b) : 0 ≤ a * b := by
  calc 0 = 0 * b := (nothing_mul b).symm
    _ ≤ a * b := mul_mono ha hb

end Rounded
