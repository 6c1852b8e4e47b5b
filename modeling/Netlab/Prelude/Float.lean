import Netlab.Prelude.Json
import Mathlib.Analysis.SpecialFunctions.Log.Base
import Mathlib.Analysis.SpecialFunctions.Trigonometric.Basic

/-!
# Floating-point numbers as a Python program uses them

The operations on floats that the link budget, the safety shield and the relay chain call, over an
arbitrary type of floats. Each rounds, overflows or raises as the class says; nothing here assumes
that addition is associative or that a comparison is total. `PyFloat ℝ` is exact arithmetic: no
operation rounds, every value is finite, and the only operations that raise are a division by zero
and a logarithm of a number that is not positive.
-/

/-- A type of floats with Python's operators and the functions of `math`. An operation that raises
gives `none`. -/
class PyFloat (F : Type) extends Add F, Sub F, Mul F, Neg F, OfScientific F where
  /-- `x <= y`. -/
  le : F → F → Bool
  /-- `x < y`. -/
  lt : F → F → Bool
  /-- `x / y`. -/
  div : F → F → Option F
  /-- `float(n)` of an integer. -/
  ofInt : ℤ → Option F
  /-- `int(x)`, which truncates. -/
  trunc : F → Option ℤ
  /-- `math.isfinite(x)`. -/
  isFinite : F → Bool
  /-- `sum(xs)`. -/
  sum : List F → F
  /-- `math.sqrt` of a sum of squares: `math.dist` of two points. -/
  dist : F × F × F → F × F × F → F
  /-- `math.pi`. -/
  pi : F
  /-- `math.log10(x)`. -/
  log10 : F → Option F
  /-- `math.log2(x)`. -/
  log2 : F → Option F
  /-- `10.0 ** x`. -/
  tenPow : F → Option F

open Classical in
/-- Exact arithmetic. -/
noncomputable instance : PyFloat ℝ where
  le x y := decide (x ≤ y)
  lt x y := decide (x < y)
  div x y := if y = 0 then none else some (x / y)
  ofInt n := some n
  trunc x := some (if 0 ≤ x then ⌊x⌋ else ⌈x⌉)
  isFinite _ := true
  sum := List.sum
  dist p q := √((p.1 - q.1) ^ 2 + (p.2.1 - q.2.1) ^ 2 + (p.2.2 - q.2.2) ^ 2)
  pi := Real.pi
  log10 x := if 0 < x then some (Real.logb 10.0 x) else none
  log2 x := if 0 < x then some (Real.logb 2.0 x) else none
  tenPow x := some ((10.0 : ℝ) ^ x)

open Classical in
/-- The text conversions of exact numbers, for evaluations on concrete values. Of the numerals a
string can hold, only the integer ones are read, and only integral numbers are printed in full. -/
@[reducible] noncomputable def PyText.exact : PyText ℝ where
  truthy x := x ≠ 0
  text x := toString ⌊x⌋ ++ ".0"
  quote s := "'" ++ s ++ "'"
  strip := asciiStrip
  lower := asciiLower
  ofText s := (decimalInt? s).map fun n => (n : ℝ)
  intOfText := decimalInt?

/-- A type of floats with the trigonometric functions of `math` and the comparison of points. The
cosine and the sine of an infinite angle raise. -/
class PyTrig (F : Type) extends PyFloat F where
  /-- `math.radians(x)`. -/
  radians : F → F
  /-- `math.cos(x)`. -/
  cos : F → Option F
  /-- `math.sin(x)`. -/
  sin : F → Option F
  /-- `p == q` of two tuples of coordinates. -/
  samePoint : F × F × F → F × F × F → Bool

/-- Exact fractions as floats, for evaluations on concrete values. Functions with irrational values
are right where the value is a fraction: distances along an axis, and angles at zero. Powers and
logarithms are not given, and the circle number is a fraction close to it. -/
instance : PyTrig ℚ where
  le x y := decide (x ≤ y)
  lt x y := decide (x < y)
  div x y := if y = 0 then none else some (x / y)
  ofInt n := some n
  trunc x := some (x.num.tdiv x.den)
  isFinite _ := true
  sum xs := xs.foldl (· + ·) 0
  dist p q := |p.1 - q.1| + |p.2.1 - q.2.1| + |p.2.2 - q.2.2|
  pi := 355 / 113
  log10 _ := none
  log2 _ := none
  tenPow _ := none
  radians x := x * (355 / 113) / 180
  cos x := if x = 0 then some 1 else none
  sin x := if x = 0 then some 0 else none
  samePoint p q := decide (p = q)

namespace PyFloat

variable {F : Type} [PyFloat F]

/-- `max(x, y)`, which keeps the first of two values that do not compare. -/
def max (x y : F) : F := if lt x y then y else x

/-- `min(x, y)`, which keeps the first of two values that do not compare. -/
def min (x y : F) : F := if lt y x then y else x

@[simp] theorem le_real (x y : ℝ) : le x y = decide (x ≤ y) := by
  show @decide _ (Classical.propDecidable _) = _
  congr

@[simp] theorem lt_real (x y : ℝ) : lt x y = decide (x < y) := by
  show @decide _ (Classical.propDecidable _) = _
  congr

theorem div_real {x y : ℝ} (h : y ≠ 0) : div x y = some (x / y) := if_neg h

@[simp] theorem isFinite_real (x : ℝ) : isFinite x = true := rfl

@[simp] theorem sum_real (xs : List ℝ) : sum xs = xs.sum := rfl

theorem log10_real {x : ℝ} (h : 0 < x) : log10 x = some (Real.logb 10 x) := by
  have hbase : (10.0 : ℝ) = 10 := by norm_num
  rw [← hbase]
  exact if_pos h

theorem log2_real {x : ℝ} (h : 0 < x) : log2 x = some (Real.logb 2 x) := by
  have hbase : (2.0 : ℝ) = 2 := by norm_num
  rw [← hbase]
  exact if_pos h

@[simp] theorem tenPow_real (x : ℝ) : tenPow x = some ((10 : ℝ) ^ x) := by
  have hbase : (10.0 : ℝ) = 10 := by norm_num
  rw [← hbase]
  rfl

@[simp] theorem max_real (x y : ℝ) : max x y = Max.max x y := by
  rw [max, lt_real]
  by_cases h : x < y
  · rw [if_pos (by simpa using h), max_eq_right h.le]
  · rw [if_neg (by simpa using h), max_eq_left (not_lt.mp h)]

end PyFloat

/-- A point or a vector of three coordinates. -/
structure Vec3 (F : Type) where
  x : F
  y : F
  z : F
  deriving DecidableEq, Inhabited

/-- `math.dist(p, q)`. -/
def Vec3.dist {F : Type} [PyFloat F] (p q : Vec3 F) : F :=
  PyFloat.dist (p.x, p.y, p.z) (q.x, q.y, q.z)

theorem Vec3.dist_real (p q : Vec3 ℝ) :
    p.dist q = √((p.x - q.x) ^ 2 + (p.y - q.y) ^ 2 + (p.z - q.z) ^ 2) := rfl

theorem Vec3.dist_comm (p q : Vec3 ℝ) : p.dist q = q.dist p := by
  rw [dist_real, dist_real]
  congr 1
  ring

namespace Json

variable {F : Type} [PyText F] [PyFloat F]

/-- `float(value)`. -/
def toFloat? : Json F → Option F
  | bool b => PyFloat.ofInt (if b then 1 else 0)
  | int n => PyFloat.ofInt n
  | float x => some x
  | str s => PyText.ofText s
  | _ => none

/-- `int(value)`. -/
def toInt? : Json F → Option ℤ
  | bool b => some (if b then 1 else 0)
  | int n => some n
  | float x => PyFloat.trunc x
  | str s => PyText.intOfText F s
  | _ => none

@[simp] theorem toFloat?_float (x : F) : (float x : Json F).toFloat? = some x := rfl

mutual

/-- The value with every number that is not finite replaced by `null`. -/
def safe : Json F → Json F
  | float x => if PyFloat.isFinite x then float x else null
  | arr items => arr (safeItems items)
  | obj members => obj (safeMembers members)
  | value => value

/-- `safe` for each item of a list. -/
def safeItems : List (Json F) → List (Json F)
  | [] => []
  | item :: items => item.safe :: safeItems items

/-- `safe` for each member of an object. -/
def safeMembers : List (String × Json F) → List (String × Json F)
  | [] => []
  | (key, value) :: members => (key, value.safe) :: safeMembers members

end

end Json

namespace Dict

variable {F : Type} [PyText F] [PyFloat F]

/-- `value.get(key, default)`. -/
def getD (value : Dict String (Json F)) (key : String) (default : Json F) : Json F :=
  (value.get? key).getD default

/-- `float(value.get(key, default))`. -/
def getFloat (value : Dict String (Json F)) (key : String) (default : F) : Option F :=
  (value.getD key (.float default)).toFloat?

/-- `float(value.get(key, value.get(other, default)))`. -/
def getFloatOr (value : Dict String (Json F)) (key other : String) (default : F) : Option F :=
  (value.getD key (value.getD other (.float default))).toFloat?

/-- `bool(value.get(key, default))`. -/
def getBool (value : Dict String (Json F)) (key : String) (default : Bool) : Bool :=
  (value.getD key (.bool default)).truthy

/-- `str(value.get(key, value.get(other, default)))`. -/
def getTextOr (value : Dict String (Json F)) (key other default : String) : String :=
  (value.getD key (value.getD other (.str default))).toText

/-- `str(value.get(key, default))`. -/
def getText (value : Dict String (Json F)) (key default : String) : String :=
  (value.getD key (.str default)).toText

end Dict
