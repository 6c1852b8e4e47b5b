import Netlab.Prelude.Float

/-!
# Equality, rounding and upper case

The remaining built-ins of Python that the experiment configuration uses: `==` on JSON values,
`round` with a number of digits, `str.upper`, and `float` of a counter. As for the other operations
on floats, what they do on a float is left to a class.
-/

/-- A type of floats with Python's equality and `round`. -/
class PyBuiltins (F : Type) extends PyFloat F where
  /-- `x == y`. -/
  eq : F → F → Bool
  /-- `x == n` for an integer `n`. -/
  eqInt : F → ℤ → Bool
  /-- `round(x, digits)`. -/
  round : F → ℕ → F
  /-- `s.upper()`. -/
  upper : String → String

attribute [instance (100)] PyBuiltins.toPyFloat

/-- Exact fractions as floats, for evaluations on concrete values. Ties are rounded up. -/
instance : PyBuiltins ℚ where
  eq x y := decide (x = y)
  eqInt x n := decide (x = n)
  round x digits := ⌊x * 10 ^ digits + 1 / 2⌋ / 10 ^ digits
  upper s := .ofList (s.toList.map Char.toUpper)

open Classical in
/-- Exact arithmetic. Ties are rounded up, and upper case is that of ASCII. -/
noncomputable instance : PyBuiltins ℝ where
  eq x y := decide (x = y)
  eqInt x n := decide (x = n)
  round x digits := ⌊x * 10.0 ^ digits + 0.5⌋ / 10.0 ^ digits
  upper s := .ofList (s.toList.map Char.toUpper)

/-- `float(n)` of a counter. More objects than a float can count are not considered. -/
def PyFloat.ofCount {F : Type} [PyFloat F] (n : ℕ) : F := OfScientific.ofScientific n false 0

namespace Json

variable {F : Type}

/-- The number that a value is: an integer, which a Boolean is too, or a float. -/
def number? : Json F → Option (ℤ ⊕ F)
  | bool b => some (.inl (if b then 1 else 0))
  | int n => some (.inl n)
  | float x => some (.inr x)
  | _ => none

variable [PyBuiltins F]

/-- `m == n` of two numbers. -/
def eqNumber : ℤ ⊕ F → ℤ ⊕ F → Bool
  | .inl m, .inl n => m = n
  | .inl m, .inr y => PyBuiltins.eqInt y m
  | .inr x, .inl n => PyBuiltins.eqInt x n
  | .inr x, .inr y => PyBuiltins.eq x y

mutual

/-- `value == other`. -/
def eq : Json F → Json F → Bool
  | null, null => true
  | str s, str t => s = t
  | arr items, arr others => eqItems items others
  | obj members, obj others => members.length = others.length && eqMembers members (.ofList others)
  | value, other =>
      match value.number?, other.number? with
      | some m, some n => eqNumber m n
      | _, _ => false

/-- Two lists are equal item by item. -/
def eqItems : List (Json F) → List (Json F) → Bool
  | [], [] => true
  | item :: items, other :: others => item.eq other && eqItems items others
  | _, _ => false

/-- Each member is in the other object, with an equal value. -/
def eqMembers : List (String × Json F) → Dict String (Json F) → Bool
  | [], _ => true
  | (key, value) :: members, others =>
      (match others.get? key with
        | some other => value.eq other
        | none => false) && eqMembers members others

end

end Json
