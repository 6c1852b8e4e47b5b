import Netlab.Prelude.Dict
import Mathlib.Algebra.Order.Ring.Rat
import Mathlib.Data.List.Infix

/-!
# JSON values as a Python program sees them

The values that `json.load` returns, over an arbitrary type `F` of floats, with the operations of
Python on them that do not depend on the program: truth value, `or`, `str`, `dict`, `in` and
subscript. What Python itself decides about a float or a string is taken from the class `PyText`.
An operation that raises gives `none`.
-/

/-- The parts of Python's text conversion that depend on the float type or on Unicode tables. -/
class PyText (F : Type) where
  /-- `bool(x)`. -/
  truthy : F → Bool
  /-- `str(x)`. -/
  text : F → String
  /-- `repr(s)` of a string. -/
  quote : String → String
  /-- `s.strip()`. -/
  strip : String → String
  /-- `s.lower()`. -/
  lower : String → String
  /-- `float(s)`; raises unless `s` reads as a number. -/
  ofText : String → Option F
  /-- `int(s)`; raises unless `s` reads as an integer. -/
  intOfText : String → Option ℤ

/-- `s.strip()` for a string of ASCII characters. -/
def asciiStrip (s : String) : String :=
  let dropLeft (l : List Char) : List Char := l.dropWhile Char.isWhitespace
  .ofList (dropLeft (dropLeft s.toList).reverse).reverse

/-- `s.lower()` for a string of ASCII characters. -/
def asciiLower (s : String) : String := .ofList (s.toList.map Char.toLower)

/-- `int(s)` for a string of decimal digits with an optional sign. -/
def decimalInt? (s : String) : Option ℤ :=
  let digits? (l : List Char) : Option ℕ :=
    if l ≠ [] ∧ l.all Char.isDigit then
      some (l.foldl (fun n c => 10 * n + (c.toNat - '0'.toNat)) 0)
    else none
  match (asciiStrip s).toList with
  | '-' :: l => (digits? l).map fun n => -(n : ℤ)
  | '+' :: l => (digits? l).map fun n => (n : ℤ)
  | l => (digits? l).map fun n => (n : ℤ)

/-- Different integers are written differently. -/
theorem intText_injective : Function.Injective (toString : ℤ → String) := by
  have hnat : ∀ m n : ℕ, m.repr = n.repr → m = n := by
    intro m n h
    have hdigits := congrArg String.toList h
    rw [Nat.toList_repr, Nat.toList_repr] at hdigits
    simpa using congrArg (Nat.ofDigitChars 10 · 0) hdigits
  -- no digit is a sign
  have hsign : ∀ m n : ℕ, m.repr ≠ "-" ++ n.repr := by
    intro m n h
    have hdigit : '-' ∈ Nat.toDigits 10 m := by
      rw [← Nat.toList_repr, h, String.toList_append]
      exact List.mem_append_left _ (by decide)
    exact absurd (Nat.isDigit_of_mem_toDigits (by decide) (by decide) hdigit) (by decide)
  intro i j h
  cases i with
  | ofNat m =>
      cases j with
      | ofNat n => rw [hnat m n h]
      | negSucc n => exact absurd h (hsign m n.succ)
  | negSucc m =>
      cases j with
      | ofNat n => exact absurd h.symm (hsign n m.succ)
      | negSucc n =>
          have hlist : ("-" ++ m.succ.repr).toList = ("-" ++ n.succ.repr).toList :=
            congrArg String.toList h
          rw [String.toList_append, String.toList_append, List.append_right_inj] at hlist
          rw [Nat.succ_injective (hnat _ _ (String.toList_injective hlist))]

/-- Exact fractions as floats, for evaluations on concrete values. Of the numerals a string can
hold, only the integer ones are read. -/
instance : PyText ℚ where
  truthy x := x ≠ 0
  text x := toString x
  quote s := "'" ++ s ++ "'"
  strip := asciiStrip
  lower := asciiLower
  ofText s := (decimalInt? s).map fun n => (n : ℚ)
  intOfText := decimalInt?

/-- A JSON value. An object lists its members as they were read; `Json.dict?` is what Python makes
of them. -/
inductive Json (F : Type)
  | null
  | bool (b : Bool)
  | int (n : ℤ)
  | float (x : F)
  | str (s : String)
  | arr (items : List (Json F))
  | obj (members : List (String × Json F))

namespace Json

variable {F : Type}

/-- The dictionary of an object: of members with one key the last is kept, in the place of the
first. Other values are not mappings. -/
def dict? : Json F → Option (Dict String (Json F))
  | obj members => some (.ofList members)
  | _ => none

/-- `bool(value)`. -/
def truthy [PyText F] : Json F → Bool
  | null => false
  | bool b => b
  | int n => n ≠ 0
  | float x => PyText.truthy x
  | str s => s ≠ ""
  | arr items => !items.isEmpty
  | obj members => !members.isEmpty

/-- `value or other`. -/
def orElse [PyText F] (value other : Json F) : Json F := if value.truthy then value else other

/-- Whether a value is the string `s` (`value == s`). -/
def isStr (s : String) : Json F → Bool
  | str t => t = s
  | _ => false

mutual

/-- `repr(value)`, for objects whose keys are distinct. -/
def repr [PyText F] : Json F → String
  | null => "None"
  | bool b => if b then "True" else "False"
  | int n => toString n
  | float x => PyText.text x
  | str s => PyText.quote F s
  | arr items => "[" ++ reprItems items ++ "]"
  | obj members => "\x7b" ++ reprMembers members ++ "\x7d"

/-- The items of a list, separated by commas. -/
def reprItems [PyText F] : List (Json F) → String
  | [] => ""
  | [item] => item.repr
  | item :: items => item.repr ++ ", " ++ reprItems items

/-- The members of an object, separated by commas. -/
def reprMembers [PyText F] : List (String × Json F) → String
  | [] => ""
  | [(key, value)] => PyText.quote F key ++ ": " ++ value.repr
  | (key, value) :: members =>
      PyText.quote F key ++ ": " ++ value.repr ++ ", " ++ reprMembers members

end

/-- `str(value)`. -/
def toText [PyText F] : Json F → String
  | str s => s
  | value => value.repr

/-- The elements that a `for` loop over the value visits. -/
def elements? : Json F → Option (List (Json F))
  | arr items => some items
  | str s => some (s.toList.map fun c => .str c.toString)
  | obj members => some ((Dict.ofList members).keys.map .str)
  | _ => none

/-- `len(value)`. -/
def length? (value : Json F) : Option ℕ := value.elements?.map List.length

/-- Whether a value can be a key of a dictionary. -/
def isHashable : Json F → Bool
  | arr _ => false
  | obj _ => false
  | _ => true

/-- The key under which `json.dump` writes a dictionary key; lists and objects are no keys. -/
def keyText? [PyText F] : Json F → Option String
  | null => some "null"
  | bool b => some (if b then "true" else "false")
  | int n => some (toString n)
  | float x => some (PyText.text x)
  | str s => some s
  | arr _ => none
  | obj _ => none

/-- `dict(value)`: of an object the object, otherwise the pairs that the value lists. -/
def toDict? [PyText F] (value : Json F) : Option (Dict String (Json F)) :=
  match value.dict? with
  | some d => some d
  | none => do
      let pairs ← (← value.elements?).mapM fun element => do
        match ← element.elements? with
        | [key, item] => return (← key.keyText?, item)
        | _ => none
      return .ofList pairs

/-- What `key in value` and then `value[key] != expected` find: `none` when one of them raises. -/
inductive Found
  | missing
  | equal
  | different
  deriving DecidableEq

/-- Look `key` up in a value that should be an object and compare what is there with a string. -/
def find? (value : Json F) (key expected : String) : Option Found :=
  match value with
  | obj members =>
      match (Dict.ofList members).get? key with
      | none => some .missing
      | some item => some (if item.isStr expected then .equal else .different)
  | arr items => if items.any (isStr key) then none else some .missing
  | str s => if key.toList <:+: s.toList then none else some .missing
  | _ => none

@[simp] theorem isStr_str (s t : String) : (str t : Json F).isStr s = decide (t = s) := rfl

@[simp] theorem toText_str [PyText F] (s : String) : (str s : Json F).toText = s := rfl

theorem isStr_iff {s : String} {value : Json F} : value.isStr s = true ↔ value = str s := by
  cases value <;> simp [isStr]

end Json
