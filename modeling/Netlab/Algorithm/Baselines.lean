import Mathlib.Analysis.SpecialFunctions.Trigonometric.Basic
import Netlab.Algorithm.Shield

/-!
# The baseline algorithms

What the planners of `netlab/algorithm_baselines.py` share: which UAVs and users they look at, where
these are, and their arithmetic on points. An exception is `none`.
-/

/-- A type of floats with the functions that the planners use. A square that is too large raises. -/
class PyPlanner (F : Type) extends PyMotion F, PyTrig F where
  /-- `x ** 2`. -/
  square : F → Option F

attribute [instance (100)] PyPlanner.toPyMotion PyPlanner.toPyTrig

open Classical in
/-- Exact arithmetic. -/
noncomputable instance : PyPlanner ℝ where
  radians x := x * Real.pi / 180.0
  cos x := some (Real.cos x)
  sin x := some (Real.sin x)
  samePoint p q := decide (p = q)
  square x := some (x * x)

/-- Exact fractions as floats, for evaluations on concrete values. -/
instance : PyPlanner ℚ where
  square x := some (x * x)

namespace Netlab.Baseline

variable {F : Type}

/-! ## Points -/

section

variable [PyPlanner F]

/-- `_norm`. -/
def norm (v : Vec3 F) : Option F := do
  return PyMotion.sqrt (PyFloat.sum [← PyPlanner.square v.x, ← PyPlanner.square v.y,
    ← PyPlanner.square v.z])

/-- The origin. -/
def origin : Vec3 F := ⟨0.0, 0.0, 0.0⟩

/-- `_unit`. -/
def unit (v : Vec3 F) : Option (Vec3 F) := do
  let length ← norm v
  if PyFloat.lt 1e-12 length then
    return ⟨← PyFloat.div v.x length, ← PyFloat.div v.y length, ← PyFloat.div v.z length⟩
  else return origin

/-- `_add` of two vectors. -/
def add (v w : Vec3 F) : Vec3 F :=
  ⟨PyFloat.sum [v.x, w.x], PyFloat.sum [v.y, w.y], PyFloat.sum [v.z, w.z]⟩

/-- `_scale`. -/
def scale (v : Vec3 F) (factor : F) : Vec3 F := ⟨v.x * factor, v.y * factor, v.z * factor⟩

/-- `_sub`. -/
def sub (v w : Vec3 F) : Vec3 F := ⟨v.x - w.x, v.y - w.y, v.z - w.z⟩

end

variable [PyText F] [PyPlanner F]

/-- `_centroid`. -/
def centroid (points : List (Vec3 F)) (weights : List F) : Option (Vec3 F) :=
  if points.isEmpty then some origin
  else do
    let w := if weights.isEmpty then points.map fun _ => 1.0 else weights
    let total := if PyText.truthy (PyFloat.sum w) then PyFloat.sum w else 1.0
    let along (axis : Vec3 F → F) : Option F :=
      PyFloat.div (PyFloat.sum (w.zipWith (fun weight point => weight * axis point) points)) total
    return ⟨← along Vec3.x, ← along Vec3.y, ← along Vec3.z⟩

/-! ## UAVs and users -/

/-- The UAVs that take part (`active_uavs`). -/
def activeUavs (snapshot : Dict String (Json F)) : Option (List (Dict String (Json F))) := do
  let value := snapshot.getD "uavs" (.arr [])
  -- an object of UAVs by their identifiers, or a list
  let items ← match value.dict? with
    | some items => some items.values
    | none => value.elements?
  return items.filterMap fun item => do
    let item ← item.dict?
    if isOperational item then some item else none

/-- The keys under which the position of an entity is looked for. -/
def positionKeys : List String :=
  ["measured_position", "simulated_position", "position", "desired_position"]

/-- `position`. -/
def position (item : Dict String (Json F)) : Option (Vec3 F) :=
  match positionKeys.findSome? fun key => longList? (item.getD key .null) with
  | some raw => firstThree? raw
  | none => some origin

/-- `str(item["id"])`. -/
def uavId (item : Dict String (Json F)) : Option String := (item.get? "id").map Json.toText

/-- The user that a ground entity is, if it is one. A type that is a list or an object raises. -/
def userOf (item : Json F) : Option (List (Dict String (Json F))) :=
  match item.dict? with
  | none => some []
  | some user =>
      if !(user.getD "type" .null).isHashable then none
      else if (user.getD "type" .null).isStr "ground_station" ||
          (user.getD "type" .null).isStr "station" then some []
      else some [user]

/-- `_users`. -/
def users (snapshot : Dict String (Json F)) : Option (List (Dict String (Json F))) := do
  let values ← (snapshot.getD "ground_entities" (.arr [])).elements?
  return (← values.mapM userOf).flatten

end Netlab.Baseline
