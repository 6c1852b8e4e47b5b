import Netlab.Prelude.Merge

/-!
# Paths into JSON objects

A path lists the keys that lead through nested objects to a value (`Json.at?`). Storing at a path
creates the objects that are missing on the way and replaces what is no object
(`Json.storeAt`); the other paths, of which neither is a beginning of the other (`Apart`), keep
their values (`at?_storeAt_of_apart`). A merge completes what a path leads to by what the base has
there (`at?_onto`).
-/

namespace Json

variable {F : Type}

/-- The value to which a path leads. -/
def at? (value : Json F) : List String → Option (Json F)
  | [] => some value
  | key :: path => (value.dict?.bind fun d => d.get? key).bind fun member => member.at? path

@[simp] theorem at?_nil (value : Json F) : value.at? [] = some value := by
  rw [at?]

theorem at?_cons (value : Json F) (key : String) (path : List String) :
    value.at? (key :: path) =
      (value.dict?.bind fun d => d.get? key).bind fun member => member.at? path := by
  rw [at?]

@[simp] theorem at?_ofDict_cons (d : Dict String (Json F)) (key : String) (path : List String) :
    (ofDict d).at? (key :: path) = (d.get? key).bind fun member => member.at? path := by
  rw [at?, dict?_ofDict, Option.bind_some]

/-- Neither path leads through the other. -/
def Apart (path path' : List String) : Prop := ¬ path <+: path' ∧ ¬ path' <+: path

instance (path path' : List String) : Decidable (Apart path path') :=
  inferInstanceAs (Decidable (_ ∧ _))

theorem Apart.symm {path path' : List String} (h : Apart path path') : Apart path' path :=
  ⟨h.2, h.1⟩

theorem apart_cons_self {key : String} {path path' : List String} :
    Apart (key :: path) (key :: path') ↔ Apart path path' := by
  simp [Apart, List.cons_prefix_cons]

theorem not_apart_nil (path : List String) : ¬ Apart [] path := fun h => h.1 List.nil_prefix

theorem Apart.ne_nil {path path' : List String} (h : Apart path path') : path' ≠ [] := by
  rintro rfl
  exact not_apart_nil path h.symm

/-- The object at a key of a dictionary; an empty one if there is no object. -/
def objectAt (d : Dict String (Json F)) (key : String) : Dict String (Json F) :=
  ((d.get? key).bind dict?).getD .empty

/-- Store a value at a path that is not empty. -/
def storeAt (d : Dict String (Json F)) (value : Json F) : List String → Dict String (Json F)
  | [] => d
  | [key] => d.set key value
  | key :: next :: path =>
      d.set key (.ofDict (storeAt (objectAt d key) value (next :: path)))

theorem objectAt_of_dict? {d d' : Dict String (Json F)} {key : String}
    (h : (d.get? key).bind dict? = some d') : objectAt d key = d' := by
  rw [objectAt, h, Option.getD_some]

/-- Behind a key there is what its object has. -/
theorem at?_objectAt {d : Dict String (Json F)} {key : String} {path : List String}
    (h : path ≠ []) :
    (ofDict (objectAt d key)).at? path = (d.get? key).bind fun member => member.at? path := by
  obtain ⟨next, path, rfl⟩ := List.exists_cons_of_ne_nil h
  rw [at?_ofDict_cons, objectAt]
  cases d.get? key with
  | none => rfl
  | some member =>
      rw [Option.bind_some, Option.bind_some, at?_cons]
      cases member.dict? <;> rfl

theorem at?_storeAt_self (d : Dict String (Json F)) (value : Json F) {path : List String}
    (h : path ≠ []) : (ofDict (storeAt d value path)).at? path = some value := by
  induction d, path using storeAt.induct with
  | case1 => exact absurd rfl h
  | case2 d key => rw [storeAt, at?_ofDict_cons, Dict.get?_set_self, Option.bind_some, at?_nil]
  | case3 d key next path ih =>
      rw [storeAt, at?_ofDict_cons, Dict.get?_set_self, Option.bind_some]
      exact ih (List.cons_ne_nil _ _)

/-- The other paths keep their values. -/
theorem at?_storeAt_of_apart (d : Dict String (Json F)) (value : Json F) {path path' : List String}
    (h : Apart path path') :
    (ofDict (storeAt d value path)).at? path' = (ofDict d).at? path' := by
  induction d, path using storeAt.induct generalizing path' with
  | case1 => exact absurd h (not_apart_nil path')
  | case2 d key =>
      obtain ⟨key', rest, rfl⟩ := List.exists_cons_of_ne_nil h.ne_nil
      have hne : key' ≠ key := by
        rintro rfl
        exact not_apart_nil rest (apart_cons_self.mp h)
      rw [storeAt, at?_ofDict_cons, at?_ofDict_cons, Dict.get?_set_of_ne _ _ hne]
  | case3 d key next path ih =>
      obtain ⟨key', rest, rfl⟩ := List.exists_cons_of_ne_nil h.ne_nil
      rw [storeAt, at?_ofDict_cons, at?_ofDict_cons]
      by_cases hkey : key' = key
      · -- the paths part behind this key
        subst hkey
        have hrest := apart_cons_self.mp h
        rw [Dict.get?_set_self, Option.bind_some, ih hrest, at?_objectAt hrest.ne_nil]
      · rw [Dict.get?_set_of_ne _ _ hkey]

/-- An object over an object is merged with it. -/
theorem onto_of_dict? (d : Dict String (Json F)) {b : Json F} {db : Dict String (Json F)}
    (h : b.dict? = some db) : (ofDict d).onto (some b) = ofDict (deepMerge db d) := by
  cases b with
  | obj members =>
      obtain rfl := Option.some.inj h
      rfl
  | _ => cases h

/-- What is put over a base has at a path what it had there, over what the base has there. -/
theorem at?_onto {value : Json F} (hdistinct : value.distinct = true) {path : List String}
    {member : Json F} (h : value.at? path = some member) (base : Option (Json F)) :
    (value.onto base).at? path = some (member.onto (base.bind fun b => b.at? path)) := by
  induction path generalizing value base with
  | nil =>
      obtain rfl := Option.some.inj (at?_nil value ▸ h)
      simp
  | cons key path ih =>
      rw [at?_cons] at h
      obtain ⟨inner, hinner, hmember⟩ := Option.bind_eq_some_iff.mp h
      obtain ⟨d, hd, hget⟩ := Option.bind_eq_some_iff.mp hinner
      obtain rfl := eq_ofDict_of_dict? hdistinct hd
      have hinnerDistinct : inner.distinct = true :=
        (distinct_obj.mp hdistinct).2 key inner (Dict.get?_eq_some_iff.mp hget)
      -- a mapping is merged into a mapping, and replaces anything else
      cases base with
      | none =>
          rw [onto_none, at?_ofDict_cons, hget, Option.bind_some, hmember, Option.bind_none, onto_none]
      | some b =>
          cases hb : b.dict? with
          | none =>
              rw [onto_of_plain_base _ hb, at?_ofDict_cons, hget, Option.bind_some, hmember,
                Option.bind_some, at?_cons, hb, Option.bind_none, Option.bind_none, onto_none]
          | some db =>
              rw [onto_of_dict? d hb, at?_ofDict_cons, get?_deepMerge_of_some hget, Option.bind_some,
                ih hinnerDistinct hmember, Option.bind_some, at?_cons, hb, Option.bind_some]

end Json
