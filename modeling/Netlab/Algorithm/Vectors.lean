import Netlab.Algorithm.Shield
import Netlab.Prelude.JsonText

/-!
# Maps of positions

`normalize_vec3_map` reads a map of positions entry by entry and stops at the first that breaks the
contract. As a whole it succeeds exactly when every entry is a list of three finite numbers, and its
result is the comprehension over the entries (`normalizeVec3Map_eq_ok_iff`). Positions that are
written as JSON read back as they are (`normalizeVec3Map_positionsJson`).
-/

namespace Netlab

variable {F : Type}

section

variable [PyText F] [PyFloat F]

/-- Three finite numbers. -/
def finiteVec3? (raw : Json F) : Option (Vec3 F) :=
  match raw with
  | .arr [x, y, z] => do
      let x ← x.toFloat?
      let y ← y.toFloat?
      let z ← z.toFloat?
      if PyFloat.isFinite x && PyFloat.isFinite y && PyFloat.isFinite z then some ⟨x, y, z⟩ else none
  | _ => none

/-- What three finite numbers are. -/
theorem finiteVec3?_eq_some_iff {raw : Json F} {p : Vec3 F} :
    finiteVec3? raw = some p ↔ ∃ x y z, raw = .arr [x, y, z] ∧ x.toFloat? = some p.x ∧
      y.toFloat? = some p.y ∧ z.toFloat? = some p.z ∧
      PyFloat.isFinite p.x = true ∧ PyFloat.isFinite p.y = true ∧ PyFloat.isFinite p.z = true := by
  constructor
  · intro h
    unfold finiteVec3? at h
    split at h
    · obtain ⟨x, hx, h⟩ := Option.bind_eq_some_iff.mp h
      obtain ⟨y, hy, h⟩ := Option.bind_eq_some_iff.mp h
      obtain ⟨z, hz, h⟩ := Option.bind_eq_some_iff.mp h
      split at h
      · rename_i hfinite
        obtain rfl := Option.some.inj h
        simp only [Bool.and_eq_true] at hfinite
        exact ⟨_, _, _, rfl, hx, hy, hz, hfinite.1.1, hfinite.1.2, hfinite.2⟩
      · simp at h
    · simp at h
  · rintro ⟨x, y, z, rfl, hx, hy, hz, hfx, hfy, hfz⟩
    simp [finiteVec3?, hx, hy, hz, hfx, hfy, hfz]

/-- Reading entries with distinct keys, one after the other, succeeds exactly when each can
be read. -/
theorem normalizeVec3Items_eq_ok_iff {fieldName : String} {items : List (String × Json F)}
    {normalized desired : Dict String (Vec3 F)} (hitems : (items.map Prod.fst).Nodup)
    (hnew : ∀ id ∈ items.map Prod.fst, id ∉ normalized.keys) :
    normalizeVec3Items fieldName normalized items = some (.ok desired) ↔
      (∀ e ∈ items, (finiteVec3? e.2).isSome = true) ∧ desired.entries = normalized.entries ++
        items.filterMap fun e => (finiteVec3? e.2).map (Prod.mk e.1) := by
  induction items generalizing normalized with
  | nil =>
      rw [List.filterMap_nil, List.append_nil]
      constructor
      · intro h
        obtain rfl := Except.ok.inj (Option.some.inj h)
        exact ⟨by simp, rfl⟩
      · rintro ⟨-, hentries⟩
        have heq : normalized = desired := Dict.ext hentries.symm
        rw [heq]
        rfl
  | cons e rest ih =>
      obtain ⟨entityId, raw⟩ := e
      rw [List.map_cons, List.nodup_cons] at hitems
      have hfresh : entityId ∉ normalized.keys := hnew entityId List.mem_cons_self
      cases hraw : finiteVec3? raw with
      | none =>
          refine ⟨fun h => ?_, fun h => ?_⟩
          · -- the entry would have to be three finite numbers
            rw [normalizeVec3Items.eq_def] at h
            split at h
            · simp at *
            · rename_i hcons
              obtain ⟨hitem, rfl⟩ := List.cons.inj hcons
              obtain ⟨rfl, rfl⟩ := Prod.mk.injEq .. ▸ hitem
              obtain ⟨x, hx, h⟩ := Option.bind_eq_some_iff.mp h
              obtain ⟨y, hy, h⟩ := Option.bind_eq_some_iff.mp h
              obtain ⟨z, hz, h⟩ := Option.bind_eq_some_iff.mp h
              split at h
              · rename_i hfinite
                simp only [Bool.and_eq_true] at hfinite
                have hread := (@finiteVec3?_eq_some_iff F _ _ _ ⟨x, y, z⟩).mpr
                  ⟨_, _, _, rfl, hx, hy, hz, hfinite.1.1, hfinite.1.2, hfinite.2⟩
                exact absurd (hread.symm.trans hraw) (by simp)
              · simp at h
            · simp at h
          · have hsome := h.1 _ List.mem_cons_self
            simp [hraw] at hsome
      | some p =>
          obtain ⟨x, y, z, rfl, hx, hy, hz, hfx, hfy, hfz⟩ := finiteVec3?_eq_some_iff.mp hraw
          have hstep : normalizeVec3Items fieldName normalized ((entityId, .arr [x, y, z]) :: rest) =
              normalizeVec3Items fieldName (normalized.set entityId p) rest := by
            simp [normalizeVec3Items, hx, hy, hz, hfx, hfy, hfz]
          have hkeys : ∀ id ∈ rest.map Prod.fst, id ∉ (normalized.set entityId p).keys := by
            intro id hid hmem
            rw [Dict.keys_set_of_not_mem p hfresh, List.mem_append, List.mem_singleton] at hmem
            rcases hmem with hmem | rfl
            · exact hnew id (List.mem_cons_of_mem _ hid) hmem
            · exact hitems.1 hid
          rw [hstep, ih hitems.2 hkeys, Dict.entries_set_of_not_mem p hfresh, List.forall_mem_cons,
            List.filterMap_cons, hraw]
          simp [List.append_assoc]

/-- A map of positions is read exactly if every entry is a list of three finite numbers. -/
theorem normalizeVec3Map_eq_ok_iff {fieldName : String} {value : Json F}
    {desired : Dict String (Vec3 F)} :
    normalizeVec3Map fieldName value = some (.ok desired) ↔
      ∃ items, value.dict? = some items ∧
        (items.traverse fun _ raw => finiteVec3? raw) = some desired := by
  rw [normalizeVec3Map]
  cases hitems : value.dict? with
  | none => simp
  | some items =>
      simp only [Option.some.injEq, exists_eq_left']
      -- the keys of a mapping are distinct, so no entry replaces another
      have hnodup : (items.entries.map Prod.fst).Nodup := items.nodup
      have hnone : ∀ id ∈ items.entries.map Prod.fst,
          id ∉ (Dict.empty : Dict String (Vec3 F)).keys := fun _ _ => List.not_mem_nil
      have hempty : (Dict.empty : Dict String (Vec3 F)).entries = [] := rfl
      rw [normalizeVec3Items_eq_ok_iff hnodup hnone, hempty, List.nil_append, Dict.traverse]
      constructor
      · rintro ⟨hall, hentries⟩
        rw [if_pos (List.all_eq_true.mpr hall)]
        exact congrArg some (Dict.ext hentries.symm)
      · intro h
        split at h
        · rename_i hall
          obtain rfl := Option.some.inj h
          exact ⟨List.all_eq_true.mp hall, rfl⟩
        · simp at h

/-- What a map of positions has for an entity, the field has as three finite numbers. -/
theorem get?_of_normalizeVec3Map {fieldName : String} {value : Json F}
    {desired : Dict String (Vec3 F)} (h : normalizeVec3Map fieldName value = some (.ok desired)) :
    ∃ items, value.dict? = some items ∧ items.keys = desired.keys ∧
      ∀ id raw, items.get? id = some raw → ∃ p, finiteVec3? raw = some p ∧ desired.get? id = some p := by
  obtain ⟨items, hitems, htraverse⟩ := normalizeVec3Map_eq_ok_iff.mp h
  exact ⟨items, hitems, (Dict.keys_of_traverse htraverse).symm,
    fun id raw hraw => Dict.isSome_of_traverse htraverse hraw⟩

/-- What is read from a map of positions is finite. -/
theorem isFinite_of_normalizeVec3Map {fieldName : String} {value : Json F}
    {desired : Dict String (Vec3 F)} (h : normalizeVec3Map fieldName value = some (.ok desired))
    {id : String} {p : Vec3 F} (hp : desired.get? id = some p) :
    PyFloat.isFinite p.x = true ∧ PyFloat.isFinite p.y = true ∧ PyFloat.isFinite p.z = true := by
  obtain ⟨items, -, htraverse⟩ := normalizeVec3Map_eq_ok_iff.mp h
  rw [Dict.get?_of_traverse htraverse, Option.bind_eq_some_iff] at hp
  obtain ⟨raw, -, hread⟩ := hp
  obtain ⟨_, _, _, -, -, -, -, hfinite⟩ := finiteVec3?_eq_some_iff.mp hread
  exact hfinite

omit [PyText F] [PyFloat F] in
/-- The entries of positions that are written as JSON. -/
theorem dict?_positionsJson (positions : Dict String (Vec3 F)) :
    (positionsJson positions).dict? = some (positions.map fun _ p => p.toJson) := by
  have hjson : positionsJson positions = Json.ofDict (positions.map fun _ p => p.toJson) := rfl
  rw [hjson, Json.dict?_ofDict]

/-- Finite positions that are written as JSON read back as they are. -/
theorem normalizeVec3Map_positionsJson (fieldName : String) {positions : Dict String (Vec3 F)}
    (h : ∀ id p, positions.get? id = some p →
      PyFloat.isFinite p.x = true ∧ PyFloat.isFinite p.y = true ∧ PyFloat.isFinite p.z = true) :
    normalizeVec3Map fieldName (positionsJson positions) = some (.ok positions) := by
  refine normalizeVec3Map_eq_ok_iff.mpr ⟨_, dict?_positionsJson positions, ?_⟩
  rw [Dict.traverse_map]
  have hread : ∀ e ∈ positions.entries, finiteVec3? (e.2.toJson) = some e.2 := by
    intro e he
    obtain ⟨hx, hy, hz⟩ := h e.1 e.2 (Dict.get?_eq_some_iff.mpr he)
    exact finiteVec3?_eq_some_iff.mpr ⟨_, _, _, rfl, rfl, rfl, rfl, hx, hy, hz⟩
  rw [@Dict.traverse_eq_map _ _ _ _ (fun _ p => p) _ hread]
  congr 1
  ext1
  simp [Dict.map]

end

end Netlab
