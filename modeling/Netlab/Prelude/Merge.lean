import Netlab.Prelude.Json

/-!
# Recursive merging of JSON objects

`deepMerge base override` keeps the members of `base`, replaces those that `override` has as well,
and appends the others; two objects under one key are merged in turn. The result lists the keys of
the base first (`keys_deepMerge`) and has at each key the overriding value over the base value
(`get?_deepMerge`). A document that covers a base is not changed by merging it over the base
(`deepMerge_eq_self`), and what comes out of a merge covers the base and every other one of its shape
(`SameShape.covers_deepMerge`).
-/

namespace Dict

variable {α β : Type*} [DecidableEq α]

theorem get?_eq_none_iff {d : Dict α β} {k : α} : d.get? k = none ↔ k ∉ d.keys := by
  rw [mem_keys_iff, Option.eq_none_iff_forall_ne_some, not_exists]

omit [DecidableEq α] in
theorem mem_keys_of_mem {d : Dict α β} {e : α × β} (h : e ∈ d.entries) : e.1 ∈ d.keys :=
  List.mem_map.mpr ⟨e, h, rfl⟩

theorem keys_set_of_not_mem {d : Dict α β} {k : α} (v : β) (h : k ∉ d.keys) :
    (d.set k v).keys = d.keys ++ [k] := by
  rw [keys, entries_set_of_not_mem v h, List.map_append]
  rfl

/-- The entries are the keys with what is stored under them. -/
theorem entries_eq (d : Dict α β) :
    d.entries = d.keys.filterMap fun k => (d.get? k).map (Prod.mk k) := by
  have hentry : ∀ e ∈ d.entries, (d.get? e.1).map (Prod.mk e.1) = some e := by
    intro e he
    rw [get?_eq_some_iff.mpr he, Option.map_some]
  rw [keys, List.filterMap_map, Function.comp_def, List.filterMap_congr hentry,
    List.filterMap_some]

/-- Two dictionaries that list the same keys and store the same under each are equal. -/
theorem ext_get? {d d' : Dict α β} (hkeys : d.keys = d'.keys)
    (hget : ∀ k ∈ d.keys, d.get? k = d'.get? k) : d = d' := by
  ext1
  rw [entries_eq d, entries_eq d', ← hkeys]
  exact List.filterMap_congr fun k hk => by rw [hget k hk]

/-- Storing what is there does nothing. -/
theorem set_eq_self {d : Dict α β} {k : α} {v : β} (h : d.get? k = some v) : d.set k v = d := by
  have hmem : k ∈ d.keys := mem_keys_iff.mpr ⟨v, h⟩
  refine ext_get? (keys_set_of_mem v hmem) fun k' _ => ?_
  rw [get?_set]
  split
  · rename_i heq
    rw [heq, h]
  · rfl

/-- Store every entry of `d'` in `d` (`dict.update`). -/
def update (d d' : Dict α β) : Dict α β := d'.entries.foldl (fun d e => d.set e.1 e.2) d

/-- A property that each store of an entry keeps holds after an update. -/
theorem update_induction {motive : Dict α β → Prop} {d d' : Dict α β} (start : motive d)
    (store : ∀ e ∈ d'.entries, ∀ d, motive d → motive (d.set e.1 e.2)) : motive (d.update d') :=
  List.foldlRecOn d'.entries _ start fun d hd e he => store e he d hd

/-- A dictionary built from pairs has the keys of the pairs. -/
theorem mem_keys_ofList {entries : List (α × β)} {k : α} :
    k ∈ (ofList entries).keys ↔ k ∈ entries.map Prod.fst := by
  have hfold : ∀ (l : List (α × β)) (d : Dict α β),
      k ∈ (l.foldl (fun d e => d.set e.1 e.2) d).keys ↔ k ∈ d.keys ∨ k ∈ l.map Prod.fst := by
    intro l
    induction l with
    | nil => simp
    | cons e l ih =>
        intro d
        rw [List.foldl_cons, ih, List.map_cons, List.mem_cons, ← or_assoc]
        by_cases h : e.1 ∈ d.keys
        · have hleft : k ∈ d.keys ∨ k = e.1 ↔ k ∈ d.keys :=
            or_iff_left_of_imp fun heq => heq ▸ h
          rw [keys_set_of_mem _ h, hleft]
        · rw [keys_set_of_not_mem _ h, List.mem_append, List.mem_singleton]
  exact (hfold entries empty).trans (or_iff_right (List.not_mem_nil))

/-- A dictionary built from its own entries. -/
@[simp] theorem ofList_entries (d : Dict α β) : ofList d.entries = d :=
  ext (entries_ofList d.nodup)

end Dict

namespace Json

variable {F : Type}

/-! ## Objects without repeated keys -/

mutual

/-- No object inside the value lists a key twice, as in every value a Python program holds. -/
def distinct : Json F → Bool
  | arr items => distinctItems items
  | obj members => decide (members.map Prod.fst).Nodup && distinctMembers members
  | _ => true

/-- `distinct` for each item of a list. -/
def distinctItems : List (Json F) → Bool
  | [] => true
  | item :: items => item.distinct && distinctItems items

/-- `distinct` for the value of each member. -/
def distinctMembers : List (String × Json F) → Bool
  | [] => true
  | (_, value) :: members => value.distinct && distinctMembers members

end

theorem distinctMembers_iff {members : List (String × Json F)} :
    distinctMembers members = true ↔ ∀ key value, (key, value) ∈ members → value.distinct := by
  induction members with
  | nil => simp [distinctMembers]
  | cons member members ih =>
      obtain ⟨key, value⟩ := member
      rw [distinctMembers, Bool.and_eq_true, ih]
      constructor
      · rintro ⟨hvalue, hrest⟩ key' value' hmem
        rcases List.mem_cons.mp hmem with heq | hmem
        · obtain ⟨rfl, rfl⟩ := Prod.mk.injEq .. ▸ heq
          exact hvalue
        · exact hrest key' value' hmem
      · intro h
        exact ⟨h key value List.mem_cons_self, fun key' value' hmem =>
          h key' value' (List.mem_cons_of_mem _ hmem)⟩

theorem distinctItems_iff {items : List (Json F)} :
    distinctItems items = true ↔ ∀ item ∈ items, item.distinct = true := by
  induction items with
  | nil => simp [distinctItems]
  | cons item items ih => simp [distinctItems, ih]

theorem distinct_obj {members : List (String × Json F)} :
    (obj members).distinct = true ↔
      (members.map Prod.fst).Nodup ∧ ∀ key value, (key, value) ∈ members → value.distinct := by
  rw [distinct, Bool.and_eq_true, decide_eq_true_eq, distinctMembers_iff]

/-- Induction on the objects inside a value: an object has the property when its members have it,
and so does every value that is no object. -/
theorem objInduction {motive : Json F → Prop} (plain : ∀ value, value.dict? = none → motive value)
    (object : ∀ members, (∀ key value, (key, value) ∈ members → motive value) →
      motive (obj members)) (value : Json F) : motive value := by
  match value with
  | obj members =>
      refine object members fun key value hmem => ?_
      have : sizeOf value < sizeOf members := by
        have := List.sizeOf_lt_of_mem hmem
        simp only [Prod.mk.sizeOf_spec] at this
        omega
      exact objInduction plain object value
  | null => exact plain _ rfl
  | bool _ => exact plain _ rfl
  | int _ => exact plain _ rfl
  | float _ => exact plain _ rfl
  | str _ => exact plain _ rfl
  | arr _ => exact plain _ rfl
termination_by sizeOf value

/-- The object with the members of a dictionary. -/
def ofDict (d : Dict String (Json F)) : Json F := obj d.entries

@[simp] theorem dict?_null : (null : Json F).dict? = none := rfl

@[simp] theorem dict?_bool (b : Bool) : (bool b : Json F).dict? = none := rfl

@[simp] theorem dict?_int (n : ℤ) : (int n : Json F).dict? = none := rfl

@[simp] theorem dict?_float (x : F) : (float x).dict? = none := rfl

@[simp] theorem dict?_str (s : String) : (str s : Json F).dict? = none := rfl

@[simp] theorem dict?_arr (items : List (Json F)) : (arr items).dict? = none := rfl

@[simp] theorem dict?_ofDict (d : Dict String (Json F)) : (ofDict d).dict? = some d := by
  rw [ofDict, dict?, Dict.ofList_entries]

theorem ofDict_injective : Function.Injective (ofDict : Dict String (Json F) → Json F) :=
  fun _ _ h => Dict.ext (obj.inj h)

/-- A dictionary display of values without repeated keys. -/
theorem distinct_ofList {entries : List (String × Json F)}
    (h : ∀ e ∈ entries, e.2.distinct = true) : (ofDict (Dict.ofList entries)).distinct = true :=
  distinct_obj.mpr ⟨(Dict.ofList entries).nodup, fun _ _ hmem =>
    h _ (Dict.mem_of_get?_ofList (Dict.get?_eq_some_iff.mpr hmem))⟩

/-- What a dictionary display of values that are no objects stores. -/
theorem plain_of_ofList {entries : List (String × Json F)} (h : ∀ e ∈ entries, e.2.dict? = none)
    {key : String} {value : Json F} (hvalue : (Dict.ofList entries).get? key = some value) :
    value.dict? = none :=
  h _ (Dict.mem_of_get?_ofList hvalue)

/-- An object without repeated keys is the one with the members of its dictionary. -/
theorem eq_ofDict_of_dict? {value : Json F} {d : Dict String (Json F)}
    (hdistinct : value.distinct = true) (h : value.dict? = some d) : value = ofDict d := by
  cases value with
  | obj members =>
      obtain rfl := Option.some.inj h
      rw [ofDict, Dict.entries_ofList (distinct_obj.mp hdistinct).1]
  | _ => simp [dict?] at h

/-! ## Merging -/

mutual

/-- What a value leaves at a place where `base` was: two objects are merged, otherwise the value
replaces the base. -/
def onto : Json F → Option (Json F) → Json F
  | obj members, some (obj base) => obj (mergeMembers members (.ofList base)).entries
  | value, _ => value

/-- Merge the members of an object, one after the other, into a dictionary. -/
def mergeMembers : List (String × Json F) → Dict String (Json F) → Dict String (Json F)
  | [], base => base
  | (key, value) :: rest, base => mergeMembers rest (base.set key (value.onto (base.get? key)))

end

@[simp] theorem onto_none (value : Json F) : value.onto none = value := by
  cases value <;> rfl

theorem onto_of_plain {value : Json F} (base : Option (Json F)) (h : value.dict? = none) :
    value.onto base = value := by
  cases value with
  | obj members => simp [dict?] at h
  | _ => rfl

theorem onto_of_plain_base (value : Json F) {base : Json F} (h : base.dict? = none) :
    value.onto (some base) = value := by
  cases base with
  | obj members => simp [dict?] at h
  | _ => cases value <;> rfl

end Json

variable {F : Type}

open Json in
/-- Merge a dictionary over a base (`deep_merge`). -/
def deepMerge (base override : Dict String (Json F)) : Dict String (Json F) :=
  mergeMembers override.entries base

namespace Json

theorem onto_ofDict (override base : Dict String (Json F)) :
    (ofDict override).onto (some (ofDict base)) = ofDict (deepMerge base override) := by
  rw [ofDict, ofDict, onto, Dict.ofList_entries]
  rfl

private theorem get?_mergeMembers {members : List (String × Json F)}
    (hnodup : (members.map Prod.fst).Nodup) (base : Dict String (Json F)) (key : String) :
    (mergeMembers members base).get? key =
      match members.lookup key with
      | some value => some (value.onto (base.get? key))
      | none => base.get? key := by
  induction members generalizing base with
  | nil => rfl
  | cons member members ih =>
      obtain ⟨k, v⟩ := member
      rw [List.map_cons, List.nodup_cons] at hnodup
      rw [mergeMembers, ih hnodup.2, List.lookup_cons]
      by_cases h : key = k
      · subst h
        have hlookup : members.lookup key = none := by
          rw [List.lookup_eq_none_iff]
          intro e he
          have hne : key ≠ e.1 := fun heq => hnodup.1 (List.mem_map.mpr ⟨e, he, heq.symm⟩)
          simpa using hne
        simp [hlookup]
      · have hne : (key == k) = false := by simpa using h
        simp only [hne, Dict.get?_set_of_ne base _ h]

private theorem keys_mergeMembers {members : List (String × Json F)}
    (hnodup : (members.map Prod.fst).Nodup) (base : Dict String (Json F)) :
    (mergeMembers members base).keys =
      base.keys ++ (members.map Prod.fst).filter fun key => key ∉ base.keys := by
  induction members generalizing base with
  | nil => simp [mergeMembers]
  | cons member members ih =>
      obtain ⟨k, v⟩ := member
      rw [List.map_cons, List.nodup_cons] at hnodup
      rw [mergeMembers, ih hnodup.2, List.map_cons]
      by_cases h : k ∈ base.keys
      · rw [Dict.keys_set_of_mem _ h, List.filter_cons_of_neg (by simpa using h)]
      · rw [Dict.keys_set_of_not_mem _ h, List.filter_cons_of_pos (by simpa using h),
          List.append_assoc]
        congr 1
        rw [List.singleton_append, List.cons.injEq]
        refine ⟨rfl, List.filter_congr fun key hkey => ?_⟩
        have hne : key ≠ k := fun heq => hnodup.1 (heq ▸ hkey)
        simp [hne]

end Json

/-- The keys of a merge are those of the base and then the new ones of the override. -/
theorem keys_deepMerge (base override : Dict String (Json F)) :
    (deepMerge base override).keys =
      base.keys ++ override.keys.filter fun key => key ∉ base.keys :=
  Json.keys_mergeMembers override.nodup base

/-- What a merge stores under a key. -/
theorem get?_deepMerge (base override : Dict String (Json F)) (key : String) :
    (deepMerge base override).get? key =
      match override.get? key with
      | some value => some (value.onto (base.get? key))
      | none => base.get? key :=
  Json.get?_mergeMembers override.nodup base key

theorem get?_deepMerge_of_some {base override : Dict String (Json F)} {key : String}
    {value : Json F} (h : override.get? key = some value) :
    (deepMerge base override).get? key = some (value.onto (base.get? key)) := by
  rw [get?_deepMerge, h]

theorem get?_deepMerge_of_none {base override : Dict String (Json F)} {key : String}
    (h : override.get? key = none) : (deepMerge base override).get? key = base.get? key := by
  rw [get?_deepMerge, h]

/-- What is put over something is an object exactly when it was one. -/
theorem Json.isSome_dict?_onto (value : Json F) (base : Option (Json F)) :
    (value.onto base).dict?.isSome = value.dict?.isSome := by
  cases value with
  | obj members => cases base with
    | none => rfl
    | some b => cases b <;> rfl
  | _ => rfl

/-- The keys of both dictionaries are keys of the merge. -/
theorem mem_keys_deepMerge {base override : Dict String (Json F)} {key : String} :
    key ∈ (deepMerge base override).keys ↔ key ∈ base.keys ∨ key ∈ override.keys := by
  rw [keys_deepMerge, List.mem_append, List.mem_filter]
  by_cases h : key ∈ base.keys <;> simp [h]

/-! ## Documents that a merge does not change -/

/-- The value has everything that the base has: of two objects, the value lists the keys of the
base first, and its members cover those of the base. A value that is no object replaces the base,
and so does any value at the place of a base that is no object. -/
inductive Json.Covers : Json F → Json F → Prop
  | plain (base : Json F) {value : Json F} : value.dict? = none → Covers base value
  | plain_base {base : Json F} (value : Json F) : base.dict? = none → Covers base value
  | object {base value : Dict String (Json F)} (extra : List String) :
      value.keys = base.keys ++ extra →
      (∀ key b v, base.get? key = some b → value.get? key = some v → Covers b v) →
      Covers (ofDict base) (ofDict value)

/-- A dictionary covers another one, as objects do. -/
structure Covers (base value : Dict String (Json F)) : Prop where
  /-- The keys of the base come first. -/
  keys : ∃ extra, value.keys = base.keys ++ extra
  /-- Each member covers that of the base. -/
  members : ∀ key b v, base.get? key = some b → value.get? key = some v → Json.Covers b v

/-- The objects of two dictionaries of which one covers the other. -/
theorem Covers.ofDict {base value : Dict String (Json F)} (h : Covers base value) :
    Json.Covers (.ofDict base) (.ofDict value) := by
  obtain ⟨extra, hextra⟩ := h.keys
  exact .object extra hextra h.members

/-- An object that covers an object does so as a dictionary. -/
theorem covers_of_dict? {base d : Dict String (Json F)} {value : Json F}
    (h : Json.Covers (.ofDict base) value) (hvalue : value.dict? = some d) : Covers base d := by
  generalize hb : Json.ofDict base = b at h
  cases h with
  | plain _ hplain => simp [hplain] at hvalue
  | plain_base _ hplain => simp [← hb] at hplain
  | object extra hkeys hmembers =>
      obtain rfl := Json.ofDict_injective hb
      rw [Json.dict?_ofDict, Option.some.injEq] at hvalue
      exact hvalue ▸ ⟨⟨extra, hkeys⟩, hmembers⟩

/-- What covers a dictionary has its keys. -/
theorem Covers.exists_get? {base value : Dict String (Json F)} (h : Covers base value)
    {key : String} {b : Json F} (hb : base.get? key = some b) :
    ∃ v, value.get? key = some v ∧ Json.Covers b v := by
  obtain ⟨extra, hextra⟩ := h.keys
  obtain ⟨v, hv⟩ : ∃ v, value.get? key = some v := by
    rw [← Dict.mem_keys_iff, hextra]
    exact List.mem_append_left _ (Dict.mem_keys_iff.mpr ⟨b, hb⟩)
  exact ⟨v, hv, h.members key b v hb hv⟩

/-- A merge does nothing when each member of the dictionary, put over that of the base, remains. -/
private theorem deepMerge_eq_self_of_onto {base value : Dict String (Json F)}
    (hkeys : ∃ extra, value.keys = base.keys ++ extra)
    (honto : ∀ key b v, base.get? key = some b → value.get? key = some v → v.onto (some b) = v) :
    deepMerge base value = value := by
  obtain ⟨extra, hextra⟩ := hkeys
  -- the same keys in the same order, and the same value under each
  refine Dict.ext_get? ?_ fun key _ => ?_
  · have hnodup : (base.keys ++ extra).Nodup := hextra ▸ value.nodup
    rw [keys_deepMerge, hextra, List.filter_append]
    congr 1
    have hbase : base.keys.filter (fun key => key ∉ base.keys) = [] := by
      rw [List.filter_eq_nil_iff]
      intro key hkey
      simpa using hkey
    rw [hbase, List.nil_append, List.filter_eq_self]
    intro key hkey
    simpa using fun hmem => (List.nodup_append.mp hnodup).2.2 key hmem key hkey rfl
  · cases hvalue : value.get? key with
    | some v =>
        rw [get?_deepMerge_of_some hvalue]
        cases hbase : base.get? key with
        | none => rw [Json.onto_none]
        | some b => rw [honto key b v hbase hvalue]
    | none =>
        rw [get?_deepMerge_of_none hvalue, Dict.get?_eq_none_iff]
        rw [Dict.get?_eq_none_iff, hextra, List.mem_append, not_or] at hvalue
        exact hvalue.1

/-- A value that covers a base is not changed over it. -/
theorem Json.Covers.onto_eq {base value : Json F} (h : Json.Covers base value) :
    value.onto (some base) = value := by
  induction h with
  | plain base hvalue => exact onto_of_plain _ hvalue
  | plain_base value hbase => exact onto_of_plain_base value hbase
  | object extra hkeys _ ih =>
      rw [onto_ofDict, deepMerge_eq_self_of_onto ⟨extra, hkeys⟩ ih]

/-- Merging a dictionary over one that it covers does nothing. -/
theorem deepMerge_eq_self {base value : Dict String (Json F)} (h : Covers base value) :
    deepMerge base value = value :=
  deepMerge_eq_self_of_onto h.keys fun key b v hb hv => (h.members key b v hb hv).onto_eq

/-- Storing under a key of the base a value that covers what is there keeps a cover. -/
theorem Covers.set {base value : Dict String (Json F)} (h : Covers base value) {key : String}
    {v : Json F} (hkey : key ∈ base.keys) (hv : ∀ b, base.get? key = some b → Json.Covers b v) :
    Covers base (value.set key v) := by
  obtain ⟨extra, hextra⟩ := h.keys
  have hmem : key ∈ value.keys := hextra ▸ List.mem_append_left _ hkey
  refine ⟨⟨extra, by rw [Dict.keys_set_of_mem v hmem, hextra]⟩, fun key' b v' hb hv' => ?_⟩
  rw [Dict.get?_set] at hv'
  split at hv'
  · rename_i heq
    obtain rfl := Option.some.inj hv'
    exact hv b (heq ▸ hb)
  · exact h.members key' b v' hb hv'

/-- Storing under a new key keeps a cover. -/
theorem Covers.set_new {base value : Dict String (Json F)} (h : Covers base value) {key : String}
    (v : Json F) (hkey : key ∉ base.keys) : Covers base (value.set key v) := by
  obtain ⟨extra, hextra⟩ := h.keys
  refine ⟨?_, fun key' b v' hb hv' => ?_⟩
  · by_cases hmem : key ∈ value.keys
    · exact ⟨extra, by rw [Dict.keys_set_of_mem v hmem, hextra]⟩
    · exact ⟨extra ++ [key], by
        rw [Dict.keys_set_of_not_mem v hmem, hextra, List.append_assoc]⟩
  · have hne : key' ≠ key := by
      rintro rfl
      exact hkey (Dict.mem_keys_iff.mpr ⟨b, hb⟩)
    exact h.members key' b v' hb (Dict.get?_set_of_ne value v hne ▸ hv')

/-- Storing a value that covers what the base has there keeps a cover. -/
theorem Covers.store {base value : Dict String (Json F)} (h : Covers base value) {key : String}
    {v : Json F} (hv : ∀ b, base.get? key = some b → Json.Covers b v) :
    Covers base (value.set key v) := by
  by_cases hkey : key ∈ base.keys
  · exact h.set hkey hv
  · exact h.set_new v hkey

/-- Storing a value that is no object keeps a cover. -/
theorem Covers.store_plain {base value : Dict String (Json F)} (h : Covers base value)
    (key : String) {v : Json F} (hv : v.dict? = none) : Covers base (value.set key v) :=
  h.store fun _ _ => .plain _ hv

/-- An update keeps a cover when each new value covers what the base has there. -/
theorem Covers.update {base value changes : Dict String (Json F)} (h : Covers base value)
    (hchanges : ∀ e ∈ changes.entries, ∀ b, base.get? e.1 = some b → Json.Covers b e.2) :
    Covers base (value.update changes) := by
  refine Dict.update_induction (motive := Covers base) h fun e he d hd => ?_
  exact hd.store (hchanges e he)

/-- An update with values that are no objects keeps a cover. -/
theorem Covers.update_plain {base value : Dict String (Json F)} (h : Covers base value)
    {entries : List (String × Json F)} (hplain : ∀ e ∈ entries, e.2.dict? = none) :
    Covers base (value.update (.ofList entries)) :=
  h.update fun e he _ _ => .plain _
    (hplain e (Dict.mem_of_get?_ofList (Dict.get?_eq_some_iff.mpr he)))

/-- Merging a dictionary that covers a base but for one key changes what is under this key. -/
theorem deepMerge_set {base value : Dict String (Json F)} (h : Covers base value) {key : String}
    {b : Json F} (hb : base.get? key = some b) (v : Json F) :
    deepMerge base (value.set key v) = value.set key (v.onto (some b)) := by
  obtain ⟨extra, hextra⟩ := h.keys
  have hkey : key ∈ value.keys :=
    hextra ▸ List.mem_append_left _ (Dict.mem_keys_iff.mpr ⟨b, hb⟩)
  have hmerge := deepMerge_eq_self h
  refine Dict.ext_get? ?_ fun key' _ => ?_
  · rw [keys_deepMerge, Dict.keys_set_of_mem _ hkey, Dict.keys_set_of_mem _ hkey,
      ← keys_deepMerge, hmerge]
  · rw [Dict.get?_set]
    split
    · rename_i heq
      rw [heq, get?_deepMerge_of_some (Dict.get?_set_self value key v), hb]
    · rename_i hne
      rw [get?_deepMerge, Dict.get?_set_of_ne value v hne, ← get?_deepMerge, hmerge]

/-! ## Bases of one shape -/

/-- Two values of one shape: objects that list the same keys and whose members are of one shape,
or two values that are no objects. -/
inductive Json.SameShape : Json F → Json F → Prop
  | plain {base value : Json F} : base.dict? = none → value.dict? = none → SameShape base value
  | object {base value : Dict String (Json F)} : value.keys = base.keys →
      (∀ key b v, base.get? key = some b → value.get? key = some v → SameShape b v) →
      SameShape (ofDict base) (ofDict value)

/-- A value without repeated keys has its own shape. -/
theorem Json.SameShape.refl {value : Json F} (hdistinct : value.distinct = true) :
    SameShape value value := by
  induction value using objInduction with
  | plain value h => exact .plain h h
  | object members ih =>
      obtain ⟨hnodup, hmembers⟩ := distinct_obj.mp hdistinct
      refine @SameShape.object F ⟨members, hnodup⟩ ⟨members, hnodup⟩ rfl fun key b v hb hv => ?_
      obtain rfl := Option.some.inj (hb.symm.trans hv)
      have hmem := Dict.get?_eq_some_iff.mp hb
      exact ih key b hmem (hmembers key b hmem)

/-- A value covers every value of its shape. -/
theorem Json.SameShape.covers {base value : Json F} (h : SameShape base value) :
    Json.Covers base value := by
  induction h with
  | plain _ hvalue => exact .plain _ hvalue
  | object hkeys _ ih => exact .object [] (by rw [hkeys, List.append_nil]) ih

/-- A value without repeated keys covers itself. -/
theorem Json.Covers.refl {value : Json F} (hdistinct : value.distinct = true) :
    Json.Covers value value :=
  (SameShape.refl hdistinct).covers

/-- Two dictionaries of one shape, as objects are. -/
structure SameShape (base value : Dict String (Json F)) : Prop where
  /-- The same keys in the same order. -/
  keys : value.keys = base.keys
  /-- Members of one shape. -/
  members : ∀ key b v, base.get? key = some b → value.get? key = some v → Json.SameShape b v

/-- A dictionary covers every dictionary of its shape. -/
theorem SameShape.covers {base value : Dict String (Json F)} (h : SameShape base value) :
    Covers base value :=
  ⟨⟨[], by rw [h.keys, List.append_nil]⟩,
    fun key b v hb hv => (h.members key b v hb hv).covers⟩

/-- A merge over `base'` covers a base with the same keys, when the members do. -/
theorem covers_deepMerge_of_members {base base' override : Dict String (Json F)}
    (hkeys : base'.keys = base.keys)
    (hself : ∀ key b b', base.get? key = some b → base'.get? key = some b' → Json.Covers b b')
    (honto : ∀ key b b' v, base.get? key = some b → base'.get? key = some b' →
      override.get? key = some v → Json.Covers b (v.onto (some b'))) :
    Covers base (deepMerge base' override) := by
  refine ⟨⟨_, hkeys ▸ keys_deepMerge base' override⟩, fun key b w hb hw => ?_⟩
  obtain ⟨b', hb'⟩ : ∃ b', base'.get? key = some b' := by
    rw [← Dict.mem_keys_iff, hkeys, Dict.mem_keys_iff]
    exact ⟨b, hb⟩
  cases hv : override.get? key with
  | none =>
      rw [get?_deepMerge_of_none hv] at hw
      exact hself key b w hb hw
  | some v =>
      rw [get?_deepMerge_of_some hv, hb', Option.some.injEq] at hw
      exact hw ▸ honto key b b' v hb hb' hv

/-- What was put over a base covers every base of the same shape. -/
theorem Json.SameShape.covers_onto {base base' : Json F} (h : SameShape base base')
    {value : Json F} (hdistinct : value.distinct = true) :
    Json.Covers base (value.onto (some base')) := by
  induction h generalizing value with
  | plain hbase hbase' => exact .plain_base _ hbase
  | @object d d' hkeys hmembers ih =>
      cases hvalue : value.dict? with
      | none =>
          rw [onto_of_plain _ hvalue]
          exact .plain _ hvalue
      | some override =>
          obtain rfl := eq_ofDict_of_dict? hdistinct hvalue
          rw [onto_ofDict]
          refine (covers_deepMerge_of_members hkeys
            (fun key b b' hb hb' => (hmembers key b b' hb hb').covers) ?_).ofDict
          intro key b b' v hb hb' hv
          exact ih key b b' hb hb'
            ((distinct_obj.mp hdistinct).2 key v (Dict.get?_eq_some_iff.mp hv))

/-- A merge over one base covers every base of the same shape. -/
theorem SameShape.covers_deepMerge {base base' override : Dict String (Json F)}
    (h : SameShape base base') (hdistinct : (Json.ofDict override).distinct = true) :
    Covers base (deepMerge base' override) :=
  covers_deepMerge_of_members h.keys
    (fun key b b' hb hb' => (h.members key b b' hb hb').covers)
    fun key b b' v hb hb' hv => (h.members key b b' hb hb').covers_onto
      ((Json.distinct_obj.mp hdistinct).2 key v (Dict.get?_eq_some_iff.mp hv))

/-! ## Equality up to the order of keys -/

/-- Equality of values as Python compares them as documents: the order in which an object lists
its keys does not matter. -/
inductive Json.Same : Json F → Json F → Prop
  | refl (value : Json F) : Same value value
  | array {items items' : List (Json F)} : List.Forall₂ Same items items' →
      Same (arr items) (arr items')
  | object {d d' : Dict String (Json F)} :
      (∀ key, Option.Rel Same (d.get? key) (d'.get? key)) → Same (ofDict d) (ofDict d')

/-- Dictionaries that are the same document. -/
def SameDocument (d d' : Dict String (Json F)) : Prop := Json.Same (.ofDict d) (.ofDict d')

theorem SameDocument.refl (d : Dict String (Json F)) : SameDocument d d :=
  Json.Same.refl _

/-- The same document stores the same values under the same keys. -/
theorem SameDocument.get? {d d' : Dict String (Json F)} (h : SameDocument d d') (key : String) :
    Option.Rel Json.Same (d.get? key) (d'.get? key) := by
  rw [SameDocument] at h
  generalize ha : Json.ofDict d = a at h
  generalize hb : Json.ofDict d' = b at h
  cases h with
  | refl =>
      obtain rfl := Json.ofDict_injective (ha.trans hb.symm)
      cases d.get? key with
      | none => exact .none
      | some value => exact .some (.refl value)
  | array _ => simp [Json.ofDict] at ha
  | object hget =>
      obtain rfl := Json.ofDict_injective ha
      obtain rfl := Json.ofDict_injective hb
      exact hget key

/-- The same document with the same keys. -/
theorem SameDocument.mem_keys_iff {d d' : Dict String (Json F)} (h : SameDocument d d')
    {key : String} : key ∈ d.keys ↔ key ∈ d'.keys := by
  rw [Dict.mem_keys_iff, Dict.mem_keys_iff]
  have hrel := h.get? key
  generalize d.get? key = a at hrel
  generalize d'.get? key = b at hrel
  cases hrel <;> simp

/-- A document in which one value is replaced by the same document. -/
theorem SameDocument.set (d : Dict String (Json F)) {key : String} {value value' : Json F}
    (hvalue : d.get? key = some value) (h : Json.Same value' value) :
    SameDocument (d.set key value') d := by
  refine Json.Same.object fun key' => ?_
  rw [Dict.get?_set]
  split
  · rename_i heq
    rw [heq, hvalue]
    exact .some h
  · cases d.get? key' with
    | none => exact .none
    | some v => exact .some (.refl v)
