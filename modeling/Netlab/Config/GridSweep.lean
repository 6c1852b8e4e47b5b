import Netlab.Config.Distinct
import Netlab.Prelude.Grid
import Netlab.Prelude.JsonPath

/-!
# Grid sweeps

The runs that `netlab/experiment.py` makes of a base configuration and a grid of parameters: for
each combination of the values a copy of the base in which each dotted key has its value, with an
identifier and a time stamp of its own, validated and so completed by the defaults. Every change is
one of `Json.storeAt`, and so the paths that are apart from the changed ones keep what the base has
there (`grid_sweep_faithful`).
-/

namespace Netlab.Experiment

open Json

variable {F : Type} [PyText F] [PyBuiltins F]

/-! ## The sweep -/

/-- The readings of the clock for a run: its time stamp and those of the migration. -/
structure RunClock (F : Type) where
  updatedAt : F
  now : F
  later : F

/-- `key.split(".")`. -/
def dottedPath (key : String) : List String := (key.toList.splitOn '.').map String.ofList

/-- Store a value under a dotted key (`_set_dotted`). -/
def setDotted (target : Dict String (Json F)) (key : String) (value : Json F) :
    Dict String (Json F) :=
  storeAt target value (dottedPath key)

/-- The decimal text of an index, with at least four digits. -/
def fourDigits (index : ℕ) : String := .ofList (List.leftpad 4 '0' (toString index).toList)

/-- The copy of the base in which the keys have the values of a combination. -/
def assigned (base : Dict String (Json F)) (combination : List (String × Json F)) :
    Dict String (Json F) :=
  combination.foldl (fun config e => setDotted config e.1 e.2) base

/-- The identifier of a run, from that of the base. -/
def gridId (id : Option (Json F)) (index : ℕ) : Json F :=
  .str ((id.getD (.str "experiment")).toText ++ "_grid_" ++ fourDigits index)

/-- One run of a sweep; `none` if its configuration is not valid. -/
def gridRun (clock : RunClock F) (base : Dict String (Json F))
    (combination : List (String × Json F)) (index : ℕ) : Option (Dict String (Json F)) := do
  let config := assigned base combination
  let header ← (config.getD "experiment" (.obj [])).dict?
  let header := header.set "id" (gridId (header.get? "id") index)
  let header := header.set "updated_at" (.float clock.updatedAt)
  validateStrict clock.now clock.later (config.set "experiment" (.ofDict header))

/-- The base configuration, which all runs read, and the runs made so far. -/
structure SweepState (F : Type) where
  base : Dict String (Json F)
  runs : List (Dict String (Json F))

/-- Make the run of the next combination. -/
def gridStep (clocks : ℕ → RunClock F) (keys : List String) (state : SweepState F)
    (item : List (Json F) × ℕ) : Option (SweepState F) := do
  let run ← gridRun (clocks item.2) state.base (keys.zip item.1) item.2
  return { state with runs := state.runs ++ [run] }

/-- The runs of all combinations of the parameters (`grid_sweep`). -/
def gridSweep (clocks : ℕ → RunClock F) (base : Dict String (Json F))
    (parameters : Dict String (List (Json F))) : Option (SweepState F) :=
  (List.combinations parameters.values).zipIdx.foldlM (gridStep clocks parameters.keys) ⟨base, []⟩

/-! ## Identifiers -/

theorem fourDigits_injective : Function.Injective fourDigits := by
  have hread : ∀ n : ℕ, Nat.ofDigitChars 10 (fourDigits n).toList 0 = n := by
    intro n
    rw [fourDigits, String.toList_ofList, List.leftpad, Nat.ofDigitChars_append,
      Nat.ofDigitChars_replicate_zero, Nat.mul_zero]
    exact Nat.toList_repr ▸ Nat.ofDigitChars_ten_toDigits
  intro n n' h
  rw [← hread n, h, hread n']

omit [PyBuiltins F] in
theorem gridId_injective (id : Option (Json F)) : Function.Injective (gridId id) := by
  intro n n' h
  have htext := congrArg String.toList (Json.str.inj h)
  simp only [String.toList_append, List.append_assoc, List.append_right_inj] at htext
  exact fourDigits_injective (String.toList_injective htext)

/-! ## Paths of a run -/

theorem dottedPath_ne_nil (key : String) : dottedPath key ≠ [] := by
  simp [dottedPath]

/-- Neither a list nor an object. -/
def isScalar : Json F → Bool
  | .arr _ => false
  | .obj _ => false
  | _ => true

omit [PyText F] [PyBuiltins F] in
theorem plain_of_isScalar {value : Json F} (h : isScalar value = true) :
    value.dict? = none ∧ value.distinct = true := by
  cases value <;> simp [isScalar, dict?, distinct] at h ⊢

/-- The combination of a run: each key with its value. -/
structure Assignable (combination : List (String × Json F)) : Prop where
  /-- No key leads through another one. -/
  apart : combination.Pairwise fun e e' => Apart (dottedPath e.1) (dottedPath e'.1)
  /-- The values are neither lists nor objects. -/
  scalar : ∀ e ∈ combination, isScalar e.2 = true

section Paths

omit [PyText F] [PyBuiltins F]

theorem assigned_concat (base : Dict String (Json F)) (combination : List (String × Json F))
    (e : String × Json F) :
    assigned base (combination ++ [e]) = setDotted (assigned base combination) e.1 e.2 := by
  rw [assigned, List.foldl_append]
  rfl

/-- The paths apart from all keys keep the values of the base. -/
theorem at?_assigned_of_apart (base : Dict String (Json F)) {combination : List (String × Json F)}
    {path : List String} (h : ∀ e ∈ combination, Apart (dottedPath e.1) path) :
    (ofDict (assigned base combination)).at? path = (ofDict base).at? path := by
  induction combination using List.reverseRecOn with
  | nil => rfl
  | append_singleton combination e ih =>
      rw [assigned_concat, setDotted, at?_storeAt_of_apart _ _ (h e (by simp)),
        ih fun e' he' => h e' (List.mem_append_left _ he')]

/-- Each key has its value. -/
theorem at?_assigned {base : Dict String (Json F)} {combination : List (String × Json F)}
    (h : Assignable combination) {e : String × Json F} (he : e ∈ combination) :
    (ofDict (assigned base combination)).at? (dottedPath e.1) = some e.2 := by
  obtain ⟨before, after, rfl⟩ := List.append_of_mem he
  have hafter : ∀ e' ∈ after, Apart (dottedPath e'.1) (dottedPath e.1) := by
    intro e' he'
    have hpairs := (List.pairwise_append.mp h.apart).2.1
    exact ((List.pairwise_cons.mp hpairs).1 e' he').symm
  -- the keys behind it do not touch it
  have hsplit : assigned base (before ++ e :: after) =
      assigned (setDotted (assigned base before) e.1 e.2) after := by
    rw [assigned, List.foldl_append, List.foldl_cons]
    rfl
  rw [hsplit, at?_assigned_of_apart _ hafter, setDotted,
    at?_storeAt_self _ _ (dottedPath_ne_nil e.1)]

theorem distinct_storeAt {d : Dict String (Json F)} (hd : (ofDict d).distinct = true)
    {value : Json F} (hvalue : value.distinct = true) (path : List String) :
    (ofDict (storeAt d value path)).distinct = true := by
  induction d, path using storeAt.induct with
  | case1 d => exact hd
  | case2 d key => exact distinct_set hd key hvalue
  | case3 d key next path ih =>
      refine distinct_set hd key (ih ?_)
      rw [objectAt]
      cases hinner : (d.get? key).bind dict? with
      | none => rfl
      | some inner =>
          obtain ⟨member, hget, hmember⟩ := Option.bind_eq_some_iff.mp hinner
          exact distinct_dict? (distinct_ofDict.mp hd key member hget) hmember

theorem distinct_assigned {base : Dict String (Json F)} (hbase : (ofDict base).distinct = true)
    {combination : List (String × Json F)} (h : ∀ e ∈ combination, isScalar e.2 = true) :
    (ofDict (assigned base combination)).distinct = true :=
  List.foldlRecOn (motive := fun config => (ofDict config).distinct = true) combination _ hbase
    fun _ hconfig e he => distinct_storeAt hconfig (plain_of_isScalar (h e he)).2 _

theorem objectAt_header {config header : Dict String (Json F)}
    (h : (config.getD "experiment" (.obj [])).dict? = some header) :
    objectAt config "experiment" = header := by
  rw [Dict.getD] at h
  cases hget : config.get? "experiment" with
  | none =>
      rw [hget] at h
      rw [objectAt, hget]
      exact Option.some.inj h
  | some value =>
      rw [hget, Option.getD_some] at h
      exact objectAt_of_dict? (by rw [hget, Option.bind_some, h])

/-- The header of a run is stored at the paths of its identifier and its time stamp. -/
theorem set_header {config header : Dict String (Json F)}
    (h : (config.getD "experiment" (.obj [])).dict? = some header) (id stamp : Json F) :
    config.set "experiment" (.ofDict ((header.set "id" id).set "updated_at" stamp)) =
      storeAt (storeAt config id ["experiment", "id"]) stamp ["experiment", "updated_at"] := by
  have hinner : objectAt (config.set "experiment" (.ofDict (header.set "id" id))) "experiment" =
      header.set "id" id :=
    objectAt_of_dict? (by rw [Dict.get?_set_self, Option.bind_some, dict?_ofDict])
  have hid : storeAt config id ["experiment", "id"] =
      config.set "experiment" (.ofDict (header.set "id" id)) := by
    rw [storeAt, storeAt, objectAt_header h]
  rw [hid, storeAt, storeAt, hinner, Dict.set_set]

/-! ## A run -/

/-- The paths that a sweep needs for itself. -/
def reservedPaths : List (List String) :=
  [["schema_version"], ["experiment", "id"], ["experiment", "updated_at"]]

theorem isVersioned_iff {config : Dict String (Json F)} :
    isVersioned config = true ↔
      (ofDict config).at? ["schema_version"] = some (.str schemaVersion) ∧
        ((config.get? "experiment").bind dict?).isSome = true := by
  rw [isVersioned, Bool.and_eq_true, at?_ofDict_cons, Dict.getD]
  refine and_congr_left fun _ => ?_
  cases config.get? "schema_version" with
  | none => simp [isStr]
  | some value => simp [isStr_iff]

end Paths

/-- The configuration of a run before it is validated. -/
def runConfig (clock : RunClock F) (base : Dict String (Json F))
    (combination : List (String × Json F)) (index : ℕ) : Dict String (Json F) :=
  storeAt (storeAt (assigned base combination)
    (gridId ((ofDict base).at? ["experiment", "id"]) index) ["experiment", "id"])
    (.float clock.updatedAt) ["experiment", "updated_at"]

/-- A run is the merge over the defaults of the base in which the keys, the identifier and the time
stamp are stored. -/
theorem gridRun_eq {clock : RunClock F} {base run : Dict String (Json F)}
    (hbase : Versioned base) {combination : List (String × Json F)}
    (h : Assignable combination)
    (hreserved : ∀ e ∈ combination, ∀ path ∈ reservedPaths, Apart (dottedPath e.1) path) {index : ℕ}
    (hrun : gridRun clock base combination index = some run) :
    (ofDict (runConfig clock base combination index)).distinct = true ∧
      run = deepMerge (defaultExperiment clock.now) (runConfig clock base combination index) := by
  simp only [gridRun, bind, Option.bind_eq_some_iff] at hrun
  obtain ⟨header, hheader, hvalid⟩ := hrun
  -- no assignment touches what the run itself writes
  have hkept : ∀ path ∈ reservedPaths,
      (ofDict (assigned base combination)).at? path = (ofDict base).at? path := fun path hpath =>
    at?_assigned_of_apart base fun e he => hreserved e he path hpath
  have hid : header.get? "id" = (ofDict base).at? ["experiment", "id"] := by
    rw [← hkept _ (by simp [reservedPaths]), at?_ofDict_cons, ← at?_objectAt (by simp),
      objectAt_header hheader, at?_ofDict_cons]
    simp
  have hstored := set_header hheader (gridId (header.get? "id") index) (.float clock.updatedAt)
  rw [hstored, hid, ← runConfig] at hvalid
  -- the run has a schema version and a header, so it is not migrated
  have hversioned : Versioned (runConfig clock base combination index) := by
    constructor
    · refine isVersioned_iff.mpr ⟨?_, ?_⟩
      · rw [runConfig, at?_storeAt_of_apart _ _ (by decide), at?_storeAt_of_apart _ _ (by decide),
          hkept _ (by simp [reservedPaths])]
        exact (isVersioned_iff.mp hbase.versioned).1
      · rw [runConfig, ← hid, ← hstored, Dict.get?_set_self, Option.bind_some, dict?_ofDict,
          Option.isSome_some]
    · exact distinct_storeAt (distinct_storeAt (distinct_assigned hbase.distinct h.scalar) rfl _)
        rfl _
  exact ⟨hversioned.distinct, (hversioned.validateStrict_eq hvalid).1⟩

/-- What a run has at the paths that a sweep stores at and at those apart from them. -/
structure Faithful (clock : RunClock F) (base : Dict String (Json F))
    (combination : List (String × Json F)) (run : Dict String (Json F)) : Prop where
  /-- Each key has its value. -/
  assigned : ∀ e ∈ combination, (ofDict run).at? (dottedPath e.1) = some e.2
  /-- The paths apart from all keys, the identifier and the time stamp keep what the base has there;
  an object is completed by what the defaults have there. -/
  kept : ∀ path member, (ofDict base).at? path = some member →
    (∀ e ∈ combination, Apart (dottedPath e.1) path) → Apart ["experiment", "id"] path →
    Apart ["experiment", "updated_at"] path →
    (ofDict run).at? path =
      some (member.onto ((ofDict (defaultExperiment clock.now)).at? path))

theorem faithful_gridRun {clock : RunClock F} {base run : Dict String (Json F)}
    (hbase : Versioned base) {combination : List (String × Json F)}
    (h : Assignable combination)
    (hreserved : ∀ e ∈ combination, ∀ path ∈ reservedPaths, Apart (dottedPath e.1) path) {index : ℕ}
    (hrun : gridRun clock base combination index = some run) :
    Faithful clock base combination run := by
  obtain ⟨hdistinct, rfl⟩ := gridRun_eq hbase h hreserved hrun
  constructor
  · intro e he
    have hid := (hreserved e he ["experiment", "id"] (by simp [reservedPaths])).symm
    have hstamp := (hreserved e he ["experiment", "updated_at"] (by simp [reservedPaths])).symm
    have hvalue : (ofDict (runConfig clock base combination index)).at? (dottedPath e.1) =
        some e.2 := by
      rw [runConfig, at?_storeAt_of_apart _ _ hstamp, at?_storeAt_of_apart _ _ hid,
        at?_assigned h he]
    rw [← onto_ofDict, at?_onto hdistinct hvalue,
      onto_of_plain _ (plain_of_isScalar (h.scalar e he)).1]
  · intro path member hmember hkeys hid hstamp
    have hvalue : (ofDict (runConfig clock base combination index)).at? path = some member := by
      rw [runConfig, at?_storeAt_of_apart _ _ hstamp, at?_storeAt_of_apart _ _ hid,
        at?_assigned_of_apart base hkeys, hmember]
    rw [← onto_ofDict, at?_onto hdistinct hvalue, Option.bind_some]

/-- The identifier of a run. -/
theorem at?_gridRun_id {clock : RunClock F} {base run : Dict String (Json F)}
    (hbase : Versioned base) {combination : List (String × Json F)}
    (h : Assignable combination)
    (hreserved : ∀ e ∈ combination, ∀ path ∈ reservedPaths, Apart (dottedPath e.1) path) {index : ℕ}
    (hrun : gridRun clock base combination index = some run) :
    (ofDict run).at? ["experiment", "id"] =
      some (gridId ((ofDict base).at? ["experiment", "id"]) index) := by
  obtain ⟨hdistinct, rfl⟩ := gridRun_eq hbase h hreserved hrun
  have hvalue : (ofDict (runConfig clock base combination index)).at? ["experiment", "id"] =
      some (gridId ((ofDict base).at? ["experiment", "id"]) index) := by
    rw [runConfig, at?_storeAt_of_apart _ _ (by decide), at?_storeAt_self _ _ (by simp)]
  rw [← onto_ofDict, at?_onto hdistinct hvalue, onto_of_plain _ rfl]

/-! ## The runs -/

/-- A sweep that returns has made the run of each combination, in order, and left its base as it
was. -/
theorem gridSweep_eq_some {clocks : ℕ → RunClock F} {base : Dict String (Json F)}
    {parameters : Dict String (List (Json F))} {state : SweepState F}
    (h : gridSweep clocks base parameters = some state) :
    state.base = base ∧
      List.Forall₂ (fun item run =>
          gridRun (clocks item.2) base (parameters.keys.zip item.1) item.2 = some run)
        (List.combinations parameters.values).zipIdx state.runs := by
  have hfold : ∀ (items : List (List (Json F) × ℕ)) (state : SweepState F),
      items.foldlM (gridStep clocks parameters.keys) ⟨base, []⟩ = some state →
      state.base = base ∧ List.Forall₂ (fun item run =>
        gridRun (clocks item.2) base (parameters.keys.zip item.1) item.2 = some run)
        items state.runs := by
    intro items
    -- from the back, since the runs are appended
    induction items using List.reverseRecOn with
    | nil =>
        intro state hstate
        obtain rfl := Option.some.inj hstate
        exact ⟨rfl, .nil⟩
    | append_singleton items item ih =>
        intro state hstate
        rw [List.foldlM_append] at hstate
        obtain ⟨before, hbefore, hstep⟩ := Option.bind_eq_some_iff.mp hstate
        obtain ⟨hbase, hruns⟩ := ih before hbefore
        simp only [List.foldlM_cons, List.foldlM_nil, gridStep, bind, pure,
          Option.bind_eq_some_iff, Option.some.injEq, hbase] at hstep
        obtain ⟨_, ⟨run, hrun, rfl⟩, rfl⟩ := hstep
        exact ⟨rfl, List.rel_append hruns (.cons hrun .nil)⟩
  exact hfold _ state h

/-- A grid of parameters: scalar values for dotted keys of which none leads through another one or
through what the sweep stores itself. -/
structure Grid (parameters : Dict String (List (Json F))) : Prop where
  scalar : ∀ values ∈ parameters.values, ∀ value ∈ values, isScalar value = true
  apart : parameters.keys.Pairwise fun key key' => Apart (dottedPath key) (dottedPath key')
  reserved : ∀ key ∈ parameters.keys, ∀ path ∈ reservedPaths, Apart (dottedPath key) path

omit [PyText F] [PyBuiltins F] in
/-- The values of a combination belong to the keys. -/
theorem assignable_of_mem {parameters : Dict String (List (Json F))} (h : Grid parameters)
    {combination : List (Json F)} (hmem : combination ∈ List.combinations parameters.values) :
    Assignable (parameters.keys.zip combination) ∧
      (parameters.keys.zip combination).map Prod.fst = parameters.keys := by
  have hkeys : (parameters.keys.zip combination).map Prod.fst = parameters.keys := by
    refine List.map_fst_zip ?_
    rw [List.length_of_mem_combinations hmem, Dict.keys, Dict.values, List.length_map,
      List.length_map]
  refine ⟨⟨?_, fun e he => ?_⟩, hkeys⟩
  · have hpairs := h.apart
    rw [← hkeys, List.pairwise_map] at hpairs
    exact hpairs
  · obtain ⟨values, hvalues, hvalue⟩ :=
      List.exists_of_mem_combinations hmem (List.of_mem_zip he).2
    exact h.scalar values hvalues e.2 hvalue

/-- A sweep that returns has one run for each combination. Run `k` has at each key the value that
the `k`-th combination in lexicographic order has of it, and at every other path what the base has
there, an object completed by the defaults. No two runs have one identifier, and the base is as it
was. -/
theorem grid_sweep_faithful {clocks : ℕ → RunClock F} {base : Dict String (Json F)}
    {parameters : Dict String (List (Json F))} {state : SweepState F} (hbase : Versioned base)
    (hgrid : Grid parameters) (h : gridSweep clocks base parameters = some state) :
    state.base = base ∧ state.runs.length = List.volume parameters.values ∧
      (∀ k run, state.runs[k]? = some run →
        (∀ i key values, parameters.entries[i]? = some (key, values) → ∃ value,
          values[k / List.volume (parameters.values.drop (i + 1)) % values.length]? = some value ∧
          (ofDict run).at? (dottedPath key) = some value) ∧
        ∀ path member, (ofDict base).at? path = some member →
          (∀ key ∈ parameters.keys, Apart (dottedPath key) path) →
          Apart ["experiment", "id"] path → Apart ["experiment", "updated_at"] path →
          (ofDict run).at? path =
              some (member.onto ((ofDict (defaultExperiment (clocks k).now)).at? path)) ∧
            (member.dict? = none → (ofDict run).at? path = some member)) ∧
      (state.runs.map fun run => (ofDict run).at? ["experiment", "id"]).Nodup := by
  obtain ⟨hsame, hruns⟩ := gridSweep_eq_some h
  have hlength : state.runs.length = List.volume parameters.values := by
    rw [← hruns.length_eq, List.length_zipIdx, List.length_combinations]
  have hrun : ∀ k run, state.runs[k]? = some run → ∃ combination,
      (List.combinations parameters.values)[k]? = some combination ∧
      gridRun (clocks k) base (parameters.keys.zip combination) k = some run := by
    intro k run hget
    obtain ⟨hk, rfl⟩ := List.getElem?_eq_some_iff.mp hget
    have hitem : k < (List.combinations parameters.values).zipIdx.length := hruns.length_eq ▸ hk
    have hmade := hruns.get hitem hk
    rw [List.get_eq_getElem, List.getElem_zipIdx, Nat.zero_add] at hmade
    exact ⟨_, List.getElem?_eq_getElem (by simpa using hitem), hmade⟩
  have hreserved : ∀ combination ∈ List.combinations parameters.values,
      ∀ e ∈ parameters.keys.zip combination, ∀ path ∈ reservedPaths,
        Apart (dottedPath e.1) path := by
    intro combination _ e he
    exact hgrid.reserved e.1 (List.of_mem_zip he).1
  refine ⟨hsame, hlength, fun k run hget => ?_, ?_⟩
  · obtain ⟨combination, hcombination, hmade⟩ := hrun k run hget
    have hmem := List.mem_of_getElem? hcombination
    obtain ⟨hassignable, hkeys⟩ := assignable_of_mem hgrid hmem
    have hfaithful := faithful_gridRun hbase hassignable (hreserved combination hmem) hmade
    constructor
    · intro i key values hentry
      have hkey : parameters.keys[i]? = some key := by simp [Dict.keys, hentry]
      have hvalues : parameters.values[i]? = some values := by simp [Dict.values, hentry]
      have hk : k < List.volume parameters.values :=
        List.length_combinations parameters.values ▸
          (List.getElem?_eq_some_iff.mp hcombination).1
      have hdigit := List.getElem?_combinations hk i
      rw [hcombination, Option.bind_some, hvalues, Option.bind_some] at hdigit
      have hi : i < combination.length := by
        rw [List.length_of_mem_combinations hmem]
        exact (List.getElem?_eq_some_iff.mp hvalues).1
      refine ⟨combination[i], hdigit ▸ List.getElem?_eq_getElem hi, ?_⟩
      exact hfaithful.assigned (key, combination[i]) (List.mem_of_getElem?
        (List.getElem?_zip_eq_some.mpr ⟨hkey, List.getElem?_eq_getElem hi⟩))
    · intro path member hmember hpath hid hstamp
      have hvalue := hfaithful.kept path member hmember (fun e he =>
        hpath e.1 (List.of_mem_zip he).1) hid hstamp
      exact ⟨hvalue, fun hplain => hvalue.trans (congrArg some (onto_of_plain _ hplain))⟩
  · -- the identifiers are those of the positions
    have hids : (state.runs.map fun run => (ofDict run).at? ["experiment", "id"]) =
        (List.range state.runs.length).map fun k =>
          some (gridId ((ofDict base).at? ["experiment", "id"]) k) := by
      refine List.ext_getElem? fun k => ?_
      rw [List.getElem?_map, List.getElem?_map]
      cases hget : state.runs[k]? with
      | none => rw [List.getElem?_eq_none (by simpa using hget)]; rfl
      | some run =>
          obtain ⟨combination, hcombination, hmade⟩ := hrun k run hget
          have hmem := List.mem_of_getElem? hcombination
          rw [List.getElem?_range (List.getElem?_eq_some_iff.mp hget).1, Option.map_some,
            Option.map_some, at?_gridRun_id hbase (assignable_of_mem hgrid hmem).1
              (hreserved combination hmem) hmade]
    rw [hids]
    exact List.nodup_range.map fun k k' heq => gridId_injective _ (Option.some.inj heq)

/-- A versioned document with an empty `swarm` section. -/
def sparseBase : Dict String (Json ℚ) :=
  .ofList [("schema_version", .str schemaVersion), ("experiment", .obj []), ("swarm", .obj [])]

/-- A grid with two values for one key. -/
def pairGrid (key : String) : Dict String (List (Json ℚ)) := .ofList [(key, [.str "a", .str "b"])]

theorem grid_sweep_faithful_sparse : ∃ state,
    gridSweep (fun _ => ⟨0, 0, 0⟩) sparseBase (pairGrid "experiment.name") = some state ∧
      state.base = sparseBase ∧ state.runs.length = 2 := by
  have hreturns : (gridSweep (fun _ => ⟨0, 0, 0⟩) sparseBase
      (pairGrid "experiment.name")).isSome = true := by decide +kernel
  obtain ⟨state, hstate⟩ := Option.isSome_iff_exists.mp hreturns
  obtain ⟨hbase, hlength, -⟩ := grid_sweep_faithful ⟨by decide +kernel, by decide +kernel⟩
    ⟨by decide +kernel, by decide +kernel, by decide +kernel⟩ hstate
  exact ⟨state, hstate, hbase, hlength⟩

/-- An empty section of the base is not what the runs have there, and a key below the identifier is
lost when the identifier is stored. -/
theorem grid_sweep_completes : Versioned sparseBase ∧
    (∃ state, gridSweep (fun _ => ⟨0, 0, 0⟩) sparseBase (pairGrid "experiment.name") = some state ∧
      ∃ run ∈ state.runs, (ofDict sparseBase).at? ["swarm"] = some (.obj []) ∧
        (ofDict run).at? ["swarm"] ≠ some (.obj [])) ∧
    ∃ state, gridSweep (fun _ => ⟨0, 0, 0⟩) sparseBase (pairGrid "experiment.id.note") =
        some state ∧ ∃ run ∈ state.runs, (ofDict run).at? ["experiment", "id", "note"] = none := by
  have hswarm : ((gridSweep (fun _ => ⟨0, 0, 0⟩) sparseBase (pairGrid "experiment.name")).map
      fun state => state.runs.map fun run => ((ofDict run).at? ["swarm"]).bind Json.length?) =
      some [some 21, some 21] := by decide +kernel
  have hnote : ((gridSweep (fun _ => ⟨0, 0, 0⟩) sparseBase (pairGrid "experiment.id.note")).map
      fun state => state.runs.map fun run =>
        ((ofDict run).at? ["experiment", "id", "note"]).isSome) = some [false, false] := by
    decide +kernel
  refine ⟨⟨by decide +kernel, by decide +kernel⟩, ?_, ?_⟩
  · obtain ⟨state, hstate, hruns⟩ := Option.map_eq_some_iff.mp hswarm
    obtain ⟨run, runs, hcons, hlen, -⟩ := List.map_eq_cons_iff.mp hruns
    refine ⟨state, hstate, run, hcons ▸ List.mem_cons_self, by rfl, fun hempty => ?_⟩
    rw [hempty] at hlen
    cases hlen
  · obtain ⟨state, hstate, hruns⟩ := Option.map_eq_some_iff.mp hnote
    obtain ⟨run, runs, hcons, hnone, -⟩ := List.map_eq_cons_iff.mp hruns
    refine ⟨state, hstate, run, hcons ▸ List.mem_cons_self, ?_⟩
    rw [← Option.not_isSome_iff_eq_none, hnone]
    exact Bool.false_ne_true

end Netlab.Experiment
