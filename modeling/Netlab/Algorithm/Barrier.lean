import Netlab.Algorithm.Baselines
import Netlab.Plugins

/-!
# The control barrier filter

`cbf_filter` of `netlab/algorithm_baselines.py` goes once through the pairs of UAVs and moves the
two of a pair apart when they are too close. What it reports of a pair is how far apart the two were
before that, and a later correction can take a UAV of the pair away again. So the filter enforces
the separation and reports it as it is (`Enforced`) exactly when there is nothing to correct
(`enforced_iff`).
-/

/-- The pairs of elements of a list, the earlier one first. -/
def List.orderedPairs {α : Type*} : List α → List (α × α)
  | [] => []
  | a :: l => l.map (Prod.mk a) ++ l.orderedPairs

/-- What holds for all pairs. -/
theorem List.forall_mem_orderedPairs {α : Type*} {r : α → α → Prop} {l : List α} :
    (∀ pair ∈ l.orderedPairs, r pair.1 pair.2) ↔ l.Pairwise r := by
  induction l with
  | nil => simp [orderedPairs]
  | cons a l ih =>
      rw [orderedPairs, List.forall_mem_append, ih, List.pairwise_cons, List.forall_mem_map]

namespace Netlab.Baseline

variable {F : Type}

/-- What the filter returns. -/
structure CbfResult (F : Type) where
  desiredPositions : Dict String (Vec3 F)
  constraintResiduals : Dict String F
  objectiveValue : F

/-- What the loop over the pairs keeps. -/
structure CbfState (F : Type) where
  desired : Dict String (Vec3 F)
  residuals : Dict String F

/-- The identifiers in the order in which the filter goes through them. -/
def sortedIds (desired : Dict String (Vec3 F)) : List String :=
  desired.keys.insertionSort (· ≤ ·)

/-- The name of the residual of a pair. -/
def residualLabel (pair : String × String) : String := s!"separation:{pair.1}:{pair.2}"

section

variable [PyPlanner F]

/-- One pass of the loop. -/
def correctPair (safetyDistance gain : F) (s : CbfState F) (pair : String × String) :
    Option (CbfState F) := do
  let first ← s.desired.get? pair.1
  let second ← s.desired.get? pair.2
  let delta := sub first second
  let distance ← norm delta
  -- the residual is that of the positions before this correction
  let residuals := s.residuals.set (residualLabel pair) (distance - safetyDistance)
  -- two UAVs in one place have no direction to be moved in
  if PyFloat.lt distance safetyDistance && PyFloat.lt 1e-9 distance then
    let correction := scale (← unit delta) (gain * (safetyDistance - distance))
    return {
      desired := (s.desired.set pair.1 (add first correction)).set pair.2
        (add second (scale correction (-1.0)))
      residuals }
  else return { s with residuals }

/-- The loop. -/
def correctPairs (safetyDistance gain : F) (nominal : Dict String (Vec3 F))
    (pairs : List (String × String)) : Option (CbfState F) :=
  pairs.foldlM (correctPair safetyDistance gain) { desired := nominal, residuals := .empty }

variable [PyText F]

/-- The nominal positions: those of the parameters, or else those of the active UAVs. A position is
taken to have three coordinates. -/
def nominalPositions (snapshot parameters : Dict String (Json F)) :
    Option (Dict String (Vec3 F)) :=
  let nominal := parameters.getD "nominal_desired_positions" (.obj [])
  if nominal.truthy then do (← nominal.dict?).traverse fun _ value => threeFloats value
  else do
    let entries ← (← activeUavs snapshot).mapM fun item => do
      return (← uavId item, ← position item)
    return .ofList entries

/-- The distance that the filter is to keep. -/
def safetyDistance (snapshot parameters : Dict String (Json F)) : Option F := do
  let constraints ← Experiment.section? snapshot "constraints"
  (parameters.getD "safety_distance_m"
    (constraints.getD "minimum_separation_m" (.float 4.0))).toFloat?

/-- `cbf_filter`. -/
def cbfFilter (snapshot parameters : Dict String (Json F)) : Option (CbfResult F) := do
  let nominal ← nominalPositions snapshot parameters
  let s ← correctPairs (← safetyDistance snapshot parameters)
    (← parameters.getFloat "barrier_gain" 0.5) nominal (sortedIds nominal).orderedPairs
  -- residuals are positive where the barrier holds
  let violations ← s.residuals.values.mapM fun value =>
    PyPlanner.square (PyFloat.max 0.0 (-value))
  return {
    desiredPositions := s.desired
    constraintResiduals := s.residuals
    objectiveValue := PyFloat.sum violations }

end

/-! ## Enforcement -/

/-- All UAVs are at least a distance apart. -/
def Separated (safetyDistance : ℝ) (desired : Dict String (Vec3 ℝ)) : Prop :=
  ∀ first second p q, first ≠ second → desired.get? first = some p →
    desired.get? second = some q → safetyDistance ≤ p.dist q

/-- By how much two UAVs are farther apart than they have to be. -/
noncomputable def slack (safetyDistance : ℝ) (desired : Dict String (Vec3 ℝ))
    (pair : String × String) : ℝ :=
  ((desired.get? pair.1).getD origin).dist ((desired.get? pair.2).getD origin) - safetyDistance

/-- The filter enforces the distance: the positions that it returns keep it, and the residuals are
the slacks of the pairs at these positions. -/
structure Enforced (safetyDistance : ℝ) (result : CbfResult ℝ) : Prop where
  separated : Separated safetyDistance result.desiredPositions
  reported : result.constraintResiduals.entries =
    (sortedIds result.desiredPositions).orderedPairs.map fun pair =>
      (residualLabel pair, slack safetyDistance result.desiredPositions pair)

/-- In exact arithmetic the norm of a difference is the distance. -/
theorem norm_sub (p q : Vec3 ℝ) : norm (sub p q) = some (p.dist q) := by
  have hsquares : norm (sub p q) = some √([(p.x - q.x) * (p.x - q.x), (p.y - q.y) * (p.y - q.y),
    (p.z - q.z) * (p.z - q.z)].sum) := rfl
  rw [hsquares, Vec3.dist_real]
  congr 2
  simp only [List.sum_cons, List.sum_nil]
  ring

theorem mem_sortedIds {desired : Dict String (Vec3 F)} {id : String} :
    id ∈ sortedIds desired ↔ id ∈ desired.keys := List.mem_insertionSort _

theorem nodup_sortedIds (desired : Dict String (Vec3 F)) : (sortedIds desired).Nodup :=
  (List.perm_insertionSort _ _).nodup_iff.mpr desired.nodup

/-- Separation is a matter of the pairs that the filter looks at. -/
theorem separated_iff {safetyDistance : ℝ} {desired : Dict String (Vec3 ℝ)} :
    Separated safetyDistance desired ↔
      ∀ pair ∈ (sortedIds desired).orderedPairs, 0 ≤ slack safetyDistance desired pair := by
  have hpairs : (∀ pair ∈ (sortedIds desired).orderedPairs, 0 ≤ slack safetyDistance desired pair) ↔
      (sortedIds desired).Pairwise fun first second =>
        0 ≤ slack safetyDistance desired (first, second) :=
    List.forall_mem_orderedPairs
      (r := fun first second => 0 ≤ slack safetyDistance desired (first, second))
  rw [hpairs]
  constructor
  · intro h
    refine (nodup_sortedIds desired).pairwise_of_forall_ne fun first hfirst second hsecond hne => ?_
    obtain ⟨p, hp⟩ := Dict.mem_keys_iff.mp (mem_sortedIds.mp hfirst)
    obtain ⟨q, hq⟩ := Dict.mem_keys_iff.mp (mem_sortedIds.mp hsecond)
    have hapart := h first second p q hne hp hq
    simpa [slack, hp, hq] using hapart
  · intro h first second p q hne hp hq
    -- the distance is symmetric, so the order of the ids does not matter
    have : Std.Symm fun first second => 0 ≤ slack safetyDistance desired (first, second) := by
      constructor
      intro a b hab
      unfold slack at hab ⊢
      rwa [Vec3.dist_comm]
    have hapart := h.forall (mem_sortedIds.mpr (Dict.mem_keys_iff.mpr ⟨p, hp⟩))
      (mem_sortedIds.mpr (Dict.mem_keys_iff.mpr ⟨q, hq⟩)) hne
    simpa [slack, hp, hq] using hapart

/-! ## The loop -/

section

variable {safetyDistance gain : ℝ} {s s' : CbfState ℝ} {pair : String × String}
  {pairs : List (String × String)}

/-- What one pass does: the slack of the pair is reported, nobody leaves, and if the two are far
enough apart nobody is moved. -/
theorem correctPair_spec (h : correctPair safetyDistance gain s pair = some s') :
    s'.residuals = s.residuals.set (residualLabel pair) (slack safetyDistance s.desired pair) ∧
      s'.desired.keys = s.desired.keys ∧
      (0 ≤ slack safetyDistance s.desired pair → s'.desired = s.desired) := by
  obtain ⟨p, hp, h⟩ := Option.bind_eq_some_iff.mp h
  obtain ⟨q, hq, h⟩ := Option.bind_eq_some_iff.mp h
  have hslack : slack safetyDistance s.desired pair = p.dist q - safetyDistance := by
    simp [slack, hp, hq]
  simp only [norm_sub, Option.bind_eq_bind, Option.bind_some] at h
  rw [hslack]
  split at h
  · rename_i hclose
    obtain ⟨direction, -, h⟩ := Option.bind_eq_some_iff.mp h
    obtain rfl := Option.some.inj h
    refine ⟨rfl, ?_, fun hapart => ?_⟩
    · have hfirst : pair.1 ∈ s.desired.keys := Dict.mem_keys_iff.mpr ⟨p, hp⟩
      have hsecond : pair.2 ∈ s.desired.keys := Dict.mem_keys_iff.mpr ⟨q, hq⟩
      rw [Dict.keys_set_of_mem _ (by rwa [Dict.keys_set_of_mem _ hfirst]),
        Dict.keys_set_of_mem _ hfirst]
    · rw [Bool.and_eq_true, PyFloat.lt_real, decide_eq_true_eq] at hclose
      linarith [hclose.1]
  · obtain rfl := Option.some.inj h
    exact ⟨rfl, rfl, fun _ => rfl⟩

/-- The loop from any state. -/
theorem keys_of_corrected (h : pairs.foldlM (correctPair safetyDistance gain) s = some s') :
    s'.desired.keys = s.desired.keys := by
  induction pairs generalizing s with
  | nil => rw [Option.some.inj h]
  | cons pair pairs ih =>
      rw [List.foldlM_cons] at h
      obtain ⟨t, ht, hrest⟩ := Option.bind_eq_some_iff.mp h
      rw [ih hrest, (correctPair_spec ht).2.1]

/-- A residual stays as it is while other pairs are looked at. -/
theorem residual_of_corrected (h : pairs.foldlM (correctPair safetyDistance gain) s = some s')
    {label : String} (hlabel : label ∉ pairs.map residualLabel) :
    s'.residuals.get? label = s.residuals.get? label := by
  induction pairs generalizing s with
  | nil => rw [Option.some.inj h]
  | cons pair pairs ih =>
      rw [List.foldlM_cons] at h
      obtain ⟨t, ht, hrest⟩ := Option.bind_eq_some_iff.mp h
      rw [List.map_cons, List.mem_cons, not_or] at hlabel
      rw [ih hrest hlabel.2, (correctPair_spec ht).1, Dict.get?_set_of_ne _ _ hlabel.1]

/-- While the pairs are far enough apart, nobody is moved. -/
theorem desired_of_apart (h : pairs.foldlM (correctPair safetyDistance gain) s = some s')
    (hapart : ∀ pair ∈ pairs, 0 ≤ slack safetyDistance s.desired pair) :
    s'.desired = s.desired := by
  induction pairs generalizing s with
  | nil => rw [Option.some.inj h]
  | cons pair pairs ih =>
      rw [List.foldlM_cons] at h
      obtain ⟨t, ht, hrest⟩ := Option.bind_eq_some_iff.mp h
      rw [List.forall_mem_cons] at hapart
      have hstay := (correctPair_spec ht).2.2 hapart.1
      rw [ih hrest (by rw [hstay]; exact hapart.2), hstay]

/-- And the slacks of these pairs are reported, if each has a name of its own. -/
theorem residuals_of_apart (h : pairs.foldlM (correctPair safetyDistance gain) s = some s')
    (hapart : ∀ pair ∈ pairs, 0 ≤ slack safetyDistance s.desired pair)
    (hlabels : (pairs.map residualLabel).Nodup)
    (hnew : ∀ label ∈ pairs.map residualLabel, label ∉ s.residuals.keys) :
    s'.residuals.entries = s.residuals.entries ++ pairs.map fun pair =>
      (residualLabel pair, slack safetyDistance s.desired pair) := by
  induction pairs generalizing s with
  | nil => rw [Option.some.inj h, List.map_nil, List.append_nil]
  | cons pair pairs ih =>
      rw [List.foldlM_cons] at h
      obtain ⟨t, ht, hrest⟩ := Option.bind_eq_some_iff.mp h
      rw [List.forall_mem_cons] at hapart
      rw [List.map_cons, List.nodup_cons] at hlabels
      rw [List.map_cons, List.forall_mem_cons] at hnew
      obtain ⟨hresiduals, -, hstay⟩ := correctPair_spec ht
      have hstay := hstay hapart.1
      rw [ih hrest (by rw [hstay]; exact hapart.2) hlabels.2, hresiduals, hstay,
        Dict.entries_set_of_not_mem _ hnew.1, List.append_assoc]
      · rfl
      · intro label hlabel
        rw [hresiduals, Dict.mem_keys_set, not_or]
        exact ⟨hnew.2 label hlabel, fun heq => hlabels.1 (heq ▸ hlabel)⟩

/-! ## What the filter returns -/

/-- One pass does not raise. -/
theorem exists_correctPair (hfirst : pair.1 ∈ s.desired.keys) (hsecond : pair.2 ∈ s.desired.keys) :
    ∃ s', correctPair safetyDistance gain s pair = some s' := by
  obtain ⟨p, hp⟩ := Dict.mem_keys_iff.mp hfirst
  obtain ⟨q, hq⟩ := Dict.mem_keys_iff.mp hsecond
  simp only [correctPair, hp, hq, norm_sub, Option.bind_eq_bind, Option.bind_some, unit]
  split
  · rename_i hclose
    -- the two are apart, so there is a direction
    have hfar : (0 : ℝ) < p.dist q := by
      rw [Bool.and_eq_true, PyFloat.lt_real, PyFloat.lt_real, decide_eq_true_eq,
        decide_eq_true_eq] at hclose
      exact lt_trans (by norm_num) hclose.2
    split
    · simp [PyFloat.div_real hfar.ne']
    · simp
  · exact ⟨_, rfl⟩

/-- Neither does the loop. -/
theorem exists_corrected
    (hpairs : ∀ pair ∈ pairs, pair.1 ∈ s.desired.keys ∧ pair.2 ∈ s.desired.keys) :
    ∃ s', pairs.foldlM (correctPair safetyDistance gain) s = some s' := by
  induction pairs generalizing s with
  | nil => exact ⟨s, rfl⟩
  | cons pair pairs ih =>
      rw [List.forall_mem_cons] at hpairs
      obtain ⟨t, ht⟩ : ∃ t, correctPair safetyDistance gain s pair = some t :=
        exists_correctPair hpairs.1.1 hpairs.1.2
      obtain ⟨s', hs'⟩ := ih (s := t) (by rw [(correctPair_spec ht).2.1]; exact hpairs.2)
      refine ⟨s', ?_⟩
      rw [List.foldlM_cons, ht]
      exact hs'

variable [PyText ℝ] {snapshot parameters : Dict String (Json ℝ)} {nominal : Dict String (Vec3 ℝ)}
  {result : CbfResult ℝ}

/-- What the filter returns is what the loop ends with. -/
theorem cbfFilter_spec (h : cbfFilter snapshot parameters = some result)
    (hnominal : nominalPositions snapshot parameters = some nominal)
    (hdistance : Baseline.safetyDistance snapshot parameters = some safetyDistance) :
    ∃ gain, correctPairs safetyDistance gain nominal (sortedIds nominal).orderedPairs =
      some { desired := result.desiredPositions, residuals := result.constraintResiduals } := by
  simp only [cbfFilter, hnominal, hdistance, Option.bind_eq_bind, Option.bind_some] at h
  obtain ⟨gain, -, h⟩ := Option.bind_eq_some_iff.mp h
  obtain ⟨s, hs, h⟩ := Option.bind_eq_some_iff.mp h
  obtain ⟨violations, -, h⟩ := Option.bind_eq_some_iff.mp h
  obtain rfl := Option.some.inj h
  exact ⟨gain, hs⟩

/-- The filter returns whenever it can read its parameters. -/
theorem exists_cbfFilter (hnominal : nominalPositions snapshot parameters = some nominal)
    (hdistance : Baseline.safetyDistance snapshot parameters = some safetyDistance)
    (hgain : parameters.getFloat "barrier_gain" 0.5 = some gain) :
    ∃ result, cbfFilter snapshot parameters = some result := by
  have hpairs : ∀ pair ∈ (sortedIds nominal).orderedPairs,
      pair.1 ∈ nominal.keys ∧ pair.2 ∈ nominal.keys := by
    apply List.forall_mem_orderedPairs (r := fun first second =>
      first ∈ nominal.keys ∧ second ∈ nominal.keys).mpr
    rw [List.pairwise_iff_forall_sublist]
    intro first second hsublist
    exact ⟨mem_sortedIds.mp (hsublist.subset (by simp)),
      mem_sortedIds.mp (hsublist.subset (by simp))⟩
  obtain ⟨s, hloop⟩ : ∃ s, correctPairs safetyDistance gain nominal
      (sortedIds nominal).orderedPairs = some s := exists_corrected hpairs
  obtain ⟨violations, hviolations⟩ : ∃ violations, (s.residuals.values.mapM fun value =>
      PyPlanner.square (PyFloat.max 0.0 (-value))) = some violations :=
    List.exists_mapM_eq_some_iff.mpr fun value _ => ⟨_, rfl⟩
  simp only [cbfFilter, hnominal, hdistance, hgain, hloop, hviolations, Option.bind_eq_bind,
    Option.bind_some]
  exact ⟨_, rfl⟩

omit [PyText ℝ] in
/-- The ids of the returned positions are those of the nominal ones. -/
theorem sortedIds_of_corrected
    (h : correctPairs safetyDistance gain nominal pairs =
      some { desired := result.desiredPositions, residuals := result.constraintResiduals }) :
    sortedIds result.desiredPositions = sortedIds nominal := by
  have hkeys : result.desiredPositions.keys = nominal.keys := keys_of_corrected h
  rw [sortedIds, sortedIds, hkeys]

/-- If there is nothing to correct, the distance is kept and reported. -/
theorem enforced_of_separated (h : cbfFilter snapshot parameters = some result)
    (hnominal : nominalPositions snapshot parameters = some nominal)
    (hdistance : Baseline.safetyDistance snapshot parameters = some safetyDistance)
    (hseparated : Separated safetyDistance nominal)
    (hlabels : ((sortedIds nominal).orderedPairs.map residualLabel).Nodup) :
    Enforced safetyDistance result := by
  obtain ⟨gain, hloop⟩ := cbfFilter_spec h hnominal hdistance
  have hapart := separated_iff.mp hseparated
  have hstay : result.desiredPositions = nominal := desired_of_apart hloop hapart
  constructor
  · rwa [hstay]
  · rw [hstay]
    exact (residuals_of_apart hloop hapart hlabels (by simp [Dict.keys])).trans
      (List.nil_append _)

/-- If the distance is kept and reported, there was nothing to correct: the residual of the first
pair that is too close would be negative. -/
theorem separated_of_enforced (h : cbfFilter snapshot parameters = some result)
    (hnominal : nominalPositions snapshot parameters = some nominal)
    (hdistance : Baseline.safetyDistance snapshot parameters = some safetyDistance)
    (henforced : Enforced safetyDistance result) :
    Separated safetyDistance nominal ∧
      ((sortedIds nominal).orderedPairs.map residualLabel).Nodup := by
  obtain ⟨gain, hloop⟩ := cbfFilter_spec h hnominal hdistance
  have hids := sortedIds_of_corrected hloop
  have hreported := henforced.reported
  rw [hids] at hreported
  have hlabels : ((sortedIds nominal).orderedPairs.map residualLabel).Nodup := by
    have hnodup := result.constraintResiduals.nodup
    rwa [hreported, List.map_map] at hnodup
  refine ⟨separated_iff.mpr ?_, hlabels⟩
  have hslack : ∀ pair ∈ (sortedIds nominal).orderedPairs,
      0 ≤ slack safetyDistance result.desiredPositions pair := by
    rw [← hids]
    exact separated_iff.mp henforced.separated
  -- pair by pair: what has been looked at so far was far enough apart
  suffices hprefix : ∀ seen rest, (sortedIds nominal).orderedPairs = seen ++ rest →
      ∀ pair ∈ seen, 0 ≤ slack safetyDistance nominal pair from
    hprefix _ [] (List.append_nil _).symm
  intro seen
  induction seen using List.reverseRecOn with
  | nil => exact fun _ _ pair hpair => absurd hpair (List.not_mem_nil)
  | append_singleton seen pair ih =>
      intro rest hsplit
      have hseen := ih (pair :: rest) (by rw [hsplit, List.append_assoc]; rfl)
      rw [List.forall_mem_append]
      refine ⟨hseen, fun other hother => ?_⟩
      obtain rfl := List.mem_singleton.mp hother
      unfold correctPairs at hloop
      rw [hsplit, List.foldlM_append, List.foldlM_append] at hloop
      obtain ⟨t, hfirst, hrest⟩ := Option.bind_eq_some_iff.mp hloop
      obtain ⟨s, hs, hpass⟩ := Option.bind_eq_some_iff.mp hfirst
      rw [List.foldlM_cons] at hpass
      simp only [List.foldlM_nil, bind_pure] at hpass
      have hstay : s.desired = nominal := desired_of_apart hs hseen
      -- what has been recorded of the pair is not touched any more
      have hlast : residualLabel other ∉ rest.map residualLabel := by
        rw [hsplit, List.append_assoc, List.map_append, List.singleton_append, List.map_cons]
          at hlabels
        exact (List.nodup_cons.mp (List.nodup_append.mp hlabels).2.1).1
      have hrecorded : result.constraintResiduals.get? (residualLabel other) =
          some (slack safetyDistance nominal other) := by
        have hframe := residual_of_corrected hrest hlast
        rwa [(correctPair_spec hpass).1, Dict.get?_set_self, hstay] at hframe
      have hmem : other ∈ (sortedIds nominal).orderedPairs := by
        rw [hsplit]
        simp
      have hslot : result.constraintResiduals.get? (residualLabel other) =
          some (slack safetyDistance result.desiredPositions other) := by
        rw [Dict.get?_eq_some_iff, hreported]
        exact List.mem_map_of_mem (f := fun pair =>
          (residualLabel pair, slack safetyDistance result.desiredPositions pair)) hmem
      rw [Option.some.inj (hrecorded.symm.trans hslot)]
      exact hslack other hmem

/-- The distance is kept by the returned positions and reported as it is exactly if it was kept by
the nominal positions already and no two pairs share the name of their residual. -/
theorem enforced_iff (h : cbfFilter snapshot parameters = some result)
    (hnominal : nominalPositions snapshot parameters = some nominal)
    (hdistance : Baseline.safetyDistance snapshot parameters = some safetyDistance) :
    Enforced safetyDistance result ↔ Separated safetyDistance nominal ∧
      ((sortedIds nominal).orderedPairs.map residualLabel).Nodup :=
  ⟨separated_of_enforced h hnominal hdistance,
    fun hnothing => enforced_of_separated h hnominal hdistance hnothing.1 hnothing.2⟩

end

/-! ## Two UAVs -/

/-- Parameters with two nominal positions. -/
noncomputable def twoTargets (p q : Vec3 ℝ) : Dict String (Json ℝ) :=
  .ofList [("nominal_desired_positions", .obj [("drone_1", p.toJson), ("drone_2", q.toJson)])]

/-- They are read back, and the other parameters are the defaults. -/
theorem nominalPositions_twoTargets (p q : Vec3 ℝ) :
    @nominalPositions ℝ _ PyText.exact .empty (twoTargets p q) =
      some (.ofList [("drone_1", p), ("drone_2", q)]) := rfl

theorem safetyDistance_twoTargets (p q : Vec3 ℝ) :
    @Baseline.safetyDistance ℝ _ PyText.exact .empty (twoTargets p q) = some 4.0 := rfl

theorem exists_cbfFilter_twoTargets (p q : Vec3 ℝ) :
    ∃ result, @cbfFilter ℝ _ PyText.exact .empty (twoTargets p q) = some result :=
  @exists_cbfFilter 4.0 0.5 PyText.exact _ _ _ (nominalPositions_twoTargets p q)
    (safetyDistance_twoTargets p q) rfl

/-- Two UAVs that are ten metres apart. -/
theorem enforced_iff_tenMetres :
    ∃ result, @cbfFilter ℝ _ PyText.exact .empty (twoTargets ⟨0, 0, 0⟩ ⟨10, 0, 0⟩) = some result ∧
      (Enforced 4.0 result ↔
        Separated 4.0 (.ofList [("drone_1", ⟨0, 0, 0⟩), ("drone_2", ⟨10, 0, 0⟩)]) ∧
        ((sortedIds (.ofList [("drone_1", (⟨0, 0, 0⟩ : Vec3 ℝ)),
          ("drone_2", ⟨10, 0, 0⟩)])).orderedPairs.map residualLabel).Nodup) := by
  obtain ⟨result, hresult⟩ := exists_cbfFilter_twoTargets ⟨0, 0, 0⟩ ⟨10, 0, 0⟩
  exact ⟨result, hresult, @enforced_iff 4.0 PyText.exact _ _ _ result hresult
    (nominalPositions_twoTargets _ _) (safetyDistance_twoTargets _ _)⟩

/-- Two UAVs at the same place are left there. -/
theorem not_enforced :
    ¬∀ (snapshot parameters : Dict String (Json ℝ)) (result : CbfResult ℝ) (safetyDistance : ℝ),
      @cbfFilter ℝ _ PyText.exact snapshot parameters = some result →
      @Baseline.safetyDistance ℝ _ PyText.exact snapshot parameters = some safetyDistance →
      0 < safetyDistance →
      @Dict.getFloat ℝ PyText.exact _ parameters "barrier_gain" 0.5 = some 0.5 →
      Enforced safetyDistance result := by
  intro hclaim
  obtain ⟨result, hresult⟩ := exists_cbfFilter_twoTargets ⟨0, 0, 0⟩ ⟨0, 0, 0⟩
  have henforced := hclaim _ _ result 4.0 hresult (safetyDistance_twoTargets _ _) (by norm_num) rfl
  have hseparated := (@separated_of_enforced 4.0 PyText.exact _ _ _ result hresult
    (nominalPositions_twoTargets _ _) (safetyDistance_twoTargets _ _) henforced).1
  have hclose := hseparated "drone_1" "drone_2" ⟨0, 0, 0⟩ ⟨0, 0, 0⟩ (by decide) rfl rfl
  have hzero : (⟨0, 0, 0⟩ : Vec3 ℝ).dist ⟨0, 0, 0⟩ = 0 := by
    show √((0 - 0) ^ 2 + (0 - 0) ^ 2 + (0 - 0) ^ 2) = 0
    norm_num
  rw [hzero] at hclose
  norm_num at hclose

end Netlab.Baseline
