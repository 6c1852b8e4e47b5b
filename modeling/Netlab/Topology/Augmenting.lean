import Netlab.Prelude.Flow
import Netlab.Topology.MaxFlow

/-!
# Augmenting a flow

Between distinct ends every round of `_max_flow` makes something more flow, as long as the search
reaches the sink, and then the flow fills the cut that the search has found. So the loop ends, and
its result is the largest number of paths that together respect the capacities (`maxFlow_spec`).
-/

namespace Netlab

variable {α : Type} [DecidableEq α]

/-! ## The search for an augmenting path -/

/-- The nodes from the start of a search to a node, as the search came to it. -/
inductive Traced (parent : Dict α (Option α)) : α → List α → Prop
  | root {n : α} (h : parent.get? n = some none) : Traced parent n [n]
  | step {n q : α} {p : List α} (h : parent.get? n = some (some q)) (hp : Traced parent q p) :
      Traced parent n (p ++ [n])

/-- What leads to a node ends with it. -/
theorem Traced.exists_concat {parent : Dict α (Option α)} {n : α} {p : List α}
    (h : Traced parent n p) : ∃ init, p = init ++ [n] := by
  cases h with
  | root => exact ⟨[], rfl⟩
  | step => exact ⟨_, rfl⟩

/-- What led to a node still does when another node is reached. -/
theorem Traced.set {parent : Dict α (Option α)} {n : α} {p : List α} (h : Traced parent n p)
    {nxt : α} (hnxt : nxt ∉ parent.keys) (from? : Option α) :
    Traced (parent.set nxt from?) n p := by
  have hkeep : ∀ {k v}, parent.get? k = some v → (parent.set nxt from?).get? k = some v := by
    intro k v hk
    have hne : k ≠ nxt := by
      rintro rfl
      exact hnxt (Dict.mem_keys_iff.mpr ⟨v, hk⟩)
    rwa [Dict.get?_set_of_ne _ _ hne]
  induction h with
  | root hroot => exact .root (hkeep hroot)
  | step hstep _ ih => exact .step (hkeep hstep) ih

/-- Walking back collects the hops of the path. -/
theorem walkBack_of_traced {parent : Dict α (Option α)} {n : α} {p : List α}
    (h : Traced parent n p) {fuel : ℕ} (hfuel : p.length ≤ fuel) :
    walkBack parent fuel n = some p.hops.reverse := by
  induction h generalizing fuel with
  | root hroot =>
      obtain ⟨fuel, rfl⟩ : ∃ k, fuel = k + 1 := ⟨fuel - 1, by simp at hfuel; omega⟩
      rw [walkBack, hroot]
      rfl
  | @step n q p hstep hp ih =>
      rw [List.length_append, List.length_singleton] at hfuel
      obtain ⟨fuel, rfl⟩ : ∃ k, fuel = k + 1 := ⟨fuel - 1, by omega⟩
      obtain ⟨init, rfl⟩ := hp.exists_concat
      have hback := ih (Nat.le_of_succ_le_succ hfuel)
      rw [walkBack, hstep]
      simp only [Option.bind_eq_bind, Option.bind_some, hback]
      rw [List.append_assoc, List.singleton_append, List.hops_concat, List.reverse_append]
      rfl

/-- What a search for an augmenting path has found: to every node that it has reached it knows a
path on which something is left, and it has looked at the nodes that are not queued, except for
`current`. -/
structure Searching (U : Finset α) (residual : Network α) (source : α) (current : Option α)
    (state : Dict α (Option α) × List α) : Prop where
  source_mem : source ∈ state.1.keys
  subset : ∀ n ∈ state.1.keys, n ∈ U
  queue : ∀ n ∈ state.2, n ∈ state.1.keys
  traced : ∀ n ∈ state.1.keys, ∃ p, Traced state.1 n p ∧ Flow.IsPath source n p ∧
    (∀ x ∈ p, x ∈ state.1.keys) ∧ ∀ e ∈ p.hops, 0 < residual.amount e.1 e.2
  closed : ∀ n ∈ state.1.keys, n ∉ state.2 → some n ≠ current →
    ∀ m, 0 < residual.amount n m → m ∈ state.1.keys

/-- How many nodes a search still has to take off its queue. -/
def searchMeasure (U : Finset α) (state : Dict α (Option α) × List α) : ℕ :=
  (U \ state.1.keys.toFinset).card + state.2.length

/-- Looking at one node behind the current one. -/
theorem Searching.discoverNext {U : Finset α} {residual : Network α} {source node : α}
    {state : Dict α (Option α) × List α} (h : Searching U residual source (some node) state)
    (hnode : node ∈ state.1.keys) {neighbor : α × ℤ}
    (hentry : residual.cell? node neighbor.1 = some neighbor.2) (hU : neighbor.1 ∈ U) :
    let state' := Netlab.discoverNext node state neighbor
    Searching U residual source (some node) state' ∧
      (∀ n ∈ state.1.keys, n ∈ state'.1.keys) ∧ (0 < neighbor.2 → neighbor.1 ∈ state'.1.keys) ∧
      searchMeasure U state' = searchMeasure U state := by
  obtain ⟨nxt, value⟩ := neighbor
  dsimp only at hentry hU ⊢
  rw [Netlab.discoverNext]
  by_cases hnew : 0 < value ∧ nxt ∉ state.1.keys
  · rw [if_pos hnew]
    have hkeys : ∀ {n}, n ∈ (state.1.set nxt (some node)).keys ↔ n ∈ state.1.keys ∨ n = nxt :=
      Dict.mem_keys_set
    refine ⟨⟨hkeys.mpr (Or.inl h.source_mem), ?_, ?_, ?_, ?_⟩, fun n hn => hkeys.mpr (Or.inl hn),
      fun _ => hkeys.mpr (Or.inr rfl), ?_⟩
    · intro n hn
      rcases hkeys.mp hn with hn | rfl
      · exact h.subset n hn
      · exact hU
    · intro n hn
      rcases List.mem_append.mp hn with hn | hn
      · exact hkeys.mpr (Or.inl (h.queue n hn))
      · exact hkeys.mpr (Or.inr (List.mem_singleton.mp hn))
    · intro n hn
      rcases hkeys.mp hn with hn | rfl
      · obtain ⟨p, htraced, hpath, hmem, hleft⟩ := h.traced n hn
        exact ⟨p, htraced.set hnew.2 _, hpath, fun x hx => hkeys.mpr (Or.inl (hmem x hx)), hleft⟩
      · -- the path to the current node goes on to the new one
        obtain ⟨p, htraced, hpath, hmem, hleft⟩ := h.traced node hnode
        refine ⟨p ++ [n], .step (Dict.get?_set_self ..) (htraced.set hnew.2 _), ⟨?_, by simp, ?_⟩,
          ?_, ?_⟩
        · rw [List.head?_append, hpath.head]
          rfl
        · refine List.nodup_append.mpr ⟨hpath.nodup, List.nodup_singleton n, ?_⟩
          rintro x hx y hy rfl
          exact hnew.2 (List.mem_singleton.mp hy ▸ hmem x hx)
        · intro x hx
          rcases List.mem_append.mp hx with hx | hx
          · exact hkeys.mpr (Or.inl (hmem x hx))
          · exact hkeys.mpr (Or.inr (List.mem_singleton.mp hx))
        · obtain ⟨init, rfl⟩ := htraced.exists_concat
          rw [List.append_assoc, List.singleton_append, List.hops_concat]
          intro e he
          rcases List.mem_append.mp he with he | he
          · exact hleft e he
          · rw [List.mem_singleton.mp he, Dict.amount, hentry]
            exact hnew.1
    · intro n hn hqueued hcurrent m hm
      rw [List.mem_append, not_or] at hqueued
      rcases hkeys.mp hn with hn | rfl
      · exact hkeys.mpr (Or.inl (h.closed n hn hqueued.1 hcurrent m hm))
      · exact absurd (List.mem_singleton_self n) hqueued.2
    · have hfinset : (state.1.set nxt (some node)).keys.toFinset =
          insert nxt state.1.keys.toFinset := by
        ext n
        rw [List.mem_toFinset, hkeys, Finset.mem_insert, List.mem_toFinset, or_comm]
      have hcard := Finset.card_erase_add_one (Finset.mem_sdiff.mpr
        ⟨hU, fun hmem => hnew.2 (List.mem_toFinset.mp hmem)⟩)
      rw [searchMeasure, searchMeasure, hfinset, Finset.sdiff_insert]
      simp only [List.length_append, List.length_singleton]
      omega
  · rw [if_neg hnew]
    refine ⟨h, fun n hn => hn, fun hvalue => ?_, rfl⟩
    by_contra hnot
    exact hnew ⟨hvalue, hnot⟩

/-- Looking at the nodes behind the current one. -/
theorem Searching.foldl {U : Finset α} {residual : Network α} {source node : α}
    {state : Dict α (Option α) × List α} (h : Searching U residual source (some node) state)
    (hnode : node ∈ state.1.keys) {neighbors : List (α × ℤ)}
    (hneighbors : ∀ e ∈ neighbors, residual.cell? node e.1 = some e.2 ∧ e.1 ∈ U) :
    let state' := neighbors.foldl (Netlab.discoverNext node) state
    Searching U residual source (some node) state' ∧
      (∀ n ∈ state.1.keys, n ∈ state'.1.keys) ∧
      (∀ e ∈ neighbors, 0 < e.2 → e.1 ∈ state'.1.keys) ∧
      searchMeasure U state' = searchMeasure U state := by
  induction neighbors generalizing state with
  | nil => exact ⟨h, fun n hn => hn, by simp, rfl⟩
  | cons e rest ih =>
      obtain ⟨hentry, hU⟩ := hneighbors e List.mem_cons_self
      obtain ⟨hfirst, hkeep, hreached, hmeasure⟩ := h.discoverNext hnode hentry hU
      obtain ⟨hrest, hkeep', hreached', hmeasure'⟩ := ih hfirst (hkeep node hnode)
        fun e he => hneighbors e (List.mem_cons_of_mem _ he)
      refine ⟨hrest, fun n hn => hkeep' n (hkeep n hn), ?_, hmeasure'.trans hmeasure⟩
      rw [List.forall_mem_cons]
      exact ⟨fun hvalue => hkeep' _ (hreached hvalue), hreached'⟩

/-- The search ends at the sink, or when it has reached every node to which something is left. -/
theorem augmentingSearch_spec {U : Finset α} {residual : Network α} {source : α} (sink : α)
    (hsupport : ∀ u v value, residual.cell? u v = some value → u ∈ U ∧ v ∈ U) (hsource : source ∈ U)
    {fuel : ℕ} (hfuel : U.card + 1 < fuel) :
    ∃ parent queue, augmentingSearch fuel residual source sink = some parent ∧
      Searching U residual source none (parent, queue) ∧ (sink ∈ parent.keys ∨ queue = []) := by
  have hstart : Searching U residual source none (.ofList [(source, none)], [source]) := by
    have hkeys : ∀ {n}, n ∈ (Dict.ofList [(source, (none : Option α))]).keys ↔ n = source := by
      intro n
      rw [Dict.mem_keys_ofList]
      simp
    have hroot : (Dict.ofList [(source, (none : Option α))]).get? source = some none :=
      Dict.get?_ofList_of_mem (by simp) (by simp)
    refine ⟨hkeys.mpr rfl, fun n hn => hkeys.mp hn ▸ hsource,
      fun n hn => hkeys.mpr (List.mem_singleton.mp hn), fun n hn => ?_, fun n hn hqueued => ?_⟩
    · rw [hkeys.mp hn]
      exact ⟨[source], .root hroot, .singleton source,
        fun x hx => hkeys.mpr (List.mem_singleton.mp hx), by simp⟩
    · exact absurd (List.mem_singleton.mpr (hkeys.mp hn)) hqueued
  have hmeasure : searchMeasure U (.ofList [(source, none)], [source]) < fuel :=
    lt_of_le_of_lt (Nat.add_le_add_right (Finset.card_le_card Finset.sdiff_subset) 1) hfuel
  have hloop : ∃ parent, augmentingSearch fuel residual source sink = some parent ∧ ∃ queue,
      Searching U residual source none (parent, queue) ∧ (sink ∈ parent.keys ∨ queue = []) := by
    refine Loop.run_of_measure (Searching U residual source none) _ (searchMeasure U) ?_ hstart
      hmeasure
    rintro ⟨parent, queue⟩ hstate
    cases queue with
    | nil => exact Or.inl ⟨parent, rfl, [], hstate, Or.inr rfl⟩
    | cons node queue =>
        by_cases hsink : sink ∈ parent.keys
        · exact Or.inl ⟨parent, by simp [augmentingStep, hsink], _, hstate, Or.inl hsink⟩
        · refine Or.inr ⟨_, by simp only [augmentingStep, if_neg hsink]; rfl, ?_⟩
          have hnode := hstate.queue node List.mem_cons_self
          have htaken : Searching U residual source (some node) (parent, queue) := {
            hstate with
            queue := fun n hn => hstate.queue n (List.mem_cons_of_mem _ hn)
            closed := fun n hn hqueued hcurrent => by
              refine hstate.closed n hn (fun hmem => ?_) (by simp)
              rcases List.mem_cons.mp hmem with rfl | hmem
              · exact hcurrent rfl
              · exact hqueued hmem }
          have hneighbors : ∀ e ∈ (residual.row node).entries,
              residual.cell? node e.1 = some e.2 ∧ e.1 ∈ U := by
            intro e he
            have hentry := Dict.mem_row_entries.mp he
            exact ⟨hentry, (hsupport _ _ _ hentry).2⟩
          obtain ⟨hdone, hkeep, hreached, hmeasure⟩ := htaken.foldl hnode hneighbors
          refine ⟨{ hdone with closed := fun n hn hqueued _ m hm => ?_ }, ?_⟩
          · by_cases hcurrent : n = node
            · subst hcurrent
              -- every entry of the node's row has been looked at
              rw [Dict.amount] at hm
              cases hentry : residual.cell? n m with
              | none => simp [hentry] at hm
              | some value =>
                  refine hreached (m, value) (Dict.mem_row_entries.mpr hentry) ?_
                  simpa [hentry] using hm
            · exact hdone.closed n hn hqueued (fun heq => hcurrent (Option.some.inj heq)) m hm
          · rw [hmeasure]
            simp [searchMeasure]
  obtain ⟨parent, hparent, queue, hspec⟩ := hloop
  exact ⟨parent, queue, hparent, hspec⟩

/-! ## Augmenting a flow -/

/-- What is left on hops on all of which something is left. -/
theorem bottleneck_spec {residual : Network α} {hops : List (α × α)}
    (h : ∀ e ∈ hops, 0 < residual.amount e.1 e.2) :
    ∃ increment, bottleneck residual hops = some increment ∧ 0 < increment ∧
      ∀ e ∈ hops, increment ≤ residual.amount e.1 e.2 := by
  -- the loop lowers `increment` from its start, and every value it is lowered to is positive
  have hfold : ∀ (hops : List (α × α)) (start : ℤ), 0 < start →
      (∀ e ∈ hops, 0 < residual.amount e.1 e.2) →
      ∃ increment, hops.foldlM (fun increment hop => do
          return min increment (← residual.cell? hop.1 hop.2)) start = some increment ∧
        0 < increment ∧ increment ≤ start ∧ ∀ e ∈ hops, increment ≤ residual.amount e.1 e.2 := by
    intro hops
    induction hops with
    | nil => exact fun start hstart _ => ⟨start, rfl, hstart, le_refl _, by simp⟩
    | cons e rest ih =>
        intro start hstart hleft
        have he := hleft e List.mem_cons_self
        obtain ⟨value, hvalue⟩ : ∃ value, residual.cell? e.1 e.2 = some value := by
          rw [Dict.amount] at he
          cases hentry : residual.cell? e.1 e.2 with
          | none => simp [hentry] at he
          | some value => exact ⟨value, rfl⟩
        have hamount : residual.amount e.1 e.2 = value := by rw [Dict.amount, hvalue]; rfl
        obtain ⟨increment, hincrement, hpos, hle, hall⟩ := ih (min start value)
          (lt_min hstart (hamount ▸ he)) fun e he => hleft e (List.mem_cons_of_mem _ he)
        refine ⟨increment, ?_, hpos, hle.trans (min_le_left _ _), ?_⟩
        · rw [List.foldlM_cons, hvalue]
          exact hincrement
        · rw [List.forall_mem_cons]
          exact ⟨hamount ▸ hle.trans (min_le_right _ _), hall⟩
  obtain ⟨increment, hincrement, hpos, -, hall⟩ := hfold hops (10 ^ 9) (by norm_num) h
  exact ⟨increment, hincrement, hpos, hall⟩

/-- Letting an amount flow over hops: it is taken off what is left on them, and added to what is
left on the way back. -/
theorem exists_pushHops_eq_some (increment : ℤ) {hops : List (α × α)} {residual : Network α}
    (hentries : ∀ e ∈ hops, (residual.cell? e.1 e.2).isSome = true ∧ e.1 ≠ e.2) :
    ∃ residual', hops.foldlM (pushHop increment) residual = some residual' ∧
      (∀ u v, residual'.amount u v =
        residual.amount u v - increment * (hops.count (u, v) - hops.count (v, u))) ∧
      ∀ u v, (residual'.cell? u v).isSome = true →
        (residual.cell? u v).isSome = true ∨ (v, u) ∈ hops := by
  induction hops generalizing residual with
  | nil => exact ⟨residual, rfl, by simp, fun u v h => Or.inl h⟩
  | cons e rest ih =>
      obtain ⟨a, b⟩ := e
      obtain ⟨hsome, hne⟩ := hentries (a, b) List.mem_cons_self
      obtain ⟨value, hvalue⟩ := Option.isSome_iff_exists.mp hsome
      dsimp only at hvalue hne
      -- one hop takes the increment from its own entry and adds it to the reverse one
      let taken := residual.setEntry a b (value - increment)
      let pushed := taken.setEntry b a (taken.amount b a + increment)
      have hpush : pushHop increment residual (a, b) = some pushed := by
        rw [pushHop]
        simp only [hvalue, Option.bind_eq_bind, Option.bind_some]
        rfl
      have hentry : ∀ u v, (pushed.cell? u v).isSome = true ↔
          (residual.cell? u v).isSome = true ∨ (u = b ∧ v = a) := by
        intro u v
        rw [Dict.cell?_setEntry, Dict.cell?_setEntry]
        by_cases hback : u = b ∧ v = a
        · simp [hback]
        · rw [if_neg hback]
          by_cases hthere : u = a ∧ v = b
          · simp [hthere, hvalue]
          · simp [hthere, hback]
      have hamount : ∀ u v, pushed.amount u v = residual.amount u v -
          increment * ((if (a, b) = (u, v) then 1 else 0) - if (a, b) = (v, u) then 1 else 0) := by
        intro u v
        have hab : residual.amount a b = value := by rw [Dict.amount, hvalue]; rfl
        rw [Dict.amount_setEntry, Dict.amount_setEntry, Dict.amount_setEntry]
        simp only [Prod.mk.injEq]
        by_cases hback : u = b ∧ v = a
        · obtain ⟨rfl, rfl⟩ := hback
          simp [hne, Ne.symm hne]
        · rw [if_neg hback]
          by_cases hthere : u = a ∧ v = b
          · obtain ⟨rfl, rfl⟩ := hthere
            simp [hne, hab]
          · have hback' : ¬(a = v ∧ b = u) := fun h => hback ⟨h.2.symm, h.1.symm⟩
            have hthere' : ¬(a = u ∧ b = v) := fun h => hthere ⟨h.1.symm, h.2.symm⟩
            simp [hthere, hthere', hback']
      obtain ⟨residual', hresidual', hamounts, hsupport⟩ := ih fun e he =>
        ⟨(hentry e.1 e.2).mpr (Or.inl (hentries e (List.mem_cons_of_mem _ he)).1),
          (hentries e (List.mem_cons_of_mem _ he)).2⟩
      refine ⟨residual', ?_, fun u v => ?_, fun u v huv => ?_⟩
      · rw [List.foldlM_cons, hpush]
        exact hresidual'
      · rw [hamounts, hamount, List.count_cons, List.count_cons]
        simp only [beq_iff_eq]
        push_cast
        ring
      · rcases hsupport u v huv with hpushed | hmem
        · rcases (hentry u v).mp hpushed with hold | ⟨rfl, rfl⟩
          · exact Or.inl hold
          · exact Or.inr List.mem_cons_self
        · exact Or.inr (List.mem_cons_of_mem _ hmem)

/-- A residual network with the value of the flow that it is left by. -/
structure Augmented (U : Finset α) (c : α → α → ℤ) (source sink : α) (state : Network α × ℤ) :
    Prop where
  flow : Flow.IsFlow U c (fun u v => c u v - state.1.amount u v) source sink state.2
  support : ∀ u v, (state.1.cell? u v).isSome = true → u ∈ U ∧ v ∈ U

/-- One round: either something more flows, or the flow fills a cut. -/
theorem flowStep_spec {U : Finset α} {c : α → α → ℤ} {source sink : α} (hne : source ≠ sink)
    (hsource : source ∈ U) {fuel : ℕ} (hfuel : U.card + 1 < fuel) {state : Network α × ℤ}
    (h : Augmented U c source sink state) :
    (flowStep fuel source sink state = some (.inr state.2) ∧ ∃ R ⊆ U, source ∈ R ∧ sink ∉ R ∧
      ∀ u ∈ R, ∀ v ∈ U \ R, c u v - state.1.amount u v = c u v) ∨
    ∃ state', flowStep fuel source sink state = some (.inl state') ∧
      Augmented U c source sink state' ∧ state.2 < state'.2 := by
  obtain ⟨residual, total⟩ := state
  obtain ⟨hflow, hsupport⟩ := h
  dsimp only at hflow hsupport ⊢
  have hentryMem : ∀ u v value, residual.cell? u v = some value → u ∈ U ∧ v ∈ U :=
    fun u v value hvalue => hsupport u v (by rw [hvalue]; rfl)
  have hnonneg : ∀ u v, 0 ≤ residual.amount u v := fun u v => by
    have hle := hflow.le u v
    omega
  obtain ⟨parent, queue, hsearch, hsearching, hend⟩ :=
    augmentingSearch_spec sink hentryMem hsource hfuel
  rw [flowStep]
  simp only [hsearch, Option.bind_eq_bind, Option.bind_some]
  by_cases hsink : sink ∈ parent.keys
  · refine Or.inr ?_
    obtain ⟨p, htraced, hpath, hmem, hleft⟩ := hsearching.traced sink hsink
    have hU : ∀ x ∈ p, x ∈ U := fun x hx => hsearching.subset x (hmem x hx)
    have hlength : p.length ≤ fuel := by
      have hcard : p.toFinset.card ≤ U.card :=
        Finset.card_le_card fun x hx => hU x (List.mem_toFinset.mp hx)
      rw [List.toFinset_card_of_nodup hpath.nodup] at hcard
      omega
    have hleft' : ∀ e ∈ p.hops.reverse, 0 < residual.amount e.1 e.2 := fun e he =>
      hleft e (List.mem_reverse.mp he)
    obtain ⟨increment, hincrement, hpos, hle⟩ := bottleneck_spec hleft'
    have hentries : ∀ e ∈ p.hops.reverse,
        (residual.cell? e.1 e.2).isSome = true ∧ e.1 ≠ e.2 := by
      intro e he
      refine ⟨?_, ?_⟩
      · have hamount := hleft' e he
        rw [Dict.amount] at hamount
        cases hentry : residual.cell? e.1 e.2 with
        | none => simp [hentry] at hamount
        | some value => rfl
      · obtain ⟨pre, post, hsplit⟩ := List.mem_hops_iff.mp (List.mem_reverse.mp he)
        have hnodup := hpath.nodup
        rw [hsplit] at hnodup
        intro heq
        exact (List.nodup_cons.mp (List.nodup_append.mp hnodup).2.1).1 (heq ▸ List.mem_cons_self)
    obtain ⟨residual', hresidual', hamounts, hsupport'⟩ :=
      exists_pushHops_eq_some increment hentries
    simp only [List.count_reverse] at hamounts
    refine ⟨(residual', total + increment), ?_, ⟨?_, ?_⟩, by simpa using hpos⟩
    · rw [if_neg (not_not.mpr hsink), walkBack_of_traced htraced hlength]
      simp only [Option.bind_some, hincrement, hresidual']
      rfl
    · -- what flows now is what flowed before, and the increment along the path
      have hpushed : (fun u v => c u v - residual'.amount u v) = fun u v =>
          c u v - residual.amount u v + increment * (Flow.uses p u v - Flow.uses p v u) := by
        funext u v
        rw [hamounts, Flow.uses, Flow.uses]
        ring
      dsimp only
      rw [hpushed]
      refine hflow.push hpath hU hne increment fun u v => ?_
      have hone := hpath.uses_le_one u v
      have hback := Flow.uses_nonneg p v u
      have hroom := hnonneg u v
      have hbound : increment * Flow.uses p u v ≤ residual.amount u v := by
        rcases (Flow.uses_nonneg p u v).eq_or_lt with hzero | huse
        · rw [← hzero]
          simpa using hroom
        · have heq : Flow.uses p u v = 1 := by omega
          have hmem : (u, v) ∈ p.hops := by
            by_contra hnot
            rw [Flow.uses_eq_zero hnot] at huse
            omega
          rw [heq, mul_one]
          exact hle (u, v) (List.mem_reverse.mpr hmem)
      have hprod := mul_nonneg hpos.le hback
      rw [mul_sub]
      omega
    · intro u v huv
      rcases hsupport' u v huv with hold | hmem
      · exact hsupport u v hold
      · have hrev := hsupport v u (hentries (v, u) hmem).1
        exact ⟨hrev.2, hrev.1⟩
  · refine Or.inl ⟨by rw [if_pos hsink]; rfl, parent.keys.toFinset, ?_, ?_, ?_, ?_⟩
    · exact fun n hn => hsearching.subset n (List.mem_toFinset.mp hn)
    · exact List.mem_toFinset.mpr hsearching.source_mem
    · exact fun hmem => hsink (List.mem_toFinset.mp hmem)
    · -- nothing is left on the edges out of what was reached
      intro u hu v hv
      obtain rfl := hend.resolve_left hsink
      have hzero : residual.amount u v = 0 := by
        by_contra hsome
        have hpos : 0 < residual.amount u v := lt_of_le_of_ne (hnonneg u v) (Ne.symm hsome)
        refine (Finset.mem_sdiff.mp hv).2 (List.mem_toFinset.mpr ?_)
        exact hsearching.closed u (List.mem_toFinset.mp hu) List.not_mem_nil (by simp) v hpos
      rw [hzero, sub_zero]

/-! ## The residual network at the start -/

/-- The edges of a network with their capacities. -/
def networkEdges (capacity : Network α) : List (α × α × ℤ) :=
  capacity.entries.flatMap fun e => e.2.entries.map (Prod.mk e.1)

/-- The nodes of a network. -/
def networkNodes (capacity : Network α) : Finset α :=
  ((networkEdges capacity).flatMap fun e => [e.1, e.2.1]).toFinset

theorem mem_networkEdges {capacity : Network α} {u v : α} {value : ℤ} :
    (u, v, value) ∈ networkEdges capacity ↔ capacity.cell? u v = some value := by
  rw [networkEdges, Dict.cell?, Dict.row]
  simp only [List.mem_flatMap, List.mem_map, Prod.mk.injEq]
  constructor
  · rintro ⟨e, he, neighbor, hneighbor, rfl, rfl⟩
    rw [Dict.get?_eq_some_iff.mpr he]
    exact Dict.get?_eq_some_iff.mpr hneighbor
  · intro h
    cases hrow : capacity.get? u with
    | none => simp [hrow] at h
    | some row =>
        rw [hrow] at h
        exact ⟨(u, row), Dict.get?_eq_some_iff.mp hrow, (v, value), Dict.get?_eq_some_iff.mp h, rfl, rfl⟩

theorem nodup_networkEdges (capacity : Network α) :
    ((networkEdges capacity).map fun e => (e.1, e.2.1)).Nodup := by
  rw [networkEdges, List.map_flatMap]
  refine List.nodup_flatMap.mpr ⟨fun e _ => ?_, ?_⟩
  · rw [List.map_map]
    refine List.Nodup.of_map Prod.snd ?_
    rw [List.map_map]
    exact e.2.nodup
  · refine (List.pairwise_map.mp capacity.nodup).imp fun {e e'} hne => ?_
    rw [Function.onFun, List.disjoint_left]
    intro pair hpair hpair'
    obtain ⟨_, h, rfl⟩ := List.mem_map.mp hpair
    obtain ⟨_, -, rfl⟩ := List.mem_map.mp h
    obtain ⟨_, h', heq⟩ := List.mem_map.mp hpair'
    obtain ⟨_, -, rfl⟩ := List.mem_map.mp h'
    exact hne (Prod.mk.inj heq).1.symm

/-- What the residual network holds once some edges have been added: their capacities, and nothing
for ways back that are no edges. -/
structure ResidualFor (edges : List (α × α × ℤ)) (residual : Network α) : Prop where
  edge : ∀ u v value, (u, v, value) ∈ edges → residual.cell? u v = some value
  entry : ∀ u v value, residual.cell? u v = some value →
    (u, v, value) ∈ edges ∨ (value = 0 ∧ (v, u) ∈ edges.map fun e => (e.1, e.2.1))

/-- An edge whose way back is there is only stored. -/
theorem addResidual_of_some {residual : Network α} {u v : α} {value back : ℤ}
    (h : (residual.setEntry u v value).cell? v u = some back) :
    addResidual u residual (v, value) = residual.setEntry u v value := by
  rw [addResidual]
  dsimp only
  rw [h]

/-- An edge whose way back is missing is stored with a way back that lets nothing through. -/
theorem addResidual_of_none {residual : Network α} {u v : α} {value : ℤ}
    (h : (residual.setEntry u v value).cell? v u = none) :
    addResidual u residual (v, value) = (residual.setEntry u v value).setEntry v u 0 := by
  rw [addResidual]
  dsimp only
  rw [h]

/-- Adding one more edge. -/
theorem ResidualFor.add {edges : List (α × α × ℤ)} {residual : Network α}
    (h : ResidualFor edges residual) {u v : α} {value : ℤ}
    (hnew : (u, v) ∉ edges.map fun e => (e.1, e.2.1)) :
    ResidualFor (edges ++ [(u, v, value)]) (addResidual u residual (v, value)) := by
  -- the forward entry is stored first; the reverse one is only added where it is missing
  let stored := residual.setEntry u v value
  have hstored : ∀ a b, stored.cell? a b =
      if a = u ∧ b = v then some value else residual.cell? a b :=
    Dict.cell?_setEntry residual u v value
  have hadded : ∀ a b, (addResidual u residual (v, value)).cell? a b =
      if a = u ∧ b = v then some value
      else if a = v ∧ b = u then some ((residual.cell? v u).getD 0) else residual.cell? a b := by
    intro a b
    cases hback : stored.cell? v u with
    | some back =>
        rw [addResidual_of_some hback, hstored]
        split_ifs with hthere hthat
        · rfl
        · obtain ⟨rfl, rfl⟩ := hthat
          rw [hstored, if_neg hthere] at hback
          rw [hback]
          rfl
        · rfl
    | none =>
        -- a self loop is its own reverse entry, so that entry cannot be missing
        have hloop : ¬(v = u ∧ u = v) := fun hloop => by
          rw [hstored, if_pos hloop] at hback
          cases hback
        have hnone : residual.cell? v u = none := by
          rwa [hstored, if_neg hloop] at hback
        rw [addResidual_of_none hback, Dict.cell?_setEntry, hstored, hnone]
        split_ifs with hthat hthere
        · exact absurd ⟨hthat.1.symm.trans hthere.1, hthat.2.symm.trans hthere.2⟩ hloop
        · rfl
        · rfl
        · rfl
  constructor
  · intro a b x hx
    rw [hadded]
    rcases List.mem_append.mp hx with hmem | hx
    · have hold := h.edge a b x hmem
      have hne : ¬(a = u ∧ b = v) := by
        rintro ⟨rfl, rfl⟩
        exact hnew (List.mem_map.mpr ⟨(a, b, x), hmem, rfl⟩)
      rw [if_neg hne]
      split
      · rename_i hthat
        obtain ⟨rfl, rfl⟩ := hthat
        rw [hold]
        rfl
      · exact hold
    · obtain ⟨rfl, rfl, rfl⟩ : a = u ∧ b = v ∧ x = value := by simpa using hx
      rw [if_pos ⟨rfl, rfl⟩]
  · intro a b x hx
    rw [hadded] at hx
    rw [List.map_append, List.mem_append, List.mem_append]
    split_ifs at hx with hthere hthat
    · obtain ⟨rfl, rfl⟩ := hthere
      rw [← Option.some.inj hx]
      exact Or.inl (Or.inr (by simp))
    · obtain ⟨rfl, rfl⟩ := hthat
      cases hentry : residual.cell? a b with
      | none =>
          rw [hentry] at hx
          exact Or.inr ⟨(Option.some.inj hx).symm, Or.inr (by simp)⟩
      | some y =>
          rw [hentry] at hx
          obtain rfl : y = x := Option.some.inj hx
          exact (h.entry a b y hentry).imp Or.inl fun hother => ⟨hother.1, Or.inl hother.2⟩
    · exact (h.entry a b x hx).imp Or.inl fun hother => ⟨hother.1, Or.inl hother.2⟩

/-- At the start everything is left. -/
theorem residualFor_residualOf (capacity : Network α) :
    ResidualFor (networkEdges capacity) (residualOf capacity) := by
  have hfold : residualOf capacity =
      (networkEdges capacity).foldl (fun residual e => addResidual e.1 residual e.2) .empty := by
    rw [networkEdges, List.foldl_flatMap, residualOf]
    simp only [List.foldl_map]
  rw [hfold]
  have hnodup := nodup_networkEdges capacity
  clear hfold
  generalize networkEdges capacity = edges at hnodup ⊢
  induction edges using List.reverseRecOn with
  | nil => exact ⟨by simp, by simp [Dict.cell?, Dict.row]⟩
  | append_singleton edges e ih =>
      obtain ⟨u, v, value⟩ := e
      rw [List.map_append, List.nodup_append] at hnodup
      rw [List.foldl_concat]
      refine (ih hnodup.1).add fun hmem => ?_
      exact hnodup.2.2 (u, v) hmem (u, v) (by simp) rfl

/-- At the start what is left is the capacity. -/
theorem amount_residualOf (capacity : Network α) (u v : α) :
    (residualOf capacity).amount u v = capacity.amount u v := by
  have hresidual := residualFor_residualOf capacity
  rw [Dict.amount, Dict.amount]
  cases hentry : capacity.cell? u v with
  | some value => rw [hresidual.edge u v value (mem_networkEdges.mpr hentry)]
  | none =>
      cases hresidualEntry : (residualOf capacity).cell? u v with
      | none => rfl
      | some value =>
          rcases hresidual.entry u v value hresidualEntry with hmem | ⟨hzero, -⟩
          · rw [mem_networkEdges.mp hmem] at hentry
            cases hentry
          · exact hzero

theorem mem_networkNodes {capacity : Network α} {u v : α} {value : ℤ}
    (h : capacity.cell? u v = some value) :
    u ∈ networkNodes capacity ∧ v ∈ networkNodes capacity := by
  have hedge := mem_networkEdges.mpr h
  rw [networkNodes, List.mem_toFinset, List.mem_toFinset, List.mem_flatMap, List.mem_flatMap]
  exact ⟨⟨_, hedge, by simp⟩, ⟨_, hedge, by simp⟩⟩

/-- With distinct ends, `_max_flow` returns the largest number of paths that together respect the
capacities. -/
theorem maxFlow_spec {capacity : Network α} (hcapacity : ∀ u v, 0 ≤ capacity.amount u v)
    {source sink : α} (hne : source ≠ sink) : ∀ᶠ fuel in Filter.atTop,
    ∃ n : ℕ, maxFlow fuel capacity source sink = some (n : ℤ) ∧
      IsGreatest {n : ℕ | ∃ paths, paths.length = n ∧
        Flow.Respects (fun u v => capacity.amount u v) source sink paths} n := by
  let U : Finset α := insert source (networkNodes capacity)
  let c (u v : α) : ℤ := capacity.amount u v
  have hsource : source ∈ U := Finset.mem_insert_self _ _
  have hsupport : ∀ u v, v ∉ U → c u v = 0 := by
    intro u v hv
    cases hentry : capacity.cell? u v with
    | none => simp [c, Dict.amount, hentry]
    | some value => exact absurd (Finset.mem_insert_of_mem (mem_networkNodes hentry).2) hv
  -- no more flows than the edges out of the source let through
  let limit : ℤ := ∑ v ∈ U \ {source}, c source v
  have hlimit : ∀ {state : Network α × ℤ}, Augmented U c source sink state → state.2 ≤ limit := by
    intro state hstate
    have hvalue := hstate.flow.value_eq_cut (R := {source}) (by simpa using hsource)
      (Finset.mem_singleton_self source) (fun hmem => hne (Finset.mem_singleton.mp hmem).symm)
    rw [Finset.sum_singleton] at hvalue
    rw [hvalue]
    exact Finset.sum_le_sum fun v _ => hstate.flow.le source v
  have hstart : Augmented U c source sink (residualOf capacity, 0) := by
    refine ⟨⟨fun u v => ?_, fun u v => ?_, fun u _ _ _ => ?_, ?_⟩, fun u v huv => ?_⟩
    · simp [c, amount_residualOf]
    · simpa [c, amount_residualOf] using hcapacity u v
    · simp [c, amount_residualOf]
    · simp [c, amount_residualOf]
    · obtain ⟨value, hvalue⟩ := Option.isSome_iff_exists.mp huv
      rcases (residualFor_residualOf capacity).entry u v value hvalue with hmem | ⟨-, hmem⟩
      · obtain ⟨hu, hv⟩ := mem_networkNodes (mem_networkEdges.mp hmem)
        exact ⟨Finset.mem_insert_of_mem hu, Finset.mem_insert_of_mem hv⟩
      · obtain ⟨⟨a, b, x⟩, he, heq⟩ := List.mem_map.mp hmem
        obtain ⟨rfl, rfl⟩ := Prod.mk.inj heq
        obtain ⟨hv, hu⟩ := mem_networkNodes (mem_networkEdges.mp he)
        exact ⟨Finset.mem_insert_of_mem hu, Finset.mem_insert_of_mem hv⟩
  refine ((Filter.eventually_gt_atTop (U.card + 1)).and
    (Filter.eventually_gt_atTop (limit - 0).toNat)).mono fun fuel hlarge => ?_
  obtain ⟨hfuel, hrounds⟩ := hlarge
  obtain ⟨total, htotal, state, hstate, rfl, hpos, hcut⟩ : ∃ total,
      maxFlow fuel capacity source sink = some total ∧
      ∃ state : Network α × ℤ, Augmented U c source sink state ∧ state.2 = total ∧ 0 ≤ total ∧
        ∃ R ⊆ U, source ∈ R ∧ sink ∉ R ∧
          ∀ u ∈ R, ∀ v ∈ U \ R, c u v - state.1.amount u v = c u v := by
    refine Loop.run_of_measure (fun state => Augmented U c source sink state ∧ 0 ≤ state.2) _
      (fun state => (limit - state.2).toNat) ?_ ⟨hstart, le_refl _⟩ hrounds
    rintro state ⟨hstate, hpos⟩
    rcases flowStep_spec hne hsource hfuel hstate with
      ⟨hdone, hcut⟩ | ⟨state', hstep, hstate', hlt⟩
    · exact Or.inl ⟨state.2, hdone, state, hstate, rfl, hpos, hcut⟩
    · have hle := hlimit hstate'
      exact Or.inr ⟨state', hstep, ⟨hstate', by omega⟩, by omega⟩
  obtain ⟨R, hR, hs, ht, hfull⟩ := hcut
  obtain ⟨n, hn⟩ := Int.eq_ofNat_of_zero_le hpos
  refine ⟨n, by rw [htotal, hn], ?_⟩
  have hflow := hstate.flow
  rw [hn] at hflow
  exact hflow.isGreatest hcapacity hsupport hR hs ht hfull

end Netlab
