import Mathlib.Data.Set.Basic
import Mathlib.Data.Sym.Sym2
import Mathlib.Logic.Relation

/-!
# Depth-first forests and low points

A depth-first search of an undirected graph numbers the nodes as it discovers them and leaves a
forest, in which one end of every edge is above the other. The low point of a node is the least
number that edges from below the node lead to, the edge to its parent apart. With low points one
sees which nodes the graph falls apart without (`separates_iff`), and which edges (`cutsOff_iff`).
-/

open Relation

variable {α : Type*} {r : α → α → Prop} {v : α}

/-! ## Falling apart -/

/-- Where every edge leads back, so does every walk. -/
theorem reflTransGen_symm (hsymm : ∀ a b, r a b → r b a) {a b : α} (h : ReflTransGen r a b) :
    ReflTransGen r b a := by
  induction h with
  | refl => exact .refl
  | tail _ hstep ih => exact ih.head (hsymm _ _ hstep)

/-- The edges that are left without a node. -/
def Without (r : α → α → Prop) (v a b : α) : Prop := r a b ∧ a ≠ v ∧ b ≠ v

theorem without_symm (hsymm : ∀ a b, r a b → r b a) (v : α) {a b : α}
    (h : ReflTransGen (Without r v) a b) : ReflTransGen (Without r v) b a :=
  reflTransGen_symm (fun _ _ hstep => ⟨hsymm _ _ hstep.1, hstep.2.2, hstep.2.1⟩) h

/-- A node that holds two other nodes together. -/
def Separates (r : α → α → Prop) (v : α) : Prop :=
  ∃ a b, a ≠ v ∧ b ≠ v ∧ ReflTransGen r a b ∧ ¬ReflTransGen (Without r v) a b

/-- If one can leave a set of nodes through one node only, that node separates them from
the others. -/
theorem separates_of_closed {s : Set α} (hclosed : ∀ a ∈ s, ∀ b, r a b → b ≠ v → b ∈ s) {a b : α}
    (ha : a ∈ s) (hb : b ∉ s) (hav : a ≠ v) (hbv : b ≠ v) (hab : ReflTransGen r a b) :
    Separates r v := by
  refine ⟨a, b, hav, hbv, hab, fun h => hb ?_⟩
  clear hb hbv hab
  induction h with
  | refl => exact ha
  | tail _ hstep ih => exact hclosed _ ih _ hstep.1 hstep.2.2

/-- If all nodes next to a node hold together without it, it separates nothing. -/
theorem not_separates (hsymm : ∀ a b, r a b → r b a) {p : α}
    (h : ∀ w, r v w → w ≠ v → ReflTransGen (Without r v) w p) : ¬Separates r v := by
  rintro ⟨a, b, hav, hbv, hab, hnot⟩
  -- a walk that comes to the node goes on from some node next to it
  have hwalk : (b = v → ReflTransGen (Without r v) a p) ∧
      (b ≠ v → ReflTransGen (Without r v) a b) := by
    clear hnot hbv
    induction hab with
    | refl => exact ⟨fun heq => absurd heq hav, fun _ => .refl⟩
    | @tail b c _ hbc ih =>
        by_cases hb : b = v
        · refine ⟨fun _ => ih.1 hb, fun hc => (ih.1 hb).trans (without_symm hsymm v (h c (hb ▸ hbc) hc))⟩
        · refine ⟨fun hc => (ih.2 hb).trans (h b (hsymm _ _ (hc ▸ hbc)) hb), fun hc => ?_⟩
          exact (ih.2 hb).tail ⟨hbc, hb, hc⟩
  exact hnot (hwalk.2 hbv)

/-- An edge that holds its ends together. -/
def CutsOff (r : α → α → Prop) (x y : α) : Prop :=
  ¬ReflTransGen (fun a b => r a b ∧ s(a, b) ≠ s(x, y)) x y

theorem cutsOff_symm (hsymm : ∀ a b, r a b → r b a) {e : Sym2 α} {a b : α}
    (h : ReflTransGen (fun a b => r a b ∧ s(a, b) ≠ e) a b) :
    ReflTransGen (fun a b => r a b ∧ s(a, b) ≠ e) b a :=
  reflTransGen_symm (fun _ _ hstep => ⟨hsymm _ _ hstep.1, by rw [Sym2.eq_swap]; exact hstep.2⟩) h

/-! ## Forests -/

/-- The node that another node was found from. -/
def FoundFrom (nodes : Set α) (parent : α → Option α) (c p : α) : Prop :=
  c ∈ nodes ∧ parent c = some p

/-- What a depth-first search leaves: the nodes it has discovered, where it found them, their
numbers, and their low points. -/
structure DepthFirst (r : α → α → Prop) (nodes : Set α) (parent : α → Option α)
    (number low : α → ℕ) : Prop where
  symm : ∀ a b, r a b → r b a
  mem : ∀ a b, r a b → a ∈ nodes
  inj : ∀ a ∈ nodes, ∀ b ∈ nodes, number a = number b → a = b
  bounded : ∃ bound, ∀ a ∈ nodes, number a ≤ bound
  parent_rel : ∀ c p, FoundFrom nodes parent c p → p ∈ nodes ∧ r p c ∧ number p < number c
  below : ∀ a b, r a b → number a < number b → ReflTransGen (FoundFrom nodes parent) b a
  low_self : ∀ c ∈ nodes, low c ≤ number c
  low_child : ∀ c d, FoundFrom nodes parent d c → low c ≤ low d
  low_back : ∀ c w, r c w → parent c ≠ some w → low c ≤ number w
  low_attained : ∀ c ∈ nodes, low c = number c ∨
    (∃ d, FoundFrom nodes parent d c ∧ low c = low d) ∨
      ∃ w, r c w ∧ parent c ≠ some w ∧ low c = number w

namespace DepthFirst

variable {nodes : Set α} {parent : α → Option α} {number low : α → ℕ} {a b c p u w x y : α}

/-- A node has a larger number than those above it. -/
theorem eq_or_number_lt (h : DepthFirst r nodes parent number low)
    (hab : ReflTransGen (FoundFrom nodes parent) a b) : a = b ∨ number b < number a := by
  induction hab with
  | refl => exact Or.inl rfl
  | tail _ hstep ih =>
      have hlt := (h.parent_rel _ _ hstep).2.2
      rcases ih with rfl | ih
      · exact Or.inr hlt
      · exact Or.inr (hlt.trans ih)

theorem number_le (h : DepthFirst r nodes parent number low)
    (hab : ReflTransGen (FoundFrom nodes parent) a b) : number b ≤ number a := by
  rcases h.eq_or_number_lt hab with rfl | hlt
  · exact le_rfl
  · exact hlt.le

/-- Of two nodes above a node one is above the other. -/
theorem below_total (hua : ReflTransGen (FoundFrom nodes parent) u a)
    (hub : ReflTransGen (FoundFrom nodes parent) u b) :
    ReflTransGen (FoundFrom nodes parent) a b ∨ ReflTransGen (FoundFrom nodes parent) b a :=
  ReflTransGen.total_of_right_unique
    (fun _ _ _ hb hc => Option.some.inj (hb.2.symm.trans hc.2)) hua hub

/-- One end of an edge is above the other. -/
theorem below_or_below (h : DepthFirst r nodes parent number low) (huw : r u w) :
    ReflTransGen (FoundFrom nodes parent) u w ∨ ReflTransGen (FoundFrom nodes parent) w u := by
  rcases lt_trichotomy (number u) (number w) with hlt | heq | hlt
  · exact Or.inr (h.below u w huw hlt)
  · obtain rfl := h.inj u (h.mem u w huw) w (h.mem w u (h.symm u w huw)) heq
    exact Or.inl .refl
  · exact Or.inl (h.below w u (h.symm u w huw) hlt)

/-- An edge from below a node stays below it or leads to a node above it. -/
theorem below_or_above (h : DepthFirst r nodes parent number low)
    (huc : ReflTransGen (FoundFrom nodes parent) u c) (huw : r u w) :
    ReflTransGen (FoundFrom nodes parent) w c ∨
      ∃ p, FoundFrom nodes parent c p ∧ ReflTransGen (FoundFrom nodes parent) p w := by
  rcases h.below_or_below huw with huw | hwu
  · rcases below_total huc huw with hcw | hwc
    · rcases ReflTransGen.cases_head hcw with rfl | hup
      · exact Or.inl .refl
      · exact Or.inr hup
    · exact Or.inl hwc
  · exact Or.inl (hwu.trans huc)

/-- What is below a node hangs together below it. -/
theorem connected_below (h : DepthFirst r nodes parent number low)
    (huc : ReflTransGen (FoundFrom nodes parent) u c) :
    ReflTransGen (fun a b => r a b ∧ ReflTransGen (FoundFrom nodes parent) a c ∧
      ReflTransGen (FoundFrom nodes parent) b c) c u := by
  induction huc using ReflTransGen.head_induction_on with
  | refl => exact .refl
  | head hstep hbelow ih =>
      exact ih.tail ⟨(h.parent_rel _ _ hstep).2.1, hbelow, hbelow.head hstep⟩

/-- What is above a node hangs together with it, above it. -/
theorem connected_above (h : DepthFirst r nodes parent number low)
    (hxw : ReflTransGen (FoundFrom nodes parent) x w) :
    ReflTransGen (fun a b => r a b ∧ number a ≤ number x ∧ number b ≤ number x) w x := by
  induction hxw with
  | refl => exact .refl
  | tail hbelow hstep ih =>
      obtain ⟨-, hadj, hlt⟩ := h.parent_rel _ _ hstep
      have hle := h.number_le hbelow
      exact ih.head ⟨hadj, hlt.le.trans hle, hle⟩

/-! ## Low points -/

theorem low_le_low (h : DepthFirst r nodes parent number low)
    (huc : ReflTransGen (FoundFrom nodes parent) u c) : low c ≤ low u := by
  induction huc with
  | refl => exact le_rfl
  | tail _ hstep ih => exact (h.low_child _ _ hstep).trans ih

/-- No edge from below a node, the one to its parent apart, leads to a number below its
low point. -/
theorem low_le (h : DepthFirst r nodes parent number low)
    (huc : ReflTransGen (FoundFrom nodes parent) u c) (huw : r u w)
    (hne : ¬(u = c ∧ parent c = some w)) : low c ≤ number w := by
  by_cases hparent : parent u = some w
  · -- the edge leads to the parent of a node further below
    rcases ReflTransGen.cases_head huc with rfl | ⟨q, hstep, hqc⟩
    · exact absurd ⟨rfl, hparent⟩ hne
    · obtain rfl : q = w := Option.some.inj (hstep.2.symm.trans hparent)
      exact (h.low_le_low hqc).trans (h.low_self q (h.parent_rel _ _ hstep).1)
  · exact (h.low_le_low huc).trans (h.low_back u w huw hparent)

/-- Where the low point is below the number, an edge leads there. -/
theorem exists_low (h : DepthFirst r nodes parent number low) (hc : c ∈ nodes)
    (hlow : low c < number c) : ∃ u w, ReflTransGen (FoundFrom nodes parent) u c ∧ r u w ∧
      ¬(u = c ∧ parent c = some w) ∧ low c = number w := by
  obtain ⟨bound, hbound⟩ := h.bounded
  -- induction on how many numbers are left for what is below the node
  induction hleft : bound - number c using Nat.strong_induction_on generalizing c with
  | _ left ih =>
      rcases h.low_attained c hc with hself | ⟨d, hd, heq⟩ | ⟨w, hcw, hback, heq⟩
      · omega
      · have hlt := (h.parent_rel d c hd).2.2
        have hle := hbound d hd.1
        obtain ⟨u, w, hud, huw, -, hlowd⟩ := ih (bound - number d) (by omega) hd.1 (by omega) rfl
        refine ⟨u, w, hud.tail hd, huw, ?_, heq.trans hlowd⟩
        rintro ⟨rfl, -⟩
        exact absurd (h.number_le hud) (not_le.mpr hlt)
      · exact ⟨c, w, .refl, hcw, fun hroot => hback hroot.2, heq⟩

/-! ## Cut nodes -/

/-- Below a child with a high low point, edges lead nowhere else but to its parent. -/
theorem below_of_le_low (h : DepthFirst r nodes parent number low) (hcv : FoundFrom nodes parent c v)
    (hlow : number v ≤ low c) (huc : ReflTransGen (FoundFrom nodes parent) u c) (huw : r u w)
    (hne : w ≠ v) : ReflTransGen (FoundFrom nodes parent) w c := by
  refine (h.below_or_above huc huw).resolve_right ?_
  rintro ⟨p, hcp, hpw⟩
  obtain rfl : p = v := Option.some.inj (hcp.2.symm.trans hcv.2)
  have hle := h.low_le huc huw fun hroot => hne (Option.some.inj (hroot.2.symm.trans hcv.2))
  rcases h.eq_or_number_lt hpw with heq | hlt
  · exact hne heq.symm
  · omega

/-- A child, without its parent, is connected to what is below it. -/
theorem without_of_below (h : DepthFirst r nodes parent number low)
    (hcv : FoundFrom nodes parent c v) (huc : ReflTransGen (FoundFrom nodes parent) u c) :
    ReflTransGen (Without r v) c u := by
  have hlt := (h.parent_rel c v hcv).2.2
  have hne : ∀ {a}, ReflTransGen (FoundFrom nodes parent) a c → a ≠ v := by
    rintro a hac rfl
    exact absurd (h.number_le hac) (not_le.mpr hlt)
  exact ReflTransGen.mono (fun a b hab => ⟨hab.1, hne hab.2.1, hne hab.2.2⟩) _ _
    (h.connected_below huc)

/-- What is next to a node is above it, or below one of its children. -/
theorem above_or_below_child (h : DepthFirst r nodes parent number low) (hvw : r v w)
    (hne : w ≠ v) : (∃ p, FoundFrom nodes parent v p ∧ ReflTransGen (FoundFrom nodes parent) p w) ∨
      ∃ c, FoundFrom nodes parent c v ∧ ReflTransGen (FoundFrom nodes parent) w c := by
  rcases h.below_or_below hvw with hup | hdown
  · rcases ReflTransGen.cases_head hup with heq | hup
    · exact absurd heq.symm hne
    · exact Or.inl hup
  · rcases ReflTransGen.cases_tail hdown with heq | ⟨c, hwc, hcv⟩
    · exact absurd heq.symm hne
    · exact Or.inr ⟨c, hcv, hwc⟩

/-- A root is a cut node exactly if it has two children. -/
theorem separates_root_iff (h : DepthFirst r nodes parent number low) (hroot : parent v = none) :
    Separates r v ↔ ∃ c d, FoundFrom nodes parent c v ∧ FoundFrom nodes parent d v ∧
      number d < number c := by
  constructor
  · intro hseparates
    by_contra hnone
    -- with one child at most, every neighbour of the root is reached from it without the root
    have hone : ∀ c d, FoundFrom nodes parent c v → FoundFrom nodes parent d v → c = d := by
      intro c d hc hd
      rcases lt_trichotomy (number c) (number d) with hlt | heq | hlt
      · exact absurd ⟨d, c, hd, hc, hlt⟩ hnone
      · exact h.inj c hc.1 d hd.1 heq
      · exact absurd ⟨c, d, hc, hd, hlt⟩ hnone
    by_cases hchild : ∃ c, FoundFrom nodes parent c v
    · obtain ⟨c, hc⟩ := hchild
      refine not_separates h.symm (p := c) (fun w hvw hne => ?_) hseparates
      rcases h.above_or_below_child hvw hne with ⟨p, hp, -⟩ | ⟨d, hd, hwd⟩
      · exact absurd (hroot.symm.trans hp.2) (by simp)
      · obtain rfl := hone c d hc hd
        exact without_symm h.symm v (h.without_of_below hc hwd)
    · refine not_separates h.symm (p := v) (fun w hvw hne => ?_) hseparates
      rcases h.above_or_below_child hvw hne with ⟨p, hp, -⟩ | ⟨d, hd, -⟩
      · exact absurd (hroot.symm.trans hp.2) (by simp)
      · exact absurd ⟨d, hd⟩ hchild
  · -- what is below the first child has no edge to the rest but through the root
    rintro ⟨c, d, hc, hd, hlt⟩
    obtain ⟨-, hvc, hvcLt⟩ := h.parent_rel c v hc
    obtain ⟨-, hvd, hvdLt⟩ := h.parent_rel d v hd
    refine separates_of_closed (s := {u | ReflTransGen (FoundFrom nodes parent) u c})
      (fun u hu w huw hne => ?_) .refl (b := d) (fun hdc => ?_) (by rintro rfl; omega)
      (by rintro rfl; omega) ((ReflTransGen.single (h.symm _ _ hvc)).tail hvd)
    · refine (h.below_or_above hu huw).resolve_right ?_
      rintro ⟨p, hcp, hpw⟩
      obtain rfl : p = v := Option.some.inj (hcp.2.symm.trans hc.2)
      rcases ReflTransGen.cases_head hpw with heq | ⟨q, hq, -⟩
      · exact hne heq.symm
      · exact absurd (hroot.symm.trans hq.2) (by simp)
    · exact absurd (h.number_le hdc) (not_le.mpr hlt)

/-- A node with a parent is a cut node exactly if one of its children has no lower low point than
its own number. -/
theorem separates_inner_iff (h : DepthFirst r nodes parent number low)
    (hvp : FoundFrom nodes parent v p) :
    Separates r v ↔ ∃ c, FoundFrom nodes parent c v ∧ number v ≤ low c := by
  obtain ⟨-, hpv, hpvLt⟩ := h.parent_rel v p hvp
  -- the nodes above are connected to the parent
  have habove : ∀ {w}, ReflTransGen (FoundFrom nodes parent) p w →
      ReflTransGen (Without r v) w p := by
    intro w hpw
    refine ReflTransGen.mono (fun a b hab => ⟨hab.1, ?_, ?_⟩) _ _ (h.connected_above hpw)
    · rintro rfl
      omega
    · rintro rfl
      omega
  constructor
  · intro hseparates
    by_contra hnone
    have hall : ∀ c, FoundFrom nodes parent c v → low c < number v := fun c hc => by
      by_contra hle
      exact hnone ⟨c, hc, not_lt.mp hle⟩
    refine not_separates h.symm (p := p) (fun w hvw hne => ?_) hseparates
    rcases h.above_or_below_child hvw hne with ⟨q, hq, hqw⟩ | ⟨c, hc, hwc⟩
    · obtain rfl : q = p := Option.some.inj (hq.2.symm.trans hvp.2)
      exact habove hqw
    · -- below a child some edge leads above the node
      obtain ⟨-, -, hvcLt⟩ := h.parent_rel c v hc
      obtain ⟨u, x, huc, hux, -, heq⟩ := h.exists_low hc.1 ((hall c hc).trans hvcLt)
      have hxv : number x < number v := heq ▸ hall c hc
      have hux' : ReflTransGen (FoundFrom nodes parent) u x := by
        refine (h.below_or_below hux).resolve_right fun hxu => ?_
        have := h.number_le hxu
        have := h.number_le huc
        omega
      have hvx : ∃ q, FoundFrom nodes parent v q ∧ ReflTransGen (FoundFrom nodes parent) q x := by
        rcases below_total (huc.tail hc) hux' with hvx | hxv'
        · rcases ReflTransGen.cases_head hvx with rfl | hup
          · omega
          · exact hup
        · exact absurd (h.number_le hxv') (not_le.mpr hxv)
      obtain ⟨q, hq, hqx⟩ := hvx
      obtain rfl : q = p := Option.some.inj (hq.2.symm.trans hvp.2)
      have hwc' := without_symm h.symm v (h.without_of_below hc hwc)
      refine (hwc'.trans (h.without_of_below hc huc)).trans (.head ⟨hux, ?_, ?_⟩ (habove hqx))
      · rintro rfl
        have := h.number_le huc
        omega
      · rintro rfl
        omega
  · rintro ⟨c, hc, hlow⟩
    obtain ⟨-, hvc, hvcLt⟩ := h.parent_rel c v hc
    refine separates_of_closed (s := {u | ReflTransGen (FoundFrom nodes parent) u c})
      (fun u hu w huw hne => h.below_of_le_low hc hlow hu huw hne) .refl (b := p) (fun hpc => ?_)
      (by rintro rfl; omega) (by rintro rfl; omega)
      ((ReflTransGen.single (h.symm _ _ hvc)).tail (h.symm _ _ hpv))
    have := h.number_le hpc
    omega

/-- A node is a cut node exactly if it is a root with two children, or has a child with no lower low
point than its own number. -/
theorem separates_iff (h : DepthFirst r nodes parent number low) (hv : v ∈ nodes) :
    Separates r v ↔ ∃ c, FoundFrom nodes parent c v ∧
      ((parent v = none ∧ ∃ d, FoundFrom nodes parent d v ∧ number d < number c) ∨
        (parent v ≠ none ∧ number v ≤ low c)) := by
  cases hparent : parent v with
  | none => simp [h.separates_root_iff hparent]
  | some p => simp [h.separates_inner_iff ⟨hv, hparent⟩]

/-! ## Bridges -/

/-- Below a child whose low point is above its parent's number, edges stay there, but for the one to
the parent. -/
theorem below_of_lt_low (h : DepthFirst r nodes parent number low)
    (hcp : FoundFrom nodes parent c p) (hlow : number p < low c)
    (huc : ReflTransGen (FoundFrom nodes parent) u c) (huw : r u w) (hne : s(u, w) ≠ s(p, c)) :
    ReflTransGen (FoundFrom nodes parent) w c := by
  refine (h.below_or_above huc huw).resolve_right ?_
  rintro ⟨q, hq, hqw⟩
  obtain rfl : q = p := Option.some.inj (hq.2.symm.trans hcp.2)
  have hle := h.low_le huc huw fun hroot => hne (by
    rw [hroot.1, Option.some.inj (hroot.2.symm.trans hcp.2), Sym2.eq_swap])
  have := h.number_le hqw
  omega

/-- An edge is a bridge exactly if it leads to a child whose low point is above its
parent's number. -/
theorem cutsOff_iff_of_lt (h : DepthFirst r nodes parent number low) (hxy : r x y)
    (hlt : number x < number y) : CutsOff r x y ↔ FoundFrom nodes parent y x ∧ number x < low y := by
  have hyx := h.below x y hxy hlt
  constructor
  · intro hcut
    -- below what `x` was not found from, no edge has `x` as an end
    have hbelow : ∀ {c u}, FoundFrom nodes parent c x → ReflTransGen (FoundFrom nodes parent) u c →
        ReflTransGen (fun a b => r a b ∧ s(a, b) ≠ s(x, y)) c u := by
      intro c u hc huc
      have hcx := (h.parent_rel c x hc).2.2
      refine ReflTransGen.mono (fun a b hab => ⟨hab.1, fun heq => ?_⟩) _ _ (h.connected_below huc)
      have ha := h.number_le hab.2.1
      have hb := h.number_le hab.2.2
      rcases Sym2.eq_iff.mp heq with ⟨rfl, -⟩ | ⟨-, rfl⟩ <;> omega
    rcases ReflTransGen.cases_tail hyx with heq | ⟨c, hyc, hcx⟩
    · rw [heq] at hlt
      omega
    · obtain ⟨-, hxc, hcxLt⟩ := h.parent_rel c x hcx
      by_cases hc : c = y
      · obtain rfl := hc
        refine ⟨hcx, ?_⟩
        by_contra hle
        -- some other edge leads from below the child to its parent or above
        obtain ⟨u, w, huc, huw, hne, heq⟩ := h.exists_low hcx.1 (by omega)
        have hwx : number w ≤ number x := by omega
        have huw' : ReflTransGen (FoundFrom nodes parent) u w := by
          refine (h.below_or_below huw).resolve_right fun hwu => ?_
          have := h.number_le hwu
          have := h.number_le huc
          omega
        have hxw : ReflTransGen (FoundFrom nodes parent) x w := by
          rcases below_total (huc.tail hcx) huw' with hxw | hwx'
          · exact hxw
          · rcases h.eq_or_number_lt hwx' with rfl | hlt'
            · exact .refl
            · omega
        have hedge : s(u, w) ≠ s(x, c) := by
          intro hsame
          rcases Sym2.eq_iff.mp hsame with ⟨rfl, rfl⟩ | ⟨rfl, rfl⟩
          · omega
          · exact hne ⟨rfl, hcx.2⟩
        have habove : ReflTransGen (fun a b => r a b ∧ s(a, b) ≠ s(x, c)) w x := by
          refine ReflTransGen.mono (fun a b hab => ⟨hab.1, fun hsame => ?_⟩) _ _
            (h.connected_above hxw)
          rcases Sym2.eq_iff.mp hsame with ⟨-, rfl⟩ | ⟨rfl, -⟩ <;> omega
        exact hcut (cutsOff_symm h.symm (((hbelow hcx huc).tail ⟨huw, hedge⟩).trans habove))
      · refine absurd ((hbelow hcx hyc).head ⟨hxc, fun hsame => ?_⟩) hcut
        rcases Sym2.eq_iff.mp hsame with ⟨-, heq⟩ | ⟨heq, -⟩
        · exact hc heq
        · rw [heq] at hlt
          omega
  · rintro ⟨hyx', hlow⟩ hwalk
    have hstay : ∀ b, ReflTransGen (fun a b => r a b ∧ s(a, b) ≠ s(x, y)) y b →
        ReflTransGen (FoundFrom nodes parent) b y := by
      intro b hyb
      induction hyb with
      | refl => exact .refl
      | tail _ hstep ih => exact h.below_of_lt_low hyx' hlow ih hstep.1 hstep.2
    exact absurd (h.number_le (hstay x (cutsOff_symm h.symm hwalk))) (not_le.mpr hlt)

/-- An edge between two nodes is a bridge exactly if one of them was found from the other, and its
low point is above the other's number. -/
theorem cutsOff_iff (h : DepthFirst r nodes parent number low) (hxy : r x y) (hne : x ≠ y) :
    CutsOff r x y ↔ ∃ p c, FoundFrom nodes parent c p ∧ number p < low c ∧ s(p, c) = s(x, y) := by
  have hflip : CutsOff r x y ↔ CutsOff r y x := by
    rw [CutsOff, CutsOff, Sym2.eq_swap (a := y)]
    exact not_congr ⟨cutsOff_symm h.symm, cutsOff_symm h.symm⟩
  rcases lt_trichotomy (number x) (number y) with hlt | heq | hlt
  · rw [h.cutsOff_iff_of_lt hxy hlt]
    constructor
    · exact fun ⟨hfound, hlow⟩ => ⟨x, y, hfound, hlow, rfl⟩
    · rintro ⟨p, c, hfound, hlow, heq⟩
      have hpc := (h.parent_rel c p hfound).2.2
      rcases Sym2.eq_iff.mp heq with ⟨rfl, rfl⟩ | ⟨rfl, rfl⟩
      · exact ⟨hfound, hlow⟩
      · omega
  · exact absurd (h.inj x (h.mem x y hxy) y (h.mem y x (h.symm x y hxy)) heq) hne
  · rw [hflip, h.cutsOff_iff_of_lt (h.symm x y hxy) hlt]
    constructor
    · exact fun ⟨hfound, hlow⟩ => ⟨y, x, hfound, hlow, Sym2.eq_swap⟩
    · rintro ⟨p, c, hfound, hlow, heq⟩
      have hpc := (h.parent_rel c p hfound).2.2
      rcases Sym2.eq_iff.mp heq with ⟨rfl, rfl⟩ | ⟨rfl, rfl⟩
      · omega
      · exact ⟨hfound, hlow⟩

end DepthFirst
