import Netlab.Prelude.BestFirst
import Netlab.Prelude.Float
import Netlab.Prelude.Traverse
import Mathlib.Data.List.ReduceOption
import Mathlib.Data.String.Basic

/-!
# What the routing plugins read

The plugins `maximum_bottleneck_routing` and `latency_aware_routing` read the same records of links
and search over those that are feasible. They differ in the weight of a link, and in what they do
with it. Their heaps hold pairs of a number and the text of a node.
-/

namespace Netlab.Routing

open BestFirst

variable {F : Type}

/-! ## Records -/

section

variable [PyText F]

/-- `str(context.get("source", "station"))`. -/
def source (context : Dict String (Json F)) : String := context.getText "source" "station"

/-- `str(context.get("destination", ""))`. -/
def destination (context : Dict String (Json F)) : String := context.getText "destination" ""

/-- `float(context.get("parameters", {}).get(name, default))`. -/
def parameter? [PyFloat F] (context : Dict String (Json F)) (name : String) (default : F) :
    Option F := do
  let parameters ← (context.getD "parameters" (.obj [])).dict?
  parameters.getFloat name default

/-- The records that `for link in context.get("links", [])` visits. -/
def records? (context : Dict String (Json F)) : Option (List (Json F)) :=
  (context.getD "links" (.arr [])).elements?

/-- `link.get("feasible", link.get("link_ok", False))`. -/
def isFeasible (link : Dict String (Json F)) : Bool :=
  (link.getD "feasible" (link.getD "link_ok" (.bool false))).truthy

/-- `str(link.get("src"))`. -/
def src (link : Dict String (Json F)) : String := (link.getD "src" .null).toText

/-- `str(link.get("dst"))`. -/
def dst (link : Dict String (Json F)) : String := (link.getD "dst" .null).toText

/-- The link of a record. An infeasible one is left out, as is one without a weight. -/
def readLink (weight? : Dict String (Json F) → Option (Option F)) (record : Json F) :
    Option (Option (Link String F)) := do
  let link ← record.dict?
  -- what an infeasible link has for a weight is not read
  if !isFeasible link then return none
  return (← weight? link).map fun weight => ⟨src link, dst link, weight⟩

/-- The links that a plugin searches over. -/
def readLinks (weight? : Dict String (Json F) → Option (Option F)) (records : List (Json F)) :
    Option (List (Link String F)) := do
  return (← records.mapM (readLink weight?)).reduceOption

/-- The link of a feasible record with its weight. -/
def IsLinkOf (weight? : Dict String (Json F) → Option (Option F)) (records : List (Json F))
    (link : Link String F) : Prop :=
  ∃ record ∈ records, ∃ fields, record.dict? = some fields ∧ isFeasible fields = true ∧
    link.src = src fields ∧ link.dst = dst fields ∧ weight? fields = some (some link.weight)

variable {weight? : Dict String (Json F) → Option (Option F)} {records : List (Json F)}

/-- A record gives a link when it is feasible and has a weight. -/
theorem readLink_eq_some {record : Json F} {link : Link String F} :
    readLink weight? record = some (some link) ↔
      ∃ fields, record.dict? = some fields ∧ isFeasible fields = true ∧ link.src = src fields ∧
        link.dst = dst fields ∧ weight? fields = some (some link.weight) := by
  unfold readLink
  cases record.dict? with
  | none => simp
  | some fields =>
      simp only [bind, Option.bind_some, Option.some.injEq, exists_eq_left']
      by_cases hfeasible : isFeasible fields = true
      · simp only [hfeasible, Bool.not_true, Bool.false_eq_true, if_false, true_and]
        cases weight? fields with
        | none => simp
        | some weight =>
            cases weight with
            | none => simp
            | some weight => simp [Link.ext_iff, eq_comm]
      · simp [hfeasible]

/-- The records can be read when every one is an object, and the weights of the feasible
ones can. -/
theorem exists_readLinks (h : ∀ record ∈ records, ∃ fields, record.dict? = some fields ∧
    (isFeasible fields = true → ∃ weight, weight? fields = some weight)) :
    ∃ links, readLinks weight? records = some links ∧
      ∀ link, link ∈ links ↔ IsLinkOf weight? records link := by
  have hread : ∀ record ∈ records, ∃ link, readLink weight? record = some link := by
    intro record hrecord
    obtain ⟨fields, hfields, hweight⟩ := h record hrecord
    unfold readLink
    by_cases hfeasible : isFeasible fields = true
    · obtain ⟨weight, hweight⟩ := hweight hfeasible
      simp [hfields, hfeasible, hweight]
    · simp [hfields, hfeasible]
  obtain ⟨links, hlinks⟩ := List.exists_mapM_eq_some_iff.mpr hread
  refine ⟨links.reduceOption, ?_, fun link => ?_⟩
  · rw [readLinks, hlinks]
    rfl
  · rw [List.reduceOption_mem_iff, List.mem_mapM_iff hlinks]
    simp only [readLink_eq_some, IsLinkOf]

end

/-! ## Entries of the queue -/

section

variable [PyFloat F]

/-- `a < b` of two pairs of a number and a text: the first part in which they differ decides. -/
def entryLt? (a b : F × String) : Option Bool :=
  some (if PyFloat.le a.1 b.1 && PyFloat.le b.1 a.1 then decide (a.2 < b.2)
    else PyFloat.lt a.1 b.1)

/-- Pairs of numbers and texts are ordered by the values of the numbers, then by the texts. -/
theorem entryLt?_eq {K : Type} [LinearOrder K] {value : F → K} {a b : F × String}
    (hle : PyFloat.le a.1 b.1 = decide (value a.1 ≤ value b.1))
    (hge : PyFloat.le b.1 a.1 = decide (value b.1 ≤ value a.1))
    (hlt : PyFloat.lt a.1 b.1 = decide (value a.1 < value b.1)) :
    entryLt? a b = some (decide (entryKey value a < entryKey value b)) := by
  rw [entryLt?, hle, hge, hlt]
  congr 1
  simp only [entryKey, Prod.Lex.toLex_lt_toLex]
  rcases lt_trichotomy (value a.1) (value b.1) with h | h | h
  · simp [h, h.not_ge]
  · simp [h]
  · simp [h.not_gt, h.not_ge, h.ne']

end

end Netlab.Routing
