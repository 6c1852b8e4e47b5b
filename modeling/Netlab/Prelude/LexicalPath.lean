import Mathlib.Tactic.Common

/-!
# Paths as text

A path is a root, which is empty for a relative path, and the list of its components. `normalize`
resolves `..` in it without looking at a file system. A relative path without `..` leads from every
path to one inside (`inside_join`).

A name is split at separators. A component that contains none of some more separators is a component
for these as well (`mem_splitOnP_of_mem`), and to replace these by the others is to split at all of
them (`splitOnP_map`).
-/

namespace List

variable {α : Type*} {p q : α → Bool}

/-- What the pieces of a list have to do with those at more separators. -/
theorem splitOnP_refine (hpq : ∀ c, p c = true → q c = true) (l : List α) :
    ∃ a as b bs, l.splitOnP p = a :: as ∧ l.splitOnP q = b :: bs ∧
      ((∀ c ∈ a, q c = false) → a = b) ∧
      ∀ piece ∈ as, (∀ c ∈ piece, q c = false) → piece ∈ bs := by
  induction l with
  | nil => exact ⟨[], [], [], [], splitOnP_nil .., splitOnP_nil .., fun _ => rfl, by simp⟩
  | cons x xs ih =>
      obtain ⟨a, as, b, bs, hp, hq, hhead, htail⟩ := ih
      rw [splitOnP_cons_eq_if_modifyHead, splitOnP_cons_eq_if_modifyHead, hp, hq, modifyHead_cons,
        modifyHead_cons]
      cases hqx : q x with
      | false =>
          have hpx : p x = false := by
            by_contra hne
            exact absurd (hpq x (by simpa using hne)) (by simp [hqx])
          simp only [hpx, Bool.false_eq_true, if_false]
          refine ⟨_, _, _, _, rfl, rfl, fun hfree => ?_, htail⟩
          rw [hhead fun c hc => hfree c (mem_cons_of_mem _ hc)]
      | true =>
          cases hpx : p x with
          | true =>
              refine ⟨_, _, _, _, rfl, rfl, fun _ => rfl, fun piece hpiece hfree => ?_⟩
              rcases mem_cons.mp hpiece with rfl | hpiece
              · exact hhead hfree ▸ mem_cons_self
              · exact mem_cons_of_mem _ (htail piece hpiece hfree)
          | false =>
              -- the first piece has a separator in it
              refine ⟨_, _, _, _, rfl, rfl, fun hfree => ?_, fun piece hpiece hfree => ?_⟩
              · exact absurd (hfree x mem_cons_self) (by simp [hqx])
              · exact mem_cons_of_mem _ (htail piece hpiece hfree)

/-- A piece without any of more separators is a piece for these, too. -/
theorem mem_splitOnP_of_mem (hpq : ∀ c, p c = true → q c = true) {l piece : List α}
    (h : piece ∈ l.splitOnP p) (hfree : ∀ c ∈ piece, q c = false) : piece ∈ l.splitOnP q := by
  obtain ⟨a, as, b, bs, hp, hq, hhead, htail⟩ := splitOnP_refine hpq l
  rw [hp] at h
  rw [hq]
  rcases mem_cons.mp h with rfl | h
  · exact hhead hfree ▸ mem_cons_self
  · exact mem_cons_of_mem _ (htail piece h hfree)

/-- To replace elements by separators is to split at these elements. -/
theorem splitOnP_map {f : α → α} (hf : ∀ c, p (f c) = false → f c = c) (l : List α) :
    (l.map f).splitOnP p = l.splitOnP fun c => p (f c) := by
  induction l with
  | nil => rw [map_nil, splitOnP_nil, splitOnP_nil]
  | cons x xs ih =>
      rw [map_cons, splitOnP_cons_eq_if_modifyHead, splitOnP_cons_eq_if_modifyHead, ih]
      cases hx : p (f x) with
      | true => rfl
      | false => rw [hf x hx]

end List

/-- A path. -/
structure LexicalPath where
  root : String
  parts : List String
  deriving DecidableEq, Repr

namespace LexicalPath

/-- The components of a name, which say where it leads. -/
def components (isSeparator : Char → Bool) (name : String) : List String :=
  ((name.toList.splitOnP isSeparator).map String.ofList).filter fun part => part ≠ "" ∧ part ≠ "."

/-- One more component after those passed, the last of them first. -/
def climb (absolute : Bool) (passed : List String) (part : String) : List String :=
  if part = ".." then
    match passed with
    | [] => if absolute then [] else [".."]
    | last :: rest => if last = ".." then ".." :: last :: rest else rest
  else part :: passed

/-- The path with `..` resolved, as far as it can be. -/
def normalize (path : LexicalPath) : LexicalPath where
  root := path.root
  parts := (path.parts.foldl (climb (path.root ≠ "")) []).reverse

/-- `path / other`. -/
def join (path other : LexicalPath) : LexicalPath :=
  if other.root = "" then { path with parts := path.parts ++ other.parts } else other

/-- The paths above a path, the nearest first. -/
def parents (path : LexicalPath) : List LexicalPath :=
  (List.range path.parts.length).reverse.map fun n => { path with parts := path.parts.take n }

/-- A path is another one, or leads on from it. -/
def Inside (path other : LexicalPath) : Prop :=
  path.root = other.root ∧ other.parts <+: path.parts

instance (path other : LexicalPath) : Decidable (path.Inside other) :=
  inferInstanceAs (Decidable (_ ∧ _))

theorem climb_of_ne (absolute : Bool) (passed : List String) {part : String} (h : part ≠ "..") :
    climb absolute passed part = part :: passed := if_neg h

/-- Components other than `..` are appended. -/
theorem foldl_climb (absolute : Bool) (passed : List String) {parts : List String}
    (h : ".." ∉ parts) : parts.foldl (climb absolute) passed = parts.reverse ++ passed := by
  induction parts generalizing passed with
  | nil => rfl
  | cons part parts ih =>
      obtain ⟨hpart, hparts⟩ := not_or.mp (mt List.mem_cons.mpr h)
      rw [List.foldl_cons, climb_of_ne _ _ (Ne.symm hpart), ih _ hparts, List.reverse_cons,
        List.append_assoc, List.singleton_append]

/-- A relative path without `..` leads inside. -/
theorem inside_join {path other : LexicalPath} (hroot : other.root = "") (h : ".." ∉ other.parts) :
    (path.join other).normalize.Inside path.normalize := by
  rw [join, if_pos hroot]
  refine ⟨rfl, ?_⟩
  simp only [normalize]
  rw [List.foldl_append, foldl_climb _ _ h, List.reverse_append, List.reverse_reverse]
  exact List.prefix_append ..

end LexicalPath
