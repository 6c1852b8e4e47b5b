import Mathlib.Data.List.DropRight
import Mathlib.Data.List.TakeWhile
import Mathlib.Tactic.Common

/-!
# Lines of a text

`str.splitlines` and `str.strip` on lists of characters. A text in which every line is ended by a
newline splits into these lines (`splitLines_flatMap`), provided they hold no line break themselves,
as no line that comes from `splitLines` does (`not_isLineBreak_of_mem`). Kept with their breaks, the
lines are the text again (`flatMap_splitKeepEnds`). What was stripped is `Stripped`, and stripping it
again changes nothing (`strip_of_stripped`).
-/

namespace Lines

/-- The characters at which `str.splitlines` ends a line. -/
def isLineBreak (c : Char) : Bool :=
  c.toNat ∈ [0x0a, 0x0b, 0x0c, 0x0d, 0x1c, 0x1d, 0x1e, 0x85, 0x2028, 0x2029]

/-- The characters that `str.strip` removes at both ends. -/
def isSpace (c : Char) : Bool :=
  (0x09 ≤ c.toNat ∧ c.toNat ≤ 0x0d) ∨ (0x1c ≤ c.toNat ∧ c.toNat ≤ 0x20) ∨
    (0x2000 ≤ c.toNat ∧ c.toNat ≤ 0x200a) ∨
    c.toNat ∈ [0x85, 0xa0, 0x1680, 0x2028, 0x2029, 0x202f, 0x205f, 0x3000]

/-! ## Splitting -/

/-- Put a character in front of the first line. -/
def consFirst (c : Char) : List (List Char) → List (List Char)
  | [] => [[c]]
  | line :: lines => (c :: line) :: lines

/-- `str.splitlines`. A carriage return and a newline together end one line. -/
def splitLines : List Char → List (List Char)
  | [] => []
  | '\r' :: '\n' :: rest => [] :: splitLines rest
  | c :: rest => if isLineBreak c then [] :: splitLines rest else consFirst c (splitLines rest)

theorem splitLines_cons_of_not {c : Char} (h : isLineBreak c = false) (rest : List Char) :
    splitLines (c :: rest) = consFirst c (splitLines rest) := by
  rw [splitLines]
  · rw [if_neg (by simp [h])]
  · rintro rest' rfl -
    cases h

/-- No line holds a line break. -/
theorem not_isLineBreak_of_mem {text line : List Char} (h : line ∈ splitLines text) :
    ∀ c ∈ line, isLineBreak c = false := by
  fun_induction splitLines text generalizing line with
  | case1 => cases h
  | case2 rest ih =>
      rcases List.mem_cons.mp h with rfl | hrest
      · simp
      · exact ih hrest
  | case3 c rest _ hbreak ih =>
      rcases List.mem_cons.mp h with rfl | hrest
      · simp
      · exact ih hrest
  | case4 c rest _ hbreak ih =>
      -- the character joins the first line of the rest
      have hc : isLineBreak c = false := by simpa using hbreak
      cases hlines : splitLines rest with
      | nil =>
          rw [hlines, consFirst, List.mem_singleton] at h
          simp [h, hc]
      | cons first lines =>
          rw [hlines, consFirst, List.mem_cons] at h
          rcases h with rfl | hrest
          · simpa [hc] using ih (hlines ▸ List.mem_cons_self)
          · exact ih (hlines ▸ List.mem_cons_of_mem _ hrest)

/-- A line that is ended by a newline is split off. -/
theorem splitLines_append_newline {line : List Char} (h : ∀ c ∈ line, isLineBreak c = false)
    (rest : List Char) : splitLines (line ++ '\n' :: rest) = line :: splitLines rest := by
  induction line with
  | nil =>
      rw [List.nil_append, splitLines]
      · rfl
      · intro rest' hc
        cases hc
  | cons c line ih =>
      rw [List.cons_append, splitLines_cons_of_not (h c List.mem_cons_self),
        ih fun c' hc' => h c' (List.mem_cons_of_mem _ hc')]
      rfl

/-- Lines that are each ended by a newline are split again. -/
theorem splitLines_flatMap {lines : List (List Char)}
    (h : ∀ line ∈ lines, ∀ c ∈ line, isLineBreak c = false) (rest : List Char) :
    splitLines (lines.flatMap (· ++ ['\n']) ++ rest) = lines ++ splitLines rest := by
  induction lines with
  | nil => rfl
  | cons line lines ih =>
      rw [List.flatMap_cons, List.append_assoc, List.append_assoc, List.singleton_append,
        splitLines_append_newline (h line List.mem_cons_self),
        ih fun l hl => h l (List.mem_cons_of_mem _ hl)]
      rfl

theorem splitLines_newline (rest : List Char) :
    splitLines ('\n' :: rest) = [] :: splitLines rest :=
  splitLines_append_newline (List.forall_mem_nil _) rest

/-- What follows a newline is split on its own, whatever precedes it. -/
theorem exists_splitLines_append (text rest : List Char) :
    ∃ line lines, splitLines (text ++ '\n' :: rest) = line :: (lines ++ splitLines rest) := by
  induction text using splitLines.induct with
  | case1 => exact ⟨[], [], splitLines_newline rest⟩
  | case2 text ih =>
      obtain ⟨line, lines, h⟩ := ih
      exact ⟨[], line :: lines, congrArg _ h⟩
  | case3 c text hpair hbreak ih =>
      by_cases hreturn : c = '\r' ∧ text = []
      · -- the newline belongs to the carriage return before it
        obtain ⟨rfl, rfl⟩ := hreturn
        exact ⟨[], [], rfl⟩
      · obtain ⟨line, lines, h⟩ := ih
        refine ⟨[], line :: lines, ?_⟩
        rw [List.cons_append, splitLines, if_pos hbreak, h]
        · rfl
        · intro rest' hc htext
          cases text with
          | nil => exact hreturn ⟨hc, rfl⟩
          | cons c' text =>
              rw [List.cons_append, List.cons.injEq] at htext
              exact hpair text hc (htext.1 ▸ rfl)
  | case4 c text _ hbreak ih =>
      obtain ⟨line, lines, h⟩ := ih
      refine ⟨c :: line, lines, ?_⟩
      rw [List.cons_append, splitLines_cons_of_not (by simpa using hbreak), h]
      rfl

/-! ## Keeping the breaks -/

/-- Put a character in front of the first line, which keeps its break. -/
def consFirstPiece (c : Char) : List (List Char × List Char) → List (List Char × List Char)
  | [] => [([c], [])]
  | (line, ends) :: pieces => (c :: line, ends) :: pieces

/-- `str.splitlines(keepends=True)`: each line with the break behind it, which only the last one may
be without. -/
def splitKeepEnds : List Char → List (List Char × List Char)
  | [] => []
  | '\r' :: '\n' :: rest => ([], ['\r', '\n']) :: splitKeepEnds rest
  | c :: rest =>
      if isLineBreak c then ([], [c]) :: splitKeepEnds rest else consFirstPiece c (splitKeepEnds rest)

/-- Without the breaks they are the lines. -/
theorem map_fst_splitKeepEnds (text : List Char) :
    (splitKeepEnds text).map Prod.fst = splitLines text := by
  fun_induction splitLines text with
  | case1 => rfl
  | case2 rest ih => rw [splitKeepEnds, List.map_cons, ih]
  | case3 c rest hpair hbreak ih =>
      rw [splitKeepEnds, if_pos hbreak, List.map_cons, ih]
      exact hpair
  | case4 c rest hpair hbreak ih =>
      rw [splitKeepEnds, if_neg hbreak, ← ih]
      · cases splitKeepEnds rest <;> rfl
      · exact hpair

/-- Put together again, the lines and their breaks are the text. -/
theorem flatMap_splitKeepEnds (text : List Char) :
    (splitKeepEnds text).flatMap (fun piece => piece.1 ++ piece.2) = text := by
  fun_induction splitKeepEnds text with
  | case1 => rfl
  | case2 rest ih => rw [List.flatMap_cons, ih, List.nil_append, List.cons_append,
      List.singleton_append]
  | case3 c rest _ hbreak ih => rw [List.flatMap_cons, ih, List.nil_append, List.singleton_append]
  | case4 c rest _ hbreak ih =>
      conv_rhs => rw [← ih]
      cases splitKeepEnds rest <;> simp [consFirstPiece]

/-- No piece is empty. -/
theorem ne_nil_of_mem_splitKeepEnds {text : List Char} {piece : List Char × List Char}
    (h : piece ∈ splitKeepEnds text) : piece.1 ++ piece.2 ≠ [] := by
  fun_induction splitKeepEnds text with
  | case1 => cases h
  | case2 rest ih =>
      rcases List.mem_cons.mp h with rfl | hrest
      · simp
      · exact ih hrest
  | case3 c rest _ hbreak ih =>
      rcases List.mem_cons.mp h with rfl | hrest
      · simp
      · exact ih hrest
  | case4 c rest _ hbreak ih =>
      cases hpieces : splitKeepEnds rest with
      | nil =>
          rw [hpieces, consFirstPiece, List.mem_singleton] at h
          simp [h]
      | cons first pieces =>
          rw [hpieces, consFirstPiece, List.mem_cons] at h
          rcases h with rfl | hrest
          · simp
          · exact ih (hpieces ▸ List.mem_cons_of_mem _ hrest)

/-- The last break tells whether a text ends with a newline. -/
theorem getLast?_eq_newline_iff (text : List Char) :
    text.getLast? = some '\n' ↔
      ∃ piece, (splitKeepEnds text).getLast? = some piece ∧ piece.2.getLast? = some '\n' := by
  have hplain : ∀ piece ∈ splitKeepEnds text, ∀ c ∈ piece.1, isLineBreak c = false := by
    intro piece hpiece
    have hline : piece.1 ∈ splitLines text := by
      rw [← map_fst_splitKeepEnds]
      exact List.mem_map_of_mem hpiece
    exact not_isLineBreak_of_mem hline
  have hnonempty : ∀ piece ∈ splitKeepEnds text, piece.1 ++ piece.2 ≠ [] := fun piece hpiece =>
    ne_nil_of_mem_splitKeepEnds hpiece
  conv_lhs => rw [← flatMap_splitKeepEnds text]
  generalize splitKeepEnds text = pieces at hplain hnonempty
  cases pieces using List.reverseRecOn with
  | nil => simp
  | append_singleton pieces piece =>
      have hmem : piece ∈ pieces ++ [piece] := by simp
      have hline := hplain piece hmem
      have hpiece := hnonempty piece hmem
      rw [List.flatMap_append, List.getLast?_append, List.getLast?_concat]
      simp only [List.flatMap_singleton, Option.some.injEq, exists_eq_left']
      by_cases hbreak : piece.2 = []
      · rw [hbreak, List.append_nil] at hpiece ⊢
        -- the text ends in a line, which holds no newline
        have hlast := hline _ (List.getLast_mem hpiece)
        rw [List.getLast?_eq_some_getLast hpiece, Option.some_or, Option.some.injEq]
        constructor
        · intro hend
          rw [hend] at hlast
          exact absurd hlast (by decide)
        · intro hend
          cases hend
      · rw [List.getLast?_append_of_ne_nil _ hbreak, List.getLast?_eq_some_getLast hbreak,
          Option.some_or]

/-! ## Stripping -/

/-- `str.strip`. -/
def strip (s : List Char) : List Char := (s.dropWhile isSpace).rdropWhile isSpace

/-- Neither end is a space. -/
structure Stripped (s : List Char) : Prop where
  first : ∀ c ∈ s.head?, isSpace c = false
  last : ∀ c ∈ s.getLast?, isSpace c = false

theorem dropWhile_eq_self {s : List Char} (h : ∀ c ∈ s.head?, isSpace c = false) :
    s.dropWhile isSpace = s := by
  cases s with
  | nil => rfl
  | cons c s => exact List.dropWhile_cons_of_neg (by simp [h c rfl])

/-- Stripping what is stripped changes nothing. -/
theorem strip_of_stripped {s : List Char} (h : Stripped s) : strip s = s := by
  rw [strip, dropWhile_eq_self h.first, List.rdropWhile_eq_self_iff]
  intro hne
  simp [h.last _ (List.getLast?_eq_getLast_of_ne_nil hne)]

theorem mem_of_mem_strip {s : List Char} {c : Char} (h : c ∈ strip s) : c ∈ s :=
  (List.dropWhile_sublist _).mem ((List.rdropWhile_prefix _ _).mem h)

/-- Where a text does not begin with a space, what is removed at its end leaves its beginning. -/
theorem head?_rdropWhile {s : List Char} (h : ∀ c ∈ s.head?, isSpace c = false) :
    (s.rdropWhile isSpace).head? = s.head? := by
  cases s with
  | nil => rfl
  | cons c s =>
      have hne : (c :: s).rdropWhile isSpace ≠ [] := by
        rw [Ne, List.rdropWhile_eq_nil_iff]
        exact fun hall => by simpa [h c rfl] using hall c List.mem_cons_self
      obtain ⟨rest, hrest⟩ := List.rdropWhile_prefix isSpace (c :: s)
      calc ((c :: s).rdropWhile isSpace).head?
          = ((c :: s).rdropWhile isSpace ++ rest).head? := (List.head?_append_of_ne_nil _ hne).symm
        _ = (c :: s).head? := by rw [hrest]

theorem head?_strip {s : List Char} (h : ∀ c ∈ s.head?, isSpace c = false) :
    (strip s).head? = s.head? := by
  rw [strip, dropWhile_eq_self h, head?_rdropWhile h]

theorem stripped_strip (s : List Char) : Stripped (strip s) := by
  have hhead : ∀ c ∈ (s.dropWhile isSpace).head?, isSpace c = false := by
    intro c hc
    have hnot := List.head?_dropWhile_not isSpace s
    rwa [Option.mem_def.mp hc] at hnot
  constructor
  · intro c hc
    rw [strip, head?_rdropWhile hhead] at hc
    exact hhead c hc
  · intro c hc
    rw [strip] at hc
    obtain ⟨hne, rfl⟩ := List.mem_getLast?_eq_getLast hc
    simpa using List.rdropWhile_last_not isSpace (s.dropWhile isSpace) hne

end Lines
