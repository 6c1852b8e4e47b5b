import Netlab.Prelude.JsonReader
import Mathlib.Data.List.TakeWhile

/-!
# Writing JSON texts so that they read back

`json.dumps` with its choices of white space: the number of blanks that indent one level, if the text
is broken into lines at all, and the blanks after a comma and after a colon. `render` writes without
any (`write_compact`). Whatever the layout, a value whose numbers are finite is read back from its
text (`load_write`).
-/

/-- What is documented of the text of a finite float: it is a JSON number with a fraction or an
exponent, and reads as the float it was written for. -/
class FloatNumeral (F : Type) [PyText F] [PyFloat F] : Prop where
  isFloat_text {x : F} : PyFloat.isFinite x = true → JsonText.IsFloat (PyText.text x).toList
  ofText_text {x : F} : PyFloat.isFinite x = true → PyText.ofText (PyText.text x) = some x

namespace JsonText

/-- The white space of `json.dumps`. -/
structure Layout where
  /-- The blanks that indent one level; without them the text is one line. -/
  indent : Option ℕ
  /-- The number of blanks after a comma inside a line. -/
  afterComma : ℕ
  /-- The number of blanks after a colon. -/
  afterColon : ℕ
  deriving DecidableEq

namespace Layout

/-- `separators=(",", ":")`. -/
def compact : Layout := ⟨none, 0, 0⟩

/-- `indent=k`. -/
def indented (k : ℕ) : Layout := ⟨some k, 0, 1⟩

/-- What stands before an item of the given level. -/
def newline (L : Layout) (depth : ℕ) : List Char :=
  match L.indent with
  | none => []
  | some k => '\n' :: List.replicate (k * depth) ' '

/-- What stands between two items of the given level. -/
def separator (L : Layout) (depth : ℕ) : List Char :=
  ',' :: (List.replicate L.afterComma ' ' ++ L.newline depth)

/-- Pieces of the given level between brackets. -/
def enclosed (L : Layout) (depth : ℕ) (opening closing : Char) : List (List Char) → List Char
  | [] => [opening, closing]
  | piece :: pieces =>
      opening :: (L.newline (depth + 1) ++ (piece ++
        (pieces.flatMap (fun piece => L.separator (depth + 1) ++ piece) ++
          (L.newline depth ++ [closing]))))

end Layout

variable {F : Type} [PyText F] [PyFloat F]

mutual

/-- How a value is written that stands at the given level. -/
def write (L : Layout) (ascii : Bool) (depth : ℕ) : Json F → List Char
  | .null => ['n', 'u', 'l', 'l']
  | .bool b => if b then ['t', 'r', 'u', 'e'] else ['f', 'a', 'l', 's', 'e']
  | .int n => n.repr.toList
  | .float x => (floatText x).toList
  | .str s => quoted ascii s
  | .arr items => L.enclosed depth '[' ']' (writeItems L ascii (depth + 1) items)
  | .obj members => L.enclosed depth '\x7b' '\x7d' (writeMembers L ascii (depth + 1) members)

/-- How the items of a list are written. -/
def writeItems (L : Layout) (ascii : Bool) (depth : ℕ) : List (Json F) → List (List Char)
  | [] => []
  | item :: items => write L ascii depth item :: writeItems L ascii depth items

/-- How the members of an object are written. -/
def writeMembers (L : Layout) (ascii : Bool) (depth : ℕ) : List (String × Json F) → List (List Char)
  | [] => []
  | (key, value) :: members =>
      (quoted ascii key ++ ':' :: (List.replicate L.afterColon ' ' ++ write L ascii depth value)) ::
        writeMembers L ascii depth members

end

theorem writeItems_eq_map (L : Layout) (ascii : Bool) (depth : ℕ) (items : List (Json F)) :
    writeItems L ascii depth items = items.map (write L ascii depth) := by
  induction items with
  | nil => rfl
  | cons item items ih => rw [writeItems, ih, List.map_cons]

/-- How a member of an object is written. -/
def writeMember (L : Layout) (ascii : Bool) (depth : ℕ) (member : String × Json F) : List Char :=
  quoted ascii member.1 ++
    ':' :: (List.replicate L.afterColon ' ' ++ write L ascii depth member.2)

theorem writeMembers_eq_map (L : Layout) (ascii : Bool) (depth : ℕ)
    (members : List (String × Json F)) :
    writeMembers L ascii depth members = members.map (writeMember L ascii depth) := by
  induction members with
  | nil => rfl
  | cons member members ih =>
      rw [writeMembers, ih, List.map_cons]
      rfl

/-! ## The compact layout -/

theorem enclosed_compact (depth : ℕ) (opening closing : Char) (pieces : List (List Char)) :
    Layout.compact.enclosed depth opening closing pieces =
      opening :: (joined pieces ++ [closing]) := by
  have hjoined (piece : List Char) (pieces : List (List Char)) :
      joined (piece :: pieces) = piece ++ pieces.flatMap (fun piece => ',' :: piece) := by
    induction pieces generalizing piece with
    | nil => simp [joined]
    | cons next pieces ih => rw [joined, ih, List.flatMap_cons, List.cons_append]
  cases pieces with
  | nil => rfl
  | cons piece pieces =>
      rw [hjoined, List.append_assoc]
      rfl

/-- Written without white space, a value is written as canonical texts are. -/
theorem write_compact (ascii : Bool) (depth : ℕ) (value : Json F) :
    write .compact ascii depth value = render ascii value := by
  induction value using nestedInduction generalizing depth with
  | scalar value harr hobj =>
      cases value with
      | arr items => exact absurd rfl (harr items)
      | obj members => exact absurd rfl (hobj members)
      | _ => rfl
  | array items ih =>
      have hitems : items.map (write .compact ascii (depth + 1)) = items.map (render ascii) :=
        List.map_congr_left fun item hitem => ih item hitem _
      rw [write, render, enclosed_compact, writeItems_eq_map, renderItems_eq_map, hitems]
  | object members ih =>
      have hmembers : members.map (writeMember .compact ascii (depth + 1)) =
          members.map fun member => quoted ascii member.1 ++ ':' :: render ascii member.2 := by
        refine List.map_congr_left fun member hmember => ?_
        rw [writeMember, ih member hmember]
        rfl
      rw [write, render, enclosed_compact, writeMembers_eq_map, renderMembers_eq_map, hmembers]

/-! ## White space -/

theorem skipSpace_cons {c : Char} (h : isBlank c = false) (rest : List Char) :
    skipSpace (c :: rest) = c :: rest := List.dropWhile_cons_of_neg (by simp [h])

theorem skipSpace_append {blanks : List Char} (h : ∀ c ∈ blanks, isBlank c = true)
    (rest : List Char) : skipSpace (blanks ++ rest) = skipSpace rest :=
  List.dropWhile_append_of_pos h

theorem isBlank_replicate (k : ℕ) : ∀ c ∈ List.replicate k ' ', isBlank c = true := by
  intro c hc
  rw [(List.mem_replicate.mp hc).2]
  rfl

theorem isBlank_newline (L : Layout) (depth : ℕ) : ∀ c ∈ L.newline depth, isBlank c = true := by
  intro c hc
  unfold Layout.newline at hc
  split at hc
  · cases hc
  · rcases List.mem_cons.mp hc with rfl | hc
    · rfl
    · exact isBlank_replicate _ c hc

theorem skipSpace_newline (L : Layout) (depth : ℕ) (rest : List Char) :
    skipSpace (L.newline depth ++ rest) = skipSpace rest :=
  skipSpace_append (isBlank_newline L depth) rest

/-- What follows the white space of a line break does not go on with a number. -/
theorem ends_newline (L : Layout) (depth : ℕ) {rest : List Char} (h : Ends rest) :
    Ends (L.newline depth ++ rest) := by
  unfold Layout.newline
  split
  · exact h
  · exact ends_cons (by decide) _

/-! ## First characters -/

/-- The characters a value can start with. -/
def Starts (c : Char) : Prop := c.isDigit = true ∨ c ∈ ['-', 'n', 't', 'f', '"', '[', '\x7b']

instance (c : Char) : Decidable (Starts c) := inferInstanceAs (Decidable (_ ∨ _))

theorem Starts.isBlank {c : Char} (h : Starts c) : isBlank c = false := by
  rw [Bool.eq_false_iff]
  intro hblank
  have hcases : c = ' ' ∨ c = '\t' ∨ c = '\n' ∨ c = '\r' := by
    simpa [JsonText.isBlank, or_assoc] using hblank
  rcases hcases with rfl | rfl | rfl | rfl <;> exact absurd h (by decide)

theorem Starts.ne_closing {c : Char} (h : Starts c) : c ≠ ']' := by
  rintro rfl
  exact absurd h (by decide)

theorem IsWhole.exists_cons {whole : List Char} (h : IsWhole whole) :
    ∃ c rest, whole = c :: rest ∧ (c.isDigit = true ∨ c = '-') := by
  rcases h with h | ⟨ds, rfl, -⟩
  · obtain ⟨c, rest, rfl, hc⟩ := h.exists_cons
    exact ⟨c, rest, rfl, Or.inl hc⟩
  · exact ⟨'-', ds, rfl, Or.inr rfl⟩

variable [FloatNumeral F]

/-- A finite float is written as a JSON number. -/
theorem isFloat_floatText {x : F} (h : PyFloat.isFinite x = true) :
    IsFloat (floatText x).toList := by
  rw [floatText, if_pos h]
  exact FloatNumeral.isFloat_text h

/-- A value starts with one of the characters a value can start with. -/
theorem exists_cons_write (L : Layout) (ascii : Bool) (depth : ℕ) {value : Json F}
    (h : finite value = true) :
    ∃ c rest, write L ascii depth value = c :: rest ∧ Starts c := by
  have hwhole {whole : List Char} (h : IsWhole whole) (rest : List Char) :
      ∃ c tail, whole ++ rest = c :: tail ∧ Starts c := by
    obtain ⟨c, tail, rfl, hc⟩ := h.exists_cons
    refine ⟨c, tail ++ rest, rfl, ?_⟩
    rcases hc with hc | rfl
    · exact Or.inl hc
    · exact Or.inr (by decide)
  have henclosed (opening closing : Char) (hopening : Starts opening)
      (pieces : List (List Char)) :
      ∃ c tail, L.enclosed depth opening closing pieces = c :: tail ∧ Starts c := by
    cases pieces with
    | nil => exact ⟨opening, _, rfl, hopening⟩
    | cons piece pieces => exact ⟨opening, _, rfl, hopening⟩
  cases value with
  | null => exact ⟨'n', _, rfl, by decide⟩
  | bool b =>
      cases b with
      | true => exact ⟨'t', _, rfl, by decide⟩
      | false => exact ⟨'f', _, rfl, by decide⟩
  | int n =>
      have hint := hwhole (isWhole_repr n) []
      rwa [List.append_nil] at hint
  | float x =>
      obtain ⟨whole, fraction, exponent, htext, hw, -⟩ := isFloat_floatText h
      rw [write, htext, List.append_assoc]
      exact hwhole hw _
  | str s => exact ⟨'"', _, rfl, by decide⟩
  | arr items => exact henclosed '[' ']' (by decide) _
  | obj members => exact henclosed '\x7b' '\x7d' (by decide) _

/-! ## Reading a written value -/

/-- The value at the given level is read back from its text, in as many calls as its length allows. -/
def ReadsBack (L : Layout) (ascii : Bool) (value : Json F) : Prop :=
  ∀ (depth n : ℕ) (rest : List Char), finite value = true → Ends rest →
    2 * (write L ascii depth value ++ rest).length < n →
    readValue n (write L ascii depth value ++ rest) = some (value, rest)

omit [PyFloat F] [FloatNumeral F] in
/-- A value that starts neither with a quote nor with a bracket is a word or a number. -/
theorem valueBody_plain {items : List Char → Option (List (Json F) × List Char)}
    {members : List Char → Option (List (String × Json F) × List Char)} {c : Char}
    (h : c ∉ ['"', '\x7b', '[']) (rest : List Char) :
    valueBody items members (c :: rest) =
      (readConstant (c :: rest)).or (readNumber (c :: rest)) := by
  simp only [List.mem_cons, List.not_mem_nil, or_false, not_or] at h
  rw [valueBody]
  · rintro rest' ⟨⟩
    exact h.1 rfl
  · rintro rest' ⟨⟩
    exact h.2.1 rfl
  · rintro rest' ⟨⟩
    exact h.2.2 rfl

omit [PyFloat F] [FloatNumeral F] in
/-- No word starts like a number. -/
theorem readConstant_whole {whole : List Char} (h : IsWhole whole) (rest : List Char) :
    (readConstant (whole ++ rest) : Option (Json F × List Char)) = none := by
  have hdigit {d : Char} (hd : d.isDigit = true) (tail : List Char) :
      ∀ c ∈ ['n', 't', 'f', 'N', 'I'], ∀ word, dropWord (c :: word) (d :: tail) = none := by
    intro c hc word
    refine if_neg ?_
    rintro rfl
    revert hd
    simp only [List.mem_cons, List.not_mem_nil, or_false] at hc
    rcases hc with rfl | rfl | rfl | rfl | rfl <;> decide
  have hsign {d : Char} (hd : d.isDigit = true) : '-' ≠ d := by
    rintro rfl
    exact absurd hd (by decide)
  rcases h with h | ⟨ds, rfl, h⟩
  · -- a digit starts no word
    obtain ⟨d, tail, rfl, hd⟩ := h.exists_cons
    have hminus (word : List Char) : dropWord ('-' :: word) (d :: (tail ++ rest)) = none :=
      if_neg (hsign hd)
    simp [readConstant, constants, hdigit hd, hminus]
  · -- the one word with a sign goes on with a letter, where the number has a digit
    obtain ⟨d, tail, rfl, hd⟩ := h.exists_cons
    have hletter : ∀ c ∈ ['n', 't', 'f', 'N', 'I'], ∀ word,
        dropWord (c :: word) ('-' :: d :: (tail ++ rest)) = none := by
      intro c hc word
      refine if_neg ?_
      rintro rfl
      exact absurd hc (by decide)
    have hminus (word : List Char) :
        dropWord ('-' :: 'I' :: word) ('-' :: d :: (tail ++ rest)) = none :=
      (if_pos rfl).trans (hdigit hd _ 'I' (by decide) word)
    simp [readConstant, constants, hletter, hminus]

omit [PyFloat F] [FloatNumeral F] in
/-- A value that starts like a number is one. -/
theorem readValue_whole {whole : List Char} (h : IsWhole whole) (n : ℕ) (rest : List Char) :
    (readValue (n + 1) (whole ++ rest) : Option (Json F × List Char)) =
      readNumber (whole ++ rest) := by
  have hconstant : (readConstant (whole ++ rest) : Option (Json F × List Char)) = none :=
    readConstant_whole h rest
  obtain ⟨c, tail, rfl, hc⟩ := h.exists_cons
  have hplain : c ∉ ['"', '\x7b', '['] := by
    intro hmem
    simp only [List.mem_cons, List.not_mem_nil, or_false] at hmem
    rcases hmem with rfl | rfl | rfl <;> revert hc <;> decide
  rw [readValue, List.cons_append, valueBody_plain hplain, ← List.cons_append, hconstant]
  rfl

omit [PyFloat F] [FloatNumeral F] in
theorem readNumber_int (n : ℤ) {rest : List Char} (hrest : Ends rest) :
    (readNumber (n.repr.toList ++ rest) : Option (Json F × List Char)) = some (.int n, rest) := by
  have hpoint : rest.head? ≠ some '.' := fun h => (hrest '.' h).2 (by decide)
  have hfraction := readFraction_append (Or.inl rfl) hrest.noDigit hpoint
  have hexponent := readExponent_append (Or.inl rfl) hrest
  rw [List.nil_append] at hfraction hexponent
  simp [readNumber, readInteger_append (isWhole_repr n) hrest.noDigit, hfraction, hexponent,
    integerValue_repr]

theorem readNumber_float {x : F} (hx : PyFloat.isFinite x = true) {rest : List Char}
    (hrest : Ends rest) :
    readNumber ((floatText x).toList ++ rest) = some (.float x, rest) := by
  obtain ⟨whole, fraction, exponent, htext, hwhole, hfraction, hexponent, hne⟩ :=
    isFloat_floatText hx
  obtain ⟨hdigit, hpoint⟩ := head?_exponent hexponent hrest
  have hinteger := readInteger_append hwhole (noDigit_fraction hfraction hdigit)
  have hvalue : PyText.ofText (.ofList (whole ++ fraction ++ exponent)) = some x := by
    rw [← htext, String.ofList_toList, floatText, if_pos hx, FloatNumeral.ofText_text hx]
  rw [htext, List.append_assoc, List.append_assoc, readNumber, hinteger]
  simp only [Option.bind_eq_bind, Option.bind_some,
    readFraction_append hfraction hdigit hpoint, readExponent_append hexponent hrest]
  rw [if_neg (fun h => hne.elim (· h.1) (· h.2)), hvalue]
  rfl

/-- A value without values inside is read back. -/
theorem readsBack_scalar (L : Layout) (ascii : Bool) {value : Json F}
    (harr : ∀ items, value ≠ .arr items) (hobj : ∀ members, value ≠ .obj members) :
    ReadsBack L ascii value := by
  intro depth n rest hfinite hrest hn
  obtain ⟨n, rfl⟩ := Nat.exists_eq_add_one.mpr (Nat.zero_lt_of_lt hn)
  cases value with
  | null => rfl
  | bool b => cases b <;> rfl
  | int i => exact (readValue_whole (isWhole_repr i) n rest).trans (readNumber_int i hrest)
  | float x =>
      have hx : PyFloat.isFinite x = true := hfinite
      have hnumber := readNumber_float hx hrest
      obtain ⟨whole, fraction, exponent, htext, hwhole, -⟩ := isFloat_floatText hx
      rw [htext, List.append_assoc, List.append_assoc] at hnumber
      rw [write, htext, List.append_assoc, List.append_assoc, readValue_whole hwhole, hnumber]
  | str s =>
      rw [write, quoted, List.cons_append, List.append_assoc, List.singleton_append, readValue,
        valueBody, readString_flatMap]
      rfl
  | arr items => exact absurd rfl (harr items)
  | obj members => exact absurd rfl (hobj members)

omit [PyText F] [PyFloat F] [FloatNumeral F] in
/-- Elements that are each read back are read back from their list. `elements n` reads the elements
of a list in at most `n` calls, `element n` one of them. -/
theorem elements_append {α : Type} {closing : Char} {piece : α → List Char}
    {element : ℕ → List Char → Option (α × List Char)}
    {elements : ℕ → List Char → Option (List α × List Char)}
    (helements : ∀ n text, elements (n + 1) text =
      listBody closing (element n) (elements n) text)
    (hclosing : closing ≠ ',' ∧ isBlank closing = false ∧ Ends [closing])
    (L : Layout) (outer inner : ℕ)
    {xs : List α} (hstart : ∀ x ∈ xs, ∃ c rest, piece x = c :: rest ∧ isBlank c = false)
    (hread : ∀ x ∈ xs, ∀ n rest, Ends rest → 2 * (piece x ++ rest).length < n →
      element n (piece x ++ rest) = some (x, rest))
    {x : α} (hx : ∀ n rest, Ends rest → 2 * (piece x ++ rest).length < n →
      element n (piece x ++ rest) = some (x, rest))
    {n : ℕ} {rest : List Char}
    (hn : 2 * (piece x ++ (xs.flatMap (fun x => L.separator inner ++ piece x) ++
      (L.newline outer ++ closing :: rest))).length + 1 < n) :
    elements n (piece x ++ (xs.flatMap (fun x => L.separator inner ++ piece x) ++
      (L.newline outer ++ closing :: rest))) = some (x :: xs, rest) := by
  have hclose : Ends (closing :: rest) := ends_cons (hclosing.2.2 closing rfl) rest
  induction xs generalizing x n with
  | nil =>
      obtain ⟨n, rfl⟩ := Nat.exists_eq_add_one.mpr (Nat.zero_lt_of_lt hn)
      simp only [List.flatMap_nil, List.nil_append] at hn ⊢
      have hskip : skipSpace (L.newline outer ++ closing :: rest) = closing :: rest := by
        rw [skipSpace_newline, skipSpace_cons hclosing.2.1]
      rw [helements, listBody, hx n _ (ends_newline L outer hclose) (by omega)]
      simp [hskip]
  | cons y ys ih =>
      obtain ⟨n, rfl⟩ := Nat.exists_eq_add_one.mpr (Nat.zero_lt_of_lt hn)
      obtain ⟨c, tail, hy, hc⟩ := hstart y List.mem_cons_self
      -- after the comma the next element follows, up to white space
      set others := piece y ++ (ys.flatMap (fun x => L.separator inner ++ piece x) ++
        (L.newline outer ++ closing :: rest)) with hothers
      have htext : (y :: ys).flatMap (fun x => L.separator inner ++ piece x) ++
          (L.newline outer ++ closing :: rest) =
            ',' :: (List.replicate L.afterComma ' ' ++ (L.newline inner ++ others)) := by
        simp [hothers, Layout.separator, List.append_assoc]
      have hskip : skipSpace (List.replicate L.afterComma ' ' ++ (L.newline inner ++ others)) =
          others := by
        rw [skipSpace_append (isBlank_replicate _), skipSpace_newline, hothers, hy,
          List.cons_append, skipSpace_cons hc]
      have hrest := ih (fun x hx => hstart x (List.mem_cons_of_mem _ hx))
        (fun x hx => hread x (List.mem_cons_of_mem _ hx)) (hread y List.mem_cons_self) (n := n)
        (by
          rw [htext] at hn
          simp only [List.length_append, List.length_cons] at hn ⊢
          rw [hothers] at hn
          simp only [List.length_append, List.length_cons] at hn
          omega)
      rw [htext] at hn ⊢
      rw [helements, listBody, hx n _ (ends_cons (by decide) _) (by omega)]
      have hcomma : skipSpace (',' :: (List.replicate L.afterComma ' ' ++
          (L.newline inner ++ others))) = ',' :: (List.replicate L.afterComma ' ' ++
          (L.newline inner ++ others)) := skipSpace_cons (by decide) _
      simp only [Option.bind_eq_bind, Option.bind_some, hcomma, hskip]
      rw [if_neg hclosing.1.symm, if_pos trivial, hrest]
      rfl

omit [PyText F] [PyFloat F] [FloatNumeral F] in
/-- Elements that are each read back are read back from between their brackets. -/
theorem enclosedBody_enclosed {α : Type} {opening closing : Char} {piece : α → List Char}
    {element : ℕ → List Char → Option (α × List Char)}
    {elements : ℕ → List Char → Option (List α × List Char)}
    (helements : ∀ n text, elements (n + 1) text =
      listBody closing (element n) (elements n) text)
    (hclosing : closing ≠ ',' ∧ isBlank closing = false ∧ Ends [closing])
    (L : Layout) (depth : ℕ) {xs : List α}
    (hstart : ∀ x ∈ xs, ∃ c rest, piece x = c :: rest ∧ isBlank c = false ∧ c ≠ closing)
    (hread : ∀ x ∈ xs, ∀ n rest, Ends rest → 2 * (piece x ++ rest).length < n →
      element n (piece x ++ rest) = some (x, rest))
    {n : ℕ} {rest text : List Char}
    (htext : L.enclosed depth opening closing (xs.map piece) ++ rest = opening :: text)
    (hn : 2 * text.length + 1 < n) :
    enclosedBody closing (elements n) text = some (xs, rest) := by
  cases xs with
  | nil =>
      obtain rfl : closing :: rest = text := (List.cons.inj htext).2
      rw [enclosedBody, skipSpace_cons hclosing.2.1]
      exact if_pos rfl
  | cons x xs =>
      obtain ⟨c, tail, hx, hc, hne⟩ := hstart x List.mem_cons_self
      set pieces := piece x ++ (xs.flatMap (fun x => L.separator (depth + 1) ++ piece x) ++
        (L.newline depth ++ closing :: rest)) with hpieces
      have hflat : (xs.map piece).flatMap (fun piece => L.separator (depth + 1) ++ piece) =
          xs.flatMap fun x => L.separator (depth + 1) ++ piece x := List.flatMap_map ..
      obtain rfl : L.newline (depth + 1) ++ pieces = text := by
        rw [List.map_cons, Layout.enclosed, hflat] at htext
        simpa [hpieces] using htext
      -- behind the line break stands the first element, which is no closing bracket
      have hskip : skipSpace (L.newline (depth + 1) ++ pieces) = pieces := by
        rw [skipSpace_newline, hpieces, hx, List.cons_append, skipSpace_cons hc]
      have helems : elements n pieces = some (x :: xs, rest) :=
        elements_append helements hclosing L depth (depth + 1)
          (fun y hy => by
            obtain ⟨c, tail, hpiece, hblank, -⟩ := hstart y (List.mem_cons_of_mem _ hy)
            exact ⟨c, tail, hpiece, hblank⟩)
          (fun y hy => hread y (List.mem_cons_of_mem _ hy)) (hread x List.mem_cons_self)
          (by rw [← hpieces]; rw [List.length_append] at hn; omega)
      have hcons : pieces = c :: (tail ++ (xs.flatMap (fun x => L.separator (depth + 1) ++ piece x) ++
          (L.newline depth ++ closing :: rest))) := by rw [hpieces, hx, List.cons_append]
      rw [enclosedBody, hskip]
      rw [hcons] at helems ⊢
      exact (if_neg hne).trans helems

theorem readsBack_arr {L : Layout} {ascii : Bool} {items : List (Json F)}
    (ih : ∀ item ∈ items, ReadsBack L ascii item) : ReadsBack L ascii (.arr items) := by
  intro depth n rest hfinite hrest hn
  have hitems := every_arr.mp hfinite
  obtain ⟨n, rfl⟩ := Nat.exists_eq_add_one.mpr (Nat.zero_lt_of_lt hn)
  have hwrite : write L ascii depth (.arr items) =
      L.enclosed depth '[' ']' (items.map (write L ascii (depth + 1))) := by
    rw [write, writeItems_eq_map]
  obtain ⟨text, htext⟩ : ∃ text, write L ascii depth (.arr items) ++ rest = '[' :: text := by
    rw [hwrite]
    cases items <;> exact ⟨_, rfl⟩
  have hbody : enclosedBody ']' (readItems n) text = some (items, rest) := by
    refine enclosedBody_enclosed (fun n text => by rw [readItems]) ⟨by decide, rfl, ?_⟩ L depth
      (fun item hitem => ?_) (fun item hitem n rest hrest hn => ?_) (hwrite ▸ htext)
      (by rw [htext, List.length_cons] at hn; omega)
    · exact ends_cons (by decide) []
    · obtain ⟨c, tail, hpiece, hc⟩ := exists_cons_write L ascii (depth + 1) (hitems item hitem)
      exact ⟨c, tail, hpiece, hc.isBlank, hc.ne_closing⟩
    · exact ih item hitem _ n rest (hitems item hitem) hrest hn
  rw [htext, readValue, valueBody, hbody]
  rfl

/-- A member of an object is read back if its value is. -/
theorem memberBody_append {L : Layout} {ascii : Bool} {member : String × Json F}
    (ih : ReadsBack L ascii member.2) (hfinite : finite member.2 = true) {depth n : ℕ}
    {rest : List Char} (hrest : Ends rest)
    (hn : 2 * (writeMember L ascii depth member ++ rest).length < n) :
    memberBody (readValue n) (writeMember L ascii depth member ++ rest) = some (member, rest) := by
  obtain ⟨c, tail, hvalue, hc⟩ := exists_cons_write L ascii depth hfinite
  have hread := ih depth n rest hfinite hrest (by
    simp only [writeMember, List.length_append, List.length_cons] at hn ⊢
    omega)
  have htext : writeMember L ascii depth member ++ rest =
      '"' :: (member.1.toList.flatMap (escape ascii) ++ '"' :: ':' ::
        (List.replicate L.afterColon ' ' ++ (write L ascii depth member.2 ++ rest))) := by
    simp [writeMember, quoted]
  have hskip : skipSpace (List.replicate L.afterColon ' ' ++
      (write L ascii depth member.2 ++ rest)) = write L ascii depth member.2 ++ rest := by
    rw [skipSpace_append (isBlank_replicate _), hvalue, List.cons_append,
      skipSpace_cons hc.isBlank]
  rw [htext, memberBody, readString_flatMap]
  simp only [Option.bind_eq_bind, Option.bind_some, skipSpace_cons (c := ':') rfl, hskip, hread]
  rfl

theorem readsBack_obj {L : Layout} {ascii : Bool} {members : List (String × Json F)}
    (ih : ∀ member ∈ members, ReadsBack L ascii member.2) : ReadsBack L ascii (.obj members) := by
  intro depth n rest hfinite hrest hn
  have hmembers : ∀ member ∈ members, finite member.2 = true :=
    fun member hmember => (every_obj.mp hfinite member hmember).2
  obtain ⟨n, rfl⟩ := Nat.exists_eq_add_one.mpr (Nat.zero_lt_of_lt hn)
  have hwrite : write L ascii depth (.obj members) =
      L.enclosed depth '\x7b' '\x7d' (members.map (writeMember L ascii (depth + 1))) := by
    rw [write, writeMembers_eq_map]
  obtain ⟨text, htext⟩ : ∃ text, write L ascii depth (.obj members) ++ rest = '\x7b' :: text := by
    rw [hwrite]
    cases members <;> exact ⟨_, rfl⟩
  have hbody : enclosedBody '\x7d' (readMembers n) text = some (members, rest) := by
    have hstep (n : ℕ) (text : List Char) :
        (readMembers (n + 1) text : Option (List (String × Json F) × List Char)) =
          listBody '\x7d' (memberBody (readValue n)) (readMembers n) text := by rw [readMembers]
    refine enclosedBody_enclosed hstep ⟨by decide, rfl, ?_⟩ L depth (fun member hmember => ?_)
      (fun member hmember n rest hrest hn => ?_) (hwrite ▸ htext)
      (by rw [htext, List.length_cons] at hn; omega)
    · exact ends_cons (by decide) []
    · exact ⟨'"', _, rfl, rfl, by decide⟩
    · exact memberBody_append (ih member hmember) (hmembers member hmember) hrest hn
  rw [htext, readValue, valueBody, hbody]
  rfl

/-- Every value is read back from its text. -/
theorem readsBack (L : Layout) (ascii : Bool) (value : Json F) : ReadsBack L ascii value := by
  induction value using nestedInduction with
  | scalar value harr hobj => exact readsBack_scalar L ascii harr hobj
  | array items ih => exact readsBack_arr ih
  | object members ih => exact readsBack_obj ih

/-- `json.loads` of a written value with finite numbers, with white space after it, is the value. -/
theorem load_write (L : Layout) (ascii : Bool) {value : Json F} (hfinite : finite value = true)
    {blanks : List Char} (hblanks : ∀ c ∈ blanks, isBlank c = true) :
    load (write L ascii 0 value ++ blanks) = some value := by
  have hends : Ends blanks := by
    intro c hc
    have hcases : c = ' ' ∨ c = '\t' ∨ c = '\n' ∨ c = '\r' := by
      simpa [isBlank, or_assoc] using hblanks c (List.mem_of_mem_head? hc)
    rcases hcases with rfl | rfl | rfl | rfl <;> decide
  have hskip : skipSpace (write L ascii 0 value ++ blanks) = write L ascii 0 value ++ blanks := by
    obtain ⟨c, tail, hvalue, hc⟩ := exists_cons_write L ascii 0 hfinite
    rw [hvalue, List.cons_append, skipSpace_cons hc.isBlank]
  have hend : skipSpace blanks = [] := by simpa [skipSpace] using hblanks
  have hread := readsBack L ascii value 0 _ blanks hfinite hends (Nat.lt_succ_self _)
  rw [load, hskip, hread]
  exact if_pos hend

/-! ## Sorted keys keep the document -/

/-- A value with its keys sorted is the same document. -/
theorem same_sortKeys {F : Type} {value : Json F} (h : value.distinct = true) :
    Json.Same value (sortKeys value) := by
  induction value using nestedInduction with
  | scalar value harr hobj =>
      rw [sortKeys_scalar harr hobj]
      exact .refl value
  | array items ih =>
      rw [Json.distinct, Json.distinctItems_iff] at h
      rw [sortKeys, sortItems_eq_map]
      exact .array (List.forall₂_map_right_iff.mpr (List.forall₂_same.mpr fun item hitem =>
        ih item hitem (h item hitem)))
  | object members ih =>
      obtain ⟨hnodup, hdistinct⟩ := Json.distinct_obj.mp h
      obtain ⟨sorted, hsorted, hperm, -⟩ := sortKeys_obj hnodup
      have hkeys : (sorted.map Prod.fst).Nodup := by
        rw [(hperm.map Prod.fst).nodup_iff, List.map_map]
        exact hnodup
      rw [hsorted]
      refine same_obj hnodup hkeys fun key => ?_
      cases hvalue : (Dict.ofList members).get? key with
      | some value =>
          have hmem := (get?_ofDict_eq_some_iff hnodup).mp hvalue
          have hmem' : (key, sortKeys value) ∈ sorted :=
            hperm.mem_iff.mpr (List.mem_map_of_mem (f := fun member => (member.1, _)) hmem)
          rw [(get?_ofDict_eq_some_iff hkeys).mpr hmem']
          exact .some (ih (key, value) hmem (hdistinct key value hmem))
      | none =>
          cases hvalue' : (Dict.ofList sorted).get? key with
          | none => exact .none
          | some value' =>
              -- a key of the sorted object is a key of the object
              have hmem' := hperm.mem_iff.mp ((get?_ofDict_eq_some_iff hkeys).mp hvalue')
              obtain ⟨⟨key', value⟩, hmem, heq⟩ := List.mem_map.mp hmem'
              obtain ⟨rfl, -⟩ := Prod.mk.inj heq
              rw [(get?_ofDict_eq_some_iff hnodup).mpr hmem] at hvalue
              cases hvalue

/-- What an object stores under a key when its keys are sorted. -/
theorem get?_sortKeys {F : Type} {members sorted : List (String × Json F)}
    (hnodup : (members.map Prod.fst).Nodup) (h : sortKeys (.obj members) = .obj sorted)
    (key : String) :
    (Dict.ofList sorted).get? key = ((Dict.ofList members).get? key).map sortKeys := by
  obtain ⟨sorted', hsorted, hperm, -⟩ := sortKeys_obj hnodup
  obtain rfl : sorted' = sorted := Json.obj.inj (hsorted.symm.trans h)
  have hkeys : (sorted'.map Prod.fst).Nodup := by
    rw [(hperm.map Prod.fst).nodup_iff, List.map_map]
    exact hnodup
  refine Option.ext fun value => ?_
  rw [get?_ofDict_eq_some_iff hkeys, hperm.mem_iff, List.mem_map, Option.map_eq_some_iff]
  constructor
  · rintro ⟨⟨key', value'⟩, hmem, heq⟩
    obtain ⟨rfl, rfl⟩ := Prod.mk.inj heq
    exact ⟨value', (get?_ofDict_eq_some_iff hnodup).mpr hmem, rfl⟩
  · rintro ⟨value', hvalue, rfl⟩
    exact ⟨(key, value'), (get?_ofDict_eq_some_iff hnodup).mp hvalue, rfl⟩

/-- Sorting keys twice is sorting them once. -/
theorem sortKeys_sortKeys {F : Type} (value : Json F) :
    sortKeys (sortKeys value) = sortKeys value := by
  induction value using nestedInduction with
  | scalar value harr hobj => rw [sortKeys_scalar harr hobj, sortKeys_scalar harr hobj]
  | array items ih =>
      rw [sortKeys, sortKeys, sortItems_eq_map, sortItems_eq_map, List.map_map]
      exact congrArg Json.arr (List.map_congr_left ih)
  | object members ih =>
      -- every member that is kept has been sorted, and they stand in order
      set kept := (Dict.ofList (sortMembers members)).entries with hkept
      have htotal : Std.Total fun a b : String × Json F => a.1 ≤ b.1 := ⟨fun a b => le_total a.1 b.1⟩
      have htrans : IsTrans (String × Json F) fun a b => a.1 ≤ b.1 := ⟨fun _ _ _ => le_trans⟩
      have hfirst : sortKeys (.obj members) = .obj (kept.insertionSort fun a b => a.1 ≤ b.1) := by
        rw [sortKeys]
      have hperm := List.perm_insertionSort (fun a b : String × Json F => a.1 ≤ b.1) kept
      have hpair := List.pairwise_insertionSort (fun a b : String × Json F => a.1 ≤ b.1) kept
      have hnodup : ((kept.insertionSort fun a b => a.1 ≤ b.1).map Prod.fst).Nodup := by
        rw [(hperm.map Prod.fst).nodup_iff]
        exact (Dict.ofList (sortMembers members)).nodup
      obtain ⟨sorted, hsorted, hperm', hpair'⟩ := sortKeys_obj hnodup
      have hmap : (kept.insertionSort fun a b => a.1 ≤ b.1).map
          (fun member => (member.1, sortKeys member.2)) =
            kept.insertionSort fun a b => a.1 ≤ b.1 := by
        refine (List.map_congr_left fun member hmember => ?_).trans (List.map_id _)
        have hget := Dict.get?_eq_some_iff.mpr (hperm.mem_iff.mp hmember)
        have hmem := Dict.mem_of_get?_ofList hget
        rw [sortMembers_eq_map] at hmem
        obtain ⟨member', hmember', heq⟩ := List.mem_map.mp hmem
        have hvalue : member.2 = sortKeys member'.2 := (Prod.mk.inj heq).2.symm
        rw [hvalue, ih member' hmember', ← hvalue]
        rfl
      rw [hmap] at hperm'
      have hkeys : (sorted.map Prod.fst).Nodup := by
        rw [(hperm'.map Prod.fst).nodup_iff]
        exact hnodup
      rw [hfirst, hsorted, eq_of_perm_of_sorted hperm' hkeys hpair' hpair]

end JsonText

/-! ## Exact fractions with texts that read back -/

/-- What stands before and after the first occurrence of a character. -/
def splitAt? (c : Char) (text : List Char) : Option (List Char × List Char) :=
  if c ∈ text then some (text.takeWhile (· ≠ c), (text.dropWhile (· ≠ c)).drop 1) else none

/-- The text conversions of exact fractions, for evaluations on concrete values: an integral number
is written with a point, as Python writes it, and any other as its numerator and denominator. Both
are read back. -/
@[reducible] def PyText.fraction : PyText ℚ where
  truthy x := x ≠ 0
  text := @PyText.text ℚ PyText.decimal
  quote s := "'" ++ s ++ "'"
  strip := asciiStrip
  lower := asciiLower
  ofText s :=
    match splitAt? 'e' s.toList with
    | some (whole, denominator) =>
        some (JsonText.integerValue whole / JsonText.integerValue denominator)
    | none => (splitAt? '.' s.toList).map fun parts => (JsonText.integerValue parts.1 : ℚ)
  intOfText := decimalInt?

namespace PyText.fraction

open JsonText

theorem splitAt?_append {c : Char} {text : List Char} (h : c ∉ text) (rest : List Char) :
    splitAt? c (text ++ c :: rest) = some (text, rest) := by
  have hne : ∀ x ∈ text, decide (x ≠ c) = true := by
    rintro x hx
    exact decide_eq_true fun heq => h (heq ▸ hx)
  rw [splitAt?, if_pos (by simp), List.takeWhile_append_of_pos hne, List.dropWhile_append_of_pos hne]
  simp

theorem splitAt?_of_not_mem {c : Char} {text : List Char} (h : c ∉ text) :
    splitAt? c text = none := if_neg h

/-- A fraction is read back from its text. -/
theorem ofText_text (x : ℚ) :
    @PyText.ofText ℚ PyText.fraction (@PyText.text ℚ PyText.fraction x) = some x := by
  have hint (c : Char) (hc : c = '.' ∨ c = 'e') (n : ℤ) : c ∉ n.repr.toList := by
    intro h
    rcases hc with rfl | rfl
    · exact (isNumeral_int _ h).2.1 rfl
    · exact (isNumeral_int _ h).2.2 rfl
  show (match splitAt? 'e' (@PyText.text ℚ PyText.decimal x).toList with
    | some (whole, denominator) => some (integerValue whole / integerValue denominator : ℚ)
    | none => (splitAt? '.' (@PyText.text ℚ PyText.decimal x).toList).map
        fun parts => (integerValue parts.1 : ℚ)) = some x
  rw [PyText.decimal.toList_text]
  by_cases hden : x.den = 1
  · have hnone : splitAt? 'e' (x.num.repr.toList ++ ['.', '0']) = none :=
      splitAt?_of_not_mem (by simp [hint 'e' (Or.inr rfl)])
    rw [if_pos hden, hnone, splitAt?_append (hint '.' (Or.inl rfl) _)]
    simp only [Option.map_some, integerValue_repr]
    exact congrArg some (Rat.ext rfl hden.symm)
  · rw [if_neg hden, splitAt?_append (hint 'e' (Or.inr rfl) _)]
    simp only [integerValue_repr]
    exact congrArg some (Rat.num_div_den x)

theorem digits_repr (m : ℕ) : Digits m.repr.toList := by
  refine ⟨?_, fun _ => isDigit_of_mem_repr⟩
  rw [Nat.toList_repr]
  exact Nat.toDigits_ne_nil

theorem floatNumeral : @FloatNumeral ℚ PyText.fraction _ := by
  refine @FloatNumeral.mk ℚ PyText.fraction _ (fun {x} _ => ?_) fun {x} _ => ofText_text x
  show IsFloat (@PyText.text ℚ PyText.decimal x).toList
  rw [PyText.decimal.toList_text]
  split
  · refine ⟨_, ['.', '0'], [], (List.append_nil _).symm, isWhole_repr _,
      Or.inr ⟨['0'], rfl, by simp [Digits]⟩, Or.inl rfl, Or.inl (by simp)⟩
  · refine ⟨x.num.repr.toList, [], 'e' :: x.den.repr.toList, by rw [List.append_nil]; rfl,
      isWhole_repr _, Or.inl rfl, Or.inr ⟨[], _, rfl, by simp, digits_repr _⟩,
      Or.inr (by simp)⟩

end PyText.fraction
