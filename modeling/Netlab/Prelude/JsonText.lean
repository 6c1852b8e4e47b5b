import Mathlib.Data.List.Sort
import Mathlib.Data.String.Basic
import Netlab.Prelude.Float
import Netlab.Prelude.Merge

/-!
# JSON texts

`json.dumps` with sorted keys and without white space, as `canonical_json` functions call it:
`sortKeys` puts the members of every object in the order of their keys, and `render` writes a value
down, with every character outside printable ASCII escaped or with only the characters escaped that
have to be.

* `render_injective`: values with finite numbers are written differently unless they are equal;
* `sortKeys_eq_iff`: values agree once their keys are sorted exactly when they are the same document;
* `render_ascii_eq_iff`: the two ways to write a value agree exactly when all its characters are
  printable ASCII or escaped both ways.
-/

namespace JsonText

/-! ## Characters -/

/-- An escape of one UTF-16 unit, in four hexadecimal digits. -/
def escapeUnit (n : ℕ) : List Char :=
  ['\\', 'u', Nat.digitChar (n / 4096 % 16), Nat.digitChar (n / 256 % 16),
    Nat.digitChar (n / 16 % 16), Nat.digitChar (n % 16)]

/-- The character that stands after a backslash for the given one. -/
def shortEscape? (c : Char) : Option Char :=
  if c = '"' then some '"'
  else if c = '\\' then some '\\'
  else if c = '\n' then some 'n'
  else if c = '\r' then some 'r'
  else if c = '\t' then some 't'
  else if c = '\x0c' then some 'f'
  else if c = '\x08' then some 'b'
  else none

/-- The character is written as it is, where `ascii` tells whether every character outside printable
ASCII is escaped. -/
def IsPlain (ascii : Bool) (c : Char) : Prop := 0x20 ≤ c.toNat ∧ (ascii = true → c.toNat ≤ 0x7e)

instance (ascii : Bool) (c : Char) : Decidable (IsPlain ascii c) := inferInstanceAs (Decidable (_ ∧ _))

/-- How a character is written in a string. -/
def escape (ascii : Bool) (c : Char) : List Char :=
  match shortEscape? c with
  | some short => ['\\', short]
  | none =>
      if IsPlain ascii c then [c]
      else if c.toNat < 0x10000 then escapeUnit c.toNat
      else escapeUnit (0xd800 + (c.toNat - 0x10000) / 1024) ++
        escapeUnit (0xdc00 + (c.toNat - 0x10000) % 1024)

/-- How a string is written. -/
def quoted (ascii : Bool) (s : String) : List Char :=
  '"' :: (s.toList.flatMap (escape ascii) ++ ['"'])

/-- The value of a hexadecimal digit in lower case. -/
def hexValue (c : Char) : ℕ := if c.isDigit then c.toNat - 48 else c.toNat - 87

/-- The unit that four hexadecimal digits stand for. -/
def unitValue (a b c d : Char) : ℕ :=
  4096 * hexValue a + 256 * hexValue b + 16 * hexValue c + hexValue d

/-- The character that a letter after a backslash stands for. -/
def shortValue (c : Char) : Char :=
  if c = 'n' then '\n' else if c = 'r' then '\r' else if c = 't' then '\t'
  else if c = 'f' then '\x0c' else if c = 'b' then '\x08' else c

/-- The character that starts with a unit, with what is written after it. -/
def unescapeUnit (n : ℕ) (rest : List Char) : Option (Char × List Char) :=
  if 0xd800 ≤ n ∧ n < 0xdc00 then
    match rest with
    | '\\' :: 'u' :: a :: b :: c :: d :: rest =>
        some (.ofNat (0x10000 + 1024 * (n - 0xd800) + (unitValue a b c d - 0xdc00)), rest)
    | _ => none
  else some (.ofNat n, rest)

/-- The first character of the inside of a string, with what is written after it. -/
def unescape : List Char → Option (Char × List Char)
  | '\\' :: 'u' :: a :: b :: c :: d :: rest => unescapeUnit (unitValue a b c d) rest
  | '\\' :: short :: rest => some (shortValue short, rest)
  | c :: rest => some (c, rest)
  | [] => none

theorem hexValue_digitChar {n : ℕ} (h : n < 16) : hexValue (Nat.digitChar n) = n := by
  revert n
  decide

theorem unitValue_digits {n : ℕ} (h : n < 0x10000) :
    unitValue (Nat.digitChar (n / 4096 % 16)) (Nat.digitChar (n / 256 % 16))
      (Nat.digitChar (n / 16 % 16)) (Nat.digitChar (n % 16)) = n := by
  simp only [unitValue, hexValue_digitChar (Nat.mod_lt _ (by norm_num : 0 < 16))]
  omega

/-- A letter that stands for a character is no `u`, and stands for that one only. -/
theorem shortEscape?_spec {c short : Char} (h : shortEscape? c = some short) :
    short ≠ 'u' ∧ shortValue short = c := by
  simp only [shortEscape?] at h
  repeat' split at h
  all_goals first
    | (obtain rfl := Option.some.inj h; subst_vars; decide)
    | cases h

/-- A character that no letter stands for is neither a backslash nor a quotation mark. -/
theorem ne_of_shortEscape?_eq_none {c : Char} (h : shortEscape? c = none) : c ≠ '\\' ∧ c ≠ '"' := by
  constructor
  · rintro rfl
    exact absurd h (by decide)
  · rintro rfl
    exact absurd h (by decide)

/-- Reading a character that is written as it is. -/
theorem unescape_plain {c : Char} (h : c ≠ '\\') (rest : List Char) :
    unescape (c :: rest) = some (c, rest) := by
  rw [unescape]
  · intro a b c' d rest' hc
    exact absurd hc h
  · intro short rest' hc
    exact absurd hc h

/-- Reading a letter after a backslash. -/
theorem unescape_short {short : Char} (h : short ≠ 'u') (rest : List Char) :
    unescape ('\\' :: short :: rest) = some (shortValue short, rest) := by
  rw [unescape]
  intro a b c d rest' hshort
  exact absurd hshort h

/-- Reading a unit that is no first half of a pair. -/
theorem unescape_unit {n : ℕ} (h : n < 0x10000) (hpair : n < 0xd800 ∨ 0xdc00 ≤ n)
    (rest : List Char) : unescape (escapeUnit n ++ rest) = some (.ofNat n, rest) := by
  show unescape ('\\' :: 'u' :: _ :: _ :: _ :: _ :: rest) = _
  rw [unescape, unitValue_digits h]
  exact if_neg (by omega)

/-- Reading a pair of units. -/
theorem unescape_pair {n m : ℕ} (hn : 0xd800 ≤ n ∧ n < 0xdc00) (hm : m < 0x10000)
    (rest : List Char) :
    unescape (escapeUnit n ++ (escapeUnit m ++ rest)) =
      some (.ofNat (0x10000 + 1024 * (n - 0xd800) + (m - 0xdc00)), rest) := by
  show unescape ('\\' :: 'u' :: _ :: _ :: _ :: _ :: '\\' :: 'u' :: _ :: _ :: _ :: _ :: rest) = _
  rw [unescape, unitValue_digits (by omega), unescapeUnit, if_pos hn]
  simp only [unitValue_digits hm]

/-- Reading a written character gives it back. -/
theorem unescape_escape (ascii : Bool) (c : Char) (rest : List Char) :
    unescape (escape ascii c ++ rest) = some (c, rest) := by
  have hvalid : c.toNat < 0xd800 ∨ 0xdfff < c.toNat ∧ c.toNat < 0x110000 := c.valid
  unfold escape
  split
  next short hshort =>
    obtain ⟨hu, hvalue⟩ := shortEscape?_spec hshort
    exact (unescape_short hu rest).trans (by rw [hvalue])
  next hshort =>
    split
    next => exact unescape_plain (ne_of_shortEscape?_eq_none hshort).1 rest
    next =>
      split
      next hunit => rw [unescape_unit hunit (by omega), Char.ofNat_toNat]
      next hpair =>
        rw [List.append_assoc, unescape_pair (by omega) (by omega)]
        have hvalue : 0x10000 + 1024 * (0xd800 + (c.toNat - 0x10000) / 1024 - 0xd800) +
            (0xdc00 + (c.toNat - 0x10000) % 1024 - 0xdc00) = c.toNat := by omega
        rw [hvalue, Char.ofNat_toNat]

/-- No written character starts with the mark that ends a string. -/
theorem head?_escape (ascii : Bool) (c : Char) :
    ∃ first rest, escape ascii c = first :: rest ∧ first ≠ '"' := by
  unfold escape
  split
  next => exact ⟨_, _, rfl, by decide⟩
  next hshort =>
    split
    next => exact ⟨_, _, rfl, (ne_of_shortEscape?_eq_none hshort).2⟩
    next =>
      split
      next => exact ⟨_, _, rfl, by decide⟩
      next => exact ⟨_, _, rfl, by decide⟩

/-- The inside of a string and what follows it can be read off. -/
theorem flatMap_escape_append_inj (ascii : Bool) {cs ds s t : List Char}
    (h : cs.flatMap (escape ascii) ++ '"' :: s = ds.flatMap (escape ascii) ++ '"' :: t) :
    cs = ds ∧ s = t := by
  induction cs generalizing ds with
  | nil =>
      cases ds with
      | nil => simpa using h
      | cons d ds =>
          obtain ⟨first, rest, hd, hfirst⟩ := head?_escape ascii d
          simp only [List.flatMap_nil, List.nil_append, List.flatMap_cons, hd, List.cons_append,
            List.cons.injEq] at h
          -- no escape begins with the quote that ends the text
          exact absurd h.1.symm hfirst
  | cons c cs ih =>
      cases ds with
      | nil =>
          obtain ⟨first, rest, hc, hfirst⟩ := head?_escape ascii c
          simp only [List.flatMap_nil, List.nil_append, List.flatMap_cons, hc, List.cons_append,
            List.cons.injEq] at h
          exact absurd h.1 hfirst
      | cons d ds =>
          simp only [List.flatMap_cons, List.append_assoc] at h
          -- the first escape can be read back without knowing where it ends
          have hread := congrArg unescape h
          rw [unescape_escape, unescape_escape, Option.some.injEq, Prod.mk.injEq] at hread
          obtain ⟨rfl, hrest⟩ := hread
          obtain ⟨rfl, rfl⟩ := ih hrest
          exact ⟨rfl, rfl⟩

/-- A written string and what follows it can be read off. -/
theorem quoted_append_inj (ascii : Bool) {a b : String} {s t : List Char}
    (h : quoted ascii a ++ s = quoted ascii b ++ t) : a = b ∧ s = t := by
  simp only [quoted, List.cons_append, List.append_assoc, List.cons.injEq, true_and,
    List.nil_append] at h
  obtain ⟨hchars, hrest⟩ := flatMap_escape_append_inj ascii h
  exact ⟨String.toList_inj.mp hchars, hrest⟩

end JsonText

/-! ## Values -/

/-- What is documented of the text of a float: a finite one is written in digits, with a point or an
exponent, and is read back from its text. -/
class FloatRepr (F : Type) [PyText F] [PyFloat F] : Prop where
  text_injective {x y : F} : PyFloat.isFinite x = true → PyFloat.isFinite y = true →
    PyText.text x = PyText.text y → x = y
  text_number {x : F} : PyFloat.isFinite x = true →
    ∀ c ∈ (PyText.text x).toList, c.isDigit ∨ c ∈ ['-', '+', '.', 'e']
  text_float {x : F} : PyFloat.isFinite x = true →
    '.' ∈ (PyText.text x).toList ∨ 'e' ∈ (PyText.text x).toList

namespace JsonText

/-- `','.join(pieces)`. -/
def joined : List (List Char) → List Char
  | [] => []
  | [piece] => piece
  | piece :: next :: pieces => piece ++ ',' :: joined (next :: pieces)

variable {F : Type}

section Render

variable [PyText F] [PyFloat F]

/-- How a float is written. -/
def floatText (x : F) : String :=
  if PyFloat.isFinite x then PyText.text x
  else if PyText.text x = "nan" then "NaN"
  else if PyText.text x = "inf" then "Infinity"
  else "-Infinity"

mutual

/-- How a value is written, with the members of an object in the order in which they stand. -/
def render (ascii : Bool) : Json F → List Char
  | .null => ['n', 'u', 'l', 'l']
  | .bool b => if b then ['t', 'r', 'u', 'e'] else ['f', 'a', 'l', 's', 'e']
  | .int n => n.repr.toList
  | .float x => (floatText x).toList
  | .str s => quoted ascii s
  | .arr items => '[' :: (joined (renderItems ascii items) ++ [']'])
  | .obj members => '\x7b' :: (joined (renderMembers ascii members) ++ ['\x7d'])

/-- How the items of a list are written. -/
def renderItems (ascii : Bool) : List (Json F) → List (List Char)
  | [] => []
  | item :: items => render ascii item :: renderItems ascii items

/-- How the members of an object are written. -/
def renderMembers (ascii : Bool) : List (String × Json F) → List (List Char)
  | [] => []
  | (key, value) :: members =>
      (quoted ascii key ++ ':' :: render ascii value) :: renderMembers ascii members

end

end Render

mutual

/-- The value with the members of every object in the order of their keys. -/
def sortKeys : Json F → Json F
  | .arr items => .arr (sortItems items)
  | .obj members =>
      .obj ((Dict.ofList (sortMembers members)).entries.insertionSort fun a b => a.1 ≤ b.1)
  | value => value

/-- `sortKeys` for each item of a list. -/
def sortItems : List (Json F) → List (Json F)
  | [] => []
  | item :: items => sortKeys item :: sortItems items

/-- `sortKeys` for each member of an object. -/
def sortMembers : List (String × Json F) → List (String × Json F)
  | [] => []
  | (key, value) :: members => (key, sortKeys value) :: sortMembers members

end

mutual

/-- Every scalar inside a value has a property, and every key inside it. -/
def every (scalar : Json F → Bool) (name : String → Bool) : Json F → Bool
  | .arr items => everyItem scalar name items
  | .obj members => everyMember scalar name members
  | value => scalar value

/-- `every` for each item of a list. -/
def everyItem (scalar : Json F → Bool) (name : String → Bool) : List (Json F) → Bool
  | [] => true
  | item :: items => every scalar name item && everyItem scalar name items

/-- `every` for each member of an object. -/
def everyMember (scalar : Json F → Bool) (name : String → Bool) : List (String × Json F) → Bool
  | [] => true
  | (key, value) :: members => name key && every scalar name value && everyMember scalar name members

end

/-- The value is no number that is not finite. -/
def finiteScalar [PyFloat F] : Json F → Bool
  | .float x => PyFloat.isFinite x
  | _ => true

/-- No number inside the value is infinite or no number. -/
def finite [PyFloat F] (value : Json F) : Bool := every finiteScalar (fun _ => true) value

/-- All characters of a string are printable ASCII or have to be escaped. -/
def plainText (s : String) : Bool := s.toList.all fun c => decide (c.toNat ≤ 0x7e)

/-- The value is no string with a character after printable ASCII. -/
def plainScalar : Json F → Bool
  | .str s => plainText s
  | _ => true

/-- No string or key inside the value has a character after printable ASCII. -/
def plain (value : Json F) : Bool := every plainScalar plainText value

theorem renderItems_eq_map [PyText F] [PyFloat F] (ascii : Bool) (items : List (Json F)) :
    renderItems ascii items = items.map (render ascii) := by
  induction items with
  | nil => rfl
  | cons item items ih => rw [renderItems, ih, List.map_cons]

theorem renderMembers_eq_map [PyText F] [PyFloat F] (ascii : Bool)
    (members : List (String × Json F)) :
    renderMembers ascii members =
      members.map fun member => quoted ascii member.1 ++ ':' :: render ascii member.2 := by
  induction members with
  | nil => rfl
  | cons member members ih => rw [renderMembers, ih, List.map_cons]

theorem sortItems_eq_map (items : List (Json F)) : sortItems items = items.map sortKeys := by
  induction items with
  | nil => rfl
  | cons item items ih => rw [sortItems, ih, List.map_cons]

theorem sortMembers_eq_map (members : List (String × Json F)) :
    sortMembers members = members.map fun member => (member.1, sortKeys member.2) := by
  induction members with
  | nil => rfl
  | cons member members ih => rw [sortMembers, ih, List.map_cons]

theorem every_arr {scalar : Json F → Bool} {name : String → Bool} {items : List (Json F)} :
    every scalar name (.arr items) = true ↔ ∀ item ∈ items, every scalar name item = true := by
  rw [every]
  induction items with
  | nil => simp [everyItem]
  | cons item items ih => simp [everyItem, ih]

theorem every_obj {scalar : Json F → Bool} {name : String → Bool}
    {members : List (String × Json F)} :
    every scalar name (.obj members) = true ↔
      ∀ member ∈ members, name member.1 = true ∧ every scalar name member.2 = true := by
  rw [every]
  induction members with
  | nil => simp [everyMember]
  | cons member members ih => simp [everyMember, ih, and_assoc]

/-- Induction on the values inside a value. -/
theorem nestedInduction {motive : Json F → Prop}
    (scalar : ∀ value, (∀ items, value ≠ .arr items) → (∀ members, value ≠ .obj members) →
      motive value)
    (array : ∀ items, (∀ item ∈ items, motive item) → motive (.arr items))
    (object : ∀ members, (∀ member ∈ members, motive member.2) → motive (.obj members))
    (value : Json F) : motive value := by
  match value with
  | .arr items =>
      refine array items fun item hitem => ?_
      have := List.sizeOf_lt_of_mem hitem
      exact nestedInduction scalar array object item
  | .obj members =>
      refine object members fun member hmember => ?_
      have hsize := List.sizeOf_lt_of_mem hmember
      have hpair : sizeOf member.2 < sizeOf member := by
        rcases member with ⟨key, item⟩
        simp only [Prod.mk.sizeOf_spec]
        omega
      exact nestedInduction scalar array object member.2
  | .null => exact scalar _ (by simp) (by simp)
  | .bool _ => exact scalar _ (by simp) (by simp)
  | .int _ => exact scalar _ (by simp) (by simp)
  | .float _ => exact scalar _ (by simp) (by simp)
  | .str _ => exact scalar _ (by simp) (by simp)
termination_by sizeOf value

/-! ## Different values are written differently -/

section Injective

variable [PyText F] [PyFloat F] [FloatRepr F]

/-- The character can stand in a number. -/
def IsNumeral (c : Char) : Prop := c.isDigit ∨ c ∈ ['-', '+', '.', 'e']

instance (c : Char) : Decidable (IsNumeral c) := inferInstanceAs (Decidable (_ ∨ _))

/-- What follows a value does not go on with a number. -/
def Stops (rest : List Char) : Prop := ∀ c ∈ rest.head?, ¬ IsNumeral c

/-- A number and what follows it can be read off. -/
theorem numeral_append_inj {a b s t : List Char} (ha : ∀ c ∈ a, IsNumeral c)
    (hb : ∀ c ∈ b, IsNumeral c) (hs : Stops s) (ht : Stops t) (h : a ++ s = b ++ t) :
    a = b ∧ s = t := by
  have htake : ∀ {a s : List Char}, (∀ c ∈ a, IsNumeral c) → Stops s →
      (a ++ s).takeWhile (fun c => decide (IsNumeral c)) = a := by
    intro a s ha hs
    rw [List.takeWhile_append_of_pos (by simpa using ha)]
    cases s with
    | nil => simp
    | cons c s => rw [List.takeWhile_cons_of_neg (by simpa using hs c rfl), List.append_nil]
  have hab : a = b := by rw [← htake ha hs, h, htake hb ht]
  subst hab
  exact ⟨rfl, List.append_cancel_left h⟩

/-- The digits of an integer. -/
theorem isNumeral_int {n : ℤ} : ∀ c ∈ n.repr.toList, IsNumeral c ∧ c ≠ '.' ∧ c ≠ 'e' := by
  have hdigits : ∀ m : ℕ, ∀ c ∈ m.repr.toList, c.isDigit = true := by
    intro m c hc
    rw [Nat.toList_repr] at hc
    exact Nat.isDigit_of_mem_toDigits (by norm_num) (by norm_num) hc
  have hdigit : ∀ c : Char, c.isDigit = true → IsNumeral c ∧ c ≠ '.' ∧ c ≠ 'e' := by
    intro c hc
    refine ⟨Or.inl hc, ?_, ?_⟩
    · rintro rfl
      exact absurd hc (by decide)
    · rintro rfl
      exact absurd hc (by decide)
  intro c hc
  cases n with
  | ofNat m => exact hdigit c (hdigits m c hc)
  | negSucc m =>
      have hcases : c = '-' ∨ c ∈ (m + 1).repr.toList := by
        simpa [Int.repr] using hc
      rcases hcases with rfl | hc
      · exact ⟨Or.inr (by decide), by decide, by decide⟩
      · exact hdigit c (hdigits _ c hc)

/-- An integer has a digit. -/
theorem int_ne_nil (n : ℤ) : n.repr.toList ≠ [] := by
  cases n with
  | ofNat m =>
      show m.repr.toList ≠ []
      rw [Nat.toList_repr]
      exact Nat.toDigits_ne_nil
  | negSucc m => simp [Int.repr]

/-- The characters of a finite float. -/
theorem isNumeral_float {x : F} (h : PyFloat.isFinite x = true) :
    ∀ c ∈ (floatText x).toList, IsNumeral c := by
  rw [floatText, if_pos h]
  exact FloatRepr.text_number h

/-- An integer is not written like a finite float. -/
theorem int_ne_float {n : ℤ} {x : F} (h : PyFloat.isFinite x = true) :
    n.repr.toList ≠ (floatText x).toList := by
  intro heq
  rw [floatText, if_pos h] at heq
  rcases FloatRepr.text_float h with hmem | hmem
  · exact (isNumeral_int _ (heq ▸ hmem)).2.1 rfl
  · exact (isNumeral_int _ (heq ▸ hmem)).2.2 rfl

/-- The first character of a value that is no number. -/
def mark : Json F → Option Char
  | .null => some 'n'
  | .bool b => some (if b then 't' else 'f')
  | .int _ => none
  | .float _ => none
  | .str _ => some '"'
  | .arr _ => some '['
  | .obj _ => some '\x7b'

/-- A text of numerals that is not empty starts like a number. -/
theorem exists_cons_of_numerals {text : List Char} (hne : text ≠ [])
    (h : ∀ c ∈ text, IsNumeral c) :
    ∃ c rest, text = c :: rest ∧ none = if IsNumeral c then none else some c := by
  obtain ⟨c, rest, rfl⟩ := List.exists_cons_of_ne_nil hne
  exact ⟨c, rest, rfl, (if_pos (h c (List.mem_cons_self ..))).symm⟩

/-- A value starts with its mark, or with a character of a number. -/
theorem exists_cons_render (ascii : Bool) {value : Json F} (h : finite value = true) :
    ∃ c rest, render ascii value = c :: rest ∧
      mark value = if IsNumeral c then none else some c := by
  cases value with
  | null => exact ⟨'n', _, rfl, (if_neg (by decide)).symm⟩
  | bool b =>
      cases b with
      | true => exact ⟨'t', _, rfl, (if_neg (by decide)).symm⟩
      | false => exact ⟨'f', _, rfl, (if_neg (by decide)).symm⟩
  | int n =>
      exact exists_cons_of_numerals (int_ne_nil n) fun c hc => (isNumeral_int c hc).1
  | float x =>
      refine exists_cons_of_numerals ?_ (isNumeral_float h)
      intro hnil
      have hfinite : PyFloat.isFinite x = true := h
      change (floatText x).toList = [] at hnil
      rw [floatText, if_pos hfinite] at hnil
      rcases FloatRepr.text_float hfinite with hmem | hmem <;> rw [hnil] at hmem <;> cases hmem
  | str s => exact ⟨'"', _, rfl, (if_neg (by decide)).symm⟩
  | arr items => exact ⟨'[', _, rfl, (if_neg (by decide)).symm⟩
  | obj members => exact ⟨'\x7b', _, rfl, (if_neg (by decide)).symm⟩

/-- Values that are written alike up to what follows them start alike. -/
theorem mark_eq_of_append_eq {ascii : Bool} {a b : Json F} {s t : List Char}
    (ha : finite a = true) (hb : finite b = true)
    (h : render ascii a ++ s = render ascii b ++ t) : mark a = mark b := by
  obtain ⟨c, rest, hc, hmarka⟩ := exists_cons_render ascii ha
  obtain ⟨d, rest', hd, hmarkb⟩ := exists_cons_render ascii hb
  rw [hc, hd] at h
  obtain rfl : c = d := (List.cons.inj h).1
  rw [hmarka, hmarkb]

/-- A value and what follows it can be read off. -/
def ReadsOff (ascii : Bool) (a : Json F) : Prop :=
  ∀ {b : Json F} {s t : List Char}, finite a = true → finite b = true → Stops s → Stops t →
    render ascii a ++ s = render ascii b ++ t → a = b ∧ s = t

/-- What follows the first piece of a list. -/
def afterFirst : List (List Char) → List Char
  | [] => []
  | pieces => ',' :: joined pieces

omit [PyText F] [PyFloat F] [FloatRepr F] in
theorem joined_cons (piece : List Char) (pieces : List (List Char)) :
    joined (piece :: pieces) = piece ++ afterFirst pieces := by
  cases pieces with
  | nil => rw [joined, afterFirst, List.append_nil]
  | cons next pieces => rfl

/-- Pieces that can be read off can be read off from their list, when no piece starts with the mark
that ends it. -/
theorem joined_append_inj {α : Type} {piece : α → List Char} (ok : α → Prop) {close : Char}
    (hcomma : close ≠ ',') (hclose : ¬ IsNumeral close)
    (hhead : ∀ x, ok x → ∃ c rest, piece x = c :: rest ∧ c ≠ close)
    {xs : List α} (hxs : ∀ x ∈ xs, ok x) {ys : List α} (hys : ∀ y ∈ ys, ok y)
    (hread : ∀ x ∈ xs, ∀ y, ok y → ∀ s t, Stops s → Stops t → piece x ++ s = piece y ++ t →
      x = y ∧ s = t) {s t : List Char}
    (h : joined (xs.map piece) ++ close :: s = joined (ys.map piece) ++ close :: t) :
    xs = ys ∧ s = t := by
  have hstops : ∀ (zs : List α) (r : List Char),
      Stops (afterFirst (zs.map piece) ++ close :: r) := by
    intro zs r c hc
    cases zs with
    | nil => obtain rfl : close = c := Option.some.inj hc; exact hclose
    | cons z zs => obtain rfl : ',' = c := Option.some.inj hc; decide
  induction xs generalizing ys with
  | nil =>
      cases ys with
      | nil => exact ⟨rfl, (List.cons.inj h).2⟩
      | cons y ys =>
          obtain ⟨c, rest, hpiece, hne⟩ := hhead y (hys y (List.mem_cons_self ..))
          rw [List.map_cons, joined_cons, hpiece] at h
          exact absurd (List.cons.inj h).1.symm hne
  | cons x xs ih =>
      cases ys with
      | nil =>
          obtain ⟨c, rest, hpiece, hne⟩ := hhead x (hxs x (List.mem_cons_self ..))
          rw [List.map_cons, joined_cons, hpiece] at h
          exact absurd (List.cons.inj h).1 hne
      | cons y ys =>
          rw [List.map_cons, List.map_cons, joined_cons, joined_cons, List.append_assoc,
            List.append_assoc] at h
          obtain ⟨rfl, hrest⟩ := hread x (List.mem_cons_self ..) y (hys y (List.mem_cons_self ..))
            _ _ (hstops xs s) (hstops ys t) h
          -- both lists end here, or both go on
          cases xs with
          | nil =>
              cases ys with
              | nil => exact ⟨rfl, (List.cons.inj hrest).2⟩
              | cons y' ys => exact absurd (List.cons.inj hrest).1 hcomma
          | cons x' xs =>
              cases ys with
              | nil => exact absurd (List.cons.inj hrest).1.symm hcomma
              | cons y' ys =>
                  obtain ⟨htail, rfl⟩ := ih (fun z hz => hxs z (List.mem_cons_of_mem _ hz))
                    (fun z hz => hys z (List.mem_cons_of_mem _ hz))
                    (fun z hz => hread z (List.mem_cons_of_mem _ hz)) (List.cons.inj hrest).2
                  exact ⟨by rw [htail], rfl⟩

/-- No value starts with the mark that ends a list. -/
theorem exists_cons_render_ne (ascii : Bool) {value : Json F} (h : finite value = true) :
    ∃ c rest, render ascii value = c :: rest ∧ c ≠ ']' := by
  obtain ⟨c, rest, hrender, hmark⟩ := exists_cons_render ascii h
  refine ⟨c, rest, hrender, ?_⟩
  rintro rfl
  rw [if_neg (by decide)] at hmark
  cases value with
  | bool b => cases b <;> simp [mark] at hmark
  | _ => simp [mark] at hmark

theorem readsOff_arr {ascii : Bool} {items : List (Json F)}
    (ih : ∀ item ∈ items, ReadsOff ascii item) : ReadsOff ascii (.arr items) := by
  intro b s t ha hb hs ht h
  have hmark := mark_eq_of_append_eq ha hb h
  cases b with
  | arr items' =>
      simp only [render, renderItems_eq_map, List.cons_append, List.append_assoc, List.nil_append,
        List.cons.injEq, true_and] at h
      obtain ⟨rfl, rfl⟩ := joined_append_inj (fun value => finite value = true) (by decide)
        (by decide) (fun value => exists_cons_render_ne ascii) (every_arr.mp ha) (every_arr.mp hb)
        (fun item hitem value hvalue s t hs ht => ih item hitem (every_arr.mp ha item hitem) hvalue
          hs ht) h
      exact ⟨rfl, rfl⟩
  | bool b => cases b <;> simp [mark] at hmark
  | _ => simp [mark] at hmark

theorem readsOff_obj {ascii : Bool} {members : List (String × Json F)}
    (ih : ∀ member ∈ members, ReadsOff ascii member.2) : ReadsOff ascii (.obj members) := by
  intro b s t ha hb hs ht h
  have hmark := mark_eq_of_append_eq ha hb h
  cases b with
  | obj members' =>
      simp only [render, renderMembers_eq_map, List.cons_append, List.append_assoc,
        List.nil_append, List.cons.injEq, true_and] at h
      have hfinite {members : List (String × Json F)} (h : finite (.obj members) = true) :
          ∀ member ∈ members, finite member.2 = true :=
        fun member hmember => (every_obj.mp h member hmember).2
      -- a name is read off first, then its value
      have hread : ∀ member ∈ members, ∀ member' : String × Json F, finite member'.2 = true →
          ∀ s t, Stops s → Stops t →
            (quoted ascii member.1 ++ ':' :: render ascii member.2) ++ s =
              (quoted ascii member'.1 ++ ':' :: render ascii member'.2) ++ t →
            member = member' ∧ s = t := by
        rintro ⟨key, value⟩ hmember ⟨key', value'⟩ hvalue s t hs ht h
        rw [List.append_assoc, List.append_assoc] at h
        obtain ⟨rfl, hvalues⟩ := quoted_append_inj ascii h
        obtain ⟨rfl, rfl⟩ := ih _ hmember (hfinite ha _ hmember) hvalue hs ht
          (List.cons.inj hvalues).2
        exact ⟨rfl, rfl⟩
      obtain ⟨rfl, rfl⟩ := joined_append_inj (fun member => finite member.2 = true) (by decide)
        (by decide) (fun member _ => ⟨'"', _, rfl, by decide⟩) (hfinite ha) (hfinite hb) hread h
      exact ⟨rfl, rfl⟩
  | bool b => cases b <;> simp [mark] at hmark
  | _ => simp [mark] at hmark

theorem readsOff_scalar {ascii : Bool} {a : Json F} (harr : ∀ items, a ≠ .arr items)
    (hobj : ∀ members, a ≠ .obj members) : ReadsOff ascii a := by
  intro b s t ha hb hs ht h
  have hmark := mark_eq_of_append_eq ha hb h
  cases a with
  -- the first characters tell the kinds of values apart, numbers of the two kinds excepted
  | null =>
      cases b with
      | null => exact ⟨rfl, List.append_cancel_left h⟩
      | bool b => cases b <;> simp [mark] at hmark
      | _ => simp [mark] at hmark
  | bool a =>
      cases b with
      | bool b =>
          obtain rfl : a = b := by
            cases a <;> cases b <;> first | rfl | simp [mark] at hmark
          exact ⟨rfl, List.append_cancel_left h⟩
      | _ => cases a <;> simp [mark] at hmark
  | int n =>
      cases b with
      | int m =>
          obtain ⟨htext, rfl⟩ := numeral_append_inj (fun c hc => (isNumeral_int c hc).1)
            (fun c hc => (isNumeral_int c hc).1) hs ht h
          exact ⟨congrArg Json.int (intText_injective (String.toList_inj.mp htext)), rfl⟩
      | float x =>
          -- a float is written with a point or an exponent
          obtain ⟨htext, -⟩ := numeral_append_inj (fun c hc => (isNumeral_int c hc).1)
            (isNumeral_float hb) hs ht h
          exact absurd htext (int_ne_float hb)
      | bool b => cases b <;> simp [mark] at hmark
      | _ => simp [mark] at hmark
  | float x =>
      have hx : PyFloat.isFinite x = true := ha
      cases b with
      | int m =>
          obtain ⟨htext, -⟩ := numeral_append_inj (isNumeral_float hx)
            (fun c hc => (isNumeral_int c hc).1) hs ht h
          exact absurd htext.symm (int_ne_float hx)
      | float y =>
          have hy : PyFloat.isFinite y = true := hb
          obtain ⟨htext, rfl⟩ :=
            numeral_append_inj (isNumeral_float hx) (isNumeral_float hy) hs ht h
          rw [floatText, floatText, if_pos hx, if_pos hy, String.toList_inj] at htext
          exact ⟨congrArg Json.float (FloatRepr.text_injective hx hy htext), rfl⟩
      | bool b => cases b <;> simp [mark] at hmark
      | _ => simp [mark] at hmark
  | str a =>
      cases b with
      | str b =>
          obtain ⟨rfl, rfl⟩ := quoted_append_inj ascii h
          exact ⟨rfl, rfl⟩
      | bool b => cases b <;> simp [mark] at hmark
      | _ => simp [mark] at hmark
  | arr items => exact absurd rfl (harr items)
  | obj members => exact absurd rfl (hobj members)

/-- Every value can be read off. -/
theorem readsOff (ascii : Bool) (a : Json F) : ReadsOff ascii a := by
  induction a using nestedInduction with
  | scalar a harr hobj => exact readsOff_scalar harr hobj
  | array items ih => exact readsOff_arr ih
  | object members ih => exact readsOff_obj ih

/-- Values with finite numbers that are written alike are equal. -/
theorem render_injective {ascii : Bool} {a b : Json F} (ha : finite a = true)
    (hb : finite b = true) (h : render ascii a = render ascii b) : a = b := by
  have hstops : Stops [] := fun c hc => absurd hc (by simp)
  exact (readsOff ascii a ha hb hstops hstops (by rw [h])).1

end Injective

/-! ## Sorted keys -/

section Sorted

/-- What sorting the keys of an object gives: its members with their keys sorted, in the order of
their keys. -/
theorem sortKeys_obj {members : List (String × Json F)} (h : (members.map Prod.fst).Nodup) :
    ∃ sorted, sortKeys (.obj members) = .obj sorted ∧
      sorted.Perm (members.map fun member => (member.1, sortKeys member.2)) ∧
      sorted.Pairwise fun a b => a.1 ≤ b.1 := by
  have hentries : (Dict.ofList (sortMembers members)).entries =
      members.map fun member => (member.1, sortKeys member.2) := by
    rw [Dict.entries_ofList, sortMembers_eq_map]
    rw [sortMembers_eq_map, List.map_map]
    exact h
  have : Std.Total fun a b : String × Json F => a.1 ≤ b.1 := ⟨fun a b => le_total a.1 b.1⟩
  have : IsTrans (String × Json F) fun a b => a.1 ≤ b.1 := ⟨fun _ _ _ => le_trans⟩
  refine ⟨_, by rw [sortKeys, hentries], List.perm_insertionSort _ _, ?_⟩
  exact List.pairwise_insertionSort _ _

/-- Sorting keys keeps every property of the scalars and of the keys. -/
theorem every_sortKeys {scalar : Json F → Bool} {name : String → Bool} {value : Json F}
    (h : value.distinct = true) :
    every scalar name (sortKeys value) = true ↔ every scalar name value = true := by
  induction value using nestedInduction with
  | scalar value harr hobj =>
      cases value with
      | arr items => exact absurd rfl (harr items)
      | obj members => exact absurd rfl (hobj members)
      | _ => rfl
  | array items ih =>
      rw [Json.distinct, Json.distinctItems_iff] at h
      rw [sortKeys, every_arr, every_arr, sortItems_eq_map, List.forall_mem_map]
      exact forall₂_congr fun item hitem => ih item hitem (h item hitem)
  | object members ih =>
      obtain ⟨hnodup, hdistinct⟩ := Json.distinct_obj.mp h
      obtain ⟨sorted, hsorted, hperm, -⟩ := sortKeys_obj hnodup
      rw [hsorted, every_obj, every_obj]
      simp only [hperm.mem_iff, List.forall_mem_map]
      refine forall₂_congr fun member hmember => and_congr_right fun _ => ih member hmember ?_
      exact hdistinct member.1 member.2 hmember

/-- Lists of members with distinct keys that are in the order of their keys and store the same are
equal. -/
theorem eq_of_perm_of_sorted {a b : List (String × Json F)} (hperm : a.Perm b)
    (hnodup : (a.map Prod.fst).Nodup) (ha : a.Pairwise fun x y => x.1 ≤ y.1)
    (hb : b.Pairwise fun x y => x.1 ≤ y.1) : a = b := by
  refine hperm.eq_of_pairwise (fun x y hx hy hxy hyx => ?_) ha hb
  exact List.inj_on_of_nodup_map hnodup hx (hperm.mem_iff.mpr hy) (le_antisymm hxy hyx)

/-- What an object stores, as a relation of its members. -/
theorem get?_ofDict_eq_some_iff {members : List (String × Json F)}
    (h : (members.map Prod.fst).Nodup) {key : String} {value : Json F} :
    (Dict.ofList members).get? key = some value ↔ (key, value) ∈ members := by
  rw [Dict.get?_eq_some_iff, Dict.entries_ofList h]

/-- Objects store the same documents exactly when their members agree once sorted. -/
theorem sortKeys_obj_eq_iff {members members' : List (String × Json F)}
    (h : (members.map Prod.fst).Nodup) (h' : (members'.map Prod.fst).Nodup) :
    sortKeys (.obj members) = sortKeys (.obj members') ↔
      ∀ key, ((Dict.ofList members).get? key).map sortKeys =
        ((Dict.ofList members').get? key).map sortKeys := by
  obtain ⟨sorted, hsorted, hperm, hpair⟩ := sortKeys_obj h
  obtain ⟨sorted', hsorted', hperm', hpair'⟩ := sortKeys_obj h'
  have hmem : ∀ key value, (key, value) ∈ sorted ↔
      ((Dict.ofList members).get? key).map sortKeys = some value := by
    intro key value
    simp [hperm.mem_iff, get?_ofDict_eq_some_iff h]
  have hmem' : ∀ key value, (key, value) ∈ sorted' ↔
      ((Dict.ofList members').get? key).map sortKeys = some value := by
    intro key value
    simp [hperm'.mem_iff, get?_ofDict_eq_some_iff h']
  have hkeys : (sorted.map Prod.fst).Nodup := by
    rw [(hperm.map Prod.fst).nodup_iff, List.map_map]
    exact h
  have hkeys' : (sorted'.map Prod.fst).Nodup := by
    rw [(hperm'.map Prod.fst).nodup_iff, List.map_map]
    exact h'
  rw [hsorted, hsorted', Json.obj.injEq]
  constructor
  · rintro rfl key
    exact Option.ext fun value => by rw [← hmem, ← hmem']
  · intro hget
    -- two sorted lists with the same entries are the same
    refine eq_of_perm_of_sorted ?_ hkeys hpair hpair'
    refine (List.perm_ext_iff_of_nodup hkeys.of_map hkeys'.of_map).mpr ?_
    rintro ⟨key, value⟩
    rw [hmem, hmem', hget]

/-- Lists agree once the keys of their items are sorted exactly when their items are the same
documents, one by one. -/
theorem map_sortKeys_eq_iff {items : List (Json F)}
    (ih : ∀ item ∈ items, ∀ {b : Json F}, b.distinct = true →
      (sortKeys item = sortKeys b ↔ Json.Same item b))
    {items' : List (Json F)} (h' : ∀ item ∈ items', item.distinct = true) :
    items.map sortKeys = items'.map sortKeys ↔ List.Forall₂ Json.Same items items' := by
  induction items generalizing items' with
  | nil =>
      cases items' with
      | nil => simp
      | cons item' items' => simp
  | cons item items ihitems =>
      cases items' with
      | nil => simp
      | cons item' items' =>
          rw [List.map_cons, List.map_cons, List.cons.injEq, List.forall₂_cons,
            ih item (List.mem_cons_self ..) (h' item' (List.mem_cons_self ..)),
            ihitems (fun item hitem => ih item (List.mem_cons_of_mem _ hitem))
              fun item hitem => h' item (List.mem_cons_of_mem _ hitem)]

theorem sortKeys_scalar {a : Json F} (harr : ∀ items, a ≠ .arr items)
    (hobj : ∀ members, a ≠ .obj members) : sortKeys a = a := by
  cases a with
  | arr items => exact absurd rfl (harr items)
  | obj members => exact absurd rfl (hobj members)
  | _ => rfl

/-- Only objects become objects. -/
theorem exists_members_of_sortKeys {b : Json F} {members : List (String × Json F)}
    (h : sortKeys b = .obj members) : ∃ members', b = .obj members' := by
  cases b with
  | obj members' => exact ⟨members', rfl⟩
  | _ => simp [sortKeys] at h

/-- Only lists become lists. -/
theorem exists_items_of_sortKeys {b : Json F} {items : List (Json F)}
    (h : sortKeys b = .arr items) : ∃ items', b = .arr items' := by
  cases b with
  | arr items' => exact ⟨items', rfl⟩
  | _ => simp [sortKeys] at h

/-- Objects that store the same documents are the same document. -/
theorem same_obj {members members' : List (String × Json F)}
    (h : (members.map Prod.fst).Nodup) (h' : (members'.map Prod.fst).Nodup)
    (hget : ∀ key, Option.Rel Json.Same ((Dict.ofList members).get? key)
      ((Dict.ofList members').get? key)) : Json.Same (.obj members) (.obj members') := by
  have hsame := Json.Same.object hget
  rwa [Json.ofDict, Json.ofDict, Dict.entries_ofList h, Dict.entries_ofList h'] at hsame

/-- Values agree once their keys are sorted exactly when they are the same document. -/
theorem sortKeys_eq_iff {a b : Json F} (ha : a.distinct = true) (hb : b.distinct = true) :
    sortKeys a = sortKeys b ↔ Json.Same a b := by
  induction a using nestedInduction generalizing b with
  | scalar a harr hobj =>
      rw [sortKeys_scalar harr hobj]
      constructor
      · intro h
        rw [h, @sortKeys_scalar _ b]
        · exact .refl b
        · rintro items rfl
          exact harr _ h
        · rintro members rfl
          exact hobj _ h
      · intro h
        cases h with
        | refl => exact (sortKeys_scalar harr hobj).symm
        | array _ => exact absurd rfl (harr _)
        | object _ => exact absurd rfl (hobj _)
  | array items ih =>
      rw [Json.distinct, Json.distinctItems_iff] at ha
      -- items agree one by one
      have hitems {items' : List (Json F)} (hb : (Json.arr items').distinct = true) :
          items.map sortKeys = items'.map sortKeys ↔ List.Forall₂ Json.Same items items' := by
        rw [Json.distinct, Json.distinctItems_iff] at hb
        exact map_sortKeys_eq_iff (fun item hitem {b} hb => ih item hitem (ha item hitem) hb) hb
      constructor
      · intro h
        obtain ⟨items', rfl⟩ := exists_items_of_sortKeys (h.symm.trans (by rw [sortKeys]))
        rw [sortKeys, sortKeys, sortItems_eq_map, sortItems_eq_map, Json.arr.injEq, hitems hb] at h
        exact .array h
      · intro h
        cases h with
        | refl => rfl
        | array hall =>
            rw [sortKeys, sortKeys, sortItems_eq_map, sortItems_eq_map, (hitems hb).mpr hall]
  | object members ih =>
      obtain ⟨hnodup, hdistinct⟩ := Json.distinct_obj.mp ha
      constructor
      · intro h
        obtain ⟨members', rfl⟩ := exists_members_of_sortKeys (h.symm.trans (by rw [sortKeys]))
        obtain ⟨hnodup', hdistinct'⟩ := Json.distinct_obj.mp hb
        refine same_obj hnodup hnodup' fun key => ?_
        have hget := (sortKeys_obj_eq_iff hnodup hnodup').mp h key
        cases hvalue : (Dict.ofList members).get? key with
        | none =>
            cases hvalue' : (Dict.ofList members').get? key with
            | none => exact .none
            | some value' => simp [hvalue, hvalue'] at hget
        | some value =>
            cases hvalue' : (Dict.ofList members').get? key with
            | none => simp [hvalue, hvalue'] at hget
            | some value' =>
                rw [hvalue, hvalue', Option.map_some, Option.map_some, Option.some.injEq] at hget
                have hmem := (get?_ofDict_eq_some_iff hnodup).mp hvalue
                have hmem' := (get?_ofDict_eq_some_iff hnodup').mp hvalue'
                exact .some ((ih (key, value) hmem (hdistinct key value hmem)
                  (hdistinct' key value' hmem')).mp hget)
      · intro h
        generalize hvalue : Json.obj members = value at h
        cases h with
        | refl => rfl
        | array _ => cases hvalue
        | @object d d' hget =>
            obtain rfl : members = d.entries := Json.obj.inj hvalue
            obtain ⟨hnodup', hdistinct'⟩ := Json.distinct_obj.mp hb
            refine (sortKeys_obj_eq_iff hnodup hnodup').mpr fun key => ?_
            rw [Dict.ofList_entries, Dict.ofList_entries]
            have hrel := hget key
            cases hv : d.get? key with
            | none =>
                rw [hv] at hrel
                cases hv' : d'.get? key with
                | none => rfl
                | some value' => rw [hv'] at hrel; cases hrel
            | some value =>
                rw [hv] at hrel
                cases hv' : d'.get? key with
                | none => rw [hv'] at hrel; cases hrel
                | some value' =>
                    rw [hv'] at hrel
                    cases hrel with
                    | some hsame =>
                        have hmem := Dict.get?_eq_some_iff.mp hv
                        have hmem' := Dict.get?_eq_some_iff.mp hv'
                        exact congrArg some ((ih (key, value) hmem (hdistinct key value hmem)
                          (hdistinct' key value' hmem')).mpr hsame)

end Sorted

/-! ## The two ways to write characters -/

section Plain

/-- Every character of a text is ASCII before the delete character. -/
def Low (text : List Char) : Prop := ∀ c ∈ text, c.toNat ≤ 0x7e

theorem low_append {a b : List Char} : Low (a ++ b) ↔ Low a ∧ Low b := List.forall_mem_append

theorem low_cons {c : Char} {rest : List Char} : Low (c :: rest) ↔ c.toNat ≤ 0x7e ∧ Low rest :=
  List.forall_mem_cons

theorem low_nil : Low [] := List.forall_mem_nil _

theorem low_joined {pieces : List (List Char)} :
    Low (joined pieces) ↔ ∀ piece ∈ pieces, Low piece := by
  induction pieces with
  | nil => simp [joined, low_nil]
  | cons piece pieces ih =>
      rw [joined_cons, low_append, List.forall_mem_cons]
      refine and_congr_right fun _ => ?_
      cases pieces with
      | nil => simp [afterFirst, low_nil]
      | cons next pieces => exact low_cons.trans ((and_iff_right (by decide)).trans ih)

theorem digitChar_low {n : ℕ} (h : n < 16) : (Nat.digitChar n).toNat ≤ 0x7e := by
  revert n
  decide

/-- An escape is written in ASCII. -/
theorem low_escapeUnit (n : ℕ) : Low (escapeUnit n) := by
  simp only [escapeUnit, low_cons]
  have hdigit : ∀ m : ℕ, (Nat.digitChar (m % 16)).toNat ≤ 0x7e :=
    fun m => digitChar_low (Nat.mod_lt _ (by norm_num))
  exact ⟨by decide, by decide, hdigit _, hdigit _, hdigit _, hdigit _, low_nil⟩

/-- The letter after a backslash and the character it stands for are ASCII. -/
theorem low_shortEscape? {c short : Char} (h : shortEscape? c = some short) :
    short.toNat ≤ 0x7e ∧ c.toNat ≤ 0x7e := by
  simp only [shortEscape?] at h
  repeat' split at h
  all_goals first
    | (obtain rfl := Option.some.inj h; subst_vars; decide)
    | cases h

/-- A character is written in ASCII unless it is written as it is and is none. -/
theorem low_escape {ascii : Bool} {c : Char} :
    Low (escape ascii c) ↔ (ascii = false → c.toNat ≤ 0x7e) := by
  unfold escape
  split
  next short hshort =>
    obtain ⟨hlow, hc⟩ := low_shortEscape? hshort
    simp [low_cons, low_nil, hlow, hc]
  next =>
    split
    next hplain =>
      cases ascii with
      | true => simpa [low_cons, low_nil] using hplain.2 rfl
      | false => simp [low_cons, low_nil]
    next hplain =>
      have hlow : ascii = false → c.toNat ≤ 0x7e := by
        rintro rfl
        by_contra hhigh
        exact hplain ⟨by omega, by simp⟩
      split
      next => exact iff_of_true (low_escapeUnit _) hlow
      next => exact iff_of_true (low_append.mpr ⟨low_escapeUnit _, low_escapeUnit _⟩) hlow

/-- A string is written in ASCII if every character outside it is escaped, and else if it holds
none. -/
theorem low_quoted {ascii : Bool} {s : String} :
    Low (quoted ascii s) ↔ (ascii = false → plainText s = true) := by
  have hflat : Low (s.toList.flatMap (escape ascii)) ↔ ∀ c ∈ s.toList, Low (escape ascii c) :=
    List.forall_mem_flatMap
  rw [quoted, low_cons, low_append, hflat, low_cons]
  simp only [low_escape, plainText, List.all_eq_true, decide_eq_true_eq]
  constructor
  · rintro ⟨-, h, -⟩ hascii c hc
    exact h c hc hascii
  · intro h
    exact ⟨by decide, fun c hc hascii => h hascii c hc, by decide, low_nil⟩

/-- A character is written the same way twice unless it is one after printable ASCII. -/
theorem escape_eq {c : Char} (h : c.toNat ≤ 0x7e) : escape true c = escape false c := by
  simp [escape, IsPlain, h]

variable [PyText F] [PyFloat F]

theorem quoted_eq {s : String} (h : plainText s = true) : quoted true s = quoted false s := by
  have hchars : s.toList.flatMap (escape true) = s.toList.flatMap (escape false) := by
    refine List.flatMap_congr fun c hc => escape_eq ?_
    simpa using List.all_eq_true.mp h c hc
  rw [quoted, quoted, hchars]

/-- A value without characters after printable ASCII is written the same way twice. -/
theorem render_eq_of_plain {value : Json F} (h : plain value = true) :
    render true value = render false value := by
  induction value using nestedInduction with
  | scalar value harr hobj =>
      cases value with
      | str s => exact quoted_eq h
      | arr items => exact absurd rfl (harr items)
      | obj members => exact absurd rfl (hobj members)
      | _ => rfl
  | array items ih =>
      have hitems : items.map (render true) = items.map (render false) :=
        List.map_congr_left fun item hitem => ih item hitem (every_arr.mp h item hitem)
      rw [render, render, renderItems_eq_map, renderItems_eq_map, hitems]
  | object members ih =>
      have hmembers : renderMembers true members = renderMembers false members := by
        rw [renderMembers_eq_map, renderMembers_eq_map]
        refine List.map_congr_left fun member hmember => ?_
        obtain ⟨hname, hvalue⟩ := every_obj.mp h member hmember
        rw [quoted_eq hname, ih member hmember hvalue]
      rw [render, render, hmembers]

omit [PyText F] [PyFloat F] in
/-- The characters of numbers are ASCII. -/
theorem low_of_isNumeral {c : Char} (h : IsNumeral c) : c.toNat ≤ 0x7e := by
  rcases h with h | h
  · have hdigit : 48 ≤ c.toNat ∧ c.toNat ≤ 57 := by
      simpa [Char.isDigit, Char.le_def, UInt32.le_iff_toNat_le] using h
    omega
  · simp only [List.mem_cons, List.not_mem_nil, or_false] at h
    rcases h with rfl | rfl | rfl | rfl <;> decide

omit [PyText F] [PyFloat F] in
/-- The texts of the constants are ASCII. -/
theorem low_constants : Low ['n', 'u', 'l', 'l'] ∧ Low ['t', 'r', 'u', 'e'] ∧
    Low ['f', 'a', 'l', 's', 'e'] := by
  simp [Low]

variable [FloatRepr F]

/-- A value with finite numbers is written in ASCII if every other character is escaped, and else if
it holds none. -/
theorem low_render {ascii : Bool} {value : Json F} (hfinite : finite value = true) :
    Low (render ascii value) ↔ (ascii = false → plain value = true) := by
  induction value using nestedInduction with
  -- only a string can have a character above the ASCII range, and only if it is not escaped
  | scalar value harr hobj =>
      cases value with
      | null => exact iff_of_true low_constants.1 fun _ => rfl
      | bool b =>
          cases b with
          | true => exact iff_of_true low_constants.2.1 fun _ => rfl
          | false => exact iff_of_true low_constants.2.2 fun _ => rfl
      | int n =>
          exact iff_of_true (fun c hc => low_of_isNumeral (isNumeral_int c hc).1) fun _ => rfl
      | float x =>
          exact iff_of_true (fun c hc => low_of_isNumeral (isNumeral_float hfinite c hc)) fun _ => rfl
      | str s => exact low_quoted
      | arr items => exact absurd rfl (harr items)
      | obj members => exact absurd rfl (hobj members)
  | array items ih =>
      -- the brackets and the separators are low, so it is a matter of the items
      have hitems := every_arr.mp hfinite
      rw [render, low_cons, low_append, low_joined, renderItems_eq_map, List.forall_mem_map,
        plain, every_arr, low_cons]
      constructor
      · rintro ⟨-, h, -⟩ hascii item hitem
        exact (ih item hitem (hitems item hitem)).mp (h item hitem) hascii
      · intro h
        refine ⟨by decide, fun item hitem => ?_, by decide, low_nil⟩
        exact (ih item hitem (hitems item hitem)).mpr fun hascii => h hascii item hitem
  | object members ih =>
      have hmembers := every_obj.mp hfinite
      rw [render, low_cons, low_append, low_joined, renderMembers_eq_map, List.forall_mem_map,
        plain, every_obj, low_cons]
      simp only [low_append, low_cons]
      constructor
      · rintro ⟨-, h, -⟩ hascii member hmember
        obtain ⟨hname, -, hvalue⟩ := h member hmember
        exact ⟨low_quoted.mp hname hascii,
          (ih member hmember (hmembers member hmember).2).mp hvalue hascii⟩
      · intro h
        refine ⟨by decide, fun member hmember => ⟨?_, by decide, ?_⟩, by decide, low_nil⟩
        · exact low_quoted.mpr fun hascii => (h hascii member hmember).1
        · exact (ih member hmember (hmembers member hmember).2).mpr fun hascii =>
            (h hascii member hmember).2

/-- Values with finite numbers are written the same way twice exactly when they hold no character
after printable ASCII. -/
theorem render_ascii_eq_iff {value : Json F} (hfinite : finite value = true) :
    render true value = render false value ↔ plain value = true := by
  refine ⟨fun h => ?_, render_eq_of_plain⟩
  have hlow : Low (render true value) := (low_render hfinite).mpr (by simp)
  exact (low_render hfinite).mp (h ▸ hlow) rfl

end Plain

end JsonText

/-! ## Exact fractions with texts that read back -/

/-- The text conversions of exact fractions, for evaluations on concrete values: an integral number
is written with a point, as Python writes it, and any other as its numerator and denominator. -/
@[reducible] def PyText.decimal : PyText ℚ where
  truthy x := x ≠ 0
  text x := if x.den = 1 then x.num.repr ++ ".0" else x.num.repr ++ "e" ++ (x.den : ℤ).repr
  quote s := "'" ++ s ++ "'"
  strip := asciiStrip
  lower := asciiLower
  ofText s := (decimalInt? s).map fun n => (n : ℚ)
  intOfText := decimalInt?

namespace PyText.decimal

open JsonText

/-- The two shapes of a text. -/
theorem toList_text (x : ℚ) : (@PyText.text ℚ PyText.decimal x).toList =
    if x.den = 1 then x.num.repr.toList ++ ['.', '0']
    else x.num.repr.toList ++ 'e' :: (x.den : ℤ).repr.toList := by
  show (if x.den = 1 then _ else _ : String).toList = _
  split <;> simp [String.toList_append]

/-- A text with a point is that of an integral number. -/
theorem point_mem_iff {x : ℚ} : '.' ∈ (@PyText.text ℚ PyText.decimal x).toList ↔ x.den = 1 := by
  have hint (n : ℤ) : '.' ∉ n.repr.toList := fun h => (isNumeral_int _ h).2.1 rfl
  rw [toList_text]
  split
  next h => simp [h]
  next h => simp [h, hint]

/-- The texts read back. -/
theorem eq_of_text_eq {x y : ℚ}
    (h : @PyText.text ℚ PyText.decimal x = @PyText.text ℚ PyText.decimal y) : x = y := by
  have hint (n : ℤ) : 'e' ∉ n.repr.toList := fun h => (isNumeral_int _ h).2.2 rfl
  have hden : x.den = 1 ↔ y.den = 1 := by rw [← point_mem_iff, ← point_mem_iff, h]
  have htext : (@PyText.text ℚ PyText.decimal x).toList = (@PyText.text ℚ PyText.decimal y).toList :=
    congrArg String.toList h
  rw [toList_text, toList_text] at htext
  by_cases hx : x.den = 1
  · have hy := hden.mp hx
    rw [if_pos hx, if_pos hy] at htext
    have hnum := intText_injective (String.toList_inj.mp (List.append_cancel_right htext))
    exact Rat.ext hnum (hx.trans hy.symm)
  · rw [if_neg hx, if_neg fun hy => hx (hden.mpr hy)] at htext
    obtain ⟨hnum, -, hrest⟩ := (List.append_cons_inj_of_notMem (hint _) (hint _)).mp htext
    have hdens := intText_injective (String.toList_inj.mp hrest)
    exact Rat.ext (intText_injective (String.toList_inj.mp hnum)) (by exact_mod_cast hdens)

theorem floatRepr : @FloatRepr ℚ PyText.decimal _ := by
  refine @FloatRepr.mk ℚ PyText.decimal _ (fun _ _ h => eq_of_text_eq h) (fun {x} _ => ?_)
    fun {x} _ => ?_
  · intro c hc
    rw [toList_text] at hc
    split at hc
    · rcases List.mem_append.mp hc with hc | hc
      · exact (isNumeral_int c hc).1
      · simp only [List.mem_cons, List.not_mem_nil, or_false] at hc
        rcases hc with rfl | rfl
        · exact Or.inr (by decide)
        · exact Or.inl (by decide)
    · rcases List.mem_append.mp hc with hc | hc
      · exact (isNumeral_int c hc).1
      · rcases List.mem_cons.mp hc with rfl | hc
        · exact Or.inr (by decide)
        · exact (isNumeral_int c hc).1
  · rw [toList_text]
    split <;> simp

end PyText.decimal
