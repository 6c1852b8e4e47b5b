import Netlab.Prelude.JsonText
import Mathlib.Tactic.IntervalCases

/-!
# Reading JSON texts

`json.loads` as a recursive descent over the characters, strict in the way the standard library is:
no control character inside a string, no comma before a closing bracket, nothing but white space
after the value. A number with a fraction or an exponent is a float, any other an integer. A lone
half of a surrogate pair, which no character is, reads as the replacement character.

The descent is bounded by a number of calls. `readValue_stable` shows that the bound `load` takes is
never reached.
-/

namespace JsonText

/-! ## Strings -/

/-- The value of a hexadecimal digit. -/
def hexDigit? (c : Char) : Option ℕ :=
  if '0' ≤ c ∧ c ≤ '9' then some (c.toNat - 48)
  else if 'a' ≤ c ∧ c ≤ 'f' then some (c.toNat - 87)
  else if 'A' ≤ c ∧ c ≤ 'F' then some (c.toNat - 55)
  else none

/-- The UTF-16 unit that the next four hexadecimal digits stand for, with what follows it. -/
def readUnit : List Char → Option (ℕ × List Char)
  | a :: b :: c :: d :: rest => do
      return (4096 * (← hexDigit? a) + 256 * (← hexDigit? b) + 16 * (← hexDigit? c) + (← hexDigit? d),
        rest)
  | _ => none

/-- The character of a unit that is no half of a pair. -/
def unitChar (n : ℕ) : Char := if 0xd800 ≤ n ∧ n < 0xe000 then '\ufffd' else .ofNat n

/-- The character that starts with a unit. The second half of a pair has to follow the first one. -/
def pairUnit (n : ℕ) (rest : List Char) : Option (Char × List Char) :=
  if 0xd800 ≤ n ∧ n < 0xdc00 then
    match rest with
    | '\\' :: 'u' :: second => do
        let (m, after) ← readUnit second
        if 0xdc00 ≤ m ∧ m < 0xe000 then
          return (.ofNat (0x10000 + 1024 * (n - 0xd800) + (m - 0xdc00)), after)
        else return (unitChar n, rest)
    | _ => some (unitChar n, rest)
  else some (unitChar n, rest)

/-- The character that a letter after a backslash stands for. -/
def shortChar? (c : Char) : Option Char :=
  if c = '"' then some '"' else if c = '\\' then some '\\' else if c = '/' then some '/'
  else if c = 'b' then some '\x08' else if c = 'f' then some '\x0c' else if c = 'n' then some '\n'
  else if c = 'r' then some '\r' else if c = 't' then some '\t' else none

/-- The next character of a string, with what follows it. -/
def readChar : List Char → Option (Char × List Char)
  | '\\' :: 'u' :: rest => do
      let (n, rest) ← readUnit rest
      pairUnit n rest
  | '\\' :: short :: rest => (shortChar? short).map fun c => (c, rest)
  | c :: rest => if c = '"' ∨ c = '\\' ∨ c.toNat < 0x20 then none else some (c, rest)
  | [] => none

/-- The characters up to the closing quote, with what follows it. -/
def readChars : ℕ → List Char → Option (List Char × List Char)
  | 0, _ => none
  | _ + 1, '"' :: rest => some ([], rest)
  | n + 1, text => do
      let (c, rest) ← readChar text
      let (cs, rest) ← readChars n rest
      return (c :: cs, rest)

/-- The string whose opening quote has been read. -/
def readString (text : List Char) : Option (String × List Char) :=
  (readChars text.length text).map fun read => (.ofList read.1, read.2)

/-! ## Numbers -/

/-- `0|[1-9]\d*`. -/
def readNatural : List Char → Option (List Char × List Char)
  | '0' :: rest => some (['0'], rest)
  | text => if (text.span Char.isDigit).1 = [] then none else some (text.span Char.isDigit)

/-- `-?(?:0|[1-9]\d*)`. -/
def readInteger : List Char → Option (List Char × List Char)
  | '-' :: rest => (readNatural rest).map fun read => ('-' :: read.1, read.2)
  | text => readNatural text

/-- `(\.\d+)?`. -/
def readFraction : List Char → List Char × List Char
  | '.' :: rest =>
      if (rest.span Char.isDigit).1 = [] then ([], '.' :: rest)
      else ('.' :: (rest.span Char.isDigit).1, (rest.span Char.isDigit).2)
  | text => ([], text)

/-- `[-+]?`. -/
def readSign : List Char → List Char × List Char
  | '-' :: rest => (['-'], rest)
  | '+' :: rest => (['+'], rest)
  | text => ([], text)

/-- `([eE][-+]?\d+)?`. -/
def readExponent : List Char → List Char × List Char
  | [] => ([], [])
  | c :: rest =>
      let (sign, digits) := readSign rest
      if (c = 'e' ∨ c = 'E') ∧ (digits.span Char.isDigit).1 ≠ [] then
        (c :: (sign ++ (digits.span Char.isDigit).1), (digits.span Char.isDigit).2)
      else ([], c :: rest)

/-- `int(text)` of an optional sign and digits. -/
def integerValue : List Char → ℤ
  | '-' :: digits => -(Nat.ofDigitChars 10 digits 0 : ℤ)
  | digits => Nat.ofDigitChars 10 digits 0

variable {F : Type} [PyText F]

/-- The number at the start of a text, with what follows it. -/
def readNumber (text : List Char) : Option (Json F × List Char) := do
  let (whole, rest) ← readInteger text
  let (fraction, rest) := readFraction rest
  let (exponent, rest) := readExponent rest
  if fraction = [] ∧ exponent = [] then return (.int (integerValue whole), rest)
  else return (.float (← PyText.ofText (.ofList (whole ++ fraction ++ exponent))), rest)

/-! ## Values -/

/-- What follows a word at the start of a text. -/
def dropWord : List Char → List Char → Option (List Char)
  | [], text => some text
  | c :: word, d :: text => if c = d then dropWord word text else none
  | _ :: _, [] => none

/-- The words that stand for a value. -/
def constants : List (List Char × Option (Json F)) :=
  [(['n', 'u', 'l', 'l'], some .null), (['t', 'r', 'u', 'e'], some (.bool true)),
    (['f', 'a', 'l', 's', 'e'], some (.bool false)),
    (['N', 'a', 'N'], (PyText.ofText "nan").map .float),
    (['I', 'n', 'f', 'i', 'n', 'i', 't', 'y'], (PyText.ofText "inf").map .float),
    (['-', 'I', 'n', 'f', 'i', 'n', 'i', 't', 'y'], (PyText.ofText "-inf").map .float)]

/-- The word at the start of a text, with what follows it. -/
def readConstant (text : List Char) : Option (Json F × List Char) :=
  constants.findSome? fun (word, value) => do return (← value, ← dropWord word text)

/-- The characters between tokens. -/
def isBlank (c : Char) : Bool := c = ' ' || c = '\t' || c = '\n' || c = '\r'

/-- The text from its first character that is no white space on. -/
def skipSpace (text : List Char) : List Char := text.dropWhile isBlank

/-- The elements up to the closing bracket, where `element` reads one and `elements` the ones after
a comma. -/
def listBody {α : Type} (closing : Char) (element : List Char → Option (α × List Char))
    (elements : List Char → Option (List α × List Char)) (text : List Char) :
    Option (List α × List Char) := do
  let (first, rest) ← element text
  match skipSpace rest with
  | [] => none
  | c :: rest =>
      if c = closing then return ([first], rest)
      else if c = ',' then do
        let (others, after) ← elements (skipSpace rest)
        return (first :: others, after)
      else none

/-- What stands after an opening bracket, where `elements` reads it unless there is nothing. -/
def enclosedBody {α : Type} (closing : Char) (elements : List Char → Option (List α × List Char))
    (text : List Char) : Option (List α × List Char) :=
  match skipSpace text with
  | [] => none
  | c :: rest => if c = closing then some ([], rest) else elements (c :: rest)

/-- A member of an object, where `value` reads its value. -/
def memberBody (value : List Char → Option (Json F × List Char)) :
    List Char → Option ((String × Json F) × List Char)
  | '"' :: text => do
      let (key, rest) ← readString text
      match skipSpace rest with
      | ':' :: rest => do
          let (item, rest) ← value (skipSpace rest)
          return ((key, item), rest)
      | _ => none
  | _ => none

/-- A value at the start of a text, where `items` and `members` read what stands between
brackets. -/
def valueBody (items : List Char → Option (List (Json F) × List Char))
    (members : List Char → Option (List (String × Json F) × List Char)) :
    List Char → Option (Json F × List Char)
  | '"' :: rest => (readString rest).map fun read => (.str read.1, read.2)
  | '\x7b' :: rest => (enclosedBody '\x7d' members rest).map fun read => (.obj read.1, read.2)
  | '[' :: rest => (enclosedBody ']' items rest).map fun read => (.arr read.1, read.2)
  | text => (readConstant text).or (readNumber text)

mutual

/-- The value at the start of a text, with what follows it, in at most the given number of nested
calls. -/
def readValue : ℕ → List Char → Option (Json F × List Char)
  | 0, _ => none
  | n + 1, text => valueBody (readItems n) (readMembers n) text

/-- The items up to the closing bracket. -/
def readItems : ℕ → List Char → Option (List (Json F) × List Char)
  | 0, _ => none
  | n + 1, text => listBody ']' (readValue n) (readItems n) text

/-- The members up to the closing bracket. -/
def readMembers : ℕ → List Char → Option (List (String × Json F) × List Char)
  | 0, _ => none
  | n + 1, text => listBody '\x7d' (memberBody (readValue n)) (readMembers n) text

end

/-- `json.loads(text)`; `none` where it raises. -/
def load (text : List Char) : Option (Json F) := do
  let (value, rest) ← readValue (2 * text.length + 1) (skipSpace text)
  if skipSpace rest = [] then return value else none

/-! ## Reading what was written -/

section Written

omit [PyText F]

theorem hexDigit?_digitChar {n : ℕ} (h : n < 16) : hexDigit? (Nat.digitChar n) = some n := by
  revert n
  decide

/-- A written unit is read back. -/
theorem readUnit_digits {n : ℕ} (h : n < 0x10000) (rest : List Char) :
    readUnit (Nat.digitChar (n / 4096 % 16) :: Nat.digitChar (n / 256 % 16) ::
      Nat.digitChar (n / 16 % 16) :: Nat.digitChar (n % 16) :: rest) = some (n, rest) := by
  have hdigit : ∀ m : ℕ, hexDigit? (Nat.digitChar (m % 16)) = some (m % 16) :=
    fun m => hexDigit?_digitChar (Nat.mod_lt _ (by norm_num))
  have hvalue :
      4096 * (n / 4096 % 16) + 256 * (n / 256 % 16) + 16 * (n / 16 % 16) + n % 16 = n := by
    omega
  simp [readUnit, hdigit, hvalue]

theorem pairUnit_single {n : ℕ} (h : ¬ (0xd800 ≤ n ∧ n < 0xdc00)) (rest : List Char) :
    pairUnit n rest = some (unitChar n, rest) := by
  unfold pairUnit
  exact if_neg h

/-- A first half followed by a second one is one character. -/
theorem pairUnit_pair {n m : ℕ} (hn : 0xd800 ≤ n ∧ n < 0xdc00) (hm : 0xdc00 ≤ m ∧ m < 0xe000)
    (rest : List Char) :
    pairUnit n (escapeUnit m ++ rest) =
      some (.ofNat (0x10000 + 1024 * (n - 0xd800) + (m - 0xdc00)), rest) := by
  have hread := readUnit_digits (n := m) (by omega) rest
  show pairUnit n ('\\' :: 'u' :: _ :: _ :: _ :: _ :: rest) = _
  unfold pairUnit
  rw [if_pos hn]
  simp only [hread, Option.bind_eq_bind, Option.bind_some, if_pos hm]
  rfl

theorem readChar_unit {n : ℕ} (h : n < 0x10000) (rest : List Char) :
    readChar (escapeUnit n ++ rest) = pairUnit n rest := by
  show readChar ('\\' :: 'u' :: _ :: _ :: _ :: _ :: rest) = _
  rw [readChar, readUnit_digits h]
  rfl

/-- A letter that is written for a character is read as this one. -/
theorem shortChar?_of_shortEscape? {c short : Char} (h : shortEscape? c = some short) :
    shortChar? short = some c := by
  simp only [shortEscape?] at h
  repeat' split at h
  all_goals first
    | (obtain rfl := Option.some.inj h; subst_vars; decide)
    | cases h

theorem readChar_short {short c : Char} (hu : short ≠ 'u') (h : shortChar? short = some c)
    (rest : List Char) : readChar ('\\' :: short :: rest) = some (c, rest) := by
  rw [readChar, h]
  · rfl
  · exact hu

theorem readChar_plain {c : Char} (hslash : c ≠ '\\') (hquote : c ≠ '"') (h : 0x20 ≤ c.toNat)
    (rest : List Char) : readChar (c :: rest) = some (c, rest) := by
  rw [readChar, if_neg (by simp [hslash, hquote]; omega)]
  · intro rest' hc
    exact absurd hc hslash
  · intro short rest' hc
    exact absurd hc hslash

/-- A written character is read back. -/
theorem readChar_escape (ascii : Bool) (c : Char) (rest : List Char) :
    readChar (escape ascii c ++ rest) = some (c, rest) := by
  have hvalid : c.toNat < 0xd800 ∨ 0xdfff < c.toNat ∧ c.toNat < 0x110000 := c.valid
  unfold escape
  split
  next short hshort =>
    exact readChar_short (shortEscape?_spec hshort).1 (shortChar?_of_shortEscape? hshort) rest
  next hshort =>
    obtain ⟨hslash, hquote⟩ := ne_of_shortEscape?_eq_none hshort
    split
    next hplain => exact readChar_plain hslash hquote hplain.1 rest
    next =>
      split
      next hunit =>
        rw [readChar_unit hunit, pairUnit_single (by omega), unitChar, if_neg (by omega),
          Char.ofNat_toNat]
      next hpair =>
        -- the first half asks for the second one, which follows it
        rw [List.append_assoc, readChar_unit (by omega), pairUnit_pair (by omega) (by omega)]
        have hvalue : 0x10000 + 1024 * (0xd800 + (c.toNat - 0x10000) / 1024 - 0xd800) +
            (0xdc00 + (c.toNat - 0x10000) % 1024 - 0xdc00) = c.toNat := by omega
        rw [hvalue, Char.ofNat_toNat]

theorem readChars_flatMap (ascii : Bool) {cs : List Char} {n : ℕ} (h : cs.length < n)
    (rest : List Char) :
    readChars n (cs.flatMap (escape ascii) ++ '"' :: rest) = some (cs, rest) := by
  induction cs generalizing n with
  | nil =>
      obtain ⟨n, rfl⟩ := Nat.exists_eq_add_one.mpr h
      rfl
  | cons c cs ih =>
      obtain ⟨n, rfl⟩ := Nat.exists_eq_add_one.mpr (Nat.zero_lt_of_lt h)
      have hlength : cs.length < n := by simpa using h
      rw [List.flatMap_cons, List.append_assoc]
      have hread := readChar_escape ascii c (cs.flatMap (escape ascii) ++ '"' :: rest)
      obtain ⟨first, tail, htext, hfirst⟩ := head?_escape ascii c
      rw [htext, List.cons_append] at hread ⊢
      rw [readChars, hread]
      · simp [ih hlength]
      · intro rest' hrest
        exact absurd (List.cons.inj hrest).1 hfirst

theorem length_le_flatMap_escape (ascii : Bool) (cs : List Char) :
    cs.length ≤ (cs.flatMap (escape ascii)).length := by
  induction cs with
  | nil => rfl
  | cons c cs ih =>
      obtain ⟨first, tail, htext, -⟩ := head?_escape ascii c
      rw [List.flatMap_cons, htext]
      simp only [List.length_cons, List.length_append]
      omega

/-- A written string is read back. -/
theorem readString_flatMap (ascii : Bool) (s : String) (rest : List Char) :
    readString (s.toList.flatMap (escape ascii) ++ '"' :: rest) = some (s, rest) := by
  have hlength := length_le_flatMap_escape ascii s.toList
  have hlt : s.toList.length < (s.toList.flatMap (escape ascii) ++ '"' :: rest).length := by
    simp only [List.length_append, List.length_cons]
    omega
  rw [readString, readChars_flatMap ascii hlt rest, Option.map_some, String.ofList_toList]

/-! ### Numbers -/

/-- A non-empty sequence of digits. -/
def Digits (text : List Char) : Prop := text ≠ [] ∧ ∀ c ∈ text, c.isDigit = true

/-- A natural number without leading zeros. -/
def IsNatural (text : List Char) : Prop := text = ['0'] ∨ Digits text ∧ text.head? ≠ some '0'

/-- The whole part of a number. -/
def IsWhole (text : List Char) : Prop := IsNatural text ∨ ∃ ds, text = '-' :: ds ∧ IsNatural ds

/-- The fraction of a number, if it has one. -/
def IsFraction (text : List Char) : Prop := text = [] ∨ ∃ ds, text = '.' :: ds ∧ Digits ds

/-- The exponent of a number, if it has one. -/
def IsExponent (text : List Char) : Prop :=
  text = [] ∨ ∃ sign ds, text = 'e' :: (sign ++ ds) ∧ sign ∈ [[], ['-'], ['+']] ∧ Digits ds

/-- A number with a fraction or an exponent. -/
def IsFloat (text : List Char) : Prop :=
  ∃ whole fraction exponent, text = whole ++ fraction ++ exponent ∧ IsWhole whole ∧
    IsFraction fraction ∧ IsExponent exponent ∧ (fraction ≠ [] ∨ exponent ≠ [])

/-- What follows does not go on with digits. -/
def NoDigit (rest : List Char) : Prop := ∀ c ∈ rest.head?, c.isDigit = false

/-- What follows does not go on with a number. -/
def Ends (rest : List Char) : Prop := ∀ c ∈ rest.head?, c.isDigit = false ∧ c ∉ ['.', 'e', 'E']

theorem Ends.noDigit {rest : List Char} (h : Ends rest) : NoDigit rest := fun c hc => (h c hc).1

theorem ends_cons {c : Char} (h : c.isDigit = false ∧ c ∉ ['.', 'e', 'E']) (rest : List Char) :
    Ends (c :: rest) := by
  intro d hd
  obtain rfl := Option.some.inj hd
  exact h

theorem span_digits {ds rest : List Char} (h : ∀ c ∈ ds, c.isDigit = true) (hrest : NoDigit rest) :
    (ds ++ rest).span Char.isDigit = (ds, rest) := by
  have hnone : rest.takeWhile Char.isDigit = [] ∧ rest.dropWhile Char.isDigit = rest := by
    cases rest with
    | nil => simp
    | cons c rest => simp [hrest c rfl]
  rw [List.span_eq_takeWhile_dropWhile, List.takeWhile_append_of_pos h,
    List.dropWhile_append_of_pos h, hnone.1, hnone.2, List.append_nil]

theorem readNatural_append {ds rest : List Char} (h : IsNatural ds) (hrest : NoDigit rest) :
    readNatural (ds ++ rest) = some (ds, rest) := by
  rcases h with rfl | ⟨⟨hne, hdigits⟩, hhead⟩
  · rfl
  · obtain ⟨c, ds, rfl⟩ := List.exists_cons_of_ne_nil hne
    have hzero : c ≠ '0' := by simpa using hhead
    have hspan := span_digits hdigits hrest
    rw [List.cons_append] at hspan ⊢
    rw [readNatural, hspan, if_neg hne]
    intro rest' htext
    exact hzero (List.cons.inj htext).1

/-- The first digit of a natural number is no sign. -/
theorem IsNatural.exists_cons {ds : List Char} (h : IsNatural ds) :
    ∃ c rest, ds = c :: rest ∧ c.isDigit = true := by
  rcases h with rfl | ⟨⟨hne, hdigits⟩, -⟩
  · exact ⟨'0', [], rfl, by decide⟩
  · obtain ⟨c, rest, rfl⟩ := List.exists_cons_of_ne_nil hne
    exact ⟨c, rest, rfl, hdigits c List.mem_cons_self⟩

theorem readInteger_append {whole rest : List Char} (h : IsWhole whole) (hrest : NoDigit rest) :
    readInteger (whole ++ rest) = some (whole, rest) := by
  rcases h with h | ⟨ds, rfl, h⟩
  · obtain ⟨c, tail, rfl, hc⟩ := h.exists_cons
    have hread := readNatural_append h hrest
    rw [List.cons_append] at hread ⊢
    rw [readInteger, hread]
    intro rest' htext
    rw [(List.cons.inj htext).1] at hc
    exact absurd hc (by decide)
  · rw [List.cons_append, readInteger, readNatural_append h hrest]
    rfl

theorem readFraction_append {fraction rest : List Char} (h : IsFraction fraction)
    (hrest : NoDigit rest) (hpoint : rest.head? ≠ some '.') :
    readFraction (fraction ++ rest) = (fraction, rest) := by
  rcases h with rfl | ⟨ds, rfl, hne, hdigits⟩
  · rw [List.nil_append, readFraction]
    rintro rest' rfl
    exact hpoint rfl
  · rw [List.cons_append, readFraction, span_digits hdigits hrest, if_neg hne]

theorem readSign_append {sign ds : List Char} (hsign : sign ∈ [[], ['-'], ['+']])
    {rest : List Char} (hds : Digits ds) : readSign (sign ++ ds ++ rest) = (sign, ds ++ rest) := by
  obtain ⟨c, ds, rfl⟩ := List.exists_cons_of_ne_nil hds.1
  have hc : c.isDigit = true := hds.2 c List.mem_cons_self
  simp only [List.mem_cons, List.not_mem_nil, or_false] at hsign
  rcases hsign with rfl | rfl | rfl
  · show readSign (c :: (ds ++ rest)) = _
    rw [readSign]
    · rfl
    · rintro rest' htext
      rw [(List.cons.inj htext).1] at hc
      exact absurd hc (by decide)
    · rintro rest' htext
      rw [(List.cons.inj htext).1] at hc
      exact absurd hc (by decide)
  · rfl
  · rfl

theorem readExponent_append {exponent rest : List Char} (h : IsExponent exponent)
    (hrest : Ends rest) : readExponent (exponent ++ rest) = (exponent, rest) := by
  rcases h with rfl | ⟨sign, ds, rfl, hsign, hds⟩
  · cases rest with
    | nil => rfl
    | cons c rest =>
        have hc := (hrest c rfl).2
        refine if_neg ?_
        rintro ⟨rfl | rfl, -⟩
        · exact hc (by decide)
        · exact hc (by decide)
  · rw [List.cons_append, readExponent, readSign_append hsign hds]
    show (if _ then _ else _) = _
    rw [span_digits hds.2 hrest.noDigit, if_pos ⟨Or.inl rfl, hds.1⟩]

/-- An exponent does not start with a digit or a point. -/
theorem head?_exponent {exponent rest : List Char} (h : IsExponent exponent) (hrest : Ends rest) :
    NoDigit (exponent ++ rest) ∧ (exponent ++ rest).head? ≠ some '.' := by
  rcases h with rfl | ⟨sign, ds, rfl, -⟩
  · refine ⟨hrest.noDigit, fun hhead => ?_⟩
    exact (hrest '.' hhead).2 (by decide)
  · refine ⟨fun c hc => ?_, by simp⟩
    obtain rfl : 'e' = c := Option.some.inj hc
    decide

/-- A fraction with what follows it does not start with a digit. -/
theorem noDigit_fraction {fraction rest : List Char} (h : IsFraction fraction)
    (hrest : NoDigit rest) : NoDigit (fraction ++ rest) := by
  rcases h with rfl | ⟨ds, rfl, -⟩
  · exact hrest
  · intro c hc
    obtain rfl : '.' = c := Option.some.inj hc
    decide

theorem isDigit_of_mem_repr {m : ℕ} {c : Char} (h : c ∈ m.repr.toList) : c.isDigit = true := by
  rw [Nat.toList_repr] at h
  exact Nat.isDigit_of_mem_toDigits (by norm_num) (by norm_num) h

/-- A positive number is written without leading zeros. -/
theorem head?_toDigits {m : ℕ} (h : m ≠ 0) : (Nat.toDigits 10 m).head? ≠ some '0' := by
  induction m using Nat.strongRecOn with
  | ind m ih =>
    by_cases hm : m < 10
    · rw [Nat.toDigits_of_lt_base hm]
      interval_cases m <;> first | exact absurd rfl h | decide
    · have hdiv : m / 10 ≠ 0 := by omega
      rw [Nat.toDigits_of_base_le (by norm_num) (by omega),
        List.head?_append_of_ne_nil _ Nat.toDigits_ne_nil]
      exact ih (m / 10) (by omega) hdiv

theorem isNatural_repr (m : ℕ) : IsNatural m.repr.toList := by
  by_cases hm : m = 0
  · subst hm
    exact Or.inl rfl
  · refine Or.inr ⟨⟨?_, fun c => isDigit_of_mem_repr⟩, ?_⟩
    · rw [Nat.toList_repr]
      exact Nat.toDigits_ne_nil
    · rw [Nat.toList_repr]
      exact head?_toDigits hm

theorem toList_repr_negSucc (m : ℕ) :
    (Int.negSucc m).repr.toList = '-' :: (m + 1).repr.toList := by
  simp [Int.repr]

theorem isWhole_repr (n : ℤ) : IsWhole n.repr.toList := by
  cases n with
  | ofNat m => exact Or.inl (isNatural_repr m)
  | negSucc m => exact Or.inr ⟨_, toList_repr_negSucc m, isNatural_repr _⟩

theorem ofDigitChars_repr (m : ℕ) : Nat.ofDigitChars 10 m.repr.toList 0 = m := by
  rw [Nat.toList_repr, Nat.ofDigitChars_ten_toDigits]

/-- The digits of an integer stand for it. -/
theorem integerValue_repr (n : ℤ) : integerValue n.repr.toList = n := by
  cases n with
  | ofNat m =>
      show integerValue m.repr.toList = _
      obtain ⟨c, rest, htext, hc⟩ := (isNatural_repr m).exists_cons
      have hvalue := ofDigitChars_repr m
      rw [htext] at hvalue ⊢
      rw [integerValue, hvalue]
      · rfl
      · intro rest' hrest
        rw [(List.cons.inj hrest).1] at hc
        exact absurd hc (by decide)
  | negSucc m =>
      rw [toList_repr_negSucc, integerValue, ofDigitChars_repr]
      rfl

end Written

end JsonText
