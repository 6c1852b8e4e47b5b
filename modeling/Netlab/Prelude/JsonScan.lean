import Netlab.Prelude.JsonWriter

/-!
# The brackets and quotes of a JSON text

A scanner that keeps the number of open brackets and whether it stands inside a string. It accepts
more than the reader does: what the reader reads as an object is scanned to its end (`scan_of_load`).
So a text that was broken off can be told from a whole one by the scanner alone.

The reader moves on with every element, so its bound is never reached (`readValue_stable`).
-/

namespace JsonText

/-- Where the scanner stands; a number tells how many brackets are open inside the outermost one. -/
inductive Place
  /-- Before the opening bracket of the object. -/
  | start
  /-- Between two tokens, or inside a number or a word. -/
  | between (depth : ℕ)
  /-- Inside a string. -/
  | inside (depth : ℕ)
  /-- After a backslash inside a string. -/
  | escaped (depth : ℕ)
  /-- After a closing quote. -/
  | closed (depth : ℕ)
  /-- After the closing bracket of the object. -/
  | done
  deriving DecidableEq

namespace Place

/-- What a closing bracket leads to. -/
def shut : ℕ → Place
  | 0 => done
  | d + 1 => between d

/-- One character further; `none` where no object goes on so. -/
def step : Place → Char → Option Place
  | start, c => if isBlank c then some start else if c = '\x7b' then some (between 0) else none
  | between d, c =>
      if c = '"' then some (inside d)
      else if c = '\x7b' ∨ c = '[' then some (between (d + 1))
      else if c = '\x7d' ∨ c = ']' then some (shut d)
      else some (between d)
  | inside d, c =>
      if c = '"' then some (closed d) else if c = '\\' then some (escaped d) else some (inside d)
  | escaped d, _ => some (inside d)
  | closed d, c =>
      if isBlank c then some (closed d)
      else if c = ',' ∨ c = ':' then some (between d)
      else if c = '\x7d' ∨ c = ']' then some (shut d)
      else none
  | done, c => if isBlank c then some done else none

/-- The whole text further. -/
def scan (s : Place) (text : List Char) : Option Place := text.foldlM step s

@[simp] theorem scan_nil (s : Place) : scan s [] = some s := rfl

@[simp] theorem scan_cons (s : Place) (c : Char) (text : List Char) :
    scan s (c :: text) = (step s c).bind fun s => scan s text := rfl

theorem scan_append (s : Place) (text rest : List Char) :
    scan s (text ++ rest) = (scan s text).bind fun s => scan s rest := List.foldlM_append ..

/-- The scanner stands after a value. -/
def After (d : ℕ) (s : Place) : Prop := s = between d ∨ s = closed d

/-- White space between tokens is skipped. -/
theorem scan_blanks {s : Place} (hs : s = start ∨ s = done ∨ ∃ d, After d s) {blanks : List Char}
    (h : ∀ c ∈ blanks, isBlank c = true) : scan s blanks = some s := by
  have hstep : ∀ c, isBlank c = true → step s c = some s := by
    intro c hc
    rcases hs with rfl | rfl | ⟨d, rfl | rfl⟩
    · exact if_pos hc
    · exact if_pos hc
    · have hcases : c = ' ' ∨ c = '\t' ∨ c = '\n' ∨ c = '\r' := by
        simpa [isBlank, or_assoc] using hc
      rcases hcases with rfl | rfl | rfl | rfl <;> rfl
    · exact if_pos hc
  induction blanks with
  | nil => rfl
  | cons c blanks ih =>
      rw [scan_cons, hstep c (h c List.mem_cons_self), Option.bind_some]
      exact ih fun c' hc' => h c' (List.mem_cons_of_mem _ hc')

/-- A comma or a colon after a value. -/
theorem step_separator {d : ℕ} {s : Place} (h : After d s) {c : Char} (hc : c = ',' ∨ c = ':') :
    step s c = some (between d) := by
  rcases h with rfl | rfl <;> rcases hc with rfl | rfl <;> rfl

/-- A closing bracket after a value. -/
theorem step_closing {d : ℕ} {s : Place} (h : After d s) {c : Char} (hc : c = '\x7d' ∨ c = ']') :
    step s c = some (shut d) := by
  rcases h with rfl | rfl <;> rcases hc with rfl | rfl <;> rfl

/-- Characters that are neither quotes nor brackets. -/
theorem scan_harmless {text : List Char}
    (h : ∀ c ∈ text, c ∉ ['"', '\x7b', '\x7d', '[', ']']) (d : ℕ) :
    scan (between d) text = some (between d) := by
  induction text with
  | nil => rfl
  | cons c text ih =>
      have hc := h c List.mem_cons_self
      simp only [List.mem_cons, List.not_mem_nil, or_false, not_or] at hc
      have hstep : step (between d) c = some (between d) := by simp [step, hc]
      rw [scan_cons, hstep, Option.bind_some]
      exact ih fun c' hc' => h c' (List.mem_cons_of_mem _ hc')

end Place

open Place

/-! ## What is read is scanned -/

/-- White space is skipped from a text. -/
theorem exists_skipSpace (text : List Char) :
    ∃ blanks, text = blanks ++ skipSpace text ∧ ∀ c ∈ blanks, isBlank c = true :=
  ⟨text.takeWhile isBlank, List.takeWhile_append_dropWhile.symm,
    fun _ hc => List.mem_takeWhile_imp hc⟩

theorem hexDigit?_quote {c : Char} {n : ℕ} (h : hexDigit? c = some n) : c ≠ '"' ∧ c ≠ '\\' := by
  have hquote : hexDigit? '"' = none ∧ hexDigit? '\\' = none := by decide
  constructor
  · rintro rfl
    rw [hquote.1] at h
    cases h
  · rintro rfl
    rw [hquote.2] at h
    cases h

/-- A unit is read from four characters that are neither quotes nor backslashes. -/
theorem readUnit_spec {text rest : List Char} {n : ℕ} (h : readUnit text = some (n, rest)) :
    ∃ used, text = used ++ rest ∧ ∀ d, scan (inside d) used = some (inside d) := by
  unfold readUnit at h
  split at h
  next a b c d rest' =>
    simp only [Option.bind_eq_bind, Option.bind_eq_some_iff, Option.pure_def, Option.some.injEq,
      Prod.mk.injEq] at h
    obtain ⟨_, ha, _, hb, _, hc, _, hd, -, rfl⟩ := h
    refine ⟨[a, b, c, d], rfl, fun depth => ?_⟩
    simp [step, hexDigit?_quote ha, hexDigit?_quote hb, hexDigit?_quote hc, hexDigit?_quote hd]
  next => cases h

/-- A character is read from inside a string. -/
theorem readChar_spec {text rest : List Char} {c : Char} (h : readChar text = some (c, rest)) :
    ∃ used, text = used ++ rest ∧ used ≠ [] ∧ ∀ d, scan (inside d) used = some (inside d) := by
  unfold readChar at h
  split at h
  next unit =>
    simp only [Option.bind_eq_bind, Option.bind_eq_some_iff] at h
    obtain ⟨⟨n, after⟩, hunit, hpair⟩ := h
    obtain ⟨used, rfl, hscan⟩ := readUnit_spec hunit
    have hfirst : ∀ d, scan (inside d) ('\\' :: 'u' :: used) = some (inside d) := hscan
    -- the second half of a pair, if one is read, is read like the first
    unfold pairUnit at hpair
    split at hpair
    · split at hpair
      next second htext =>
        obtain rfl : after = '\\' :: 'u' :: second := htext
        simp only [Option.bind_eq_bind, Option.bind_eq_some_iff] at hpair
        obtain ⟨⟨m, last⟩, hsecond, hchar⟩ := hpair
        obtain ⟨used', rfl, hscan'⟩ := readUnit_spec hsecond
        split at hchar
        · obtain ⟨-, rfl⟩ := Prod.mk.inj (Option.some.inj hchar)
          refine ⟨'\\' :: 'u' :: used ++ '\\' :: 'u' :: used', by simp, by simp, fun d => ?_⟩
          rw [scan_append, hfirst, Option.bind_some]
          exact hscan' d
        · obtain ⟨-, rfl⟩ := Prod.mk.inj (Option.some.inj hchar)
          exact ⟨'\\' :: 'u' :: used, rfl, by simp, hfirst⟩
      next =>
        obtain ⟨-, rfl⟩ := Prod.mk.inj (Option.some.inj hpair)
        exact ⟨'\\' :: 'u' :: used, rfl, by simp, hfirst⟩
    · obtain ⟨-, rfl⟩ := Prod.mk.inj (Option.some.inj hpair)
      exact ⟨'\\' :: 'u' :: used, rfl, by simp, hfirst⟩
  next short rest' _ =>
    obtain ⟨_, -, hread⟩ := Option.map_eq_some_iff.mp h
    obtain ⟨-, rfl⟩ := Prod.mk.inj hread
    exact ⟨['\\', short], rfl, by simp, fun d => rfl⟩
  next c' rest' _ _ =>
    split at h
    · cases h
    next hc =>
      obtain ⟨rfl, rfl⟩ := Prod.mk.inj (Option.some.inj h)
      refine ⟨[c'], rfl, by simp, fun d => ?_⟩
      simp only [not_or] at hc
      simp [step, hc]
  next => cases h

theorem readChars_spec {n : ℕ} {text rest cs : List Char} (h : readChars n text = some (cs, rest)) :
    ∃ used, text = used ++ rest ∧ used ≠ [] ∧ ∀ d, scan (inside d) used = some (closed d) := by
  fun_induction readChars n text generalizing cs with
  | case1 => cases h
  | case2 n rest' =>
      obtain ⟨-, rfl⟩ := Prod.mk.inj (Option.some.inj h)
      exact ⟨['"'], rfl, by simp, fun d => rfl⟩
  | case3 n text _ ih =>
      simp only [Option.bind_eq_bind, Option.bind_eq_some_iff] at h
      obtain ⟨⟨c, after⟩, hchar, ⟨cs', after'⟩, hchars, hread⟩ := h
      obtain ⟨-, rfl⟩ := Prod.mk.inj (Option.some.inj hread)
      obtain ⟨used, rfl, hne, hscan⟩ := readChar_spec hchar
      obtain ⟨used', rfl, -, hscan'⟩ := ih _ hchars
      refine ⟨used ++ used', by simp, by simp [hne], fun d => ?_⟩
      rw [scan_append, hscan, Option.bind_some, hscan']

theorem readString_spec {text rest : List Char} {s : String}
    (h : readString text = some (s, rest)) :
    ∃ used, text = used ++ rest ∧ ∀ d, scan (inside d) used = some (closed d) := by
  obtain ⟨⟨cs, rest'⟩, hchars, hread⟩ := Option.map_eq_some_iff.mp h
  obtain ⟨-, rfl⟩ := Prod.mk.inj hread
  obtain ⟨used, htext, -, hscan⟩ := readChars_spec hchars
  exact ⟨used, htext, hscan⟩

/-- Whatever a reader reads, the scanner gets from between two tokens to a place that `P` allows,
and at least one character is read. -/
def Scans {α : Type} (P : ℕ → Place → Prop) (read : List Char → Option (α × List Char)) : Prop :=
  ∀ {text x rest}, read text = some (x, rest) →
    ∃ used, text = used ++ rest ∧ used ≠ [] ∧ ∀ d, ∃ s, scan (between d) used = some s ∧ P d s

/-- The scanner stands after the bracket that closes a list. -/
def Shut (d : ℕ) (s : Place) : Prop := s = shut d

variable {F : Type} [PyText F]

/-- The parts of a number. -/
theorem mem_of_readNatural {text digits rest : List Char}
    (h : readNatural text = some (digits, rest)) :
    text = digits ++ rest ∧ digits ≠ [] ∧ ∀ c ∈ digits, c.isDigit = true := by
  unfold readNatural at h
  split at h
  next =>
    obtain ⟨rfl, rfl⟩ := Prod.mk.inj (Option.some.inj h)
    exact ⟨rfl, by simp, by simp⟩
  next =>
    split at h
    · cases h
    next hne =>
      rw [List.span_eq_takeWhile_dropWhile] at h hne
      obtain ⟨rfl, rfl⟩ := Prod.mk.inj (Option.some.inj h)
      exact ⟨List.takeWhile_append_dropWhile.symm, hne, fun _ => List.mem_takeWhile_imp⟩

theorem takeWhile_append_dropWhile_span (text : List Char) :
    (text.span Char.isDigit).1 ++ (text.span Char.isDigit).2 = text ∧
      ∀ c ∈ (text.span Char.isDigit).1, c.isDigit = true := by
  rw [List.span_eq_takeWhile_dropWhile]
  exact ⟨List.takeWhile_append_dropWhile, fun _ => List.mem_takeWhile_imp⟩

/-- The characters of a number. -/
def InNumber (c : Char) : Prop := c.isDigit = true ∨ c ∈ ['-', '+', '.', 'e', 'E']

theorem InNumber.harmless {c : Char} (h : InNumber c) : c ∉ ['"', '\x7b', '\x7d', '[', ']'] := by
  intro hc
  simp only [List.mem_cons, List.not_mem_nil, or_false] at hc
  rcases hc with rfl | rfl | rfl | rfl | rfl <;> revert h <;> unfold InNumber <;> decide

theorem readInteger_spec {text whole rest : List Char}
    (h : readInteger text = some (whole, rest)) :
    text = whole ++ rest ∧ whole ≠ [] ∧ ∀ c ∈ whole, InNumber c := by
  unfold readInteger at h
  split at h
  next =>
    obtain ⟨⟨ds, rest'⟩, hds, hread⟩ := Option.map_eq_some_iff.mp h
    obtain ⟨rfl, rfl⟩ := Prod.mk.inj hread
    obtain ⟨rfl, -, hdigits⟩ := mem_of_readNatural hds
    refine ⟨rfl, by simp, fun c hc => ?_⟩
    rcases List.mem_cons.mp hc with rfl | hc
    · exact Or.inr (by decide)
    · exact Or.inl (hdigits c hc)
  next =>
    obtain ⟨htext, hne, hdigits⟩ := mem_of_readNatural h
    exact ⟨htext, hne, fun c hc => Or.inl (hdigits c hc)⟩

theorem readFraction_spec (text : List Char) :
    text = (readFraction text).1 ++ (readFraction text).2 ∧
      ∀ c ∈ (readFraction text).1, InNumber c := by
  unfold readFraction
  split
  next rest =>
    obtain ⟨hrest, hdigits⟩ := takeWhile_append_dropWhile_span rest
    split
    · exact ⟨rfl, by simp⟩
    · refine ⟨by rw [List.cons_append, hrest], fun c hc => ?_⟩
      rcases List.mem_cons.mp hc with rfl | hc
      · exact Or.inr (by decide)
      · exact Or.inl (hdigits c hc)
  next => exact ⟨rfl, by simp⟩

theorem readSign_spec (text : List Char) :
    text = (readSign text).1 ++ (readSign text).2 ∧ ∀ c ∈ (readSign text).1, InNumber c := by
  unfold readSign
  split
  · exact ⟨rfl, by simp [InNumber]⟩
  · exact ⟨rfl, by simp [InNumber]⟩
  · exact ⟨rfl, by simp⟩

theorem readExponent_spec (text : List Char) :
    text = (readExponent text).1 ++ (readExponent text).2 ∧
      ∀ c ∈ (readExponent text).1, InNumber c := by
  cases text with
  | nil => exact ⟨rfl, by simp [readExponent]⟩
  | cons c rest =>
      obtain ⟨hsign, hsigns⟩ := readSign_spec rest
      obtain ⟨hrest, hdigits⟩ := takeWhile_append_dropWhile_span (readSign rest).2
      simp only [readExponent]
      split
      next hletter =>
        refine ⟨?_, fun c' hc' => ?_⟩
        · rw [List.cons_append, List.append_assoc, hrest, ← hsign]
        · rcases List.mem_cons.mp hc' with rfl | hc'
          · exact Or.inr (by rcases hletter.1 with rfl | rfl <;> decide)
          · exact (List.mem_append.mp hc').elim (hsigns c') fun h => Or.inl (hdigits c' h)
      next => exact ⟨rfl, by simp⟩

theorem scans_readNumber : Scans After (readNumber : List Char → Option (Json F × List Char)) := by
  intro text value rest h
  simp only [readNumber, Option.bind_eq_bind, Option.bind_eq_some_iff] at h
  obtain ⟨⟨whole, afterWhole⟩, hwhole, h⟩ := h
  obtain ⟨rfl, hne, hchars⟩ := readInteger_spec hwhole
  obtain ⟨hfraction, hchars'⟩ := readFraction_spec afterWhole
  obtain ⟨hexponent, hchars''⟩ := readExponent_spec (readFraction afterWhole).2
  have hrest : rest = (readExponent (readFraction afterWhole).2).2 := by
    dsimp only at h
    split at h
    · exact (Prod.mk.inj (Option.some.inj h)).2.symm
    · obtain ⟨x, -, hx⟩ := Option.bind_eq_some_iff.mp h
      exact (Prod.mk.inj (Option.some.inj hx)).2.symm
  refine ⟨whole ++ (readFraction afterWhole).1 ++ (readExponent (readFraction afterWhole).2).1, ?_,
    by simp [hne], fun d => ⟨_, scan_harmless (fun c hc => ?_) d, Or.inl rfl⟩⟩
  · rw [hrest, List.append_assoc, ← hexponent, List.append_assoc, ← hfraction]
  · rw [List.append_assoc, List.mem_append, List.mem_append] at hc
    rcases hc with hc | hc | hc
    · exact (hchars c hc).harmless
    · exact (hchars' c hc).harmless
    · exact (hchars'' c hc).harmless

theorem dropWord_spec {word text rest : List Char} (h : dropWord word text = some rest) :
    text = word ++ rest := by
  fun_induction dropWord word text with
  | case1 => rw [Option.some.inj h, List.nil_append]
  | case2 c word text ih => rw [ih h, List.cons_append]
  | case3 => cases h
  | case4 => cases h

theorem scans_readConstant :
    Scans After (readConstant : List Char → Option (Json F × List Char)) := by
  intro text value rest h
  obtain ⟨⟨word, item⟩, hmem, hread⟩ := List.exists_of_findSome?_eq_some h
  simp only [Option.bind_eq_bind, Option.bind_eq_some_iff] at hread
  obtain ⟨_, -, after, hword, hread⟩ := hread
  obtain ⟨-, rfl⟩ := Prod.mk.inj (Option.some.inj hread)
  have hwords : word ≠ [] ∧ ∀ c ∈ word, c ∉ ['"', '\x7b', '\x7d', '[', ']'] := by
    simp only [constants, List.mem_cons, Prod.mk.injEq, List.not_mem_nil, or_false] at hmem
    rcases hmem with ⟨rfl, -⟩ | ⟨rfl, -⟩ | ⟨rfl, -⟩ | ⟨rfl, -⟩ | ⟨rfl, -⟩ | ⟨rfl, -⟩ <;> simp
  exact ⟨word, dropWord_spec hword, hwords.1,
    fun d => ⟨_, scan_harmless hwords.2 d, Or.inl rfl⟩⟩

section Bodies

variable {α : Type}

/-- A closing bracket follows what was read, after white space. -/
theorem scan_blanks_cons {d : ℕ} {s s' : Place} (h : After d s) {blanks : List Char}
    (hblanks : ∀ c ∈ blanks, isBlank c = true) {c : Char} (hc : step s c = some s') :
    scan s (blanks ++ [c]) = some s' := by
  rw [scan_append, scan_blanks (Or.inr (Or.inr ⟨d, h⟩)) hblanks, Option.bind_some, scan_cons, hc]
  rfl

theorem scans_listBody {closing : Char} (hclosing : closing = '\x7d' ∨ closing = ']')
    {element : List Char → Option (α × List Char)}
    {elements : List Char → Option (List α × List Char)} (helement : Scans After element)
    (helements : Scans Shut elements) : Scans Shut (listBody closing element elements) := by
  intro text xs rest h
  simp only [listBody, Option.bind_eq_bind, Option.bind_eq_some_iff] at h
  obtain ⟨⟨first, after⟩, hfirst, h⟩ := h
  obtain ⟨used, rfl, hne, hscan⟩ := helement hfirst
  obtain ⟨blanks, hafter, hblanks⟩ := exists_skipSpace after
  split at h
  · cases h
  next c tail hskip =>
    rw [hskip] at hafter
    split at h
    next hc =>
      -- the list ends here
      obtain ⟨-, rfl⟩ := Prod.mk.inj (Option.some.inj h)
      subst hc
      refine ⟨used ++ (blanks ++ [c]), by simp [hafter], by simp, fun d => ?_⟩
      obtain ⟨s, hs, hplace⟩ := hscan d
      refine ⟨shut d, ?_, rfl⟩
      rw [scan_append, hs, Option.bind_some]
      exact scan_blanks_cons hplace hblanks (step_closing hplace hclosing)
    next =>
      split at h
      next hc =>
        simp only [Option.bind_eq_some_iff] at h
        obtain ⟨⟨others, last⟩, hothers, h⟩ := h
        obtain ⟨-, rfl⟩ := Prod.mk.inj (Option.some.inj h)
        subst hc
        obtain ⟨blanks', htail, hblanks'⟩ := exists_skipSpace tail
        obtain ⟨used', hused', -, hscan'⟩ := helements hothers
        refine ⟨used ++ (blanks ++ [',']) ++ (blanks' ++ used'), ?_, by simp, fun d => ?_⟩
        · rw [hafter, htail, hused']
          simp
        · obtain ⟨s, hs, hplace⟩ := hscan d
          obtain ⟨s', hs', hplace'⟩ := hscan' d
          refine ⟨s', ?_, hplace'⟩
          rw [scan_append, scan_append, hs, Option.bind_some,
            scan_blanks_cons hplace hblanks (step_separator hplace (Or.inl rfl)),
            Option.bind_some, scan_append,
            scan_blanks (Or.inr (Or.inr ⟨d, Or.inl rfl⟩)) hblanks', Option.bind_some, hs']
      next => cases h

theorem scans_enclosedBody {closing : Char} (hclosing : closing = '\x7d' ∨ closing = ']')
    {elements : List Char → Option (List α × List Char)} (helements : Scans Shut elements) :
    Scans Shut (enclosedBody closing elements) := by
  intro text xs rest h
  unfold enclosedBody at h
  obtain ⟨blanks, htext, hblanks⟩ := exists_skipSpace text
  split at h
  · cases h
  next c tail hskip =>
    rw [hskip] at htext
    split at h
    next hc =>
      obtain ⟨-, rfl⟩ := Prod.mk.inj (Option.some.inj h)
      subst hc
      refine ⟨blanks ++ [c], by simp [htext], by simp, fun d => ⟨shut d, ?_, rfl⟩⟩
      exact scan_blanks_cons (Or.inl rfl) hblanks (step_closing (Or.inl rfl) hclosing)
    next =>
      obtain ⟨used, hused, hne, hscan⟩ := helements h
      refine ⟨blanks ++ used, by rw [htext, hused, List.append_assoc], by simp [hne],
        fun d => ?_⟩
      obtain ⟨s, hs, hplace⟩ := hscan d
      refine ⟨s, ?_, hplace⟩
      rw [scan_append, scan_blanks (Or.inr (Or.inr ⟨d, Or.inl rfl⟩)) hblanks, Option.bind_some, hs]

omit [PyText F] in
theorem scans_memberBody {value : List Char → Option (Json F × List Char)}
    (hvalue : Scans After value) : Scans After (memberBody value) := by
  intro text member rest h
  unfold memberBody at h
  split at h
  next text =>
    simp only [Option.bind_eq_bind, Option.bind_eq_some_iff] at h
    obtain ⟨⟨key, after⟩, hkey, h⟩ := h
    obtain ⟨used, rfl, hscan⟩ := readString_spec hkey
    obtain ⟨blanks, hafter, hblanks⟩ := exists_skipSpace after
    split at h
    next tail hskip =>
      rw [hskip] at hafter
      simp only [Option.bind_eq_some_iff] at h
      obtain ⟨⟨item, last⟩, hitem, h⟩ := h
      obtain ⟨-, rfl⟩ := Prod.mk.inj (Option.some.inj h)
      obtain ⟨blanks', htail, hblanks'⟩ := exists_skipSpace tail
      obtain ⟨used', hused', -, hscan'⟩ := hvalue hitem
      refine ⟨'"' :: used ++ (blanks ++ [':']) ++ (blanks' ++ used'), ?_, by simp, fun d => ?_⟩
      · rw [hafter, htail, hused']
        simp
      · -- key, colon and value are scanned one after the other, each up to its end
        obtain ⟨s, hs, hplace⟩ := hscan' d
        refine ⟨s, ?_, hplace⟩
        have hquote : scan (between d) ('"' :: used) = some (closed d) := hscan d
        have hclosed : After d (closed d) := Or.inr rfl
        rw [scan_append, scan_append, hquote, Option.bind_some,
          scan_blanks_cons hclosed hblanks (step_separator hclosed (Or.inr rfl)),
          Option.bind_some, scan_append, scan_blanks (Or.inr (Or.inr ⟨d, Or.inl rfl⟩)) hblanks',
          Option.bind_some, hs]
    next => cases h
  next => cases h

end Bodies

/-- What is read between brackets leads back to where the opening bracket stands. -/
theorem scan_brackets {α : Type} {elements : List Char → Option (List α × List Char)}
    (helements : Scans Shut elements) {opening closing : Char}
    (hopening : opening = '\x7b' ∨ opening = '[') (hclosing : closing = '\x7d' ∨ closing = ']')
    {text rest : List Char} {xs : List α}
    (h : enclosedBody closing elements text = some (xs, rest)) :
    ∃ used, text = used ++ rest ∧ ∀ d, scan (between d) (opening :: used) = some (between d) := by
  obtain ⟨used, rfl, -, hscan⟩ := scans_enclosedBody hclosing helements h
  refine ⟨used, rfl, fun d => ?_⟩
  obtain ⟨s, hs, rfl⟩ := hscan (d + 1)
  have hstep : step (between d) opening = some (between (d + 1)) := by
    rcases hopening with rfl | rfl <;> rfl
  rw [scan_cons, hstep, Option.bind_some, hs]
  rfl

theorem scans_valueBody {items : List Char → Option (List (Json F) × List Char)}
    {members : List Char → Option (List (String × Json F) × List Char)}
    (hitems : Scans Shut items) (hmembers : Scans Shut members) :
    Scans After (valueBody items members) := by
  intro text value rest h
  unfold valueBody at h
  split at h
  next text =>
    obtain ⟨⟨s, rest'⟩, hstring, hread⟩ := Option.map_eq_some_iff.mp h
    obtain ⟨-, rfl⟩ := Prod.mk.inj hread
    obtain ⟨used, rfl, hscan⟩ := readString_spec hstring
    exact ⟨'"' :: used, rfl, by simp, fun d => ⟨closed d, hscan d, Or.inr rfl⟩⟩
  next text =>
    obtain ⟨⟨xs, rest'⟩, hbody, hread⟩ := Option.map_eq_some_iff.mp h
    obtain ⟨-, rfl⟩ := Prod.mk.inj hread
    obtain ⟨used, rfl, hscan⟩ := scan_brackets hmembers (Or.inl rfl) (Or.inl rfl) hbody
    exact ⟨_ :: used, rfl, by simp, fun d => ⟨between d, hscan d, Or.inl rfl⟩⟩
  next text =>
    obtain ⟨⟨xs, rest'⟩, hbody, hread⟩ := Option.map_eq_some_iff.mp h
    obtain ⟨-, rfl⟩ := Prod.mk.inj hread
    obtain ⟨used, rfl, hscan⟩ := scan_brackets hitems (Or.inr rfl) (Or.inr rfl) hbody
    exact ⟨_ :: used, rfl, by simp, fun d => ⟨between d, hscan d, Or.inl rfl⟩⟩
  next =>
    rcases Option.or_eq_some_iff.mp h with hword | ⟨-, hnumber⟩
    · exact scans_readConstant hword
    · exact scans_readNumber hnumber

/-- The readers keep the brackets. -/
theorem scans_read (n : ℕ) :
    Scans After (readValue n : List Char → Option (Json F × List Char)) ∧
      Scans Shut (readItems n : List Char → Option (List (Json F) × List Char)) ∧
      Scans Shut (readMembers n : List Char → Option (List (String × Json F) × List Char)) := by
  induction n with
  | zero =>
      refine ⟨?_, ?_, ?_⟩ <;> (intro text x rest h; cases h)
  | succ n ih =>
      obtain ⟨hvalue, hitems, hmembers⟩ := ih
      refine ⟨?_, ?_, ?_⟩
      · intro text x rest h
        rw [readValue] at h
        exact scans_valueBody hitems hmembers h
      · intro text x rest h
        rw [readItems] at h
        exact scans_listBody (Or.inr rfl) hvalue hitems h
      · intro text x rest h
        rw [readMembers] at h
        exact scans_listBody (Or.inl rfl) (scans_memberBody hvalue) hmembers h

/-! ## The bound is never reached -/

/-- A reader moves on. -/
theorem Scans.length_lt {α : Type} {P : ℕ → Place → Prop}
    {read : List Char → Option (α × List Char)} (h : Scans P read) {text rest : List Char} {x : α}
    (hread : read text = some (x, rest)) : rest.length < text.length := by
  obtain ⟨used, rfl, hne, -⟩ := h hread
  have hlength := List.length_pos_iff.mpr hne
  rw [List.length_append]
  omega

theorem length_skipSpace_le (text : List Char) : (skipSpace text).length ≤ text.length :=
  (List.dropWhile_suffix _).length_le

/-- A list is read alike where its first element is, and the shorter texts after it. -/
theorem listBody_congr {α : Type} {closing : Char}
    {element element' : List Char → Option (α × List Char)}
    {elements elements' : List Char → Option (List α × List Char)} (hscans : Scans After element)
    {text : List Char} (helement : element text = element' text)
    (helements : ∀ t : List Char, t.length + 2 ≤ text.length → elements t = elements' t) :
    listBody closing element elements text = listBody closing element' elements' text := by
  unfold listBody
  rw [← helement]
  cases hread : element text with
  | none => rfl
  | some read =>
      obtain ⟨first, rest⟩ := read
      have hlength := hscans.length_lt hread
      simp only [Option.bind_eq_bind, Option.bind_some]
      cases hskip : skipSpace rest with
      | nil => rfl
      | cons c tail =>
          have hrest := length_skipSpace_le rest
          have htail := length_skipSpace_le tail
          rw [hskip, List.length_cons] at hrest
          dsimp only
          rw [helements (skipSpace tail) (by omega)]

theorem enclosedBody_congr {α : Type} {closing : Char}
    {elements elements' : List Char → Option (List α × List Char)} {text : List Char}
    (helements : ∀ t : List Char, t.length ≤ text.length → elements t = elements' t) :
    enclosedBody closing elements text = enclosedBody closing elements' text := by
  unfold enclosedBody
  cases hskip : skipSpace text with
  | nil => rfl
  | cons c rest =>
      have hlength := length_skipSpace_le text
      rw [hskip] at hlength
      dsimp only
      rw [helements (c :: rest) hlength]

omit [PyText F] in
theorem memberBody_congr {value value' : List Char → Option (Json F × List Char)}
    {text : List Char} (h : ∀ t : List Char, t.length ≤ text.length → value t = value' t) :
    memberBody value text = memberBody value' text := by
  unfold memberBody
  split
  next text =>
    cases hkey : readString text with
    | none => rfl
    | some read =>
        obtain ⟨key, rest⟩ := read
        obtain ⟨used, rfl, -⟩ := readString_spec hkey
        simp only [Option.bind_eq_bind, Option.bind_some]
        split
        next tail hskip =>
          have hrest := length_skipSpace_le rest
          have htail := length_skipSpace_le tail
          rw [hskip, List.length_cons] at hrest
          rw [h (skipSpace tail) (by simp only [List.length_cons, List.length_append]; omega)]
        next => rfl
  next => rfl

theorem valueBody_congr {items items' : List Char → Option (List (Json F) × List Char)}
    {members members' : List Char → Option (List (String × Json F) × List Char)}
    {text : List Char} (hitems : ∀ t : List Char, t.length < text.length → items t = items' t)
    (hmembers : ∀ t : List Char, t.length < text.length → members t = members' t) :
    valueBody items members text = valueBody items' members' text := by
  unfold valueBody
  split
  · rfl
  · rw [enclosedBody_congr fun t ht => hmembers t (by simpa using Nat.lt_succ_of_le ht)]
  · rw [enclosedBody_congr fun t ht => hitems t (by simpa using Nat.lt_succ_of_le ht)]
  · rfl

/-- Calls that are enough for a text read it alike. -/
theorem read_stable (n : ℕ) : ∀ m, ∀ text : List Char,
    (2 * text.length < n → 2 * text.length < m →
      (readValue n text : Option (Json F × List Char)) = readValue m text) ∧
    (2 * text.length + 1 < n → 2 * text.length + 1 < m →
      (readItems n text : Option (List (Json F) × List Char)) = readItems m text ∧
      (readMembers n text : Option (List (String × Json F) × List Char)) =
        readMembers m text) := by
  induction n with
  | zero => exact fun m text => ⟨fun h => absurd h (by omega), fun h => absurd h (by omega)⟩
  | succ n ih =>
      intro m text
      refine ⟨fun hn hm => ?_, fun hn hm => ⟨?_, ?_⟩⟩
      all_goals obtain ⟨m, rfl⟩ := Nat.exists_eq_add_one.mpr (Nat.zero_lt_of_lt hm)
      · rw [readValue, readValue]
        refine valueBody_congr (fun t ht => ?_) fun t ht => ?_
        · exact ((ih m t).2 (by omega) (by omega)).1
        · exact ((ih m t).2 (by omega) (by omega)).2
      · rw [readItems, readItems]
        refine listBody_congr (scans_read n).1 ((ih m text).1 (by omega) (by omega)) fun t ht => ?_
        exact ((ih m t).2 (by omega) (by omega)).1
      · rw [readMembers, readMembers]
        refine listBody_congr (scans_memberBody (scans_read n).1)
          (memberBody_congr fun t ht => (ih m t).1 (by omega) (by omega)) fun t ht => ?_
        exact ((ih m t).2 (by omega) (by omega)).2

/-- `load` reads as with any greater number of calls. -/
theorem readValue_stable {n : ℕ} {text : List Char} (h : 2 * text.length < n) :
    (readValue n text : Option (Json F × List Char)) = readValue (2 * text.length + 1) text :=
  (read_stable n _ text).1 h (Nat.lt_succ_self _)

/-! ## Objects -/

/-- An object is read from a text that starts with its bracket. -/
theorem members_of_readValue {n : ℕ} {text rest : List Char} {members : List (String × Json F)}
    (h : readValue n text = some (.obj members, rest)) :
    ∃ m tail, text = '\x7b' :: tail ∧
      enclosedBody '\x7d' (readMembers m) tail = some (members, rest) := by
  cases n with
  | zero => cases h
  | succ n =>
      rw [readValue] at h
      unfold valueBody at h
      split at h
      next =>
        obtain ⟨read, -, hread⟩ := Option.map_eq_some_iff.mp h
        cases hread
      next tail =>
        obtain ⟨⟨xs, rest'⟩, hbody, hread⟩ := Option.map_eq_some_iff.mp h
        simp only [Prod.mk.injEq, Json.obj.injEq] at hread
        obtain ⟨rfl, rfl⟩ := hread
        exact ⟨n, tail, rfl, hbody⟩
      next =>
        obtain ⟨read, -, hread⟩ := Option.map_eq_some_iff.mp h
        cases hread
      next =>
        rcases Option.or_eq_some_iff.mp h with hword | ⟨-, hnumber⟩
        · -- no word stands for an object
          obtain ⟨⟨word, item⟩, hmem, hread⟩ := List.exists_of_findSome?_eq_some hword
          simp only [Option.bind_eq_bind, Option.bind_eq_some_iff] at hread
          obtain ⟨value, rfl, after, -, hread⟩ := hread
          obtain ⟨rfl, -⟩ := Prod.mk.inj (Option.some.inj hread)
          simp [constants] at hmem
        · simp only [readNumber, Option.bind_eq_bind, Option.bind_eq_some_iff] at hnumber
          obtain ⟨read, -, hnumber⟩ := hnumber
          split at hnumber
          · cases hnumber
          · obtain ⟨x, -, hx⟩ := Option.bind_eq_some_iff.mp hnumber
            cases hx

/-- What the reader reads as an object, the scanner scans to its end. -/
theorem scan_of_load {text : List Char} {members : List (String × Json F)}
    (h : load text = some (.obj members)) : scan start text = some done := by
  simp only [load, Option.bind_eq_bind, Option.bind_eq_some_iff] at h
  obtain ⟨⟨value, rest⟩, hread, h⟩ := h
  split at h
  next hrest =>
    obtain rfl : value = .obj members := Option.some.inj h
    obtain ⟨m, tail, hskip, hbody⟩ := members_of_readValue hread
    obtain ⟨blanks, htext, hblanks⟩ := exists_skipSpace text
    obtain ⟨used, htail, -, hscan⟩ := scans_enclosedBody (Or.inl rfl) (scans_read m).2.2 hbody
    obtain ⟨s, hs, rfl⟩ := hscan 0
    obtain ⟨blanks', hafter, hblanks'⟩ := exists_skipSpace rest
    rw [hrest, List.append_nil] at hafter
    have hopen : scan start ('\x7b' :: used) = some done := hs
    rw [htext, hskip, htail, scan_append, scan_blanks (Or.inl rfl) hblanks, Option.bind_some,
      ← List.cons_append, scan_append, hopen, Option.bind_some, hafter,
      scan_blanks (Or.inr (Or.inl rfl)) hblanks']
  next => cases h

end JsonText
