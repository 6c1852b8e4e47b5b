import Netlab.Prelude.JsonScan
import Netlab.Prelude.Lines

/-!
# Logs of JSON lines with torn writes

An append-only log to which objects are written one to a line, and from which a reader takes every
line that reads as an object. A write can be cut short by a crash, and what is written next then
stands on the same line.

A proper beginning of a line leaves a bracket open (`broken_of_prefix`). Where the first key of every
object starts with a letter, what is written after it does not close it (`broken_append`), so a line
that holds anything but one whole object reads as no object (`object?_finish`). The reader gets exactly
the objects that stand alone on their lines (`map_object?_log`): no torn object, none made of two, and
every whole one that does not follow a torn one.
-/

namespace JsonText

namespace Place

/-- The scanner stands inside the outermost bracket, with at least `d` brackets open inside it. -/
def AtLeast (d : ℕ) : Place → Prop
  | start => False
  | between e => d ≤ e
  | inside e => d ≤ e
  | escaped e => d ≤ e
  | closed e => d ≤ e
  | done => False

theorem AtLeast.mono {d e : ℕ} {s : Place} (h : AtLeast e s) (hde : d ≤ e) : AtLeast d s := by
  cases s <;> first | exact h | exact le_trans hde h

/-- The scanner gets from one place to another, and every place on the way is one that `P`
allows. -/
def Path (P : Place → Prop) : Place → List Char → Place → Prop
  | s, [], t => P s ∧ s = t
  | s, c :: text, t => P s ∧ ∃ s', step s c = some s' ∧ Path P s' text t

theorem Path.append {P : Place → Prop} {s t u : Place} {text rest : List Char}
    (h : Path P s text t) (h' : Path P t rest u) : Path P s (text ++ rest) u := by
  induction text generalizing s with
  | nil =>
      obtain ⟨-, rfl⟩ := h
      exact h'
  | cons c text ih =>
      obtain ⟨hs, s', hstep, hpath⟩ := h
      exact ⟨hs, s', hstep, ih hpath⟩

theorem Path.mono {P Q : Place → Prop} (hPQ : ∀ s, P s → Q s) {s t : Place} {text : List Char}
    (h : Path P s text t) : Path Q s text t := by
  induction text generalizing s with
  | nil => exact ⟨hPQ s h.1, h.2⟩
  | cons c text ih =>
      obtain ⟨hs, s', hstep, hpath⟩ := h
      exact ⟨hPQ s hs, s', hstep, ih hpath⟩

/-- Every beginning of a text is scanned to a place on the way. -/
theorem Path.scan_prefix {P : Place → Prop} {s t : Place} {text p : List Char}
    (h : Path P s text t) (hp : p <+: text) : ∃ s', scan s p = some s' ∧ P s' := by
  induction text generalizing s p with
  | nil =>
      obtain rfl := List.prefix_nil.mp hp
      exact ⟨s, rfl, h.1⟩
  | cons c text ih =>
      obtain ⟨hs, s', hstep, hpath⟩ := h
      cases p with
      | nil => exact ⟨s, rfl, hs⟩
      | cons d p =>
          obtain ⟨rfl, hrest⟩ := List.cons_prefix_cons.mp hp
          obtain ⟨s'', hscan, hP⟩ := ih hpath hrest
          exact ⟨s'', by rw [scan_cons, hstep, Option.bind_some, hscan], hP⟩

theorem Path.scan_eq {P : Place → Prop} {s t : Place} {text : List Char} (h : Path P s text t) :
    scan s text = some t := by
  induction text generalizing s with
  | nil => rw [scan_nil, h.2]
  | cons c text ih =>
      obtain ⟨hs, s', hstep, hpath⟩ := h
      rw [scan_cons, hstep, Option.bind_some, ih hpath]

/-- Characters that keep the scanner where it is. -/
theorem path_of_step {P : Place → Prop} {s : Place} (hs : P s) {text : List Char}
    (h : ∀ c ∈ text, step s c = some s) : Path P s text s := by
  induction text with
  | nil => exact ⟨hs, rfl⟩
  | cons c text ih =>
      exact ⟨hs, s, h c List.mem_cons_self, ih fun c' hc' => h c' (List.mem_cons_of_mem _ hc')⟩

/-- One character, with the ends of the step allowed. -/
theorem path_singleton {P : Place → Prop} {s t : Place} {c : Char} (hs : P s) (ht : P t)
    (h : step s c = some t) : Path P s [c] t := ⟨hs, t, h, ht, rfl⟩

end Place

open Place

/-! ## Scanning what is written -/

section Written

/-- An escaped character is scanned inside the string. -/
theorem path_escape (ascii : Bool) (c : Char) (d : ℕ) :
    Path (AtLeast d) (inside d) (escape ascii c) (inside d) := by
  have hd : AtLeast d (inside d) := le_refl d
  have hd' : AtLeast d (escaped d) := le_refl d
  have hshort (short : Char) : Path (AtLeast d) (inside d) ['\\', short] (inside d) :=
    ⟨hd, _, rfl, hd', _, rfl, hd, rfl⟩
  have hdigit : ∀ m < 16, step (inside d) (Nat.digitChar m) = some (inside d) := by
    intro m hm
    interval_cases m <;> rfl
  have hunit (n : ℕ) : Path (AtLeast d) (inside d) (escapeUnit n) (inside d) := by
    refine Path.append (hshort 'u') (path_of_step hd fun c hc => ?_)
    simp only [List.mem_cons, List.not_mem_nil, or_false] at hc
    rcases hc with rfl | rfl | rfl | rfl <;> exact hdigit _ (Nat.mod_lt _ (by norm_num))
  unfold escape
  split
  next short _ => exact hshort short
  next hplain =>
    split
    · have hne := ne_of_shortEscape?_eq_none hplain
      refine path_singleton hd hd ?_
      rw [step, if_neg hne.2, if_neg hne.1]
    · split
      · exact hunit _
      · exact (hunit _).append (hunit _)

/-- A written string is scanned to behind its closing quote. -/
theorem path_quoted (ascii : Bool) (s : String) (d : ℕ) :
    Path (AtLeast d) (between d) (quoted ascii s) (closed d) := by
  have hchars : Path (AtLeast d) (inside d) (s.toList.flatMap (escape ascii)) (inside d) := by
    induction s.toList with
    | nil => exact ⟨le_refl d, rfl⟩
    | cons c cs ih =>
        rw [List.flatMap_cons]
        exact (path_escape ascii c d).append ih
  have hclose : Path (AtLeast d) (inside d) ['"'] (closed d) :=
    path_singleton (le_refl d) (le_refl d) rfl
  exact ⟨le_refl d, inside d, rfl, hchars.append hclose⟩

theorem atLeast_after {d : ℕ} {s : Place} (h : After d s) : AtLeast d s := by
  rcases h with rfl | rfl <;> exact le_refl d

/-- A written value is scanned inside its brackets, to behind it. -/
def Level (text : List Char) : Prop :=
  ∀ d, ∃ s, After d s ∧ Path (AtLeast d) (between d) text s

theorem level_harmless {text : List Char}
    (h : ∀ c ∈ text, c ∉ ['"', '\x7b', '\x7d', '[', ']']) : Level text := by
  intro d
  refine ⟨between d, Or.inl rfl, path_of_step (le_refl d) fun c hc => ?_⟩
  have hc := h c hc
  simp only [List.mem_cons, List.not_mem_nil, or_false, not_or] at hc
  simp [step, hc]

theorem path_blanks {d : ℕ} {s : Place} (h : After d s) {blanks : List Char}
    (hblanks : ∀ c ∈ blanks, isBlank c = true) : Path (AtLeast d) s blanks s := by
  refine path_of_step (atLeast_after h) fun c hc => ?_
  have hscan : scan s [c] = some s :=
    scan_blanks (Or.inr (Or.inr ⟨d, h⟩)) (by simpa using hblanks c hc)
  simpa using hscan

/-- Pieces between brackets are scanned one level further in, up to the closing bracket. -/
theorem path_pieces (L : Layout) (depth d : ℕ) {pieces : List (List Char)} (hne : pieces ≠ [])
    (h : ∀ piece ∈ pieces, Level piece) (opening closing : Char) :
    ∃ body s, L.enclosed depth opening closing pieces = opening :: (body ++ [closing]) ∧
      After d s ∧ Path (AtLeast d) (between d) body s := by
  obtain ⟨piece, pieces, rfl⟩ := List.exists_cons_of_ne_nil hne
  -- the induction is on the pieces that follow a separator, from any place behind a value
  have htail : ∀ s, After d s → ∃ s', After d s' ∧
      Path (AtLeast d) s (pieces.flatMap fun piece => L.separator (depth + 1) ++ piece) s' := by
    have hpieces : ∀ piece ∈ pieces, Level piece := fun piece hpiece =>
      h piece (List.mem_cons_of_mem _ hpiece)
    clear h hne
    induction pieces with
    | nil => exact fun s hs => ⟨s, hs, atLeast_after hs, rfl⟩
    | cons next pieces ih =>
        intro s hs
        obtain ⟨s', hs', hpath⟩ := hpieces next List.mem_cons_self d
        obtain ⟨s'', hs'', hpath'⟩ :=
          ih (fun piece hpiece => hpieces piece (List.mem_cons_of_mem _ hpiece)) s' hs'
        have hcomma : Path (AtLeast d) s [','] (between d) :=
          path_singleton (atLeast_after hs) (le_refl d) (step_separator hs (Or.inl rfl))
        have hblanks : ∀ c ∈ List.replicate L.afterComma ' ' ++ L.newline (depth + 1),
            isBlank c = true := fun c hc => (List.mem_append.mp hc).elim
          (isBlank_replicate _ c) (isBlank_newline L _ c)
        refine ⟨s'', hs'', ?_⟩
        rw [List.flatMap_cons]
        exact ((hcomma.append (path_blanks (Or.inl rfl) hblanks)).append hpath).append hpath'
  obtain ⟨s, hs, hpath⟩ := h piece List.mem_cons_self d
  obtain ⟨s', hs', hpath'⟩ := htail s hs
  refine ⟨L.newline (depth + 1) ++ (piece ++
    (pieces.flatMap (fun piece => L.separator (depth + 1) ++ piece) ++ L.newline depth)), s', ?_,
    hs', ?_⟩
  · simp [Layout.enclosed]
  · exact (path_blanks (Or.inl rfl) (isBlank_newline L _)).append
      (hpath.append (hpath'.append (path_blanks hs' (isBlank_newline L _))))

/-- Brackets around pieces are scanned to behind them. -/
theorem level_enclosed (L : Layout) (depth : ℕ) {pieces : List (List Char)}
    (h : ∀ piece ∈ pieces, Level piece) {opening closing : Char}
    (hopening : opening = '\x7b' ∨ opening = '[') (hclosing : closing = '\x7d' ∨ closing = ']') :
    Level (L.enclosed depth opening closing pieces) := by
  intro d
  have hopen : step (between d) opening = some (between (d + 1)) := by
    rcases hopening with rfl | rfl <;> rfl
  refine ⟨between d, Or.inl rfl, ?_⟩
  by_cases hne : pieces = []
  · subst hne
    exact ⟨le_refl d, _, hopen, Nat.le_succ d, _, step_closing (Or.inl rfl) hclosing,
      le_refl d, rfl⟩
  · obtain ⟨body, s, htext, hs, hpath⟩ := path_pieces L depth (d + 1) hne h opening closing
    rw [htext]
    have hbody : Path (AtLeast d) (between (d + 1)) body s :=
      hpath.mono fun _ h => h.mono (Nat.le_succ d)
    have hclose : Path (AtLeast d) s [closing] (between d) :=
      path_singleton ((atLeast_after hs).mono (Nat.le_succ d)) (le_refl d)
        (step_closing hs hclosing)
    exact ⟨le_refl d, _, hopen, hbody.append hclose⟩

variable {F : Type} [PyText F] [PyFloat F] [FloatNumeral F]

omit [PyText F] [PyFloat F] [FloatNumeral F] in
theorem IsNatural.inNumber {text : List Char} (h : IsNatural text) : ∀ c ∈ text, InNumber c := by
  rcases h with rfl | ⟨hdigits, -⟩
  · simp [InNumber]
  · exact fun c hc => Or.inl (hdigits.2 c hc)

omit [PyText F] [PyFloat F] [FloatNumeral F] in
theorem IsWhole.inNumber {text : List Char} (h : IsWhole text) : ∀ c ∈ text, InNumber c := by
  rcases h with h | ⟨ds, rfl, h⟩
  · exact h.inNumber
  · exact List.forall_mem_cons.mpr ⟨Or.inr (by decide), h.inNumber⟩

omit [PyText F] [PyFloat F] [FloatNumeral F] in
/-- The characters of a number with a fraction or an exponent. -/
theorem IsFloat.inNumber {text : List Char} (h : IsFloat text) : ∀ c ∈ text, InNumber c := by
  obtain ⟨whole, fraction, exponent, rfl, hwhole, hfraction, hexponent, -⟩ := h
  have hfraction : ∀ c ∈ fraction, InNumber c := by
    rcases hfraction with rfl | ⟨ds, rfl, hds⟩
    · simp
    · exact List.forall_mem_cons.mpr ⟨Or.inr (by decide), fun c hc => Or.inl (hds.2 c hc)⟩
  have hexponent : ∀ c ∈ exponent, InNumber c := by
    rcases hexponent with rfl | ⟨sign, ds, rfl, hsign, hds⟩
    · simp
    · refine List.forall_mem_cons.mpr ⟨Or.inr (by decide), List.forall_mem_append.mpr ⟨?_, ?_⟩⟩
      · simp only [List.mem_cons, List.not_mem_nil, or_false] at hsign
        rcases hsign with rfl | rfl | rfl <;> simp [InNumber]
      · exact fun c hc => Or.inl (hds.2 c hc)
  exact List.forall_mem_append.mpr
    ⟨List.forall_mem_append.mpr ⟨hwhole.inNumber, hfraction⟩, hexponent⟩

/-- A written value is scanned to behind it. -/
theorem level_write (L : Layout) (ascii : Bool) (depth : ℕ) {value : Json F}
    (hfinite : finite value = true) : Level (write L ascii depth value) := by
  induction value using nestedInduction generalizing depth with
  | scalar value harr hobj =>
      cases value with
      | null => exact @level_harmless ['n', 'u', 'l', 'l'] (by simp)
      | bool b =>
          cases b with
          | true => exact @level_harmless ['t', 'r', 'u', 'e'] (by simp)
          | false => exact @level_harmless ['f', 'a', 'l', 's', 'e'] (by simp)
      | int n => exact level_harmless fun c hc => ((isWhole_repr n).inNumber c hc).harmless
      | float x =>
          exact level_harmless fun c hc => ((isFloat_floatText hfinite).inNumber c hc).harmless
      | str s => exact fun d => ⟨closed d, Or.inr rfl, path_quoted ascii s d⟩
      | arr items => exact absurd rfl (harr items)
      | obj members => exact absurd rfl (hobj members)
  | array items ih =>
      have hitems := every_arr.mp hfinite
      rw [write, writeItems_eq_map]
      refine level_enclosed L depth (List.forall_mem_map.mpr fun item hitem => ?_) (Or.inr rfl)
        (Or.inr rfl)
      exact ih item hitem _ (hitems item hitem)
  | object members ih =>
      have hmembers := every_obj.mp hfinite
      rw [write, writeMembers_eq_map]
      refine level_enclosed L depth (List.forall_mem_map.mpr fun member hmember => ?_) (Or.inl rfl)
        (Or.inl rfl)
      intro d
      obtain ⟨s, hs, hpath⟩ := ih member hmember (depth + 1) (hmembers member hmember).2 d
      have hclosed : After d (closed d) := Or.inr rfl
      have hcolon : Path (AtLeast d) (closed d) [':'] (between d) :=
        path_singleton (atLeast_after hclosed) (le_refl d) (step_separator hclosed (Or.inr rfl))
      have hblanks := path_blanks (d := d) (Or.inl rfl) (isBlank_replicate L.afterColon)
      exact ⟨s, hs, (path_quoted ascii member.1 d).append
        (hcolon.append (hblanks.append hpath))⟩

end Written

/-! ## Lines that are no object -/

section Lines

variable {F : Type} [PyText F] [PyFloat F]

/-- The line of an object. -/
def lineText (members : List (String × Json F)) : List Char := write .compact true 0 (.obj members)

/-- The first key, if there is one, starts with a letter. -/
def LetterFirst (members : List (String × Json F)) : Prop :=
  ∀ member ∈ members.head?, ∃ c ∈ member.1.toList.head?, c.isAlpha = true

/-- No text that goes on from here is an object. -/
def Broken : Option Place → Prop
  | none => True
  | some s => AtLeast 0 s

theorem Broken.ne_done {o : Option Place} (h : Broken o) : o ≠ some done := by
  rintro rfl
  exact h

variable [FloatNumeral F] {members : List (String × Json F)}

/-- The line of an object is scanned inside the outermost bracket up to the bracket that closes
it. -/
theorem exists_lineText (hfinite : finite (.obj members) = true) :
    ∃ body s, lineText members = '\x7b' :: (body ++ ['\x7d']) ∧ After 0 s ∧
      Path (AtLeast 0) (between 0) body s := by
  have hmembers := every_obj.mp hfinite
  rw [lineText, write]
  by_cases hne : members = []
  · subst hne
    exact ⟨[], between 0, rfl, Or.inl rfl, le_refl 0, rfl⟩
  · refine path_pieces .compact 0 0 ?_ (fun piece hpiece => ?_) _ _
    · rw [writeMembers_eq_map]
      simpa using hne
    · rw [writeMembers_eq_map] at hpiece
      obtain ⟨member, hmember, rfl⟩ := List.mem_map.mp hpiece
      -- a member is a value one level further in, between the brackets of an object of its own
      intro d
      have hvalue : finite member.2 = true := (hmembers member hmember).2
      obtain ⟨s, hs, hpath⟩ := level_write .compact true 1 hvalue d
      have hclosed : After d (closed d) := Or.inr rfl
      have hcolon : Path (AtLeast d) (closed d) [':'] (between d) :=
        path_singleton (atLeast_after hclosed) (le_refl d) (step_separator hclosed (Or.inr rfl))
      exact ⟨s, hs, (path_quoted true member.1 d).append (hcolon.append hpath)⟩

/-- The line of an object is scanned to its end. -/
theorem scan_lineText (hfinite : finite (.obj members) = true) :
    scan start (lineText members) = some done := by
  obtain ⟨body, s, htext, hs, hpath⟩ := exists_lineText hfinite
  have hopen : step start '\x7b' = some (between 0) := rfl
  rw [htext, scan_cons, hopen, Option.bind_some, scan_append, hpath.scan_eq, Option.bind_some,
    scan_cons, step_closing hs (Or.inl rfl)]
  rfl

/-- A proper beginning of the line of an object leaves a bracket open. -/
theorem broken_of_prefix (hfinite : finite (.obj members) = true) {p : List Char}
    (hp : p <+: lineText members) (hne : p ≠ []) (hproper : p ≠ lineText members) :
    Broken (scan start p) := by
  obtain ⟨body, s, htext, hs, hpath⟩ := exists_lineText hfinite
  obtain ⟨c, p, rfl⟩ := List.exists_cons_of_ne_nil hne
  rw [htext] at hp hproper
  obtain ⟨rfl, hp'⟩ := List.cons_prefix_cons.mp hp
  have hbody : p <+: body := by
    rcases List.prefix_concat_iff.mp hp' with rfl | h
    · exact absurd rfl hproper
    · exact h
  obtain ⟨s', hscan, hplace⟩ := hpath.scan_prefix hbody
  have hopen : scan start ('\x7b' :: p) = scan (between 0) p := rfl
  rw [hopen, hscan]
  exact hplace

omit [PyText F] [PyFloat F] [FloatNumeral F] in
/-- A letter is written as it is, and does not stand behind a closing quote. -/
theorem letter_spec {c : Char} (h : c.isAlpha = true) :
    escape true c = [c] ∧ ∀ d, step (closed d) c = none := by
  have hrange : (65 ≤ c.toNat ∧ c.toNat ≤ 90) ∨ (97 ≤ c.toNat ∧ c.toNat ≤ 122) := by
    have hcase : (decide (c.val ≥ 65 ∧ c.val ≤ 90) ||
        decide (c.val ≥ 97) && decide (c.val ≤ 122)) = true := h
    simpa [UInt32.le_iff_toNat_le] using hcase
  have hne : ∀ x : Char, x.isAlpha = false → c ≠ x := by
    rintro x hx rfl
    rw [h] at hx
    cases hx
  have hplain : IsPlain true c := ⟨by omega, fun _ => by omega⟩
  refine ⟨?_, fun d => ?_⟩
  · simp [escape, shortEscape?, hplain, hne '"' rfl, hne '\\' rfl, hne '\n' rfl, hne '\r' rfl,
      hne '\t' rfl, hne '\x0c' rfl, hne '\x08' rfl]
  · simp [step, isBlank, hne ' ' rfl, hne '\n' rfl, hne '\r' rfl, hne '\t' rfl, hne ',' rfl,
      hne ':' rfl, hne '\x7d' rfl, hne ']' rfl]

omit [FloatNumeral F] in
/-- The line of an object starts with its bracket, a quote and the letter, if it has a member. -/
theorem lineText_cases (hletter : LetterFirst members) :
    lineText members = ['\x7b', '\x7d'] ∨
      ∃ letter tail, letter.isAlpha = true ∧ lineText members = '\x7b' :: '"' :: letter :: tail := by
  cases members with
  | nil => exact Or.inl rfl
  | cons member members =>
      obtain ⟨letter, hhead, halpha⟩ := hletter member rfl
      refine Or.inr ⟨letter, ?_⟩
      obtain ⟨key, hkey⟩ : ∃ key, member.1.toList = letter :: key :=
        ⟨_, List.eq_cons_of_mem_head? hhead⟩
      rw [lineText, write, writeMembers, quoted, hkey, List.flatMap_cons, (letter_spec halpha).1]
      exact ⟨_, halpha, rfl⟩

omit [FloatNumeral F] in
/-- From inside a string the first key ends the line: its letter stands behind a closing quote. -/
theorem broken_inside (hletter : LetterFirst members) {d : ℕ} {s : Place}
    (hs : s = inside d ∨ s = escaped d) {q : List Char} (hq : q <+: lineText members) :
    Broken (scan s q) := by
  have hbrace : step s '\x7b' = some (inside d) := by rcases hs with rfl | rfl <;> rfl
  have hplace : AtLeast 0 s := by rcases hs with rfl | rfl <;> exact Nat.zero_le d
  have hinside : AtLeast 0 (inside d) := Nat.zero_le d
  rcases lineText_cases hletter with htext | ⟨letter, tail, halpha, htext⟩
  · -- both brackets of the empty object stand inside the string
    have hpath : Path (AtLeast 0) s (lineText members) (inside d) := by
      rw [htext]
      exact ⟨hplace, _, hbrace, path_singleton hinside hinside rfl⟩
    obtain ⟨s', hscan, hplace'⟩ := hpath.scan_prefix hq
    rw [hscan]
    exact hplace'
  · have hpath : Path (AtLeast 0) s ['\x7b', '"'] (closed d) :=
      ⟨hplace, _, hbrace, path_singleton hinside (Nat.zero_le d) rfl⟩
    have hparts : lineText members = ['\x7b', '"'] ++ letter :: tail := htext
    rw [hparts] at hq
    rcases List.prefix_or_prefix_of_prefix hq (List.prefix_append _ _) with hshort | ⟨q', rfl⟩
    · obtain ⟨s', hscan, hplace'⟩ := hpath.scan_prefix hshort
      rw [hscan]
      exact hplace'
    · rw [scan_append, hpath.scan_eq, Option.bind_some]
      cases q' with
      | nil => exact Nat.zero_le d
      | cons c q' =>
          have hq' := (List.prefix_append_right_inj _).mp hq
          obtain ⟨hc, -⟩ := List.cons_prefix_cons.mp hq'
          rw [scan_cons, hc, (letter_spec halpha).2 d]
          trivial

/-- What is written after a line that was broken off does not close it. -/
theorem broken_append (hfinite : finite (.obj members) = true) (hletter : LetterFirst members)
    {t q : List Char} (ht : Broken (scan start t)) (hq : q <+: lineText members) :
    Broken (scan start (t ++ q)) := by
  rw [scan_append]
  cases hscan : scan start t with
  | none => trivial
  | some s =>
      rw [hscan] at ht
      rw [Option.bind_some]
      cases s with
      | start => exact absurd ht (by simp [Broken, AtLeast])
      | done => exact absurd ht (by simp [Broken, AtLeast])
      | between d =>
          -- the line is scanned as a value of its own, and the place before it stays open
          obtain ⟨s', -, hpath⟩ := level_write .compact true 0 hfinite d
          obtain ⟨s', hs', hplace⟩ := hpath.scan_prefix hq
          rw [hs']
          exact hplace.mono (Nat.zero_le d)
      | inside d => exact broken_inside hletter (Or.inl rfl) hq
      | escaped d => exact broken_inside hletter (Or.inr rfl) hq
      | closed d =>
          -- behind a closed string no bracket may stand
          cases q with
          | nil => exact Nat.zero_le d
          | cons c q =>
              obtain ⟨body, _, htext, -⟩ := exists_lineText hfinite
              rw [htext] at hq
              obtain ⟨hc, -⟩ := List.cons_prefix_cons.mp hq
              rw [scan_cons, hc]
              trivial

end Lines

/-! ## Logs -/

section Logs

variable {F : Type} [PyText F] [PyFloat F]

/-- One object that is appended to a log, and the number of characters of its line that reach the
file. -/
structure LogEntry (F : Type) where
  members : List (String × Json F)
  written : ℕ

namespace LogEntry

/-- What reaches the file. -/
def text (a : LogEntry F) : List Char := (lineText a.members ++ ['\n']).take a.written

/-- The object and the newline after it reach the file. -/
def Complete (a : LogEntry F) : Prop := (lineText a.members).length < a.written

instance (a : LogEntry F) : Decidable a.Complete := inferInstanceAs (Decidable (_ < _))

end LogEntry

/-- What stands on the last line of a log, which has no newline yet. -/
inductive Line (F : Type)
  | empty
  | whole (members : List (String × Json F))
  | broken

namespace Line

/-- What a reader gets from the line when a whole object is written to it. -/
def finish : Line F → List (String × Json F) → Option (List (String × Json F))
  | empty, members => some members
  | _, _ => none

/-- The line after the first characters of an object have been written to it, one at least. -/
def begin : Line F → LogEntry F → Line F
  | empty, a => if a.written < (lineText a.members).length then broken else whole a.members
  | _, _ => broken

/-- The line after the beginning of an object has been written to it. -/
def tear (line : Line F) (a : LogEntry F) : Line F := if a.written = 0 then line else line.begin a

/-- What a reader gets from the line as it stands. -/
def rest : Line F → List (Option (List (String × Json F)))
  | empty => []
  | whole members => [some members]
  | broken => [none]

end Line

/-- What a reader gets from the lines of a log, the first of which is begun already. -/
def outcomes : Line F → List (LogEntry F) → List (Option (List (String × Json F)))
  | line, [] => line.rest
  | line, a :: log =>
      if a.Complete then line.finish a.members :: outcomes .empty log else outcomes (line.tear a) log

/-- A log without torn writes is read whole. -/
theorem outcomes_of_complete {log : List (LogEntry F)} (h : ∀ a ∈ log, a.Complete) :
    outcomes .empty log = log.map fun a => some a.members := by
  induction log with
  | nil => rfl
  | cons a log ih =>
      rw [outcomes, if_pos (h a List.mem_cons_self),
        ih fun b hb => h b (List.mem_cons_of_mem a hb)]
      rfl

/-- The object that a line reads as. -/
def object? (line : List Char) : Option (List (String × Json F)) :=
  match load line with
  | some (.obj members) => some members
  | _ => none

variable [FloatNumeral F]

theorem object?_lineText {members : List (String × Json F)} (h : finite (.obj members) = true) :
    object? (lineText members) = some members := by
  have hload : load (write .compact true 0 (.obj members) ++ []) = some (.obj members) :=
    load_write .compact true h (by simp)
  rw [List.append_nil] at hload
  rw [object?, lineText, hload]

omit [PyFloat F] [FloatNumeral F] in
/-- A line on which the scanner does not end is no object. -/
theorem object?_of_ne_done {line : List Char} (h : scan start line ≠ some done) :
    (object? line : Option (List (String × Json F))) = none := by
  unfold object?
  split
  next hload => exact absurd (scan_of_load hload) h
  next => rfl

/-! ### The characters of a line -/

/-- The character is printable ASCII. -/
def Printable (c : Char) : Prop := 0x20 ≤ c.toNat ∧ c.toNat ≤ 0x7e

instance (c : Char) : Decidable (Printable c) := inferInstanceAs (Decidable (_ ∧ _))

theorem Printable.not_isLineBreak {c : Char} (h : Printable c) : Lines.isLineBreak c = false := by
  obtain ⟨hlow, hhigh⟩ := h
  rw [Lines.isLineBreak, decide_eq_false_iff_not]
  intro hmem
  simp only [List.mem_cons, List.not_mem_nil, or_false] at hmem
  omega

omit [PyText F] [PyFloat F] [FloatNumeral F] in
theorem printable_escape (c : Char) : ∀ x ∈ escape true c, Printable x := by
  have hdigit : ∀ m < 16, Printable (Nat.digitChar m) := by
    intro m hm
    interval_cases m <;> decide
  have hunit (n : ℕ) : ∀ x ∈ escapeUnit n, Printable x := by
    intro x hx
    simp only [escapeUnit, List.mem_cons, List.not_mem_nil, or_false] at hx
    rcases hx with rfl | rfl | rfl | rfl | rfl | rfl
    · decide
    · decide
    all_goals exact hdigit _ (Nat.mod_lt _ (by norm_num))
  unfold escape
  split
  next short hshort =>
    have hprintable : Printable short := by
      simp only [shortEscape?] at hshort
      repeat' split at hshort
      all_goals first
        | (obtain rfl := Option.some.inj hshort; decide)
        | cases hshort
    exact List.forall_mem_cons.mpr ⟨by decide, by simpa using hprintable⟩
  next =>
    split
    next hplain =>
      have hprintable : Printable c := ⟨hplain.1, hplain.2 rfl⟩
      simpa using hprintable
    next =>
      split
      · exact hunit _
      · exact List.forall_mem_append.mpr ⟨hunit _, hunit _⟩

omit [PyText F] [PyFloat F] [FloatNumeral F] in
theorem printable_quoted (s : String) : ∀ c ∈ quoted true s, Printable c := by
  refine List.forall_mem_cons.mpr ⟨by decide, List.forall_mem_append.mpr ⟨?_, by simp [Printable]⟩⟩
  exact List.forall_mem_flatMap.mpr fun c _ => printable_escape c

omit [PyText F] [PyFloat F] [FloatNumeral F] in
theorem InNumber.printable {c : Char} (h : InNumber c) : Printable c := by
  rcases h with h | h
  · have hdigit : 48 ≤ c.toNat ∧ c.toNat ≤ 57 := by
      simpa [Char.isDigit, Char.le_def, UInt32.le_iff_toNat_le] using h
    exact ⟨by omega, by omega⟩
  · simp only [List.mem_cons, List.not_mem_nil, or_false] at h
    rcases h with rfl | rfl | rfl | rfl | rfl <;> decide

omit [PyText F] [PyFloat F] [FloatNumeral F] in
theorem printable_joined {pieces : List (List Char)}
    (h : ∀ piece ∈ pieces, ∀ c ∈ piece, Printable c) : ∀ c ∈ joined pieces, Printable c := by
  induction pieces with
  | nil => exact List.forall_mem_nil _
  | cons piece pieces ih =>
      have hrest := ih fun p hp => h p (List.mem_cons_of_mem _ hp)
      rw [joined_cons]
      refine List.forall_mem_append.mpr ⟨h piece List.mem_cons_self, ?_⟩
      cases pieces with
      | nil => exact List.forall_mem_nil _
      | cons next pieces => exact List.forall_mem_cons.mpr ⟨by decide, hrest⟩

/-- A value written without white space and in ASCII has printable characters only. -/
theorem printable_write (depth : ℕ) {value : Json F} (hfinite : finite value = true) :
    ∀ c ∈ write .compact true depth value, Printable c := by
  induction value using nestedInduction generalizing depth with
  | scalar value harr hobj =>
      cases value with
      | null => simp [write, Printable]
      | bool b => cases b <;> simp [write, Printable]
      | int n => exact fun c hc => ((isWhole_repr n).inNumber c hc).printable
      | float x => exact fun c hc => ((isFloat_floatText hfinite).inNumber c hc).printable
      | str s => exact printable_quoted s
      | arr items => exact absurd rfl (harr items)
      | obj members => exact absurd rfl (hobj members)
  | array items ih =>
      have hitems := every_arr.mp hfinite
      rw [write, enclosed_compact, writeItems_eq_map]
      refine List.forall_mem_cons.mpr ⟨by decide, List.forall_mem_append.mpr ⟨?_, by simp [Printable]⟩⟩
      exact printable_joined (List.forall_mem_map.mpr fun item hitem =>
        ih item hitem _ (hitems item hitem))
  | object members ih =>
      have hmembers := every_obj.mp hfinite
      rw [write, enclosed_compact, writeMembers_eq_map]
      refine List.forall_mem_cons.mpr ⟨by decide, List.forall_mem_append.mpr ⟨?_, by simp [Printable]⟩⟩
      refine printable_joined (List.forall_mem_map.mpr fun member hmember => ?_)
      exact List.forall_mem_append.mpr ⟨printable_quoted member.1,
        List.forall_mem_cons.mpr ⟨by decide, ih member hmember _ (hmembers member hmember).2⟩⟩

/-! ### What a reader gets -/

/-- The text on the last line of a log is what the line is said to hold. -/
def Line.Holds : Line F → List Char → Prop
  | empty, t => t = []
  | whole members, t => t = lineText members ∧ finite (.obj members) = true
  | broken, t => t ≠ [] ∧ Broken (scan start t)

/-- The objects of a log are such as can be told from each other on one line. -/
def LogEntry.Clear (a : LogEntry F) : Prop := finite (.obj a.members) = true ∧ LetterFirst a.members

variable {line : Line F} {t : List Char} {a : LogEntry F}

/-- After a line that holds something, an object can no longer be read. -/
theorem broken_of_holds (hline : line.Holds t) (ha : a.Clear) {q : List Char}
    (hq : q <+: lineText a.members) (hne : t ≠ []) (hqne : q ≠ []) :
    Broken (scan start (t ++ q)) := by
  cases line with
  | empty => exact absurd hline hne
  | broken => exact broken_append ha.1 ha.2 hline.2 hq
  | whole members =>
      obtain ⟨rfl, hfinite⟩ := hline
      obtain ⟨c, q, rfl⟩ := List.exists_cons_of_ne_nil hqne
      obtain ⟨body, _, htext, -⟩ := exists_lineText ha.1
      rw [htext] at hq
      obtain ⟨hc, -⟩ := List.cons_prefix_cons.mp hq
      rw [scan_append, scan_lineText hfinite, Option.bind_some, scan_cons, hc]
      trivial

omit [FloatNumeral F] in
theorem lineText_ne_nil (members : List (String × Json F)) : lineText members ≠ [] := by
  rw [lineText, write]
  cases members <;> simp [writeMembers, Layout.enclosed]

/-- A torn object leaves the line as the model says. -/
theorem holds_tear (hline : line.Holds t) (ha : a.Clear) (htorn : ¬ a.Complete) :
    (line.tear a).Holds (t ++ a.text) := by
  have hlength : a.written ≤ (lineText a.members).length := Nat.not_lt.mp htorn
  have htext : a.text = (lineText a.members).take a.written :=
    List.take_append_of_le_length hlength
  have hq : a.text <+: lineText a.members := htext ▸ List.take_prefix _ _
  rw [Line.tear]
  by_cases hzero : a.written = 0
  · rw [if_pos hzero, htext, hzero, List.take_zero, List.append_nil]
    exact hline
  · rw [if_neg hzero]
    have hqne : a.text ≠ [] := by
      intro hnil
      rw [htext, List.take_eq_nil_iff] at hnil
      exact hnil.elim hzero (lineText_ne_nil _)
    by_cases hne : t = []
    · -- the line was empty, and holds the beginning of one object now
      cases line with
      | whole members => exact absurd (hline.1.symm.trans hne) (lineText_ne_nil _)
      | broken => exact absurd hne hline.1
      | empty =>
          rw [hne, List.nil_append, Line.begin]
          split
          next hshort =>
            refine ⟨hqne, broken_of_prefix ha.1 hq hqne fun heq => ?_⟩
            have hlen := congrArg List.length (htext.symm.trans heq)
            rw [List.length_take] at hlen
            omega
          next hlong =>
            refine ⟨?_, ha.1⟩
            rw [htext, List.take_of_length_le (Nat.not_lt.mp hlong)]
    · have hbroken := broken_of_holds hline ha hq hne hqne
      cases line with
      | empty => exact absurd hline hne
      | whole members => exact ⟨by simp [hne], hbroken⟩
      | broken => exact ⟨by simp [hne], hbroken⟩

/-- A whole object is read exactly from a line of its own. -/
theorem object?_finish (hline : line.Holds t) (ha : a.Clear) :
    object? (t ++ lineText a.members) = line.finish a.members := by
  cases line with
  | empty =>
      obtain rfl : t = [] := hline
      exact object?_lineText ha.1
  | whole members =>
      have hne : t ≠ [] := hline.1 ▸ lineText_ne_nil members
      exact object?_of_ne_done
        (broken_of_holds hline ha (List.prefix_refl _) hne (lineText_ne_nil _)).ne_done
  | broken =>
      exact object?_of_ne_done
        (broken_of_holds hline ha (List.prefix_refl _) hline.1 (lineText_ne_nil _)).ne_done

omit [PyText F] [PyFloat F] [FloatNumeral F] in
/-- A text without line breaks is one line, unless it is empty. -/
theorem splitLines_of_not_isLineBreak {t : List Char}
    (h : ∀ c ∈ t, Lines.isLineBreak c = false) :
    Lines.splitLines t = if t = [] then [] else [t] := by
  induction t with
  | nil => rfl
  | cons c t ih =>
      have ih := ih fun x hx => h x (List.mem_cons_of_mem _ hx)
      rw [Lines.splitLines_cons_of_not (h c List.mem_cons_self), ih, if_neg (List.cons_ne_nil _ _)]
      split
      next hnil => rw [hnil]; rfl
      next => rfl

/-- What a reader gets from the last line as it stands. -/
theorem map_object?_rest (hline : line.Holds t) (ht : ∀ c ∈ t, Lines.isLineBreak c = false) :
    (Lines.splitLines t).map object? = line.rest := by
  rw [splitLines_of_not_isLineBreak ht]
  cases line with
  | empty =>
      obtain rfl : t = [] := hline
      rfl
  | whole members =>
      obtain ⟨rfl, hfinite⟩ := hline
      rw [if_neg (lineText_ne_nil _), List.map_singleton, object?_lineText hfinite]
      rfl
  | broken =>
      rw [if_neg hline.1, List.map_singleton, object?_of_ne_done hline.2.ne_done]
      rfl

/-- What a reader gets from the lines of a log, the first of which is begun already. -/
theorem map_object?_append {log : List (LogEntry F)} (hlog : ∀ a ∈ log, a.Clear)
    (hline : line.Holds t) (ht : ∀ c ∈ t, Lines.isLineBreak c = false) :
    (Lines.splitLines (t ++ log.flatMap LogEntry.text)).map object? = outcomes line log := by
  induction log generalizing line t with
  | nil =>
      rw [List.flatMap_nil, List.append_nil, outcomes]
      exact map_object?_rest hline ht
  | cons a log ih =>
      have ha := hlog a List.mem_cons_self
      have hlog := fun b hb => hlog b (List.mem_cons_of_mem a hb)
      have hchars : ∀ c ∈ lineText a.members, Lines.isLineBreak c = false := fun c hc =>
        (printable_write 0 ha.1 c hc).not_isLineBreak
      rw [List.flatMap_cons, outcomes]
      split
      next hcomplete =>
        -- the newline ends the line, and the next one starts empty
        have htext : a.text = lineText a.members ++ ['\n'] :=
          List.take_of_length_le (by
            rw [List.length_append, List.length_singleton]
            exact hcomplete)
        have hwhole : ∀ c ∈ t ++ lineText a.members, Lines.isLineBreak c = false :=
          List.forall_mem_append.mpr ⟨ht, hchars⟩
        have hsplit := Lines.splitLines_append_newline hwhole (log.flatMap LogEntry.text)
        have hempty : Line.Holds (F := F) .empty [] := rfl
        have hrest := ih hlog hempty (List.forall_mem_nil _)
        rw [List.nil_append] at hrest
        rw [htext, List.append_assoc, List.singleton_append, ← List.append_assoc, hsplit,
          List.map_cons, object?_finish hline ha, hrest]
      next htorn =>
        have hq : a.text <+: lineText a.members := by
          have hlength : a.written ≤ (lineText a.members).length := Nat.not_lt.mp htorn
          rw [LogEntry.text, List.take_append_of_le_length hlength]
          exact List.take_prefix _ _
        rw [← List.append_assoc]
        exact ih hlog (holds_tear hline ha htorn)
          (List.forall_mem_append.mpr ⟨ht, fun c hc => hchars c (hq.mem hc)⟩)

/-- What a reader gets from the lines of a log. -/
theorem map_object?_log {log : List (LogEntry F)} (hlog : ∀ a ∈ log, a.Clear) :
    (Lines.splitLines (log.flatMap LogEntry.text)).map object? = outcomes .empty log :=
  map_object?_append hlog (t := []) rfl (List.forall_mem_nil _)

end Logs

end JsonText
