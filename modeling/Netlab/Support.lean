import Mathlib.Data.List.Forall2
import Mathlib.Data.List.Infix
import Netlab.Prelude.Lines

/-!
# Redaction in support bundles

`_redact_env_text` and `_redact_mapping` of `netlab/support.py` take secret values out of what goes
into a support bundle: behind the first `=` of a line, and below the keys of mappings in lists and
mappings. Two inputs that only differ in secrets (`SameButSecrets`, `Alike true`) should come out
the same. A value that is written behind a colon only does where an `=` hides it, and a mapping in a
tuple is returned as it is (`redaction_iff`).
-/

namespace Netlab.Support

/-! ## Secret names -/

/-- What a character counts as when case is ignored. Besides the ASCII letters these are the
characters that Python takes for one of the letters of the pattern. -/
def foldCase (c : Char) : Char :=
  if c = 'İ' ∨ c = 'ı' then 'i'
  else if c = 'ſ' then 's'
  else if c = '\u212a' then 'k'
  else c.toLower

/-- The words of `_SECRET_PATTERN`. -/
def secretWords : List String :=
  ["token", "password", "passwd", "secret", "private", "credential", "apikey", "api_key", "api-key"]

/-- `_SECRET_PATTERN.search`. -/
def isSecret (name : List Char) : Bool :=
  secretWords.any fun word => decide (word.toList <:+: name.map foldCase)

/-- A longer name is secret too. -/
theorem isSecret_of_infix {name longer : List Char} (h : name <:+: longer)
    (hname : isSecret name = true) : isSecret longer = true := by
  obtain ⟨word, hword, hinfix⟩ := List.any_eq_true.mp hname
  refine List.any_eq_true.mpr ⟨word, hword, decide_eq_true ?_⟩
  exact (of_decide_eq_true hinfix).trans (h.map foldCase)

/-! ## Lines -/

/-- `"\n".join(lines)`. -/
def joinLines (lines : List (List Char)) : List Char := ['\n'].intercalate lines

/-- What is put in the place of a secret. -/
def redacted : String := "<redacted>"

/-- The redaction of one line. -/
def redactLine (line : List Char) : List Char :=
  if '=' ∈ line then
    -- only the text before the first `=` decides
    let key := line.takeWhile (· ≠ '=')
    let value := (line.dropWhile (· ≠ '=')).tail
    let value := if isSecret key then redacted.toList else value
    key ++ '=' :: value
  else line

/-- `_redact_env_text`. -/
def redactEnvText (text : String) : String :=
  .ofList (joinLines ((Lines.splitLines text.toList).map redactLine) ++
    if text.toList.getLast? = some '\n' then ['\n'] else [])

/-! ## Mappings -/

/-- A value of Python made of mappings, lists and tuples. -/
inductive PyValue (α : Type)
  | scalar (x : α)
  | list (items : List (PyValue α))
  | tuple (items : List (PyValue α))
  | mapping (members : List (String × PyValue α))

variable {α : Type}

mutual

/-- `_redact_mapping`; `mark` is the value that stands for the redacted ones. -/
def redactMapping (mark : α) : PyValue α → PyValue α
  | .mapping members => .mapping (redactMembers mark members)
  | .list items => .list (redactItems mark items)
  | value => value

/-- `_redact_mapping` for each item of a list. -/
def redactItems (mark : α) : List (PyValue α) → List (PyValue α)
  | [] => []
  | item :: items => redactMapping mark item :: redactItems mark items

/-- `_redact_mapping` for each member of a mapping whose key is not secret. -/
def redactMembers (mark : α) : List (String × PyValue α) → List (String × PyValue α)
  | [] => []
  | (key, item) :: members =>
      (key, if isSecret key.toList then .scalar mark else redactMapping mark item) ::
        redactMembers mark members

end

/-! ## Inputs that differ in secrets -/

/-- Two lines that are the same, or the same but for the value of a secret variable, in the form
`KEY=value` or in the form `KEY: value`. -/
inductive SameLine : List Char → List Char → Prop
  | same (line : List Char) : SameLine line line
  | assigned (before name first second : List Char) (secret : isSecret name = true)
      (plain : '=' ∉ before ++ name) :
      SameLine (before ++ name ++ '=' :: first) (before ++ name ++ '=' :: second)
  | listed (before name first second : List Char) (secret : isSecret name = true)
      (plain : '=' ∉ before ++ name) :
      SameLine (before ++ name ++ ':' :: ' ' :: first) (before ++ name ++ ':' :: ' ' :: second)

/-- Two texts that only differ in the values of secret variables. -/
def SameButSecrets (first second : String) : Prop :=
  List.Forall₂ (fun p q => SameLine p.1 q.1 ∧ p.2 = q.2) (Lines.splitKeepEnds first.toList)
    (Lines.splitKeepEnds second.toList)

/-- Two lines that are the same up to the first `=`. -/
def SameToEquals (first second : List Char) : Prop :=
  ∃ before rest rest', '=' ∉ before ∧ first = before ++ '=' :: rest ∧
    second = before ++ '=' :: rest'

/-- Where two texts differ, they are the same up to the first `=` of the line. -/
def DifferBehindEquals (first second : String) : Prop :=
  List.Forall₂ (fun line line' => line = line' ∨ SameToEquals line line')
    (Lines.splitLines first.toList) (Lines.splitLines second.toList)

mutual

/-- Two values that only differ below secret keys; `inTuples` tells whether they may also do so in
tuples. -/
inductive Alike (inTuples : Bool) : PyValue α → PyValue α → Prop
  | scalar (x : α) : Alike inTuples (.scalar x) (.scalar x)
  | list {items items' : List (PyValue α)} (h : AlikeItems inTuples items items') :
      Alike inTuples (.list items) (.list items')
  | tuple (items : List (PyValue α)) : Alike inTuples (.tuple items) (.tuple items)
  | inTuple {items items' : List (PyValue α)} (allowed : inTuples = true)
      (h : AlikeItems inTuples items items') : Alike inTuples (.tuple items) (.tuple items')
  | mapping {members members' : List (String × PyValue α)}
      (h : AlikeMembers inTuples members members') :
      Alike inTuples (.mapping members) (.mapping members')

/-- The items of two lists one by one. -/
inductive AlikeItems (inTuples : Bool) : List (PyValue α) → List (PyValue α) → Prop
  | nil : AlikeItems inTuples [] []
  | cons {item item' : PyValue α} {items items' : List (PyValue α)}
      (head : Alike inTuples item item') (tail : AlikeItems inTuples items items') :
      AlikeItems inTuples (item :: items) (item' :: items')

/-- The members of two mappings one by one. -/
inductive AlikeMembers (inTuples : Bool) :
    List (String × PyValue α) → List (String × PyValue α) → Prop
  | nil : AlikeMembers inTuples [] []
  | secret {key : String} (item item' : PyValue α) {members members' : List (String × PyValue α)}
      (h : isSecret key.toList = true) (tail : AlikeMembers inTuples members members') :
      AlikeMembers inTuples ((key, item) :: members) ((key, item') :: members')
  | plain {key : String} {item item' : PyValue α} {members members' : List (String × PyValue α)}
      (head : Alike inTuples item item') (tail : AlikeMembers inTuples members members') :
      AlikeMembers inTuples ((key, item) :: members) ((key, item') :: members')

end

/-! ## The redaction of a line -/

section

variable {line line' : List Char}

/-- A line without `=` stays as it is. -/
theorem redactLine_of_not_mem (h : '=' ∉ line) : redactLine line = line := if_neg h

/-- The key and the value of a line. -/
theorem takeWhile_before {before : List Char} (rest : List Char) (h : '=' ∉ before) :
    (before ++ '=' :: rest).takeWhile (· ≠ '=') = before ∧
      (before ++ '=' :: rest).dropWhile (· ≠ '=') = '=' :: rest := by
  have hbefore : ∀ c ∈ before, decide (c ≠ '=') = true := by
    intro c hc
    exact decide_eq_true fun heq => h (heq ▸ hc)
  rw [List.takeWhile_append_of_pos hbefore, List.dropWhile_append_of_pos hbefore]
  simp

/-- What comes before the first `=` of a line stays as it is. -/
theorem redactLine_append {before rest : List Char} (h : '=' ∉ before) :
    redactLine (before ++ '=' :: rest) =
      before ++ '=' :: if isSecret before then redacted.toList else rest := by
  obtain ⟨hkey, hvalue⟩ := takeWhile_before rest h
  unfold redactLine
  rw [if_pos (by simp), hkey, hvalue, List.tail_cons]

/-- A line without `=`, or what is before the first one and behind it. -/
theorem exists_split (h : '=' ∈ line) :
    ∃ before rest, '=' ∉ before ∧ line = before ++ '=' :: rest := by
  obtain ⟨before, rest, hline, hbefore⟩ := List.eq_append_cons_of_mem h
  exact ⟨before, rest, hbefore, hline⟩

/-- There is only one first `=`. -/
theorem before_unique {before before' rest rest' : List Char} (h : '=' ∉ before)
    (h' : '=' ∉ before') (heq : before ++ '=' :: rest = before' ++ '=' :: rest') :
    before = before' ∧ rest = rest' := by
  have hkey := congrArg (List.takeWhile (· ≠ '=')) heq
  rw [(takeWhile_before _ h).1, (takeWhile_before _ h').1] at hkey
  subst hkey
  exact ⟨rfl, by simpa using heq⟩

/-- Something without `=` at the beginning of a line comes before the first `=`. -/
theorem prefix_of_eq {start tail before rest : List Char} (h : '=' ∉ start)
    (heq : start ++ tail = before ++ '=' :: rest) : start <+: before := by
  rcases List.append_eq_append_iff.mp heq with ⟨middle, hbefore, -⟩ | ⟨middle, hstart, hmiddle⟩
  · exact ⟨middle, hbefore.symm⟩
  · cases middle with
    | nil => exact ⟨[], by simpa using hstart⟩
    | cons c middle =>
        rw [List.cons_append, List.cons.injEq] at hmiddle
        rw [hstart, ← hmiddle.1] at h
        exact absurd (by simp) h

/-- What comes before the first `=` of a line that differs in a secret is a secret name. -/
theorem SameLine.isSecret_before {before rest : List Char} (h : SameLine line line')
    (hne : line ≠ line') (heq : line = before ++ '=' :: rest) : isSecret before = true := by
  have hlonger : ∀ {start name tail : List Char}, isSecret name = true → '=' ∉ start ++ name →
      start ++ name ++ tail = before ++ '=' :: rest → isSecret before = true := by
    intro start name tail hname hplain hline
    exact isSecret_of_infix ((List.suffix_append start name).isInfix.trans
      (prefix_of_eq hplain hline).isInfix) hname
  cases h with
  | same => exact absurd rfl hne
  | assigned start name first second hsecret hplain => exact hlonger hsecret hplain heq
  | listed start name first second hsecret hplain => exact hlonger hsecret hplain heq

/-- Two lines come out the same only if they are the same up to the first `=`. -/
theorem same_of_redactLine_eq (h : redactLine line = redactLine line') :
    line = line' ∨ SameToEquals line line' := by
  by_cases hline : '=' ∈ line
  · obtain ⟨before, rest, hbefore, rfl⟩ := exists_split hline
    rw [redactLine_append hbefore] at h
    by_cases hline' : '=' ∈ line'
    · obtain ⟨before', rest', hbefore', rfl⟩ := exists_split hline'
      rw [redactLine_append hbefore'] at h
      obtain ⟨rfl, -⟩ := before_unique hbefore hbefore' h
      exact .inr ⟨before, rest, rest', hbefore, rfl, rfl⟩
    · rw [redactLine_of_not_mem hline'] at h
      exact absurd (h ▸ by simp) hline'
  · rw [redactLine_of_not_mem hline] at h
    by_cases hline' : '=' ∈ line'
    · obtain ⟨before', rest', hbefore', rfl⟩ := exists_split hline'
      rw [redactLine_append hbefore'] at h
      exact absurd (h ▸ by simp) hline
    · rw [redactLine_of_not_mem hline'] at h
      exact .inl h

/-- Two lines that only differ in a secret come out the same exactly if they do not differ, or not
before the first `=`. -/
theorem redactLine_eq_iff (h : SameLine line line') :
    redactLine line = redactLine line' ↔ line = line' ∨ SameToEquals line line' := by
  constructor
  · exact same_of_redactLine_eq
  · rintro (rfl | ⟨before, rest, rest', hbefore, rfl, rfl⟩)
    · rfl
    · by_cases hne : before ++ '=' :: rest = before ++ '=' :: rest'
      · rw [hne]
      · rw [redactLine_append hbefore, redactLine_append hbefore, h.isSecret_before hne rfl]
        rfl

end

/-! ## The lines of a text -/

/-- The ends of two texts that only differ in secrets. -/
theorem getLast?_of_sameButSecrets {first second : String} (h : SameButSecrets first second) :
    first.toList.getLast? = some '\n' ↔ second.toList.getLast? = some '\n' := by
  -- the redaction keeps the line breaks
  have hbreaks : (Lines.splitKeepEnds first.toList).map Prod.snd =
      (Lines.splitKeepEnds second.toList).map Prod.snd := by
    unfold SameButSecrets at h
    generalize Lines.splitKeepEnds first.toList = pieces at h
    generalize Lines.splitKeepEnds second.toList = pieces' at h
    induction h with
    | nil => rfl
    | cons hpiece _ ih => rw [List.map_cons, List.map_cons, hpiece.2, ih]
  have hlast := congrArg List.getLast? hbreaks
  rw [List.getLast?_map, List.getLast?_map] at hlast
  rw [Lines.getLast?_eq_newline_iff, Lines.getLast?_eq_newline_iff]
  have hread : ∀ last : Option (List Char × List Char),
      (∃ piece, last = some piece ∧ piece.2.getLast? = some '\n') ↔
        (last.map Prod.snd).bind List.getLast? = some '\n' := by
    intro last
    cases last <;> simp
  rw [hread, hread, hlast]

/-! ## Joining lines -/

/-- What comes before the first newline. -/
theorem newline_unique {a b s t : List Char} (ha : '\n' ∉ a) (hb : '\n' ∉ b)
    (h : a ++ '\n' :: s = b ++ '\n' :: t) : a = b ∧ s = t := by
  induction a generalizing b with
  | nil =>
      cases b with
      | nil => exact ⟨rfl, by simpa using h⟩
      | cons c b =>
          rw [List.nil_append, List.cons_append, List.cons.injEq] at h
          exact absurd (h.1 ▸ List.mem_cons_self) hb
  | cons c a ih =>
      cases b with
      | nil =>
          rw [List.nil_append, List.cons_append, List.cons.injEq] at h
          exact absurd (h.1 ▸ List.mem_cons_self) ha
      | cons d b =>
          rw [List.cons_append, List.cons_append, List.cons.injEq] at h
          rw [List.mem_cons, not_or] at ha hb
          obtain ⟨rfl, rfl⟩ := ih ha.2 hb.2 h.2
          exact ⟨by rw [h.1], rfl⟩

/-- Lines without newlines can be told apart after they have been joined. -/
theorem joinLines_inj {lines lines' : List (List Char)} (hlength : lines.length = lines'.length)
    (h : ∀ line ∈ lines, '\n' ∉ line) (h' : ∀ line ∈ lines', '\n' ∉ line)
    (heq : joinLines lines = joinLines lines') : lines = lines' := by
  induction lines generalizing lines' with
  | nil => exact (List.length_eq_zero_iff.mp hlength.symm).symm
  | cons line lines ih =>
      obtain ⟨line', lines', rfl⟩ := List.exists_cons_of_length_eq_add_one hlength.symm
      rw [List.forall_mem_cons] at h h'
      have hrest : lines.length = lines'.length := by simpa using hlength
      cases lines with
      | nil =>
          obtain rfl := List.length_eq_zero_iff.mp hrest.symm
          simpa [joinLines] using heq
      | cons next rest =>
          obtain ⟨next', rest', rfl⟩ := List.exists_cons_of_length_eq_add_one hrest.symm
          have hjoin : ∀ (line next : List Char) (rest : List (List Char)),
              joinLines (line :: next :: rest) = line ++ '\n' :: joinLines (next :: rest) := by
            intro line next rest
            simp [joinLines, List.intercalate]
          rw [hjoin, hjoin] at heq
          obtain ⟨rfl, hjoined⟩ := newline_unique h.1 h'.1 heq
          rw [ih hrest h.2 h'.2 hjoined]

/-- The redaction of a line without newlines holds none. -/
theorem not_mem_redactLine {line : List Char} (h : '\n' ∉ line) : '\n' ∉ redactLine line := by
  by_cases hline : '=' ∈ line
  · obtain ⟨before, rest, hbefore, rfl⟩ := exists_split hline
    rw [redactLine_append hbefore]
    rw [List.mem_append, List.mem_cons, not_or, not_or] at h ⊢
    refine ⟨h.1, by decide, ?_⟩
    split
    · decide
    · exact h.2.2
  · rwa [redactLine_of_not_mem hline]

/-- The redacted lines of a text hold no newline. -/
theorem not_mem_redacted (text : String) :
    ∀ line ∈ (Lines.splitLines text.toList).map redactLine, '\n' ∉ line := by
  rw [List.forall_mem_map]
  intro line hline
  apply not_mem_redactLine
  intro hnewline
  exact absurd (Lines.not_isLineBreak_of_mem hline '\n' hnewline) (by decide)

/-- The redactions of two texts that only differ in secrets are equal exactly if the redactions of
their lines are. -/
theorem redactEnvText_eq_iff {first second : String} (h : SameButSecrets first second) :
    redactEnvText first = redactEnvText second ↔
      (Lines.splitLines first.toList).map redactLine =
        (Lines.splitLines second.toList).map redactLine := by
  have hlength : ((Lines.splitLines first.toList).map redactLine).length =
      ((Lines.splitLines second.toList).map redactLine).length := by
    simpa [← Lines.map_fst_splitKeepEnds] using h.length_eq
  unfold redactEnvText
  rw [String.ofList_inj]
  simp only [getLast?_of_sameButSecrets h, List.append_cancel_right_eq]
  constructor
  · exact joinLines_inj hlength (not_mem_redacted first) (not_mem_redacted second)
  · intro heq
    rw [heq]

/-- Two texts that only differ in secrets are redacted to the same text exactly if they only differ
behind the first `=` of a line. -/
theorem redactEnvText_iff {first second : String} (h : SameButSecrets first second) :
    redactEnvText first = redactEnvText second ↔ DifferBehindEquals first second := by
  rw [redactEnvText_eq_iff h]
  unfold SameButSecrets at h
  unfold DifferBehindEquals
  rw [← Lines.map_fst_splitKeepEnds, ← Lines.map_fst_splitKeepEnds]
  generalize Lines.splitKeepEnds first.toList = pieces at h
  generalize Lines.splitKeepEnds second.toList = pieces' at h
  induction h with
  | nil => simp
  | cons hpiece _ ih =>
      rw [List.map_cons, List.map_cons, List.map_cons, List.map_cons, List.cons.injEq,
        List.forall₂_cons, ih, redactLine_eq_iff hpiece.1]

/-! ## The redaction of mappings -/

section

variable (mark : α) {inTuples : Bool}

mutual

/-- Values that only differ below secret keys, and in no tuple, come out the same. -/
theorem redactMapping_eq {value value' : PyValue α} (h : Alike false value value') :
    redactMapping mark value = redactMapping mark value' := by
  cases h with
  | scalar x => rfl
  | list hitems => rw [redactMapping, redactMapping, redactItems_eq hitems]
  | tuple items => rfl
  | inTuple allowed _ => cases allowed
  | mapping hmembers => rw [redactMapping, redactMapping, redactMembers_eq hmembers]

theorem redactItems_eq {items items' : List (PyValue α)} (h : AlikeItems false items items') :
    redactItems mark items = redactItems mark items' := by
  cases h with
  | nil => rfl
  | cons head tail => rw [redactItems, redactItems, redactMapping_eq head, redactItems_eq tail]

theorem redactMembers_eq {members members' : List (String × PyValue α)}
    (h : AlikeMembers false members members') :
    redactMembers mark members = redactMembers mark members' := by
  cases h with
  | nil => rfl
  | secret item item' hkey tail =>
      rw [redactMembers, redactMembers, if_pos hkey, if_pos hkey, redactMembers_eq tail]
  | plain head tail =>
      rw [redactMembers, redactMembers, redactMapping_eq head, redactMembers_eq tail]

end

mutual

/-- Values that come out the same differ in no tuple. -/
theorem alike_of_redactMapping_eq {value value' : PyValue α} (h : Alike true value value')
    (heq : redactMapping mark value = redactMapping mark value') : Alike false value value' := by
  cases h with
  | scalar x => exact .scalar x
  | list hitems =>
      rw [redactMapping, redactMapping, PyValue.list.injEq] at heq
      exact .list (alikeItems_of_redactItems_eq hitems heq)
  | tuple items => exact .tuple items
  | inTuple _ _ =>
      -- a tuple comes out as it is
      simp only [redactMapping, PyValue.tuple.injEq] at heq
      rw [heq]
      exact .tuple _
  | mapping hmembers =>
      rw [redactMapping, redactMapping, PyValue.mapping.injEq] at heq
      exact .mapping (alikeMembers_of_redactMembers_eq hmembers heq)

theorem alikeItems_of_redactItems_eq {items items' : List (PyValue α)}
    (h : AlikeItems true items items') (heq : redactItems mark items = redactItems mark items') :
    AlikeItems false items items' := by
  cases h with
  | nil => exact .nil
  | cons head tail =>
      rw [redactItems, redactItems, List.cons.injEq] at heq
      exact .cons (alike_of_redactMapping_eq head heq.1) (alikeItems_of_redactItems_eq tail heq.2)

theorem alikeMembers_of_redactMembers_eq {members members' : List (String × PyValue α)}
    (h : AlikeMembers true members members')
    (heq : redactMembers mark members = redactMembers mark members') :
    AlikeMembers false members members' := by
  cases h with
  | nil => exact .nil
  | secret item item' hkey tail =>
      rw [redactMembers, redactMembers, List.cons.injEq] at heq
      exact .secret item item' hkey (alikeMembers_of_redactMembers_eq tail heq.2)
  | @plain key item item' members members' head tail =>
      rw [redactMembers, redactMembers, List.cons.injEq] at heq
      have htail := alikeMembers_of_redactMembers_eq tail heq.2
      by_cases hkey : isSecret key.toList = true
      · exact .secret item item' hkey htail
      · rw [if_neg hkey, if_neg hkey, Prod.mk.injEq] at heq
        exact .plain (alike_of_redactMapping_eq head heq.1.2) htail

end

/-- Two values that only differ below secret keys are redacted to the same value exactly if they
differ in no tuple. -/
theorem redactMapping_iff {value value' : PyValue α} (h : Alike true value value') :
    redactMapping mark value = redactMapping mark value' ↔ Alike false value value' :=
  ⟨alike_of_redactMapping_eq mark h, redactMapping_eq mark⟩

/-- Two texts that only differ in secrets come out the same exactly if they only differ behind the
first `=` of a line, and two values that only differ below secret keys exactly if they differ in no
tuple. -/
theorem redaction_iff {first second : String} (htext : SameButSecrets first second)
    {value value' : PyValue α} (hvalue : Alike true value value') :
    (redactEnvText first = redactEnvText second ↔ DifferBehindEquals first second) ∧
      (redactMapping mark value = redactMapping mark value' ↔ Alike false value value') :=
  ⟨redactEnvText_iff htext, redactMapping_iff mark hvalue⟩

end

/-! ## A password -/

/-- Two env files that differ in a password. -/
theorem sameButSecrets_assigned : SameButSecrets "A=1\nPASSWORD=a\n" "A=1\nPASSWORD=b\n" := by
  have hsplit : ∀ text ∈ ["A=1\nPASSWORD=a\n", "A=1\nPASSWORD=b\n"],
      Lines.splitKeepEnds text.toList =
        (Lines.splitLines text.toList).map fun line => (line, ['\n']) := by
    decide +kernel
  have hfirst : Lines.splitLines "A=1\nPASSWORD=a\n".toList =
      ["A=1".toList, "PASSWORD=a".toList] := by
    decide +kernel
  have hsecond : Lines.splitLines "A=1\nPASSWORD=b\n".toList =
      ["A=1".toList, "PASSWORD=b".toList] := by
    decide +kernel
  have hline : SameLine "PASSWORD=a".toList "PASSWORD=b".toList :=
    .assigned [] "PASSWORD".toList ['a'] ['b'] (by decide +kernel) (by decide +kernel)
  unfold SameButSecrets
  rw [hsplit _ (by simp), hsplit _ (by simp), hfirst, hsecond]
  exact .cons ⟨.same _, rfl⟩ (.cons ⟨hline, rfl⟩ .nil)

/-- Two renderings that do. -/
theorem sameButSecrets_listed : SameButSecrets "PASSWORD: a\n" "PASSWORD: b\n" := by
  have hfirst : Lines.splitKeepEnds "PASSWORD: a\n".toList =
      [("PASSWORD: a".toList, ['\n'])] := by
    decide +kernel
  have hsecond : Lines.splitKeepEnds "PASSWORD: b\n".toList =
      [("PASSWORD: b".toList, ['\n'])] := by
    decide +kernel
  have hline : SameLine "PASSWORD: a".toList "PASSWORD: b".toList :=
    .listed [] "PASSWORD".toList ['a'] ['b'] (by decide +kernel) (by decide +kernel)
  unfold SameButSecrets
  rw [hfirst, hsecond]
  exact .cons ⟨hline, rfl⟩ .nil

/-- A mapping with a token. -/
def withToken (token : ℕ) : PyValue ℕ :=
  .mapping [("url", .scalar 1), ("API_TOKEN", .scalar token)]

theorem alike_withToken (token token' : ℕ) : Alike true (withToken token) (withToken token') :=
  .mapping (.plain (.scalar 1) (.secret _ _ (by decide +kernel) .nil))

/-- The env files, and two mappings with tokens. -/
theorem redaction_iff_assigned :
    (redactEnvText "A=1\nPASSWORD=a\n" = redactEnvText "A=1\nPASSWORD=b\n" ↔
        DifferBehindEquals "A=1\nPASSWORD=a\n" "A=1\nPASSWORD=b\n") ∧
      (redactMapping 0 (withToken 2) = redactMapping 0 (withToken 3) ↔
        Alike false (withToken 2) (withToken 3)) :=
  redaction_iff 0 sameButSecrets_assigned (alike_withToken 2 3)

/-- The passwords of the renderings are not redacted. -/
theorem not_redaction :
    ¬∀ (first second : String) (value value' : PyValue ℕ) (mark : ℕ),
      SameButSecrets first second → Alike true value value' →
      redactEnvText first = redactEnvText second ∧
        redactMapping mark value = redactMapping mark value' := by
  intro hclaim
  have heq := (hclaim _ _ _ _ 0 sameButSecrets_listed (alike_withToken 2 3)).1
  have hdiffer : redactEnvText "PASSWORD: a\n" ≠ redactEnvText "PASSWORD: b\n" := by
    decide +kernel
  exact hdiffer heq

end Netlab.Support
