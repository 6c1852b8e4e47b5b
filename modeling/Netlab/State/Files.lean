import Netlab.Prelude.JsonLines
import Netlab.Prelude.Run

/-!
# The shared files

The JSON files and JSON-lines logs through which the processes of a run see each other
(`netlab/io.py`, and `tail_jsonl` of `netlab/state.py`), as a map from paths to texts. A write of a
value that `json.dumps(..., allow_nan=False)` refuses raises before it touches a file.

* `readJson_writes`: after any writes, a file reads as the document that was written to it last;
* `tailJsonl_history`: after any appends, some of them cut short by a crash, a reader gets the whole
  records that stand on lines of their own and no others.
-/

open JsonText

namespace SharedFiles

/-- The texts of the files that exist. -/
abbrev Files := String → Option (List Char)

variable {F : Type} [PyText F] [PyFloat F]

/-- `atomic_write_json`, which raises on a number that is not finite. -/
def atomicWriteJson (files : Files) (path : String) (value : Json F) : Option Files :=
  if finite (sortKeys value) then
    some (Function.update files path
      (some (write (.indented 2) true 0 (sortKeys value) ++ ['\n'])))
  else none

/-- `read_json`. -/
def readJson (files : Files) (path : String) (default : Json F) : Json F :=
  match files path with
  | none => default
  | some text => (load text).getD default

/-- The line that `append_jsonl` writes. -/
def jsonLine (payload : Json F) : List Char := write .compact true 0 (sortKeys payload) ++ ['\n']

/-- Text that reaches the end of a file, which is created if it does not exist. -/
def appendText (files : Files) (path : String) (text : List Char) : Files :=
  Function.update files path (some ((files path).getD [] ++ text))

/-- `append_jsonl`, which raises on a number that is not finite. -/
def appendJsonl (files : Files) (path : String) (payload : Json F) : Option Files :=
  if finite (sortKeys payload) then some (appendText files path (jsonLine payload)) else none

/-- `append_jsonl` up to a crash that lets only the first characters of the line reach the file. -/
def appendTorn (files : Files) (path : String) (payload : Json F) (written : ℕ) : Files :=
  appendText files path ((jsonLine payload).take written)

/-- `tail_jsonl`: the objects among the last lines. -/
def tailJsonl (files : Files) (path : String) (limit : ℤ) : List (List (String × Json F)) :=
  match files path with
  | none => []
  | some text =>
      ((Lines.splitLines text).rtake (max 1 limit).toNat).filterMap object?

/-! ## Documents -/

section Documents

variable {files : Files} {path : String}

/-- One call of `atomic_write_json`; one that raises leaves every file as it is. -/
def writeStep (files : Files) (call : String × Json F) : Files :=
  (atomicWriteJson files call.1 call.2).getD files

/-- The last document that some calls write to a path. -/
def lastWritten (path : String) (calls : List (String × Json F)) : Option (Json F) :=
  ((calls.filter fun call => call.1 = path ∧ finite call.2).getLast?).map Prod.snd

omit [PyText F] in
theorem lastWritten_concat (path : String) (calls : List (String × Json F))
    (call : String × Json F) :
    lastWritten path (calls ++ [call]) =
      if call.1 = path ∧ finite call.2 then some call.2 else lastWritten path calls := by
  rw [lastWritten, List.filter_append]
  split
  next h => rw [List.filter_cons_of_pos (by simpa using h)]; simp
  next h => rw [List.filter_cons_of_neg (by simpa using h)]; simp [lastWritten]

variable [FloatNumeral F]

/-- A document that was just written is read. -/
theorem readJson_atomicWriteJson {value : Json F} {files' : Files}
    (h : atomicWriteJson files path value = some files') (default : Json F) :
    readJson files' path default = sortKeys value := by
  rw [atomicWriteJson] at h
  split at h
  next hfinite =>
    obtain rfl := Option.some.inj h
    rw [readJson, Function.update_self]
    show (load _).getD default = _
    have hnewline : ∀ c ∈ ['\n'], isBlank c = true := by simp [isBlank]
    rw [load_write (.indented 2) true hfinite hnewline]
    rfl
  next => cases h

omit [FloatNumeral F] in
/-- A write leaves the other files as they are. -/
theorem atomicWriteJson_of_ne {value : Json F} {files' : Files}
    (h : atomicWriteJson files path value = some files') {other : String} (hne : other ≠ path) :
    files' other = files other := by
  rw [atomicWriteJson] at h
  split at h
  · obtain rfl := Option.some.inj h
    exact Function.update_of_ne hne _ _
  · cases h

/-- What a file reads as after some calls: the document that was written to it last, with its keys
sorted, or what it read as before. -/
theorem readJson_run {calls : List (String × Json F)}
    (hdistinct : ∀ call ∈ calls, call.2.distinct = true) (default : Json F) :
    readJson (Run.run writeStep files calls) path default =
      ((lastWritten path calls).map sortKeys).getD (readJson files path default) := by
  induction calls using List.reverseRecOn with
  | nil => rfl
  | append_singleton calls call ih =>
      have ih := ih fun c hc => hdistinct c (List.mem_append_left _ hc)
      have hcall := hdistinct call (by simp)
      -- sorting the keys changes no value, so it decides nothing about whether the write raises
      rw [Run.run_append, Run.run_cons, Run.run_nil, lastWritten_concat]
      have hfinite : finite (sortKeys call.2) = true ↔ finite call.2 = true := every_sortKeys hcall
      rw [writeStep]
      cases hwrite : atomicWriteJson (Run.run writeStep files calls) call.1 call.2 with
      | none =>
          -- the call raised, so it counts as no write
          have hraises : ¬ (call.1 = path ∧ finite call.2 = true) := by
            rintro ⟨-, h⟩
            rw [atomicWriteJson, if_pos (hfinite.mpr h)] at hwrite
            cases hwrite
          rw [if_neg hraises]
          exact ih
      | some files' =>
          have hwritten : finite call.2 = true := by
            by_contra h
            rw [atomicWriteJson, if_neg (mt hfinite.mp h)] at hwrite
            cases hwrite
          by_cases hpath : call.1 = path
          · subst hpath
            rw [if_pos ⟨rfl, hwritten⟩]
            exact readJson_atomicWriteJson hwrite default
          · rw [if_neg fun h => hpath h.1, ← ih]
            show readJson files' path default = _
            rw [readJson, atomicWriteJson_of_ne hwrite (Ne.symm hpath), readJson]

/-- After any calls of `atomic_write_json`, a file reads as the document that was written to it last,
whatever the default, and as before if none was. -/
theorem readJson_writes {calls : List (String × Json F)}
    (hdistinct : ∀ call ∈ calls, call.2.distinct = true) (files : Files) (path : String)
    (default : Json F) :
    match lastWritten path calls with
    | some value => Json.Same value (readJson (Run.run writeStep files calls) path default)
    | none => readJson (Run.run writeStep files calls) path default =
        readJson files path default := by
  rw [readJson_run hdistinct]
  cases hlast : lastWritten path calls with
  | none => rfl
  | some value =>
      refine same_sortKeys ?_
      obtain ⟨call, hcall, rfl⟩ := Option.map_eq_some_iff.mp hlast
      exact hdistinct call (List.mem_of_mem_filter (List.mem_of_getLast? hcall))

/-- Of two documents for one file the second one is read, and the first one's file is another. -/
theorem readJson_writes_twice :
    Json.Same (.obj [("revision", .int 2), ("phase", .float 1)])
      (@readJson ℚ PyText.fraction (Run.run (@writeStep ℚ PyText.fraction _) (fun _ => none)
        [("state", .obj [("revision", .int 1)]),
          ("state", .obj [("revision", .int 2), ("phase", .float 1)]),
          ("signal", .null)]) "state" .null) :=
  @readJson_writes ℚ PyText.fraction _ PyText.fraction.floatNumeral
    [("state", .obj [("revision", .int 1)]),
      ("state", .obj [("revision", .int 2), ("phase", .float 1)]), ("signal", .null)]
    (by decide) (fun _ => none) "state" .null

end Documents

/-! ## Logs -/

section Logs

/-- A record that is appended to a log, and the number of characters of its line that reach the
file. -/
structure Record (F : Type) where
  members : List (String × Json F)
  written : ℕ

namespace Record

/-- The payload of a record. -/
def payload (r : Record F) : Json F := .obj r.members

/-- The members of a record in the order of their keys. -/
def sorted (r : Record F) : List (String × Json F) :=
  (Dict.ofList (sortMembers r.members)).entries.insertionSort fun a b => a.1 ≤ b.1

omit [PyText F] [PyFloat F] in
theorem sortKeys_payload (r : Record F) : sortKeys r.payload = .obj r.sorted := by
  rw [payload, sortKeys]
  rfl

/-- The record as the log has it. -/
def line (r : Record F) : LogEntry F := ⟨r.sorted, r.written⟩

/-- The record is a dictionary that can be written, and its keys start with letters. -/
structure Valid (r : Record F) : Prop where
  nodup : (r.members.map Prod.fst).Nodup
  finite : finite (sortKeys r.payload) = true
  letters : ∀ member ∈ r.members, ∃ c ∈ member.1.toList.head?, c.isAlpha = true

end Record

/-- One call of `append_jsonl` that is cut short or not. -/
def appendStep (path : String) (files : Files) (r : Record F) : Files :=
  appendTorn files path r.payload r.written

/-- A call of which the whole line reaches the file is `append_jsonl`. -/
theorem appendStep_of_complete {files : Files} {path : String} {r : Record F}
    (hfinite : finite (sortKeys r.payload) = true) (h : (jsonLine r.payload).length ≤ r.written) :
    appendJsonl files path r.payload = some (appendStep path files r) := by
  rw [appendJsonl, if_pos hfinite, appendStep, appendTorn, List.take_of_length_le h]

theorem text_line (r : Record F) : r.line.text = (jsonLine r.payload).take r.written := by
  rw [LogEntry.text, lineText, jsonLine, Record.sortKeys_payload]
  rfl

theorem run_appendStep (path : String) {files : Files} {text : List Char}
    (h : (files path).getD [] = text) (history : List (Record F)) :
    ((Run.run (appendStep path) files history) path).getD [] =
      text ++ (history.map Record.line).flatMap LogEntry.text := by
  induction history generalizing files text with
  | nil => simpa using h
  | cons r history ih =>
      have hstep : ((appendStep path files r) path).getD [] = text ++ r.line.text := by
        rw [appendStep, appendTorn, appendText, Function.update_self, Option.getD_some, h,
          text_line]
      rw [Run.run_cons, ih hstep, List.map_cons, List.flatMap_cons, List.append_assoc]

omit [PyText F] in
theorem clear_line {r : Record F} (h : r.Valid) : r.line.Clear := by
  obtain ⟨sorted, hsorted, hperm, -⟩ := sortKeys_obj h.nodup
  obtain rfl : sorted = r.sorted := Json.obj.inj (hsorted.symm.trans r.sortKeys_payload)
  refine ⟨?_, fun member hmember => ?_⟩
  · show finite (.obj r.sorted) = true
    rw [← r.sortKeys_payload]
    exact h.finite
  · obtain ⟨member', hmember', rfl⟩ :=
      List.mem_map.mp (hperm.mem_iff.mp (List.mem_of_mem_head? hmember))
    exact h.letters member' hmember'

omit [PyFloat F] in
/-- `tail_jsonl` takes the last lines first, and then what reads as an object. -/
theorem tailJsonl_eq (files : Files) (path : String) (limit : ℤ) :
    tailJsonl (F := F) files path limit =
      (((Lines.splitLines ((files path).getD [])).map object?).rtake
        (max 1 limit).toNat).filterMap id := by
  have hrtake (lines : List (List Char)) (k : ℕ) :
      ((lines.map (object? (F := F))).rtake k).filterMap id = (lines.rtake k).filterMap object? := by
    rw [List.rtake_eq_reverse_take_reverse, List.rtake_eq_reverse_take_reverse, ← List.map_reverse,
      ← List.map_take, ← List.map_reverse, List.filterMap_map]
    rfl
  rw [hrtake, tailJsonl]
  cases files path with
  | none => simp [Lines.splitLines, List.rtake]
  | some text => rfl

variable [FloatNumeral F]

/-- What `tail_jsonl` gets from a file that holds the text of some appends. -/
theorem tailJsonl_of_text {files : Files} {path : String} {history : List (Record F)}
    (hvalid : ∀ r ∈ history, r.Valid)
    (htext : (files path).getD [] = (history.map Record.line).flatMap LogEntry.text) (limit : ℤ) :
    tailJsonl files path limit =
      ((outcomes .empty (history.map Record.line)).rtake (max 1 limit).toNat).filterMap id := by
  have hclear : ∀ a ∈ history.map Record.line, a.Clear :=
    List.forall_mem_map.mpr fun r hr => clear_line (hvalid r hr)
  rw [tailJsonl_eq, htext, map_object?_log hclear]

/-- What `tail_jsonl` gets from a log after any appends to it, some of them cut short: of the last
lines those that hold one whole record and nothing else. -/
theorem tailJsonl_history {history : List (Record F)} (hvalid : ∀ r ∈ history, r.Valid)
    {files : Files} {path : String} (hempty : (files path).getD [] = []) (limit : ℤ) :
    tailJsonl (Run.run (appendStep path) files history) path limit =
      ((outcomes .empty (history.map Record.line)).rtake (max 1 limit).toNat).filterMap id :=
  tailJsonl_of_text hvalid (run_appendStep path hempty history) limit

/-- A record after a torn one is lost with it, and the records around them are read. -/
theorem tailJsonl_history_torn :
    @tailJsonl ℚ PyText.fraction (Run.run (@appendStep ℚ PyText.fraction _ "log") (fun _ => none)
        [⟨[("a", .null)], 99⟩, ⟨[("b", .null)], 4⟩, ⟨[("c", .null)], 99⟩, ⟨[("d", .null)], 99⟩])
      "log" 100 = [[("a", .null)], [("d", .null)]] :=
  (@tailJsonl_history ℚ PyText.fraction _ PyText.fraction.floatNumeral
    [⟨[("a", .null)], 99⟩, ⟨[("b", .null)], 4⟩, ⟨[("c", .null)], 99⟩, ⟨[("d", .null)], 99⟩]
    (by
      intro r hr
      simp only [List.mem_cons, List.not_mem_nil, or_false] at hr
      rcases hr with rfl | rfl | rfl | rfl
      all_goals exact ⟨by decide, by decide, by simp⟩) (fun _ => none) "log" rfl 100).trans rfl

end Logs

end SharedFiles
