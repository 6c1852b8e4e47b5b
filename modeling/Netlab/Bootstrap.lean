import Netlab.Prelude.Comprehension
import Netlab.Prelude.Lines
import Netlab.Prelude.Merge
import Mathlib.Data.List.Sort

/-!
# The environment file

How `netlab/bootstrap.py` reads and writes the environment file of the compose project. A line that
is read gives a binding whose key and value are stripped, hold no line break, and of which the key
holds no equals sign and begins no comment (`Binding`). Such a binding is read back from the line
that is written for it (`Binding.parseLine_line`), so what was read survives writing and reading
(`env_round_trip`).
-/

namespace Netlab.Bootstrap

open Lines

/-! ## Reading and writing -/

/-- The binding of a line. Blank lines, comments and lines without an equals sign have none. -/
def parseLine (raw : List Char) : Option (String × String) :=
  let line := strip raw
  if line = [] ∨ line.head? = some '#' ∨ '=' ∉ line then none
  else
    let key := line.takeWhile (· ≠ '=')
    let value := (line.dropWhile (· ≠ '=')).tail
    some (.ofList (strip key), .ofList (strip value))

/-- The bindings of a text; of two with one key the later counts (`_parse_env`). -/
def parseEnv (text : String) : Dict String String :=
  .ofList ((splitLines text.toList).filterMap parseLine)

/-- The line that is written for a binding. -/
def envLine (binding : String × String) : String := binding.1 ++ "=" ++ binding.2

/-- The keys of the preferred order that have a value, as often as they are listed. -/
def emittedKeys (values : Dict String String) (preferredOrder : List String) : List String :=
  preferredOrder.filter fun key => key ∈ values.keys

/-- The other keys, sorted. -/
def remainingKeys (values : Dict String String) (preferredOrder : List String) : List String :=
  (values.keys.filter fun key => key ∉ emittedKeys values preferredOrder).insertionSort (· ≤ ·)

/-- The bindings of some keys. -/
def bindingsAt (values : Dict String String) (keys : List String) : List (String × String) :=
  keys.filterMap fun key => (values.get? key).map fun value => (key, value)

/-- The text that consists of the lines of bindings. -/
def envText (bindings : List (String × String)) : String :=
  "\n".intercalate (bindings.map envLine) ++ "\n"

/-- The text of an environment file (`_format_env`). -/
def formatEnv (values : Dict String String) (preferredOrder : List String) : String :=
  envText (bindingsAt values (emittedKeys values preferredOrder) ++
    bindingsAt values (remainingKeys values preferredOrder))

/-! ## Bindings -/

/-- A key and a value as they come from a line. -/
structure Binding (key value : List Char) : Prop where
  stripped_key : Stripped key
  stripped_value : Stripped value
  noEquals : '=' ∉ key
  noComment : key.head? ≠ some '#'
  noBreak : ∀ c ∈ key ++ value, isLineBreak c = false

/-- What is read from a line is a binding. -/
theorem binding_of_parseLine {raw : List Char} (hraw : ∀ c ∈ raw, isLineBreak c = false)
    {b : String × String} (h : parseLine raw = some b) : Binding b.1.toList b.2.toList := by
  rw [parseLine] at h
  split at h
  · cases h
  · rename_i hline
    obtain ⟨hne, hcomment, hequals⟩ : strip raw ≠ [] ∧ (strip raw).head? ≠ some '#' ∧
      '=' ∈ strip raw := by simpa [not_or] using hline
    obtain rfl := Option.some.inj h
    simp only [String.toList_ofList]
    have hstripped := stripped_strip raw
    have hbreak : ∀ c ∈ strip raw, isLineBreak c = false := fun c hc => hraw c (mem_of_mem_strip hc)
    generalize strip raw = line at *
    have hkey : ∀ c ∈ strip (line.takeWhile (· ≠ '=')), c ∈ line ∧ c ≠ '=' := by
      intro c hc
      have hmem := mem_of_mem_strip hc
      exact ⟨(List.takeWhile_sublist _).mem hmem, by simpa using List.mem_takeWhile_imp hmem⟩
    refine
      { stripped_key := stripped_strip _
        stripped_value := stripped_strip _
        noEquals := fun hmem => (hkey '=' hmem).2 rfl
        noComment := ?_
        noBreak := fun c hc => ?_ }
    · -- what stands before the equals sign begins as the line does
      cases line with
      | nil => exact absurd rfl hne
      | cons c rest =>
          by_cases hc : c = '='
          · simp [hc, strip]
          · rw [List.takeWhile_cons_of_pos (by simpa using hc), head?_strip]
            · exact hcomment
            · exact hstripped.first
    · rcases List.mem_append.mp hc with hmem | hmem
      · exact hbreak c (hkey c hmem).1
      · exact hbreak c
          ((List.dropWhile_sublist _).mem (List.mem_of_mem_tail (mem_of_mem_strip hmem)))

/-- A binding is read back from its line. -/
theorem Binding.parseLine_line {b : String × String} (h : Binding b.1.toList b.2.toList) :
    parseLine (envLine b).toList = some b := by
  obtain ⟨key, value⟩ := b
  have hline : (envLine (key, value)).toList = key.toList ++ '=' :: value.toList := by
    simp [envLine, String.toList_append]
  have hspace : isSpace '=' = false := by decide
  -- the key begins the line and the value ends it, and neither has a space there
  have hstripped : Stripped (key.toList ++ '=' :: value.toList) := by
    constructor
    · intro c hc
      cases hkey : key.toList with
      | nil =>
          obtain rfl : '=' = c := by simpa [hkey] using hc
          exact hspace
      | cons c' rest => exact h.stripped_key.first c (by simpa [hkey] using hc)
    · intro c hc
      cases hvalue : value.toList with
      | nil =>
          obtain rfl : '=' = c := by simpa [hvalue] using hc
          exact hspace
      | cons c' rest => exact h.stripped_value.last c (by simpa [hvalue] using hc)
  -- none of the three cases in which a line is skipped
  have hread : ¬ (key.toList ++ '=' :: value.toList = [] ∨
      (key.toList ++ '=' :: value.toList).head? = some '#' ∨
      '=' ∉ key.toList ++ '=' :: value.toList) := by
    rintro (hnil | hcomment | hequals)
    · simp at hnil
    · refine h.noComment ?_
      cases hkey : key.toList with
      | nil => simp [hkey] at hcomment
      | cons c rest => simpa [hkey] using hcomment
    · simp at hequals
  -- the split is at the first equals sign, which the key does not have
  have hnone : ∀ c ∈ key.toList, decide (c ≠ '=') = true := fun c hc =>
    decide_eq_true fun heq => h.noEquals (heq ▸ hc)
  rw [hline, parseLine]
  simp only [strip_of_stripped hstripped, if_neg hread]
  rw [List.takeWhile_append_of_pos hnone, List.dropWhile_append_of_pos hnone]
  simp [strip_of_stripped h.stripped_key, strip_of_stripped h.stripped_value]

/-- The bindings of a text that was read. -/
theorem binding_of_get?_parseEnv {text key value : String}
    (h : (parseEnv text).get? key = some value) : Binding key.toList value.toList := by
  obtain ⟨raw, hraw, hparse⟩ := List.mem_filterMap.mp (Dict.mem_of_get?_ofList h)
  exact binding_of_parseLine (not_isLineBreak_of_mem hraw) hparse

example : (parseEnv "A=b=c\n#D=e\nA= f ").get? "A" = some "f" := by decide +kernel

/-! ## Reading what was written -/

@[simp] theorem mem_bindingsAt {values : Dict String String} {keys : List String}
    {key value : String} :
    (key, value) ∈ bindingsAt values keys ↔ key ∈ keys ∧ values.get? key = some value := by
  rw [bindingsAt, List.mem_filterMap]
  constructor
  · rintro ⟨key', hkey, heq⟩
    obtain ⟨v, hv, hpair⟩ := Option.map_eq_some_iff.mp heq
    obtain ⟨rfl, rfl⟩ := Prod.mk.inj hpair
    exact ⟨hkey, hv⟩
  · rintro ⟨hkey, hvalue⟩
    exact ⟨key, hkey, by rw [hvalue]; rfl⟩

/-- The keys that are not preferred are written as well. -/
theorem mem_remainingKeys {values : Dict String String} {order : List String} {key : String} :
    key ∈ remainingKeys values order ↔ key ∈ values.keys ∧ key ∉ emittedKeys values order := by
  rw [remainingKeys, List.mem_insertionSort, List.mem_filter, decide_eq_true_iff]

/-- What is written is the values of all keys. -/
theorem mem_written {values : Dict String String} {order : List String} {key value : String} :
    (key, value) ∈ bindingsAt values (emittedKeys values order) ++
        bindingsAt values (remainingKeys values order) ↔ values.get? key = some value := by
  rw [List.mem_append, mem_bindingsAt, mem_bindingsAt, ← or_and_right, mem_remainingKeys,
    and_iff_right_iff_imp]
  intro h
  by_cases hemitted : key ∈ emittedKeys values order
  · exact .inl hemitted
  · exact .inr ⟨Dict.mem_keys_iff.mpr ⟨value, h⟩, hemitted⟩

/-- Of a text that consists of lines, at least one, each line is ended by a newline. -/
theorem toList_envText {bindings : List (String × String)} (h : bindings ≠ []) :
    (envText bindings).toList =
      (bindings.map fun b => (envLine b).toList).flatMap (· ++ ['\n']) := by
  rw [envText, String.toList_append, String.toList_intercalate, List.map_map]
  induction bindings with
  | nil => exact absurd rfl h
  | cons b bindings ih =>
      cases bindings with
      | nil => simp
      | cons b' bindings =>
          have hrest := ih (List.cons_ne_nil _ _)
          rw [List.map_cons, List.map_cons, List.intercalate_cons_cons, ← List.map_cons,
            List.append_assoc, hrest]
          simp

/-- The line of a binding holds no line break. -/
theorem Binding.not_isLineBreak {b : String × String} (h : Binding b.1.toList b.2.toList) :
    ∀ c ∈ (envLine b).toList, isLineBreak c = false := by
  intro c hc
  have hmem : c ∈ b.1.toList ∨ c = '=' ∨ c ∈ b.2.toList := by
    simpa [envLine, String.toList_append] using hc
  rcases hmem with hkey | rfl | hvalue
  · exact h.noBreak c (List.mem_append_left _ hkey)
  · decide
  · exact h.noBreak c (List.mem_append_right _ hvalue)

/-- The lines of bindings are read as these bindings. -/
theorem filterMap_parseLine {bindings : List (String × String)}
    (h : ∀ b ∈ bindings, Binding b.1.toList b.2.toList) :
    (splitLines ((bindings.map fun b => (envLine b).toList).flatMap (· ++ ['\n']))).filterMap
      parseLine = bindings := by
  have hlines : ∀ line ∈ bindings.map fun b => (envLine b).toList,
      ∀ c ∈ line, isLineBreak c = false := by
    intro line hline
    obtain ⟨b, hb, rfl⟩ := List.mem_map.mp hline
    exact (h b hb).not_isLineBreak
  have hsplit := splitLines_flatMap hlines []
  rw [List.append_nil] at hsplit
  rw [hsplit, splitLines, List.append_nil, List.filterMap_map]
  exact (List.filterMap_congr fun b hb => (h b hb).parseLine_line).trans List.filterMap_some

/-- The bindings of a text are read back. -/
theorem filterMap_envText {bindings : List (String × String)}
    (h : ∀ b ∈ bindings, Binding b.1.toList b.2.toList) :
    (splitLines (envText bindings).toList).filterMap parseLine = bindings := by
  cases bindings with
  | nil => rfl
  | cons b bindings => rw [toList_envText (List.cons_ne_nil _ _), filterMap_parseLine h]

/-- The bindings at the end of a text are read back, whatever is written before them. -/
theorem exists_filterMap_envText (first : List (String × String)) {rest : List (String × String)}
    (h : ∀ b ∈ rest, Binding b.1.toList b.2.toList) :
    ∃ read, (splitLines (envText (first ++ rest)).toList).filterMap parseLine = read ++ rest := by
  rcases List.eq_nil_or_concat first with rfl | ⟨before, last, rfl⟩
  · exact ⟨[], filterMap_envText h⟩
  · -- the newline after the last line of `first` separates the two
    rw [toList_envText (by simp), List.map_append, List.flatMap_append, List.concat_eq_append,
      List.map_append, List.flatMap_append, List.map_singleton, List.flatMap_singleton,
      ← List.append_assoc, List.append_assoc _ ['\n'], List.singleton_append]
    obtain ⟨line, lines, hsplit⟩ := exists_splitLines_append
      ((before.map fun b => (envLine b).toList).flatMap (· ++ ['\n']) ++ (envLine last).toList)
      ((rest.map fun b => (envLine b).toList).flatMap (· ++ ['\n']))
    refine ⟨(line :: lines).filterMap parseLine, ?_⟩
    rw [hsplit, ← List.cons_append, List.filterMap_append, filterMap_parseLine h]

/-- What was read is read again from what is written. -/
theorem get?_parseEnv_formatEnv {values : Dict String String}
    (h : ∀ key value, values.get? key = some value → Binding key.toList value.toList)
    (order : List String) (key : String) :
    (parseEnv (formatEnv values order)).get? key = values.get? key := by
  rw [parseEnv, formatEnv, filterMap_envText fun b hb => h b.1 b.2 (mem_written.mp hb)]
  apply Option.ext
  intro value
  rw [Dict.get?_ofList_eq_some_iff, mem_written]
  intro k v v' hv hv'
  exact Option.some_inj.mp ((mem_written.mp hv).symm.trans (mem_written.mp hv'))

/-- A key that is not preferred and whose value was read is read again, whatever the values of the
preferred keys are. -/
theorem get?_parseEnv_of_remaining {values : Dict String String} {order : List String}
    (h : ∀ key value, key ∉ order → values.get? key = some value →
      Binding key.toList value.toList) {key value : String} (hkey : key ∉ order)
    (hvalue : values.get? key = some value) :
    (parseEnv (formatEnv values order)).get? key = some value := by
  have hremaining : ∀ b ∈ bindingsAt values (remainingKeys values order), b.1 ∉ order := by
    intro b hb horder
    obtain ⟨hrest, -⟩ := mem_bindingsAt.mp hb
    obtain ⟨hpresent, hemitted⟩ := mem_remainingKeys.mp hrest
    exact hemitted (List.mem_filter.mpr ⟨horder, decide_eq_true hpresent⟩)
  have hbinding : ∀ b ∈ bindingsAt values (remainingKeys values order),
      Binding b.1.toList b.2.toList := fun b hb =>
    h b.1 b.2 (hremaining b hb) (mem_bindingsAt.mp hb).2
  have hlast : (Dict.ofList (bindingsAt values (remainingKeys values order))).get? key =
      some value := by
    refine (Dict.get?_ofList_eq_some_iff fun k v v' hv hv' => ?_).mpr
      (mem_bindingsAt.mpr ⟨?_, hvalue⟩)
    · exact Option.some_inj.mp ((mem_bindingsAt.mp hv).2.symm.trans (mem_bindingsAt.mp hv').2)
    · exact mem_remainingKeys.mpr ⟨Dict.mem_keys_iff.mpr ⟨value, hvalue⟩, fun hemitted =>
        hkey (List.mem_filter.mp hemitted).1⟩
  -- the later one of two bindings counts, and the remaining keys come last
  obtain ⟨read, hread⟩ :=
    exists_filterMap_envText (bindingsAt values (emittedKeys values order)) hbinding
  rw [parseEnv, formatEnv, hread, Dict.get?_ofList, List.reverse_append, List.lookup_append,
    ← Dict.get?_ofList, hlast, Option.some_or]

/-! ## Preparing the file -/

/-- What a command printed, if it succeeded. -/
structure CommandResult where
  ok : Bool
  stdout : String

/-- What the bootstrap reads of the host. -/
structure Host where
  /-- The variable `ISAACSIM_HOST` of the environment. -/
  isaacsimHost : Option String
  /-- `tailscale ip -4`. -/
  tailscale : CommandResult
  /-- `hostname -I`. -/
  hostname : CommandResult
  uid : ℕ
  gid : ℕ

/-- Whether a text names an address that other machines can reach. -/
def routable (value : List Char) : Bool := value ≠ [] ∧ ¬ "127.".toList <+: value

/-- `str.split`. -/
def words (text : List Char) : List (List Char) :=
  (text.splitOnP isSpace).filter fun word => word ≠ []

/-- The address under which the simulator is reached (`detect_host_address`). -/
def detectHostAddress (host : Host) : String :=
  let configured := strip (host.isaacsimHost.getD "").toList
  if configured ≠ [] ∧ String.ofList configured ∉
      ["0.0.0.0", "127.0.0.1", "localhost", "YOUR_BREV_PUBLIC_IP"] then .ofList configured
  -- the placeholders of the template count as not configured
  else
    let tailscale :=
      if host.tailscale.ok then
        ((splitLines host.tailscale.stdout.toList).map strip).find? routable
      else none
    let hostname :=
      if host.hostname.ok then (words host.hostname.stdout.toList).find? routable else none
    ((tailscale.or hostname).map String.ofList).getD "127.0.0.1"

/-- The keys that the bootstrap manages, in the order in which they are written. -/
def managedKeys : List String :=
  ["ROS_DISTRO", "ROS_DOMAIN_ID", "RMW_IMPLEMENTATION", "ISAACSIM_HOST", "ISAACSIM_SIGNAL_PORT",
    "ISAACSIM_STREAM_PORT", "ISAACSIM_TAG", "NETLAB_SHARED_FILE_MODE", "NETLAB_SHARED_DIR_MODE",
    "NETLAB_SHARED_UID", "NETLAB_SHARED_GID"]

/-- The values of the managed keys. Most keep the value that they have. -/
def managedValues (host : Host) (values : Dict String String) : List (String × String) :=
  [("ROS_DISTRO", (values.get? "ROS_DISTRO").getD "jazzy"),
    ("ROS_DOMAIN_ID", (values.get? "ROS_DOMAIN_ID").getD "42"),
    ("RMW_IMPLEMENTATION", (values.get? "RMW_IMPLEMENTATION").getD "rmw_fastrtps_cpp"),
    -- the address and the owner are found out anew, and the rest is kept if it is there
    ("ISAACSIM_HOST", detectHostAddress host),
    ("ISAACSIM_SIGNAL_PORT", (values.get? "ISAACSIM_SIGNAL_PORT").getD "49100"),
    ("ISAACSIM_STREAM_PORT", (values.get? "ISAACSIM_STREAM_PORT").getD "47998"),
    ("ISAACSIM_TAG", (values.get? "ISAACSIM_TAG").getD "5.1.0"),
    ("NETLAB_SHARED_FILE_MODE", (values.get? "NETLAB_SHARED_FILE_MODE").getD "0664"),
    ("NETLAB_SHARED_DIR_MODE", (values.get? "NETLAB_SHARED_DIR_MODE").getD "2775"),
    ("NETLAB_SHARED_UID", toString host.uid),
    ("NETLAB_SHARED_GID", toString host.gid)]

/-- The result of `prepare_env`: the text that replaces the environment file, and the values that
are reported. -/
structure PreparedEnv where
  text : String
  values : Dict String String

/-- The values of the files: those of the environment file over those of the example. -/
def fileValues (exampleText targetText : Option String) : Dict String String :=
  let values := Dict.empty
  let values := match exampleText with
    | some text => values.update (parseEnv text)
    | none => values
  match targetText with
  | some text => values.update (parseEnv text)
  | none => values

/-- Prepare the environment file from the example and the file that is there, if they exist
(`prepare_env`). -/
def prepareEnv (host : Host) (exampleText targetText : Option String) : PreparedEnv :=
  let values := fileValues exampleText targetText
  let values := values.update (.ofList (managedValues host values))
  { text := formatEnv values managedKeys
    values := .ofList (bindingsAt values managedKeys) }

theorem map_fst_managedValues (host : Host) (values : Dict String String) :
    (managedValues host values).map Prod.fst = managedKeys := rfl

/-- The keys that are not managed have the values of the files. -/
theorem get?_update_managedValues {host : Host} {values : Dict String String} {key : String}
    (h : key ∉ managedKeys) :
    (values.update (.ofList (managedValues host values))).get? key = values.get? key := by
  have hnone : (Dict.ofList (managedValues host values)).get? key = none := by
    rw [Option.eq_none_iff_forall_ne_some]
    intro value hvalue
    exact h (map_fst_managedValues host values ▸
      List.mem_map.mpr ⟨(key, value), Dict.mem_of_get?_ofList hvalue, rfl⟩)
  rw [Dict.get?_update, hnone, Option.none_or]

theorem get?_fileValues (exampleText targetText : Option String) (key : String) :
    (fileValues exampleText targetText).get? key =
      (targetText.bind fun text => (parseEnv text).get? key).or
        (exampleText.bind fun text => (parseEnv text).get? key) := by
  cases exampleText <;> cases targetText <;> simp [fileValues, Dict.get?_update]

/-- What a file says is a binding. -/
theorem binding_of_fileValues {exampleText targetText : Option String} {key value : String}
    (h : (fileValues exampleText targetText).get? key = some value) :
    Binding key.toList value.toList := by
  rw [get?_fileValues, Option.or_eq_some_iff] at h
  rcases h with htarget | ⟨-, hexample⟩
  · obtain ⟨text, -, hvalue⟩ := Option.bind_eq_some_iff.mp htarget
    exact binding_of_get?_parseEnv hvalue
  · obtain ⟨text, -, hvalue⟩ := Option.bind_eq_some_iff.mp hexample
    exact binding_of_get?_parseEnv hvalue

/-- The values of a text are read again from the text that is written for them, in any preferred
order; and preparing the environment file keeps the value of every key of the file that is not
managed, whatever is detected about the host. -/
theorem env_round_trip :
    (∀ (text : String) (order : List String) (key : String),
      (parseEnv (formatEnv (parseEnv text) order)).get? key = (parseEnv text).get? key) ∧
    ∀ (host : Host) (exampleText : Option String) (text key : String), key ∉ managedKeys →
      key ∈ (parseEnv text).keys →
        (parseEnv (prepareEnv host exampleText (some text)).text).get? key =
          (parseEnv text).get? key := by
  refine ⟨fun text order key => ?_, fun host exampleText text key hkey hpresent => ?_⟩
  · exact get?_parseEnv_formatEnv (fun _ _ => binding_of_get?_parseEnv) order key
  · obtain ⟨value, hvalue⟩ := Dict.mem_keys_iff.mp hpresent
    rw [hvalue, prepareEnv]
    refine get?_parseEnv_of_remaining (fun k v hk hv => ?_) hkey ?_
    · rw [get?_update_managedValues hk] at hv
      exact binding_of_fileValues hv
    · rw [get?_update_managedValues hkey, get?_fileValues, Option.bind_some, hvalue,
        Option.some_or]

theorem env_round_trip_proxy :
    (parseEnv (prepareEnv ⟨none, ⟨false, ""⟩, ⟨false, ""⟩, 1000, 1000⟩ none
        (some "PROXY=http://a=b\n")).text).get? "PROXY" =
      (parseEnv "PROXY=http://a=b\n").get? "PROXY" :=
  env_round_trip.2 _ none "PROXY=http://a=b\n" "PROXY" (by decide) (by decide +kernel)

end Netlab.Bootstrap
