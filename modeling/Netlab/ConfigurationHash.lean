import Netlab.Hashing
import Netlab.Prelude.JsonText
import Netlab.Prelude.Traverse
import Netlab.Revisions.Manager

/-!
# What the hashes of a configuration tell apart

`canonical_json` of `netlab/hashing.py` and of `netlab/config.py`, and the hashes that are made of
them. The digest is a parameter: the hexadecimal SHA-256 of a text in UTF-8.

* `componentHashes_faithful`: where the digest tells the hashed texts apart, every hash of
  `component_hashes` is equal for two configurations exactly when what it covers is the same
  document, and the drift of an acknowledgement names exactly the others;
* `configHash_eq_iff`: `config_hash` is the hash of `configuration_hash` exactly when the
  configuration has finite numbers and no character after printable ASCII.
-/

namespace Netlab

variable {F : Type} [PyText F] [PyFloat F]

namespace Hashing

/-- `canonical_json` of `netlab/hashing.py`, which raises on a number that is not finite. -/
def canonicalJson (value : Json F) : Option String :=
  if JsonText.finite value then some (.ofList (JsonText.render true (JsonText.sortKeys value)))
  else none

/-- `sha256_value`. -/
def sha256Value (digest : String → String) (value : Json F) : Option String :=
  (canonicalJson value).map digest

/-- The names of the section hashes with the sections they cover. -/
def hashedSections : List (String × String) :=
  sectionKeys.map (fun key => (hashName key, key)) ++ stableNames

/-- `config.get(key, {})`. -/
def sectionOf (config : Dict String (Json F)) (key : String) : Json F :=
  (config.get? key).getD (.obj [])

/-- The texts that `component_hashes` hashes. -/
def hashedTexts (config : Json F) : Set String :=
  {text | canonicalJson config = some text ∨ ∃ sections key, config.dict? = some sections ∧
    canonicalJson (sectionOf sections key) = some text}

end Hashing

namespace Experiment

/-- `canonical_json` of `netlab/config.py`. -/
def canonicalJson (config : Json F) : String :=
  .ofList (JsonText.render false (JsonText.sortKeys config))

/-- `configuration_hash`. -/
def configurationHash (digest : String → String) (config : Json F) : String :=
  digest (canonicalJson config)

end Experiment

namespace Hashing

/-! ### Texts -/

theorem canonicalJson_of_finite {value : Json F} (h : JsonText.finite value = true) :
    canonicalJson value = some (.ofList (JsonText.render true (JsonText.sortKeys value))) :=
  if_pos h

/-- Values with finite numbers have the same text exactly when they are the same document. -/
theorem canonicalJson_eq_iff [FloatRepr F] {a b : Json F} (ha : a.distinct = true)
    (hb : b.distinct = true) (hfa : JsonText.finite a = true) (hfb : JsonText.finite b = true) :
    canonicalJson a = canonicalJson b ↔ Json.Same a b := by
  rw [canonicalJson_of_finite hfa, canonicalJson_of_finite hfb, ← JsonText.sortKeys_eq_iff ha hb,
    Option.some.injEq, String.ofList_inj]
  constructor
  · exact JsonText.render_injective ((JsonText.every_sortKeys ha).mpr hfa)
      ((JsonText.every_sortKeys hb).mpr hfb)
  · intro h
    rw [h]

omit [PyText F] in
/-- A section of a configuration has what the configuration has. -/
theorem sectionOf_spec {config : Json F} {sections : Dict String (Json F)}
    (h : config.dict? = some sections) (hdistinct : config.distinct = true)
    (hfinite : JsonText.finite config = true) (key : String) :
    (sectionOf sections key).distinct = true ∧ JsonText.finite (sectionOf sections key) = true := by
  obtain rfl := Json.eq_ofDict_of_dict? hdistinct h
  rw [sectionOf]
  cases hvalue : sections.get? key with
  | none => exact ⟨rfl, rfl⟩
  | some value =>
      have hmem := Dict.get?_eq_some_iff.mp hvalue
      exact ⟨(Json.distinct_obj.mp hdistinct).2 key value hmem,
        (JsonText.every_obj.mp hfinite _ hmem).2⟩

/-! ### Component hashes -/

/-- The names of the hashes. -/
def hashNames : List String := "config_hash" :: hashedSections.map Prod.fst

/-- What a hash covers: the whole configuration or one section. -/
def covered (config : Json F) (sections : Dict String (Json F)) (name : String) : Json F :=
  match hashedSections.lookup name with
  | some key => sectionOf sections key
  | none => config

/-- Every name stands for one section. -/
theorem lookup_hashedSections {name key : String} (h : (name, key) ∈ hashedSections) :
    hashedSections.lookup name = some key := by
  have hall : ∀ e ∈ hashedSections, hashedSections.lookup e.1 = some e.2 := by decide
  exact hall _ h

section Covered

variable {config : Json F} {sections : Dict String (Json F)} (h : config.dict? = some sections)
  (hdistinct : config.distinct = true) (hfinite : JsonText.finite config = true)

include h hdistinct hfinite

omit [PyText F] in
theorem covered_spec (name : String) : (covered config sections name).distinct = true ∧
    JsonText.finite (covered config sections name) = true := by
  rw [covered]
  split
  · exact sectionOf_spec h hdistinct hfinite _
  · exact ⟨hdistinct, hfinite⟩

/-- `component_hashes` hashes what each name covers. -/
theorem exists_componentHashes (digest : String → String) :
    ∃ hashes, componentHashes (sha256Value digest) config = some hashes ∧
      (∀ name, name ∈ hashes.keys ↔ name ∈ hashNames) ∧
      ∀ name ∈ hashNames,
        hashes.get? name = (canonicalJson (covered config sections name)).map digest := by
  let hash (value : Json F) : String :=
    digest (.ofList (JsonText.render true (JsonText.sortKeys value)))
  have hhash : ∀ {value : Json F}, JsonText.finite value = true →
      (canonicalJson value).map digest = some (hash value) := by
    intro value hvalue
    rw [canonicalJson_of_finite hvalue, Option.map_some]
  have hsection (key : String) : sha256Value digest (sectionOf sections key) =
      some (hash (sectionOf sections key)) := hhash (sectionOf_spec h hdistinct hfinite key).2
  -- every section has a text, so the loop over them ends
  have hmapM : (hashedSections.mapM fun e =>
        (sha256Value digest ((sections.get? e.2).getD (.obj []))).bind fun hash =>
          some (e.1, hash)) =
      some (hashedSections.map fun e => (e.1, hash (sectionOf sections e.2))) := by
    rw [List.mapM_eq_some_iff_forall₂, List.forall₂_map_right_iff, List.forall₂_same]
    rintro ⟨name, key⟩ -
    have := hsection key
    rw [sectionOf] at this
    simp [this, sectionOf]
  refine ⟨.ofList (("config_hash", hash config) ::
    hashedSections.map fun e => (e.1, hash (sectionOf sections e.2))), ?_, ?_, ?_⟩
  · have hwhole : sha256Value digest config = some (hash config) := hhash hfinite
    simp only [componentHashes, hwhole, h, bind, pure, Option.bind_some]
    rw [show sectionKeys.map (fun key => (hashName key, key)) ++ stableNames = hashedSections from rfl]
    exact (congrArg (fun hashes => Option.bind hashes _) hmapM).trans rfl
  · intro name
    rw [Dict.mem_keys_ofList, hashNames, List.map_cons, List.map_map]
    rfl
  · intro name hname
    have hkey : name ∈ (Dict.ofList (("config_hash", hash config) ::
        hashedSections.map fun e => (e.1, hash (sectionOf sections e.2)))).keys := by
      rw [Dict.mem_keys_ofList, List.map_cons, List.map_map]
      exact hname
    obtain ⟨value, hvalue⟩ := Dict.mem_keys_iff.mp hkey
    rw [hvalue, hhash (covered_spec h hdistinct hfinite name).2]
    rcases List.mem_cons.mp (Dict.mem_of_get?_ofList hvalue) with heq | hmem
    · obtain ⟨rfl, rfl⟩ := Prod.mk.inj heq
      rfl
    · obtain ⟨⟨name', key⟩, hnamed, heq⟩ := List.mem_map.mp hmem
      obtain ⟨rfl, rfl⟩ := Prod.mk.inj heq
      rw [covered, lookup_hashedSections hnamed]

end Covered

/-- The text of what a name covers is hashed. -/
theorem mem_hashedTexts {config : Json F} {sections : Dict String (Json F)}
    (h : config.dict? = some sections) {name text : String}
    (htext : canonicalJson (covered config sections name) = some text) :
    text ∈ hashedTexts config := by
  rw [covered] at htext
  split at htext
  · exact Or.inr ⟨sections, _, h, htext⟩
  · exact Or.inl htext

/-! ### Drift -/

/-- The hashes as an acknowledgement carries them. -/
def hashesJson (hashes : Dict String String) : Json F := .ofDict (hashes.map fun _ hash => .str hash)

/-- The acknowledgement carries the hashes, under one of its three keys for them. -/
def Carries (ack : Dict String (Json F)) (hashes : Dict String String) : Prop :=
  ((ack.get? "applied_hashes").getD .null).orElse
    (((ack.get? "observed_hashes").getD .null).orElse
      (((ack.get? "hashes").getD .null).orElse (.obj []))) = hashesJson hashes

omit [PyText F] [PyFloat F] in
/-- A hash is looked for among the hashes that an acknowledgement carries. -/
theorem find?_hashesJson (hashes : Dict String String) (name expected : String) :
    (hashesJson hashes : Json F).find? name expected =
      some (match hashes.get? name with
        | none => .missing
        | some hash => if hash = expected then .equal else .different) := by
  rw [hashesJson, Json.ofDict, Json.find?, Dict.ofList_entries, Dict.get?_map]
  cases hashes.get? name with
  | none => rfl
  | some hash => simp

omit [PyFloat F] in
/-- The drift of an acknowledgement names the hashes of the record that it does not carry. -/
theorem exists_ackDrift {record : Revisions.Record F} {ack : Dict String (Json F)}
    {hashes : Dict String String} (h : Carries ack hashes) :
    ∃ drift, Revisions.ackDrift record ack = some drift ∧ ∀ name,
      name ∈ drift.hashMismatches.map Prod.fst ↔
        ∃ expected, record.hashes.get? name = some expected ∧ hashes.get? name ≠ some expected := by
  -- what is found at a name: the hash that is expected, another one, or none
  let found (name expected : String) : Json.Found :=
    match hashes.get? name with
    | none => .missing
    | some hash => if hash = expected then .equal else .different
  have hfound : ∀ name expected, found name expected ≠ .equal ↔ hashes.get? name ≠ some expected := by
    intro name expected
    simp only [found]
    cases hashes.get? name with
    | none => simp
    | some hash => by_cases heq : hash = expected <;> simp [heq]
  have hmapM : (record.hashes.entries.mapM fun e =>
        ((hashesJson hashes : Json F).find? e.1 e.2).bind fun what => some (e.1, what)) =
      some (record.hashes.entries.map fun e => (e.1, found e.1 e.2)) := by
    rw [List.mapM_eq_some_iff_forall₂, List.forall₂_map_right_iff, List.forall₂_same]
    rintro ⟨name, expected⟩ -
    simp [find?_hashesJson, found]
  have hdrift : ∃ drift, Revisions.ackDrift record ack = some drift ∧ drift.hashMismatches =
      (record.hashes.entries.map fun e => (e.1, found e.1 e.2)).filter fun e => e.2 ≠ .equal := by
    simp only [Revisions.ackDrift, show _ = hashesJson hashes from h, bind, pure]
    exact ⟨_, (congrArg (fun found => Option.bind found _) hmapM).trans rfl, rfl⟩
  obtain ⟨drift, hdrift, hmismatches⟩ := hdrift
  refine ⟨drift, hdrift, fun name => ?_⟩
  rw [hmismatches, List.mem_map]
  constructor
  · rintro ⟨⟨name', what⟩, hmem, rfl⟩
    obtain ⟨hmem, hne⟩ := List.mem_filter.mp hmem
    obtain ⟨⟨name, expected⟩, hentry, heq⟩ := List.mem_map.mp hmem
    obtain ⟨rfl, rfl⟩ := Prod.mk.inj heq
    exact ⟨expected, Dict.get?_eq_some_iff.mpr hentry, (hfound name expected).mp (by simpa using hne)⟩
  · rintro ⟨expected, hget, hne⟩
    refine ⟨(name, found name expected), List.mem_filter.mpr ⟨?_, ?_⟩, rfl⟩
    · exact List.mem_map.mpr ⟨(name, expected), Dict.get?_eq_some_iff.mp hget, rfl⟩
    · simpa using (hfound name expected).mpr hne

/-! ### What the hashes tell apart -/

/-- Every hash is equal for two configurations exactly when what it covers is the same document. -/
theorem get?_eq_iff [FloatRepr F] {digest : String → String} {config config' : Json F}
    {sections sections' : Dict String (Json F)} (h : config.dict? = some sections)
    (h' : config'.dict? = some sections') (hdistinct : config.distinct = true)
    (hdistinct' : config'.distinct = true) (hfinite : JsonText.finite config = true)
    (hfinite' : JsonText.finite config' = true)
    (hdigest : Set.InjOn digest (hashedTexts config ∪ hashedTexts config')) (name : String) :
    (canonicalJson (covered config sections name)).map digest =
        (canonicalJson (covered config' sections' name)).map digest ↔
      Json.Same (covered config sections name) (covered config' sections' name) := by
  obtain ⟨hd, hf⟩ := covered_spec h hdistinct hfinite name
  obtain ⟨hd', hf'⟩ := covered_spec h' hdistinct' hfinite' name
  rw [← canonicalJson_eq_iff hd hd' hf hf']
  have htext := canonicalJson_of_finite hf
  have htext' := canonicalJson_of_finite hf'
  rw [htext, htext', Option.map_some, Option.map_some, Option.some.injEq, Option.some.injEq]
  exact hdigest.eq_iff (Or.inl (mem_hashedTexts h htext)) (Or.inr (mem_hashedTexts h' htext'))

/-- Where the digest tells the hashed texts apart: the hash of a section is equal for two
configurations with finite numbers exactly when the section is the same document in both, the hash
of the configuration exactly when the configurations are the same document, and the drift between a
record of the one and an acknowledgement of the other names exactly the hashes of what differs. -/
theorem componentHashes_faithful [FloatRepr F] (digest : String → String) {config config' : Json F}
    {sections sections' : Dict String (Json F)} (h : config.dict? = some sections)
    (h' : config'.dict? = some sections') (hdistinct : config.distinct = true)
    (hdistinct' : config'.distinct = true) (hfinite : JsonText.finite config = true)
    (hfinite' : JsonText.finite config' = true)
    (hdigest : Set.InjOn digest (hashedTexts config ∪ hashedTexts config')) :
    ∃ hashes hashes', componentHashes (sha256Value digest) config = some hashes ∧
      componentHashes (sha256Value digest) config' = some hashes' ∧
      (∀ name key, (name, key) ∈ hashedSections → (hashes.get? name = hashes'.get? name ↔
        Json.Same (sectionOf sections key) (sectionOf sections' key))) ∧
      (hashes.get? "config_hash" = hashes'.get? "config_hash" ↔ Json.Same config config') ∧
      ∀ (record : Revisions.Record F) (ack : Dict String (Json F)), record.hashes = hashes →
        Carries ack hashes' → ∃ drift, Revisions.ackDrift record ack = some drift ∧ ∀ name,
          name ∈ drift.hashMismatches.map Prod.fst ↔
            (name = "config_hash" ∧ ¬ Json.Same config config') ∨
              ∃ key, (name, key) ∈ hashedSections ∧
                ¬ Json.Same (sectionOf sections key) (sectionOf sections' key) := by
  obtain ⟨hashes, hhashes, hkeys, hget⟩ := exists_componentHashes h hdistinct hfinite digest
  obtain ⟨hashes', hhashes', hkeys', hget'⟩ := exists_componentHashes h' hdistinct' hfinite' digest
  -- two hashes agree exactly if what they are taken of does
  have hiff : ∀ name ∈ hashNames, (hashes.get? name = hashes'.get? name ↔
      Json.Same (covered config sections name) (covered config' sections' name)) := by
    intro name hname
    rw [hget name hname, hget' name hname]
    exact get?_eq_iff h h' hdistinct hdistinct' hfinite hfinite' hdigest name
  have hsection : ∀ name key, (name, key) ∈ hashedSections →
      (hashes.get? name = hashes'.get? name ↔
        Json.Same (sectionOf sections key) (sectionOf sections' key)) := by
    intro name key hmem
    rw [hiff name (List.mem_cons_of_mem _ (List.mem_map_of_mem hmem)), covered, covered,
      lookup_hashedSections hmem]
  have hwhole : hashes.get? "config_hash" = hashes'.get? "config_hash" ↔ Json.Same config config' :=
    hiff "config_hash" (List.mem_cons_self ..)
  refine ⟨hashes, hashes', hhashes, hhashes', hsection, hwhole, ?_⟩
  rintro record ack rfl hcarries
  obtain ⟨drift, hdrift, hmismatches⟩ := @exists_ackDrift _ _ record _ _ hcarries
  refine ⟨drift, hdrift, fun name => (hmismatches name).trans ?_⟩
  have hdiffers : (∃ expected, record.hashes.get? name = some expected ∧
      hashes'.get? name ≠ some expected) ↔
        name ∈ hashNames ∧ record.hashes.get? name ≠ hashes'.get? name := by
    rw [← hkeys, Dict.mem_keys_iff]
    constructor
    · rintro ⟨expected, hexpected, hne⟩
      exact ⟨⟨expected, hexpected⟩, fun heq => hne (heq ▸ hexpected)⟩
    · rintro ⟨⟨expected, hexpected⟩, hne⟩
      exact ⟨expected, hexpected, fun heq => hne (hexpected.trans heq.symm)⟩
  rw [hdiffers, hashNames, List.mem_cons]
  constructor
  · rintro ⟨rfl | hname, hne⟩
    · exact Or.inl ⟨rfl, fun hsame => hne (hwhole.mpr hsame)⟩
    · obtain ⟨⟨name, key⟩, hmem, rfl⟩ := List.mem_map.mp hname
      exact Or.inr ⟨key, hmem, fun hsame => hne ((hsection name key hmem).mpr hsame)⟩
  · rintro (⟨rfl, hne⟩ | ⟨key, hmem, hne⟩)
    · exact ⟨Or.inl rfl, fun heq => hne (hwhole.mp heq)⟩
    · exact ⟨Or.inr (List.mem_map_of_mem hmem),
        fun heq => hne ((hsection name key hmem).mp heq)⟩

/-- Two configurations that list their sections in different orders and differ in one of them. -/
theorem componentHashes_worldChanged :
    let topology : Json ℚ := .obj [("mode", .str "manual"), ("threshold", .float 2)]
    let config : Json ℚ := .obj [("topology", topology), ("world", .float 1)]
    let config' : Json ℚ := .obj [("world", .float 3), ("topology", topology)]
    ∃ hashes hashes', componentHashes (@sha256Value ℚ PyText.decimal _ id) config = some hashes ∧
      componentHashes (@sha256Value ℚ PyText.decimal _ id) config' = some hashes' ∧
      hashes.get? "topology_hash" = hashes'.get? "topology_hash" ∧
      hashes.get? "world_hash" ≠ hashes'.get? "world_hash" := by
  intro topology config config'
  obtain ⟨hashes, hashes', hhashes, hhashes', hsection, -, -⟩ :=
    @componentHashes_faithful ℚ PyText.decimal _ PyText.decimal.floatRepr id config config'
      (.ofList [("topology", topology), ("world", .float 1)])
      (.ofList [("world", .float 3), ("topology", topology)]) rfl rfl (by decide) (by decide) rfl rfl
      (Set.injOn_id _)
  refine ⟨hashes, hashes', hhashes, hhashes', ?_, ?_⟩
  · exact (hsection "topology_hash" "topology" (by decide)).mpr (.refl topology)
  · intro heq
    have hsame : Json.Same (.float 1 : Json ℚ) (.float 3) :=
      (hsection "world_hash" "world" (by decide)).mp heq
    generalize ha : (Json.float 1 : Json ℚ) = a at hsame
    generalize hb : (Json.float 3 : Json ℚ) = b at hsame
    cases hsame with
    | refl =>
        have hvalue : (1 : ℚ) = 3 := Json.float.inj (ha.trans hb.symm)
        exact absurd hvalue (by norm_num)
    | array _ => cases ha
    | object _ => cases ha

/-! ### The two configuration hashes -/

/-- Where the digest tells its two texts apart, the hash of a configuration among the component
hashes is the one of `configuration_hash` exactly when the configuration has finite numbers and no
string or key of it has a character after printable ASCII. -/
theorem configHash_eq_iff [FloatRepr F] (digest : String → String) {config : Json F}
    {sections : Dict String (Json F)} (h : config.dict? = some sections)
    (hdistinct : config.distinct = true)
    (hdigest : ∀ text, canonicalJson config = some text →
      digest text = digest (Experiment.canonicalJson config) →
        text = Experiment.canonicalJson config) :
    (componentHashes (sha256Value digest) config).bind (·.get? "config_hash") =
        some (Experiment.configurationHash digest config) ↔
      JsonText.finite config = true ∧ JsonText.plain config = true := by
  by_cases hfinite : JsonText.finite config = true
  · obtain ⟨hashes, hhashes, -, hget⟩ := exists_componentHashes h hdistinct hfinite digest
    have htext := canonicalJson_of_finite hfinite
    have hsorted : JsonText.finite (JsonText.sortKeys config) = true :=
      (JsonText.every_sortKeys hdistinct).mpr hfinite
    have hplain : JsonText.plain (JsonText.sortKeys config) = true ↔ JsonText.plain config = true :=
      JsonText.every_sortKeys hdistinct
    have hwhole : covered config sections "config_hash" = config := rfl
    -- both digests are of rendered texts, one with escapes and one without
    rw [hhashes, Option.bind_some, hget _ (List.mem_cons_self ..), hwhole, htext, Option.map_some,
      Option.some.injEq, Experiment.configurationHash, and_iff_right hfinite, ← hplain,
      ← JsonText.render_ascii_eq_iff hsorted, ← String.ofList_inj]
    constructor
    · exact hdigest _ htext
    · intro heq
      rw [heq, Experiment.canonicalJson]
  · -- a number that is not finite makes the component hashes raise
    have hnone : componentHashes (sha256Value digest) config = none := by
      rw [componentHashes, sha256Value, canonicalJson, if_neg hfinite]
      rfl
    simp [hnone, hfinite]

/-- A configuration in printable ASCII. -/
theorem configHash_eq_demo :
    let config : Json ℚ := .obj [("experiment", .obj [("name", .str "demo")])]
    (componentHashes (@sha256Value ℚ PyText.decimal _ id) config).bind (·.get? "config_hash") =
      some (@Experiment.configurationHash ℚ PyText.decimal _ id config) := by
  intro config
  exact (@configHash_eq_iff ℚ PyText.decimal _ PyText.decimal.floatRepr id config
    (.ofList [("experiment", .obj [("name", .str "demo")])]) rfl (by decide)
    (fun _ _ h => h)).mpr ⟨rfl, by decide⟩

/-- An accented letter is escaped in the one text and stands in the other. -/
theorem configHash_ne_accented :
    let config : Json ℚ := .obj [("experiment", .obj [("name", .str "é")])]
    let escaped := "\x7b\"experiment\":\x7b\"name\":\"\\u00e9\"\x7d\x7d"
    let plain := "\x7b\"experiment\":\x7b\"name\":\"é\"\x7d\x7d"
    canonicalJson config = some escaped ∧ Experiment.canonicalJson config = plain ∧
      ∀ digest : String → String, digest escaped ≠ digest plain →
        (componentHashes (sha256Value digest) config).bind (·.get? "config_hash") ≠
          some (Experiment.configurationHash digest config) := by
  intro config escaped plain
  have hescaped : canonicalJson config = some escaped := by decide +kernel
  have hplain : Experiment.canonicalJson config = plain := by decide +kernel
  refine ⟨hescaped, hplain, fun digest hne heq => hne ?_⟩
  obtain ⟨hashes, hhashes, -, hget⟩ := @exists_componentHashes ℚ _ _ config
    (.ofList [("experiment", .obj [("name", .str "é")])]) rfl (by decide) rfl digest
  rw [hhashes, Option.bind_some, hget _ (List.mem_cons_self ..),
    show covered config _ "config_hash" = config from rfl, hescaped, Option.map_some,
    Option.some.injEq, Experiment.configurationHash, hplain] at heq
  exact heq

end Hashing

end Netlab
