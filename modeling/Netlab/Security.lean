import Mathlib.Algebra.BigOperators.Group.List.Basic
import Mathlib.Algebra.GroupWithZero.Nat
import Netlab.Prelude.LexicalPath

/-!
# Archives

`safe_extract_zip` of `netlab/security.py` looks at all members of an archive before it extracts
any. What the file system makes of a path (`resolve`) may be anything, and so may be the number of
members that `extractall` writes before it raises, if it does. A member is written under the
destination at its name.

The check of the names alone keeps every member inside the destination, whether backslashes separate
components or not (`safeExtractZip_confined`). The names that are returned have slashes for
backslashes, so they are not always the names of the members.
-/

namespace Netlab

/-- A member of an archive. -/
structure ZipMember where
  filename : String
  fileSize : ℕ
  deriving DecidableEq, Repr

/-- What `safe_extract_zip` raises: `UnsafeAssetError`, or something else. -/
inductive ExtractError
  | unsafeAsset (message : String)
  | raised
  deriving DecidableEq, Repr

/-- What becomes of an archive: what the call returns or raises, and which members have been written
where. -/
structure Extraction where
  result : Except ExtractError (List String)
  written : List (LexicalPath × ZipMember)

/-- Whether a name starts with a slash. -/
def isAbsolute (name : String) : Bool := name.toList.head? = some '/'

/-- `Path(name)`. -/
def posixPath (name : String) : LexicalPath where
  root :=
    match name.toList with
    -- exactly two slashes are a root of their own
    | '/' :: '/' :: '/' :: _ => "/"
    | '/' :: '/' :: _ => "//"
    | '/' :: _ => "/"
    | _ => ""
  parts := LexicalPath.components (· = '/') name

/-- `filename.replace('\\', '/')`. -/
def slashed (filename : String) : String :=
  .ofList (filename.toList.map fun c => if c = '\\' then '/' else c)

/-- The check of the members, with the sizes added up so far: the names that will be returned. -/
def checkMembers (maxTotalBytes : ℕ) (resolve : LexicalPath → Option LexicalPath)
    (destination : LexicalPath) : ℕ → List ZipMember → Except ExtractError (List String)
  | _, [] => .ok []
  | total, info :: infos =>
      let name := slashed info.filename
      let path := posixPath name
      let total := total + info.fileSize
      if isAbsolute name ∨ ".." ∈ path.parts then
        .error (.unsafeAsset ("unsafe member " ++ name))
      else if total > maxTotalBytes then
        .error (.unsafeAsset "archive uncompressed size limit exceeded")
      else
        -- whether a link leads out of the destination is seen here
        match resolve (destination.join path), resolve destination with
        | some target, some base =>
            if base ∉ target.parents ∧ target ≠ base then
              .error (.unsafeAsset ("path escape " ++ name))
            else do
              let names ← checkMembers maxTotalBytes resolve destination total infos
              return name :: names
        | _, _ => .error .raised

/-- `safe_extract_zip`. With `crash` given, `extractall` raises after that many members. -/
def safeExtractZip (maxMembers maxTotalBytes : ℕ) (resolve : LexicalPath → Option LexicalPath)
    (crash : Option ℕ) (infos : List ZipMember) (destination : LexicalPath) : Extraction :=
  if infos.length > maxMembers then
    { result := .error (.unsafeAsset "archive contains too many members"), written := [] }
  else
    match checkMembers maxTotalBytes resolve destination 0 infos with
    | .error error => { result := .error error, written := [] }
    | .ok names =>
        let written := infos.map fun info => (destination.join (posixPath info.filename), info)
        -- writing begins when every member has been checked
        match crash with
        | none => { result := .ok names, written }
        | some n => { result := .error .raised, written := written.take n }

/-! ## Names -/

theorem posixPath_root {name : String} (h : isAbsolute name = false) :
    (posixPath name).root = "" := by
  rw [isAbsolute, decide_eq_false_iff_not] at h
  unfold posixPath
  dsimp only
  split <;> simp_all

/-- The components of a name in which slashes stand for backslashes are those that both separate. -/
theorem parts_slashed (filename : String) : (posixPath (slashed filename)).parts =
    LexicalPath.components (fun c => c = '/' ∨ c = '\\') filename := by
  have hsplit := List.splitOnP_map (p := fun c : Char => c = '/')
    (f := fun c => if c = '\\' then '/' else c)
    (fun c hc => by by_cases hback : c = '\\' <;> simp_all) filename.toList
  have hseparators : (fun c : Char => decide ((if c = '\\' then '/' else c) = '/')) =
      fun c => decide (c = '/' ∨ c = '\\') := by
    funext c
    by_cases hback : c = '\\' <;> simp [hback]
  rw [posixPath, LexicalPath.components, LexicalPath.components, slashed, String.toList_ofList,
    hsplit, hseparators]

theorem isAbsolute_of_slashed {filename : String} (h : isAbsolute (slashed filename) = false) :
    isAbsolute filename = false := by
  rw [isAbsolute, slashed, String.toList_ofList, List.head?_map, decide_eq_false_iff_not] at h
  rw [isAbsolute, decide_eq_false_iff_not]
  intro hslash
  rw [hslash] at h
  exact h (by decide)

/-- A `..` between slashes stays one when there are more separators. -/
theorem dotdot_of_parts {filename : String} (h : ".." ∈ (posixPath filename).parts) :
    ".." ∈ (posixPath (slashed filename)).parts := by
  rw [parts_slashed]
  simp only [posixPath, LexicalPath.components, List.mem_filter, List.mem_map] at h ⊢
  obtain ⟨⟨piece, hpiece, heq⟩, hkept⟩ := h
  refine ⟨⟨piece, List.mem_splitOnP_of_mem (fun c hc => by simp_all) hpiece ?_, heq⟩, hkept⟩
  have hdots : piece = ['.', '.'] := by
    rw [← String.toList_ofList (l := piece), heq]
    rfl
  simp [hdots]

/-! ## Confinement -/

/-- What the check of a member is satisfied with: its name is relative and does not climb. -/
structure ZipMember.Confined (info : ZipMember) : Prop where
  relative : isAbsolute (slashed info.filename) = false
  parts : ".." ∉ (posixPath (slashed info.filename)).parts

/-- Members that pass the check are confined, fit in the limit, and give the names. -/
theorem checkMembers_ok {maxTotalBytes : ℕ} {resolve : LexicalPath → Option LexicalPath}
    {destination : LexicalPath} {total : ℕ} {infos : List ZipMember} {names : List String}
    (h : checkMembers maxTotalBytes resolve destination total infos = .ok names) :
    names = infos.map (fun info => slashed info.filename) ∧ (∀ info ∈ infos, info.Confined) ∧
      (infos = [] ∨ total + (infos.map ZipMember.fileSize).sum ≤ maxTotalBytes) := by
  induction infos generalizing total names with
  | nil =>
      obtain rfl : [] = names := Except.ok.inj h
      exact ⟨rfl, by simp, Or.inl rfl⟩
  -- the three checks on one member, in the order of the loop, then the rest of the archive
  | cons info infos ih =>
      rw [checkMembers] at h
      split at h
      · cases h
      rename_i hname
      split at h
      · cases h
      rename_i hsize
      split at h
      · split at h
        · cases h
        · cases hrest : checkMembers maxTotalBytes resolve destination (total + info.fileSize)
            infos with
          | error error =>
              rw [hrest] at h
              cases h
          | ok rest =>
              rw [hrest] at h
              obtain rfl := Except.ok.inj h
              obtain ⟨hnames, hconfined, hsum⟩ := ih hrest
              obtain ⟨hrelative, hparts⟩ := not_or.mp hname
              refine ⟨by rw [hnames, List.map_cons], ?_, Or.inr ?_⟩
              · exact List.forall_mem_cons.mpr ⟨⟨by simpa using hrelative, hparts⟩, hconfined⟩
              · rw [List.map_cons, List.sum_cons]
                rcases hsum with rfl | hsum
                · simpa using hsize
                · omega
      · cases h

/-- A confined member is written inside the destination. So is the path that its name means where
backslashes separate components. -/
theorem ZipMember.Confined.inside {info : ZipMember} (h : info.Confined)
    (destination : LexicalPath) :
    (destination.join (posixPath info.filename)).normalize.Inside destination.normalize ∧
      (destination.join (posixPath (slashed info.filename))).normalize.Inside
        destination.normalize :=
  ⟨LexicalPath.inside_join (posixPath_root (isAbsolute_of_slashed h.relative))
      (mt dotdot_of_parts h.parts),
    LexicalPath.inside_join (posixPath_root h.relative) h.parts⟩

/-- What becomes of an archive: nothing is written, or the check has passed and everything has been
written, unless `extractall` raised. -/
theorem safeExtractZip_cases (maxMembers maxTotalBytes : ℕ)
    (resolve : LexicalPath → Option LexicalPath) (crash : Option ℕ) (infos : List ZipMember)
    (destination : LexicalPath) :
    let extraction := safeExtractZip maxMembers maxTotalBytes resolve crash infos destination
    (∃ error, extraction = { result := .error error, written := [] }) ∨
      (∃ n, extraction.result = .error .raised ∧ crash = some n) ∨
      ∃ names, infos.length ≤ maxMembers ∧
        checkMembers maxTotalBytes resolve destination 0 infos = .ok names ∧ extraction = {
          result := .ok names
          written := infos.map fun info => (destination.join (posixPath info.filename), info) } := by
  intro extraction
  by_cases hmany : infos.length > maxMembers
  · left
    refine ⟨.unsafeAsset "archive contains too many members", ?_⟩
    exact if_pos hmany
  have hextraction : extraction = _ := if_neg hmany
  -- all names are checked before the first member is written
  cases hcheck : checkMembers maxTotalBytes resolve destination 0 infos with
  | error error =>
      rw [hcheck] at hextraction
      exact Or.inl ⟨error, hextraction⟩
  | ok names =>
      rw [hcheck] at hextraction
      cases crash with
      | none => exact Or.inr (Or.inr ⟨names, Nat.not_lt.mp hmany, rfl, hextraction⟩)
      | some n => exact Or.inr (Or.inl ⟨n, by rw [hextraction], rfl⟩)

/-- An archive that is refused as unsafe leaves nothing behind. One whose extraction returns has
kept to the limits, its members have been written inside the destination, and the names are those of
the members in order, with slashes for backslashes. -/
theorem safeExtractZip_confined (maxMembers maxTotalBytes : ℕ)
    (resolve : LexicalPath → Option LexicalPath) (crash : Option ℕ) (infos : List ZipMember)
    (destination : LexicalPath) :
    let extraction := safeExtractZip maxMembers maxTotalBytes resolve crash infos destination
    (∀ message, extraction.result = .error (.unsafeAsset message) → extraction.written = []) ∧
      ∀ names, extraction.result = .ok names →
        names = infos.map (fun info => slashed info.filename) ∧
        infos.length ≤ maxMembers ∧ (infos.map ZipMember.fileSize).sum ≤ maxTotalBytes ∧
        extraction.written =
          infos.map (fun info => (destination.join (posixPath info.filename), info)) ∧
        ∀ info ∈ infos, info.Confined ∧
          (destination.join (posixPath info.filename)).normalize.Inside destination.normalize ∧
          (destination.join (posixPath (slashed info.filename))).normalize.Inside
            destination.normalize := by
  intro extraction
  rcases safeExtractZip_cases maxMembers maxTotalBytes resolve crash infos destination with
    ⟨error, heq⟩ | ⟨n, hraised, -⟩ | ⟨names, hlength, hcheck, heq⟩
  · -- refused before anything is written, stopped while writing, and finished
    exact ⟨fun _ _ => congrArg Extraction.written heq, fun names hok =>
      absurd ((congrArg Extraction.result heq).symm.trans hok) (by simp)⟩
  · constructor
    · intro message herror
      exact absurd (hraised.symm.trans herror) (by simp)
    · intro names hok
      exact absurd (hraised.symm.trans hok) (by simp)
  · have hresult : extraction.result = .ok names := congrArg Extraction.result heq
    refine ⟨fun message herror => absurd (hresult.symm.trans herror) (by simp), ?_⟩
    intro names' hok
    obtain rfl := Except.ok.inj (hresult.symm.trans hok)
    obtain ⟨hnames, hconfined, hsum⟩ := checkMembers_ok hcheck
    refine ⟨hnames, hlength, ?_, congrArg Extraction.written heq, fun info hinfo =>
      ⟨hconfined info hinfo, (hconfined info hinfo).inside destination⟩⟩
    rcases hsum with rfl | hsum
    · exact Nat.zero_le _
    · simpa using hsum

/-- The name of a member with a backslash in it is not returned as it is. -/
theorem not_names_filename :
    ¬∀ (maxMembers maxTotalBytes : ℕ) (resolve : LexicalPath → Option LexicalPath)
      (crash : Option ℕ) (infos : List ZipMember) (destination : LexicalPath) (names : List String),
      (safeExtractZip maxMembers maxTotalBytes resolve crash infos destination).result = .ok names →
        names = infos.map ZipMember.filename := by
  intro hclaim
  have hnames := hclaim 10000 5000000000 (fun path => some path.normalize) none
    [⟨"maps\\city.usd", 12⟩] ⟨"/", ["assets"]⟩ ["maps/city.usd"] (by rfl)
  exact absurd hnames (by decide)

end Netlab
