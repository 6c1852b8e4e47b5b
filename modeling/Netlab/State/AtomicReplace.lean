import Mathlib.Data.List.Nodup
import Netlab.Prelude.Run

/-!
# Atomic replacement of a shared file

`atomic_write_bytes` of `netlab/io.py` at the level of system calls, for any number of writers and
readers of the files of one directory, in any order. A writer creates a temporary file, writes its
payload into it in pieces, syncs it and renames it over the target; it can fail or stop for good after
any of these. A reader opens a file and reads it in pieces, whatever happens to the name meanwhile.

`replies_eq` says that the readers cannot tell this from a register for each file, into which every
writer puts its whole payload at once when it renames, and whose content a reader copies when it opens
the file. A temporary name is assumed not to be given out twice.
-/

namespace AtomicReplace

/-- The name of a file in the directory. -/
abbrev Name := List Char

/-- The content of a file. -/
abbrev Bytes := List UInt8

/-- The name that `mkstemp` gives a temporary file. -/
def temporaryName (target random : Name) : Name :=
  '.' :: (target ++ '.' :: (random ++ ['.', 't', 'm', 'p']))

/-- The file is no hidden file, as the files that are shared are none. -/
def Shared (name : Name) : Prop := name.head? ≠ some '.'

/-- How far a call of `atomic_write_bytes` is. -/
inductive Stage
  | writing
  | synced
  | replaced
  | failed
  deriving DecidableEq

/-- A call of `atomic_write_bytes` that has created its temporary file. -/
structure Writer where
  target : Name
  payload : Bytes
  temporary : Name
  inode : ℕ
  written : ℕ
  stage : Stage

/-- A file that is open for reading. -/
structure Reader where
  inode : ℕ
  offset : ℕ

/-- A directory with the files in it, and the calls under way. -/
structure Directory where
  names : Name → Option ℕ
  data : ℕ → Bytes
  fresh : ℕ
  writers : ℕ → Option Writer
  readers : ℕ → Option Reader

/-- What one writer or reader does next. -/
inductive Event
  /-- `mkstemp`, with the random part of the name. -/
  | create (writer : ℕ) (target : Name) (payload : Bytes) (random : Name)
  /-- `stream.write` and `stream.flush` put some more bytes into the file. -/
  | write (writer size : ℕ)
  /-- `os.fsync`, after all bytes. -/
  | sync (writer : ℕ)
  /-- `os.replace`. -/
  | replace (writer : ℕ)
  /-- An exception, whose handler unlinks the temporary name. -/
  | fail (writer : ℕ)
  /-- `open` for reading. -/
  | openFile (reader : ℕ) (name : Name)
  /-- `read` of some bytes. -/
  | readBytes (reader size : ℕ)

/-- What a reader is told. -/
inductive Reply
  | opened (found : Bool)
  | chunk (bytes : Bytes)
  deriving DecidableEq

namespace Directory

/-- The directory after a writer has done something. -/
def setWriter (s : Directory) (w : ℕ) (writer : Writer) : Directory :=
  { s with writers := Function.update s.writers w (some writer) }

/-- The directory with a temporary file. -/
def created (s : Directory) (w : ℕ) (target : Name) (payload : Bytes) (temporary : Name) :
    Directory :=
  { s with
    names := Function.update s.names temporary (some s.fresh)
    data := Function.update s.data s.fresh []
    fresh := s.fresh + 1
    writers := Function.update s.writers w (some ⟨target, payload, temporary, s.fresh, 0, .writing⟩) }

/-- The directory after `mkstemp`. A name that exists is not given out. -/
def create (s : Directory) (w : ℕ) (target : Name) (payload : Bytes) (temporary : Name) :
    Directory :=
  if (s.writers w).isSome ∨ (s.names temporary).isSome then s
  else s.created w target payload temporary

/-- The directory after a writer has written more bytes. -/
def write (s : Directory) (w : ℕ) (writer : Writer) (size : ℕ) : Directory :=
  { s with
    data := Function.update s.data writer.inode
      (s.data writer.inode ++ (writer.payload.drop writer.written).take size)
    writers := Function.update s.writers w
      (some { writer with written := writer.written + size }) }

/-- The directory after a file has been renamed. -/
def replace (s : Directory) (w : ℕ) (writer : Writer) (inode : ℕ) : Directory :=
  { s with
    names := Function.update (Function.update s.names writer.temporary none) writer.target
      (some inode)
    writers := Function.update s.writers w (some { writer with stage := .replaced }) }

/-- The directory after a temporary name has been unlinked. -/
def fail (s : Directory) (w : ℕ) (writer : Writer) : Directory :=
  { s with
    names := Function.update s.names writer.temporary none
    writers := Function.update s.writers w (some { writer with stage := .failed }) }

/-- One event. An event that is not due leaves everything as it is. -/
def step (s : Directory) : Event → Directory
  | .create w target payload random => s.create w target payload (temporaryName target random)
  | .write w size =>
      match s.writers w with
      | some writer => if writer.stage = .writing then s.write w writer size else s
      | none => s
  | .sync w =>
      match s.writers w with
      | some writer =>
          if writer.stage = .writing ∧ writer.payload.length ≤ writer.written then
            s.setWriter w { writer with stage := .synced }
          else s
      | none => s
  | .replace w =>
      match s.writers w with
      | some writer =>
          match s.names writer.temporary with
          | some inode => if writer.stage = .synced then s.replace w writer inode else s
          | none => s
      | none => s
  | .fail w =>
      match s.writers w with
      | some writer => if writer.stage = .failed then s else s.fail w writer
      | none => s
  | .openFile r name =>
      match s.readers r, s.names name with
      | none, some inode => { s with readers := Function.update s.readers r (some ⟨inode, 0⟩) }
      | _, _ => s
  | .readBytes r size =>
      match s.readers r with
      | some reader =>
          { s with
            readers := Function.update s.readers r
              (some { reader with offset := reader.offset + size }) }
      | none => s

/-- What a reader is told at an event. -/
def reply (s : Directory) : Event → Option Reply
  | .openFile r name =>
      if (s.readers r).isSome then none else some (.opened (s.names name).isSome)
  | .readBytes r size =>
      (s.readers r).map fun reader =>
        .chunk (((s.data reader.inode).drop reader.offset).take size)
  | _ => none

end Directory

/-! ## Registers -/

/-- A register for each file, and for each reader the content it copied and how much of it it has
read. -/
structure Registers where
  content : Name → Option Bytes
  copies : ℕ → Option (Bytes × ℕ)

/-- What can be done to the registers. -/
inductive Access
  | publish (target : Name) (payload : Bytes)
  | openFile (reader : ℕ) (name : Name)
  | readBytes (reader size : ℕ)

namespace Registers

/-- One access. -/
def step (a : Registers) : Access → Registers
  | .publish target payload =>
      { a with content := Function.update a.content target (some payload) }
  | .openFile r name =>
      match a.copies r, a.content name with
      | none, some bytes => { a with copies := Function.update a.copies r (some (bytes, 0)) }
      | _, _ => a
  | .readBytes r size =>
      match a.copies r with
      | some (bytes, offset) =>
          { a with copies := Function.update a.copies r (some (bytes, offset + size)) }
      | none => a

/-- What a reader is told at an access. -/
def reply (a : Registers) : Access → Option Reply
  | .publish _ _ => none
  | .openFile r name =>
      if (a.copies r).isSome then none else some (.opened (a.content name).isSome)
  | .readBytes r size => (a.copies r).map fun copy => .chunk ((copy.1.drop copy.2).take size)

end Registers

namespace Directory

/-- What an event does to the registers: a rename publishes the payload. -/
def access (s : Directory) : Event → Option Access
  | .replace w =>
      match s.writers w with
      | some writer =>
          if writer.stage = .synced ∧ (s.names writer.temporary).isSome then
            some (.publish writer.target writer.payload)
          else none
      | none => none
  | .openFile r name => some (.openFile r name)
  | .readBytes r size => some (.readBytes r size)
  | _ => none

/-- The registers that a directory stands for. -/
def registers (s : Directory) : Registers where
  content name := (s.names name).map s.data
  copies r := (s.readers r).map fun reader => (s.data reader.inode, reader.offset)

/-- The registers agree with the directory on the files that are shared. -/
structure Shows (s : Directory) (a : Registers) : Prop where
  content : ∀ name, Shared name → a.content name = (s.names name).map s.data
  copies : ∀ r, a.copies r =
    (s.readers r).map fun reader => (s.data reader.inode, reader.offset)

/-- A writer that has not renamed its file yet has it for itself. -/
structure Owns (s : Directory) (writer : Writer) : Prop where
  named : s.names writer.temporary = some writer.inode
  only : ∀ name, s.names name = some writer.inode → name = writer.temporary
  unread : ∀ r reader, s.readers r = some reader → reader.inode ≠ writer.inode
  lt : writer.inode < s.fresh
  data : s.data writer.inode = writer.payload.take writer.written

/-- What is known of a writer at its stage. -/
def Settled (s : Directory) (writer : Writer) : Prop :=
  match writer.stage with
  | .writing => s.Owns writer
  | .synced => s.Owns writer ∧ writer.payload.length ≤ writer.written
  | .replaced => s.names writer.temporary = none
  | .failed => s.names writer.temporary = none

/-- The invariant of a directory, where `later` are the temporary names that are yet to be given
out. -/
structure Inv (s : Directory) (later : List Name) : Prop where
  names_lt : ∀ name inode, s.names name = some inode → inode < s.fresh
  readers_lt : ∀ r reader, s.readers r = some reader → reader.inode < s.fresh
  settled : ∀ w writer, s.writers w = some writer → s.Settled writer
  target : ∀ w writer, s.writers w = some writer → Shared writer.target
  hidden : ∀ w writer, s.writers w = some writer → ¬ Shared writer.temporary
  distinct : ∀ w w' writer writer', s.writers w = some writer → s.writers w' = some writer' →
    writer.temporary = writer'.temporary → w = w'
  later : ∀ w writer, s.writers w = some writer → writer.temporary ∉ later

variable {s : Directory} {a : Registers} {later : List Name} {w : ℕ} {writer : Writer}

theorem Inv.mono {later' : List Name} (h : s.Inv later) (hsub : later' ⊆ later) : s.Inv later' :=
  { h with later := fun w writer hw hmem => h.later w writer hw (hsub hmem) }

/-- What an update finds is new or was there before. -/
theorem update_cases {α : Type} {f : ℕ → Option α} {w w' : ℕ} {x y : α}
    (h : Function.update f w (some x) w' = some y) :
    (w' = w ∧ y = x) ∨ (w' ≠ w ∧ f w' = some y) := by
  by_cases heq : w' = w
  · subst heq
    rw [Function.update_self] at h
    exact Or.inl ⟨rfl, (Option.some.inj h).symm⟩
  · rw [Function.update_of_ne heq] at h
    exact Or.inr ⟨heq, h⟩

/-- A writer that owns its file goes on doing so if nothing happens to the file. -/
theorem Owns.frame {s' : Directory} (h : s.Owns writer)
    (hnamed : s'.names writer.temporary = s.names writer.temporary)
    (honly : ∀ name, s'.names name = some writer.inode → s.names name = some writer.inode)
    (hunread : ∀ r reader, s'.readers r = some reader → reader.inode ≠ writer.inode)
    (hfresh : s.fresh ≤ s'.fresh) (hdata : s'.data writer.inode = s.data writer.inode) :
    s'.Owns writer where
  named := hnamed.trans h.named
  only name hname := h.only name (honly name hname)
  unread := hunread
  lt := lt_of_lt_of_le h.lt hfresh
  data := hdata.trans h.data

/-- What is known of a writer goes on to hold if nothing happens to its file and its name. -/
theorem Settled.frame {s' : Directory} (h : s.Settled writer)
    (hnamed : s'.names writer.temporary = s.names writer.temporary)
    (howns : s.Owns writer → s'.Owns writer) : s'.Settled writer := by
  unfold Settled at h ⊢
  cases hstage : writer.stage with
  | writing => exact howns (by simpa [hstage] using h)
  | synced =>
      have h : s.Owns writer ∧ writer.payload.length ≤ writer.written := by simpa [hstage] using h
      exact ⟨howns h.1, h.2⟩
  | replaced =>
      have h : s.names writer.temporary = none := by simpa [hstage] using h
      exact hnamed.trans h
  | failed =>
      have h : s.names writer.temporary = none := by simpa [hstage] using h
      exact hnamed.trans h

/-- Writers that own their files own different ones. -/
theorem Inv.inode_ne (h : s.Inv later) {w' : ℕ} {writer' : Writer}
    (hw : s.writers w = some writer) (hw' : s.writers w' = some writer') (hne : w' ≠ w)
    (howns : s.Owns writer) (howns' : s.Owns writer') : writer'.inode ≠ writer.inode := by
  intro heq
  have hname := howns.only _ (heq ▸ howns'.named)
  exact hne (h.distinct w' w writer' writer hw' hw hname)

/-- A file that a writer owns is none of the shared ones. -/
theorem Inv.ne_owned (h : s.Inv later) (hw : s.writers w = some writer) (howns : s.Owns writer)
    {name : Name} (hname : Shared name) : s.names name ≠ some writer.inode :=
  fun heq => h.hidden w writer hw (howns.only name heq ▸ hname)

/-- The invariant after one writer has gone on, from what it did to the files. -/
theorem Inv.update (h : s.Inv later) (hw : s.writers w = some writer) {s' : Directory}
    {writer' : Writer} (hwriters : s'.writers = Function.update s.writers w (some writer'))
    (htemporary : writer'.temporary = writer.temporary) (htarget : writer'.target = writer.target)
    (hnames : ∀ name inode, s'.names name = some inode → inode < s'.fresh)
    (hreaders : ∀ r reader, s'.readers r = some reader → reader.inode < s'.fresh)
    (hself : s'.Settled writer')
    (hothers : ∀ w' other, w' ≠ w → s.writers w' = some other → s'.Settled other) :
    s'.Inv later := by
  have hcases : ∀ w' other, s'.writers w' = some other →
      (w' = w ∧ other = writer') ∨ (w' ≠ w ∧ s.writers w' = some other) := by
    intro w' other hw'
    rw [hwriters] at hw'
    exact update_cases hw'
  -- a writer keeps its names whatever it does
  have hbefore : ∀ w' other, s'.writers w' = some other → ∃ other', s.writers w' = some other' ∧
      other.temporary = other'.temporary ∧ other.target = other'.target := by
    intro w' other hw'
    rcases hcases w' other hw' with ⟨rfl, rfl⟩ | ⟨-, hw'⟩
    · exact ⟨writer, hw, htemporary, htarget⟩
    · exact ⟨other, hw', rfl, rfl⟩
  refine ⟨hnames, hreaders, fun w' other hw' => ?_, fun w' other hw' => ?_, fun w' other hw' => ?_,
    fun w₁ w₂ other₁ other₂ hw₁ hw₂ heq => ?_, fun w' other hw' => ?_⟩
  · rcases hcases w' other hw' with ⟨rfl, rfl⟩ | ⟨hne, hw'⟩
    · exact hself
    · exact hothers w' other hne hw'
  · obtain ⟨other', hw', -, ht⟩ := hbefore w' other hw'
    exact ht ▸ h.target w' other' hw'
  · obtain ⟨other', hw', ht, -⟩ := hbefore w' other hw'
    exact ht ▸ h.hidden w' other' hw'
  · obtain ⟨other₁', hw₁, ht₁, -⟩ := hbefore w₁ other₁ hw₁
    obtain ⟨other₂', hw₂, ht₂, -⟩ := hbefore w₂ other₂ hw₂
    exact h.distinct w₁ w₂ other₁' other₂' hw₁ hw₂ (by rw [← ht₁, heq, ht₂])
  · obtain ⟨other', hw', ht, -⟩ := hbefore w' other hw'
    exact ht ▸ h.later w' other' hw'

/-! ## What each event keeps -/

/-- A temporary file is created. -/
theorem create_spec (target : Name) (payload : Bytes) (random : Name) (htarget : Shared target)
    (h : s.Inv (temporaryName target random :: later))
    (hlater : temporaryName target random ∉ later) (hshows : s.Shows a) :
    (s.create w target payload (temporaryName target random)).Inv later ∧
      (s.create w target payload (temporaryName target random)).Shows a := by
  set temporary := temporaryName target random with htemporary
  have hmono := h.mono (List.subset_cons_self temporary later)
  have hhidden : ¬ Shared temporary := fun hshared => hshared rfl
  rw [create]
  split
  next => exact ⟨hmono, hshows⟩
  next hfree =>
    obtain ⟨hwriter, hname⟩ : s.writers w = none ∧ s.names temporary = none := by
      simpa using hfree
    set s' := s.created w target payload temporary with hs'
    have hcases : ∀ w' other, s'.writers w' = some other →
        (w' = w ∧ other = ⟨target, payload, temporary, s.fresh, 0, .writing⟩) ∨
          (w' ≠ w ∧ s.writers w' = some other) := fun w' other hw' => update_cases hw'
    have hnew : s'.names temporary = some s.fresh := Function.update_self ..
    have hnames {name : Name} (hne : name ≠ temporary) : s'.names name = s.names name :=
      Function.update_of_ne hne _ _
    have hdata {inode : ℕ} (hlt : inode < s.fresh) : s'.data inode = s.data inode :=
      Function.update_of_ne hlt.ne _ _
    have hother : ∀ w' other, s.writers w' = some other → other.temporary ≠ temporary := by
      rintro w' other hw' heq
      exact h.later w' other hw' (heq ▸ List.mem_cons_self)
    have hinodes {name : Name} {inode : ℕ} (hinode : s'.names name = some inode) :
        (name = temporary ∧ inode = s.fresh) ∨ (s.names name = some inode ∧ inode < s.fresh) := by
      by_cases heq : name = temporary
      · subst heq
        exact Or.inl ⟨rfl, (Option.some.inj (hnew.symm.trans hinode)).symm⟩
      · rw [hnames heq] at hinode
        exact Or.inr ⟨hinode, h.names_lt name inode hinode⟩
    constructor
    · refine ⟨fun name inode hinode => ?_, fun r reader hr => ?_, fun w' other hw' => ?_,
        fun w' other hw' => ?_, fun w' other hw' => ?_,
        fun w₁ w₂ other₁ other₂ hw₁ hw₂ heq => ?_, fun w' other hw' => ?_⟩
      · rcases hinodes hinode with ⟨-, rfl⟩ | ⟨-, hlt⟩
        · exact Nat.lt_succ_self _
        · exact Nat.lt_succ_of_lt hlt
      · exact Nat.lt_succ_of_lt (h.readers_lt r reader hr)
      · rcases hcases w' other hw' with ⟨-, rfl⟩ | ⟨-, hw'⟩
        · -- the new file has a number that nothing else has
          refine ⟨hnew, fun name hinode => ?_, fun r reader hr heq => ?_, Nat.lt_succ_self _,
            Function.update_self ..⟩
          · rcases hinodes hinode with ⟨rfl, -⟩ | ⟨-, hlt⟩
            · rfl
            · exact absurd hlt (lt_irrefl _)
          · exact absurd (heq ▸ h.readers_lt r reader hr) (lt_irrefl _)
        · have hnamed := hnames (hother w' other hw')
          refine (h.settled w' other hw').frame hnamed fun howns => ?_
          refine howns.frame hnamed (fun name hinode => ?_) howns.unread (Nat.le_succ _)
            (hdata howns.lt)
          rcases hinodes hinode with ⟨-, heq⟩ | ⟨hinode, -⟩
          · exact absurd heq howns.lt.ne
          · exact hinode
      · rcases hcases w' other hw' with ⟨-, rfl⟩ | ⟨-, hw'⟩
        · exact htarget
        · exact h.target w' other hw'
      · rcases hcases w' other hw' with ⟨-, rfl⟩ | ⟨-, hw'⟩
        · exact hhidden
        · exact h.hidden w' other hw'
      · rcases hcases w₁ other₁ hw₁ with ⟨rfl, rfl⟩ | ⟨-, hw₁⟩
        · rcases hcases w₂ other₂ hw₂ with ⟨rfl, -⟩ | ⟨-, hw₂⟩
          · rfl
          · exact absurd heq.symm (hother w₂ other₂ hw₂)
        · rcases hcases w₂ other₂ hw₂ with ⟨-, rfl⟩ | ⟨-, hw₂⟩
          · exact absurd heq (hother w₁ other₁ hw₁)
          · exact h.distinct w₁ w₂ other₁ other₂ hw₁ hw₂ heq
      · rcases hcases w' other hw' with ⟨-, rfl⟩ | ⟨-, hw'⟩
        · exact hlater
        · exact hmono.later w' other hw'
    · refine ⟨fun name hname' => ?_, fun r => ?_⟩
      · have hne : name ≠ temporary := fun heq => hhidden (heq ▸ hname')
        rw [hshows.content name hname', hnames hne]
        exact Option.map_congr fun inode hinode => (hdata (h.names_lt name inode hinode)).symm
      · rw [hshows.copies r]
        refine Option.map_congr fun reader hr => ?_
        rw [hdata (h.readers_lt r reader hr)]

/-- A writer that is writing or done with it owns its file. -/
theorem Inv.owns (h : s.Inv later) (hw : s.writers w = some writer)
    (hstage : writer.stage = .writing ∨ writer.stage = .synced) : s.Owns writer := by
  have hsettled := h.settled w writer hw
  unfold Settled at hsettled
  rcases hstage with hstage | hstage
  · simpa [hstage] using hsettled
  · have hsettled : s.Owns writer ∧ writer.payload.length ≤ writer.written := by
      simpa [hstage] using hsettled
    exact hsettled.1

/-- Some bytes are written. -/
theorem write_spec (h : s.Inv later) (hw : s.writers w = some writer)
    (hstage : writer.stage = .writing) (hshows : s.Shows a) (size : ℕ) :
    (s.write w writer size).Inv later ∧ (s.write w writer size).Shows a := by
  have howns := h.owns hw (Or.inl hstage)
  have hdata {inode : ℕ} (hne : inode ≠ writer.inode) :
      (s.write w writer size).data inode = s.data inode := Function.update_of_ne hne _ _
  constructor
  · refine h.update hw rfl rfl rfl h.names_lt h.readers_lt ?_ fun w' other hne hw' => ?_
    · have hself : (s.write w writer size).Owns { writer with written := writer.written + size } :=
        { named := howns.named
          only := howns.only
          unread := howns.unread
          lt := howns.lt
          data := by
            show Function.update _ _ _ writer.inode = _
            rw [Function.update_self, howns.data, List.take_add] }
      unfold Settled
      simpa [hstage] using hself
    · refine (h.settled w' other hw').frame rfl fun howns' => ?_
      exact howns'.frame rfl (fun _ => id) howns'.unread (le_refl _)
        (hdata (h.inode_ne hw hw' hne howns howns'))
  · refine ⟨fun name hname => ?_, fun r => ?_⟩
    · -- no shared name leads to the file that is written
      rw [hshows.content name hname]
      refine Option.map_congr fun inode hinode => (hdata ?_).symm
      rintro rfl
      exact h.ne_owned hw howns hname hinode
    · rw [hshows.copies r]
      refine Option.map_congr fun reader hr => ?_
      rw [hdata (howns.unread r reader hr)]

/-- A file is synced. -/
theorem sync_spec (h : s.Inv later) (hw : s.writers w = some writer)
    (hstage : writer.stage = .writing) (hlength : writer.payload.length ≤ writer.written)
    (hshows : s.Shows a) :
    (s.setWriter w { writer with stage := .synced }).Inv later ∧
      (s.setWriter w { writer with stage := .synced }).Shows a := by
  have howns := h.owns hw (Or.inl hstage)
  refine ⟨h.update hw rfl rfl rfl h.names_lt h.readers_lt ?_ fun w' other _ hw' => ?_,
    hshows.content, hshows.copies⟩
  · exact ⟨⟨howns.named, howns.only, howns.unread, howns.lt, howns.data⟩, hlength⟩
  · exact (h.settled w' other hw').frame rfl fun howns' =>
      howns'.frame rfl (fun _ => id) howns'.unread (le_refl _) rfl

/-- The names of other writers than the one that gives its name up. -/
theorem Inv.temporary_ne (h : s.Inv later) (hw : s.writers w = some writer) {w' : ℕ}
    {other : Writer} (hne : w' ≠ w) (hw' : s.writers w' = some other) :
    other.temporary ≠ writer.temporary :=
  fun heq => hne (h.distinct w' w other writer hw' hw heq)

/-- A file is renamed over the target: the payload is published. -/
theorem replace_spec (h : s.Inv later) (hw : s.writers w = some writer)
    (hstage : writer.stage = .synced) {inode : ℕ} (hname : s.names writer.temporary = some inode)
    (hshows : s.Shows a) :
    (s.replace w writer inode).Inv later ∧
      (s.replace w writer inode).Shows (a.step (.publish writer.target writer.payload)) := by
  have hsettled : s.Owns writer ∧ writer.payload.length ≤ writer.written := by
    have hsettled := h.settled w writer hw
    unfold Settled at hsettled
    simpa [hstage] using hsettled
  -- the writer synced all of its payload, so its file holds the whole of it
  obtain ⟨howns, hlength⟩ := hsettled
  obtain rfl : inode = writer.inode := Option.some.inj (hname.symm.trans howns.named)
  have hshared := h.target w writer hw
  have hhidden := h.hidden w writer hw
  -- a temporary name starts with a dot and a target does not, so the rename changes both
  have hne : writer.temporary ≠ writer.target := fun heq => hhidden (heq ▸ hshared)
  have hnames {name : Name} (htarget : name ≠ writer.target) (htemporary : name ≠ writer.temporary) :
      (s.replace w writer writer.inode).names name = s.names name := by
    show Function.update (Function.update _ _ _) _ _ name = _
    rw [Function.update_of_ne htarget, Function.update_of_ne htemporary]
  have hgone : (s.replace w writer writer.inode).names writer.temporary = none := by
    show Function.update (Function.update _ _ _) _ _ writer.temporary = _
    rw [Function.update_of_ne hne, Function.update_self]
  have hput : (s.replace w writer writer.inode).names writer.target = some writer.inode :=
    Function.update_self ..
  constructor
  · refine h.update hw rfl rfl rfl (fun name inode hinode => ?_) h.readers_lt hgone
      fun w' other hne' hw' => ?_
    · by_cases htarget : name = writer.target
      · subst htarget
        obtain rfl := Option.some.inj (hput.symm.trans hinode)
        exact howns.lt
      · by_cases htemporary : name = writer.temporary
        · subst htemporary
          rw [hgone] at hinode
          cases hinode
        · rw [hnames htarget htemporary] at hinode
          exact h.names_lt name inode hinode
    · have hother : other.temporary ≠ writer.target :=
        fun heq => h.hidden w' other hw' (heq ▸ hshared)
      have hnamed := hnames hother (h.temporary_ne hw hne' hw')
      refine (h.settled w' other hw').frame hnamed fun howns' => ?_
      refine howns'.frame hnamed (fun name hinode => ?_) howns'.unread (le_refl _) rfl
      by_cases htarget : name = writer.target
      · subst htarget
        -- the target now names the file of `w`, which the other writer does not own
        have heq := Option.some.inj (hput.symm.trans hinode)
        exact absurd heq.symm (h.inode_ne hw hw' hne' howns howns')
      · by_cases htemporary : name = writer.temporary
        · subst htemporary
          rw [hgone] at hinode
          cases hinode
        · rwa [hnames htarget htemporary] at hinode
  · refine ⟨fun name hname' => ?_, hshows.copies⟩
    by_cases htarget : name = writer.target
    · subst htarget
      rw [hput]
      show Function.update a.content writer.target (some writer.payload) writer.target =
        some (s.data writer.inode)
      rw [Function.update_self, howns.data, List.take_of_length_le hlength]
    · have htemporary : name ≠ writer.temporary := fun heq => hhidden (heq ▸ hname')
      rw [hnames htarget htemporary]
      show Function.update a.content writer.target _ name = _
      rw [Function.update_of_ne htarget]
      exact hshows.content name hname'

/-- A temporary name is unlinked. -/
theorem fail_spec (h : s.Inv later) (hw : s.writers w = some writer) (hshows : s.Shows a) :
    (s.fail w writer).Inv later ∧ (s.fail w writer).Shows a := by
  have hgone : (s.fail w writer).names writer.temporary = none := Function.update_self ..
  have hnames {name : Name} (htemporary : name ≠ writer.temporary) :
      (s.fail w writer).names name = s.names name := Function.update_of_ne htemporary _ _
  have hsub {name : Name} {inode : ℕ} (hinode : (s.fail w writer).names name = some inode) :
      s.names name = some inode := by
    by_cases htemporary : name = writer.temporary
    · subst htemporary
      rw [hgone] at hinode
      cases hinode
    · rwa [hnames htemporary] at hinode
  constructor
  · refine h.update hw rfl rfl rfl (fun name inode hinode => h.names_lt name inode (hsub hinode))
      h.readers_lt hgone fun w' other hne hw' => ?_
    have hnamed := hnames (h.temporary_ne hw hne hw')
    refine (h.settled w' other hw').frame hnamed fun howns => ?_
    exact howns.frame hnamed (fun _ => hsub) howns.unread (le_refl _) rfl
  · refine ⟨fun name hname => ?_, hshows.copies⟩
    have htemporary : name ≠ writer.temporary := fun heq => h.hidden w writer hw (heq ▸ hname)
    rw [hnames htemporary]
    exact hshows.content name hname

/-- A file is opened. -/
theorem openFile_spec (h : s.Inv later) (hshows : s.Shows a) {name : Name} (hname : Shared name)
    (r : ℕ) : (s.step (.openFile r name)).Inv later ∧
      (s.step (.openFile r name)).Shows (a.step (.openFile r name)) := by
  have hcontent := hshows.content name hname
  have hcopies := hshows.copies r
  unfold step Registers.step
  cases hr : s.readers r with
  | some reader =>
      rw [hr] at hcopies
      simp only [hr, hcopies, Option.map_some]
      exact ⟨h, hshows⟩
  | none =>
      rw [hr] at hcopies
      cases hinode : s.names name with
      | none =>
          rw [hinode] at hcontent
          simp only [hr, hinode, hcopies, hcontent, Option.map_none]
          exact ⟨h, hshows⟩
      | some inode =>
          rw [hinode] at hcontent
          simp only [hr, hinode, hcopies, hcontent, Option.map_some, Option.map_none]
          refine ⟨⟨h.names_lt, fun r' reader hr' => ?_, fun w writer hw => ?_, h.target, h.hidden,
            h.distinct, h.later⟩, hshows.content, fun r' => ?_⟩
          · rcases update_cases hr' with ⟨-, rfl⟩ | ⟨-, hr'⟩
            · exact h.names_lt name _ hinode
            · exact h.readers_lt r' reader hr'
          · refine (h.settled w writer hw).frame rfl fun howns => ?_
            refine howns.frame rfl (fun _ => id) (fun r' reader hr' => ?_) (le_refl _) rfl
            rcases update_cases hr' with ⟨-, rfl⟩ | ⟨-, hr'⟩
            · -- a shared name never leads to a file that a writer still owns
              rintro rfl
              exact h.ne_owned hw howns hname hinode
            · exact howns.unread r' reader hr'
          · show Function.update a.copies r _ r' = (Function.update s.readers r _ r').map _
            by_cases heq : r' = r
            · subst heq
              rw [Function.update_self, Function.update_self]
              rfl
            · rw [Function.update_of_ne heq, Function.update_of_ne heq]
              exact hshows.copies r'

/-- Some bytes are read. -/
theorem readBytes_spec (h : s.Inv later) (hshows : s.Shows a) (r size : ℕ) :
    (s.step (.readBytes r size)).Inv later ∧
      (s.step (.readBytes r size)).Shows (a.step (.readBytes r size)) := by
  have hcopies := hshows.copies r
  unfold step Registers.step
  cases hr : s.readers r with
  | none =>
      rw [hr] at hcopies
      simp only [hr, hcopies, Option.map_none]
      exact ⟨h, hshows⟩
  | some reader =>
      rw [hr] at hcopies
      simp only [hr, hcopies, Option.map_some]
      refine ⟨⟨h.names_lt, fun r' reader' hr' => ?_, fun w writer hw => ?_, h.target, h.hidden,
        h.distinct, h.later⟩, hshows.content, fun r' => ?_⟩
      · rcases update_cases hr' with ⟨-, rfl⟩ | ⟨-, hr'⟩
        · exact h.readers_lt r reader hr
        · exact h.readers_lt r' reader' hr'
      · refine (h.settled w writer hw).frame rfl fun howns => ?_
        refine howns.frame rfl (fun _ => id) (fun r' reader' hr' => ?_) (le_refl _) rfl
        rcases update_cases hr' with ⟨-, rfl⟩ | ⟨-, hr'⟩
        · exact howns.unread r reader hr
        · exact howns.unread r' reader' hr'
      · show Function.update a.copies r _ r' = (Function.update s.readers r _ r').map _
        by_cases heq : r' = r
        · subst heq
          rw [Function.update_self, Function.update_self]
          rfl
        · rw [Function.update_of_ne heq, Function.update_of_ne heq]
          exact hshows.copies r'

end Directory

/-! ## Runs -/

namespace Event

/-- The temporary name that an event gives out. -/
def temporary? : Event → Option Name
  | create _ target _ random => some (temporaryName target random)
  | _ => none

/-- The event is about a shared file. -/
def Proper : Event → Prop
  | create _ target _ _ => Shared target
  | openFile _ name => Shared name
  | _ => True

end Event

namespace Directory

variable {s : Directory} {a : Registers} {later : List Name}

/-- The registers after what an event does to them. -/
def follow (a : Registers) (access : Option Access) : Registers := (access.map a.step).getD a

/-- One event keeps the invariant and does to the registers what it is said to do. -/
theorem step_spec {event : Event} (hproper : event.Proper)
    (h : s.Inv (event.temporary?.toList ++ later))
    (hlater : ∀ name ∈ event.temporary?, name ∉ later) (hshows : s.Shows a) :
    (s.step event).Inv later ∧ (s.step event).Shows (follow a (s.access event)) := by
  cases event with
  | create w target payload random =>
      exact create_spec target payload random hproper h (hlater _ rfl) hshows
  | write w size =>
      cases hw : s.writers w with
      | none =>
          simp only [step, hw]
          exact ⟨h, hshows⟩
      | some writer =>
          simp only [step, hw]
          split
          · exact write_spec h hw ‹_› hshows size
          · exact ⟨h, hshows⟩
  | sync w =>
      cases hw : s.writers w with
      | none =>
          simp only [step, hw]
          exact ⟨h, hshows⟩
      | some writer =>
          simp only [step, hw]
          split
          next hdue => exact sync_spec h hw hdue.1 hdue.2 hshows
          next => exact ⟨h, hshows⟩
  | replace w =>
      cases hw : s.writers w with
      | none =>
          simp only [step, access, hw]
          exact ⟨h, hshows⟩
      | some writer =>
          cases hname : s.names writer.temporary with
          | none =>
              simp only [step, access, hw, hname, Option.isSome_none, Bool.false_eq_true, and_false,
                if_false]
              exact ⟨h, hshows⟩
          | some inode =>
              by_cases hstage : writer.stage = .synced
              · simp only [step, access, hw, hname, hstage, if_true, Option.isSome_some, and_self]
                exact replace_spec h hw hstage hname hshows
              · simp only [step, access, hw, hname, hstage, if_false, false_and]
                exact ⟨h, hshows⟩
  | fail w =>
      cases hw : s.writers w with
      | none =>
          simp only [step, hw]
          exact ⟨h, hshows⟩
      | some writer =>
          simp only [step, hw]
          split
          · exact ⟨h, hshows⟩
          · exact fail_spec h hw hshows
  | openFile r name => exact openFile_spec h hshows hproper r
  | readBytes r size => exact readBytes_spec h hshows r size

/-- A reader is told the same by the registers. -/
theorem reply_eq (hshows : s.Shows a) {event : Event} (hproper : event.Proper) :
    s.reply event = (s.access event).bind a.reply := by
  cases event with
  | create w target payload random => rfl
  | write w size => rfl
  | sync w => rfl
  | fail w => rfl
  | replace w =>
      cases hw : s.writers w with
      | none => simp only [access, hw, reply, Option.bind_none]
      | some writer =>
          simp only [access, hw, reply]
          split <;> rfl
  | openFile r name =>
      show (if (s.readers r).isSome then none else some (Reply.opened (s.names name).isSome)) =
        if (a.copies r).isSome then none else some (Reply.opened (a.content name).isSome)
      rw [hshows.copies, hshows.content name hproper, Option.isSome_map, Option.isSome_map]
  | readBytes r size =>
      show (s.readers r).map _ = (a.copies r).map _
      rw [hshows.copies, Option.map_map]
      rfl

/-- What a run of events tells the readers, and leaves in the files, is what the registers tell and
hold. -/
theorem run_spec {events : List Event} (hproper : ∀ event ∈ events, event.Proper)
    (hnames : (events.filterMap Event.temporary?).Nodup)
    (h : s.Inv (events.filterMap Event.temporary?)) (hshows : s.Shows a) :
    Run.replies step reply s events =
        Run.replies Registers.step Registers.reply a (Run.replies step access s events) ∧
      (Run.run step s events).Shows
        (Run.run Registers.step a (Run.replies step access s events)) := by
  induction events generalizing s a with
  | nil => exact ⟨rfl, hshows⟩
  | cons event events ih =>
      have hevent := hproper event List.mem_cons_self
      have hsplit : (event :: events).filterMap Event.temporary? =
          event.temporary?.toList ++ events.filterMap Event.temporary? := by
        cases htemporary : event.temporary? with
        | none => rw [List.filterMap_cons_none htemporary]; rfl
        | some name => rw [List.filterMap_cons_some htemporary]; rfl
      rw [hsplit] at hnames h
      have hlater : ∀ name ∈ event.temporary?, name ∉ events.filterMap Event.temporary? := by
        intro name hname hmem
        exact (List.nodup_append.mp hnames).2.2 name (by rw [hname]; simp) name hmem rfl
      -- the invariant goes over to the rest of the run, for which fewer names are left
      obtain ⟨hinv, hshows'⟩ := step_spec hevent h hlater hshows
      obtain ⟨hreplies, hlast⟩ := ih (fun e he => hproper e (List.mem_cons_of_mem _ he))
        (List.nodup_append.mp hnames).2.1 hinv hshows'
      have hreply := reply_eq hshows hevent
      rw [Run.replies_cons, Run.replies_cons, Run.run_cons]
      cases haccess : s.access event with
      | none =>
          rw [haccess] at hreply hreplies hlast
          rw [hreply]
          exact ⟨hreplies, hlast⟩
      | some access =>
          rw [haccess] at hreply hreplies hlast
          have hreply : s.reply event = a.reply access := hreply
          rw [hreply]
          refine ⟨?_, hlast⟩
          show (a.reply access).toList ++ _ = Run.replies _ _ a (access :: _)
          rw [Run.replies_cons]
          exact congrArg _ hreplies

/-! ### Where payloads come from -/

/-- Every call under way was made by one of the given events. -/
def Known (s : Directory) (events : List Event) : Prop :=
  ∀ w writer, s.writers w = some writer →
    ∃ random, .create w writer.target writer.payload random ∈ events

/-- A writer that goes on is still the call that was made. -/
theorem Known.update {events : List Event} (h : s.Known events) {w : ℕ} {writer writer' : Writer}
    (hw : s.writers w = some writer) {s' : Directory}
    (hwriters : s'.writers = Function.update s.writers w (some writer'))
    (hsame : writer'.target = writer.target ∧ writer'.payload = writer.payload) :
    s'.Known events := by
  intro w' other hw'
  rw [hwriters] at hw'
  rcases update_cases hw' with ⟨rfl, rfl⟩ | ⟨-, hw'⟩
  · rw [hsame.1, hsame.2]
    exact h w' writer hw
  · exact h w' other hw'

theorem Known.step {events : List Event} (h : s.Known events) {event : Event}
    (hevent : event ∈ events) : (s.step event).Known events := by
  cases event with
  | create w target payload random =>
      show (s.create w target payload _).Known events
      rw [create]
      split
      · exact h
      · -- the new writer was made by the event itself
        intro w' other hw'
        rcases update_cases hw' with ⟨rfl, rfl⟩ | ⟨-, hw'⟩
        · exact ⟨random, hevent⟩
        · exact h w' other hw'
  | write w size =>
      simp only [Directory.step]
      split
      next hw =>
        split
        · exact h.update hw rfl ⟨rfl, rfl⟩
        · exact h
      next => exact h
  | sync w =>
      simp only [Directory.step]
      split
      next hw =>
        split
        · exact h.update hw rfl ⟨rfl, rfl⟩
        · exact h
      next => exact h
  | replace w =>
      simp only [Directory.step]
      split
      next hw =>
        split
        · split
          · exact h.update hw rfl ⟨rfl, rfl⟩
          · exact h
        · exact h
      next => exact h
  | fail w =>
      simp only [Directory.step]
      split
      next hw =>
        split
        · exact h
        · exact h.update hw rfl ⟨rfl, rfl⟩
      next => exact h
  | openFile r name =>
      simp only [Directory.step]
      split <;> exact h
  | readBytes r size =>
      simp only [Directory.step]
      split <;> exact h

/-- Only whole payloads are published, each for the file it was meant for. -/
theorem create_mem_of_publish {events all : List Event} (hsub : events ⊆ all) (h : s.Known all)
    {target : Name} {payload : Bytes}
    (hmem : .publish target payload ∈ Run.replies step access s events) :
    ∃ w random, .create w target payload random ∈ all := by
  induction events generalizing s with
  | nil => cases hmem
  | cons event events ih =>
      rw [Run.replies_cons, List.mem_append] at hmem
      rcases hmem with hmem | hmem
      · have haccess : s.access event = some (.publish target payload) := by simpa using hmem
        cases event with
        | replace w =>
            simp only [access] at haccess
            split at haccess
            next writer hw =>
              split at haccess
              · obtain ⟨rfl, rfl⟩ := Access.publish.inj (Option.some.inj haccess)
                obtain ⟨random, hcreate⟩ := h w writer hw
                exact ⟨w, random, hcreate⟩
              · cases haccess
            next => cases haccess
        | openFile r name => cases haccess
        | readBytes r size => cases haccess
        | _ => cases haccess
      · exact ih (fun e he => hsub (List.mem_cons_of_mem _ he))
          (h.step (hsub List.mem_cons_self)) hmem

/-- No call is under way. -/
structure Idle (s : Directory) : Prop where
  writers : ∀ w, s.writers w = none
  readers : ∀ r, s.readers r = none
  names_lt : ∀ name inode, s.names name = some inode → inode < s.fresh

theorem Idle.inv (h : s.Idle) : s.Inv later where
  names_lt := h.names_lt
  readers_lt r reader hr := absurd (hr.symm.trans (h.readers r)) (by simp)
  settled w writer hw := absurd (hw.symm.trans (h.writers w)) (by simp)
  target w writer hw := absurd (hw.symm.trans (h.writers w)) (by simp)
  hidden w writer hw := absurd (hw.symm.trans (h.writers w)) (by simp)
  distinct w _ writer _ hw := absurd (hw.symm.trans (h.writers w)) (by simp)
  later w writer hw := absurd (hw.symm.trans (h.writers w)) (by simp)

/-- In every order in which calls of `atomic_write_bytes` and readers of shared files can take their
steps, fail or stop, the readers are told what registers tell into which whole payloads are put at
the renames, and the files hold in the end what these registers hold; every payload that is put there
was given to a call for that file. -/
theorem replies_eq (hidle : s.Idle) {events : List Event}
    (hproper : ∀ event ∈ events, event.Proper)
    (hnames : (events.filterMap Event.temporary?).Nodup) :
    Run.replies step reply s events =
        Run.replies Registers.step Registers.reply s.registers (Run.replies step access s events) ∧
      (∀ name, Shared name →
        ((Run.run step s events).names name).map (Run.run step s events).data =
          (Run.run Registers.step s.registers (Run.replies step access s events)).content name) ∧
      ∀ target payload, .publish target payload ∈ Run.replies step access s events →
        ∃ w random, .create w target payload random ∈ events := by
  have hshows : s.Shows s.registers := ⟨fun _ _ => rfl, fun _ => rfl⟩
  obtain ⟨hreplies, hlast⟩ := run_spec hproper hnames hidle.inv hshows
  refine ⟨hreplies, fun name hname => (hlast.content name hname).symm, fun target payload hmem => ?_⟩
  refine create_mem_of_publish (List.Subset.refl events) (fun w writer hw => ?_) hmem
  exact absurd (hw.symm.trans (hidle.writers w)) (by simp)

/-- A directory with one file, for evaluations. -/
def single (name : Name) (bytes : Bytes) : Directory where
  names := Function.update (fun _ => none) name (some 0)
  data := Function.update (fun _ => []) 0 bytes
  fresh := 1
  writers _ := none
  readers _ := none

/-- A file is read in two parts while a call replaces it and another one stops halfway: the reader
gets the old content, and one that opens the file later the new one. -/
theorem replies_eq_single :
    Run.replies step reply (single ['a'] [1, 2])
        [.openFile 0 ['a'], .readBytes 0 1, .create 0 ['a'] [3, 4, 5] ['x'],
          .create 1 ['a'] [6, 7] ['y'], .write 0 2, .write 1 1, .write 0 1, .sync 0, .replace 0,
          .readBytes 0 1, .openFile 1 ['a'], .readBytes 1 9] =
      Run.replies Registers.step Registers.reply (single ['a'] [1, 2]).registers
        [.openFile 0 ['a'], .readBytes 0 1, .publish ['a'] [3, 4, 5], .readBytes 0 1,
          .openFile 1 ['a'], .readBytes 1 9] :=
  (@replies_eq (single ['a'] [1, 2])
    ⟨fun _ => rfl, fun _ => rfl, fun name inode h => by
      simp only [single, Function.update_apply] at h
      split at h
      · obtain rfl := Option.some.inj h
        exact Nat.zero_lt_one
      · cases h⟩
    [.openFile 0 ['a'], .readBytes 0 1, .create 0 ['a'] [3, 4, 5] ['x'],
      .create 1 ['a'] [6, 7] ['y'], .write 0 2, .write 1 1, .write 0 1, .sync 0, .replace 0,
      .readBytes 0 1, .openFile 1 ['a'], .readBytes 1 9]
    (by simp [Event.Proper, Shared]) (by decide)).1

end Directory

end AtomicReplace
