import CoopMessenger.Library.Runs
import CoopMessenger.Library.Table
import CoopMessenger.Server.Visitors

/-!
# The attachment cache

`Write` and `Remove` of `server/file_cache.go`, any number of them at once.  Every
system call is a step of its own, and so is each section under the mutex.  A file that
is open stays where it is when its name is removed.  What the reader, the limiters of
the caller and the file system answer is part of the label.

**Results.**
* `accounted_in_quiescent`: when no call is in flight, the counter is the size of the
  directory, as long as calls do not get in each other's way and clean up after
  themselves.
* `cache_not_accounted`: what happens when they do.
-/

namespace CoopMessenger
namespace Server

open Library

namespace FileCache

section Model

/-- An entry of the directory. -/
structure File where
  name : String
  inode : Nat
  size : Nat
deriving DecidableEq, Repr

inductive FileError where
  | invalidFileID
  | fileExists
  | limitReached
  | system
deriving DecidableEq, Repr

/--
How far a `Write` is: the name was free, the file is open, it is written to (with what
the limiter allows and what it has let through, and the offset), an error has occurred,
or the file is closed.
-/
inductive WritePhase where
  | checked
  | opened (inode : Nat)
  | copying (inode remaining used offset : Nat)
  | failed (e : FileError)
  | closed (size : Nat)
deriving DecidableEq, Repr

structure Writer where
  id : Nat
  name : String
  phase : WritePhase
deriving DecidableEq, Repr

/-- How far a `Remove` is: it goes through its IDs, or through the directory. -/
inductive RemovePhase where
  | removing (ids : List String)
  | sizing (names : List String) (size : Nat)
  | sized (size : Nat)
deriving DecidableEq, Repr

/-- `deleted` is only recorded: the call has deleted a file. -/
structure Removal where
  id : Nat
  phase : RemovePhase
  deleted : Bool
deriving DecidableEq, Repr

/-- What a call has returned. -/
inductive Answer where
  | wrote (size : Nat)
  | removed
  | failed (e : FileError)
deriving DecidableEq, Repr

/-- The directory, the counter, and the calls in flight. -/
structure State where
  dir : Table File.name
  nextInode : Nat
  totalSizeCurrent : Nat
  totalSizeLimit : Nat
  writers : Table Writer.id
  removals : Table Removal.id
  answers : List (Nat × Answer)

/-- `^[-_A-Za-z0-9]{12}$` -/
def validFileID (id : String) : Bool :=
  decide (id.toList.length = 12) &&
    id.toList.all (fun c => c.isAlphanum || c == '-' || c == '_')

/-- The sizes of the files in the directory. -/
def State.dirSize (s : State) : Nat :=
  (s.dir.rows.map File.size).sum

def State.remaining (s : State) : Nat :=
  s.totalSizeLimit - s.totalSizeCurrent

/-- The size of the file of that name. -/
def State.sizeOf
    (s : State)
    (name : String) : Option Nat :=
  (s.dir.find? name).map File.size

/-- The call goes on. -/
def State.setWriter
    (s : State)
    (id : Nat)
    (phase : WritePhase) : State :=
  { s with
    writers :=
      s.writers.modify (fun w => if w.id = id then { w with phase } else w)
        (by intro w; split <;> rfl) }

/-- The call returns. -/
def State.endWriter
    (s : State)
    (id : Nat)
    (answer : Answer) : State :=
  { s with
    writers := s.writers.delete (fun w => decide (w.id = id))
    answers := (id, answer) :: s.answers }

def State.setRemoval
    (s : State)
    (id : Nat)
    (phase : RemovePhase)
    (deleted : Bool) : State :=
  { s with
    removals :=
      s.removals.modify
        (fun r => if r.id = id then { r with phase, deleted } else r)
        (by intro r; split <;> rfl) }

def State.endRemoval
    (s : State)
    (id : Nat)
    (answer : Answer) : State :=
  { s with
    removals := s.removals.delete (fun r => decide (r.id = id))
    answers := (id, answer) :: s.answers }

/-- `os.OpenFile` with `O_CREATE` and `O_TRUNC` -/
def State.openFile
    (s : State)
    (name : String) : State × Nat :=
  match s.dir.find? name with
  | some f =>
      ({ s with
          dir :=
            s.dir.modify (fun f => if f.name = name then { f with size := 0 } else f)
              (by intro f; split <;> rfl) },
        f.inode)
  | none =>
      ({ s with
          dir := s.dir.upsert ⟨name, s.nextInode, 0⟩ id (fun _ => rfl)
          nextInode := s.nextInode + 1 },
        s.nextInode)

/-- Bytes are written at an offset, if it is this file. -/
def File.write
    (inode offset n : Nat)
    (f : File) : File :=
  if f.inode = inode then { f with size := max f.size (offset + n) } else f

theorem File.write_name
    (inode offset n : Nat) (f : File) :
    (f.write inode offset n).name = f.name := by
  unfold File.write
  split <;> rfl

theorem File.write_at_end
    (n : Nat) (f : File) :
    f.write f.inode f.size n = { f with size := f.size + n } := by
  rw [File.write, if_pos rfl, Nat.max_eq_right (Nat.le_add_right _ _)]

/-- Writes at an offset of an open file. -/
def State.writeFile
    (s : State)
    (name : String)
    (inode offset n : Nat) : State :=
  { s with
    dir :=
      s.dir.modify (fun f => if f.name = name then f.write inode offset n else f)
        (by intro f; split <;> simp [File.write_name]) }

/-- `os.Remove` -/
def State.unlink
    (s : State)
    (name : String) : State :=
  { s with dir := s.dir.delete (fun f => decide (f.name = name)) }

/--
`write` begins a `Write`; a chunk of `n` bytes may be refused by the limiters of the
caller, and may be written in part only.  `remove` begins a `Remove`; `unlink` takes the
next ID, and `info` the next entry of the directory.
-/
inductive Label where
  | write (id : Nat) (name : String) (statFails : Bool)
  | openFile (id : Nat) (fails : Bool)
  | remaining (id : Nat)
  | chunk (id n : Nat) (allowed : Bool) (written : Nat)
  | readFails (id : Nat)
  | close (id : Nat) (fails : Bool)
  | discard (id : Nat) (fails : Bool)
  | account (id : Nat)
  | remove (id : Nat) (ids : List String)
  | unlink (id : Nat) (fails : Bool)
  | readDir (id : Nat) (fails : Bool)
  | info (id : Nat) (fails : Bool)
  | setTotal (id : Nat)
deriving Repr

/-- A step of a `Write` that has begun. -/
def stepWriter
    (s : State)
    (w : Writer) : Label → Option State
  | .openFile _ fails =>
      match w.phase with
      | .checked =>
          if fails then
            some (s.endWriter w.id (.failed .system))
          else
            some ((s.openFile w.name).1.setWriter w.id
              (.opened (s.openFile w.name).2))
      | _ => none
  | .remaining _ =>
      match w.phase with
      | .opened inode => some (s.setWriter w.id (.copying inode s.remaining 0 0))
      | _ => none
  | .chunk _ n allowed written =>
      match w.phase with
      | .copying inode remaining used offset =>
          if !allowed || decide (remaining < used + n) then
            some (s.setWriter w.id (.failed .limitReached))
          else if written < n then
            some ((s.writeFile w.name inode offset written).setWriter w.id
              (.failed .system))
          else
            some ((s.writeFile w.name inode offset n).setWriter w.id
              (.copying inode remaining (used + n) (offset + n)))
      | _ => none
  | .readFails _ =>
      match w.phase with
      | .copying _ _ _ _ => some (s.setWriter w.id (.failed .system))
      | _ => none
  | .close _ fails =>
      match w.phase with
      | .copying _ _ _ offset =>
          some (s.setWriter w.id (if fails then .failed .system else .closed offset))
      | _ => none
  | .discard _ fails =>
      match w.phase with
      | .failed e =>
          some ((if fails then s else s.unlink w.name).endWriter w.id (.failed e))
      | _ => none
  | .account _ =>
      match w.phase with
      | .closed size =>
          some
            ({ s with totalSizeCurrent := s.totalSizeCurrent + size }.endWriter w.id
              (.wrote size))
      | _ => none
  | _ => none

/-- A step of a `Remove` that has begun. -/
def stepRemoval
    (s : State)
    (r : Removal) : Label → Option State
  | .unlink _ fails =>
      match r.phase with
      | .removing (name :: rest) =>
          if !validFileID name then
            some (s.endRemoval r.id (.failed .invalidFileID))
          else if fails then
            some (s.setRemoval r.id (.removing rest) r.deleted)
          else
            some ((s.unlink name).setRemoval r.id (.removing rest)
              (r.deleted || (s.dir.find? name).isSome))
      | _ => none
  | .readDir _ fails =>
      match r.phase with
      | .removing [] =>
          if fails then
            some (s.endRemoval r.id (.failed .system))
          else
            some (s.setRemoval r.id (.sizing (s.dir.rows.map File.name) 0) r.deleted)
      | _ => none
  | .info _ fails =>
      match r.phase with
      | .sizing (name :: rest) size =>
          match s.sizeOf name with
          | none => some (s.endRemoval r.id (.failed .system))
          | some n =>
              if fails then
                some (s.endRemoval r.id (.failed .system))
              else
                some (s.setRemoval r.id (.sizing rest (size + n)) r.deleted)
      | .sizing [] size => some (s.setRemoval r.id (.sized size) r.deleted)
      | _ => none
  | .setTotal _ =>
      match r.phase with
      | .sized size =>
          some ({ s with totalSizeCurrent := size }.endRemoval r.id .removed)
      | _ => none
  | _ => none

/-- One step; `none` if it is not enabled. -/
def step
    (s : State)
    (l : Label) : Option State :=
  match l with
  | .write id name statFails =>
      if !validFileID name then
        some { s with answers := (id, .failed .invalidFileID) :: s.answers }
      else if !statFails && (s.dir.find? name).isSome then
        some { s with answers := (id, .failed .fileExists) :: s.answers }
      else
        (s.writers.insert? ⟨id, name, .checked⟩).map
          (fun writers => { s with writers })
  | .remove id ids =>
      (s.removals.insert? ⟨id, .removing ids, false⟩).map
        (fun removals => { s with removals })
  | .openFile id _ | .remaining id | .chunk id _ _ _ | .readFails id | .close id _
  | .discard id _ | .account id =>
      (s.writers.find? id).bind (fun w => stepWriter s w l)
  | .unlink id _ | .readDir id _ | .info id _ | .setTotal id =>
      (s.removals.find? id).bind (fun r => stepRemoval s r l)

/-- `newFileCache` over a directory. -/
def newFileCache
    (dir : Table File.name)
    (nextInode limit : Nat) : State where
  dir
  nextInode
  totalSizeCurrent := (dir.rows.map File.size).sum
  totalSizeLimit := limit
  writers := .empty
  removals := .empty
  answers := []

end Model

section Spec

/-- Has the call opened its file? -/
def Writer.holdsFile (w : Writer) : Bool :=
  decide (w.phase ≠ .checked)

/-- May the file have a size that is not counted yet? -/
def Writer.isActive (w : Writer) : Bool :=
  match w.phase with
  | .checked | .opened _ => false
  | .copying _ _ _ _ | .failed _ | .closed _ => true

/-- Does the call go through the directory? -/
def Removal.isSizing (r : Removal) : Bool :=
  match r.phase with
  | .removing _ => false
  | .sizing _ _ | .sized _ => true

/--
If the next ID is that of a file, all other IDs are valid, and no `Remove` goes through
the directory.
-/
def MayUnlink
    (s : State)
    (r : Removal) : Prop :=
  match r.phase with
  | .removing (name :: rest) =>
      (s.dir.find? name).isSome = true →
        (∀ n ∈ rest, validFileID n = true) ∧ ∀ q ∈ s.removals, q.isSizing = false
  | _ => True

/--
Calls do not get in each other's way: a `Write` opens a file that is not there, when no
`Remove` is in flight; it reads the remaining space when no other `Write` is between
this and its end; a `Remove` begins when no `Write` has its file open, and deletes no
file while another one goes through the directory.  Calls clean up after themselves:
what an unsuccessful `Write` has written is removed, and a `Remove` that deletes a file
gets to its end.
-/
def Orderly
    (s : State) : Label → Prop
  | .openFile id false =>
      s.removals.rows = [] ∧
        ∀ w ∈ s.writers, w.id = id → s.dir.find? w.name = none
  | .remaining id => ∀ w ∈ s.writers, w.id ≠ id → w.isActive = false
  | .discard id true =>
      ∀ w ∈ s.writers, w.id = id → ∀ f ∈ s.dir, f.name = w.name → f.size = 0
  | .remove _ _ => ∀ w ∈ s.writers, w.holdsFile = false
  | .unlink id false => ∀ r ∈ s.removals, r.id = id → MayUnlink s r
  | .readDir id true | .info id true =>
      ∀ r ∈ s.removals, r.id = id → r.deleted = false
  | _ => True

instance decidableMayUnlink
    (s : State) (r : Removal) :
    Decidable (MayUnlink s r) := by
  unfold MayUnlink
  split <;> infer_instance

instance decidableOrderly
    (s : State) (l : Label) :
    Decidable (Orderly s l) := by
  unfold Orderly
  split <;> infer_instance

end Spec

section Preservation

variable {s s' : State}
variable {w : Writer}
variable {r : Removal}

/-- What holds of a `Write` and its file. -/
def Holds
    (s : State)
    (w : Writer) : Prop :=
  match w.phase with
  | .checked => True
  | .opened inode =>
      ∃ f ∈ s.dir, f.name = w.name ∧ f.inode = inode ∧ f.size = 0
  | .copying inode remaining used offset =>
      ∃ f ∈ s.dir, f.name = w.name ∧ f.inode = inode ∧ f.size = offset ∧
        offset ≤ used ∧ used ≤ remaining ∧
          s.totalSizeCurrent + remaining ≤ s.totalSizeLimit ∧
            s.dirSize = s.totalSizeCurrent + offset
  | .failed _ =>
      ∃ f ∈ s.dir, f.name = w.name ∧ s.dirSize = s.totalSizeCurrent + f.size
  | .closed size =>
      ∃ f ∈ s.dir, f.name = w.name ∧ f.size = size ∧
        s.dirSize = s.totalSizeCurrent + size

/-- What holds of a `Remove` and the sum that it has computed. -/
def Sums
    (s : State)
    (r : Removal) : Prop :=
  match r.phase with
  | .removing ids => r.deleted = true → ∀ id ∈ ids, validFileID id = true
  | .sizing names size =>
      size + (names.map (fun name => (s.sizeOf name).getD 0)).sum = s.dirSize ∧
        ∀ name ∈ names, (s.sizeOf name).isSome = true
  | .sized size => size = s.dirSize

structure Accounted (s : State) : Prop where
  fits : s.dirSize ≤ s.totalSizeLimit
  writers : ∀ w ∈ s.writers, Holds s w
  alone :
    ∀ w ∈ s.writers, ∀ w' ∈ s.writers, w.isActive = true → w'.isActive = true →
      w = w'
  apart :
    ∀ w ∈ s.writers, ∀ w' ∈ s.writers, w.holdsFile = true → w'.holdsFile = true →
      w.name = w'.name → w = w'
  exclusive : ∀ w ∈ s.writers, w.holdsFile = true → s.removals.rows = []
  removals : ∀ r ∈ s.removals, Sums s r
  balanced :
    (∀ w ∈ s.writers, w.isActive = false) →
      (∀ r ∈ s.removals, r.deleted = false) → s.dirSize = s.totalSizeCurrent

theorem Writer.holdsFile_of_isActive
    (h : w.isActive = true) :
    w.holdsFile = true := by
  unfold Writer.isActive at h
  unfold Writer.holdsFile
  split at h
  case h_1 hphase =>
    cases h
  case h_2 hphase =>
    cases h
  all_goals simp [*]

/-- A call that has its file open has an entry in the directory. -/
theorem Holds.exists_file
    (h : Holds s w)
    (hholds : w.holdsFile = true) :
    ∃ f ∈ s.dir, f.name = w.name := by
  unfold Holds at h
  split at h
  case h_1 hphase =>
    simp [Writer.holdsFile, hphase] at hholds
  all_goals
    obtain ⟨f, hf, hname, -⟩ := h
    exact ⟨f, hf, hname⟩

/-- A call that has written nothing yet is not affected by other files. -/
theorem Holds.of_inactive
    (h : Holds s w)
    (hactive : w.isActive = false)
    (hdir : w.holdsFile = true → ∀ f ∈ s.dir, f.name = w.name → f ∈ s'.dir) :
    Holds s' w := by
  unfold Writer.isActive at hactive
  unfold Holds at h ⊢
  split at hactive
  case h_1 hphase =>
    trivial
  case h_2 inode hphase =>
    simp only [hphase] at h ⊢
    obtain ⟨f, hf, hname, hrest⟩ := h
    exact ⟨f, hdir (by simp [Writer.holdsFile, hphase]) f hf hname, hname, hrest⟩
  all_goals cases hactive

/-- Another empty file does not matter. -/
theorem Holds.of_subset
    (h : Holds s w)
    (hdir : ∀ f ∈ s.dir, f ∈ s'.dir)
    (hsize : s'.dirSize = s.dirSize)
    (htotal : s'.totalSizeCurrent = s.totalSizeCurrent)
    (hlimit : s'.totalSizeLimit = s.totalSizeLimit) :
    Holds s' w := by
  unfold Holds at h ⊢
  rw [hsize, htotal, hlimit]
  split at h
  case h_1 hphase =>
    trivial
  all_goals
    obtain ⟨f, hf, hrest⟩ := h
    exact ⟨f, hdir f hf, hrest⟩

/-- The step of a `Write` that has its file open, when no other one is active. -/
theorem Accounted.advance
    (h : Accounted s)
    (hw : w ∈ s.writers)
    (hholds : w.holdsFile = true)
    (hothers : ∀ v ∈ s.writers, v.id ≠ w.id → v.isActive = false)
    (hdir : ∀ f ∈ s.dir, f.name ≠ w.name → f ∈ s'.dir)
    (hremovals : s'.removals = s.removals)
    (hwriters : ∀ v ∈ s'.writers, (v ∈ s.writers ∧ v.id ≠ w.id) ∨
      (v.id = w.id ∧ v.name = w.name ∧ Holds s' v))
    (hfits : s'.dirSize ≤ s'.totalSizeLimit)
    (hbalanced : (∀ v ∈ s'.writers, v.isActive = false) →
      s'.dirSize = s'.totalSizeCurrent) :
    Accounted s' := by
  have hnone : s'.removals.rows = [] := by
    rw [hremovals]
    exact h.exclusive w hw hholds
  have hactive : ∀ v ∈ s'.writers, v.isActive = true → v.id = w.id := by
    intro v hv hact
    rcases hwriters v hv with ⟨hold, hne⟩ | ⟨hid, -⟩
    · rw [hothers v hold hne] at hact
      cases hact
    · exact hid
  have hname : ∀ v ∈ s'.writers, v.holdsFile = true → v.id ≠ w.id →
      v ∈ s.writers ∧ v.name ≠ w.name := by
    intro v hv hhold hne
    rcases hwriters v hv with ⟨hold, -⟩ | ⟨hid, -⟩
    · refine ⟨hold, fun heq => hne ?_⟩
      rw [h.apart v hold w hw hhold hholds heq]
    · exact absurd hid hne
  refine ⟨hfits, ?_, ?_, ?_, fun _ _ _ => hnone, ?_, fun hinactive _ => hbalanced hinactive⟩
  · intro v hv
    rcases hwriters v hv with ⟨hold, hne⟩ | ⟨-, -, hnew⟩
    · refine (h.writers v hold).of_inactive (hothers v hold hne) fun hhold f hf heq => ?_
      refine hdir f hf ?_
      rw [heq]
      exact (hname v hv hhold hne).2
    · exact hnew
  · intro v hv v' hv' hact hact'
    exact Table.eq_of_key_eq hv hv'
      ((hactive v hv hact).trans (hactive v' hv' hact').symm)
  · intro v hv v' hv' hhold hhold' heq
    by_cases hid : v.id = w.id
    · by_cases hid' : v'.id = w.id
      · exact Table.eq_of_key_eq hv hv' (hid.trans hid'.symm)
      · have hne := (hname v' hv' hhold' hid').2
        rcases hwriters v hv with ⟨-, hne'⟩ | ⟨-, hsame, -⟩
        · exact absurd hid hne'
        · exact absurd (heq.symm.trans hsame) hne
    · obtain ⟨hold, hne⟩ := hname v hv hhold hid
      by_cases hid' : v'.id = w.id
      · rcases hwriters v' hv' with ⟨-, hne'⟩ | ⟨-, hsame, -⟩
        · exact absurd hid' hne'
        · exact absurd (heq.trans hsame) hne
      · exact h.apart v hold v' (hname v' hv' hhold' hid').1 hhold hhold' heq
  · intro r hr
    rw [Table.mem_def, hnone] at hr
    cases hr

/-- While a `Remove` is in flight, no file is open. -/
theorem Accounted.idle
    (h : Accounted s)
    (hr : r ∈ s.removals) :
    ∀ w ∈ s.writers, w.phase = .checked := by
  intro w hw
  by_contra hphase
  rw [Table.mem_def, h.exclusive w hw (decide_eq_true hphase)] at hr
  cases hr

/-- The step of a `Remove`. -/
theorem Accounted.advanceRemoval
    (h : Accounted s)
    (hr : r ∈ s.removals)
    (hwriters : s'.writers = s.writers)
    (hremovals : ∀ q ∈ s'.removals, Sums s' q)
    (hfits : s'.dirSize ≤ s'.totalSizeLimit)
    (hbalanced : (∀ q ∈ s'.removals, q.deleted = false) →
      s'.dirSize = s'.totalSizeCurrent) :
    Accounted s' := by
  have hidle : ∀ w ∈ s'.writers, w.phase = .checked := by
    rw [hwriters]
    exact h.idle hr
  have habsurd : ∀ w ∈ s'.writers, w.holdsFile = true → False := by
    intro w hw hhold
    simp [Writer.holdsFile, hidle w hw] at hhold
  refine ⟨hfits, ?_, ?_, ?_, ?_, hremovals, fun _ => hbalanced⟩
  · intro w hw
    simp [Holds, hidle w hw]
  · intro w hw _ _ hact _
    exact (habsurd w hw (Writer.holdsFile_of_isActive hact)).elim
  · intro w hw _ _ hhold _ _
    exact (habsurd w hw hhold).elim
  · intro w hw hhold
    exact (habsurd w hw hhold).elim

/-- Nothing is being written while a `Remove` is in flight. -/
theorem Accounted.balanced_of_mem
    (h : Accounted s)
    (hr : r ∈ s.removals)
    (hclean : ∀ q ∈ s.removals, q.deleted = false) :
    s.dirSize = s.totalSizeCurrent := by
  refine h.balanced (fun w hw => ?_) hclean
  rw [Writer.isActive, h.idle hr w hw]

theorem mem_setWriter_iff
    {phase : WritePhase} {v : Writer}
    (hw : w ∈ s.writers) :
    v ∈ (s.setWriter w.id phase).writers ↔
      v = { w with phase } ∨ (v ∈ s.writers ∧ v.id ≠ w.id) :=
  Table.mem_modify_key_iff (by intro v; split <;> rfl) hw rfl

theorem mem_endWriter_iff
    {answer : Answer} {v : Writer} :
    v ∈ (s.endWriter w.id answer).writers ↔ v ∈ s.writers ∧ v.id ≠ w.id := by
  simp [State.endWriter]

theorem mem_setRemoval_iff
    {phase : RemovePhase} {deleted : Bool} {q : Removal}
    (hr : r ∈ s.removals) :
    q ∈ (s.setRemoval r.id phase deleted).removals ↔
      q = { r with phase, deleted } ∨ (q ∈ s.removals ∧ q.id ≠ r.id) :=
  Table.mem_modify_key_iff (by intro q; split <;> rfl) hr rfl

theorem mem_endRemoval_iff
    {answer : Answer} {q : Removal} :
    q ∈ (s.endRemoval r.id answer).removals ↔ q ∈ s.removals ∧ q.id ≠ r.id := by
  simp [State.endRemoval]

/-- There is a new, empty file. -/
structure Opened
    (s s' : State)
    (name : String)
    (inode : Nat) : Prop where
  rows : s'.dir.rows = s.dir.rows ++ [⟨name, inode, 0⟩]
  writers : s'.writers = s.writers
  removals : s'.removals = s.removals
  total : s'.totalSizeCurrent = s.totalSizeCurrent
  limit : s'.totalSizeLimit = s.totalSizeLimit

/-- A name that is free gets an empty file. -/
theorem openFile_of_free
    {name : String}
    (hfree : s.dir.find? name = none) :
    Opened s (s.openFile name).1 name (s.openFile name).2 := by
  have hrows : (s.dir.upsert ⟨name, s.nextInode, 0⟩ id (fun _ => rfl)).rows =
      s.dir.rows ++ [⟨name, s.nextInode, 0⟩] :=
    Table.rows_upsert_of_free (fun _ => rfl) hfree
  simp only [State.openFile, hfree]
  exact ⟨hrows, rfl, rfl, rfl, rfl⟩

/-- Writing at the end of a file. -/
theorem writeFile_at_end
    {f : File} {n : Nat}
    (hf : f ∈ s.dir)
    (hname : f.name = w.name) :
    (s.writeFile w.name f.inode f.size n).dirSize = s.dirSize + n ∧
      ∀ g, g ∈ (s.writeFile w.name f.inode f.size n).dir ↔
        g = { f with size := f.size + n } ∨ (g ∈ s.dir ∧ g.name ≠ w.name) := by
  have hkey : ∀ g : File,
      (if g.name = w.name then g.write f.inode f.size n else g).name = g.name := by
    intro g
    split <;> simp [File.write_name]
  constructor
  · have hsum := Table.sum_modify_key hkey hf hname File.size
    rw [File.write_at_end] at hsum
    change (s.writeFile w.name f.inode f.size n).dirSize + f.size =
      s.dirSize + (f.size + n) at hsum
    omega
  · intro g
    rw [← File.write_at_end]
    exact Table.mem_modify_key_iff hkey hf hname

/-- Removing a file. -/
theorem unlink_of_mem
    {f : File}
    (hf : f ∈ s.dir) :
    (s.unlink f.name).dirSize + f.size = s.dirSize :=
  Table.sum_delete_key hf File.size

theorem mem_unlink_iff
    {name : String} {f : File} :
    f ∈ (s.unlink name).dir ↔ f ∈ s.dir ∧ f.name ≠ name := by
  simp [State.unlink]

theorem Accounted.openFile
    (h : Accounted s)
    (hw : w ∈ s.writers)
    (hphase : w.phase = .checked)
    (hfree : s.dir.find? w.name = none)
    (hnone : s.removals.rows = [])
    {inode : Nat}
    (hopened : Opened s s' w.name inode) :
    Accounted (s'.setWriter w.id (.opened inode)) := by
  have hw' : w ∈ s'.writers := by
    rw [hopened.writers]
    exact hw
  have hsize : s'.dirSize = s.dirSize := by
    simp [State.dirSize, hopened.rows]
  have hdir : ∀ g, g ∈ s.dir → g ∈ s'.dir := by
    intro g hg
    rw [Table.mem_def, hopened.rows]
    exact List.mem_append_left _ hg
  have hnew : (⟨w.name, inode, 0⟩ : File) ∈ s'.dir := by
    rw [Table.mem_def, hopened.rows]
    exact List.mem_append_right _ (List.mem_singleton_self _)
  have hother : ∀ v ∈ s.writers, v.holdsFile = true → v.name ≠ w.name := by
    intro v hv hhold heq
    obtain ⟨g, hg, hgname⟩ := (h.writers v hv).exists_file hhold
    exact Table.find?_eq_none_iff.mp hfree g hg (hgname.trans heq)
  have hmem : ∀ v ∈ (s'.setWriter w.id (.opened inode)).writers,
      v = { w with phase := .opened inode } ∨ (v ∈ s.writers ∧ v.id ≠ w.id) := by
    intro v hv
    rw [mem_setWriter_iff hw', hopened.writers] at hv
    exact hv
  refine ⟨?_, ?_, ?_, ?_, fun _ _ _ => ?_, ?_, ?_⟩
  · change s'.dirSize ≤ s'.totalSizeLimit
    rw [hsize, hopened.limit]
    exact h.fits
  · intro v hv
    rcases hmem v hv with rfl | ⟨hold, -⟩
    · exact ⟨_, hnew, rfl, rfl, rfl⟩
    · have hframe : Holds (s'.setWriter w.id (.opened inode)) v :=
        (h.writers v hold).of_subset hdir hsize hopened.total hopened.limit
      exact hframe
  · intro v hv v' hv' hact hact'
    rcases hmem v hv with rfl | ⟨hold, -⟩
    · cases hact
    · rcases hmem v' hv' with rfl | ⟨hold', -⟩
      · cases hact'
      · exact h.alone v hold v' hold' hact hact'
  · intro v hv v' hv' hhold hhold' heq
    rcases hmem v hv with rfl | ⟨hold, -⟩
    · rcases hmem v' hv' with rfl | ⟨hold', -⟩
      · rfl
      · exact absurd heq.symm (hother v' hold' hhold')
    · rcases hmem v' hv' with rfl | ⟨hold', -⟩
      · exact absurd heq (hother v hold hhold)
      · exact h.apart v hold v' hold' hhold hhold' heq
  · change s'.removals.rows = []
    rw [hopened.removals]
    exact hnone
  · intro r hr
    change r ∈ s'.removals at hr
    rw [Table.mem_def, hopened.removals, hnone] at hr
    cases hr
  · intro hinactive _
    change s'.dirSize = s'.totalSizeCurrent
    rw [hsize, hopened.total]
    refine h.balanced (fun v hv => ?_) (fun r hr => ?_)
    · by_cases hid : v.id = w.id
      · rw [Table.eq_of_key_eq hv hw hid, Writer.isActive, hphase]
      · refine hinactive v ?_
        rw [mem_setWriter_iff hw', hopened.writers]
        exact Or.inr ⟨hv, hid⟩
    · rw [Table.mem_def, hnone] at hr
      cases hr

/-- The call goes on with its file open. -/
theorem Accounted.goOn
    (h : Accounted s)
    (hw : w ∈ s.writers)
    (hholds : w.holdsFile = true)
    (hothers : ∀ v ∈ s.writers, v.id ≠ w.id → v.isActive = false)
    (hdir : ∀ f ∈ s.dir, f.name ≠ w.name → f ∈ s'.dir)
    (hwriters : s'.writers = s.writers)
    (hremovals : s'.removals = s.removals)
    (hfits : s'.dirSize ≤ s'.totalSizeLimit)
    {phase : WritePhase}
    (hactive : ({ w with phase } : Writer).isActive = true)
    (hnew : Holds s' { w with phase }) :
    Accounted (s'.setWriter w.id phase) := by
  have hw' : w ∈ s'.writers := by
    rw [hwriters]
    exact hw
  refine h.advance hw hholds hothers hdir hremovals ?_ hfits ?_
  · intro v hv
    rw [mem_setWriter_iff hw', hwriters] at hv
    rcases hv with rfl | hv
    · exact Or.inr ⟨rfl, rfl, hnew⟩
    · exact Or.inl hv
  · intro hinactive
    have hmem : { w with phase } ∈ (s'.setWriter w.id phase).writers :=
      (mem_setWriter_iff hw').mpr (Or.inl rfl)
    rw [hinactive _ hmem] at hactive
    cases hactive

/-- The call returns, and its file is counted or gone. -/
theorem Accounted.finish
    (h : Accounted s)
    (hw : w ∈ s.writers)
    (hholds : w.holdsFile = true)
    (hothers : ∀ v ∈ s.writers, v.id ≠ w.id → v.isActive = false)
    (hdir : ∀ f ∈ s.dir, f.name ≠ w.name → f ∈ s'.dir)
    (hwriters : s'.writers = s.writers)
    (hremovals : s'.removals = s.removals)
    (hfits : s'.dirSize ≤ s'.totalSizeLimit)
    (hbalanced : s'.dirSize = s'.totalSizeCurrent)
    (answer : Answer) :
    Accounted (s'.endWriter w.id answer) := by
  refine h.advance hw hholds hothers hdir hremovals ?_ hfits fun _ => hbalanced
  intro v hv
  rw [mem_endWriter_iff, hwriters] at hv
  exact Or.inl hv

/-- While one call is active, no other is. -/
theorem Accounted.others
    (h : Accounted s)
    (hw : w ∈ s.writers)
    (hactive : w.isActive = true) :
    ∀ v ∈ s.writers, v.id ≠ w.id → v.isActive = false := by
  intro v hv hne
  by_contra hact
  rw [Bool.not_eq_false] at hact
  exact hne (congrArg Writer.id (h.alone v hv w hw hact hactive))

theorem Accounted.remaining
    (h : Accounted s)
    (hw : w ∈ s.writers)
    {inode : Nat}
    (hphase : w.phase = .opened inode)
    (hothers : ∀ v ∈ s.writers, v.id ≠ w.id → v.isActive = false) :
    Accounted (s.setWriter w.id (.copying inode s.remaining 0 0)) := by
  have hholds : w.holdsFile = true := by simp [Writer.holdsFile, hphase]
  have hbalanced : s.dirSize = s.totalSizeCurrent := by
    refine h.balanced (fun v hv => ?_) (fun r hr => ?_)
    · by_cases hid : v.id = w.id
      · rw [Table.eq_of_key_eq hv hw hid, Writer.isActive, hphase]
      · exact hothers v hv hid
    · rw [Table.mem_def, h.exclusive w hw hholds] at hr
      cases hr
  have hfile := h.writers w hw
  simp only [Holds, hphase] at hfile
  obtain ⟨f, hf, hname, hinode, hsize⟩ := hfile
  refine h.goOn hw hholds hothers (fun g hg _ => hg) rfl rfl h.fits rfl ?_
  refine ⟨f, hf, hname, hinode, hsize, Nat.le_refl 0, Nat.zero_le _, ?_, hbalanced⟩
  rw [State.remaining, Nat.add_sub_cancel' (hbalanced ▸ h.fits)]

/-- The call goes on, and its file has become larger. -/
theorem Accounted.write
    (h : Accounted s)
    (hw : w ∈ s.writers)
    {inode remaining used offset : Nat}
    (hphase : w.phase = .copying inode remaining used offset)
    {n m : Nat}
    (hspace : used + n ≤ remaining)
    (hm : m ≤ n)
    {phase : WritePhase}
    (hnext : phase = .copying inode remaining (used + n) (offset + m) ∨
      ∃ e, phase = .failed e) :
    Accounted ((s.writeFile w.name inode offset m).setWriter w.id phase) := by
  have hholds : w.holdsFile = true := by simp [Writer.holdsFile, hphase]
  have hothers := h.others hw (by simp [Writer.isActive, hphase])
  have hfile := h.writers w hw
  simp only [Holds, hphase] at hfile
  obtain ⟨f, hf, hname, rfl, rfl, hused, -, hlimit, hsum⟩ := hfile
  obtain ⟨hsize, hdir⟩ := writeFile_at_end (n := m) hf hname
  have hfits : (s.writeFile w.name f.inode f.size m).dirSize ≤ s.totalSizeLimit := by
    omega
  have hsame : (⟨f.name, f.inode, f.size + m⟩ : File) ∈
      (s.writeFile w.name f.inode f.size m).dir :=
    (hdir _).mpr (Or.inl rfl)
  have hother : ∀ g ∈ s.dir, g.name ≠ w.name →
      g ∈ (s.writeFile w.name f.inode f.size m).dir :=
    fun g hg hne => (hdir g).mpr (Or.inr ⟨hg, hne⟩)
  rcases hnext with rfl | ⟨e, rfl⟩
  · refine h.goOn hw hholds hothers hother rfl rfl hfits rfl ?_
    refine ⟨_, hsame, hname, rfl, rfl, Nat.add_le_add hused hm, hspace, hlimit, ?_⟩
    rw [hsize, hsum, Nat.add_assoc]
    rfl
  · refine h.goOn hw hholds hothers hother rfl rfl hfits rfl ?_
    refine ⟨_, hsame, hname, ?_⟩
    rw [hsize, hsum, Nat.add_assoc]
    rfl

/-- The call stops writing. -/
theorem Accounted.stop
    (h : Accounted s)
    (hw : w ∈ s.writers)
    {inode remaining used offset : Nat}
    (hphase : w.phase = .copying inode remaining used offset)
    {phase : WritePhase}
    (hnext : phase = .closed offset ∨ ∃ e, phase = .failed e) :
    Accounted (s.setWriter w.id phase) := by
  have hholds : w.holdsFile = true := by simp [Writer.holdsFile, hphase]
  have hothers := h.others hw (by simp [Writer.isActive, hphase])
  have hfile := h.writers w hw
  simp only [Holds, hphase] at hfile
  obtain ⟨f, hf, hname, -, rfl, -, -, -, hsum⟩ := hfile
  rcases hnext with rfl | ⟨e, rfl⟩
  · exact h.goOn hw hholds hothers (fun g hg _ => hg) rfl rfl h.fits rfl
      ⟨f, hf, hname, rfl, hsum⟩
  · exact h.goOn hw hholds hothers (fun g hg _ => hg) rfl rfl h.fits rfl
      ⟨f, hf, hname, hsum⟩

theorem Accounted.discard
    (h : Accounted s)
    (hw : w ∈ s.writers)
    {e : FileError}
    (hphase : w.phase = .failed e)
    {fails : Bool}
    (hempty : fails = true → ∀ f ∈ s.dir, f.name = w.name → f.size = 0) :
    Accounted ((if fails then s else s.unlink w.name).endWriter w.id (.failed e)) := by
  have hholds : w.holdsFile = true := by simp [Writer.holdsFile, hphase]
  have hothers := h.others hw (by simp [Writer.isActive, hphase])
  have hfile := h.writers w hw
  simp only [Holds, hphase] at hfile
  obtain ⟨f, hf, hname, hsum⟩ := hfile
  cases fails with
  | true =>
      have hzero := hempty rfl f hf hname
      exact h.finish hw hholds hothers (fun g hg _ => hg) rfl rfl h.fits (by omega) _
  | false =>
      have hsize := unlink_of_mem hf
      have hfits := h.fits
      rw [if_neg Bool.false_ne_true, ← hname]
      refine h.finish hw hholds hothers ?_ ?_ ?_ ?_ ?_ _
      · intro g hg hne
        rw [hname]
        exact mem_unlink_iff.mpr ⟨hg, hne⟩
      · rfl
      · rfl
      · change (s.unlink f.name).dirSize ≤ s.totalSizeLimit
        omega
      · change (s.unlink f.name).dirSize = s.totalSizeCurrent
        omega

theorem Accounted.account
    (h : Accounted s)
    (hw : w ∈ s.writers)
    {size : Nat}
    (hphase : w.phase = .closed size) :
    Accounted
      ({ s with totalSizeCurrent := s.totalSizeCurrent + size }.endWriter w.id
        (.wrote size)) := by
  have hholds : w.holdsFile = true := by simp [Writer.holdsFile, hphase]
  have hothers := h.others hw (by simp [Writer.isActive, hphase])
  have hfile := h.writers w hw
  simp only [Holds, hphase] at hfile
  obtain ⟨f, hf, hname, -, hsum⟩ := hfile
  refine h.finish hw hholds hothers ?_ ?_ ?_ ?_ ?_ _
  · exact fun g hg _ => hg
  · rfl
  · rfl
  · exact h.fits
  · exact hsum

/-- A `Remove` begins when no file is open. -/
theorem Accounted.remove
    (h : Accounted s)
    {id : Nat} {ids : List String} {removals : Table Removal.id}
    (hidle : ∀ w ∈ s.writers, w.holdsFile = false)
    (hinsert : s.removals.insert? ⟨id, .removing ids, false⟩ = some removals) :
    Accounted { s with removals } := by
  have hmem : ∀ q, q ∈ removals ↔ q ∈ s.removals ∨ q = ⟨id, .removing ids, false⟩ :=
    fun q => Table.mem_insert?_iff hinsert
  refine ⟨h.fits, h.writers, h.alone, h.apart, ?_, ?_, ?_⟩
  · intro w hw hhold
    rw [hidle w hw] at hhold
    cases hhold
  · intro q hq
    rcases (hmem q).mp hq with hold | rfl
    · exact h.removals q hold
    · intro hdeleted
      cases hdeleted
  · intro hinactive hclean
    exact h.balanced hinactive fun q hq => hclean q ((hmem q).mpr (Or.inl hq))

/-- A `Remove` goes on, and deletes nothing. -/
theorem Accounted.setRemoval
    (h : Accounted s)
    (hr : r ∈ s.removals)
    {phase : RemovePhase}
    (hnew : Sums s { r with phase }) :
    Accounted (s.setRemoval r.id phase r.deleted) := by
  refine h.advanceRemoval hr rfl ?_ h.fits ?_
  · intro q hq
    rcases (mem_setRemoval_iff hr).mp hq with rfl | ⟨hold, -⟩
    · exact hnew
    · exact h.removals q hold
  · intro hclean
    refine h.balanced_of_mem hr fun q hq => ?_
    by_cases hid : q.id = r.id
    · have hmem : { r with phase } ∈ (s.setRemoval r.id phase r.deleted).removals :=
        (mem_setRemoval_iff hr).mpr (Or.inl rfl)
      have hdeleted : r.deleted = false := hclean { r with phase } hmem
      rw [Table.eq_of_key_eq hq hr hid]
      exact hdeleted
    · exact hclean q ((mem_setRemoval_iff hr).mpr (Or.inr ⟨hq, hid⟩))

/-- A `Remove` that has deleted nothing may fail. -/
theorem Accounted.abandon
    (h : Accounted s)
    (hr : r ∈ s.removals)
    (hdeleted : r.deleted = false)
    (answer : Answer) :
    Accounted (s.endRemoval r.id answer) := by
  refine h.advanceRemoval hr rfl ?_ h.fits ?_
  · intro q hq
    exact h.removals q (mem_endRemoval_iff.mp hq).1
  · intro hclean
    refine h.balanced_of_mem hr fun q hq => ?_
    by_cases hid : q.id = r.id
    · rw [Table.eq_of_key_eq hq hr hid]
      exact hdeleted
    · exact hclean q (mem_endRemoval_iff.mpr ⟨hq, hid⟩)

theorem Accounted.setTotal
    (h : Accounted s)
    (hr : r ∈ s.removals)
    {size : Nat}
    (hphase : r.phase = .sized size) :
    Accounted ({ s with totalSizeCurrent := size }.endRemoval r.id .removed) := by
  have hsums := h.removals r hr
  simp only [Sums, hphase] at hsums
  refine h.advanceRemoval hr ?_ ?_ ?_ ?_
  · rfl
  · intro q hq
    exact h.removals q (Table.mem_delete_iff.mp hq).1
  · exact h.fits
  · exact fun _ => hsums.symm

/-- A `Write` begins that has no file yet. -/
theorem Accounted.write_begins
    (h : Accounted s)
    {id : Nat} {name : String} {writers : Table Writer.id}
    (hinsert : s.writers.insert? ⟨id, name, .checked⟩ = some writers) :
    Accounted { s with writers } := by
  have hmem : ∀ v, v ∈ writers ↔ v ∈ s.writers ∨ v = ⟨id, name, .checked⟩ :=
    fun v => Table.mem_insert?_iff hinsert
  have hholding : ∀ v ∈ writers, v.holdsFile = true → v ∈ s.writers := by
    intro v hv hhold
    rcases (hmem v).mp hv with hold | rfl
    · exact hold
    · cases hhold
  refine ⟨h.fits, ?_, ?_, ?_, ?_, h.removals, ?_⟩
  · intro v hv
    rcases (hmem v).mp hv with hold | rfl
    · exact h.writers v hold
    · trivial
  · intro v hv v' hv' hact hact'
    exact h.alone v (hholding v hv (Writer.holdsFile_of_isActive hact)) v'
      (hholding v' hv' (Writer.holdsFile_of_isActive hact')) hact hact'
  · intro v hv v' hv' hhold hhold'
    exact h.apart v (hholding v hv hhold) v' (hholding v' hv' hhold') hhold hhold'
  · intro v hv hhold
    exact h.exclusive v (hholding v hv hhold) hhold
  · intro hinactive
    exact h.balanced fun v hv => hinactive v ((hmem v).mpr (Or.inl hv))

/-- A `Write` returns that has not opened its file. -/
theorem Accounted.write_ends
    (h : Accounted s)
    (hw : w ∈ s.writers)
    (hphase : w.phase = .checked)
    (answer : Answer) :
    Accounted (s.endWriter w.id answer) := by
  have hsub : ∀ v ∈ (s.endWriter w.id answer).writers, v ∈ s.writers :=
    fun v hv => (mem_endWriter_iff.mp hv).1
  refine ⟨h.fits, fun v hv => h.writers v (hsub v hv), ?_, ?_, ?_, h.removals, ?_⟩
  · intro v hv v' hv'
    exact h.alone v (hsub v hv) v' (hsub v' hv')
  · intro v hv v' hv'
    exact h.apart v (hsub v hv) v' (hsub v' hv')
  · intro v hv
    exact h.exclusive v (hsub v hv)
  · intro hinactive
    refine h.balanced fun v hv => ?_
    by_cases hid : v.id = w.id
    · rw [Table.eq_of_key_eq hv hw hid, Writer.isActive, hphase]
    · exact hinactive v (mem_endWriter_iff.mpr ⟨hv, hid⟩)

/-- A file is deleted that is there. -/
theorem Accounted.delete
    (h : Accounted s)
    (hr : r ∈ s.removals)
    {name : String} {rest : List String}
    (hvalid : ∀ id ∈ rest, validFileID id = true)
    (hidle : ∀ q ∈ s.removals, q.isSizing = false)
    {f : File}
    (hf : f ∈ s.dir)
    (hname : f.name = name) :
    Accounted ((s.unlink name).setRemoval r.id (.removing rest) true) := by
  have hr' : r ∈ (s.unlink name).removals := hr
  have hsize := unlink_of_mem hf
  rw [hname] at hsize
  refine h.advanceRemoval hr ?_ ?_ ?_ ?_
  · rfl
  · intro q hq
    rcases (mem_setRemoval_iff hr').mp hq with rfl | ⟨hold, -⟩
    · exact fun _ => hvalid
    · have hsums := h.removals q hold
      have hphase := hidle q hold
      unfold Removal.isSizing at hphase
      unfold Sums at hsums ⊢
      split at hphase
      case h_1 ids heq =>
        simp only [heq] at hsums ⊢
        exact hsums
      all_goals cases hphase
  · have hfits := h.fits
    change (s.unlink name).dirSize ≤ s.totalSizeLimit
    omega
  · intro hclean
    have hdirty := hclean _ ((mem_setRemoval_iff hr').mpr (Or.inl rfl))
    cases hdirty

/-- The next ID is valid. -/
theorem Accounted.unlink
    (h : Accounted s)
    (hr : r ∈ s.removals)
    {name : String} {rest : List String}
    (hphase : r.phase = .removing (name :: rest))
    (horderly : (s.dir.find? name).isSome = true →
      (∀ n ∈ rest, validFileID n = true) ∧ ∀ q ∈ s.removals, q.isSizing = false) :
    Accounted ((s.unlink name).setRemoval r.id (.removing rest)
      (r.deleted || (s.dir.find? name).isSome)) := by
  cases hfind : s.dir.find? name with
  | none =>
      have hsame : s.unlink name = s := by
        have hrows : s.dir.delete (fun f => decide (f.name = name)) = s.dir := by
          refine Table.ext (List.filter_eq_self.mpr fun f hf => ?_)
          simp [Table.find?_eq_none_iff.mp hfind f hf]
        rw [State.unlink, hrows]
      have hsums := h.removals r hr
      simp only [Sums, hphase] at hsums
      rw [hsame, Option.isSome_none, Bool.or_false]
      exact h.setRemoval hr fun hdeleted n hn =>
        hsums hdeleted n (List.mem_cons_of_mem name hn)
  | some f =>
      obtain ⟨hf, hname⟩ := Table.find?_eq_some_iff.mp hfind
      obtain ⟨hvalid, hidle⟩ := horderly (by rw [hfind]; rfl)
      rw [Option.isSome_some, Bool.or_true]
      exact h.delete hr hvalid hidle hf hname

/-- Every name that the directory lists has a size, and they add up. -/
theorem sums_readDir
    (s : State) :
    ((s.dir.rows.map File.name).map (fun name => (s.sizeOf name).getD 0)).sum =
        s.dirSize ∧
      ∀ name ∈ s.dir.rows.map File.name, (s.sizeOf name).isSome = true := by
  have hsizeOf : ∀ f ∈ s.dir.rows, s.sizeOf f.name = some f.size := by
    intro f hf
    rw [State.sizeOf, Table.find?_eq_some_iff.mpr ⟨hf, rfl⟩]
    rfl
  constructor
  · rw [List.map_map, State.dirSize]
    refine congrArg List.sum (List.map_congr_left fun f hf => ?_)
    rw [Function.comp_apply, hsizeOf f hf]
    rfl
  · intro name hname
    obtain ⟨f, hf, rfl⟩ := List.mem_map.mp hname
    rw [hsizeOf f hf]
    rfl

theorem Accounted.step
    (h : Accounted s)
    {l : Label}
    (horderly : Orderly s l)
    (hstep : step s l = some s') :
    Accounted s' := by
  cases l with
  | write id name statFails =>
      simp only [FileCache.step] at hstep
      split at hstep
      case isTrue =>
        cases hstep
        exact { h with }
      case isFalse =>
        split at hstep
        case isTrue =>
          cases hstep
          exact { h with }
        case isFalse =>
          obtain ⟨writers, hinsert, rfl⟩ := Option.map_eq_some_iff.mp hstep
          exact h.write_begins hinsert
  | remove id ids =>
      obtain ⟨removals, hinsert, rfl⟩ := Option.map_eq_some_iff.mp hstep
      exact h.remove horderly hinsert
  | openFile id fails =>
      obtain ⟨w, hfind, hstep⟩ := Option.bind_eq_some_iff.mp hstep
      obtain ⟨hw, rfl⟩ := Table.find?_eq_some_iff.mp hfind
      simp only [stepWriter] at hstep
      split at hstep
      case h_1 hphase =>
        cases fails with
        | true =>
            cases hstep
            exact h.write_ends hw hphase _
        | false =>
            cases hstep
            have hfree := horderly.2 w hw rfl
            exact h.openFile hw hphase hfree horderly.1 (openFile_of_free hfree)
      case h_2 =>
        cases hstep
  | remaining id =>
      obtain ⟨w, hfind, hstep⟩ := Option.bind_eq_some_iff.mp hstep
      obtain ⟨hw, rfl⟩ := Table.find?_eq_some_iff.mp hfind
      simp only [stepWriter] at hstep
      split at hstep
      case h_1 inode hphase =>
        cases hstep
        exact h.remaining hw hphase horderly
      case h_2 =>
        cases hstep
  | chunk id n allowed written =>
      obtain ⟨w, hfind, hstep⟩ := Option.bind_eq_some_iff.mp hstep
      obtain ⟨hw, rfl⟩ := Table.find?_eq_some_iff.mp hfind
      simp only [stepWriter] at hstep
      split at hstep
      case h_1 inode remaining used offset hphase =>
        split at hstep
        case isTrue =>
          cases hstep
          exact h.stop hw hphase (Or.inr ⟨_, rfl⟩)
        case isFalse hspace =>
          simp only [Bool.or_eq_true, Bool.not_eq_true', decide_eq_true_eq, not_or,
            Nat.not_lt] at hspace
          split at hstep
          case isTrue hshort =>
            cases hstep
            exact h.write hw hphase hspace.2 (Nat.le_of_lt hshort) (Or.inr ⟨_, rfl⟩)
          case isFalse =>
            cases hstep
            exact h.write hw hphase hspace.2 (Nat.le_refl n) (Or.inl rfl)
      case h_2 =>
        cases hstep
  | readFails id =>
      obtain ⟨w, hfind, hstep⟩ := Option.bind_eq_some_iff.mp hstep
      obtain ⟨hw, rfl⟩ := Table.find?_eq_some_iff.mp hfind
      simp only [stepWriter] at hstep
      split at hstep
      case h_1 hphase =>
        cases hstep
        exact h.stop hw hphase (Or.inr ⟨_, rfl⟩)
      case h_2 =>
        cases hstep
  | close id fails =>
      obtain ⟨w, hfind, hstep⟩ := Option.bind_eq_some_iff.mp hstep
      obtain ⟨hw, rfl⟩ := Table.find?_eq_some_iff.mp hfind
      simp only [stepWriter] at hstep
      split at hstep
      case h_1 hphase =>
        cases hstep
        cases fails with
        | true =>
            exact h.stop hw hphase (Or.inr ⟨_, rfl⟩)
        | false =>
            exact h.stop hw hphase (Or.inl rfl)
      case h_2 =>
        cases hstep
  | discard id fails =>
      obtain ⟨w, hfind, hstep⟩ := Option.bind_eq_some_iff.mp hstep
      obtain ⟨hw, rfl⟩ := Table.find?_eq_some_iff.mp hfind
      simp only [stepWriter] at hstep
      split at hstep
      case h_1 e hphase =>
        cases hstep
        refine h.discard hw hphase fun hfails => ?_
        subst hfails
        exact horderly w hw rfl
      case h_2 =>
        cases hstep
  | account id =>
      obtain ⟨w, hfind, hstep⟩ := Option.bind_eq_some_iff.mp hstep
      obtain ⟨hw, rfl⟩ := Table.find?_eq_some_iff.mp hfind
      simp only [stepWriter] at hstep
      split at hstep
      case h_1 size hphase =>
        cases hstep
        exact h.account hw hphase
      case h_2 =>
        cases hstep
  | unlink id fails =>
      obtain ⟨r, hfind, hstep⟩ := Option.bind_eq_some_iff.mp hstep
      obtain ⟨hr, rfl⟩ := Table.find?_eq_some_iff.mp hfind
      simp only [stepRemoval] at hstep
      split at hstep
      case h_1 name rest hphase =>
        have hsums := h.removals r hr
        simp only [Sums, hphase] at hsums
        split at hstep
        case isTrue hinvalid =>
          cases hstep
          refine h.abandon hr ?_ _
          by_contra hdeleted
          rw [Bool.not_eq_false] at hdeleted
          simp [hsums hdeleted name List.mem_cons_self] at hinvalid
        case isFalse hvalid =>
          cases fails with
          | true =>
              cases hstep
              exact h.setRemoval hr fun hdeleted n hn =>
                hsums hdeleted n (List.mem_cons_of_mem name hn)
          | false =>
              cases hstep
              have hmay := horderly r hr rfl
              simp only [MayUnlink, hphase] at hmay
              exact h.unlink hr hphase hmay
      case h_2 =>
        cases hstep
  | readDir id fails =>
      obtain ⟨r, hfind, hstep⟩ := Option.bind_eq_some_iff.mp hstep
      obtain ⟨hr, rfl⟩ := Table.find?_eq_some_iff.mp hfind
      simp only [stepRemoval] at hstep
      split at hstep
      case h_1 hphase =>
        cases fails with
        | true =>
            cases hstep
            exact h.abandon hr (horderly r hr rfl) _
        | false =>
            cases hstep
            obtain ⟨hsum, hsome⟩ := sums_readDir s
            exact h.setRemoval hr ⟨(Nat.zero_add _).trans hsum, hsome⟩
      case h_2 =>
        cases hstep
  | info id fails =>
      obtain ⟨r, hfind, hstep⟩ := Option.bind_eq_some_iff.mp hstep
      obtain ⟨hr, rfl⟩ := Table.find?_eq_some_iff.mp hfind
      simp only [stepRemoval] at hstep
      have hsums := h.removals r hr
      split at hstep
      case h_1 name rest size hphase =>
        simp only [Sums, hphase, List.map_cons, List.sum_cons] at hsums
        obtain ⟨hsum, hsome⟩ := hsums
        obtain ⟨n, hn⟩ := Option.isSome_iff_exists.mp (hsome name List.mem_cons_self)
        simp only [hn] at hstep
        cases fails with
        | true =>
            cases hstep
            exact h.abandon hr (horderly r hr rfl) _
        | false =>
            cases hstep
            refine h.setRemoval hr ⟨?_, fun m hm => hsome m (List.mem_cons_of_mem name hm)⟩
            rw [hn] at hsum
            simp only [Option.getD_some] at hsum
            omega
      case h_2 size hphase =>
        simp only [Sums, hphase, List.map_nil, List.sum_nil, Nat.add_zero] at hsums
        cases hstep
        exact h.setRemoval hr hsums.1
      case h_3 =>
        cases hstep
  | setTotal id =>
      obtain ⟨r, hfind, hstep⟩ := Option.bind_eq_some_iff.mp hstep
      obtain ⟨hr, rfl⟩ := Table.find?_eq_some_iff.mp hfind
      simp only [stepRemoval] at hstep
      split at hstep
      case h_1 size hphase =>
        cases hstep
        exact h.setTotal hr hphase
      case h_2 =>
        cases hstep

theorem accounted_newFileCache
    {dir : Table File.name} {nextInode limit : Nat}
    (hfits : (dir.rows.map File.size).sum ≤ limit) :
    Accounted (newFileCache dir nextInode limit) where
  fits := hfits
  writers := fun _ hw => by cases hw
  alone := fun _ hw => by cases hw
  apart := fun _ hw => by cases hw
  exclusive := fun _ hw => by cases hw
  removals := fun _ hr => by cases hr
  balanced := fun _ _ => rfl

theorem accounted_of_run
    {dir : Table File.name} {nextInode limit : Nat} {ls : List Label}
    (hfits : (dir.rows.map File.size).sum ≤ limit)
    (horderly : Along FileCache.step Orderly (newFileCache dir nextInode limit) ls)
    (hrun : run FileCache.step (newFileCache dir nextInode limit) ls = some s) :
    Accounted s :=
  run_invariant_along (fun _ _ _ hs horderly hstep => hs.step horderly hstep)
    (accounted_newFileCache hfits) horderly hrun

theorem totalSizeLimit_openFile
    (s : State) (name : String) :
    (s.openFile name).1.totalSizeLimit = s.totalSizeLimit := by
  unfold State.openFile
  split <;> rfl

/-- The limit does not change. -/
theorem totalSizeLimit_step
    {l : Label}
    (hstep : FileCache.step s l = some s') :
    s'.totalSizeLimit = s.totalSizeLimit := by
  have hwriter : ∀ w, stepWriter s w l = some s' →
      s'.totalSizeLimit = s.totalSizeLimit := by
    intro w hstep
    unfold stepWriter at hstep
    grind [State.endWriter, State.setWriter, State.writeFile, State.unlink,
      totalSizeLimit_openFile]
  have hremoval : ∀ r, stepRemoval s r l = some s' →
      s'.totalSizeLimit = s.totalSizeLimit := by
    intro r hstep
    unfold stepRemoval at hstep
    grind [State.endRemoval, State.setRemoval, State.unlink]
  unfold FileCache.step at hstep
  grind [Option.map_eq_some_iff, Option.bind_eq_some_iff]

theorem totalSizeLimit_of_run
    {dir : Table File.name} {nextInode limit : Nat} {ls : List Label}
    (hrun : run FileCache.step (newFileCache dir nextInode limit) ls = some s) :
    s.totalSizeLimit = limit :=
  run_invariant (fun _ _ _ hs hstep => (totalSizeLimit_step hstep).trans hs) rfl hrun

/--
In every run whose steps are orderly, the directory is never larger than the limit, and
when no call is in flight the counter is its size.
-/
theorem accounted_in_quiescent
    {dir : Table File.name} {nextInode limit : Nat} {ls : List Label}
    (hfits : (dir.rows.map File.size).sum ≤ limit)
    (horderly : Along FileCache.step Orderly (newFileCache dir nextInode limit) ls)
    (hrun : run FileCache.step (newFileCache dir nextInode limit) ls = some s) :
    s.dirSize ≤ limit ∧
      (s.writers.rows = [] → s.removals.rows = [] →
        s.totalSizeCurrent = s.dirSize) := by
  have h := accounted_of_run hfits horderly hrun
  refine ⟨totalSizeLimit_of_run hrun ▸ h.fits, fun hwriters hremovals => ?_⟩
  refine (h.balanced (fun w hw => ?_) (fun r hr => ?_)).symm
  · rw [Table.mem_def, hwriters] at hw
    cases hw
  · rw [Table.mem_def, hremovals] at hr
    cases hr

end Preservation

section Examples

/-- A file is written. -/
def writeRun
    (id : Nat)
    (name : String)
    (size : Nat) : List Label :=
  [.write id name false, .openFile id false, .remaining id, .chunk id size true size,
    .close id false, .account id]

/-- A file is removed that is the only one. -/
def removeRun
    (id : Nat)
    (name : String) : List Label :=
  [.remove id [name], .unlink id false, .readDir id false, .info id false, .setTotal id]

/-- One file, and then another one in its place. -/
theorem accounted_example :
    ∃ s, run step (newFileCache .empty 0 10)
        (writeRun 1 "aaaaaaaaaaaa" 6 ++ removeRun 2 "aaaaaaaaaaaa" ++
          writeRun 3 "bbbbbbbbbbbb" 7) = some s ∧
      s.dirSize ≤ 10 ∧
        (s.writers.rows = [] → s.removals.rows = [] →
          s.totalSizeCurrent = s.dirSize) := by
  have horderly : Along step Orderly (newFileCache .empty 0 10)
      (writeRun 1 "aaaaaaaaaaaa" 6 ++ removeRun 2 "aaaaaaaaaaaa" ++
        writeRun 3 "bbbbbbbbbbbb" 7) := by
    decide
  have hrun : (run step (newFileCache .empty 0 10)
      (writeRun 1 "aaaaaaaaaaaa" 6 ++ removeRun 2 "aaaaaaaaaaaa" ++
        writeRun 3 "bbbbbbbbbbbb" 7)).isSome = true := by
    decide
  obtain ⟨s, hs⟩ := Option.isSome_iff_exists.mp hrun
  exact ⟨s, hs, accounted_in_quiescent (by decide) horderly hs⟩

/-- Two files are written at once. -/
def writtenAtOnce : List Label :=
  [.write 1 "aaaaaaaaaaaa" false, .write 2 "bbbbbbbbbbbb" false, .openFile 1 false,
    .openFile 2 false, .remaining 1, .remaining 2, .chunk 1 6 true 6, .chunk 2 6 true 6,
    .close 1 false, .close 2 false, .account 1, .account 2]

/-- The second ID of a `Remove` is invalid. -/
def removedInPart : List Label :=
  writeRun 1 "aaaaaaaaaaaa" 6 ++
    [.remove 2 ["aaaaaaaaaaaa", "../bbbb"], .unlink 2 false, .unlink 2 false]

/-- A file is written while the sizes are added up. -/
def removedMeanwhile : List Label :=
  [.write 1 "aaaaaaaaaaaa" false, .openFile 1 false, .remaining 1, .chunk 1 6 true 6,
    .remove 2 ["bbbbbbbbbbbb"], .unlink 2 false, .readDir 2 false, .info 2 false,
    .info 2 false, .setTotal 2, .close 1 false, .account 1]

/-- The calls in flight, the counter, the size of the directory, and the limit. -/
def summary (s : State) : Nat × Nat × Nat × Nat :=
  (s.writers.rows.length + s.removals.rows.length, s.totalSizeCurrent, s.dirSize,
    s.totalSizeLimit)

/-- Three runs to a state with no call in flight, in which the claims fail. -/
theorem cache_not_accounted :
    (run step (newFileCache .empty 0 10) writtenAtOnce).map summary =
        some (0, 12, 12, 10) ∧
      (run step (newFileCache .empty 0 10) removedInPart).map summary =
        some (0, 6, 0, 10) ∧
      (run step (newFileCache .empty 0 10) removedMeanwhile).map summary =
        some (0, 12, 6, 10) := by
  refine ⟨?_, ?_, ?_⟩ <;> decide

end Examples

end FileCache

end Server
end CoopMessenger
