import CoopMessenger.Library.Runs
import CoopMessenger.Server.FileCache
import CoopMessenger.Server.MessageCache
import CoopMessenger.Util.BatchingQueue

/-!
# Attachments and their messages

The files of the attachment cache and the rows of the messages that they belong to.  A
publish request writes its file first and adds its message last; messages are deleted
before their files, and pruned after them.  Each statement is a step of its own, and so
is each call of `Remove`.

**Results.**
* `Tracked.step`: where the message of a file is, or why the file is about to go.
* `no_orphaned_files`: when no request is in flight, every file belongs to a message
  that a later pruning finds, as long as requests with files are cached and nothing
  fails that leaves a file behind.
-/

namespace CoopMessenger
namespace Server

open Library Util

namespace Attachments

section Model

/-- A row of `messages`, with the flag of its attachment. -/
structure Row where
  message : Message
  published : Bool
  attachmentDeleted : Bool
deriving DecidableEq, Repr

/--
What a request or a pruning does next.  A publish request handles its body, deletes the
scheduled messages of its sequence and their files, and adds its message; it only ends
if it is not cached.  A topic is deleted with its files.  Prunings have read their list,
and then removed the files of it.
-/
inductive Work where
  | written (m : Message) (cache : Bool)
  | cleared (m : Message) (ids : List String)
  | ready (m : Message)
  | removing (ids : List String)
  | expired (ids : List String)
  | deleting (ids : List String)
  | attachmentsExpired (ids : List String)
  | marking (ids : List String)
deriving DecidableEq, Repr

structure Task where
  id : Nat
  work : Work
deriving DecidableEq, Repr

/--
The files by name, the message cache (which stores nothing if `nop`) with its queue, and
what is in flight.  The IDs used are only recorded.
-/
structure State where
  now : Nat
  nop : Bool
  files : List String
  rows : List Row
  queue : Option (BatchingQueue Message)
  tasks : Table Task.id
  used : List String

def Row.id (r : Row) : String :=
  r.message.id

def State.queued (s : State) : List Message :=
  (s.queue.map BatchingQueue.contents).getD []

/-- `addMessages`; an error is `none`. -/
def State.addMessages
    (s : State)
    (ms : List Message) : Option (List Row) :=
  if s.nop then
    some s.rows
  else if ms.all (fun m => m.event.storable) then
    some (s.rows ++ ms.map (fun m => ⟨m, decide (m.time ≤ s.now), false⟩))
  else
    none

/-- The message IDs of the rows that satisfy `p`. -/
def State.idsWhere
    (s : State)
    (p : Row → Bool) : List String :=
  (s.rows.filter p).map Row.id

def State.deleteRows
    (s : State)
    (p : Row → Bool) : State :=
  { s with rows := s.rows.filter (fun r => !p r) }

def State.updateRows
    (s : State)
    (f : Row → Row) : State :=
  { s with rows := s.rows.map f }

/-- `Remove`, which stops at an invalid ID; the files `kept` cannot be removed. -/
def State.removeFiles
    (s : State)
    (ids kept : List String) : State :=
  { s with
    files :=
      s.files.filter (fun f =>
        decide (f ∈ kept) || !decide (f ∈ ids.takeWhile FileCache.validFileID)) }

def State.setWork
    (s : State)
    (id : Nat)
    (work : Work) : State :=
  { s with
    tasks :=
      s.tasks.modify (fun t => if t.id = id then { t with work } else t)
        (by intro t; split <;> rfl) }

def State.endTask
    (s : State)
    (id : Nat) : State :=
  { s with tasks := s.tasks.delete (fun t => decide (t.id = id)) }

def State.startTask
    (s : State)
    (id : Nat)
    (work : Work) : Option State :=
  (s.tasks.insert? ⟨id, work⟩).map (fun tasks => { s with tasks })

/-- Has the message an attachment that expires? -/
def hasFile (m : Message) : Bool :=
  m.attachment.any (fun a => decide (0 < a.expires))

/-- `selectAttachmentsExpiredQuery` -/
def State.listAttachmentsExpired (s : State) : List String :=
  s.idsWhere (fun r =>
    r.message.attachment.any
        (fun a => decide (0 < a.expires) && decide (a.expires ≤ s.now)) &&
      !r.attachmentDeleted)

/-- `selectMessagesExpiredQuery` -/
def State.messagesExpired (s : State) : List String :=
  s.idsWhere (fun r => decide (r.message.expires ≤ s.now) && r.published)

/-- Is the row a scheduled message of the sequence? -/
def Row.isScheduled
    (topic sequenceID : String)
    (r : Row) : Bool :=
  decide (r.message.topic = topic) && decide (r.message.sequenceID = sequenceID) &&
    !r.published

/--
`publish` is a request whose body has been handled, with its file if there is one, and
`act` one that only adds a message; `writeFails` is a file that could not be written,
and may be left.
-/
inductive Label where
  | tick (seconds : Nat)
  | publish (id : Nat) (m : Message) (cache file : Bool)
  | act (id : Nat) (m : Message)
  | writeFails (name : String) (left : Bool)
  | finish (id : Nat)
  | clear (id : Nat) (fails : Bool)
  | removeFiles (id : Nat) (kept : List String)
  | add (id : Nat) (fails : Bool)
  | tickQueue
  | commit (k : Nat) (fails : Bool)
  | deleteTopic (id : Nat) (topic : String)
  | listExpired (id : Nat)
  | deleteMessages (id : Nat) (fails : Bool)
  | listAttachments (id : Nat)
  | markDeleted (id : Nat) (fails : Bool)
  | markPublished (messageID : String)
  | expireMessages (topics : List String)
deriving Repr

/-- A step of what is in flight. -/
def stepTask
    (s : State)
    (t : Task) : Label → Option State
  | .finish _ =>
      match t.work with
      | .written _ false => some (s.endTask t.id)
      | _ => none
  | .clear _ fails =>
      match t.work with
      | .written m true =>
          if fails then
            some (s.endTask t.id)
          else
            some ((s.deleteRows (Row.isScheduled m.topic m.sequenceID)).setWork t.id
              (.cleared m (s.idsWhere (Row.isScheduled m.topic m.sequenceID))))
      | _ => none
  | .removeFiles _ kept =>
      match t.work with
      | .cleared m ids => some ((s.removeFiles ids kept).setWork t.id (.ready m))
      | .removing ids => some ((s.removeFiles ids kept).endTask t.id)
      | .expired ids => some ((s.removeFiles ids kept).setWork t.id (.deleting ids))
      | .attachmentsExpired ids =>
          some ((s.removeFiles ids kept).setWork t.id (.marking ids))
      | _ => none
  | .add _ fails =>
      match t.work with
      | .ready m =>
          match s.queue with
          | some q => some ({ s with queue := some (q.enqueue m) }.endTask t.id)
          | none =>
              if fails then
                some (s.endTask t.id)
              else
                some ({ s with rows := (s.addMessages [m]).getD s.rows }.endTask t.id)
      | _ => none
  | .deleteMessages _ fails =>
      match t.work with
      | .deleting ids =>
          if fails then
            some (s.endTask t.id)
          else
            some ((s.deleteRows (fun r => decide (r.id ∈ ids))).endTask t.id)
      | _ => none
  | .markDeleted _ fails =>
      match t.work with
      | .marking ids =>
          if fails then
            some (s.endTask t.id)
          else
            some
              ((s.updateRows (fun r =>
                if r.id ∈ ids then { r with attachmentDeleted := true } else r)).endTask
                t.id)
      | _ => none
  | _ => none

/-- The ID of a new message is fresh, and twelve random letters or digits. -/
def State.isFresh
    (s : State)
    (id : String) : Bool :=
  decide (id ∉ s.used) && FileCache.validFileID id

/--
One step; `none` if it is not enabled.  A message with a file has its attachment, and
what is cached can be stored.
-/
def step
    (s : State)
    (l : Label) : Option State :=
  match l with
  | .tick seconds => some { s with now := s.now + seconds }
  | .publish id m cache file =>
      if s.isFresh m.id && (!file || hasFile m) && (!cache || m.event.storable) then
        { s with
          files := if file then m.id :: s.files else s.files
          used := m.id :: s.used }.startTask id (.written m cache)
      else
        none
  | .act id m =>
      if s.isFresh m.id && m.event.storable then
        { s with used := m.id :: s.used }.startTask id (.ready m)
      else
        none
  | .writeFails name left =>
      if s.isFresh name then
        some
          { s with
            files := if left then name :: s.files else s.files
            used := name :: s.used }
      else
        none
  | .tickQueue =>
      match s.queue with
      | none => none
      | some q => some { s with queue := some q.tick }
  | .commit k fails =>
      match s.queue with
      | none => none
      | some q =>
          (q.dequeue k).map (fun (batch, q') =>
            { s with
              rows := if fails then s.rows else (s.addMessages batch).getD s.rows
              queue := some q' })
  | .deleteTopic id topic =>
      (s.deleteRows (fun r => decide (r.message.topic = topic))).startTask id
        (.removing (s.idsWhere (fun r => decide (r.message.topic = topic))))
  | .listExpired id => s.startTask id (.expired s.messagesExpired)
  | .listAttachments id =>
      s.startTask id (.attachmentsExpired s.listAttachmentsExpired)
  | .markPublished messageID =>
      some (s.updateRows (fun r =>
        if r.id = messageID then { r with published := true } else r))
  | .expireMessages topics =>
      some (s.updateRows (fun r =>
        if r.message.topic ∈ topics then
          { r with message := { r.message with expires := s.now - 1 } }
        else
          r))
  | .finish id | .clear id _ | .removeFiles id _ | .add id _ | .deleteMessages id _
  | .markDeleted id _ => (s.tasks.find? id).bind (fun t => stepTask s t l)

/-- A server without messages and files. -/
def initial
    (now : Nat)
    (nop : Bool)
    (queue : Option Nat) : State where
  now
  nop
  files := []
  rows := []
  queue := queue.map BatchingQueue.new
  tasks := .empty
  used := []

end Model

section Spec

/-- The message that a request is going to add. -/
def Work.message : Work → Option Message
  | .written m true | .cleared m _ | .ready m => some m
  | _ => none

/-- Files whose rows are deleted, and that are going to be removed. -/
def Work.leaving : Work → List String
  | .cleared _ ids | .removing ids => ids
  | _ => []

/-- The IDs that the work is about. -/
def Work.ids : Work → List String
  | .cleared _ ids | .removing ids | .expired ids | .deleting ids
  | .attachmentsExpired ids | .marking ids => ids
  | .written _ _ | .ready _ => []

/-- Files that are about to be removed. -/
def Work.removes : Work → List String
  | .cleared _ ids | .removing ids | .expired ids | .attachmentsExpired ids => ids
  | _ => []

/-- Files that have been removed, but whose rows do not say so yet. -/
def Work.gone : Work → List String
  | .deleting ids | .marking ids => ids
  | _ => []

/--
The file belongs to a message that is stored, and whose attachment is found by a
pruning when it has expired.
-/
def BelongsToRow
    (s : State)
    (f : String) : Prop :=
  ∃ r ∈ s.rows, r.id = f ∧ r.attachmentDeleted = false ∧
    hasFile r.message = true

/-- No file of these messages is there. -/
def NoFiles
    (s : State)
    (ms : List Message) : Prop :=
  ∀ m ∈ ms, m.id ∉ s.files

/--
A request that writes a file is cached, and there is a message cache.  A file that could
not be written is not left; nothing fails between a file and its row, and no file stays
that should be removed.
-/
def Tidy
    (s : State) : Label → Prop
  | .publish _ _ cache true => cache = true ∧ s.nop = false
  | .writeFails _ left => left = false
  | .clear id true | .add id true =>
      ∀ t ∈ s.tasks, t.id = id → NoFiles s t.work.message.toList
  | .commit k true =>
      NoFiles s ((s.queue.bind (fun q => q.dequeue k)).elim [] Prod.fst)
  | .removeFiles id kept =>
      ∀ t ∈ s.tasks, t.id = id → ∀ f ∈ t.work.removes, f ∈ kept → f ∉ s.files
  | _ => True

instance decidableNoFiles
    (s : State) (ms : List Message) :
    Decidable (NoFiles s ms) := by
  unfold NoFiles
  infer_instance

instance decidableTidy
    (s : State) (l : Label) :
    Decidable (Tidy s l) := by
  unfold Tidy
  split <;> infer_instance

end Spec

section Invariant

variable {s s' : State}
variable {t : Task}
variable {f : String}

/-- The message is in the queue, or a request is going to add it. -/
def State.IsPending
    (s : State)
    (m : Message) : Prop :=
  m ∈ s.queued ∨ ∃ t ∈ s.tasks, t.work.message = some m

/-- Where the message of a file is, or that the file is going to be removed. -/
inductive Carried (s : State) (f : String) : Prop
  | row
      (h : BelongsToRow s f) :
      Carried s f
  | pending
      {m : Message}
      (hm : s.IsPending m)
      (hid : m.id = f)
      (hfile : hasFile m = true) :
      Carried s f
  | leaving
      {t : Task}
      (ht : t ∈ s.tasks)
      (hf : f ∈ t.work.leaving) :
      Carried s f

/-- The ID has been used, and is valid. -/
def State.IsUsed
    (s : State)
    (id : String) : Prop :=
  id ∈ s.used ∧ FileCache.validFileID id = true

structure Tracked (s : State) : Prop where
  owned : ∀ f ∈ s.files, Carried s f
  gone : ∀ t ∈ s.tasks, ∀ f ∈ t.work.gone, f ∉ s.files
  rows : ∀ r ∈ s.rows, s.IsUsed r.id
  pending : ∀ m, s.IsPending m → s.IsUsed m.id ∧ m.event.storable = true
  ids : ∀ t ∈ s.tasks, ∀ f ∈ t.work.ids, s.IsUsed f
  nop : s.nop = true → s.files = []

theorem Work.gone_subset
    {w : Work}
    (h : f ∈ w.gone) :
    f ∈ w.ids := by
  cases w <;> first | exact h | cases h

theorem Work.removes_subset
    {w : Work}
    (h : f ∈ w.removes) :
    f ∈ w.ids := by
  cases w <;> first | exact h | cases h

/-- What has to be shown of a step. -/
theorem Tracked.of_changes
    (h : Tracked s)
    (hused : ∀ id ∈ s.used, id ∈ s'.used)
    (hnop : s'.nop = true → s'.files = [])
    (hfiles : ∀ f ∈ s'.files, f ∈ s.files ∨ (f ∉ s.used ∧ Carried s' f))
    (hrows : ∀ r ∈ s'.rows, (∃ q ∈ s.rows, q.id = r.id) ∨
      ∃ m, s.IsPending m ∧ m.id = r.id)
    (hpending : ∀ m, s'.IsPending m →
      s.IsPending m ∨ (s'.IsUsed m.id ∧ m.event.storable = true))
    (htasks : ∀ u ∈ s'.tasks, u ∈ s.tasks ∨
      ((∀ f ∈ u.work.ids, s'.IsUsed f) ∧ ∀ f ∈ u.work.gone, f ∉ s'.files))
    (hcarried : ∀ f ∈ s'.files, f ∈ s.files → Carried s f → Carried s' f) :
    Tracked s' := by
  have hstays : ∀ id, s.IsUsed id → s'.IsUsed id :=
    fun id hid => ⟨hused id hid.1, hid.2⟩
  refine ⟨fun f hf => ?_, fun u hu f hf hfile => ?_, fun r hr => ?_, fun m hm => ?_,
    fun u hu f hf => ?_, hnop⟩
  · rcases hfiles f hf with hold | ⟨-, hnew⟩
    · exact hcarried f hf hold (h.owned f hold)
    · exact hnew
  · rcases htasks u hu with hold | ⟨-, hgone⟩
    · rcases hfiles f hfile with hfile | ⟨hfresh, -⟩
      · exact h.gone u hold f hf hfile
      · exact hfresh (h.ids u hold f (Work.gone_subset hf)).1
    · exact hgone f hf hfile
  · rcases hrows r hr with ⟨q, hq, hid⟩ | ⟨m, hm, hid⟩
    · rw [← hid]
      exact hstays _ (h.rows q hq)
    · rw [← hid]
      exact hstays _ (h.pending m hm).1
  · rcases hpending m hm with hold | hnew
    · exact ⟨hstays _ (h.pending m hold).1, (h.pending m hold).2⟩
    · exact hnew
  · rcases htasks u hu with hold | ⟨hids, -⟩
    · exact hstays f (h.ids u hold f hf)
    · exact hids f hf

theorem mem_setWork_iff
    {w : Work} {u : Task}
    (ht : t ∈ s.tasks) :
    u ∈ (s.setWork t.id w).tasks ↔
      u = { t with work := w } ∨ (u ∈ s.tasks ∧ u.id ≠ t.id) :=
  Table.mem_modify_key_iff (by intro u; split <;> rfl) ht rfl

theorem mem_endTask_iff
    {u : Task} :
    u ∈ (s.endTask t.id).tasks ↔ u ∈ s.tasks ∧ u.id ≠ t.id := by
  simp [State.endTask]

/-- Queue and tasks only grow. -/
theorem Carried.mono
    (h : Carried s f)
    (hrow : BelongsToRow s f → Carried s' f)
    (hqueue : ∀ m ∈ s.queued, m ∈ s'.queued)
    (htasks : ∀ u ∈ s.tasks, u ∈ s'.tasks) :
    Carried s' f := by
  cases h with
  | row h =>
      exact hrow h
  | pending hm hid hfile =>
      refine .pending (hm.imp (hqueue _) ?_) hid hfile
      rintro ⟨u, hu, hm⟩
      exact ⟨u, htasks u hu, hm⟩
  | leaving ht hf =>
      exact .leaving (htasks _ ht) hf

/-- What one task did not carry is still carried when the task goes on. -/
theorem Carried.other
    (h : Carried s f)
    (ht : t ∈ s.tasks)
    (hrow : BelongsToRow s f → Carried s' f)
    (hqueued : ∀ m ∈ s.queued, m.id = f → hasFile m = true → Carried s' f)
    (htasks : ∀ u ∈ s.tasks, u.id ≠ t.id → u ∈ s'.tasks)
    (hmessage : ∀ m, t.work.message = some m → m.id = f → hasFile m = true →
      Carried s' f)
    (hleaving : f ∈ t.work.leaving → Carried s' f) :
    Carried s' f := by
  cases h with
  | row h =>
      exact hrow h
  | pending hm hid hfile =>
      rcases hm with hm | ⟨u, hu, hm⟩
      · exact hqueued _ hm hid hfile
      · by_cases hut : u.id = t.id
        · rw [Table.eq_of_key_eq hu ht hut] at hm
          exact hmessage _ hm hid hfile
        · exact .pending (Or.inr ⟨u, htasks u hu hut, hm⟩) hid hfile
  | @leaving u hu hf =>
      by_cases hut : u.id = t.id
      · rw [Table.eq_of_key_eq hu ht hut] at hf
        exact hleaving hf
      · exact .leaving (htasks u hu hut) hf

/-- A task ends, or goes on with another work. -/
theorem Tracked.advance
    (h : Tracked s)
    (ht : t ∈ s.tasks)
    (hused : s'.used = s.used)
    (hnop : s'.nop = s.nop)
    (hfiles : ∀ f ∈ s'.files, f ∈ s.files)
    (hrows : ∀ r ∈ s'.rows, (∃ q ∈ s.rows, q.id = r.id) ∨
      ∃ m, s.IsPending m ∧ m.id = r.id)
    (hqueued : ∀ m ∈ s'.queued, m ∈ s.queued ∨ t.work.message = some m)
    (hqueue : ∀ m ∈ s.queued, m ∈ s'.queued)
    (htasks : ∀ u ∈ s.tasks, u.id ≠ t.id → u ∈ s'.tasks)
    (hnew : ∀ u ∈ s'.tasks, (u ∈ s.tasks ∧ u.id ≠ t.id) ∨
      ((∀ m, u.work.message = some m → t.work.message = some m) ∧
        (∀ f ∈ u.work.ids, s.IsUsed f) ∧ ∀ f ∈ u.work.gone, f ∉ s'.files))
    (hrow : ∀ f ∈ s'.files, BelongsToRow s f → Carried s' f)
    (hmessage : ∀ m, t.work.message = some m → m.id ∈ s'.files → hasFile m = true →
      Carried s' m.id)
    (hleaving : ∀ f ∈ s'.files, f ∈ t.work.leaving → Carried s' f) :
    Tracked s' := by
  have hsame : ∀ id, s.IsUsed id → s'.IsUsed id := by
    intro id hid
    exact ⟨hused ▸ hid.1, hid.2⟩
  refine h.of_changes (fun id hid => hused ▸ hid) ?_ (fun f hf => Or.inl (hfiles f hf))
    hrows ?_ ?_ ?_
  · intro hnone
    rw [hnop] at hnone
    have hempty := h.nop hnone
    refine List.eq_nil_iff_forall_not_mem.mpr fun f hf => ?_
    have hf := hfiles f hf
    rw [hempty] at hf
    cases hf
  · rintro m (hm | ⟨u, hu, hm⟩)
    · rcases hqueued m hm with hm | hm
      · exact Or.inl (Or.inl hm)
      · exact Or.inl (Or.inr ⟨t, ht, hm⟩)
    · rcases hnew u hu with ⟨hold, -⟩ | ⟨hsame, -⟩
      · exact Or.inl (Or.inr ⟨u, hold, hm⟩)
      · exact Or.inl (Or.inr ⟨t, ht, hsame m hm⟩)
  · intro u hu
    rcases hnew u hu with ⟨hold, -⟩ | ⟨-, hids, hgone⟩
    · exact Or.inl hold
    · exact Or.inr ⟨fun f hf => hsame f (hids f hf), hgone⟩
  · intro f hf _ hcarried
    refine hcarried.other ht (hrow f hf) ?_ htasks ?_ (hleaving f hf)
    · intro m hm hid hfile
      exact .pending (Or.inl (hqueue m hm)) hid hfile
    · rintro m hm rfl hfile
      exact hmessage m hm hf hfile

/-- A task ends, and nothing else changes. -/
theorem Tracked.endTask
    (h : Tracked s)
    (ht : t ∈ s.tasks)
    (hmessage : NoFiles s t.work.message.toList)
    (hleaving : t.work.leaving = []) :
    Tracked (s.endTask t.id) := by
  have htasks : ∀ u ∈ s.tasks, u.id ≠ t.id → u ∈ (s.endTask t.id).tasks :=
    fun u hu hne => mem_endTask_iff.mpr ⟨hu, hne⟩
  refine h.advance ht rfl rfl (fun f hf => hf) (fun r hr => Or.inl ⟨r, hr, rfl⟩)
    (fun m hm => Or.inl hm) (fun m hm => hm) htasks
    (fun u hu => Or.inl (mem_endTask_iff.mp hu)) (fun f _ hrow => .row hrow) ?_ ?_
  · intro m hm hfile
    refine absurd hfile (hmessage m ?_)
    rw [hm]
    exact List.mem_cons_self
  · intro f _ hf
    rw [hleaving] at hf
    cases hf

/-- Rows that are deleted or changed keep the IDs. -/
theorem rows_deleteRows
    {p : Row → Bool} {r : Row}
    (hr : r ∈ (s.deleteRows p).rows) :
    r ∈ s.rows :=
  List.mem_of_mem_filter hr

theorem mem_idsWhere_iff
    {p : Row → Bool} :
    f ∈ s.idsWhere p ↔ ∃ r ∈ s.rows, p r = true ∧ r.id = f := by
  simp [State.idsWhere, and_assoc]

theorem Tracked.clear
    (h : Tracked s)
    (ht : t ∈ s.tasks)
    {m : Message}
    (hwork : t.work = .written m true) :
    Tracked ((s.deleteRows (Row.isScheduled m.topic m.sequenceID)).setWork t.id
      (.cleared m (s.idsWhere (Row.isScheduled m.topic m.sequenceID)))) := by
  generalize hp : Row.isScheduled m.topic m.sequenceID = p
  have ht' : t ∈ (s.deleteRows p).tasks := ht
  have hself : { t with work := .cleared m (s.idsWhere p) } ∈
      ((s.deleteRows p).setWork t.id (.cleared m (s.idsWhere p))).tasks :=
    (mem_setWork_iff ht').mpr (Or.inl rfl)
  refine h.advance ht rfl rfl (fun f hf => hf)
    (fun r hr => Or.inl ⟨r, rows_deleteRows hr, rfl⟩) (fun m hm => Or.inl hm)
    (fun m hm => hm) (fun u hu hne => (mem_setWork_iff ht').mpr (Or.inr ⟨hu, hne⟩))
    ?_ ?_ ?_ ?_
  · intro u hu
    rcases (mem_setWork_iff ht').mp hu with rfl | hold
    · refine Or.inr ⟨fun m' hm' => ?_, fun f hf => ?_, fun f hf => by cases hf⟩
      · rw [hwork]
        exact hm'
      · obtain ⟨r, hr, -, rfl⟩ := mem_idsWhere_iff.mp hf
        exact h.rows r hr
    · exact Or.inl hold
  · rintro f - ⟨r, hr, rfl, hflag, hfile⟩
    cases hscheduled : p r with
    | true =>
        exact .leaving hself (mem_idsWhere_iff.mpr ⟨r, hr, hscheduled, rfl⟩)
    | false =>
        refine .row ⟨r, List.mem_filter.mpr ⟨hr, ?_⟩, rfl, hflag, hfile⟩
        simp [hscheduled]
  · intro m' hm' _ hfile
    refine .pending (Or.inr ⟨_, hself, ?_⟩) rfl hfile
    rw [hwork] at hm'
    exact hm'
  · intro f _ hf
    rw [hwork] at hf
    cases hf

/-- What is left of the files when a list of valid IDs is removed. -/
theorem mem_removeFiles_iff
    {ids kept : List String}
    (hvalid : ∀ id ∈ ids, FileCache.validFileID id = true) :
    f ∈ (s.removeFiles ids kept).files ↔ f ∈ s.files ∧ (f ∈ kept ∨ f ∉ ids) := by
  have hall : ids.takeWhile FileCache.validFileID = ids :=
    List.takeWhile_eq_self_iff.mpr hvalid
  simp [State.removeFiles, hall]

/-- The files of a task are removed, and it goes on or ends. -/
theorem Tracked.removeFiles
    (h : Tracked s)
    (ht : t ∈ s.tasks)
    {kept : List String}
    (hkept : ∀ f ∈ t.work.removes, f ∈ kept → f ∉ s.files)
    (hframe : s'.used = s.used ∧ s'.nop = s.nop ∧ s'.rows = s.rows ∧
      s'.queue = s.queue ∧ s'.files = (s.removeFiles t.work.removes kept).files)
    (htasks : ∀ u ∈ s.tasks, u.id ≠ t.id → u ∈ s'.tasks)
    (hnew : ∀ u ∈ s'.tasks, (u ∈ s.tasks ∧ u.id ≠ t.id) ∨
      (u.work.message = t.work.message ∧ (∀ f ∈ u.work.ids, f ∈ t.work.removes) ∧
        ∀ f ∈ u.work.gone, f ∈ t.work.removes))
    (hmessage : ∀ m, t.work.message = some m → ∃ u ∈ s'.tasks, u.work.message = some m)
    (hleaving : ∀ f ∈ t.work.leaving, f ∈ t.work.removes) :
    Tracked s' := by
  obtain ⟨hused, hnop, hrows, hqueue, hfiles⟩ := hframe
  have hvalid : ∀ f ∈ t.work.removes, FileCache.validFileID f = true :=
    fun f hf => (h.ids t ht f (Work.removes_subset hf)).2
  have hmem : ∀ f ∈ s'.files, f ∈ s.files ∧ f ∉ t.work.removes := by
    intro f hf
    rw [hfiles, mem_removeFiles_iff hvalid] at hf
    refine ⟨hf.1, fun hremoved => ?_⟩
    rcases hf.2 with hkeep | hnot
    · exact hkept f hremoved hkeep hf.1
    · exact hnot hremoved
  have hqueued : s'.queued = s.queued := by rw [State.queued, State.queued, hqueue]
  refine h.advance ht hused hnop (fun f hf => (hmem f hf).1) ?_ ?_ ?_ htasks ?_ ?_ ?_ ?_
  · intro r hr
    exact Or.inl ⟨r, hrows ▸ hr, rfl⟩
  · intro m hm
    exact Or.inl (hqueued ▸ hm)
  · intro m hm
    rw [hqueued]
    exact hm
  · intro u hu
    rcases hnew u hu with hold | ⟨hsame, hids, hgone⟩
    · exact Or.inl hold
    · refine Or.inr ⟨fun m hm => hsame ▸ hm, fun f hf => ?_, fun f hf hfile => ?_⟩
      · exact h.ids t ht f (Work.removes_subset (hids f hf))
      · exact (hmem f hfile).2 (hgone f hf)
  · rintro f - ⟨r, hr, hrest⟩
    exact .row ⟨r, hrows ▸ hr, hrest⟩
  · intro m hm _ hfile
    obtain ⟨u, hu, hsame⟩ := hmessage m hm
    exact .pending (Or.inr ⟨u, hu, hsame⟩) rfl hfile
  · intro f hf hleave
    exact absurd (hleaving f hleave) (hmem f hf).2

/-- One call of `Remove`, by what the task is about. -/
theorem Tracked.stepRemoveFiles
    (h : Tracked s)
    (ht : t ∈ s.tasks)
    {kept : List String}
    (hkept : ∀ f ∈ t.work.removes, f ∈ kept → f ∉ s.files)
    (hstep : stepTask s t (.removeFiles t.id kept) = some s') :
    Tracked s' := by
  have hgoes : ∀ {ids w}, t.work.removes = ids → t.work.message = w.message →
      (∀ f ∈ w.ids, f ∈ ids) → (∀ f ∈ t.work.leaving, f ∈ ids) →
      Tracked ((s.removeFiles ids kept).setWork t.id w) := by
    rintro _ w rfl hmessage hids hleaving
    have ht' : t ∈ (s.removeFiles t.work.removes kept).tasks := ht
    refine h.removeFiles ht hkept ⟨rfl, rfl, rfl, rfl, rfl⟩
      (fun u hu hne => (mem_setWork_iff ht').mpr (Or.inr ⟨hu, hne⟩)) ?_ ?_ hleaving
    · intro u hu
      rcases (mem_setWork_iff ht').mp hu with rfl | hold
      · exact Or.inr ⟨hmessage.symm, hids, fun f hf => hids f (Work.gone_subset hf)⟩
      · exact Or.inl hold
    · intro m hm
      exact ⟨_, (mem_setWork_iff ht').mpr (Or.inl rfl), hmessage ▸ hm⟩
  simp only [stepTask] at hstep
  split at hstep
  case h_1 m ids hwork =>
    cases hstep
    exact hgoes (by rw [hwork]; rfl) (by rw [hwork]; rfl) (fun f hf => by cases hf)
      (by rw [hwork]; exact fun f hf => hf)
  case h_2 ids hwork =>
    cases hstep
    refine h.removeFiles ht hkept ⟨rfl, rfl, rfl, rfl, by rw [hwork]; rfl⟩
      (fun u hu hne => mem_endTask_iff.mpr ⟨hu, hne⟩)
      (fun u hu => Or.inl (mem_endTask_iff.mp hu)) ?_ ?_
    · intro m hm
      rw [hwork] at hm
      cases hm
    · rw [hwork]
      exact fun f hf => hf
  case h_3 ids hwork =>
    cases hstep
    exact hgoes (by rw [hwork]; rfl) (by rw [hwork]; rfl) (fun f hf => hf)
      (by rw [hwork]; intro f hf; cases hf)
  case h_4 ids hwork =>
    cases hstep
    exact hgoes (by rw [hwork]; rfl) (by rw [hwork]; rfl) (fun f hf => hf)
      (by rw [hwork]; intro f hf; cases hf)
  case h_5 =>
    cases hstep

/-- The message of a request gets into the queue. -/
theorem Tracked.enqueue
    (h : Tracked s)
    (ht : t ∈ s.tasks)
    {m : Message} {q : BatchingQueue Message}
    (hwork : t.work = .ready m)
    (hqueue : s.queue = some q) :
    Tracked ({ s with queue := some (q.enqueue m) }.endTask t.id) := by
  have hqueued : ∀ m', m' ∈ State.queued
      ({ s with queue := some (q.enqueue m) }.endTask t.id) ↔
        m' ∈ s.queued ∨ m' = m := by
    intro m'
    simp [State.queued, State.endTask, hqueue]
  refine h.advance ht rfl rfl (fun f hf => hf) (fun r hr => Or.inl ⟨r, hr, rfl⟩) ?_ ?_
    (fun u hu hne => mem_endTask_iff.mpr ⟨hu, hne⟩)
    (fun u hu => Or.inl (mem_endTask_iff.mp hu)) (fun f _ hrow => .row hrow) ?_ ?_
  · intro m' hm'
    rcases (hqueued m').mp hm' with hold | rfl
    · exact Or.inl hold
    · exact Or.inr (by rw [hwork]; rfl)
  · exact fun m' hm' => (hqueued m').mpr (Or.inl hm')
  · intro m' hm' _ hfile
    rw [hwork] at hm'
    exact .pending (Or.inl ((hqueued m').mpr (Or.inr (Option.some.inj hm').symm))) rfl
      hfile
  · intro f _ hf
    rw [hwork] at hf
    cases hf

/-- What a batch adds, if there is a message cache. -/
theorem addMessages_eq
    {ms : List Message}
    (hnop : s.nop = false)
    (hms : ∀ m ∈ ms, m.event.storable = true) :
    s.addMessages ms =
      some (s.rows ++ ms.map (fun m => ⟨m, decide (m.time ≤ s.now), false⟩)) := by
  have hall : ms.all (fun m => m.event.storable) = true := List.all_eq_true.mpr hms
  simp [State.addMessages, hnop, hall]

theorem rows_addMessages
    {ms : List Message} {r : Row}
    (hr : r ∈ (s.addMessages ms).getD s.rows) :
    r ∈ s.rows ∨ ∃ m ∈ ms, m.id = r.id := by
  unfold State.addMessages at hr
  split at hr
  · exact Or.inl hr
  · split at hr
    · rcases List.mem_append.mp hr with hold | hnew
      · exact Or.inl hold
      · obtain ⟨m, hm, rfl⟩ := List.mem_map.mp hnew
        exact Or.inr ⟨m, hm, rfl⟩
    · exact Or.inl hr

/-- A file whose message is in the batch belongs to a row afterwards. -/
theorem BelongsToRow.of_added
    (h : Tracked s)
    {ms : List Message}
    (hms : ∀ m ∈ ms, m.event.storable = true)
    (hrows : s'.rows = (s.addMessages ms).getD s.rows)
    {m : Message}
    (hm : m ∈ ms)
    (hthere : m.id ∈ s.files)
    (hfile : hasFile m = true) :
    BelongsToRow s' m.id := by
  have hnop : s.nop = false := by
    by_contra hnop
    rw [h.nop (Bool.not_eq_false _ ▸ hnop)] at hthere
    cases hthere
  rw [addMessages_eq hnop hms, Option.getD_some] at hrows
  refine ⟨⟨m, decide (m.time ≤ s.now), false⟩, ?_, rfl, rfl, hfile⟩
  rw [hrows]
  exact List.mem_append_right _ (List.mem_map.mpr ⟨m, hm, rfl⟩)

/-- A row stays where messages are added. -/
theorem BelongsToRow.of_old
    (h : BelongsToRow s f)
    {ms : List Message}
    (hrows : s'.rows = (s.addMessages ms).getD s.rows) :
    BelongsToRow s' f := by
  obtain ⟨r, hr, hrest⟩ := h
  refine ⟨r, ?_, hrest⟩
  rw [hrows]
  unfold State.addMessages
  split
  · exact hr
  · split
    · exact List.mem_append_left _ hr
    · exact hr

/-- The message of a request is stored. -/
theorem Tracked.add
    (h : Tracked s)
    (ht : t ∈ s.tasks)
    {m : Message}
    (hwork : t.work = .ready m) :
    Tracked ({ s with rows := (s.addMessages [m]).getD s.rows }.endTask t.id) := by
  have hmessage : t.work.message = some m := by rw [hwork]; rfl
  have hstorable : ∀ m' ∈ [m], m'.event.storable = true := by
    intro m' hm'
    rw [List.mem_singleton.mp hm']
    exact (h.pending m (Or.inr ⟨t, ht, hmessage⟩)).2
  refine h.advance ht rfl rfl (fun f hf => hf) ?_ (fun m' hm' => Or.inl hm')
    (fun m' hm' => hm') (fun u hu hne => mem_endTask_iff.mpr ⟨hu, hne⟩)
    (fun u hu => Or.inl (mem_endTask_iff.mp hu)) ?_ ?_ ?_
  · intro r hr
    rcases rows_addMessages hr with hold | ⟨m', hm', hid⟩
    · exact Or.inl ⟨r, hold, rfl⟩
    · rw [List.mem_singleton.mp hm'] at hid
      exact Or.inr ⟨m, Or.inr ⟨t, ht, hmessage⟩, hid⟩
  · exact fun f _ hrow => .row (hrow.of_old rfl)
  · intro m' hm' hthere hfile
    rw [hmessage] at hm'
    have hmem : m' ∈ [m] := List.mem_singleton.mpr (Option.some.inj hm').symm
    exact .row (.of_added h hstorable rfl hmem hthere hfile)
  · intro f _ hf
    rw [hwork] at hf
    cases hf

/-- Rows of files that have been removed are deleted, or marked. -/
theorem Tracked.finishRows
    (h : Tracked s)
    (ht : t ∈ s.tasks)
    {ids : List String} {rows : List Row}
    (hgone : t.work.gone = ids)
    (hmessage : t.work.message = none)
    (hleaving : t.work.leaving = [])
    (hold : ∀ r ∈ rows, ∃ q ∈ s.rows, q.id = r.id)
    (hkept : ∀ r ∈ s.rows, r.id ∉ ids → r ∈ rows) :
    Tracked ({ s with rows }.endTask t.id) := by
  refine h.advance ht rfl rfl (fun f hf => hf) (fun r hr => Or.inl (hold r hr))
    (fun m hm => Or.inl hm) (fun m hm => hm)
    (fun u hu hne => mem_endTask_iff.mpr ⟨hu, hne⟩)
    (fun u hu => Or.inl (mem_endTask_iff.mp hu)) ?_ ?_ ?_
  · rintro f hf ⟨r, hr, rfl, hrest⟩
    refine .row ⟨r, hkept r hr fun hid => ?_, rfl, hrest⟩
    exact h.gone t ht r.id (hgone ▸ hid) hf
  · intro m hm
    rw [hmessage] at hm
    cases hm
  · intro f _ hf
    rw [hleaving] at hf
    cases hf

/-- A batch is written. -/
theorem Tracked.commit
    (h : Tracked s)
    {k : Nat} {q q' : BatchingQueue Message} {batch : List Message} {fails : Bool}
    (hqueue : s.queue = some q)
    (hbatch : q.dequeue k = some (batch, q'))
    (hnone : fails = true → NoFiles s batch) :
    Tracked
      { s with
        rows := if fails then s.rows else (s.addMessages batch).getD s.rows
        queue := some q' } := by
  have hqueued : s.queued = q.contents := by simp [State.queued, hqueue]
  have hcontents : ∀ m, m ∈ s.queued ↔ m ∈ batch ∨ m ∈ q'.contents := by
    intro m
    rw [hqueued, ← (BatchingQueue.perm_dequeue hbatch).1.mem_iff, List.mem_append]
  have hpending : ∀ m ∈ batch, s.IsPending m :=
    fun m hm => Or.inl ((hcontents m).mpr (Or.inl hm))
  have hstorable : ∀ m ∈ batch, m.event.storable = true :=
    fun m hm => (h.pending m (hpending m hm)).2
  refine h.of_changes (fun id hid => hid) h.nop (fun f hf => Or.inl hf) ?_ ?_
    (fun u hu => Or.inl hu) ?_
  · intro r hr
    dsimp only at hr
    split at hr
    · exact Or.inl ⟨r, hr, rfl⟩
    · rcases rows_addMessages hr with hold | ⟨m, hm, hid⟩
      · exact Or.inl ⟨r, hold, rfl⟩
      · exact Or.inr ⟨m, hpending m hm, hid⟩
  · rintro m (hm | hm)
    · exact Or.inl (Or.inl ((hcontents m).mpr (Or.inr hm)))
    · exact Or.inl (Or.inr hm)
  · intro f hf _ hcarried
    cases hcarried with
    | row hrow =>
        cases fails with
        | true =>
            exact .row hrow
        | false =>
            exact .row (hrow.of_old rfl)
    | pending hm hid hfile =>
        rcases hm with hm | hm
        · rcases (hcontents _).mp hm with hmem | hmem
          · cases fails with
            | true =>
                exact absurd (hid ▸ hf) (hnone rfl _ hmem)
            | false =>
                subst hid
                exact .row (.of_added h hstorable rfl hmem hf hfile)
          · exact .pending (Or.inl hmem) hid hfile
        · exact .pending (Or.inr hm) hid hfile
    | leaving ht hf =>
        exact .leaving ht hf

theorem startTask_eq_some
    {id : Nat} {w : Work}
    (h : s.startTask id w = some s') :
    s' = { s with tasks := s'.tasks } ∧
      ∀ u, u ∈ s'.tasks ↔ u ∈ s.tasks ∨ u = ⟨id, w⟩ := by
  obtain ⟨tasks, hinsert, rfl⟩ := Option.map_eq_some_iff.mp h
  exact ⟨rfl, fun u => Table.mem_insert?_iff hinsert⟩

/-- A fresh ID has not been used. -/
theorem isFresh_iff
    {id : String} :
    s.isFresh id = true ↔ id ∉ s.used ∧ FileCache.validFileID id = true := by
  simp [State.isFresh]

/-- A pruning or a deletion begins with the IDs of some rows. -/
theorem Tracked.list
    (h : Tracked s)
    {id : Nat} {w : Work}
    (hmessage : w.message = none)
    (hgone : w.gone = [])
    (hids : ∀ f ∈ w.ids, ∃ r ∈ s.rows, r.id = f)
    (hstart : s.startTask id w = some s') :
    Tracked s' := by
  obtain ⟨hs', htasks⟩ := startTask_eq_some hstart
  have hmore : ∀ u ∈ s.tasks, u ∈ s'.tasks := fun u hu => (htasks u).mpr (Or.inl hu)
  rw [hs']
  refine h.of_changes (fun id hid => hid) h.nop (fun f hf => Or.inl hf)
    (fun r hr => Or.inl ⟨r, hr, rfl⟩) ?_ ?_
    (fun f _ _ hf => hf.mono (fun hrow => .row hrow) (fun m hm => hm) hmore)
  · rintro m (hm | ⟨u, hu, hm⟩)
    · exact Or.inl (Or.inl hm)
    · rcases (htasks u).mp hu with hold | rfl
      · exact Or.inl (Or.inr ⟨u, hold, hm⟩)
      · rw [hmessage] at hm
        cases hm
  · intro u hu
    rcases (htasks u).mp hu with hold | rfl
    · exact Or.inl hold
    · refine Or.inr ⟨fun f hf => ?_, fun f hf => ?_⟩
      · obtain ⟨r, hr, rfl⟩ := hids f hf
        exact h.rows r hr
      · rw [hgone] at hf
        cases hf

/-- The rows of a topic are deleted, and their files are going to be removed. -/
theorem Tracked.deleteTopic
    (h : Tracked s)
    {id : Nat} {p : Row → Bool}
    (hstart : (s.deleteRows p).startTask id (.removing (s.idsWhere p)) = some s') :
    Tracked s' := by
  obtain ⟨hs', htasks⟩ := startTask_eq_some hstart
  have hself : ⟨id, .removing (s.idsWhere p)⟩ ∈ s'.tasks := (htasks _).mpr (Or.inr rfl)
  rw [hs']
  refine h.of_changes (fun id hid => hid) h.nop (fun f hf => Or.inl hf)
    (fun r hr => Or.inl ⟨r, rows_deleteRows hr, rfl⟩) ?_ ?_ ?_
  · rintro m (hm | ⟨u, hu, hm⟩)
    · exact Or.inl (Or.inl hm)
    · rcases (htasks u).mp hu with hold | rfl
      · exact Or.inl (Or.inr ⟨u, hold, hm⟩)
      · cases hm
  · intro u hu
    rcases (htasks u).mp hu with hold | rfl
    · exact Or.inl hold
    · refine Or.inr ⟨fun f hf => ?_, fun f hf => by cases hf⟩
      obtain ⟨r, hr, -, rfl⟩ := mem_idsWhere_iff.mp hf
      exact h.rows r hr
  · intro f _ _ hcarried
    refine hcarried.mono ?_ (fun m hm => hm) (fun u hu => (htasks u).mpr (Or.inl hu))
    rintro ⟨r, hr, rfl, hrest⟩
    cases hp : p r with
    | true =>
        exact .leaving hself (mem_idsWhere_iff.mpr ⟨r, hr, hp, rfl⟩)
    | false =>
        exact .row ⟨r, List.mem_filter.mpr ⟨hr, by simp [hp]⟩, rfl, hrest⟩

/-- A message comes into being, and its file if it has one. -/
theorem Tracked.create
    (h : Tracked s)
    {id : Nat} {w : Work} {m : Message} {files : List String}
    (hfresh : s.isFresh m.id = true)
    (hmessage : ∀ m', w.message = some m' → m' = m ∧ m.event.storable = true)
    (hids : w.ids = [])
    (hfiles : files = s.files ∨
      (files = m.id :: s.files ∧ w.message = some m ∧ hasFile m = true ∧ s.nop = false))
    (hstart : { s with files, used := m.id :: s.used }.startTask id w = some s') :
    Tracked s' := by
  obtain ⟨hs', htasks⟩ := startTask_eq_some hstart
  obtain ⟨hunused, hvalid⟩ := isFresh_iff.mp hfresh
  have hself : ⟨id, w⟩ ∈ s'.tasks := (htasks _).mpr (Or.inr rfl)
  have hused : s'.IsUsed m.id := by
    rw [hs']
    exact ⟨List.mem_cons_self, hvalid⟩
  rw [hs'] at hused ⊢
  refine h.of_changes (fun id hid => List.mem_cons_of_mem _ hid) ?_ ?_
    (fun r hr => Or.inl ⟨r, hr, rfl⟩) ?_ ?_ ?_
  · intro hnop
    rcases hfiles with rfl | ⟨-, -, -, hcache⟩
    · exact h.nop hnop
    · exact absurd hnop (by simp [hcache])
  · intro f hf
    rcases hfiles with rfl | ⟨rfl, hm, hfile, -⟩
    · exact Or.inl hf
    · rcases List.mem_cons.mp hf with rfl | hold
      · exact Or.inr ⟨hunused, .pending (Or.inr ⟨_, hself, hm⟩) rfl hfile⟩
      · exact Or.inl hold
  · rintro m' (hm' | ⟨u, hu, hm'⟩)
    · exact Or.inl (Or.inl hm')
    · rcases (htasks u).mp hu with hold | rfl
      · exact Or.inl (Or.inr ⟨u, hold, hm'⟩)
      · obtain ⟨rfl, hstorable⟩ := hmessage m' hm'
        exact Or.inr ⟨hused, hstorable⟩
  · intro u hu
    rcases (htasks u).mp hu with hold | rfl
    · exact Or.inl hold
    · refine Or.inr ⟨fun f hf => ?_, fun f hf => ?_⟩
      · rw [hids] at hf
        cases hf
      · have hf := Work.gone_subset hf
        rw [hids] at hf
        cases hf
  · intro f _ _ hcarried
    exact hcarried.mono (fun hrow => .row hrow) (fun m hm => hm)
      (fun u hu => (htasks u).mpr (Or.inl hu))

/-- Rows change, but not their attachments. -/
theorem Tracked.updateRows
    (h : Tracked s)
    {g : Row → Row}
    (hid : ∀ r, (g r).id = r.id)
    (hattachment : ∀ r, (g r).message.attachment = r.message.attachment)
    (hflag : ∀ r, (g r).attachmentDeleted = r.attachmentDeleted) :
    Tracked (s.updateRows g) := by
  refine h.of_changes (fun id hid => hid) h.nop (fun f hf => Or.inl hf) ?_
    (fun m hm => Or.inl hm) (fun u hu => Or.inl hu) ?_
  · intro r hr
    obtain ⟨q, hq, rfl⟩ := List.mem_map.mp hr
    exact Or.inl ⟨q, hq, (hid q).symm⟩
  · intro f _ _ hcarried
    refine hcarried.mono ?_ (fun m hm => hm) (fun u hu => hu)
    rintro ⟨r, hr, rfl, hdeleted, hfile⟩
    refine .row ⟨g r, List.mem_map.mpr ⟨r, hr, rfl⟩, hid r, ?_, ?_⟩
    · rw [hflag, hdeleted]
    · rw [hasFile, hattachment]
      exact hfile

/-- What is neither files nor rows, nor in flight, does not matter. -/
theorem Tracked.congr
    (h : Tracked s)
    {now : Nat} {queue : Option (BatchingQueue Message)} {used : List String}
    (hqueue : ∀ m, m ∈ State.queued { s with queue } ↔ m ∈ s.queued)
    (hused : ∀ id ∈ s.used, id ∈ used) :
    Tracked { s with now, queue, used } := by
  refine h.of_changes hused h.nop (fun f hf => Or.inl hf)
    (fun r hr => Or.inl ⟨r, hr, rfl⟩) ?_ (fun u hu => Or.inl hu) ?_
  · rintro m (hm | hm)
    · exact Or.inl (Or.inl ((hqueue m).mp hm))
    · exact Or.inl (Or.inr hm)
  · intro f _ _ hcarried
    exact hcarried.mono (fun hrow => .row hrow) (fun m hm => (hqueue m).mpr hm)
      (fun u hu => hu)

/-- Every tidy step keeps track of all files. -/
theorem Tracked.step
    (h : Tracked s)
    {l : Label}
    (htidy : Tidy s l)
    (hstep : Attachments.step s l = some s') :
    Tracked s' := by
  cases l with
  | tick seconds =>
      cases hstep
      exact h.congr (fun m => Iff.rfl) (fun id hid => hid)
  | publish id m cache file =>
      simp only [Attachments.step, Option.ite_none_right_eq_some, Bool.and_eq_true,
        Bool.or_eq_true, Bool.not_eq_true'] at hstep
      obtain ⟨⟨⟨hfresh, hfile⟩, hstorable⟩, hstart⟩ := hstep
      refine h.create hfresh ?_ ?_ ?_ hstart
      · intro m' hm'
        cases cache with
        | true =>
            exact ⟨(Option.some.inj hm').symm, by simpa using hstorable⟩
        | false =>
            cases hm'
      · cases cache <;> rfl
      · cases file with
        | true =>
            obtain ⟨rfl, hnop⟩ := htidy
            exact Or.inr ⟨rfl, rfl, by simpa using hfile, hnop⟩
        | false =>
            exact Or.inl rfl
  | act id m =>
      simp only [Attachments.step, Option.ite_none_right_eq_some, Bool.and_eq_true]
        at hstep
      obtain ⟨⟨hfresh, hstorable⟩, hstart⟩ := hstep
      refine h.create hfresh (w := .ready m) ?_ rfl (Or.inl rfl) hstart
      exact fun m' hm' => ⟨(Option.some.inj hm').symm, hstorable⟩
  | writeFails name left =>
      simp only [Attachments.step, Option.ite_none_right_eq_some] at hstep
      obtain ⟨-, ⟨⟩⟩ := hstep
      cases htidy
      exact h.congr (fun m => Iff.rfl) (fun id hid => List.mem_cons_of_mem _ hid)
  | finish id =>
      obtain ⟨t, hfind, hstep⟩ := Option.bind_eq_some_iff.mp hstep
      obtain ⟨ht, rfl⟩ := Table.find?_eq_some_iff.mp hfind
      simp only [stepTask] at hstep
      split at hstep
      case h_1 m hwork =>
        cases hstep
        exact h.endTask ht (by rw [hwork]; intro m' hm'; cases hm') (by rw [hwork]; rfl)
      case h_2 =>
        cases hstep
  | clear id fails =>
      obtain ⟨t, hfind, hstep⟩ := Option.bind_eq_some_iff.mp hstep
      obtain ⟨ht, rfl⟩ := Table.find?_eq_some_iff.mp hfind
      simp only [stepTask] at hstep
      split at hstep
      case h_1 m hwork =>
        cases fails with
        | true =>
            cases hstep
            exact h.endTask ht (htidy t ht rfl) (by rw [hwork]; rfl)
        | false =>
            cases hstep
            exact h.clear ht hwork
      case h_2 =>
        cases hstep
  | removeFiles id kept =>
      obtain ⟨t, hfind, hstep⟩ := Option.bind_eq_some_iff.mp hstep
      obtain ⟨ht, rfl⟩ := Table.find?_eq_some_iff.mp hfind
      exact h.stepRemoveFiles ht (htidy t ht rfl) hstep
  | add id fails =>
      obtain ⟨t, hfind, hstep⟩ := Option.bind_eq_some_iff.mp hstep
      obtain ⟨ht, rfl⟩ := Table.find?_eq_some_iff.mp hfind
      simp only [stepTask] at hstep
      split at hstep
      case h_1 m hwork =>
        split at hstep
        case h_1 q hqueue =>
          cases hstep
          exact h.enqueue ht hwork hqueue
        case h_2 hqueue =>
          cases fails with
          | true =>
              cases hstep
              exact h.endTask ht (htidy t ht rfl) (by rw [hwork]; rfl)
          | false =>
              cases hstep
              exact h.add ht hwork
      case h_2 =>
        cases hstep
  | tickQueue =>
      simp only [Attachments.step] at hstep
      split at hstep
      case h_1 =>
        cases hstep
      case h_2 q hqueue =>
        cases hstep
        refine h.congr (fun m => ?_) (fun id hid => hid)
        simp [State.queued, hqueue]
  | commit k fails =>
      simp only [Attachments.step] at hstep
      split at hstep
      case h_1 =>
        cases hstep
      case h_2 q hqueue =>
        obtain ⟨⟨batch, q'⟩, hbatch, rfl⟩ := Option.map_eq_some_iff.mp hstep
        refine h.commit hqueue hbatch fun hfails => ?_
        subst hfails
        simp only [Tidy, hqueue, Option.bind_some, hbatch, Option.elim_some] at htidy
        exact htidy
  | deleteTopic id topic =>
      exact h.deleteTopic hstep
  | listExpired id =>
      refine h.list rfl rfl (fun f hf => ?_) hstep
      obtain ⟨r, hr, -, hid⟩ := mem_idsWhere_iff.mp hf
      exact ⟨r, hr, hid⟩
  | listAttachments id =>
      refine h.list rfl rfl (fun f hf => ?_) hstep
      obtain ⟨r, hr, -, hid⟩ := mem_idsWhere_iff.mp hf
      exact ⟨r, hr, hid⟩
  | deleteMessages id fails =>
      obtain ⟨t, hfind, hstep⟩ := Option.bind_eq_some_iff.mp hstep
      obtain ⟨ht, rfl⟩ := Table.find?_eq_some_iff.mp hfind
      simp only [stepTask] at hstep
      split at hstep
      case h_1 ids hwork =>
        cases fails with
        | true =>
            cases hstep
            exact h.endTask ht (by rw [hwork]; intro m' hm'; cases hm')
              (by rw [hwork]; rfl)
        | false =>
            cases hstep
            have hgone : t.work.gone = ids := by rw [hwork]; rfl
            refine h.finishRows ht hgone (by rw [hwork]; rfl) (by rw [hwork]; rfl)
              (fun r hr => ⟨r, List.mem_of_mem_filter hr, rfl⟩)
              (fun r hr hid => List.mem_filter.mpr ⟨hr, by simpa using hid⟩)
      case h_2 =>
        cases hstep
  | markDeleted id fails =>
      obtain ⟨t, hfind, hstep⟩ := Option.bind_eq_some_iff.mp hstep
      obtain ⟨ht, rfl⟩ := Table.find?_eq_some_iff.mp hfind
      simp only [stepTask] at hstep
      split at hstep
      case h_1 ids hwork =>
        cases fails with
        | true =>
            cases hstep
            exact h.endTask ht (by rw [hwork]; intro m' hm'; cases hm')
              (by rw [hwork]; rfl)
        | false =>
            cases hstep
            have hgone : t.work.gone = ids := by rw [hwork]; rfl
            refine h.finishRows ht hgone (by rw [hwork]; rfl) (by rw [hwork]; rfl)
              (fun r hr => ?_) (fun r hr hid => ?_)
            · obtain ⟨q, hq, rfl⟩ := List.mem_map.mp hr
              refine ⟨q, hq, ?_⟩
              split <;> rfl
            · exact List.mem_map.mpr ⟨r, hr, if_neg hid⟩
      case h_2 =>
        cases hstep
  | markPublished messageID =>
      cases hstep
      refine h.updateRows ?_ ?_ ?_ <;>
        (intro r; split <;> rfl)
  | expireMessages topics =>
      cases hstep
      refine h.updateRows ?_ ?_ ?_ <;>
        (intro r; split <;> rfl)

theorem tracked_initial
    (now : Nat) (nop : Bool) (queue : Option Nat) :
    Tracked (initial now nop queue) := by
  have hqueued : (initial now nop queue).queued = [] := by
    cases queue <;> rfl
  have hpending : ∀ m, ¬(initial now nop queue).IsPending m := by
    rintro m (hm | ⟨t, ht, -⟩)
    · rw [hqueued] at hm
      cases hm
    · cases ht
  refine ⟨?_, ?_, ?_, fun m hm => (hpending m hm).elim, ?_, fun _ => rfl⟩
  · exact fun f hf => (List.not_mem_nil hf).elim
  · exact fun t ht => (Table.not_mem_empty t ht).elim
  · exact fun r hr => (List.not_mem_nil hr).elim
  · exact fun t ht => (Table.not_mem_empty t ht).elim

theorem tracked_of_run
    {now : Nat} {nop : Bool} {queue : Option Nat} {ls : List Label}
    (htidy : Along Attachments.step Tidy (initial now nop queue) ls)
    (hrun : run Attachments.step (initial now nop queue) ls = some s) :
    Tracked s :=
  run_invariant_along (fun _ _ _ hs htidy hstep => hs.step htidy hstep)
    (tracked_initial now nop queue) htidy hrun

/-- The file of a row is found by a pruning when its attachment has expired. -/
theorem BelongsToRow.listed
    (h : BelongsToRow s f) :
    ∃ expiry, ∀ now, expiry ≤ now →
      f ∈ State.listAttachmentsExpired { s with now } := by
  obtain ⟨r, hr, rfl, hflag, hfile⟩ := h
  obtain ⟨a, ha, hexpires⟩ := Option.any_eq_true _ _ |>.mp hfile
  refine ⟨a.expires, fun now hnow => mem_idsWhere_iff.mpr ⟨r, hr, ?_, rfl⟩⟩
  rw [decide_eq_true_eq] at hexpires
  simp [ha, hflag, hexpires, hnow]

/--
In every run whose steps are tidy, when no request is in flight and the queue is empty,
every file belongs to a message, by which a pruning finds it after some time.
-/
theorem no_orphaned_files
    {now : Nat} {nop : Bool} {queue : Option Nat} {ls : List Label}
    (htidy : Along Attachments.step Tidy (initial now nop queue) ls)
    (hrun : run Attachments.step (initial now nop queue) ls = some s)
    (hquiet : s.tasks.rows = [])
    (hqueue : s.queued = [])
    (hf : f ∈ s.files) :
    BelongsToRow s f ∧
      ∃ expiry, ∀ now, expiry ≤ now →
        f ∈ State.listAttachmentsExpired { s with now } := by
  suffices h : BelongsToRow s f from ⟨h, h.listed⟩
  have hnone : ∀ t, t ∉ s.tasks := by
    intro t ht
    rw [Table.mem_def, hquiet] at ht
    cases ht
  cases (tracked_of_run htidy hrun).owned f hf with
  | row hrow =>
      exact hrow
  | pending hm _ _ =>
      rcases hm with hm | ⟨t, ht, -⟩
      · rw [hqueue] at hm
        cases hm
      · exact (hnone t ht).elim
  | leaving ht _ =>
      exact (hnone _ ht).elim

end Invariant

section Examples

/-- A message with an attachment of five bytes. -/
def exampleMessage (id : String) : Message :=
  { newDefaultMessage id 100 "news" "You received a file: notes.txt" with
    sequenceID := id
    expires := 1000
    attachment := some ⟨"notes.txt", "text/plain", 5, 500, ""⟩ }

/-- The message is published, and stored. -/
def publishedRun
    (file cache : Bool)
    (id : String) : List Label :=
  [.publish 1 (exampleMessage id) cache file, .clear 1 false, .removeFiles 1 [],
    .add 1 false]

/-- One file is published, and pruned when it has expired; then there is another one. -/
theorem published_example :
    ∃ s, run step (initial 100 false none)
        (publishedRun true true "aaaaaaaaaaaa" ++
          [.tick 400, .listAttachments 2, .removeFiles 2 [], .markDeleted 2 false] ++
          publishedRun true true "bbbbbbbbbbbb") = some s ∧
      BelongsToRow s "bbbbbbbbbbbb" ∧
        ∃ expiry, ∀ now, expiry ≤ now →
          "bbbbbbbbbbbb" ∈ State.listAttachmentsExpired { s with now } := by
  have htidy : Along step Tidy (initial 100 false none)
      (publishedRun true true "aaaaaaaaaaaa" ++
        [.tick 400, .listAttachments 2, .removeFiles 2 [], .markDeleted 2 false] ++
        publishedRun true true "bbbbbbbbbbbb") := by
    decide
  have hend : (run step (initial 100 false none)
      (publishedRun true true "aaaaaaaaaaaa" ++
        [.tick 400, .listAttachments 2, .removeFiles 2 [], .markDeleted 2 false] ++
        publishedRun true true "bbbbbbbbbbbb")).any (fun s =>
          decide (s.tasks.rows = []) && decide (s.queued = []) &&
            decide (s.files = ["bbbbbbbbbbbb"])) = true := by
    decide
  obtain ⟨s, hs, hend⟩ := Option.any_eq_true _ _ |>.mp hend
  simp only [Bool.and_eq_true, decide_eq_true_eq] at hend
  obtain ⟨⟨hquiet, hqueue⟩, hfiles⟩ := hend
  exact ⟨s, hs, no_orphaned_files htidy hs hquiet hqueue (hfiles ▸ List.mem_cons_self)⟩

/-- What is in flight, the files, and the IDs of the rows. -/
def summary (s : State) : Nat × List String × List String :=
  (s.tasks.rows.length + s.queued.length, s.files, s.rows.map Row.id)

/--
Runs that leave a file without a message: the request is not cached, the message cannot
be stored, there is no message cache, or a file of a pruned message cannot be removed.
-/
theorem files_orphaned :
    (run step (initial 100 false none)
        [.publish 1 (exampleMessage "aaaaaaaaaaaa") false true, .finish 1]).map summary =
        some (0, ["aaaaaaaaaaaa"], []) ∧
      (run step (initial 100 false none)
        [.publish 1 (exampleMessage "aaaaaaaaaaaa") true true, .clear 1 false,
          .removeFiles 1 [], .add 1 true]).map summary =
        some (0, ["aaaaaaaaaaaa"], []) ∧
      (run step (initial 100 true none)
        (publishedRun true true "aaaaaaaaaaaa")).map summary =
        some (0, ["aaaaaaaaaaaa"], []) ∧
      (run step (initial 100 false none)
        (publishedRun true true "aaaaaaaaaaaa" ++
          [.tick 900, .listExpired 2, .removeFiles 2 ["aaaaaaaaaaaa"],
            .deleteMessages 2 false])).map summary =
        some (0, ["aaaaaaaaaaaa"], []) := by
  refine ⟨?_, ?_, ?_, ?_⟩ <;> decide

end Examples

end Attachments

end Server
end CoopMessenger
