import CoopMessenger.Library.Runs
import CoopMessenger.Server.Disclosure
import CoopMessenger.Server.FailedPublishes
import CoopMessenger.Server.Scheduling
import CoopMessenger.Server.StoredCopies

/-!
# Attachments that are not to expire

Publishes with their files, the queue of the message cache, the manager that prunes
attachments and messages, and downloads.  A visitor whose attachments expire after no time
at all is one whose attachments are to be kept; the time of expiry that an upload gets is
the time of the upload.

**Results.**
* `handlePublishBody_attachment`: where the attachment of a message comes from.
* `Sound.step`: what steps preserve as long as attachments are spared.
* `kept_along_iff`: in which runs attachments are kept.
-/

namespace CoopMessenger
namespace Server

open Library Manager Util

namespace KeptAttachments

open Publish (Parsers Config Visit Request Params)
open FailedPublishes (Circumstances)

section Model

/--
The clock, the IDs of the messages whose attachment is marked as deleted, and, only
recorded, the IDs used and those of the messages whose attachment is not to expire.
-/
structure Ledger where
  now : Nat
  attachmentsDeleted : List String
  used : List String
  forever : List String

structure State extends Ledger where
  store : FailedPublishes.State

/--
One second passes or more; a request is handled; the first messages of the queue are
stored; the delayed sender has sent a message; the manager prunes; a file is downloaded.
-/
inductive Label where
  | tick (seconds : Nat)
  | publish (v : Visit) (req : Request) (x : Circumstances) (topic : String)
  | commit (k : Nat)
  | markPublished (id : String)
  | pruneAttachments
  | pruneMessages
  | download (id : String)

/-- The messages of the rows. -/
def stored (st : FailedPublishes.State) : List Message :=
  st.cache.rows.map StoredMessage.message

def queued (st : FailedPublishes.State) : List Message :=
  st.queue.getD []

/-- `Remove` of the file cache, which stops at an invalid ID. -/
def removeFiles
    (st : FailedPublishes.State)
    (ids : List String) : FailedPublishes.State :=
  { st with
    files := st.files.filter fun f => !decide (f ∈ ids.takeWhile FileCache.validFileID) }

/-- `selectAttachmentsExpiredQuery` -/
def attachmentsExpired (s : State) : List String :=
  ((stored s.store).filter fun m =>
    m.attachment.any (fun a => decide (0 < a.expires) && decide (a.expires ≤ s.now)) &&
      !decide (m.id ∈ s.attachmentsDeleted)).map Message.id

def pruneAttachments (s : State) : State :=
  { s with
    store := removeFiles s.store (attachmentsExpired s)
    attachmentsDeleted := attachmentsExpired s ++ s.attachmentsDeleted }

def pruneMessages (s : State) : State :=
  let ids := s.store.cache.messagesExpired s.now
  let st := removeFiles s.store ids
  { s with store := { st with cache := st.cache.deleteMessages ids } }

/-- The batch is stored in one transaction, or it is lost. -/
def commit
    (s : State)
    (k : Nat)
    (q : List Message) : State :=
  let cache :=
    match s.store.cache.addMessages s.now (q.take k) with
    | .ok cache => cache
    | .error _ => s.store.cache
  { s with store := { s.store with cache, queue := some (q.drop k) } }

/-- The request reads the clock, and its IDs are new, and twelve random letters or digits. -/
def isFresh
    (s : State)
    (v : Visit) : Bool :=
  decide (v.now = s.now) && decide (v.messageID ∉ s.used) &&
    decide (v.pollRequestID ∉ s.used) && FileCache.validFileID v.messageID &&
    FileCache.validFileID v.pollRequestID

/-- The IDs of a request are recorded. -/
def Ledger.record
    (l : Ledger)
    (v : Visit) : Ledger :=
  { l with
    used := v.messageID :: v.pollRequestID :: l.used
    forever :=
      if v.limits.attachmentExpiryDuration = 0 then v.messageID :: l.forever
      else l.forever }

variable (P : Parsers)
variable (cfg : Config)

/-- One step; `none` if it is not enabled. -/
def step
    (s : State) : Label → Option State
  | .tick seconds => some { s with now := s.now + seconds }
  | .publish v req x topic =>
      if isFresh s v then
        some
          { toLedger := s.toLedger.record v
            store := (FailedPublishes.handlePublishInternal P cfg v req x topic s.store).2 }
      else
        none
  | .commit k => s.store.queue.map (commit s k)
  | .markPublished id =>
      some { s with store := { s.store with cache := s.store.cache.markPublished id } }
  | .pruneAttachments => some (pruneAttachments s)
  | .pruneMessages => some (pruneMessages s)
  | .download _ => some s

end Model

section Spec

/-- Has the message a file that is not to expire?  External attachments have no time. -/
def Ledger.IsForever
    (l : Ledger)
    (m : Message)
    (a : Attachment) : Prop :=
  m.id ∈ l.forever ∧ m.attachment = some a ∧ 0 < a.expires

/-- What the sender of the message uses of the attachment quota. -/
def bytesUsedBySender
    (now : Nat)
    (c : MessageCache)
    (m : Message) : Nat :=
  if m.user = "" then
    c.attachmentBytesUsedBySender now m.sender
  else
    c.attachmentBytesUsedByUser now m.user

/-- With the row, the sender uses as much more as the attachment is large. -/
def Counts
    (now : Nat)
    (c : MessageCache)
    (r : StoredMessage)
    (a : Attachment) : Prop :=
  bytesUsedBySender now c r.message =
    a.size + bytesUsedBySender now (c.filter fun r' => decide (r'.rowID ≠ r.rowID)) r.message

/-- Every attachment that is not to expire is there, and counts. -/
def Kept (s : State) : Prop :=
  ∀ r ∈ s.store.cache.rows, ∀ a, s.IsForever r.message a →
    r.message.id ∈ s.store.files ∧ Counts s.now s.store.cache r a

/--
No time passes over a stored attachment that is not to expire and is not empty, none is
stored after its second, and no attachments are pruned while one is stored.
-/
def Spared
    (s : State) : Label → Prop
  | .tick seconds =>
      seconds = 0 ∨ ∀ m ∈ stored s.store, ∀ a, s.IsForever m a → a.size = 0
  | .commit k =>
      ∀ m ∈ (queued s.store).take k, ∀ a, s.IsForever m a → s.now ≤ a.expires ∨ a.size = 0
  | .pruneAttachments => ∀ m ∈ stored s.store, ∀ a, ¬s.IsForever m a
  | _ => True

end Spec

section Quota

variable {now : Nat}
variable {c : MessageCache}
variable {r : StoredMessage}
variable {a : Attachment}

/-- A row, and the others. -/
theorem perm_cons_filter
    (hr : r ∈ c.rows) :
    (r :: c.rows.filter fun r' => decide (r'.rowID ≠ r.rowID)).Perm c.rows := by
  have hnodup : c.rows.Nodup := c.increasing.imp fun hlt heq => by
    rw [heq] at hlt
    exact Nat.lt_irrefl _ hlt
  have hothers : (c.rows.filter fun r' => decide (r'.rowID ≠ r.rowID)) = c.rows.erase r := by
    rw [hnodup.erase_eq_filter]
    refine List.filter_congr fun r' hr' => ?_
    have hiff : r'.rowID = r.rowID ↔ r' = r :=
      ⟨c.eq_of_rowID_eq hr' hr, congrArg StoredMessage.rowID⟩
    by_cases h : r' = r <;> simp [hiff, h]
  rw [hothers]
  exact (List.perm_cons_erase hr).symm

theorem attachmentBytes_perm
    {ms ms' : List Message}
    (h : ms.Perm ms') :
    MessageCache.attachmentBytes now ms = MessageCache.attachmentBytes now ms' := by
  simp only [Disclosure.attachmentBytes_eq_sum]
  exact (((h.filterMap _).filter _).map _).sum_nat

theorem attachmentBytes_cons
    {m : Message} {ms : List Message}
    (ha : m.attachment = some a) :
    MessageCache.attachmentBytes now (m :: ms) =
      (if now ≤ a.expires then a.size else 0) + MessageCache.attachmentBytes now ms := by
  by_cases hlater : now ≤ a.expires <;>
    simp [MessageCache.attachmentBytes, ha, hlater]

/-- The messages of the same sender. -/
def sameSender (m m' : Message) : Bool :=
  if m.user = "" then
    decide (m'.user = "") && decide (m'.sender = m.sender)
  else
    decide (m'.user = m.user)

theorem bytesUsedBySender_eq
    (m : Message) :
    bytesUsedBySender now c m =
      MessageCache.attachmentBytes now
        ((c.rows.map StoredMessage.message).filter (sameSender m)) := by
  have hsame : sameSender m = fun m' =>
      if m.user = "" then decide (m'.user = "") && decide (m'.sender = m.sender)
      else decide (m'.user = m.user) :=
    rfl
  unfold bytesUsedBySender
  rw [hsame]
  split <;> rfl

/-- An attachment counts until it expires, if it has a size. -/
theorem counts_iff
    (hr : r ∈ c.rows)
    (ha : r.message.attachment = some a) :
    Counts now c r a ↔ now ≤ a.expires ∨ a.size = 0 := by
  have hself : sameSender r.message r.message = true := by
    unfold sameSender
    split <;> simp [*]
  have hperm := ((perm_cons_filter hr).map StoredMessage.message).filter
    (sameSender r.message)
  rw [List.map_cons, List.filter_cons_of_pos hself] at hperm
  have hbytes : bytesUsedBySender now c r.message =
      (if now ≤ a.expires then a.size else 0) +
        bytesUsedBySender now (c.filter fun r' => decide (r'.rowID ≠ r.rowID)) r.message := by
    rw [bytesUsedBySender_eq, bytesUsedBySender_eq, ← attachmentBytes_perm hperm,
      attachmentBytes_cons ha]
    rfl
  unfold Counts
  rw [hbytes, Nat.add_right_cancel_iff]
  by_cases hlater : now ≤ a.expires
  · simp [hlater]
  · simp [hlater, eq_comm]

end Quota

section Soundness

variable {l l' : Ledger}
variable {st st' : FailedPublishes.State}

/-- The messages of the rows and of the queue. -/
def held (st : FailedPublishes.State) : List Message :=
  stored st ++ queued st

/--
Messages are told apart by their IDs, which are recorded.  Attachments that are not to
expire have their files, also those of the queue; they expire with the present second at
the latest, and those that are stored and not empty do not expire before.
-/
structure Sound
    (l : Ledger)
    (st : FailedPublishes.State) : Prop where
  nodup : ((held st).map Message.id).Nodup
  used : ∀ m ∈ held st, m.id ∈ l.used
  valid : ∀ m ∈ held st, FileCache.validFileID m.id = true
  storable : ∀ m ∈ queued st, m.event.storable = true
  forever : ∀ id ∈ l.forever, id ∈ l.used
  deleted : ∀ id ∈ l.attachmentsDeleted, id ∈ l.used ∧ id ∉ st.files
  file : ∀ m ∈ held st, ∀ a, l.IsForever m a → m.id ∈ st.files
  expires : ∀ m ∈ held st, ∀ a, l.IsForever m a → a.expires ≤ l.now
  counted : ∀ m ∈ stored st, ∀ a, l.IsForever m a → l.now ≤ a.expires ∨ a.size = 0

theorem mem_held_of_stored
    {m : Message}
    (hm : m ∈ stored st) :
    m ∈ held st :=
  List.mem_append_left _ hm

theorem mem_stored_iff
    {m : Message} :
    m ∈ stored st ↔ ∃ r ∈ st.cache.rows, r.message = m :=
  List.mem_map

theorem Sound.eq_of_id_eq
    (h : Sound l st)
    {m m' : Message}
    (hm : m ∈ held st)
    (hm' : m' ∈ held st)
    (hid : m.id = m'.id) :
    m = m' :=
  List.inj_on_of_nodup_map h.nodup hm hm' hid

/-- Attachments are kept. -/
theorem Sound.kept
    {s : State}
    (h : Sound s.toLedger s.store) :
    Kept s := by
  intro r hr a ha
  have hm : r.message ∈ stored s.store := List.mem_map_of_mem hr
  exact ⟨h.file _ (mem_held_of_stored hm) a ha, (counts_iff hr ha.2.1).mpr (h.counted _ hm a ha)⟩

/-- Messages and files are removed, but no file of a message that is left. -/
theorem Sound.remove
    (h : Sound l st)
    (hstored : (stored st').Sublist (stored st))
    (hqueue : st'.queue = st.queue)
    (hfiles : ∀ f ∈ st'.files, f ∈ st.files)
    (hleft : ∀ m ∈ held st', ∀ a, l.IsForever m a → m.id ∈ st.files → m.id ∈ st'.files) :
    Sound l st' := by
  have hqueued : queued st' = queued st := by
    rw [queued, queued, hqueue]
  have hheld : (held st').Sublist (held st) := by
    rw [held, held, hqueued]
    exact hstored.append_right _
  constructor
  case nodup =>
    exact h.nodup.sublist (hheld.map _)
  case used =>
    exact fun m hm => h.used m (hheld.subset hm)
  case valid =>
    exact fun m hm => h.valid m (hheld.subset hm)
  case storable =>
    exact fun m hm => h.storable m (hqueued ▸ hm)
  case forever =>
    exact h.forever
  case deleted =>
    exact fun id hid => ⟨(h.deleted id hid).1, fun hf => (h.deleted id hid).2 (hfiles id hf)⟩
  case file =>
    exact fun m hm a ha => hleft m hm a ha (h.file m (hheld.subset hm) a ha)
  case expires =>
    exact fun m hm => h.expires m (hheld.subset hm)
  case counted =>
    exact fun m hm => h.counted m (hstored.subset hm)

/-- A file of a new message is written. -/
theorem Sound.withFile
    (h : Sound l st)
    {name : String}
    (hname : name ∉ l.attachmentsDeleted) :
    Sound l (st.withFile name) := by
  refine ⟨h.nodup, h.used, h.valid, h.storable, h.forever, fun id hid => ?_,
    fun m hm a ha => List.mem_cons_of_mem _ (h.file m hm a ha), h.expires, h.counted⟩
  refine ⟨(h.deleted id hid).1, fun hf => ?_⟩
  rcases List.mem_cons.mp hf with rfl | hf
  · exact hname hid
  · exact (h.deleted id hid).2 hf

/-- The message goes to the subscribers. -/
theorem Sound.publish
    (h : Sound l st)
    (x : Circumstances)
    (m : Message) :
    Sound l (st.publish x m) :=
  ⟨h.nodup, h.used, h.valid, h.storable, h.forever, h.deleted, h.file, h.expires, h.counted⟩

/-- A file that a removed row names is not that of a message that is left. -/
theorem Sound.not_removed
    (h : Sound l st)
    {p : StoredMessage → Bool} {m : Message} {ids : List String}
    (hids : ∀ id ∈ ids, ∃ r ∈ st.cache.rows, p r = true ∧ r.message.id = id)
    (hm : m ∈ ((st.cache.rows.filter fun r => !p r).map StoredMessage.message) ++ queued st) :
    m.id ∉ ids := by
  intro hid
  obtain ⟨r, hr, hp, heq⟩ := hids _ hid
  have hmessage : r.message ∈ stored st := List.mem_map_of_mem hr
  rcases List.mem_append.mp hm with hm | hm
  · obtain ⟨r', hr', rfl⟩ := List.mem_map.mp hm
    rw [List.mem_filter] at hr'
    have hrows : (st.cache.rows.map fun r => r.message.id).Nodup := by
      have hleft := h.nodup.sublist ((List.sublist_append_left _ _).map _)
      rwa [stored, List.map_map] at hleft
    obtain rfl := List.inj_on_of_nodup_map hrows hr hr'.1 heq
    rw [hp] at hr'
    exact absurd hr'.2 (by simp)
  · have hnodup := h.nodup
    rw [held, List.map_append] at hnodup
    exact List.disjoint_of_nodup_append hnodup (List.mem_map_of_mem hmessage)
      (heq ▸ List.mem_map_of_mem hm)

/-- The scheduled messages of a sequence are deleted with their files. -/
theorem Sound.deleteScheduled
    (h : Sound l st)
    (v : Visit)
    (x : Circumstances)
    (topic sequenceID : String) :
    Sound l (st.deleteScheduled v x topic sequenceID) := by
  refine h.remove (List.filter_sublist.map _) rfl (fun f hf => ?_) (fun m hm _ _ hfile => ?_)
  · simp only [FailedPublishes.State.deleteScheduled] at hf
    split at hf
    · exact List.mem_of_mem_filter hf
    · exact hf
  · have hnot : m.id ∉ ((st.cache.rows.filter
        (FailedPublishes.isScheduled topic sequenceID)).map
          fun r => r.message.id).takeWhile FileCache.validFileID := by
      refine h.not_removed (fun id hid => ?_) hm
      obtain ⟨r, hr, rfl⟩ := List.mem_map.mp ((List.takeWhile_subset _) hid)
      exact ⟨r, List.mem_of_mem_filter hr, (List.mem_filter.mp hr).2, rfl⟩
    simp only [FailedPublishes.State.deleteScheduled]
    split
    · exact List.mem_filter.mpr ⟨hfile, by simp [hnot]⟩
    · exact hfile

/-- A new message is stored, or waits in the queue. -/
theorem Sound.add
    (h : Sound l st)
    {m : Message}
    (hheld : held st' = held st ++ [m])
    (hstored : ∀ m' ∈ stored st', m' ∈ stored st ∨ m' = m)
    (hqueued : ∀ m' ∈ queued st', m' ∈ queued st ∨ m' = m)
    (hfiles : st'.files = st.files)
    (hfresh : ∀ m' ∈ held st, m'.id ≠ m.id)
    (hused : m.id ∈ l.used)
    (hvalid : FileCache.validFileID m.id = true)
    (hstorable : m.event.storable = true)
    (hfile : ∀ a, l.IsForever m a → m.id ∈ st.files ∧ a.expires = l.now) :
    Sound l st' := by
  have hcases : ∀ m' ∈ held st', m' ∈ held st ∨ m' = m := by
    intro m' hm'
    rw [hheld] at hm'
    exact (List.mem_append.mp hm').imp_right List.mem_singleton.mp
  constructor
  case nodup =>
    rw [hheld, List.map_append]
    refine h.nodup.append (List.nodup_singleton _) ?_
    rw [List.map_singleton, List.disjoint_singleton]
    intro hmem
    obtain ⟨m', hm', hid⟩ := List.mem_map.mp hmem
    exact hfresh m' hm' hid
  case used =>
    rintro m' hm'
    rcases hcases m' hm' with hold | rfl
    · exact h.used m' hold
    · exact hused
  case valid =>
    rintro m' hm'
    rcases hcases m' hm' with hold | rfl
    · exact h.valid m' hold
    · exact hvalid
  case storable =>
    rintro m' hm'
    rcases hqueued m' hm' with hold | rfl
    · exact h.storable m' hold
    · exact hstorable
  case forever =>
    exact h.forever
  case deleted =>
    rw [hfiles]
    exact h.deleted
  case file =>
    rw [hfiles]
    rintro m' hm' a ha
    rcases hcases m' hm' with hold | rfl
    · exact h.file m' hold a ha
    · exact (hfile a ha).1
  case expires =>
    rintro m' hm' a ha
    rcases hcases m' hm' with hold | rfl
    · exact h.expires m' hold a ha
    · exact le_of_eq (hfile a ha).2
  case counted =>
    rintro m' hm' a ha
    rcases hstored m' hm' with hold | rfl
    · exact h.counted m' hold a ha
    · exact Or.inl (le_of_eq (hfile a ha).2.symm)

theorem Sound.addMessage
    (h : Sound l st)
    {m : Message}
    (x : Circumstances)
    (hfresh : ∀ m' ∈ held st, m'.id ≠ m.id)
    (hused : m.id ∈ l.used)
    (hvalid : FileCache.validFileID m.id = true)
    (hstorable : m.event.storable = true)
    (hfile : ∀ a, l.IsForever m a → m.id ∈ st.files ∧ a.expires = l.now) :
    Sound l (st.addMessage x m).2 := by
  unfold FailedPublishes.State.addMessage
  cases hq : st.queue with
  | some q =>
      refine h.add ?_ (fun m' hm' => Or.inl hm') ?_ rfl hfresh hused hvalid hstorable hfile
      · simp [held, queued, stored, hq]
      · intro m' hm'
        simpa [queued, hq] using hm'
  | none =>
      cases x.addFails with
      | true =>
          exact h
      | false =>
          simp only [Bool.false_eq_true, if_false, MessageCache.addMessages, List.all_cons,
            List.all_nil, hstorable, Bool.and_self, if_true]
          refine h.add ?_ ?_ ?_ rfl hfresh hused hvalid hstorable hfile
          · simp [held, queued, stored, hq, MessageCache.insert]
          · intro m' hm'
            simpa [stored, MessageCache.insert, or_comm] using hm'
          · intro m' hm'
            simp [queued] at hm'

/-- The messages that are pruned, with their files. -/
theorem Sound.pruneMessages
    {s : State}
    (h : Sound s.toLedger s.store) :
    Sound (pruneMessages s).toLedger (pruneMessages s).store := by
  refine h.remove (List.filter_sublist.map _) rfl (fun f hf => List.mem_of_mem_filter hf)
    (fun m hm _ _ hfile => ?_)
  have hnot : m.id ∉ (s.store.cache.messagesExpired s.now).takeWhile
      FileCache.validFileID := by
    refine h.not_removed (fun id hid => ?_) hm
    have hexpired := (List.takeWhile_subset _) hid
    obtain ⟨r, hr, rfl⟩ := List.mem_map.mp hexpired
    exact ⟨r, List.mem_of_mem_filter hr, decide_eq_true hexpired, rfl⟩
  exact List.mem_filter.mpr ⟨hfile, by simp [hnot]⟩

theorem Sound.markPublished
    (h : Sound l st)
    (id : String) :
    Sound l { st with cache := st.cache.markPublished id } := by
  have hstored : stored { st with cache := st.cache.markPublished id } = stored st := by
    simp only [stored, MessageCache.markPublished, MessageCache.update, List.map_map]
    refine List.map_congr_left fun r _ => ?_
    simp only [Function.comp_apply]
    split <;> rfl
  exact h.remove (hstored ▸ List.Sublist.refl _) rfl (fun f hf => hf) fun m _ _ _ hf => hf

/-- The messages of the queue can be stored. -/
theorem Sound.stored_commit
    {s : State} {k : Nat} {q : List Message}
    (h : Sound s.toLedger s.store)
    (hq : s.store.queue = some q) :
    stored (commit s k q).store = stored s.store ++ q.take k := by
  have hall : (q.take k).all (fun m => m.event.storable) = true := by
    rw [List.all_eq_true]
    intro m hm
    refine h.storable m ?_
    rw [queued, hq]
    exact List.mem_of_mem_take hm
  obtain ⟨cache, hcache⟩ : ∃ cache, s.store.cache.addMessages s.now (q.take k) = .ok cache :=
    ⟨_, by rw [MessageCache.addMessages, if_pos hall]⟩
  simp only [commit, hcache, stored]
  exact Scheduling.messages_addMessages hcache

/-- The messages of the queue are stored, if none has expired. -/
theorem Sound.commit
    {s : State} {k : Nat} {q : List Message}
    (h : Sound s.toLedger s.store)
    (hq : s.store.queue = some q)
    (hspared : Spared s (.commit k)) :
    Sound (commit s k q).toLedger (commit s k q).store := by
  have hqueued : queued s.store = q := by
    rw [queued, hq, Option.getD_some]
  have hstored := h.stored_commit hq (k := k)
  have hheld : held (KeptAttachments.commit s k q).store = held s.store := by
    rw [held, hstored, held, hqueued, List.append_assoc]
    simp [queued, KeptAttachments.commit]
  refine ⟨?_, ?_, ?_, fun m hm => h.storable m ?_, h.forever, h.deleted, ?_, ?_,
    fun m hm a ha => ?_⟩
  · rw [hheld]
    exact h.nodup
  · rw [hheld]
    exact h.used
  · rw [hheld]
    exact h.valid
  · rw [hqueued]
    exact List.mem_of_mem_drop (i := k) hm
  · rw [hheld]
    exact h.file
  · rw [hheld]
    exact h.expires
  · rw [hstored] at hm
    rcases List.mem_append.mp hm with hm | hm
    · exact h.counted m hm a ha
    · exact hspared m (hqueued.symm ▸ hm) a ha

/-- Time passes. -/
theorem Sound.tick
    {s : State} {seconds : Nat}
    (h : Sound s.toLedger s.store)
    (hspared : Spared s (.tick seconds)) :
    Sound { s.toLedger with now := s.now + seconds } s.store := by
  refine ⟨h.nodup, h.used, h.valid, h.storable, h.forever, h.deleted, h.file,
    fun m hm a ha => Nat.le_add_right_of_le (h.expires m hm a ha), fun m hm a ha => ?_⟩
  rcases hspared with rfl | hempty
  · exact h.counted m hm a ha
  · exact Or.inr (hempty m hm a ha)

theorem mem_attachmentsExpired_iff
    {s : State} {id : String} :
    id ∈ attachmentsExpired s
      ↔
    ∃ m ∈ stored s.store, (∃ a, m.attachment = some a ∧ 0 < a.expires ∧ a.expires ≤ s.now) ∧
      m.id ∉ s.attachmentsDeleted ∧ m.id = id := by
  simp [attachmentsExpired, Option.any_eq_true, and_assoc]

/-- All attachments that are listed are removed. -/
theorem Sound.mem_files_pruneAttachments_iff
    {s : State} {f : String}
    (h : Sound s.toLedger s.store) :
    f ∈ (pruneAttachments s).store.files
      ↔
    f ∈ s.store.files ∧ f ∉ attachmentsExpired s := by
  have hvalid : (attachmentsExpired s).takeWhile FileCache.validFileID =
      attachmentsExpired s := by
    rw [List.takeWhile_eq_self_iff]
    intro id hid
    obtain ⟨m, hm, -, -, rfl⟩ := mem_attachmentsExpired_iff.mp hid
    exact h.valid m (mem_held_of_stored hm)
  simp [KeptAttachments.pruneAttachments, removeFiles, hvalid]

/-- Attachments are pruned, but none that is not to expire. -/
theorem Sound.pruneAttachments
    {s : State}
    (h : Sound s.toLedger s.store)
    (hspared : Spared s .pruneAttachments) :
    Sound (pruneAttachments s).toLedger (pruneAttachments s).store := by
  refine ⟨h.nodup, h.used, h.valid, h.storable, h.forever, fun id hid => ?_,
    fun m hm a ha => ?_, h.expires, h.counted⟩
  · rw [h.mem_files_pruneAttachments_iff]
    rcases List.mem_append.mp hid with hid | hid
    · obtain ⟨m, hm, -, -, rfl⟩ := mem_attachmentsExpired_iff.mp hid
      exact ⟨h.used m (mem_held_of_stored hm), fun hf => hf.2 hid⟩
    · exact ⟨(h.deleted id hid).1, fun hf => (h.deleted id hid).2 hf.1⟩
  · refine h.mem_files_pruneAttachments_iff.mpr ⟨h.file m hm a ha, fun hid => ?_⟩
    obtain ⟨m', hm', -, -, hsame⟩ := mem_attachmentsExpired_iff.mp hid
    obtain rfl := h.eq_of_id_eq (mem_held_of_stored hm') hm hsame
    exact hspared m' hm' a ha

/-- The IDs of a request are recorded before it is handled. -/
theorem Sound.record
    {s : State} {v : Visit}
    (h : Sound s.toLedger s.store)
    (hfresh : isFresh s v = true) :
    Sound (s.toLedger.record v) s.store := by
  simp only [isFresh, Bool.and_eq_true, decide_eq_true_eq] at hfresh
  obtain ⟨⟨⟨⟨-, hmessage⟩, -⟩, -⟩, -⟩ := hfresh
  have hused : ∀ id ∈ s.used, id ∈ (s.toLedger.record v).used :=
    fun id hid => List.mem_cons_of_mem _ (List.mem_cons_of_mem _ hid)
  have hforever : ∀ m ∈ held s.store, ∀ a, (s.toLedger.record v).IsForever m a →
      s.IsForever m a := by
    intro m hm a ha
    refine ⟨?_, ha.2⟩
    have hmem := ha.1
    simp only [Ledger.record] at hmem
    split at hmem
    · rcases List.mem_cons.mp hmem with heq | hold
      · exact absurd (heq ▸ h.used m hm) hmessage
      · exact hold
    · exact hmem
  refine ⟨h.nodup, fun m hm => hused _ (h.used m hm), h.valid, h.storable, fun id hid => ?_,
    fun id hid => ⟨hused id (h.deleted id hid).1, (h.deleted id hid).2⟩,
    fun m hm a ha => h.file m hm a (hforever m hm a ha),
    fun m hm a ha => h.expires m hm a (hforever m hm a ha),
    fun m hm a ha => h.counted m hm a (hforever m (mem_held_of_stored hm) a ha)⟩
  simp only [Ledger.record] at hid
  split at hid
  · rcases List.mem_cons.mp hid with rfl | hold
    · exact List.mem_cons_self
    · exact hused id (h.forever id hold)
  · exact hused id (h.forever id hid)

end Soundness

section Publishes

variable {P : Parsers}
variable {cfg : Config}
variable {v : Visit}
variable {req : Request}
variable {x : Circumstances}
variable {topic : String}
variable {p : Params}
variable {m m' : Message}
variable {st : FailedPublishes.State}

theorem attachmentParam_expires
    {a : Attachment}
    (h : Publish.attachmentParam P req = some a) :
    a.expires = 0 := by
  unfold Publish.attachmentParam at h
  extract_lets filename attach at h
  clear_value filename attach
  split at h
  · rw [← Option.some.inj h]
  · split at h
    · rw [← Option.some.inj h]
    · cases h

theorem draft_attachment
    (h : Publish.draft P cfg v req topic = .ok (m, p)) :
    (m.id = v.messageID ∨ m.id = v.pollRequestID) ∧
      ∀ a, m.attachment = some a → a.expires = 0 := by
  unfold Publish.draft at h
  obtain ⟨⟨m₁, p₁⟩, hparams, h⟩ := exists_of_bind_eq_ok h
  obtain ⟨call, -, h⟩ := exists_of_bind_eq_ok h
  have hfields := Publish.parsePublishParams_fields hparams
  have hattachment : m₁.attachment = Publish.attachmentParam P req := by
    rw [hfields.attachment]
    exact Option.or_none
  simp only [Except.ok.injEq, Prod.mk.injEq] at h
  obtain ⟨rfl, rfl⟩ := h
  by_cases hpoll : m₁.pollID = ""
  · simp only [hpoll, ne_eq, not_true_eq_false, if_false]
    refine ⟨Or.inl ?_, fun a ha => ?_⟩
    · split <;> exact hfields.id
    · have hparam : Publish.attachmentParam P req = some a := by
        rw [← hattachment]
        split at ha <;> exact ha
      exact attachmentParam_expires hparam
  · simp only [ne_eq, hpoll, not_false_eq_true, if_true]
    refine ⟨Or.inr ?_, fun a ha => ?_⟩
    · split <;> rfl
    · split at ha <;> cases ha

/-- The message as it is before the body is read. -/
theorem prepare_attachment
    (h : FailedPublishes.prepare P cfg v req topic st = .ok (m, p)) :
    (m.id = v.messageID ∨ m.id = v.pollRequestID) ∧
      ∀ a, m.attachment = some a → a.expires = 0 := by
  unfold FailedPublishes.prepare at h
  cases hdraft : Publish.draft P cfg v req topic with
  | error e =>
      rw [hdraft] at h
      cases h
  | ok result =>
      obtain ⟨m₀, p₀⟩ := result
      rw [hdraft] at h
      cases h
      have hfields := draft_attachment hdraft
      exact hfields

/-- A body that becomes no file leaves the attachment as it is. -/
theorem publishBody_attachment
    {bytesUsed : Nat}
    (hfile : FailedPublishes.isFileBody cfg req p m = false)
    (h : Publish.handlePublishBody P cfg v req p bytesUsed m = .ok m') :
    m'.attachment = m.attachment := by
  unfold Publish.handlePublishBody at h
  unfold FailedPublishes.isFileBody at hfile
  generalize m.attachment.any (fun a => decide (a.url ≠ "")) = url at h hfile
  generalize m.attachment.any (fun a => decide (a.name ≠ "")) = name at h hfile
  split at h
  · cases h
    rfl
  next hpoll =>
  split at h
  · cases h
    obtain ⟨message, encoding, hm⟩ := Publish.handleBodyAsMessageAutoDetect_eq cfg req m
    rw [hm]
  next hpush =>
  split at h
  · obtain ⟨message, rfl⟩ := Publish.handleBodyAsTextMessage_eq h
    rfl
  next hurl =>
  split at h
  next hname =>
    simp [hpoll, hpush, hurl, hname] at hfile
  next hname =>
  split at h
  · obtain ⟨message, title, priority, rfl⟩ :=
      Publish.handleBodyAsTemplatedTextMessage_eq h
    rfl
  next htemplate =>
  split at h
  · obtain ⟨message, rfl⟩ := Publish.handleBodyAsTextMessage_eq h
    rfl
  next htext =>
    refine absurd ?_ htext
    simpa [hpoll, hpush, hurl, hname, htemplate] using hfile

/--
The attachment of a message is the one of the parameters, or there is a file; then it
expires at the time of the upload if attachments expire after no time.
-/
theorem handlePublishBody_attachment
    (h : (FailedPublishes.handlePublishBody P cfg v req x p m st).1 = .ok m') :
    m'.attachment = m.attachment ∨
      (FailedPublishes.handlePublishBody P cfg v req x p m st).2 = st.withFile m.id ∧
        ∃ a, m'.attachment = some a ∧
          a.expires = v.now + v.limits.attachmentExpiryDuration := by
  cases hfile : FailedPublishes.isFileBody cfg req p m with
  | true =>
      rw [(FailedPublishes.handlePublishBody_of_file hfile st).1] at h ⊢
      obtain ⟨hstate, hok, herror⟩ :=
        @FailedPublishes.handleBodyAsAttachment_spec P cfg v req x m st
      cases haccepted : FailedPublishes.fileOpened cfg v req x m st &&
          FailedPublishes.fileCompleted v req x st with
      | true =>
          rw [hok haccepted] at h
          cases h
          rw [Bool.and_eq_true] at haccepted
          refine Or.inr ⟨?_, _, rfl, rfl⟩
          rw [hstate, haccepted.1, haccepted.2]
          rfl
      | false =>
          obtain ⟨e, he⟩ := herror haccepted
          rw [he] at h
          cases h
  | false =>
      rw [FailedPublishes.handlePublishBody_of_no_file hfile] at h
      have hbody : Publish.handlePublishBody P cfg v req p
          (Publish.attachmentBytesUsed v st.cache) m = .ok m' := by
        dsimp only at h
        split at h
        · unfold FailedPublishes.afterRest at h
          split at h
          · cases h
          · exact h
        · exact h
      exact Or.inl (publishBody_attachment hfile hbody)

/-- An ID that nothing has yet; its attachment is not to expire if attachments are not to. -/
structure IsNew
    (l : Ledger)
    (st : FailedPublishes.State)
    (v : Visit)
    (id : String) : Prop where
  now : v.now = l.now
  used : id ∈ l.used
  valid : FileCache.validFileID id = true
  notHeld : ∀ m ∈ held st, m.id ≠ id
  notDeleted : id ∉ l.attachmentsDeleted
  forever : id ∈ l.forever → v.limits.attachmentExpiryDuration = 0

/-- Deleting scheduled messages leaves the files of other messages. -/
theorem mem_files_deleteScheduled
    {sequenceID name : String}
    (hfile : name ∈ st.files)
    (hother : ∀ m ∈ stored st, m.id ≠ name) :
    name ∈ (st.deleteScheduled v x topic sequenceID).files := by
  have hnot : name ∉ ((st.cache.rows.filter
      (FailedPublishes.isScheduled topic sequenceID)).map
        fun r => r.message.id).takeWhile FileCache.validFileID := by
    intro hmem
    obtain ⟨r, hr, heq⟩ := List.mem_map.mp ((List.takeWhile_subset _) hmem)
    exact hother r.message (List.mem_map_of_mem (List.mem_of_mem_filter hr)) heq
  simp only [FailedPublishes.State.deleteScheduled]
  split
  · exact List.mem_filter.mpr ⟨hfile, by simp [hnot]⟩
  · exact hfile

/-- A message that has been accepted is stored after the scheduled messages are deleted. -/
theorem Sound.storeMessage
    {l : Ledger}
    (h : Sound l st)
    (x : Circumstances)
    (topic : String)
    (hnew : IsNew l st v m.id)
    (hstorable : m.event.storable = true)
    (hfile : ∀ a, l.IsForever m a → m.id ∈ st.files ∧ a.expires = l.now) :
    Sound l (st.store v x topic m).2 := by
  unfold FailedPublishes.State.store
  split
  · exact h
  · have hstored : (stored (st.deleteScheduled v x topic m.sequenceID)).Sublist (stored st) :=
      List.filter_sublist.map _
    refine (h.deleteScheduled v x topic m.sequenceID).addMessage x (fun m' hm' => ?_)
      hnew.used hnew.valid hstorable fun a ha => ⟨?_, (hfile a ha).2⟩
    · exact hnew.notHeld m' ((hstored.append_right _).subset hm')
    · exact mem_files_deleteScheduled (hfile a ha).1
        fun m' hm' => hnew.notHeld m' (mem_held_of_stored hm')

/-- A message that has been accepted goes to the subscribers, unless it is delayed. -/
theorem Sound.send
    {l : Ledger}
    (h : Sound l st)
    (x : Circumstances)
    (m : Message) :
    Sound l (if decide (x.publishedAt < m.time) then st else st.publish x m) := by
  split
  · exact h
  · exact h.publish x m

theorem IsNew.send
    {l : Ledger}
    (h : IsNew l st v m.id) :
    IsNew l (if decide (x.publishedAt < m.time) then st else st.publish x m) v m.id := by
  split
  · exact h
  · exact ⟨h.now, h.used, h.valid, h.notHeld, h.notDeleted, h.forever⟩

theorem files_send
    (st : FailedPublishes.State)
    (m : Message) :
    (if decide (x.publishedAt < m.time) then st else st.publish x m).files = st.files := by
  split <;> rfl

/-- What holds when the body has been accepted. -/
theorem accepted_body
    {l : Ledger} {st₁ : FailedPublishes.State}
    (h : Sound l st)
    (hnew : IsNew l st v m.id)
    (hexternal : ∀ a, m.attachment = some a → a.expires = 0)
    (hbody : FailedPublishes.handlePublishBody P cfg v req x p m st = (.ok m', st₁)) :
    Sound l st₁ ∧ IsNew l st₁ v m'.id ∧ m'.event = m.event ∧
      ∀ a, l.IsForever m' a → m'.id ∈ st₁.files ∧ a.expires = l.now := by
  obtain ⟨hstate, hok, -⟩ := @FailedPublishes.handlePublishBody_spec P cfg v req x p m st
  rw [hbody] at hstate hok
  have hframe := (hok m' rfl).2
  have hid : m'.id = m.id := congrArg (fun f => f.1) hframe
  have hok' : (FailedPublishes.handlePublishBody P cfg v req x p m st).1 = .ok m' := by
    rw [hbody]
  have hattachment := handlePublishBody_attachment hok'
  rw [hbody] at hattachment
  refine ⟨?_, ?_, congrArg (fun f => f.2.2.2) hframe, ?_⟩
  · rw [show st₁ = _ from hstate]
    split
    · exact h.withFile hnew.notDeleted
    · exact h
  · have hheld : held st₁ = held st := by
      rw [show st₁ = _ from hstate]
      split <;> rfl
    rw [hid]
    exact ⟨hnew.now, hnew.used, hnew.valid, hheld ▸ hnew.notHeld, hnew.notDeleted, hnew.forever⟩
  · -- an attachment with a time of expiry is a file that has been written
    rintro a ⟨hforever, ha, hpositive⟩
    rcases hattachment with hsame | ⟨hwritten, a', ha', hexpires⟩
    · have hzero := hexternal a (hsame ▸ ha)
      exact absurd hpositive (by simp [hzero])
    · obtain rfl : a' = a := Option.some.inj (ha'.symm.trans ha)
      rw [hid] at hforever ⊢
      rw [hexpires, hnew.forever hforever, hnew.now, show st₁ = _ from hwritten]
      exact ⟨List.mem_cons_self, rfl⟩

/-- A request leaves all attachments, and its own expires with the present second. -/
theorem Sound.handlePublishInternal
    {l : Ledger}
    (h : Sound l st)
    (hnew : ∀ id, id = v.messageID ∨ id = v.pollRequestID → IsNew l st v id) :
    Sound l (FailedPublishes.handlePublishInternal P cfg v req x topic st).2 := by
  unfold FailedPublishes.handlePublishInternal
  split
  · exact h
  split
  · exact h
  cases hprepare : FailedPublishes.prepare P cfg v req topic st with
  | error e =>
      exact h
  | ok draft =>
      obtain ⟨m, p⟩ := draft
      obtain ⟨hid, hexternal⟩ := prepare_attachment hprepare
      cases hbody : FailedPublishes.handlePublishBody P cfg v req x p m st with
      | mk result st₁ =>
          cases result with
          | error e =>
              have hstate := (@FailedPublishes.handlePublishBody_spec P cfg v req x p m st).1
              rw [hbody] at hstate
              simp only [hbody]
              rw [show st₁ = _ from hstate]
              split
              · exact h.withFile (hnew m.id hid).notDeleted
              · exact h
          | ok m₁ =>
              obtain ⟨hsound, hm₁, hevent, hfile⟩ :=
                accepted_body h (hnew m.id hid) hexternal hbody
              have hfill : (Publish.fillEmptyMessage m₁).id = m₁.id ∧
                  (Publish.fillEmptyMessage m₁).event = m₁.event ∧
                  (Publish.fillEmptyMessage m₁).attachment = m₁.attachment := by
                unfold Publish.fillEmptyMessage
                split <;> exact ⟨rfl, rfl, rfl⟩
              simp only [hbody]
              generalize Publish.fillEmptyMessage m₁ = m₂ at hfill ⊢
              obtain ⟨hid₂, hevent₂, hattachment₂⟩ := hfill
              cases hcache : p.cache with
              | false =>
                  exact hsound.send x m₂
              | true =>
                  have hm₂ : IsNew l st₁ v m₂.id := hid₂ ▸ hm₁
                  have hstorable : m₂.event.storable = true := by
                    rw [hevent₂, hevent]
                    exact FailedPublishes.prepare_storable hprepare hcache
                  have hfile₂ : ∀ a, l.IsForever m₂ a → m₂.id ∈ st₁.files ∧ a.expires = l.now := by
                    rintro a ⟨hforever, ha, hpositive⟩
                    rw [hid₂] at hforever ⊢
                    exact hfile a ⟨hforever, hattachment₂ ▸ ha, hpositive⟩
                  have hstored := (hsound.send x m₂).storeMessage x topic hm₂.send hstorable
                    ((files_send st₁ m₂).symm ▸ hfile₂)
                  rw [if_pos rfl]
                  generalize FailedPublishes.State.store v x _ topic m₂ = result at hstored ⊢
                  obtain ⟨e | u, st₃⟩ := result
                  · exact hstored
                  · exact hstored

end Publishes

section Runs

variable {P : Parsers}
variable {cfg : Config}
variable {s s' : State}

/-- What steps preserve as long as attachments are spared. -/
theorem Sound.step
    {l : Label}
    (h : Sound s.toLedger s.store)
    (hspared : Spared s l)
    (hstep : KeptAttachments.step P cfg s l = some s') :
    Sound s'.toLedger s'.store := by
  cases l with
  | tick seconds =>
      obtain rfl := Option.some.inj hstep
      exact h.tick hspared
  | publish v req x topic =>
      simp only [KeptAttachments.step] at hstep
      split at hstep
      case isFalse =>
        cases hstep
      case isTrue hfresh =>
        obtain rfl := Option.some.inj hstep
        refine (h.record hfresh).handlePublishInternal fun id hid => ?_
        simp only [isFresh, Bool.and_eq_true, decide_eq_true_eq] at hfresh
        obtain ⟨⟨⟨⟨hnow, hmessage⟩, hpoll⟩, hvalid⟩, hvalid'⟩ := hfresh
        have hnotUsed : id ∉ s.used := by
          rcases hid with rfl | rfl
          · exact hmessage
          · exact hpoll
        refine ⟨hnow, ?_, ?_, fun m hm heq => ?_, fun hmem => ?_, fun hmem => ?_⟩
        · rcases hid with rfl | rfl <;> simp [Ledger.record]
        · rcases hid with rfl | rfl
          · exact hvalid
          · exact hvalid'
        · exact hnotUsed (heq ▸ h.used m hm)
        · exact hnotUsed (h.deleted id hmem).1
        · by_contra hnonzero
          simp only [Ledger.record, if_neg hnonzero] at hmem
          exact hnotUsed (h.forever id hmem)
  | commit k =>
      obtain ⟨q, hq, rfl⟩ := Option.map_eq_some_iff.mp hstep
      exact h.commit hq hspared
  | markPublished id =>
      obtain rfl := Option.some.inj hstep
      exact h.markPublished id
  | pruneAttachments =>
      obtain rfl := Option.some.inj hstep
      exact h.pruneAttachments hspared
  | pruneMessages =>
      obtain rfl := Option.some.inj hstep
      exact h.pruneMessages
  | download id =>
      obtain rfl := Option.some.inj hstep
      exact h

/-- A stored attachment is kept. -/
theorem Kept.stored
    (h : Kept s)
    {m : Message} {a : Attachment}
    (hm : m ∈ stored s.store)
    (ha : s.IsForever m a) :
    m.id ∈ s.store.files ∧ (s.now ≤ a.expires ∨ a.size = 0) := by
  obtain ⟨r, hr, rfl⟩ := mem_stored_iff.mp hm
  exact ⟨(h r hr a ha).1, (counts_iff hr ha.2.1).mp (h r hr a ha).2⟩

/-- Attachments are kept by the steps that spare them, and by no others. -/
theorem Sound.kept_step_iff
    (h : Sound s.toLedger s.store)
    (l : Label) :
    (∀ s', KeptAttachments.step P cfg s l = some s' → Kept s') ↔ Spared s l := by
  refine ⟨fun hkept => ?_, fun hspared s' hstep => (h.step hspared hstep).kept⟩
  cases l with
  | tick seconds =>
      refine or_iff_not_imp_left.mpr fun hpasses m hm a ha => ?_
      have hafter := (hkept _ rfl).stored hm ha
      have hexpires := h.expires m (mem_held_of_stored hm) a ha
      rcases hafter.2 with hlater | hempty
      · dsimp only at hlater
        omega
      · exact hempty
  | commit k =>
      intro m hm a ha
      cases hq : s.store.queue with
      | none =>
          simp [queued, hq] at hm
      | some q =>
          rw [queued, hq, Option.getD_some] at hm
          have hafter := hkept (KeptAttachments.commit s k q)
            (by simp [KeptAttachments.step, hq])
          refine (hafter.stored (m := m) ?_ ha).2
          rw [h.stored_commit hq]
          exact List.mem_append_right _ hm
  | pruneAttachments =>
      intro m hm a ha
      have hafter := ((hkept _ rfl).stored hm ha).1
      rw [h.mem_files_pruneAttachments_iff] at hafter
      have hheld := mem_held_of_stored hm
      refine hafter.2 (mem_attachmentsExpired_iff.mpr ⟨m, hm, ?_, fun hdeleted => ?_, rfl⟩)
      · exact ⟨a, ha.2.1, ha.2.2, h.expires m hheld a ha⟩
      · exact (h.deleted m.id hdeleted).2 (h.file m hheld a ha)
  | publish v req x topic =>
      exact trivial
  | markPublished id =>
      exact trivial
  | pruneMessages =>
      exact trivial
  | download id =>
      exact trivial

/-- Along every run, attachments are kept exactly as long as every step spares them. -/
theorem kept_along_iff
    (P : Parsers)
    (cfg : Config)
    {s : State} {ls : List Label}
    (h : Sound s.toLedger s.store) :
    Along (step P cfg) (fun s l => ∀ s', step P cfg s l = some s' → Kept s') s ls
      ↔
    Along (step P cfg) Spared s ls :=
  Along.congr_of_invariant (fun _ l (h : Sound _ _) => h.kept_step_iff l)
    (fun _ l _ h hkept hstep => h.step ((h.kept_step_iff l).mp hkept) hstep) h

end Runs

section Example

instance decidableIsForever
    (l : Ledger)
    (m : Message)
    (a : Attachment) :
    Decidable (l.IsForever m a) :=
  inferInstanceAs (Decidable (_ ∧ _ ∧ _))

instance decidableCounts
    (now : Nat)
    (c : MessageCache)
    (r : StoredMessage)
    (a : Attachment) :
    Decidable (Counts now c r a) :=
  inferInstanceAs (Decidable (_ = _))

instance decidableKept
    (s : State) :
    Decidable (Kept s) :=
  decidable_of_iff
    (∀ r ∈ s.store.cache.rows, ∀ a ∈ r.message.attachment, s.IsForever r.message a →
      r.message.id ∈ s.store.files ∧ Counts s.now s.store.cache r a)
    ⟨fun h r hr a ha => h r hr a ha.2.1 ha, fun h r hr a _ ha => h r hr a ha⟩

/-- Files can be uploaded, and are not to expire. -/
def exampleConfig : Config :=
  { FailedPublishes.plainConfig with
    baseURL := "https://chat.example.com"
    attachmentCacheDir := "/var/lib/coop/attachments" }

def exampleVisit : Visit :=
  { FailedPublishes.plainVisit with
    limits := ⟨43200, 1000, 1000, 0⟩
    fileCacheRemaining := some 1000 }

/-- One byte that is no text. -/
def exampleRequest : Request :=
  { FailedPublishes.plainRequest with body := [255] }

def exampleUpload : Label :=
  .publish exampleVisit exampleRequest
    { FailedPublishes.insertFails with addFails := false } "news"

def exampleStart : State where
  now := 1000
  attachmentsDeleted := []
  used := []
  forever := []
  store := FailedPublishes.nothingYet

/-- The messages, the files, and what the sender of the first message uses. -/
def summary (s : State) : List (String × Nat) × List String × Option Nat :=
  ((stored s.store).map fun m => (m.id, (m.attachment.map Attachment.size).getD 0),
    s.store.files,
    (stored s.store).head?.map (bytesUsedBySender s.now s.store.cache))

/-- A file is uploaded and downloaded. -/
theorem kept_until_download :
    Along (step FailedPublishes.plainParsers exampleConfig)
      (fun s l => ∀ s', step FailedPublishes.plainParsers exampleConfig s l = some s' → Kept s')
      exampleStart [.pruneAttachments, exampleUpload, .download "nnnnnnnnnnnn"] ∧
    (run (step FailedPublishes.plainParsers exampleConfig) exampleStart
      [.pruneAttachments, exampleUpload, .download "nnnnnnnnnnnn"]).map summary =
        some ([("nnnnnnnnnnnn", 1)], ["nnnnnnnnnnnn"], some 1) := by
  refine ⟨(kept_along_iff _ _ ?_).mpr ?_, by decide +kernel⟩
  · constructor <;> simp [exampleStart, FailedPublishes.nothingYet, held, stored, queued,
      MessageCache.empty]
  · refine ⟨?_, fun _ _ => ⟨trivial, fun _ _ => ⟨trivial, fun _ _ => trivial⟩⟩⟩
    simp [Spared, exampleStart, FailedPublishes.nothingYet, stored, MessageCache.empty]

/-- The manager deletes the file of a message in the same second; or it counts no more. -/
theorem upload_pruned :
    (∃ s, run (step FailedPublishes.plainParsers exampleConfig) exampleStart
        [exampleUpload, .pruneAttachments] = some s ∧
      summary s = ([("nnnnnnnnnnnn", 1)], [], some 1) ∧ ¬Kept s) ∧
    ∃ s, run (step FailedPublishes.plainParsers exampleConfig) exampleStart
        [exampleUpload, .tick 1] = some s ∧
      summary s = ([("nnnnnnnnnnnn", 1)], ["nnnnnnnnnnnn"], some 0) ∧ ¬Kept s :=
  ⟨⟨_, rfl, by decide +kernel, by decide +kernel⟩,
    ⟨_, rfl, by decide +kernel, by decide +kernel⟩⟩

end Example

end KeptAttachments

end Server
end CoopMessenger
