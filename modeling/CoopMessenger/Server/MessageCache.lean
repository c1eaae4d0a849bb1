import CoopMessenger.Library.Ranking
import CoopMessenger.Server.Message

/-!
# The message cache

The table of `server/message_cache.go` with the statements issued against it.
Row IDs are assigned in increasing order and never reused; the structure carries
this.  A row is published from the start unless its time is in the future.

**Results.**
* `mem_select_iff`: which messages a query returns.
* `eq_of_rowID_eq`: a row is determined by its ID.
-/

namespace CoopMessenger
namespace Server

open Library

/-- A row of `messages`. -/
structure StoredMessage where
  rowID : Nat
  message : Message
  published : Bool
deriving DecidableEq, Repr

/-- `ORDER BY time, id` -/
def StoredMessage.order
    (r : StoredMessage) : Nat ×ₗ Nat :=
  toLex (r.message.time, r.rowID)

/-- The table, its rows in the order in which they were inserted. -/
structure MessageCache where
  rows : List StoredMessage
  lastRowID : Nat
  increasing : rows.Pairwise (fun r r' => r.rowID < r'.rowID)
  bounded : ∀ r ∈ rows, r.rowID ≤ lastRowID

/-- Errors of the message cache. -/
inductive CacheError where
  | unexpectedMessageType
  | messageNotFound
deriving DecidableEq, Repr

/-- The row with another time of expiry. -/
def StoredMessage.expire
    (expires : Nat)
    (r : StoredMessage) : StoredMessage :=
  { r with message := { r.message with expires } }

namespace MessageCache

def empty : MessageCache where
  rows := []
  lastRowID := 0
  increasing := List.Pairwise.nil
  bounded := by simp

section Writes

/-- Insert one message. -/
def insert
    (c : MessageCache)
    (now : Nat)
    (m : Message) : MessageCache where
  rows := c.rows ++ [⟨c.lastRowID + 1, m, decide (m.time ≤ now)⟩]
  lastRowID := c.lastRowID + 1
  increasing := by
    rw [List.pairwise_append]
    refine ⟨c.increasing, List.pairwise_singleton _ _, ?_⟩
    intro r hr r' hr'
    rw [List.mem_singleton.mp hr']
    exact Nat.lt_succ_of_le (c.bounded r hr)
  bounded := by
    intro r hr
    rcases List.mem_append.mp hr with hr | hr
    · exact Nat.le_succ_of_le (c.bounded r hr)
    · rw [List.mem_singleton.mp hr]

/-- Stores a batch of messages in one transaction. -/
def addMessages
    (c : MessageCache)
    (now : Nat)
    (ms : List Message) : Except CacheError MessageCache :=
  if ms.all (fun m => m.event.storable) then
    .ok (ms.foldl (fun c m => c.insert now m) c)
  else
    .error .unexpectedMessageType

/-- Change rows, but not their IDs. -/
def update
    (c : MessageCache)
    (f : StoredMessage → StoredMessage)
    (hf : ∀ r, (f r).rowID = r.rowID) : MessageCache where
  rows := c.rows.map f
  lastRowID := c.lastRowID
  increasing := by
    rw [List.pairwise_map]
    simpa only [hf] using c.increasing
  bounded := by
    intro r hr
    obtain ⟨r', hr', rfl⟩ := List.mem_map.mp hr
    rw [hf]
    exact c.bounded r' hr'

/-- Keep the rows that satisfy `p`. -/
def filter
    (c : MessageCache)
    (p : StoredMessage → Bool) : MessageCache where
  rows := c.rows.filter p
  lastRowID := c.lastRowID
  increasing := c.increasing.sublist List.filter_sublist
  bounded := by
    intro r hr
    exact c.bounded r (List.mem_of_mem_filter hr)

/-- Deletes the scheduled messages of a sequence. -/
def deleteScheduledBySequenceID
    (c : MessageCache)
    (topic sequenceID : String) : MessageCache :=
  c.filter (fun r =>
    !(decide (r.message.topic = topic) &&
      decide (r.message.sequenceID = sequenceID) && !r.published))

/-- `UPDATE messages SET published = 1 WHERE mid = ?` -/
def markPublished
    (c : MessageCache)
    (id : String) : MessageCache :=
  c.update
    (fun r => if r.message.id = id then { r with published := true } else r)
    (by intro r; split <;> rfl)

/-- `DELETE FROM messages WHERE mid = ?`, for each of the IDs. -/
def deleteMessages
    (c : MessageCache)
    (ids : List String) : MessageCache :=
  c.filter (fun r => !decide (r.message.id ∈ ids))

/-- Deletes all messages of a topic. -/
def deleteMessagesByTopic
    (c : MessageCache)
    (topic : String) : MessageCache :=
  c.filter (fun r => !decide (r.message.topic = topic))

/-- Lets all messages of the topics expire. -/
def expireMessages
    (c : MessageCache)
    (now : Nat)
    (topics : List String) : MessageCache :=
  c.update
    (fun r => if r.message.topic ∈ topics then StoredMessage.expire (now - 1) r else r)
    (by intro r; split <;> rfl)

end Writes

section Queries

/-- The messages of the rows that satisfy `p`, ordered by time and row ID. -/
def select
    (c : MessageCache)
    (p : StoredMessage → Bool) : List Message :=
  (orderBy StoredMessage.order (c.rows.filter p)).map StoredMessage.message

/-- `SELECT id FROM messages WHERE mid = ?` -/
def rowID?
    (c : MessageCache)
    (id : String) : Option Nat :=
  (c.rows.find? (fun r => decide (r.message.id = id))).map StoredMessage.rowID

/-- The message with the ID, of whatever topic. -/
def message?
    (c : MessageCache)
    (id : String) : Option Message :=
  (c.rows.find? (fun r => decide (r.message.id = id))).map StoredMessage.message

/-- The size of the attachments that have not expired. -/
def attachmentBytes
    (now : Nat)
    (ms : List Message) : Nat :=
  ((ms.filterMap Message.attachment).filter
    (fun a => decide (now ≤ a.expires))).foldr (fun a n => a.size + n) 0

def attachmentBytesUsedBySender
    (c : MessageCache)
    (now : Nat)
    (sender : Visitors.Addr) : Nat :=
  attachmentBytes now
    ((c.rows.map StoredMessage.message).filter
      (fun m => decide (m.user = "") && decide (m.sender = sender)))

def attachmentBytesUsedByUser
    (c : MessageCache)
    (now : Nat)
    (userID : String) : Nat :=
  attachmentBytes now
    ((c.rows.map StoredMessage.message).filter
      (fun m => decide (m.user = userID)))

def messagesSinceTime
    (c : MessageCache)
    (topic : String)
    (since : SinceMarker)
    (scheduled : Bool) : List Message :=
  c.select (fun r =>
    decide (r.message.topic = topic) &&
      decide (since.time ≤ (r.message.time : Int)) &&
      (scheduled || r.published))

def messagesSinceID
    (c : MessageCache)
    (topic : String)
    (since : SinceMarker)
    (scheduled : Bool) : List Message :=
  match c.rowID? since.id with
  | none => c.messagesSinceTime topic sinceAllMessages scheduled
  | some rowID =>
      c.select (fun r =>
        decide (r.message.topic = topic) &&
          if scheduled then
            decide (rowID < r.rowID) || !r.published
          else
            decide (rowID < r.rowID) && r.published)

def messagesLatest
    (c : MessageCache)
    (topic : String) : List Message :=
  ((top StoredMessage.order
    (c.rows.filter (fun r =>
      decide (r.message.topic = topic) && r.published))).map
    StoredMessage.message).toList

/-- The cached messages of a topic from a marker on. -/
def messages
    (c : MessageCache)
    (topic : String)
    (since : SinceMarker)
    (scheduled : Bool) : List Message :=
  if since.isNone then
    []
  else if since.isLatest then
    c.messagesLatest topic
  else if since.isID then
    c.messagesSinceID topic since scheduled
  else
    c.messagesSinceTime topic since scheduled

/-- The scheduled messages that are due. -/
def messagesDue
    (c : MessageCache)
    (now : Nat) : List Message :=
  c.select (fun r => decide (r.message.time ≤ now) && !r.published)

/-- The IDs of the published messages that have expired. -/
def messagesExpired
    (c : MessageCache)
    (now : Nat) : List String :=
  (c.rows.filter (fun r =>
    decide (r.message.expires ≤ now) && r.published)).map (fun r => r.message.id)

variable {c : MessageCache}

theorem mem_insert_iff
    {now : Nat} {m : Message} {r : StoredMessage} :
    r ∈ (c.insert now m).rows
      ↔
    r ∈ c.rows ∨ r = ⟨c.lastRowID + 1, m, decide (m.time ≤ now)⟩ := by
  simp [insert]

/-- A row after a batch was there before, or holds a message of the batch. -/
theorem mem_addMessages
    {c' : MessageCache} {now : Nat} {ms : List Message} {r : StoredMessage}
    (h : c.addMessages now ms = .ok c')
    (hr : r ∈ c'.rows) :
    r ∈ c.rows ∨
      (r.message ∈ ms ∧ r.published = decide (r.message.time ≤ now)) := by
  unfold addMessages at h
  split at h
  case isFalse =>
    cases h
  case isTrue hall =>
    cases h
    clear hall
    induction ms generalizing c with
    | nil =>
        exact Or.inl hr
    | cons m ms ih =>
        rcases ih hr with hold | ⟨hm, hpublished⟩
        · rcases mem_insert_iff.mp hold with hold | rfl
          · exact Or.inl hold
          · exact Or.inr ⟨List.mem_cons_self, rfl⟩
        · exact Or.inr ⟨List.mem_cons_of_mem m hm, hpublished⟩

/-- A batch leaves the rows that are there. -/
theorem mem_of_addMessages
    {c' : MessageCache} {now : Nat} {ms : List Message} {r : StoredMessage}
    (h : c.addMessages now ms = .ok c')
    (hr : r ∈ c.rows) :
    r ∈ c'.rows := by
  unfold addMessages at h
  split at h
  case isFalse =>
    cases h
  case isTrue hall =>
    cases h
    clear hall
    induction ms generalizing c with
    | nil =>
        exact hr
    | cons m ms ih =>
        exact ih (mem_insert_iff.mpr (Or.inl hr))

/-- A batch that is stored consists of messages that may be stored. -/
theorem storable_of_addMessages
    {c' : MessageCache} {now : Nat} {ms : List Message}
    (h : c.addMessages now ms = .ok c') :
    ms.all (fun m => m.event.storable) = true := by
  unfold addMessages at h
  split at h
  case isFalse =>
    cases h
  case isTrue hall =>
    exact hall

/-- Each message of a batch gets a row. -/
theorem exists_of_addMessages
    {c' : MessageCache} {now : Nat} {ms : List Message} {m : Message}
    (h : c.addMessages now ms = .ok c')
    (hm : m ∈ ms) :
    ∃ r ∈ c'.rows, r.message = m := by
  induction ms generalizing c with
  | nil =>
      exact absurd hm List.not_mem_nil
  | cons m' ms ih =>
      have hall := storable_of_addMessages h
      rw [List.all_cons, Bool.and_eq_true] at hall
      have hrest : (c.insert now m').addMessages now ms = .ok c' := by
        rw [addMessages, if_pos hall.2]
        rw [addMessages, if_pos (by rw [List.all_cons, hall.1, hall.2]; rfl)] at h
        exact h
      rcases List.mem_cons.mp hm with rfl | hm
      · exact ⟨_, mem_of_addMessages hrest (mem_insert_iff.mpr (Or.inr rfl)), rfl⟩
      · exact ih hrest hm

/-- A single message is inserted, unless its event is not stored. -/
theorem addMessages_singleton
    {c' : MessageCache} {now : Nat} {m : Message}
    (h : c.addMessages now [m] = .ok c') :
    c' = c.insert now m := by
  unfold addMessages at h
  split at h
  · cases h
    rfl
  · cases h

theorem mem_markPublished_iff
    {id : String} {r : StoredMessage} :
    r ∈ (c.markPublished id).rows
      ↔
    ∃ r' ∈ c.rows,
      (if r'.message.id = id then { r' with published := true } else r') =
        r := by
  simp [markPublished, update]

theorem rowID?_eq_none_iff
    {id : String} :
    c.rowID? id = none ↔ ∀ r ∈ c.rows, r.message.id ≠ id := by
  simp [rowID?]

theorem mem_select_iff
    {p : StoredMessage → Bool} {m : Message} :
    m ∈ c.select p ↔ ∃ r ∈ c.rows, p r = true ∧ r.message = m := by
  simp [select, and_assoc]

/-- Rows are told apart by their IDs. -/
theorem eq_of_rowID_eq
    {r r' : StoredMessage}
    (hr : r ∈ c.rows) (hr' : r' ∈ c.rows)
    (h : r.rowID = r'.rowID) :
    r = r' := by
  have hnodup : (c.rows.map StoredMessage.rowID).Nodup :=
    List.pairwise_map.mpr (c.increasing.imp (fun hlt => Nat.ne_of_lt hlt))
  exact List.inj_on_of_nodup_map hnodup hr hr' h

end Queries

end MessageCache

end Server
end CoopMessenger
