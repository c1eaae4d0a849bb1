import CoopMessenger.Library.Ranking
import CoopMessenger.Library.Slots
import CoopMessenger.Web.Utils

/-!
# Notifications of the web application

The table `notifications` of `web/src/app/db.js`, and the three ways by which events of a
subscription get there: one by one from a connection (`handleNotification` of
`web/src/components/hooks.js`), one by one from the service worker (`web/public/sw.js`),
and many at once from `web/src/app/Poller.js`.

**Results.**
* `mem_ownEntries_iff`: reading an object by its entries gives all of them.
* `find?_latest`: what the poller takes for the latest event of a sequence.
-/

namespace CoopMessenger
namespace Web

open Library

namespace Notifications

section Events

inductive EventType where
  | message
  | messageDelete
  | messageClear
  | coopNudge
deriving DecidableEq, Repr

/-- An event from the server; texts that are missing are empty, but there is an ID. -/
structure Event where
  id : JSString
  sequenceID : JSString
  time : Nat
  event : EventType
  sender : JSString
  content : JSString
  id_ne : id ≠ []
deriving DecidableEq

/-- `sequence_id || id` -/
def Event.sequence (e : Event) : JSString :=
  if e.sequenceID = [] then e.id else e.sequenceID

/-- A row of the table; the marker `new` may be missing. -/
structure Notification where
  subscriptionId : JSString
  sequenceId : JSString
  message : Event
  new : Option Nat
deriving DecidableEq

def Notification.id (n : Notification) : JSString :=
  n.message.id

abbrev Store : Type :=
  Table Notification.id

def Notification.slot (n : Notification) : JSString × JSString :=
  (n.subscriptionId, n.sequenceId)

/-- `messageWithSequenceId`, for a subscription -/
def toNotification
    (subscriptionId : JSString)
    (new : Option Nat)
    (e : Event) : Notification :=
  ⟨subscriptionId, e.sequence, e, new⟩

end Events

section Handlers

variable (subscriptionId : JSString)

def deleteNotificationBySequenceId
    (T : Store)
    (sequenceId : JSString) : Store :=
  T.deleteSlot Notification.slot (subscriptionId, sequenceId)

/-- The row with the marker taken away, if it is in the slot. -/
def Notification.markRead
    (s : JSString × JSString)
    (n : Notification) : Notification :=
  if n.slot = s then
    { n with new := some 0 }
  else
    n

theorem markRead_id
    (s : JSString × JSString)
    (n : Notification) :
    (n.markRead s).id = n.id := by
  unfold Notification.markRead
  split <;> rfl

def markNotificationReadBySequenceId
    (T : Store)
    (sequenceId : JSString) : Store :=
  T.modify (Notification.markRead (subscriptionId, sequenceId)) (markRead_id _)

/-- Nothing is added under an ID that exists, nor for a deletion or a clearing. -/
def addNotification
    (username : JSString)
    (T : Store)
    (e : Event) : Store :=
  let isOwnMessage := username ≠ [] ∧ e.sender ≠ [] ∧ e.sender = username
  if (T.find? e.id).isSome ∨ e.event = .messageDelete ∨ e.event = .messageClear then
    T
  else
    (T.insert? (toNotification subscriptionId (some (if isOwnMessage then 0 else 1)) e)).getD T

/-- `handleNotification` of the connection -/
def handleNotification
    (username : JSString)
    (T : Store)
    (e : Event) : Store :=
  if e.event = .messageDelete ∧ e.sequenceID ≠ [] then
    deleteNotificationBySequenceId subscriptionId T e.sequenceID
  else if e.event = .messageClear ∧ e.sequenceID ≠ [] then
    markNotificationReadBySequenceId subscriptionId T e.sequenceID
  else
    addNotification subscriptionId username
      (deleteNotificationBySequenceId subscriptionId T e.sequence) e

/-- An insert under an ID that exists throws, after the deletion. -/
def handlePushMessage
    (T : Store)
    (e : Event) : Store :=
  let T := deleteNotificationBySequenceId subscriptionId T e.sequence
  (T.insert? (toNotification subscriptionId (some 1) e)).getD T

def handlePushMessageDelete
    (T : Store)
    (e : Event) : Store :=
  if e.sequenceID ≠ [] then
    deleteNotificationBySequenceId subscriptionId T e.sequenceID
  else
    T

def handlePushMessageClear
    (T : Store)
    (e : Event) : Store :=
  if e.sequenceID ≠ [] then
    markNotificationReadBySequenceId subscriptionId T e.sequenceID
  else
    T

/-- `handlePush` of the service worker, for a subscription that it knows -/
def handlePush
    (T : Store)
    (e : Event) : Store :=
  match e.event with
  | .message => handlePushMessage subscriptionId T e
  | .messageDelete => handlePushMessageDelete subscriptionId T e
  | .messageClear => handlePushMessageClear subscriptionId T e
  | .coopNudge => T

end Handlers

section Polling

/-- The names that every object has from its prototype. -/
def inheritedNames : List JSString :=
  ["constructor", "__defineGetter__", "__defineSetter__", "hasOwnProperty",
    "__lookupGetter__", "__lookupSetter__", "isPrototypeOf", "propertyIsEnumerable",
    "toString", "valueOf", "__proto__", "toLocaleString"].map JSString.ofString

theorem contains_inheritedNames_iff
    (name : JSString) :
    inheritedNames.contains name = true ↔ name ∈ inheritedNames :=
  List.contains_iff_mem

instance decidableInherited
    (name : JSString) :
    Decidable (name ∈ inheritedNames) :=
  decidable_of_iff _ (contains_inheritedNames_iff name)

/-- The properties of a plain object in the order in which they were added. -/
abbrev Entries : Type :=
  Table (Prod.fst : JSString × Event → JSString)

def setEntry
    (entries : Entries)
    (e : Event) : Entries :=
  entries.put (e.sequence, e)

/--
An inherited name is in the object, but its value has no time, and no time is compared
with that; so nothing is set.
-/
def addLatest
    (latest : Entries)
    (e : Event) : Entries :=
  if e.sequence ∈ inheritedNames then
    latest
  else
    match latest.find? e.sequence with
    | none => setEntry latest e
    | some (_, old) => if old.time ≤ e.time then setEntry latest e else latest

def latestNotificationsBySequenceId (es : List Event) : Entries :=
  es.foldl addLatest Table.empty

/-- The number of a name that is an index of an array. -/
def arrayIndex (name : JSString) : Option Nat :=
  let digits := name.map fun c => c.toNat - 48
  let value := digits.foldl (fun n d => 10 * n + d) 0
  if name ≠ [] ∧ (name.all fun c => 48 ≤ c.toNat && c.toNat ≤ 57) ∧
      (digits.head? = some 0 → digits = [0]) ∧ value < 2 ^ 32 - 1 then
    some value
  else
    none

/-- `Object.entries`: indices in their order, then the others as they were added. -/
def ownEntries (entries : Entries) : List (JSString × Event) :=
  orderBy (fun p => (arrayIndex p.1).getD 0)
      (entries.rows.filter fun p => (arrayIndex p.1).isSome) ++
    entries.rows.filter fun p => (arrayIndex p.1).isNone

variable (subscriptionId : JSString)

/-- `addNotifications` -/
def addNotifications
    (T : Store)
    (es : List Event) : Store :=
  (es.map (toNotification subscriptionId none)).foldl Table.put T

/-- `poll`, with the events that the server has answered -/
def poll
    (pruneThreshold : Nat)
    (T : Store)
    (es : List Event) : Store :=
  let recent := if 0 < pruneThreshold then es.filter fun e => pruneThreshold ≤ e.time else es
  let entries := ownEntries (latestNotificationsBySequenceId recent)
  let deleted := (entries.filter fun p => p.2.event = .messageDelete).map Prod.fst
  let toAdd := (entries.map Prod.snd).filter fun e => e.event = .message
  addNotifications subscriptionId
    (deleted.foldl (deleteNotificationBySequenceId subscriptionId) T) toAdd

end Polling

section Entries

theorem mem_ownEntries_iff
    {entries : Entries} {p : JSString × Event} :
    p ∈ ownEntries entries ↔ p ∈ entries := by
  rw [ownEntries, List.mem_append, mem_orderBy, List.mem_filter, List.mem_filter,
    Table.mem_def]
  cases arrayIndex p.1 <;> simp

theorem nodup_ownEntries
    (entries : Entries) :
    ((ownEntries entries).map Prod.fst).Nodup := by
  have hperm : (ownEntries entries).Perm entries.rows := by
    refine (perm_orderBy.append_right _).trans ?_
    have hsplit := List.filter_append_perm (fun p : JSString × Event =>
      (arrayIndex p.1).isSome) entries.rows
    simpa using hsplit
  exact (hperm.map Prod.fst).nodup_iff.mpr entries.nodup

theorem find?_setEntry
    {entries : Entries} {e : Event} {name : JSString} :
    (setEntry entries e).find? name =
      if e.sequence = name then some (e.sequence, e) else entries.find? name := by
  apply Option.ext
  intro p
  rw [Table.find?_eq_some_iff, setEntry, Table.mem_put_iff]
  split
  · next h =>
      subst h
      simp only [Option.some.injEq]
      constructor
      · rintro ⟨rfl | ⟨-, hne⟩, hkey⟩
        · rfl
        · exact absurd hkey hne
      · rintro rfl
        exact ⟨Or.inl rfl, rfl⟩
  · next h =>
      rw [Table.find?_eq_some_iff]
      constructor
      · rintro ⟨rfl | ⟨hp, -⟩, hkey⟩
        · exact absurd hkey h
        · exact ⟨hp, hkey⟩
      · rintro ⟨hp, rfl⟩
        exact ⟨Or.inr ⟨hp, Ne.symm h⟩, rfl⟩

/-- With times that do not decrease, the latest event of a sequence is the last one. -/
theorem find?_latest
    {es : List Event}
    (htimes : es.Pairwise fun e e' => e.time ≤ e'.time)
    (name : JSString) :
    (latestNotificationsBySequenceId es).find? name =
      if name ∈ inheritedNames then
        none
      else
        (lastWhere (fun e => decide (e.sequence = name)) es).map fun e => (name, e) := by
  induction es using List.reverseRecOn generalizing name with
  | nil =>
      simp [latestNotificationsBySequenceId, Table.find?, Table.empty]
  | append_singleton es e ih =>
      obtain ⟨htimes, -, hlast⟩ := List.pairwise_append.mp htimes
      have hih := ih htimes
      have hsplit : latestNotificationsBySequenceId (es ++ [e]) =
          addLatest (latestNotificationsBySequenceId es) e := by
        simp [latestNotificationsBySequenceId, List.foldl_append]
      rw [hsplit, lastWhere_append_singleton]
      by_cases hinherited : e.sequence ∈ inheritedNames
      · rw [addLatest, if_pos hinherited, hih name]
        split
        · rfl
        · next hname =>
            have hne : e.sequence ≠ name := fun h => hname (h ▸ hinherited)
            simp [hne]
      · have hset : addLatest (latestNotificationsBySequenceId es) e =
            setEntry (latestNotificationsBySequenceId es) e := by
          rw [addLatest, if_neg hinherited, hih e.sequence, if_neg hinherited]
          cases hold : lastWhere (fun e' => decide (e'.sequence = e.sequence)) es with
          | none =>
              rfl
          | some old =>
              have htime := hlast old (lastWhere_spec hold).1 e (List.mem_singleton.mpr rfl)
              simp [htime]
        rw [hset, find?_setEntry, hih name]
        by_cases hname : e.sequence = name
        · simp [hname ▸ hinherited, hname]
        · simp [hname]

end Entries

end Notifications
end Web
end CoopMessenger
