import CoopMessenger.Library.Runs
import CoopMessenger.Server.MessageCache
import CoopMessenger.Util.BatchingQueue

/-!
# Publishing against subscribing

Publishers and streaming subscribers of one topic.  A publisher starts a
goroutine that copies the subscriber map and forwards the message to the copy,
deletes the scheduled messages of its sequence and adds the message to the
cache, directly or through the batching queue.  A subscriber registers, and then
reads the cache from its marker on.

A message is lost to a subscriber that was too late for the copy and too early,
or with the wrong marker, for the cache.

**Results.**
* `Stored.step`, `Fanout.step`: where messages are, and who got them.
* `mem_messages_iff`: what the read of the cache returns.
* `not_lost_iff`: which runs lose no message.
-/

namespace CoopMessenger
namespace Server

open Library Util

namespace Delivery

section Model

/-- What a subscriber asks for; the ID of a message is well formed. -/
inductive SinceParam where
  | none
  | all
  | latest
  | id (id : String) (h : validMessageID id = true)
  | time (timestamp : Int)
deriving DecidableEq

/-- Returns the marker that identifies the span of cached messages. -/
def parseSince : SinceParam → SinceMarker
  | .none => sinceNoMessages
  | .all => sinceAllMessages
  | .latest => sinceLatestMessage
  | .id id _ => newSinceID id
  | .time timestamp => newSinceTime timestamp

/-- How far a publisher is: the topic has it, the sequence is clear, it is added. -/
inductive Stage where
  | sent
  | cleared
  | added
deriving DecidableEq, Repr

/--
A message being published; `copied` are the subscribers it was forwarded to,
once its goroutine has copied them.
-/
structure Publication where
  message : Message
  copied : Option (List Nat)
  stage : Stage
deriving DecidableEq

/-- A subscriber has looked up the topic, is registered, or has read the cache. -/
inductive Phase where
  | connecting
  | subscribed
  | done
deriving DecidableEq, Repr

/-- A subscriber and the messages passed to it. -/
structure Subscriber where
  id : Nat
  since : SinceParam
  scheduled : Bool
  phase : Phase
  received : List Message
deriving DecidableEq

structure State where
  now : Nat
  cache : MessageCache
  queue : Option (BatchingQueue Message)
  publications : List Publication
  subscribers : Table Subscriber.id

/-- The registered subscribers. -/
def subscribersCopy
    (subscribers : Table Subscriber.id) : List Nat :=
  (subscribers.rows.filter
    (fun sub => decide (sub.phase ≠ .connecting))).map Subscriber.id

/-- Pass a message to a registered subscriber. -/
def forward
    (m : Message)
    (sub : Subscriber) : Subscriber :=
  if sub.phase ≠ .connecting then
    { sub with received := sub.received ++ [m] }
  else
    sub

theorem forward_id
    (m : Message) (sub : Subscriber) :
    (forward m sub).id = sub.id := by
  unfold forward
  split <;> rfl

/-- Write a batch to the cache; an error is logged and the batch is gone. -/
def store
    (c : MessageCache)
    (now : Nat)
    (ms : List Message) : MessageCache :=
  match c.addMessages now ms with
  | .ok c' => c'
  | .error _ => c

/--
The steps of publishers (`publish`, `copy`, `clear`, `add`), of the queue
(`tickQueue`, `commit`) and of subscribers (`connect`, `subscribe`, `read`).
-/
inductive Label where
  | tick (seconds : Nat)
  | publish (m : Message)
  | copy (i : Nat)
  | clear (i : Nat)
  | add (i : Nat)
  | tickQueue
  | commit (k : Nat)
  | connect (id : Nat) (since : SinceParam) (scheduled : Bool)
  | subscribe (id : Nat)
  | read (id : Nat)
deriving DecidableEq

/-- One step; `none` if it is not enabled.  New messages have fresh random IDs. -/
def step
    (topic : String)
    (s : State) : Label → Option State
  | .tick seconds => some { s with now := s.now + seconds }
  | .publish m =>
      if m.event = .message ∧ m.topic = topic ∧ m.time ≤ s.now ∧
          (∀ p ∈ s.publications, p.message.id ≠ m.id) ∧
          s.cache.rowID? m.id = none then
        some { s with publications := s.publications ++ [⟨m, none, .sent⟩] }
      else
        none
  | .copy i =>
      match s.publications[i]? with
      | some ⟨m, none, stage⟩ =>
          some
            { s with
              publications :=
                s.publications.set i
                  ⟨m, some (subscribersCopy s.subscribers), stage⟩
              subscribers := s.subscribers.modify (forward m) (forward_id m) }
      | _ => none
  | .clear i =>
      match s.publications[i]? with
      | some ⟨m, copied, .sent⟩ =>
          some
            { s with
              publications := s.publications.set i ⟨m, copied, .cleared⟩
              cache := s.cache.deleteScheduledBySequenceID topic m.sequenceID }
      | _ => none
  | .add i =>
      match s.publications[i]? with
      | some ⟨m, copied, .cleared⟩ =>
          let publications := s.publications.set i ⟨m, copied, .added⟩
          match s.queue with
          | none =>
              some { s with publications, cache := store s.cache s.now [m] }
          | some q =>
              some { s with publications, queue := some (q.enqueue m) }
      | _ => none
  | .tickQueue =>
      match s.queue with
      | none => none
      | some q => some { s with queue := some q.tick }
  | .commit k =>
      match s.queue with
      | none => none
      | some q =>
          (q.dequeue k).map (fun (batch, q') =>
            { s with
              cache := store s.cache s.now batch
              queue := some q' })
  | .connect id since scheduled =>
      (s.subscribers.insert? ⟨id, since, scheduled, .connecting, []⟩).map
        (fun subscribers => { s with subscribers })
  | .subscribe id =>
      match s.subscribers.find? id with
      | some ⟨_, _, _, .connecting, _⟩ =>
          some
            { s with
              subscribers :=
                s.subscribers.modify
                  (fun sub => if sub.id = id then
                    { sub with phase := .subscribed } else sub)
                  (by intro sub; split <;> rfl) }
      | _ => none
  | .read id =>
      match s.subscribers.find? id with
      | some ⟨_, since, scheduled, .subscribed, _⟩ =>
          let old := s.cache.messages topic (parseSince since) scheduled
          some
            { s with
              subscribers :=
                s.subscribers.modify
                  (fun sub => if sub.id = id then
                    { sub with phase := .done, received := sub.received ++ old }
                    else sub)
                  (by intro sub; split <;> rfl) }
      | _ => none

end Model

section Specification

/-- The messages sent so far, each with the copy of the subscribers. -/
def State.copies
    (s : State) : List (Message × Option (List Nat)) :=
  s.publications.map (fun p => (p.message, p.copied))

/--
The message sent at place `i` is wanted: everything is asked for, or what
follows an earlier message or an earlier time.
-/
def Wanted
    (messages : List Message)
    (i : Nat)
    (m : Message) : SinceParam → Prop
  | .none | .latest => False
  | .all => True
  | .id id _ => ∀ m' ∈ messages.drop i, m'.id ≠ id
  | .time timestamp => timestamp ≤ (m.time : Int)

/--
Whoever has read the cache got every message it wants whose subscribers have
been copied.
-/
def NotLost
    (copies : List (Message × Option (List Nat)))
    (subscribers : Table Subscriber.id) : Prop :=
  ∀ i m ids, copies[i]? = some (m, some ids) →
    ∀ sub ∈ subscribers, sub.phase = .done →
      Wanted (copies.map Prod.fst) i m sub.since → m ∈ sub.received

/-- A stored message is behind the marker. -/
def Covers
    (c : MessageCache)
    (r : StoredMessage) : SinceParam → Prop
  | .none | .latest => False
  | .all => True
  | .id id _ => ∀ rowID, c.rowID? id = some rowID → rowID < r.rowID
  | .time timestamp => timestamp ≠ 1

/--
A subscriber that reads the cache finds there, behind its marker, every message
it wants that was forwarded to a copy without it.
-/
def ReadsComplete
    (s : State) : Label → Prop
  | .read id =>
      ∀ sub ∈ s.subscribers, sub.id = id → sub.phase = .subscribed →
        ∀ i m ids, s.copies[i]? = some (m, some ids) → id ∉ ids →
          Wanted (s.copies.map Prod.fst) i m sub.since →
            ∃ r ∈ s.cache.rows, r.message = m ∧ Covers s.cache r sub.since
  | _ => True

end Specification

section Storage

/-- The messages sent so far. -/
def State.messages
    (s : State) : List Message :=
  s.publications.map Publication.message

theorem copies_map_fst
    (s : State) :
    s.copies.map Prod.fst = s.messages := by
  simp [State.copies, State.messages]

theorem set_eq_self
    {α : Type*} {xs : List α} {i : Nat} {x : α}
    (h : xs[i]? = some x) :
    xs.set i x = xs := by
  obtain ⟨hi, rfl⟩ := List.getElem?_eq_some_iff.mp h
  exact List.set_getElem_self hi

/-- Replacing a publication by one that looks the same changes no view of it. -/
theorem map_set_of_eq
    {β : Type*} {ps : List Publication} {i : Nat} {p : Publication}
    (f : Publication → β)
    (h : ps[i]? = some p)
    (p' : Publication)
    (heq : f p' = f p) :
    (ps.set i p').map f = ps.map f := by
  rw [List.map_set, heq]
  exact set_eq_self (by simp [h])

/-- Where the messages are that have been sent. -/
structure Stored
    (topic : String)
    (now : Nat)
    (messages : List Message)
    (queue : Option (BatchingQueue Message))
    (c : MessageCache) : Prop where
  times : ∀ m ∈ messages, m.time ≤ now
  topics : ∀ m ∈ messages, m.topic = topic
  ids : (messages.map Message.id).Nodup
  queued : ∀ q, queue = some q → ∀ m ∈ q.contents, m ∈ messages
  rows : ∀ r ∈ c.rows, ∀ m ∈ messages, r.message.id = m.id →
    r.message = m ∧ r.published = true

variable {topic : String}
variable {now : Nat}
variable {messages : List Message}
variable {queue : Option (BatchingQueue Message)}
variable {c : MessageCache}

theorem Stored.eq_of_id_eq
    (h : Stored topic now messages queue c)
    {m m' : Message}
    (hm : m ∈ messages) (hm' : m' ∈ messages)
    (hid : m.id = m'.id) :
    m = m' :=
  List.inj_on_of_nodup_map h.ids hm hm' hid

/-- Writing messages that have been sent. -/
theorem Stored.store
    (h : Stored topic now messages queue c)
    {queue' : Option (BatchingQueue Message)} {ms : List Message}
    (hms : ∀ m ∈ ms, m ∈ messages)
    (hqueue : ∀ q, queue' = some q → ∀ m ∈ q.contents, m ∈ messages) :
    Stored topic now messages queue' (store c now ms) := by
  refine ⟨h.times, h.topics, h.ids, hqueue, ?_⟩
  intro r hr m hm hid
  unfold Delivery.store at hr
  split at hr
  case h_2 =>
    exact h.rows r hr m hm hid
  case h_1 c' hc' =>
    rcases MessageCache.mem_addMessages hc' hr with hold | ⟨hmem, hpublished⟩
    · exact h.rows r hold m hm hid
    · refine ⟨h.eq_of_id_eq (hms _ hmem) hm hid, ?_⟩
      simpa [hpublished] using h.times _ (hms _ hmem)

/-- A message that is sent has a new ID. -/
theorem Stored.publish
    (h : Stored topic now messages queue c)
    {m : Message}
    (htopic : m.topic = topic)
    (htime : m.time ≤ now)
    (hfresh : ∀ m' ∈ messages, m'.id ≠ m.id)
    (hrow : c.rowID? m.id = none) :
    Stored topic now (messages ++ [m]) queue c := by
  rw [MessageCache.rowID?_eq_none_iff] at hrow
  constructor
  case times =>
    intro m' hm'
    rcases List.mem_append.mp hm' with hold | hnew
    · exact h.times m' hold
    · rwa [List.mem_singleton.mp hnew]
  case topics =>
    intro m' hm'
    rcases List.mem_append.mp hm' with hold | hnew
    · exact h.topics m' hold
    · rwa [List.mem_singleton.mp hnew]
  case ids =>
    rw [List.map_append, List.map_singleton]
    refine h.ids.append (List.nodup_singleton _) ?_
    intro id hid hid'
    obtain ⟨m', hm', rfl⟩ := List.mem_map.mp hid
    exact hfresh m' hm' (List.mem_singleton.mp hid')
  case queued =>
    intro q hq m' hm'
    exact List.mem_append_left _ (h.queued q hq m' hm')
  case rows =>
    intro r hr m' hm' hid
    rcases List.mem_append.mp hm' with hold | hnew
    · exact h.rows r hr m' hold hid
    · rw [List.mem_singleton.mp hnew] at hid
      exact absurd hid (hrow r hr)

/-- Every step keeps track of the messages. -/
theorem Stored.step
    {s s' : State} {l : Label}
    (h : Stored topic s.now s.messages s.queue s.cache)
    (hstep : step topic s l = some s') :
    Stored topic s'.now s'.messages s'.queue s'.cache := by
  cases l with
  | tick seconds =>
      cases hstep
      exact ⟨fun m hm => Nat.le_add_right_of_le (h.times m hm), h.topics,
        h.ids, h.queued, h.rows⟩
  | publish m =>
      simp only [Delivery.step] at hstep
      split at hstep
      case isFalse =>
        cases hstep
      case isTrue hguard =>
        cases hstep
        obtain ⟨-, htopic, htime, hfresh, hrow⟩ := hguard
        have hfresh' : ∀ m' ∈ s.messages, m'.id ≠ m.id := by
          intro m' hm'
          obtain ⟨p, hp, rfl⟩ := List.mem_map.mp hm'
          exact hfresh p hp
        simpa [State.messages] using h.publish htopic htime hfresh' hrow
  | copy i =>
      simp only [Delivery.step] at hstep
      split at hstep
      · rename_i m stage hp
        cases hstep
        simp only [State.messages]
        rw [map_set_of_eq Publication.message hp ⟨m, some _, stage⟩ rfl]
        exact h
      · cases hstep
  | clear i =>
      simp only [Delivery.step] at hstep
      split at hstep
      · rename_i m copied hp
        cases hstep
        simp only [State.messages]
        rw [map_set_of_eq Publication.message hp ⟨m, copied, .cleared⟩ rfl]
        exact ⟨h.times, h.topics, h.ids, h.queued,
          fun r hr => h.rows r (List.mem_of_mem_filter hr)⟩
      · cases hstep
  | add i =>
      simp only [Delivery.step] at hstep
      split at hstep
      · rename_i m copied hp
        have hm : m ∈ s.messages :=
          List.mem_map_of_mem (List.mem_of_getElem? hp)
        split at hstep
        · rename_i hqueue
          cases hstep
          simp only [State.messages]
          rw [map_set_of_eq Publication.message hp ⟨m, copied, .added⟩ rfl]
          exact h.store (by simpa using hm) (by simp [hqueue])
        · rename_i q hqueue
          cases hstep
          simp only [State.messages]
          rw [map_set_of_eq Publication.message hp ⟨m, copied, .added⟩ rfl]
          refine ⟨h.times, h.topics, h.ids, ?_, h.rows⟩
          rintro q' hq' m' hm'
          cases hq'
          rw [BatchingQueue.contents_enqueue] at hm'
          rcases List.mem_append.mp hm' with hold | hnew
          · exact h.queued q hqueue m' hold
          · rwa [List.mem_singleton.mp hnew]
      · cases hstep
  | tickQueue =>
      simp only [Delivery.step] at hstep
      split at hstep
      · cases hstep
      · rename_i q hqueue
        cases hstep
        refine ⟨h.times, h.topics, h.ids, ?_, h.rows⟩
        rintro q' hq' m' hm'
        cases hq'
        rw [BatchingQueue.contents_tick] at hm'
        exact h.queued q hqueue m' hm'
  | commit k =>
      simp only [Delivery.step] at hstep
      split at hstep
      · cases hstep
      · rename_i q hqueue
        obtain ⟨⟨batch, q'⟩, hdequeue, rfl⟩ := Option.map_eq_some_iff.mp hstep
        refine h.store ?_ ?_
        · intro m hm
          exact h.queued q hqueue m
            (BatchingQueue.mem_contents_of_dequeue hdequeue (Or.inl hm))
        · rintro q₁ hq₁ m hm
          cases hq₁
          exact h.queued q hqueue m
            (BatchingQueue.mem_contents_of_dequeue hdequeue (Or.inr hm))
  | connect id since scheduled =>
      obtain ⟨subscribers, -, rfl⟩ := Option.map_eq_some_iff.mp hstep
      exact h
  | subscribe id =>
      simp only [Delivery.step] at hstep
      split at hstep
      · cases hstep
        exact h
      · cases hstep
  | read id =>
      simp only [Delivery.step] at hstep
      split at hstep
      · cases hstep
        exact h
      · cases hstep

/-- What a subscriber that wants a message gets of it from the cache. -/
theorem mem_messages_iff
    (h : Stored topic now messages queue c)
    {i : Nat} {m : Message} {since : SinceParam} (scheduled : Bool)
    (hm : m ∈ messages)
    (hwanted : Wanted messages i m since) :
    m ∈ c.messages topic (parseSince since) scheduled
      ↔
    ∃ r ∈ c.rows, r.message = m ∧ Covers c r since := by
  have htopic := h.topics m hm
  have hpublished : ∀ r ∈ c.rows, r.message = m → r.published = true :=
    fun r hr heq => (h.rows r hr m hm (congrArg Message.id heq)).2
  cases since with
  | none =>
      cases hwanted
  | latest =>
      cases hwanted
  | all =>
      have hmarker : c.messages topic (parseSince .all) scheduled =
          c.messagesSinceTime topic sinceAllMessages scheduled := rfl
      rw [hmarker, MessageCache.messagesSinceTime, MessageCache.mem_select_iff]
      constructor
      · rintro ⟨r, hr, -, rfl⟩
        exact ⟨r, hr, rfl, trivial⟩
      · rintro ⟨r, hr, rfl, -⟩
        exact ⟨r, hr, by simp [htopic, hpublished r hr rfl, sinceAllMessages],
          rfl⟩
  | time timestamp =>
      by_cases hone : timestamp = 1
      · subst hone
        have hmarker : c.messages topic (parseSince (.time 1)) scheduled = [] :=
          rfl
        simp [hmarker, Covers]
      · have hmarker : c.messages topic (parseSince (.time timestamp)) scheduled =
            c.messagesSinceTime topic (newSinceTime timestamp) scheduled := by
          simp [MessageCache.messages, parseSince, newSinceTime,
            SinceMarker.isNone, SinceMarker.isLatest, SinceMarker.isID,
            sinceNoMessages, sinceLatestMessage, hone]
        rw [hmarker, MessageCache.messagesSinceTime,
          MessageCache.mem_select_iff]
        constructor
        · rintro ⟨r, hr, -, rfl⟩
          exact ⟨r, hr, rfl, hone⟩
        · rintro ⟨r, hr, rfl, -⟩
          have htime : timestamp ≤ (r.message.time : Int) := hwanted
          exact ⟨r, hr,
            by simp [htopic, hpublished r hr rfl, newSinceTime, htime], rfl⟩
  | id id hvalid =>
      obtain ⟨hnone, hlatest, hid⟩ := SinceMarker.newSinceID_of_valid hvalid
      have hmarker : c.messages topic (parseSince (.id id hvalid)) scheduled =
          c.messagesSinceID topic (newSinceID id) scheduled := by
        simp [MessageCache.messages, parseSince, hnone, hlatest, hid]
      rw [hmarker, MessageCache.messagesSinceID]
      simp only [newSinceID, Covers]
      cases c.rowID? id with
      | none =>
          simp only [MessageCache.messagesSinceTime,
            MessageCache.mem_select_iff]
          constructor
          · rintro ⟨r, hr, -, rfl⟩
            exact ⟨r, hr, rfl, by simp⟩
          · rintro ⟨r, hr, rfl, -⟩
            exact ⟨r, hr,
              by simp [htopic, hpublished r hr rfl, sinceAllMessages], rfl⟩
      | some rowID =>
          simp only [MessageCache.mem_select_iff, Option.some.injEq, forall_eq']
          constructor
          · rintro ⟨r, hr, hselected, rfl⟩
            refine ⟨r, hr, rfl, ?_⟩
            cases scheduled <;> simp_all
          · rintro ⟨r, hr, rfl, hlt⟩
            refine ⟨r, hr, ?_, rfl⟩
            cases scheduled <;> simp [htopic, hpublished r hr rfl, hlt]

end Storage

section Fanning

/-- The state of a subscriber after it has read the cache. -/
def afterRead
    (id : Nat)
    (old : List Message)
    (sub : Subscriber) : Subscriber :=
  if sub.id = id then
    { sub with phase := .done, received := sub.received ++ old }
  else
    sub

/-- The state of a subscriber after it has been registered. -/
def afterSubscribe
    (id : Nat)
    (sub : Subscriber) : Subscriber :=
  if sub.id = id then { sub with phase := .subscribed } else sub

/-- What a step can do to the copies and to the subscribers. -/
inductive Effect
    (topic : String)
    (s : State) :
    Label → List (Message × Option (List Nat)) → Table Subscriber.id → Prop
  | storage
      {l : Label}
      (hl : ∀ id, l ≠ .read id) :
      Effect topic s l s.copies s.subscribers
  | publish
      (m : Message) :
      Effect topic s (.publish m) (s.copies ++ [(m, none)]) s.subscribers
  | copy
      {i : Nat} {m : Message}
      (hcopy : s.copies[i]? = some (m, none)) :
      Effect topic s (.copy i)
        (s.copies.set i (m, some (subscribersCopy s.subscribers)))
        (s.subscribers.modify (forward m) (forward_id m))
  | connect
      {id : Nat} {since : SinceParam} {scheduled : Bool}
      {subscribers : Table Subscriber.id}
      (hinsert : s.subscribers.insert? ⟨id, since, scheduled, .connecting, []⟩ =
        some subscribers) :
      Effect topic s (.connect id since scheduled) s.copies subscribers
  | subscribe
      (id : Nat)
      {subscribers : Table Subscriber.id}
      (hmem : ∀ sub, sub ∈ subscribers ↔
        ∃ sub' ∈ s.subscribers, afterSubscribe id sub' = sub)
      (hconnecting : ∀ sub ∈ s.subscribers, sub.id = id →
        sub.phase = .connecting) :
      Effect topic s (.subscribe id) s.copies subscribers
  | read
      {sub : Subscriber}
      {subscribers : Table Subscriber.id}
      (hsub : sub ∈ s.subscribers)
      (hphase : sub.phase = .subscribed)
      (hmem : ∀ sub', sub' ∈ subscribers ↔ ∃ sub'' ∈ s.subscribers,
        afterRead sub.id (s.cache.messages topic (parseSince sub.since)
          sub.scheduled) sub'' = sub') :
      Effect topic s (.read sub.id) s.copies subscribers

variable {topic : String}
variable {s s' : State}
variable {l : Label}

/-- What a read does to the subscribers. -/
theorem step_read
    {id : Nat}
    (hstep : step topic s (.read id) = some s') :
    ∃ sub ∈ s.subscribers, sub.id = id ∧ sub.phase = .subscribed ∧
      s'.copies = s.copies ∧
      ∀ sub', sub' ∈ s'.subscribers ↔ ∃ sub'' ∈ s.subscribers,
        afterRead sub.id (s.cache.messages topic (parseSince sub.since)
          sub.scheduled) sub'' = sub' := by
  simp only [step] at hstep
  split at hstep
  · rename_i hfind
    cases hstep
    obtain ⟨hmem, rfl⟩ := Table.find?_eq_some_iff.mp hfind
    refine ⟨_, hmem, rfl, rfl, rfl, ?_⟩
    intro sub'
    rw [Table.mem_modify_iff]
    rfl
  · cases hstep

/-- Every step has one of these effects. -/
theorem step_effect
    (hstep : step topic s l = some s') :
    Effect topic s l s'.copies s'.subscribers := by
  cases l with
  | tick seconds =>
      cases hstep
      exact Effect.storage (by simp)
  | publish m =>
      simp only [step] at hstep
      split at hstep
      · cases hstep
        have heffect : Effect topic s (.publish m) _ _ := Effect.publish m
        simpa [State.copies] using heffect
      · cases hstep
  | copy i =>
      simp only [step] at hstep
      split at hstep
      · rename_i m stage hp
        cases hstep
        have hcopy : s.copies[i]? = some (m, none) := by
          simp [State.copies, hp]
        have heffect : Effect topic s (.copy i) _ _ := Effect.copy hcopy
        simpa [State.copies, List.map_set] using heffect
      · cases hstep
  | clear i =>
      simp only [step] at hstep
      split at hstep
      · rename_i m copied hp
        cases hstep
        simp only [State.copies]
        rw [map_set_of_eq (fun p => (p.message, p.copied)) hp
          ⟨m, copied, .cleared⟩ rfl]
        exact Effect.storage (by simp)
      · cases hstep
  | add i =>
      simp only [step] at hstep
      split at hstep
      · rename_i m copied hp
        have hcopies := map_set_of_eq (fun p => (p.message, p.copied)) hp
          ⟨m, copied, .added⟩ rfl
        split at hstep
        · cases hstep
          simp only [State.copies, hcopies]
          exact Effect.storage (by simp)
        · cases hstep
          simp only [State.copies, hcopies]
          exact Effect.storage (by simp)
      · cases hstep
  | tickQueue =>
      simp only [step] at hstep
      split at hstep
      · cases hstep
      · cases hstep
        exact Effect.storage (by simp)
  | commit k =>
      simp only [step] at hstep
      split at hstep
      · cases hstep
      · obtain ⟨p, -, rfl⟩ := Option.map_eq_some_iff.mp hstep
        exact Effect.storage (by simp)
  | connect id since scheduled =>
      obtain ⟨subscribers, hinsert, rfl⟩ := Option.map_eq_some_iff.mp hstep
      exact Effect.connect hinsert
  | subscribe id =>
      simp only [step] at hstep
      split at hstep
      · rename_i hfind
        cases hstep
        refine Effect.subscribe id ?_ ?_
        · intro sub
          rw [Table.mem_modify_iff]
          rfl
        · intro sub hsub hid
          obtain ⟨hmem, hkey⟩ := Table.find?_eq_some_iff.mp hfind
          rw [Table.eq_of_key_eq hsub hmem (hid.trans hkey.symm)]
      · cases hstep
  | read id =>
      obtain ⟨sub, hsub, rfl, hphase, hcopies, hmem⟩ := step_read hstep
      rw [hcopies]
      exact Effect.read hsub hphase hmem

/-- Who got what before it read the cache, and from which copy. -/
structure Fanout
    (copies : List (Message × Option (List Nat)))
    (subscribers : Table Subscriber.id) : Prop where
  received : ∀ sub ∈ subscribers, sub.phase ≠ .done →
    ∀ m ∈ sub.received, ∃ ids, (m, some ids) ∈ copies ∧ sub.id ∈ ids
  copied : ∀ m ids, (m, some ids) ∈ copies → ∀ id ∈ ids,
    ∃ sub ∈ subscribers, sub.id = id ∧ sub.phase ≠ .connecting ∧
      m ∈ sub.received

/-- A copy that has been made stays where it is. -/
theorem mem_set_of_copied
    {copies : List (Message × Option (List Nat))} {i : Nat} {m m' : Message}
    {ids' : List Nat}
    (hcopy : copies[i]? = some (m, none))
    (hmem : (m', some ids') ∈ copies)
    (x : Message × Option (List Nat)) :
    (m', some ids') ∈ copies.set i x := by
  obtain ⟨j, hj⟩ := List.mem_iff_getElem?.mp hmem
  have hne : i ≠ j := by
    rintro rfl
    rw [hcopy] at hj
    cases hj
  rw [List.mem_iff_getElem?]
  exact ⟨j, by rw [List.getElem?_set_ne hne]; exact hj⟩

theorem mem_subscribersCopy_iff
    {subscribers : Table Subscriber.id} {id : Nat} :
    id ∈ subscribersCopy subscribers
      ↔
    ∃ sub ∈ subscribers, sub.phase ≠ .connecting ∧ sub.id = id := by
  simp [subscribersCopy, Table.mem_def, and_assoc]

theorem Fanout.effect
    {copies : List (Message × Option (List Nat))}
    {subscribers : Table Subscriber.id}
    (h : Fanout s.copies s.subscribers)
    (heffect : Effect topic s l copies subscribers) :
    Fanout copies subscribers := by
  cases heffect with
  | storage hl =>
      exact h
  | publish m =>
      constructor
      · intro sub hsub hphase m' hm'
        obtain ⟨ids, hmem, hid⟩ := h.received sub hsub hphase m' hm'
        exact ⟨ids, List.mem_append_left _ hmem, hid⟩
      · intro m' ids hmem
        exact h.copied m' ids (by simpa using hmem)
  | copy hcopy =>
      rename_i i m
      constructor
      · intro sub hsub hphase m' hm'
        rw [Table.mem_modify_iff] at hsub
        obtain ⟨sub', hsub', rfl⟩ := hsub
        by_cases hconn : sub'.phase ≠ .connecting
        · simp only [forward, if_pos hconn] at hphase hm' ⊢
          rcases List.mem_append.mp hm' with hold | hnew
          · obtain ⟨ids, hmem, hid⟩ := h.received sub' hsub' hphase m' hold
            exact ⟨ids, mem_set_of_copied hcopy hmem _, hid⟩
          · obtain ⟨hi, -⟩ := List.getElem?_eq_some_iff.mp hcopy
            rw [List.mem_singleton.mp hnew]
            exact ⟨_, List.mem_set hi _,
              mem_subscribersCopy_iff.mpr ⟨sub', hsub', hconn, rfl⟩⟩
        · simp only [forward, if_neg hconn] at hphase hm' ⊢
          obtain ⟨ids, hmem, hid⟩ := h.received sub' hsub' hphase m' hm'
          exact ⟨ids, mem_set_of_copied hcopy hmem _, hid⟩
      · intro m' ids hmem id hid
        have hforward : ∀ sub' ∈ s.subscribers, sub'.phase ≠ .connecting →
            forward m sub' ∈
              s.subscribers.modify (forward m) (forward_id m) ∧
            (forward m sub').id = sub'.id ∧
            (forward m sub').phase = sub'.phase ∧
            (forward m sub').received = sub'.received ++ [m] := by
          intro sub' hsub' hconn
          refine ⟨(Table.mem_modify_iff _).mpr ⟨sub', hsub', rfl⟩, ?_⟩
          simp [forward, hconn]
        rcases List.mem_or_eq_of_mem_set hmem with hold | hnew
        · obtain ⟨sub', hsub', hkey, hconn, hm'⟩ := h.copied m' ids hold id hid
          obtain ⟨hin, hid', hphase, hrec⟩ := hforward sub' hsub' hconn
          exact ⟨_, hin, hid'.trans hkey, hphase ▸ hconn,
            hrec ▸ List.mem_append_left _ hm'⟩
        · cases hnew
          obtain ⟨sub', hsub', hconn, hkey⟩ := mem_subscribersCopy_iff.mp hid
          obtain ⟨hin, hid', hphase, hrec⟩ := hforward sub' hsub' hconn
          exact ⟨_, hin, hid'.trans hkey, hphase ▸ hconn, by simp [hrec]⟩
  | connect hinsert =>
      obtain ⟨-, hrows⟩ := Table.insert?_eq_some_iff.mp hinsert
      constructor
      · intro sub hsub hphase m' hm'
        rw [Table.mem_def, hrows, List.mem_append, List.mem_singleton] at hsub
        rcases hsub with hsub | rfl
        · exact h.received sub hsub hphase m' hm'
        · cases hm'
      · intro m' ids hmem id hid
        obtain ⟨sub, hsub, hrest⟩ := h.copied m' ids hmem id hid
        refine ⟨sub, ?_, hrest⟩
        rw [Table.mem_def, hrows]
        exact List.mem_append_left _ hsub
  | subscribe id hmem hconnecting =>
      constructor
      · intro sub hsub hphase m' hm'
        obtain ⟨sub', hsub', rfl⟩ := (hmem sub).mp hsub
        unfold afterSubscribe at hphase hm' ⊢
        split at hm'
        case isTrue hid =>
          rw [if_pos hid]
          have hnot : sub'.phase ≠ .done := by
            rw [hconnecting sub' hsub' hid]
            decide
          exact h.received sub' hsub' hnot m' hm'
        case isFalse hid =>
          rw [if_neg hid] at hphase ⊢
          exact h.received sub' hsub' hphase m' hm'
      · intro m' ids hcopied id' hid'
        obtain ⟨sub, hsub, hkey, hphase, hm'⟩ := h.copied m' ids hcopied id' hid'
        refine ⟨afterSubscribe id sub, (hmem _).mpr ⟨sub, hsub, rfl⟩, ?_⟩
        unfold afterSubscribe
        split
        · exact ⟨hkey, by simp, hm'⟩
        · exact ⟨hkey, hphase, hm'⟩
  | read hsub hphase hmem =>
      constructor
      · intro sub' hsub' hphase' m' hm'
        obtain ⟨sub'', hsub'', rfl⟩ := (hmem sub').mp hsub'
        unfold afterRead at hphase' hm' ⊢
        split at hm'
        case isTrue hid =>
          rw [if_pos hid] at hphase'
          exact absurd rfl hphase'
        case isFalse hid =>
          rw [if_neg hid] at hphase' ⊢
          exact h.received sub'' hsub'' hphase' m' hm'
      · intro m' ids hcopied id' hid'
        obtain ⟨sub', hsub', hkey, hphase', hm'⟩ :=
          h.copied m' ids hcopied id' hid'
        refine ⟨_, (hmem _).mpr ⟨sub', hsub', rfl⟩, ?_⟩
        unfold afterRead
        split
        · exact ⟨hkey, by simp, List.mem_append_left _ hm'⟩
        · exact ⟨hkey, hphase', hm'⟩

end Fanning

section Losses

variable {topic : String}
variable {s s' : State}
variable {l : Label}

/-- More messages make fewer of the earlier ones wanted. -/
theorem Wanted.of_append
    {messages later : List Message} {i : Nat} {m : Message}
    {since : SinceParam}
    (h : Wanted (messages ++ later) i m since)
    (hi : i ≤ messages.length) :
    Wanted messages i m since := by
  cases since with
  | id id hvalid =>
      intro m' hm'
      refine h m' ?_
      rw [List.drop_append_of_le_length hi]
      exact List.mem_append_left _ hm'
  | _ =>
      exact h

/-- Replacing a copy leaves the messages as they are. -/
theorem map_fst_set
    {copies : List (Message × Option (List Nat))} {i : Nat} {m : Message}
    {copied : Option (List Nat)}
    (h : copies[i]? = some (m, copied))
    (copied' : Option (List Nat)) :
    (copies.set i (m, copied')).map Prod.fst = copies.map Prod.fst := by
  rw [List.map_set]
  exact set_eq_self (by simp [h])

/-- Only a read of the cache can lose a message. -/
theorem NotLost.effect
    {copies : List (Message × Option (List Nat))}
    {subscribers : Table Subscriber.id}
    (h : NotLost s.copies s.subscribers)
    (heffect : Effect topic s l copies subscribers)
    (hl : ∀ id, l ≠ .read id) :
    NotLost copies subscribers := by
  cases heffect with
  | storage =>
      exact h
  | publish m =>
      intro i m' ids hi sub hsub hdone hwanted
      have hlt : i < s.copies.length := by
        by_contra hge
        rw [List.getElem?_append_right (by omega)] at hi
        have hmem := List.mem_of_getElem? hi
        simp at hmem
      rw [List.getElem?_append_left hlt] at hi
      rw [List.map_append] at hwanted
      exact h i m' ids hi sub hsub hdone
        (hwanted.of_append (by simp; omega))
  | copy hcopy =>
      rename_i j m
      intro i m' ids hi sub hsub hdone hwanted
      rw [map_fst_set hcopy] at hwanted
      rw [Table.mem_modify_iff] at hsub
      obtain ⟨sub', hsub', rfl⟩ := hsub
      have hgrow : m' ∈ sub'.received ∨ (m' = m ∧ sub'.phase ≠ .connecting) →
          m' ∈ (forward m sub').received := by
        unfold forward
        split
        case isTrue =>
          rintro (hold | ⟨rfl, -⟩)
          · exact List.mem_append_left _ hold
          · exact List.mem_append_right _ (List.mem_singleton_self _)
        case isFalse hconn =>
          rintro (hold | ⟨-, hconn'⟩)
          · exact hold
          · exact absurd hconn' hconn
      have hphase : (forward m sub').phase = sub'.phase ∧
          (forward m sub').since = sub'.since := by
        unfold forward
        split <;> exact ⟨rfl, rfl⟩
      rw [hphase.1] at hdone
      rw [hphase.2] at hwanted
      apply hgrow
      by_cases hij : i = j
      · subst hij
        obtain ⟨hi', -⟩ := List.getElem?_eq_some_iff.mp hcopy
        rw [List.getElem?_set_self hi'] at hi
        cases hi
        exact Or.inr ⟨rfl, by simp [hdone]⟩
      · rw [List.getElem?_set_ne (Ne.symm hij)] at hi
        exact Or.inl (h i m' ids hi sub' hsub' hdone hwanted)
  | connect hinsert =>
      obtain ⟨-, hrows⟩ := Table.insert?_eq_some_iff.mp hinsert
      intro i m ids hi sub hsub hdone hwanted
      rw [Table.mem_def, hrows, List.mem_append, List.mem_singleton] at hsub
      rcases hsub with hsub | rfl
      · exact h i m ids hi sub hsub hdone hwanted
      · cases hdone
  | subscribe id hmem hconnecting =>
      intro i m ids hi sub hsub hdone hwanted
      obtain ⟨sub', hsub', rfl⟩ := (hmem sub).mp hsub
      unfold afterSubscribe at hdone hwanted ⊢
      split at hdone
      case isTrue =>
        cases hdone
      case isFalse hid =>
        rw [if_neg hid] at hwanted ⊢
        exact h i m ids hi sub' hsub' hdone hwanted
  | read hsub =>
      exact absurd rfl (hl _)

/-- A message has been sent once, and so been copied at most once. -/
theorem copied_unique
    (h : Stored topic s.now s.messages s.queue s.cache)
    {m : Message} {ids ids' : List Nat}
    (hids : (m, some ids) ∈ s.copies)
    (hids' : (m, some ids') ∈ s.copies) :
    ids = ids' := by
  have hnodup : (s.copies.map (fun c => c.1.id)).Nodup := by
    have heq : s.copies.map (fun c => c.1.id) = s.messages.map Message.id := by
      simp [State.copies, State.messages]
    rw [heq]
    exact h.ids
  have hpair := List.inj_on_of_nodup_map hnodup hids hids' rfl
  cases hpair
  rfl

/-- A registered subscriber can read the cache. -/
theorem step_read_isSome
    {sub : Subscriber}
    (hsub : sub ∈ s.subscribers)
    (hphase : sub.phase = .subscribed) :
    ∃ s', step topic s (.read sub.id) = some s' := by
  have hfind : s.subscribers.find? sub.id = some sub :=
    Table.find?_eq_some_iff.mpr ⟨hsub, rfl⟩
  obtain ⟨id, since, scheduled, phase, received⟩ := sub
  dsimp only at hphase
  subst hphase
  simp [step, hfind]

/-- A read loses no message exactly when it is complete. -/
theorem notLost_read_iff
    {id : Nat}
    (hstored : Stored topic s.now s.messages s.queue s.cache)
    (hfanout : Fanout s.copies s.subscribers)
    (hlost : NotLost s.copies s.subscribers) :
    (∀ s', step topic s (.read id) = some s' →
      NotLost s'.copies s'.subscribers)
      ↔
    ReadsComplete s (.read id) := by
  have hcopied : ∀ (i : Nat) m ids, s.copies[i]? = some (m, some ids) →
      m ∈ s.messages := by
    intro i m ids hi
    rw [← copies_map_fst]
    exact List.mem_map_of_mem (List.mem_of_getElem? hi)
  constructor
  · rintro hall sub hsub rfl hphase i m ids hi hnot hwanted
    obtain ⟨s', hstep⟩ : ∃ s', step topic s (.read sub.id) = some s' :=
      step_read_isSome hsub hphase
    obtain ⟨sub₁, hsub₁, hid, -, hcopies, hmem⟩ := step_read hstep
    have hsame := Table.eq_of_key_eq hsub₁ hsub hid
    subst hsame
    have hgot := hall s' hstep i m ids (hcopies ▸ hi) _
      ((hmem _).mpr ⟨sub₁, hsub₁, rfl⟩) (by simp [afterRead])
      (by simpa [afterRead, hcopies] using hwanted)
    simp only [afterRead, if_true] at hgot
    rcases List.mem_append.mp hgot with hreceived | hold
    · obtain ⟨ids', hids', hin⟩ := hfanout.received sub₁ hsub₁
        (by simp [hphase]) m hreceived
      have hsame := copied_unique hstored hids' (List.mem_of_getElem? hi)
      exact absurd (hsame ▸ hin) hnot
    · rw [copies_map_fst] at hwanted
      exact (mem_messages_iff hstored sub₁.scheduled (hcopied i m ids hi)
        hwanted).mp hold
  · intro hcomplete s' hstep
    obtain ⟨sub, hsub, rfl, hphase, hcopies, hmem⟩ := step_read hstep
    rw [hcopies]
    intro i m ids hi sub' hsub' hdone hwanted
    obtain ⟨sub₁, hsub₁, rfl⟩ := (hmem sub').mp hsub'
    by_cases hid : sub₁.id = sub.id
    · have hsame := Table.eq_of_key_eq hsub₁ hsub hid
      subst hsame
      simp only [afterRead, if_true] at hwanted ⊢
      by_cases hin : sub₁.id ∈ ids
      · -- the message was forwarded to the subscriber
        obtain ⟨sub₂, hsub₂, hid₂, -, hreceived⟩ :=
          hfanout.copied m ids (List.mem_of_getElem? hi) _ hin
        rw [Table.eq_of_key_eq hsub₂ hsub₁ hid₂] at hreceived
        exact List.mem_append_left _ hreceived
      · have hrow := hcomplete sub₁ hsub₁ rfl hphase i m ids hi hin hwanted
        rw [copies_map_fst] at hwanted
        exact List.mem_append_right _
          ((mem_messages_iff hstored sub₁.scheduled (hcopied i m ids hi)
            hwanted).mpr hrow)
    · simp only [afterRead, if_neg hid] at hdone hwanted ⊢
      exact hlost i m ids hi sub₁ hsub₁ hdone hwanted

/-- One step loses no message exactly when it is no incomplete read. -/
theorem notLost_step_iff
    (hstored : Stored topic s.now s.messages s.queue s.cache)
    (hfanout : Fanout s.copies s.subscribers)
    (hlost : NotLost s.copies s.subscribers)
    (l : Label) :
    (∀ s', step topic s l = some s' → NotLost s'.copies s'.subscribers)
      ↔
    ReadsComplete s l := by
  cases l with
  | read id =>
      exact notLost_read_iff hstored hfanout hlost
  | _ =>
      refine iff_of_true ?_ trivial
      intro s' hstep
      exact hlost.effect (step_effect hstep) nofun

/-- Nothing has been sent, and nobody is connected. -/
def initial
    (now : Nat)
    (c : MessageCache)
    (batchSize : Option Nat) : State where
  now
  cache := c
  queue := batchSize.map BatchingQueue.new
  publications := []
  subscribers := .empty

/-- What holds in every run, complete or not. -/
theorem stored_initial
    (topic : String) (now : Nat) (c : MessageCache) (batchSize : Option Nat) :
    Stored topic (initial now c batchSize).now
      (initial now c batchSize).messages (initial now c batchSize).queue c := by
  constructor
  case ids =>
    exact List.nodup_nil
  case queued =>
    intro q hq m hm
    obtain ⟨n, -, rfl⟩ := Option.map_eq_some_iff.mp hq
    cases hm
  all_goals
    simp [initial, State.messages]

/--
In every state of a run whoever has read the cache got every message it wants
whose subscribers have been copied, if and only if every read finds in the cache
the wanted messages that were forwarded to a copy without the reader.
-/
theorem not_lost_iff
    (topic : String) (now : Nat) (c : MessageCache)
    (batchSize : Option Nat) (ls : List Label) :
    Along (step topic)
        (fun s l => ∀ s', step topic s l = some s' →
          NotLost s'.copies s'.subscribers)
        (initial now c batchSize) ls
      ↔
    Along (step topic) ReadsComplete (initial now c batchSize) ls := by
  have hiff : ∀ s l,
      (Stored topic s.now s.messages s.queue s.cache ∧
        Fanout s.copies s.subscribers ∧ NotLost s.copies s.subscribers) →
      ((∀ s', step topic s l = some s' →
        NotLost s'.copies s'.subscribers) ↔ ReadsComplete s l) :=
    fun s l hs => notLost_step_iff hs.1 hs.2.1 hs.2.2 l
  refine Along.congr_of_invariant hiff ?_ ⟨stored_initial _ _ _ _, ?_, ?_⟩
  · intro s l s' hs hkept hstep
    exact ⟨hs.1.step hstep, hs.2.1.effect (step_effect hstep), hkept s' hstep⟩
  · constructor
    · intro sub hsub
      exact absurd hsub (Table.not_mem_empty sub)
    · intro m ids hmem
      cases hmem
  · intro i m ids hi
    simp [initial, State.copies] at hi

/-- A message to the topic `news`, sent at time 5. -/
def exampleMessage : Message :=
  newDefaultMessage "aaaaaaaaaaaa" 5 "news" "hello"

/-- What is stored in the end, and what each subscriber got. -/
def outcome
    (batchSize : Option Nat)
    (ls : List Label) : Option (List Message × List (List Message)) :=
  (run (step "news") (initial 5 .empty batchSize) ls).map (fun s =>
    (s.cache.rows.map StoredMessage.message,
      s.subscribers.rows.map Subscriber.received))

/--
A subscriber registers between the copy and the write, or reads the cache before
the batch is written, or asks for everything since second 1: each time the
message is stored in the end, and the subscriber has not got it.
-/
theorem message_lost :
    outcome none
      [.connect 1 .all false, .publish exampleMessage, .copy 0, .subscribe 1,
        .read 1, .clear 0, .add 0] = some ([exampleMessage], [[]]) ∧
    outcome (some 10)
      [.publish exampleMessage, .copy 0, .clear 0, .add 0,
        .connect 1 .all false, .subscribe 1, .read 1, .tickQueue,
        .commit 0] = some ([exampleMessage], [[]]) ∧
    outcome none
      [.publish exampleMessage, .copy 0, .clear 0, .add 0,
        .connect 1 (.time 1) false, .subscribe 1, .read 1] =
      some ([exampleMessage], [[]]) := by
  decide

end Losses

end Delivery

end Server
end CoopMessenger
