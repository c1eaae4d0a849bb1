import CoopMessenger.Server.Delivery

/-!
# Scheduled messages

Everything that touches messages on their way to subscribers at a later time.  A
publish request with caching, or the deletion of a sequence, deletes the scheduled
messages of its sequence and then adds its own message, directly or through the
batching queue.  The delayed sender reads the messages that are due and goes through
them one by one; meanwhile messages are deleted, expire, or are pruned.  Each statement
is a step of its own.

**Results.**
* `step_move`: every step leaves the messages as they are, takes some away, or is one
  of six moves.
* `distinct_of_run`: no ID is used twice.
-/

namespace CoopMessenger
namespace Server

open Library Util

namespace Scheduling

section Model

/-- A request between its first statement and its last; `cleared` after the `DELETE`. -/
structure Publishing where
  id : Nat
  message : Message
  cleared : Bool
deriving DecidableEq, Repr

/-- What a message is known by: its ID, its topic and its sequence ID. -/
structure Key where
  id : String
  topic : String
  sequenceID : String
deriving DecidableEq, Repr

def keyOf (m : Message) : Key :=
  ⟨m.id, m.topic, m.sequenceID⟩

/-- What deletes or expires scheduled messages: all of a sequence, or of topics. -/
inductive Cancellation where
  | sequence (topic sequenceID : String)
  | topics (topics : List String)
deriving DecidableEq, Repr

/-- Is the message one that should be cancelled? -/
def Cancellation.Covers
    (k : Key) : Cancellation → Prop
  | .sequence topic sequenceID => k.topic = topic ∧ k.sequenceID = sequenceID
  | .topics ts => k.topic ∈ ts

instance Cancellation.decidableCovers
    (k : Key) (c : Cancellation) :
    Decidable (c.Covers k) := by
  cases c <;> unfold Covers <;> infer_instance

/-- What happened to messages: added, cancelled, or passed to a topic by the sender. -/
inductive Event where
  | added (k : Key)
  | cancelled (c : Cancellation)
  | delivered (k : Key)
deriving DecidableEq, Repr

/--
The cache and its queue, the IDs of users (if there is a user manager), the topics with
subscribers, the requests in flight, what is left of the list of the delayed sender, and
the IDs that a pruning is about to delete.  The IDs used and the history, the last event
first, are only recorded.
-/
structure State where
  now : Nat
  cache : MessageCache
  queue : Option (BatchingQueue Message)
  users : Option (List String)
  topics : List String
  publishing : Table Publishing.id
  due : List Message
  expired : List String
  used : List String
  history : List Event

/-- The messages that have been added, but not been written yet. -/
def State.queued (s : State) : List Message :=
  (s.queue.map BatchingQueue.contents).getD []

/-- Can the delayed sender look up the user of the message? -/
def State.knows
    (s : State)
    (user : String) : Bool :=
  match s.users with
  | none => true
  | some ids => decide (user = "") || decide (user ∈ ids)

/--
Passes a message to its topic and marks it as published; marking may fail.  A message
whose user cannot be looked up is skipped.
-/
def State.sendDelayedMessage
    (s : State)
    (m : Message)
    (fails : Bool) : State :=
  if s.knows m.user then
    { s with
      cache := if fails then s.cache else s.cache.markPublished m.id
      history :=
        if m.topic ∈ s.topics then .delivered (keyOf m) :: s.history else s.history }
  else
    s

/-- `AddMessage` -/
def State.addMessage
    (s : State)
    (m : Message) : Except CacheError State :=
  match s.queue with
  | none => (s.cache.addMessages s.now [m]).map (fun cache => { s with cache })
  | some q => .ok { s with queue := some (q.enqueue m) }

/--
A request starts with a message of its own: `publish` for a publish request or the
deletion of a sequence, `act` for one that deletes no scheduled messages.  Any statement
may fail; `abort` ends a request.
-/
inductive Label where
  | tick (seconds : Nat)
  | publish (id : Nat) (m : Message)
  | act (id : Nat) (m : Message)
  | clear (id : Nat)
  | add (id : Nat)
  | abort (id : Nat)
  | tickQueue
  | commit (k : Nat) (fails : Bool)
  | deleteMessagesByTopic (topic : String)
  | expireMessages (topics : List String)
  | messagesExpired
  | deleteMessages
  | messagesDue
  | send (lookupFails markFails : Bool)
  | setTopics (topics : List String)
  | setUsers (ids : List String)
deriving Repr

/-- One step; `none` if it is not enabled.  New messages have fresh random IDs. -/
def step
    (s : State) : Label → Option State
  | .tick seconds => some { s with now := s.now + seconds }
  | .publish id m =>
      if m.id ∈ s.used then
        none
      else
        (s.publishing.insert? ⟨id, m, false⟩).map
          (fun publishing => { s with publishing, used := m.id :: s.used })
  | .act id m =>
      if m.id ∈ s.used ∨ s.now < m.time then
        none
      else
        (s.publishing.insert? ⟨id, m, true⟩).map
          (fun publishing => { s with publishing, used := m.id :: s.used })
  | .clear id =>
      match s.publishing.find? id with
      | some ⟨_, m, false⟩ =>
          some
            { s with
              cache := s.cache.deleteScheduledBySequenceID m.topic m.sequenceID
              publishing :=
                s.publishing.modify
                  (fun p => if p.id = id then { p with cleared := true } else p)
                  (by intro p; split <;> rfl)
              history := .cancelled (.sequence m.topic m.sequenceID) :: s.history }
      | _ => none
  | .add id =>
      match s.publishing.find? id with
      | some ⟨_, m, true⟩ =>
          let publishing := s.publishing.delete (fun p => decide (p.id = id))
          match s.addMessage m with
          | .error _ => some { s with publishing }
          | .ok s' =>
              some { s' with publishing, history := .added (keyOf m) :: s.history }
      | _ => none
  | .abort id =>
      some { s with publishing := s.publishing.delete (fun p => decide (p.id = id)) }
  | .tickQueue =>
      match s.queue with
      | none => none
      | some q => some { s with queue := some q.tick }
  | .commit k fails =>
      match s.queue with
      | none => none
      | some q =>
          (q.dequeue k).map (fun (batch, q') =>
            { s with
              cache := if fails then s.cache else Delivery.store s.cache s.now batch
              queue := some q' })
  | .deleteMessagesByTopic topic =>
      some
        { s with
          cache := s.cache.deleteMessagesByTopic topic
          history := .cancelled (.topics [topic]) :: s.history }
  | .expireMessages topics =>
      some
        { s with
          cache := s.cache.expireMessages s.now topics
          history := .cancelled (.topics topics) :: s.history }
  | .messagesExpired => some { s with expired := s.cache.messagesExpired s.now }
  | .deleteMessages =>
      some { s with cache := s.cache.deleteMessages s.expired, expired := [] }
  | .messagesDue =>
      if s.due = [] then
        some { s with due := s.cache.messagesDue s.now }
      else
        none
  | .send lookupFails markFails =>
      match s.due with
      | [] => none
      | m :: due =>
          if lookupFails then
            some { s with due }
          else
            some ({ s with due }.sendDelayedMessage m markFails)
  | .setTopics topics => some { s with topics }
  | .setUsers ids =>
      match s.users with
      | none => none
      | some _ => some { s with users := some ids }

/-- A server with an empty cache. -/
def initial
    (now : Nat)
    (queue : Option Nat)
    (users : Option (List String)) : State where
  now
  cache := .empty
  queue := queue.map BatchingQueue.new
  users
  topics := []
  publishing := .empty
  due := []
  expired := []
  used := []
  history := []

end Model

section Moves

variable {s s' : State}
variable {c c' : MessageCache}

/-- Rows were deleted, published or changed, but none was added or named otherwise. -/
structure Shrinks
    (c c' : MessageCache) : Prop where
  rows :
    ∀ r' ∈ c'.rows, ∃ r ∈ c.rows,
      r.rowID = r'.rowID ∧ keyOf r.message = keyOf r'.message ∧
        (r'.published = false → r.published = false)
  ids :
    (c'.rows.map (fun r => r.message.id)).Sublist
      (c.rows.map (fun r => r.message.id))

theorem shrinks_refl
    (c : MessageCache) :
    Shrinks c c :=
  ⟨fun r hr => ⟨r, hr, rfl, rfl, id⟩, List.Sublist.refl _⟩

theorem shrinks_filter
    (c : MessageCache) (p : StoredMessage → Bool) :
    Shrinks c (c.filter p) where
  rows := fun r hr => ⟨r, List.mem_of_mem_filter hr, rfl, rfl, id⟩
  ids := List.filter_sublist.map _

theorem shrinks_update
    (c : MessageCache) {f : StoredMessage → StoredMessage}
    (hf : ∀ r, (f r).rowID = r.rowID)
    (hkey : ∀ r, keyOf (f r).message = keyOf r.message)
    (hpublished : ∀ r, (f r).published = false → r.published = false) :
    Shrinks c (c.update f hf) where
  rows := by
    intro r' hr'
    obtain ⟨r, hr, rfl⟩ := List.mem_map.mp hr'
    exact ⟨r, hr, (hf r).symm, (hkey r).symm, hpublished r⟩
  ids := by
    have hids : (c.update f hf).rows.map (fun r => r.message.id) =
        c.rows.map (fun r => r.message.id) := by
      rw [MessageCache.update, List.map_map]
      exact List.map_congr_left fun r _ => congrArg Key.id (hkey r)
    rw [hids]

theorem shrinks_markPublished
    (c : MessageCache) (id : String) :
    Shrinks c (c.markPublished id) := by
  refine shrinks_update c _ (fun r => ?_) (fun r => ?_)
  · split <;> rfl
  · split
    · exact fun h => by cases h
    · exact fun h => h

theorem shrinks_expireMessages
    (c : MessageCache) (now : Nat) (topics : List String) :
    Shrinks c (c.expireMessages now topics) := by
  refine shrinks_update c _ (fun r => ?_) (fun r => ?_)
  · split <;> rfl
  · split <;> exact fun h => h

/-- Nothing new came; time passed, things were taken away, or the sender went on. -/
structure Quiet
    (s s' : State) : Prop where
  now : s.now ≤ s'.now
  cache : Shrinks s.cache s'.cache
  queued : s'.queued.Sublist s.queued
  publishing : s'.publishing.rows.Sublist s.publishing.rows
  due : ∀ m ∈ s'.due, m ∈ s.due
  used : s'.used = s.used
  history :
    s'.history = s.history ∨
      ∃ m ∈ s.due, s'.history = .delivered (keyOf m) :: s.history

theorem quiet_refl
    (s : State) :
    Quiet s s :=
  ⟨Nat.le_refl _, shrinks_refl _, List.Sublist.refl _, List.Sublist.refl _,
    fun _ h => h, rfl, Or.inl rfl⟩

/-- The kinds of steps. -/
inductive Move (s : State) : Label → State → Prop
  | quiet
      {l : Label}
      {s' : State}
      (h : Quiet s s') :
      Move s l s'
  | start
      {l : Label}
      {p : Publishing}
      {publishing : Table Publishing.id}
      (hfresh : p.message.id ∉ s.used)
      (hact : p.cleared = true → p.message.time ≤ s.now)
      (hrows : publishing.rows = s.publishing.rows ++ [p]) :
      Move s l { s with publishing, used := p.message.id :: s.used }
  | clear
      {p : Publishing}
      (hp : p ∈ s.publishing)
      (hfirst : p.cleared = false) :
      Move s (.clear p.id)
        { s with
          cache :=
            s.cache.deleteScheduledBySequenceID p.message.topic p.message.sequenceID
          publishing :=
            s.publishing.modify
              (fun q => if q.id = p.id then { q with cleared := true } else q)
              (by intro q; split <;> rfl)
          history :=
            .cancelled (.sequence p.message.topic p.message.sequenceID) :: s.history }
  | write
      {p : Publishing}
      {cache : MessageCache}
      (hp : p ∈ s.publishing)
      (hcleared : p.cleared = true)
      (hqueue : s.queue = none)
      (hadd : s.cache.addMessages s.now [p.message] = .ok cache) :
      Move s (.add p.id)
        { s with
          cache
          publishing := s.publishing.delete (fun q => decide (q.id = p.id))
          history := .added (keyOf p.message) :: s.history }
  | enqueue
      {p : Publishing}
      {q : BatchingQueue Message}
      (hp : p ∈ s.publishing)
      (hcleared : p.cleared = true)
      (hqueue : s.queue = some q) :
      Move s (.add p.id)
        { s with
          queue := some (q.enqueue p.message)
          publishing := s.publishing.delete (fun q => decide (q.id = p.id))
          history := .added (keyOf p.message) :: s.history }
  | commit
      {k : Nat}
      {q q' : BatchingQueue Message}
      {batch : List Message}
      {cache : MessageCache}
      (hqueue : s.queue = some q)
      (hbatch : q.dequeue k = some (batch, q'))
      (hadd : s.cache.addMessages s.now batch = .ok cache) :
      Move s (.commit k false) { s with cache, queue := some q' }
  | deleteTopic
      (topic : String) :
      Move s (.deleteMessagesByTopic topic)
        { s with
          cache := s.cache.deleteMessagesByTopic topic
          history := .cancelled (.topics [topic]) :: s.history }
  | expire
      (topics : List String) :
      Move s (.expireMessages topics)
        { s with
          cache := s.cache.expireMessages s.now topics
          history := .cancelled (.topics topics) :: s.history }
  | due
      (hnone : s.due = []) :
      Move s .messagesDue { s with due := s.cache.messagesDue s.now }

theorem quiet_sendDelayedMessage
    {m : Message} {due : List Message}
    (hdue : s.due = m :: due)
    (fails : Bool) :
    Quiet s ({ s with due }.sendDelayedMessage m fails) := by
  have hmem : ∀ x ∈ due, x ∈ s.due := by
    intro x hx
    rw [hdue]
    exact List.mem_cons_of_mem m hx
  have hhead : m ∈ s.due := by
    rw [hdue]
    exact List.mem_cons_self
  unfold State.sendDelayedMessage
  split
  case isFalse =>
    exact { quiet_refl s with due := hmem }
  case isTrue =>
    refine ⟨Nat.le_refl _, ?_, List.Sublist.refl _, List.Sublist.refl _, hmem, rfl, ?_⟩
    · dsimp only
      split
      · exact shrinks_refl _
      · exact shrinks_markPublished _ _
    · dsimp only
      split
      · exact Or.inr ⟨m, hhead, rfl⟩
      · exact Or.inl rfl

theorem addMessage_of_none
    (hqueue : s.queue = none)
    (m : Message) :
    s.addMessage m =
      (s.cache.addMessages s.now [m]).map (fun cache => { s with cache }) := by
  unfold State.addMessage
  split
  · rfl
  · rename_i q hq
    rw [hqueue] at hq
    cases hq

theorem addMessage_of_some
    {q : BatchingQueue Message}
    (hqueue : s.queue = some q)
    (m : Message) :
    s.addMessage m = .ok { s with queue := some (q.enqueue m) } := by
  unfold State.addMessage
  split
  · rename_i hq
    rw [hqueue] at hq
    cases hq
  · rename_i q' hq
    rw [hqueue] at hq
    rw [Option.some.inj hq]

/-- What a step can do. -/
theorem step_move
    {l : Label}
    (hstep : step s l = some s') :
    Move s l s' := by
  cases l with
  | tick seconds =>
      cases hstep
      exact .quiet { quiet_refl s with now := Nat.le_add_right _ _ }
  | publish id m =>
      simp only [step] at hstep
      split at hstep
      case isTrue =>
        cases hstep
      case isFalse hfresh =>
        obtain ⟨publishing, hins, rfl⟩ := Option.map_eq_some_iff.mp hstep
        exact .start hfresh (fun h => by cases h) (Table.insert?_eq_some_iff.mp hins).2
  | act id m =>
      simp only [step] at hstep
      split at hstep
      case isTrue =>
        cases hstep
      case isFalse hnot =>
        rw [not_or] at hnot
        obtain ⟨publishing, hins, rfl⟩ := Option.map_eq_some_iff.mp hstep
        exact .start hnot.1 (fun _ => Nat.le_of_not_lt hnot.2)
          (Table.insert?_eq_some_iff.mp hins).2
  | clear id =>
      simp only [step] at hstep
      split at hstep
      case h_1 id' m hfind =>
        obtain ⟨hp, rfl⟩ := Table.find?_eq_some_iff.mp hfind
        cases hstep
        exact .clear hp rfl
      case h_2 =>
        cases hstep
  | add id =>
      simp only [step] at hstep
      split at hstep
      case h_1 id' m hfind =>
        obtain ⟨hp, rfl⟩ := Table.find?_eq_some_iff.mp hfind
        cases hqueue : s.queue with
        | none =>
            rw [addMessage_of_none hqueue] at hstep
            cases hadd : s.cache.addMessages s.now [m] with
            | error e =>
                rw [hadd] at hstep
                cases hstep
                exact .quiet { quiet_refl s with publishing := List.filter_sublist }
            | ok cache =>
                rw [hadd] at hstep
                cases hstep
                exact .write hp rfl hqueue hadd
        | some q =>
            rw [addMessage_of_some hqueue] at hstep
            cases hstep
            exact .enqueue hp rfl hqueue
      case h_2 =>
        cases hstep
  | abort id =>
      cases hstep
      exact .quiet { quiet_refl s with publishing := List.filter_sublist }
  | tickQueue =>
      simp only [step] at hstep
      split at hstep
      case h_1 =>
        cases hstep
      case h_2 q hqueue =>
        cases hstep
        refine .quiet { quiet_refl s with queued := ?_ }
        simp [State.queued, hqueue]
  | commit k fails =>
      simp only [step] at hstep
      split at hstep
      case h_1 =>
        cases hstep
      case h_2 q hqueue =>
        obtain ⟨⟨batch, q'⟩, hbatch, rfl⟩ := Option.map_eq_some_iff.mp hstep
        have hqueued : (q'.contents).Sublist s.queued := by
          simp only [State.queued, hqueue]
          exact (BatchingQueue.perm_dequeue hbatch).2
        have hlost : Quiet s { s with queue := some q' } :=
          { quiet_refl s with queued := hqueued }
        cases fails with
        | true =>
            exact .quiet hlost
        | false =>
            cases hadd : s.cache.addMessages s.now batch with
            | error e =>
                simp only [Delivery.store, hadd]
                exact .quiet hlost
            | ok cache =>
                simp only [Delivery.store, hadd]
                exact .commit hqueue hbatch hadd
  | deleteMessagesByTopic topic =>
      cases hstep
      exact .deleteTopic topic
  | expireMessages topics =>
      cases hstep
      exact .expire topics
  | messagesExpired =>
      cases hstep
      exact .quiet { quiet_refl s with }
  | deleteMessages =>
      cases hstep
      exact .quiet { quiet_refl s with cache := shrinks_filter _ _ }
  | messagesDue =>
      simp only [step] at hstep
      split at hstep
      case isTrue hnone =>
        cases hstep
        exact .due hnone
      case isFalse =>
        cases hstep
  | send lookupFails markFails =>
      simp only [step] at hstep
      split at hstep
      case h_1 =>
        cases hstep
      case h_2 m due hdue =>
        split at hstep
        case isTrue =>
          cases hstep
          refine .quiet { quiet_refl s with due := fun x hx => ?_ }
          rw [hdue]
          exact List.mem_cons_of_mem m hx
        case isFalse =>
          cases hstep
          exact .quiet (quiet_sendDelayedMessage hdue markFails)
  | setTopics topics =>
      cases hstep
      exact .quiet { quiet_refl s with }
  | setUsers ids =>
      simp only [step] at hstep
      split at hstep
      case h_1 =>
        cases hstep
      case h_2 =>
        cases hstep
        exact .quiet { quiet_refl s with }

end Moves

section Identity

variable {s s' : State}

/-- The IDs of the messages stored, in the queue, and in requests. -/
def State.ids (s : State) : List String :=
  s.cache.rows.map (fun r => r.message.id) ++
    (s.queued.map Message.id ++ s.publishing.rows.map (fun p => p.message.id))

/-- No two messages have one ID, and new ones get another. -/
structure Distinct (s : State) : Prop where
  nodup : s.ids.Nodup
  used : ∀ id ∈ s.ids, id ∈ s.used

theorem messages_addMessages
    {c c' : MessageCache} {now : Nat} {ms : List Message}
    (h : c.addMessages now ms = .ok c') :
    c'.rows.map StoredMessage.message =
      c.rows.map StoredMessage.message ++ ms := by
  unfold MessageCache.addMessages at h
  split at h
  case isFalse =>
    cases h
  case isTrue hall =>
    cases h
    clear hall
    induction ms generalizing c with
    | nil =>
        simp
    | cons m ms ih =>
        rw [List.foldl_cons, ih]
        simp [MessageCache.insert]

theorem ids_addMessages
    {c c' : MessageCache} {now : Nat} {ms : List Message}
    (h : c.addMessages now ms = .ok c') :
    c'.rows.map (fun r => r.message.id) =
      c.rows.map (fun r => r.message.id) ++ ms.map Message.id := by
  have hmap : ∀ rows : List StoredMessage,
      rows.map (fun r => r.message.id) =
        (rows.map StoredMessage.message).map Message.id := by
    intro rows
    rw [List.map_map]
    rfl
  rw [hmap, hmap, messages_addMessages h, List.map_append]

/-- The request that has added its message is over. -/
theorem perm_publishing_delete
    {T : Table Publishing.id} {p : Publishing}
    (hp : p ∈ T) :
    (p.message.id ::
        (T.delete (fun q => decide (q.id = p.id))).rows.map
          (fun q => q.message.id)).Perm
      (T.rows.map (fun q => q.message.id)) := by
  have hrows : (T.delete (fun q => decide (q.id = p.id))).rows =
      T.rows.filter (fun q => decide (q.id ≠ p.id)) := by
    refine List.filter_congr fun q _ => ?_
    by_cases h : q.id = p.id <;> simp [h]
  rw [hrows]
  exact ((Table.perm_of_mem hp).map (fun q => q.message.id)).symm

theorem Distinct.of_perm
    (h : Distinct s)
    (hids : s'.ids.Perm s.ids)
    (hused : s'.used = s.used) :
    Distinct s' := by
  refine ⟨hids.nodup_iff.mpr h.nodup, fun id hid => ?_⟩
  rw [hused]
  exact h.used id (hids.mem_iff.mp hid)

theorem Distinct.of_sublist
    (h : Distinct s)
    (hids : s'.ids.Sublist s.ids)
    (hused : s'.used = s.used) :
    Distinct s' := by
  refine ⟨h.nodup.sublist hids, fun id hid => ?_⟩
  rw [hused]
  exact h.used id (hids.subset hid)

theorem Distinct.move
    {l : Label}
    (h : Distinct s)
    (hmove : Move s l s') :
    Distinct s' := by
  cases hmove with
  | quiet hquiet =>
      refine h.of_sublist ?_ hquiet.used
      exact hquiet.cache.ids.append
        ((hquiet.queued.map _).append (hquiet.publishing.map _))
  | @start l p publishing hfresh hact hrows =>
      have hids : State.ids { s with publishing, used := p.message.id :: s.used } =
          s.ids ++ [p.message.id] := by
        simp [State.ids, State.queued, hrows]
      refine ⟨?_, fun id hid => ?_⟩
      · rw [hids]
        refine List.nodup_append.mpr ⟨h.nodup, List.nodup_singleton _, ?_⟩
        rintro id hid id' hid' rfl
        rw [List.mem_singleton.mp hid'] at hid
        exact hfresh (h.used _ hid)
      · rw [hids, List.mem_append, List.mem_singleton] at hid
        rcases hid with hid | rfl
        · exact List.mem_cons_of_mem _ (h.used id hid)
        · exact List.mem_cons_self
  | @clear p hp hfirst =>
      refine h.of_sublist ?_ rfl
      have hids : (s.publishing.modify
          (fun q => if q.id = p.id then { q with cleared := true } else q)
          (by intro q; split <;> rfl)).rows.map (fun q => q.message.id) =
            s.publishing.rows.map (fun q => q.message.id) := by
        rw [Table.modify, List.map_map]
        refine List.map_congr_left fun q _ => ?_
        simp only [Function.comp_apply]
        split <;> rfl
      unfold State.ids
      rw [hids]
      exact (shrinks_filter s.cache _).ids.append_right _
  | @write p cache hp hcleared hqueue hadd =>
      refine h.of_perm ?_ rfl
      have hqueued : s.queued = [] := by simp [State.queued, hqueue]
      have hperm := perm_publishing_delete hp
      change (cache.rows.map _ ++ (s.queued.map Message.id ++ _)).Perm
        (_ ++ (s.queued.map Message.id ++ _))
      rw [ids_addMessages hadd, hqueued, List.append_assoc]
      exact hperm.append_left _
  | @enqueue p q hp hcleared hqueue =>
      refine h.of_perm ?_ rfl
      have hqueued : s.queued = q.contents := by simp [State.queued, hqueue]
      have hperm := perm_publishing_delete hp
      change (_ ++ ((q.enqueue p.message).contents.map Message.id ++ _)).Perm
        (_ ++ (s.queued.map Message.id ++ _))
      rw [BatchingQueue.contents_enqueue, hqueued, List.map_append, List.append_assoc]
      exact (hperm.append_left _).append_left _
  | @commit k q q' batch cache hqueue hbatch hadd =>
      refine h.of_perm ?_ rfl
      have hqueued : s.queued = q.contents := by simp [State.queued, hqueue]
      have hperm := ((BatchingQueue.perm_dequeue hbatch).1.map Message.id).append_right
        (s.publishing.rows.map (fun p => p.message.id))
      change (cache.rows.map _ ++ (q'.contents.map Message.id ++ _)).Perm
        (_ ++ (s.queued.map Message.id ++ _))
      rw [ids_addMessages hadd, hqueued, List.append_assoc]
      rw [List.map_append, List.append_assoc] at hperm
      exact hperm.append_left _
  | deleteTopic topic =>
      refine h.of_sublist ?_ rfl
      exact (shrinks_filter s.cache _).ids.append_right _
  | expire topics =>
      refine h.of_sublist ?_ rfl
      exact (shrinks_expireMessages s.cache s.now topics).ids.append_right _
  | due =>
      exact h.of_perm (List.Perm.refl _) rfl

theorem distinct_initial
    (now : Nat) (queue : Option Nat) (users : Option (List String)) :
    Distinct (initial now queue users) := by
  have hids : (initial now queue users).ids = [] := by
    cases queue <;> rfl
  refine ⟨?_, ?_⟩
  · rw [hids]
    exact List.nodup_nil
  · rw [hids]
    intro id hid
    cases hid

/-- In every state of a run no ID is used twice. -/
theorem distinct_of_run
    {now : Nat} {queue : Option Nat} {users : Option (List String)}
    {ls : List Label}
    (hrun : run step (initial now queue users) ls = some s) :
    Distinct s :=
  run_invariant (fun _ _ _ hs hstep => hs.move (step_move hstep))
    (distinct_initial now queue users) hrun

/-- Rows with one ID are the same row. -/
theorem Distinct.eq_of_id_eq
    (h : Distinct s)
    {r r' : StoredMessage}
    (hr : r ∈ s.cache.rows) (hr' : r' ∈ s.cache.rows)
    (hid : r.message.id = r'.message.id) :
    r = r' :=
  List.inj_on_of_nodup_map h.nodup.of_append_left hr hr' hid

theorem Distinct.publishing_eq_of_id_eq
    (h : Distinct s)
    {p q : Publishing}
    (hp : p ∈ s.publishing) (hq : q ∈ s.publishing)
    (hid : p.message.id = q.message.id) :
    p = q :=
  List.inj_on_of_nodup_map h.nodup.of_append_right.of_append_right hp hq hid

end Identity

section Examples

/-- A message of a user, for this time. -/
def exampleMessage
    (id sequenceID : String)
    (time : Nat) : Message :=
  { newMessage id time .message "news" "hello" with
    sequenceID, expires := time + 43200, user := "u_phil" }

/-- The message of a request that deletes a sequence. -/
def exampleDeletion
    (id sequenceID : String)
    (time : Nat) : Message :=
  { newMessage id time .messageDelete "news" "" with
    sequenceID, expires := time + 43200 }

/-- A message is published, to be sent later. -/
def scheduleMessage : List Label :=
  [.publish 1 (exampleMessage "aaaaaaaaaaaa" "hello" 5000), .clear 1, .add 1]

/-- The sequence is deleted. -/
def deleteSequence
    (now : Nat) : List Label :=
  [.publish 2 (exampleDeletion "bbbbbbbbbbbb" "hello" now), .clear 2, .add 2]

/-- The time of the message comes, when the topic has a subscriber. -/
def messageDue : List Label :=
  [.setTopics ["news"], .tick 4000, .messagesDue]

end Examples

end Scheduling

end Server
end CoopMessenger
