import CoopMessenger.Library.Runs
import CoopMessenger.Manager.Authorize
import CoopMessenger.Server.Topics

/-!
# Revocation against live subscriptions

Streaming connections and web push subscriptions are checked once, when they
are requested, and get messages until they end.  The operations that take read
access away change the access table; some of them also cancel connections.  A
topic keeps its subscribers in a map, which is ranged over in any order.

A request reads the visitor's user twice: for the check of its topics, and when
it is registered.

**Results.**
* `cancelled_in_every_order_iff`: whom `killUserSubscriber` is sure to cancel.
* `authorized_step_iff`: when an operation leaves nobody subscribed who cannot
  read.
* `revocation_stops_delivery`: the same for every state of every run.
-/

namespace CoopMessenger
namespace Server

open Library Manager

namespace Revocation

section Model

/-- The settings of topic lookups and the default access. -/
structure Config where
  topics : TopicConfig
  defaultAccess : Permission

/-- What a request subscribes: a connection or a web push endpoint. -/
inductive Target where
  | stream (conn : Nat)
  | webPush (endpoint : String)
deriving DecidableEq, Repr

/--
A request that has passed the check of its topics.  A stream request looks them
up once more; `held` are those whose current object it holds since then.
-/
structure Request where
  target : Target
  topics : List String
  held : Option (List String)
deriving DecidableEq, Repr

/--
A streaming connection, with the topics on whose current object it is
registered.  The user ID of an anonymous visitor is empty.
-/
structure Subscriber where
  conn : Nat
  userID : String
  topics : List String
  cancelled : Bool
deriving DecidableEq, Repr

/-- A row of `subscription`, joined with its rows of `subscription_topic`. -/
structure WebPushSubscription where
  endpoint : String
  userID : String
  topics : List String
deriving DecidableEq, Repr

/-- `topics` are the keys of the topic map. -/
structure State where
  db : Database
  topics : List String
  requests : List Request
  subscribers : Table Subscriber.conn
  webPush : Table WebPushSubscription.endpoint

/-- The server with a user database, before the first request. -/
def initial
    (db : Database)
    (topics : List String) : State :=
  ⟨db, topics, [], .empty, .empty⟩

/-- `webPushTopicSubscribeLimit` -/
def webPushTopicSubscribeLimit : Nat := 50

/-- The checks of the topic names that come before the topics are looked up. -/
def Target.admits
    (topics : List String) :
    Target → Bool
  | .stream _ => topics.all allowedTopic
  | .webPush endpoint =>
      decide (endpoint ≠ "") &&
        decide (topics.length ≤ webPushTopicSubscribeLimit)

/-- Looks up topics, creating those that do not exist. -/
def topicsFromIDs
    (cfg : TopicConfig)
    (topics : List String) :
    List String → List String × Except ErrHTTP Unit
  | [] => (topics, .ok ())
  | id :: ids =>
      if id ∈ cfg.disallowedTopics then
        (topics, .error errHTTPBadRequestTopicDisallowed)
      else if id ∈ topics then
        topicsFromIDs cfg topics ids
      else if cfg.totalTopicLimit ≤ topics.length then
        (topics, .error errHTTPTooManyRequestsLimitTotalTopics)
      else
        topicsFromIDs cfg (topics ++ [id]) ids

/-- The topics whose ID matches the pattern; none is created. -/
def topicsFromPattern
    (topics : List String)
    (pattern : String) : List String :=
  topics.filter (globMatch pattern)

/-- The subscribers of a topic. -/
def State.subscribersOf
    (s : State)
    (topic : String) : Table Subscriber.conn :=
  s.subscribers.delete (fun sub => decide (topic ∉ sub.topics))

/-- The subscribers as a loop meets them: those that `order` names come first. -/
def ranged
    (order : List Nat)
    (subs : Table Subscriber.conn) : List Subscriber :=
  order.filterMap subs.find? ++
    subs.rows.filter (fun sub => decide (sub.conn ∉ order))

/-- Kills the subscriber with the given user ID: the first one the loop meets. -/
def cancelSubscriberUser
    (order : List Nat)
    (subs : Table Subscriber.conn)
    (userID : String) : Option Nat :=
  ((ranged order subs).find? (fun sub => decide (sub.userID = userID))).map
    Subscriber.conn

/-- Kills all subscribers but those of the given user. -/
def cancelSubscribersExceptUser
    (subs : Table Subscriber.conn)
    (exceptUserID : String) : List Nat :=
  (subs.rows.filter (fun sub => decide (sub.userID ≠ exceptUserID))).map
    Subscriber.conn

/-- Kills a subscriber of the user on every topic that matches the pattern. -/
def killUserSubscriber
    (s : State)
    (orders : String → List Nat)
    (u : User)
    (topicPattern : String) : List Nat :=
  (topicsFromPattern s.topics topicPattern).filterMap
    (fun t => cancelSubscriberUser (orders t) (s.subscribersOf t) u.id)

/-- Cancels connections. -/
def State.cancel
    (s : State)
    (conns : List Nat) : State :=
  { s with
    subscribers :=
      s.subscribers.modify
        (fun sub => if sub.conn ∈ conns then
          { sub with cancelled := true } else sub)
        (by intro sub; split <;> rfl) }

end Model

section Handlers

variable (cfg : Config)
variable (s : State)
variable (orders : String → List Nat)

def handleAccessReset
    (username topic : String) : State × Except HandlerError Unit :=
  match s.db.user username with
  | none => (s, .error (.manager .userNotFound))
  | some u =>
      match s.db.resetAccess username topic with
      | .error e => (s, .error (.manager e))
      | .ok db =>
          ({ s with db }.cancel (killUserSubscriber s orders u topic), .ok ())

def handleUsersDelete
    (foreignKeys : Bool)
    (username : String) : State × Except HandlerError Unit :=
  match s.db.user username with
  | none => (s, .error (.http errHTTPBadRequestUserNotFound))
  | some u =>
      if u.isUser then
        match s.db.removeUser foreignKeys username with
        | .error e => (s, .error (.manager e))
        | .ok db =>
            ({ s with db }.cancel (killUserSubscriber s orders u "*"), .ok ())
      else
        (s, .error (.http
          (errHTTPUnauthorized.wrap "can only remove regular users from API")))

def handleAdminTopicAccessRevoke
    (username topicPattern : String) : State × Except HandlerError Unit :=
  if username = "" ∨ topicPattern = "" then
    (s, .error (.http
      (errHTTPBadRequest.wrap "username and topic_pattern are required")))
  else
    match s.db.resetAccess username topicPattern with
    | .error _ => (s, .error (.http errHTTPInternalError))
    | .ok db => ({ s with db }, .ok ())

def handleAdminUserDelete
    (foreignKeys : Bool)
    (username : String) : State × Except HandlerError Unit :=
  if username = "" ∨ '/' ∈ username.toList then
    (s, .error (.http errHTTPNotFound))
  else
    match s.db.removeUser foreignKeys username with
    | .error _ => (s, .error (.http errHTTPInternalError))
    | .ok db => ({ s with db }, .ok ())

/-- The `flieg` case of `handleSlashCommand`. -/
def handleFlieg
    (u : User)
    (topic : String) : State × Except HandlerError Unit :=
  if topic = "" then
    (s, .error (.http (errHTTPBadRequest.wrap "topic required for /flieg")))
  else if "dm_".toList.isPrefixOf topic.toList then
    (s, .error (.http (errHTTPBadRequest.wrap "cannot leave DM topics")))
  else
    match s.db.resetAccess u.name topic with
    | .error e => (s, .error (.manager e))
    | .ok db => ({ s with db }, .ok ())

/-- What `handleAccountReservationAdd` does to the database. -/
def reserve
    (db : Database)
    (u : User)
    (topic everyone : String) : Except HandlerError Database :=
  if !allowedTopic topic then
    .error (.http errHTTPBadRequestTopicInvalid)
  else
    match parsePermission everyone with
    | none => .error (.http errHTTPBadRequestPermissionInvalid)
    | some everyone =>
        if u.isUser && u.tier.isNone then
          .error (.http errHTTPUnauthorized)
        else
          match db.allowReservation u.name topic with
          | .error _ => .error (.http errHTTPConflictTopicReserved)
          | .ok () =>
              if u.isUser && !db.hasReservation u.name topic &&
                  u.tier.any (fun tier => decide
                    (tier.reservationLimit ≤ db.reservationsCount u.name)) then
                .error (.http errHTTPTooManyRequestsLimitReservations)
              else
                (db.addReservation u.name topic everyone).mapError .manager

def handleAccountReservationAdd
    (u : User)
    (topic everyone : String) : State × Except HandlerError Unit :=
  match reserve s.db u topic everyone with
  | .error e => (s, .error e)
  | .ok db =>
      match topicsFromIDs cfg.topics s.topics [topic] with
      | (topics, .error e) => ({ s with db, topics }, .error (.http e))
      | (topics, .ok ()) =>
          ({ s with db, topics }.cancel
            (cancelSubscribersExceptUser (s.subscribersOf topic) u.id), .ok ())

end Handlers

section Steps

/--
The operations.  A subscribe request is `authorize`, `lookup` and `register`,
`handleWebPushUpdate` is `authorize` and `register`; the user is the one whom
the visitor carries at that moment.  `drop` is a request that fails in between,
and `write` is any other operation of the user manager.  A restart begins with
the topics of the message cache.
-/
inductive Operation where
  | restart (topics : List String)
  | authorize (u : Option User) (target : Target) (topics : List String)
  | lookup (i : Nat)
  | register (i : Nat) (u : Option User)
  | drop (i : Nat)
  | unsubscribe (conn : Nat)
  | webPushDelete (endpoint : String)
  | expunge (topic : String)
  | write (db : Database)
  | accessReset (username topic : String)
  | usersDelete (foreignKeys : Bool) (username : String)
  | adminTopicAccessRevoke (username topicPattern : String)
  | adminUserDelete (foreignKeys : Bool) (username : String)
  | flieg (u : User) (topic : String)
  | reservationAdd (u : User) (topic everyone : String)

/-- An operation, and the order in which it meets the subscribers of each topic. -/
structure Label where
  operation : Operation
  orders : String → List Nat

/-- Is the user granted read access? -/
def grantsRead
    (cfg : Config)
    (db : Database)
    (u : Option User)
    (topic : String) : Bool :=
  decide (authorize db cfg.defaultAccess u topic .read = .ok ())

/-- The object of the topic is no longer the current one. -/
def Request.detach
    (topic : String)
    (r : Request) : Request :=
  { r with
    held := r.held.map (fun held => held.filter (fun t => decide (t ≠ topic))) }

/-- Register a request. -/
def register
    (s : State)
    (userID : String) :
    Request → Option State
  | ⟨.stream conn, _, some held⟩ =>
      (s.subscribers.insert? ⟨conn, userID, held, false⟩).map
        (fun subscribers => { s with subscribers })
  | ⟨.stream _, _, none⟩ => none
  | ⟨.webPush endpoint, topics, _⟩ =>
      some
        { s with
          webPush :=
            s.webPush.upsert ⟨endpoint, userID, topics⟩
              (fun p => { p with userID, topics }) (fun _ => rfl) }

/-- One step; `none` if it is not enabled. -/
def step
    (cfg : Config)
    (s : State)
    (l : Label) : Option State :=
  match l.operation with
  | .restart topics =>
      some { s with topics, requests := [], subscribers := .empty }
  | .authorize u target topics =>
      if target.admits topics then
        match topicsFromIDs cfg.topics s.topics topics with
        | (known, .error _) => some { s with topics := known }
        | (known, .ok ()) =>
            if topics.all (grantsRead cfg s.db u) then
              some
                { s with
                  topics := known
                  requests := s.requests ++ [⟨target, topics, none⟩] }
            else
              some { s with topics := known }
      else
        none
  | .lookup i =>
      match s.requests[i]? with
      | some ⟨.stream conn, topics, _⟩ =>
          match topicsFromIDs cfg.topics s.topics topics with
          | (known, .error _) =>
              some { s with topics := known, requests := s.requests.eraseIdx i }
          | (known, .ok ()) =>
              some
                { s with
                  topics := known
                  requests := s.requests.set i
                    ⟨.stream conn, topics, some topics⟩ }
      | _ => none
  | .register i u =>
      s.requests[i]?.bind
        (fun r => register { s with requests := s.requests.eraseIdx i }
          (maybeUserID u) r)
  | .drop i => some { s with requests := s.requests.eraseIdx i }
  | .unsubscribe conn =>
      some
        { s with
          subscribers :=
            s.subscribers.delete (fun sub => decide (sub.conn = conn)) }
  | .webPushDelete endpoint =>
      some
        { s with
          webPush := s.webPush.delete (fun p => decide (p.endpoint = endpoint)) }
  | .expunge topic =>
      -- a stale topic has no subscribers
      if (s.subscribersOf topic).rows.isEmpty then
        some
          { s with
            topics := s.topics.filter (fun t => decide (t ≠ topic))
            requests := s.requests.map (Request.detach topic) }
      else
        none
  | .write db => some { s with db }
  | .accessReset username topic =>
      some (handleAccessReset s l.orders username topic).1
  | .usersDelete foreignKeys username =>
      some (handleUsersDelete s l.orders foreignKeys username).1
  | .adminTopicAccessRevoke username topicPattern =>
      some (handleAdminTopicAccessRevoke s username topicPattern).1
  | .adminUserDelete foreignKeys username =>
      some (handleAdminUserDelete s foreignKeys username).1
  | .flieg u topic => some (handleFlieg s u topic).1
  | .reservationAdd u topic everyone =>
      some (handleAccountReservationAdd cfg s u topic everyone).1

/-- The subscriptions that a message published on the topic is pushed to. -/
def subscriptionsForTopic
    (s : State)
    (topic : String) : List WebPushSubscription :=
  s.webPush.rows.filter (fun p => decide (topic ∈ p.topics))

/-- The users whom a message published on the topic is passed to. -/
def recipients
    (s : State)
    (topic : String) : List String :=
  ((s.subscribersOf topic).rows.filter (fun sub => !sub.cancelled)).map
      Subscriber.userID ++
    (subscriptionsForTopic s topic).map WebPushSubscription.userID

end Steps

section Specification

variable (cfg : Config)

/-- The subscription belongs to the anonymous visitor or a user who may read. -/
def CanRead
    (db : Database)
    (userID topic : String) : Prop :=
  if userID = "" then
    grantsRead cfg db none topic = true
  else
    ∃ u ∈ db.users, u.id = userID ∧ grantsRead cfg db (some u) topic = true

/-- Everybody who is subscribed to a topic may read it. -/
def AllAuthorized (s : State) : Prop :=
  (∀ sub ∈ s.subscribers, sub.cancelled = false →
    ∀ t ∈ sub.topics, CanRead cfg s.db sub.userID t) ∧
  ∀ p ∈ s.webPush, ∀ t ∈ p.topics, CanRead cfg s.db p.userID t

/-- Those who may not read some topic of theirs under `db` are connections in `cut`. -/
def Cuts
    (s : State)
    (db : Database)
    (cut : Subscriber → Prop) : Prop :=
  (∀ sub ∈ s.subscribers, sub.cancelled = false →
    (∃ t ∈ sub.topics, ¬ CanRead cfg db sub.userID t) → cut sub) ∧
  ∀ p ∈ s.webPush, ∀ t ∈ p.topics, CanRead cfg db p.userID t

/-- On some topic that matches the pattern, the only connection of the user. -/
def OnlyConnection
    (s : State)
    (userID topicPattern : String)
    (sub : Subscriber) : Prop :=
  sub.userID = userID ∧
    ∃ t ∈ sub.topics, globMatch topicPattern t = true ∧
      ∀ other ∈ s.subscribers, other.userID = userID → t ∈ other.topics →
        other = sub

/-- Can the request be registered now? -/
def Request.registrable
    (s : State) :
    Request → Bool
  | ⟨.stream conn, _, held⟩ =>
      held.isSome && (s.subscribers.find? conn).isNone
  | ⟨.webPush _, _, _⟩ => true

/-- The topics that the request subscribes to when it is registered. -/
def Request.subscribed :
    Request → List String
  | ⟨.stream _, _, held⟩ => held.getD []
  | ⟨.webPush _, topics, _⟩ => topics

/--
Who loses read access is a connection of the named user, the only one on a
matching topic; with a reservation it is somebody else's connection to that very
topic; with the other operations nobody does.  A request registers only for
topics that its user may still read.
-/
def LosersReached
    (s : State) : Operation → Prop
  | .register i u =>
      ∀ r ∈ s.requests[i]?, r.registrable s = true →
        ∀ t ∈ r.subscribed, CanRead cfg s.db (maybeUserID u) t
  | .write db => Cuts cfg s db (fun _ => False)
  | .accessReset username topic =>
      ∀ u ∈ s.db.user username,
        ∀ db ∈ (s.db.resetAccess username topic).toOption,
          Cuts cfg s db (OnlyConnection s u.id topic)
  | .usersDelete foreignKeys username =>
      ∀ u ∈ s.db.user username, u.isUser = true →
        ∀ db ∈ (s.db.removeUser foreignKeys username).toOption,
          Cuts cfg s db (OnlyConnection s u.id "*")
  | .adminTopicAccessRevoke username topicPattern =>
      username ≠ "" → topicPattern ≠ "" →
        ∀ db ∈ (s.db.resetAccess username topicPattern).toOption,
          Cuts cfg s db (fun _ => False)
  | .adminUserDelete foreignKeys username =>
      username ≠ "" → '/' ∉ username.toList →
        ∀ db ∈ (s.db.removeUser foreignKeys username).toOption,
          Cuts cfg s db (fun _ => False)
  | .flieg u topic =>
      topic ≠ "" → "dm_".toList.isPrefixOf topic.toList = false →
        ∀ db ∈ (s.db.resetAccess u.name topic).toOption,
          Cuts cfg s db (fun _ => False)
  | .reservationAdd u topic everyone =>
      ∀ db ∈ (reserve s.db u topic everyone).toOption,
        Cuts cfg s db (fun sub => topic ∈ sub.topics ∧ sub.userID ≠ u.id)
  | .restart _ | .authorize .. | .lookup _ | .drop _ | .unsubscribe _
  | .webPushDelete _ | .expunge _ => True

instance decidableCanRead
    (db : Database) (userID topic : String) :
    Decidable (CanRead cfg db userID topic) :=
  inferInstanceAs (Decidable (if userID = "" then _ else _))

instance decidableAllAuthorized
    (s : State) :
    Decidable (AllAuthorized cfg s) :=
  inferInstanceAs (Decidable (_ ∧ _))

instance decidableCuts
    (s : State) (db : Database)
    (cut : Subscriber → Prop) [DecidablePred cut] :
    Decidable (Cuts cfg s db cut) :=
  inferInstanceAs (Decidable (_ ∧ _))

instance decidableOnlyConnection
    (s : State) (userID topicPattern : String) :
    DecidablePred (OnlyConnection s userID topicPattern) :=
  fun _ => inferInstanceAs (Decidable (_ ∧ _))

instance decidableLosersReached
    (s : State) :
    ∀ operation, Decidable (LosersReached cfg s operation)
  | .register .. => inferInstanceAs (Decidable (∀ r ∈ _, _ → _))
  | .write _ => inferInstanceAs (Decidable (Cuts _ _ _ _))
  | .accessReset .. => inferInstanceAs (Decidable (∀ u ∈ _, ∀ db ∈ _, _))
  | .usersDelete .. => inferInstanceAs (Decidable (∀ u ∈ _, _ → _))
  | .adminTopicAccessRevoke .. | .adminUserDelete .. | .flieg .. =>
      inferInstanceAs (Decidable (_ → _ → ∀ db ∈ _, _))
  | .reservationAdd .. => inferInstanceAs (Decidable (∀ db ∈ _, _))
  | .restart _ | .authorize .. | .lookup _ | .drop _ | .unsubscribe _
  | .webPushDelete _ | .expunge _ => isTrue trivial

end Specification

section Cancellation

variable {s : State}
variable {order : List Nat}
variable {subs : Table Subscriber.conn}
variable {sub : Subscriber}
variable {userID : String}
variable {conn : Nat}

theorem mem_subscribersOf_iff
    {topic : String} :
    sub ∈ s.subscribersOf topic ↔ sub ∈ s.subscribers ∧ topic ∈ sub.topics := by
  simp [State.subscribersOf]

/-- A loop over the map meets every subscriber, and nobody else. -/
theorem mem_ranged_iff :
    sub ∈ ranged order subs ↔ sub ∈ subs := by
  simp only [ranged, List.mem_append, List.mem_filterMap, List.mem_filter,
    Table.find?_eq_some_iff, decide_eq_true_eq]
  constructor
  · rintro (⟨conn, -, hsub, -⟩ | ⟨hsub, -⟩)
    · exact hsub
    · exact hsub
  · intro hsub
    by_cases horder : sub.conn ∈ order
    · exact Or.inl ⟨sub.conn, horder, hsub, rfl⟩
    · exact Or.inr ⟨hsub, horder⟩

/-- The connection cancelled is one of the user. -/
theorem exists_of_cancelSubscriberUser
    (h : cancelSubscriberUser order subs userID = some conn) :
    ∃ sub ∈ subs, sub.userID = userID ∧ sub.conn = conn := by
  simp only [cancelSubscriberUser, Option.map_eq_some_iff] at h
  obtain ⟨sub, hfind, hconn⟩ := h
  have huser : sub.userID = userID := by
    simpa using List.find?_some hfind
  exact ⟨sub, mem_ranged_iff.mp (List.mem_of_find?_eq_some hfind), huser, hconn⟩

/-- If the user has a connection, one is cancelled. -/
theorem cancelSubscriberUser_isSome
    (order : List Nat)
    (hsub : sub ∈ subs)
    (huser : sub.userID = userID) :
    ∃ conn, cancelSubscriberUser order subs userID = some conn := by
  cases hfind : (ranged order subs).find?
      (fun sub => decide (sub.userID = userID)) with
  | none =>
      have := List.find?_eq_none.mp hfind sub (mem_ranged_iff.mpr hsub)
      simp [huser] at this
  | some found =>
      exact ⟨found.conn, by simp [cancelSubscriberUser, hfind]⟩

/-- Connections that the order names are cancelled before any other. -/
theorem mem_order_of_cancelSubscriberUser
    (hsub : sub ∈ subs)
    (huser : sub.userID = userID)
    (horder : sub.conn ∈ order)
    (h : cancelSubscriberUser order subs userID = some conn) :
    conn ∈ order := by
  simp only [cancelSubscriberUser, ranged, List.find?_append,
    Option.map_eq_some_iff] at h
  obtain ⟨found, hfind, rfl⟩ := h
  cases hfirst : (order.filterMap subs.find?).find?
      (fun sub => decide (sub.userID = userID)) with
  | none =>
      have hmem : sub ∈ order.filterMap subs.find? :=
        List.mem_filterMap.mpr
          ⟨sub.conn, horder, Table.find?_eq_some_iff.mpr ⟨hsub, rfl⟩⟩
      have := List.find?_eq_none.mp hfirst sub hmem
      simp [huser] at this
  | some first =>
      rw [hfirst, Option.some_or, Option.some.injEq] at hfind
      subst hfind
      obtain ⟨conn, hconn, hfound⟩ :=
        List.mem_filterMap.mp (List.mem_of_find?_eq_some hfirst)
      rwa [(Table.find?_eq_some_iff.mp hfound).2]

/-- Every topic with a subscriber is in the topic map. -/
def Known (s : State) : Prop :=
  ∀ sub ∈ s.subscribers, ∀ t ∈ sub.topics, t ∈ s.topics

/--
`killUserSubscriber` is sure to cancel a connection, in whatever order it meets
the subscribers, when on a matching topic there is no other one of the user.
-/
theorem cancelled_in_every_order_iff
    {u : User} {topicPattern : String}
    (hknown : Known s)
    (hsub : sub ∈ s.subscribers) :
    (∀ orders, sub.conn ∈ killUserSubscriber s orders u topicPattern)
      ↔
    OnlyConnection s u.id topicPattern sub := by
  simp only [killUserSubscriber, topicsFromPattern, List.mem_filterMap,
    List.mem_filter]
  constructor
  · intro hall
    -- the loop that meets all others first
    obtain ⟨t, ⟨-, hmatch⟩, hcancel⟩ := hall (fun t =>
      ((s.subscribersOf t).rows.map Subscriber.conn).filter
        (fun conn => decide (conn ≠ sub.conn)))
    obtain ⟨found, hfound, huser, hconn⟩ := exists_of_cancelSubscriberUser hcancel
    have hsame : found = sub :=
      Table.eq_of_key_eq (mem_subscribersOf_iff.mp hfound).1 hsub hconn
    subst hsame
    refine ⟨huser, t, (mem_subscribersOf_iff.mp hfound).2, hmatch, ?_⟩
    intro other hother huser' htopic
    by_contra hne
    have hother' := mem_subscribersOf_iff.mpr ⟨hother, htopic⟩
    have hconn' : other.conn ≠ found.conn :=
      fun h => hne (Table.eq_of_key_eq hother hsub h)
    have horder := mem_order_of_cancelSubscriberUser hother' huser'
      (List.mem_filter.mpr
        ⟨List.mem_map_of_mem hother', by simpa using hconn'⟩) hcancel
    simp at horder
  · rintro ⟨huser, t, htopic, hmatch, honly⟩ orders
    have hsub' := mem_subscribersOf_iff.mpr ⟨hsub, htopic⟩
    obtain ⟨conn, hcancel⟩ := cancelSubscriberUser_isSome (orders t) hsub' huser
    obtain ⟨found, hfound, huser', rfl⟩ := exists_of_cancelSubscriberUser hcancel
    obtain ⟨hmem, htopic'⟩ := mem_subscribersOf_iff.mp hfound
    rw [honly found hmem huser' htopic'] at hcancel
    exact ⟨t, ⟨hknown sub hsub t htopic, hmatch⟩, hcancel⟩

theorem mem_cancelSubscribersExceptUser_iff :
    conn ∈ cancelSubscribersExceptUser subs userID
      ↔
    ∃ sub ∈ subs, sub.userID ≠ userID ∧ sub.conn = conn := by
  simp only [cancelSubscribersExceptUser, List.mem_map, List.mem_filter,
    decide_eq_true_eq, and_assoc]
  rfl

end Cancellation

section Invariant

variable {cfg : Config}
variable {s s' : State}

/-- Looking up topics creates topics and removes none. -/
theorem subset_topicsFromIDs
    (cfg : TopicConfig)
    (topics ids : List String) :
    topics ⊆ (topicsFromIDs cfg topics ids).1 := by
  induction ids generalizing topics with
  | nil =>
      exact List.Subset.refl topics
  | cons id ids ih =>
      unfold topicsFromIDs
      split
      · exact List.Subset.refl topics
      · split
        · exact ih topics
        · split
          · exact List.Subset.refl topics
          · exact List.Subset.trans (List.subset_append_left topics [id]) (ih _)

/-- After a lookup that succeeds all topics exist, and none is disallowed. -/
theorem mem_topicsFromIDs
    {cfg : TopicConfig} {topics ids known : List String}
    (h : topicsFromIDs cfg topics ids = (known, .ok ())) :
    ∀ t ∈ ids, t ∈ known ∧ t ∉ cfg.disallowedTopics := by
  induction ids generalizing topics with
  | nil =>
      simp
  | cons id ids ih =>
      have hsubset := subset_topicsFromIDs cfg
      intro t ht
      unfold topicsFromIDs at h
      split at h
      · simp at h
      · rename_i hallowed
        split at h
        · rename_i hmem
          rcases List.mem_cons.mp ht with rfl | ht
          · have hknown := hsubset topics ids hmem
            rw [h] at hknown
            exact ⟨hknown, hallowed⟩
          · exact ih h t ht
        · split at h
          · simp at h
          · rcases List.mem_cons.mp ht with rfl | ht
            · have hadded : t ∈ topics ++ [t] := by simp
              have hknown := hsubset (topics ++ [t]) ids hadded
              rw [h] at hknown
              exact ⟨hknown, hallowed⟩
            · exact ih h t ht

/-- The topic exists and may be used. -/
def Current
    (cfg : Config)
    (topics : List String)
    (t : String) : Prop :=
  t ∈ topics ∧ t ∉ cfg.topics.disallowedTopics

/-- Subscribers are registered on current topics, and requests hold such. -/
structure WellFormed
    (cfg : Config)
    (s : State) : Prop where
  subscribers : ∀ sub ∈ s.subscribers, ∀ t ∈ sub.topics,
    Current cfg s.topics t
  requests : ∀ r ∈ s.requests, ∀ held, r.held = some held →
    ∀ t ∈ held, Current cfg s.topics t

theorem WellFormed.known
    (h : WellFormed cfg s) :
    Known s :=
  fun sub hsub t ht => (h.subscribers sub hsub t ht).1

/-- More topics, fewer or cancelled subscribers and fewer requests do no harm. -/
theorem WellFormed.mono
    (h : WellFormed cfg s)
    (htopics : s.topics ⊆ s'.topics)
    (hsubscribers : ∀ sub' ∈ s'.subscribers, ∃ sub ∈ s.subscribers,
      sub'.topics = sub.topics)
    (hrequests : ∀ r ∈ s'.requests, r.held = none ∨ r ∈ s.requests) :
    WellFormed cfg s' where
  subscribers := by
    intro sub' hsub' t ht
    obtain ⟨sub, hsub, heq⟩ := hsubscribers sub' hsub'
    obtain ⟨hknown, hallowed⟩ := h.subscribers sub hsub t (heq ▸ ht)
    exact ⟨htopics hknown, hallowed⟩
  requests := by
    intro r hr held hheld t ht
    rcases hrequests r hr with hnone | hmem
    · simp [hnone] at hheld
    · obtain ⟨hknown, hallowed⟩ := h.requests r hmem held hheld t ht
      exact ⟨htopics hknown, hallowed⟩

theorem mem_cancel_iff
    {conns : List Nat} {sub' : Subscriber} :
    sub' ∈ (s.cancel conns).subscribers
      ↔
    ∃ sub ∈ s.subscribers,
      (if sub.conn ∈ conns then { sub with cancelled := true } else sub) =
        sub' := by
  simp [State.cancel]

/-- What a handler can do: change the database, create topics, cancel connections. -/
def Outcome (s s' : State) : Prop :=
  ∃ db topics conns, s.topics ⊆ topics ∧
    s' = State.cancel { s with db, topics } conns

theorem cancel_nil
    (s : State) :
    s.cancel [] = s := by
  simp [State.cancel, Table.modify]

theorem Outcome.of_db
    (s : State)
    (db : Database) :
    Outcome s { s with db } :=
  ⟨db, s.topics, [], List.Subset.refl _, (cancel_nil _).symm⟩

theorem Outcome.of_cancel
    (s : State)
    (db : Database)
    (conns : List Nat) :
    Outcome s (State.cancel { s with db } conns) :=
  ⟨db, s.topics, conns, List.Subset.refl _, rfl⟩

theorem Outcome.wellFormed
    (h : WellFormed cfg s)
    (hout : Outcome s s') :
    WellFormed cfg s' := by
  obtain ⟨db, topics, conns, htopics, rfl⟩ := hout
  refine h.mono htopics ?_ (fun r hr => Or.inr hr)
  intro sub' hsub'
  obtain ⟨sub, hsub, rfl⟩ := mem_cancel_iff.mp hsub'
  exact ⟨sub, hsub, by split <;> rfl⟩

theorem handleAccessReset_outcome
    (s : State) (orders : String → List Nat) (username topic : String) :
    Outcome s (handleAccessReset s orders username topic).1 := by
  unfold handleAccessReset
  split
  · exact Outcome.of_db s s.db
  · split
    · exact Outcome.of_db s s.db
    · exact Outcome.of_cancel s _ _

theorem handleUsersDelete_outcome
    (s : State) (orders : String → List Nat) (foreignKeys : Bool)
    (username : String) :
    Outcome s (handleUsersDelete s orders foreignKeys username).1 := by
  unfold handleUsersDelete
  split
  · exact Outcome.of_db s s.db
  · split
    · split
      · exact Outcome.of_db s s.db
      · exact Outcome.of_cancel s _ _
    · exact Outcome.of_db s s.db

theorem handleAdminTopicAccessRevoke_outcome
    (s : State) (username topicPattern : String) :
    Outcome s (handleAdminTopicAccessRevoke s username topicPattern).1 := by
  unfold handleAdminTopicAccessRevoke
  split
  · exact Outcome.of_db s s.db
  · split <;> exact Outcome.of_db s _

theorem handleAdminUserDelete_outcome
    (s : State) (foreignKeys : Bool) (username : String) :
    Outcome s (handleAdminUserDelete s foreignKeys username).1 := by
  unfold handleAdminUserDelete
  split
  · exact Outcome.of_db s s.db
  · split <;> exact Outcome.of_db s _

theorem handleFlieg_outcome
    (s : State) (u : User) (topic : String) :
    Outcome s (handleFlieg s u topic).1 := by
  unfold handleFlieg
  split
  · exact Outcome.of_db s s.db
  · split
    · exact Outcome.of_db s s.db
    · split <;> exact Outcome.of_db s _

theorem handleAccountReservationAdd_outcome
    (cfg : Config) (s : State) (u : User) (topic everyone : String) :
    Outcome s (handleAccountReservationAdd cfg s u topic everyone).1 := by
  have hsubset := subset_topicsFromIDs cfg.topics s.topics [topic]
  unfold handleAccountReservationAdd
  split
  · exact Outcome.of_db s s.db
  · rename_i db hdb
    split
    · rename_i topics e heq
      rw [heq] at hsubset
      exact ⟨db, topics, [], hsubset, (cancel_nil _).symm⟩
    · rename_i topics heq
      rw [heq] at hsubset
      exact ⟨db, topics, _, hsubset, rfl⟩

/-- A registration adds a subscriber, or a web push subscription. -/
theorem register_cases
    {userID : String} {r : Request}
    (h : register s userID r = some s') :
    (∃ conn held, r.target = .stream conn ∧ r.held = some held ∧
      s.subscribers.find? conn = none ∧ s'.webPush = s.webPush ∧
      s'.db = s.db ∧ s'.topics = s.topics ∧ s'.requests = s.requests ∧
      ∀ sub, sub ∈ s'.subscribers ↔
        sub ∈ s.subscribers ∨ sub = ⟨conn, userID, held, false⟩) ∨
    ∃ endpoint, r.target = .webPush endpoint ∧
      s'.subscribers = s.subscribers ∧ s'.db = s.db ∧
      s'.topics = s.topics ∧ s'.requests = s.requests ∧
      ∀ p, p ∈ s'.webPush ↔
        p = ⟨endpoint, userID, r.topics⟩ ∨
          (p ∈ s.webPush ∧ p.endpoint ≠ endpoint) := by
  rcases r with ⟨conn | endpoint, topics, held⟩
  · cases held with
    | none =>
        simp [register] at h
    | some held =>
        simp only [register, Option.map_eq_some_iff] at h
        obtain ⟨subscribers, hinsert, rfl⟩ := h
        obtain ⟨hfree, hrows⟩ := Table.insert?_eq_some_iff.mp hinsert
        refine Or.inl ⟨conn, held, rfl, rfl, hfree, rfl, rfl, rfl, rfl, ?_⟩
        intro sub
        simp only [Table.mem_def, hrows, List.mem_append, List.mem_singleton]
  · simp only [register, Option.some.injEq] at h
    subst h
    refine Or.inr ⟨endpoint, rfl, rfl, rfl, rfl, rfl, fun p => ?_⟩
    refine Table.mem_upsert_iff ?_ ?_
    · exact fun _ => rfl
    · rintro ⟨endpoint', _, _⟩ rfl
      rfl

/-- Every step keeps the invariant. -/
theorem WellFormed.step
    {l : Label}
    (h : WellFormed cfg s)
    (hstep : Revocation.step cfg s l = some s') :
    WellFormed cfg s' := by
  have hsame : ∀ sub' ∈ s.subscribers, ∃ sub ∈ s.subscribers,
      sub'.topics = sub.topics := fun sub hsub => ⟨sub, hsub, rfl⟩
  unfold Revocation.step at hstep
  rcases l with ⟨operation, orders⟩
  cases operation with
  | restart topics =>
      cases hstep
      exact ⟨by simp, by simp⟩
  | authorize u target topics =>
      have hsubset := subset_topicsFromIDs cfg.topics s.topics topics
      simp only at hstep
      split at hstep
      · split at hstep
        · rename_i known e heq
          rw [heq] at hsubset
          cases hstep
          exact h.mono hsubset hsame (fun r hr => Or.inr hr)
        · rename_i known heq
          rw [heq] at hsubset
          split at hstep
          · cases hstep
            refine h.mono hsubset hsame ?_
            intro r hr
            rcases List.mem_append.mp hr with hr | hr
            · exact Or.inr hr
            · rw [List.mem_singleton.mp hr]
              exact Or.inl rfl
          · cases hstep
            exact h.mono hsubset hsame (fun r hr => Or.inr hr)
      · cases hstep
  | lookup i =>
      simp only at hstep
      split at hstep
      · rename_i conn topics held hr
        have hsubset := subset_topicsFromIDs cfg.topics s.topics topics
        split at hstep
        · rename_i known e heq
          rw [heq] at hsubset
          cases hstep
          exact h.mono hsubset hsame
            (fun r hr => Or.inr (List.mem_of_mem_eraseIdx hr))
        · rename_i known heq
          have hcurrent := mem_topicsFromIDs heq
          rw [heq] at hsubset
          cases hstep
          have hmono : WellFormed cfg { s with topics := known } :=
            h.mono hsubset hsame (fun r hr => Or.inr hr)
          refine ⟨hmono.subscribers, ?_⟩
          intro r hr held' hheld t ht
          rcases List.mem_or_eq_of_mem_set hr with hr | rfl
          · exact hmono.requests r hr held' hheld t ht
          · cases hheld
            exact hcurrent t ht
      · cases hstep
  | register i u =>
      simp only [Option.bind_eq_some_iff] at hstep
      obtain ⟨r, hr, hregister⟩ := hstep
      have herase : WellFormed cfg
          { s with requests := s.requests.eraseIdx i } :=
        h.mono (List.Subset.refl _) hsame
          (fun r hr => Or.inr (List.mem_of_mem_eraseIdx hr))
      rcases register_cases hregister with
        ⟨conn, held, -, hheld, -, -, -, htopics, hrequests, hmem⟩ |
        ⟨endpoint, -, hsubscribers, -, htopics, hrequests, -⟩
      · refine ⟨?_, ?_⟩
        · intro sub hsub t ht
          rw [htopics]
          rcases (hmem sub).mp hsub with hsub | rfl
          · exact herase.subscribers sub hsub t ht
          · exact h.requests r (List.mem_of_getElem? hr) held hheld t ht
        · rw [htopics, hrequests]
          exact herase.requests
      · refine ⟨?_, ?_⟩
        · rw [hsubscribers, htopics]
          exact herase.subscribers
        · rw [htopics, hrequests]
          exact herase.requests
  | drop i =>
      cases hstep
      exact h.mono (List.Subset.refl _) hsame
        (fun r hr => Or.inr (List.mem_of_mem_eraseIdx hr))
  | unsubscribe conn =>
      cases hstep
      refine h.mono (List.Subset.refl _) ?_ (fun r hr => Or.inr hr)
      intro sub hsub
      exact ⟨sub, (Table.mem_delete_iff.mp hsub).1, rfl⟩
  | webPushDelete endpoint =>
      cases hstep
      exact h.mono (List.Subset.refl _) hsame (fun r hr => Or.inr hr)
  | expunge topic =>
      simp only at hstep
      split at hstep
      · rename_i hempty
        cases hstep
        refine ⟨?_, ?_⟩
        · intro sub hsub t ht
          obtain ⟨hknown, hallowed⟩ := h.subscribers sub hsub t ht
          refine ⟨List.mem_filter.mpr ⟨hknown, ?_⟩, hallowed⟩
          rw [decide_eq_true_eq]
          rintro rfl
          have hmem : sub ∈ s.subscribersOf t :=
            mem_subscribersOf_iff.mpr ⟨hsub, ht⟩
          rw [List.isEmpty_iff] at hempty
          simp [Table.mem_def, hempty] at hmem
        · intro r hr held hheld t ht
          obtain ⟨r₀, hr₀, rfl⟩ := List.mem_map.mp hr
          simp only [Request.detach, Option.map_eq_some_iff] at hheld
          obtain ⟨held₀, hheld₀, rfl⟩ := hheld
          obtain ⟨ht₀, hne⟩ := List.mem_filter.mp ht
          obtain ⟨hknown, hallowed⟩ := h.requests r₀ hr₀ held₀ hheld₀ t ht₀
          exact ⟨List.mem_filter.mpr ⟨hknown, hne⟩, hallowed⟩
      · cases hstep
  | write db =>
      cases hstep
      exact (Outcome.of_db s db).wellFormed h
  | accessReset username topic =>
      cases hstep
      exact (handleAccessReset_outcome s orders username topic).wellFormed h
  | usersDelete foreignKeys username =>
      cases hstep
      exact (handleUsersDelete_outcome s orders foreignKeys username).wellFormed h
  | adminTopicAccessRevoke username topicPattern =>
      cases hstep
      exact (handleAdminTopicAccessRevoke_outcome s username
        topicPattern).wellFormed h
  | adminUserDelete foreignKeys username =>
      cases hstep
      exact (handleAdminUserDelete_outcome s foreignKeys username).wellFormed h
  | flieg u topic =>
      cases hstep
      exact (handleFlieg_outcome s u topic).wellFormed h
  | reservationAdd u topic everyone =>
      cases hstep
      exact (handleAccountReservationAdd_outcome cfg s u topic
        everyone).wellFormed h

end Invariant

section Revocations

variable {cfg : Config}
variable {s s' : State}

/-- Fewer subscriptions under the same database. -/
theorem AllAuthorized.mono
    (h : AllAuthorized cfg s)
    (hdb : s'.db = s.db)
    (hsubscribers : ∀ sub ∈ s'.subscribers, sub ∈ s.subscribers)
    (hwebPush : ∀ p ∈ s'.webPush, p ∈ s.webPush) :
    AllAuthorized cfg s' := by
  refine ⟨?_, ?_⟩
  · intro sub hsub
    rw [hdb]
    exact h.1 sub (hsubscribers sub hsub)
  · intro p hp
    rw [hdb]
    exact h.2 p (hwebPush p hp)

/-- Another database, and the same subscriptions. -/
theorem authorized_write_iff
    (s : State)
    (db : Database) :
    AllAuthorized cfg { s with db } ↔ Cuts cfg s db (fun _ => False) := by
  refine and_congr_left fun _ => forall₃_congr fun sub _ _ => ?_
  constructor
  · rintro hall ⟨t, ht, hlost⟩
    exact hlost (hall t ht)
  · intro hnone t ht
    by_contra hlost
    exact hnone ⟨t, ht, hlost⟩

/-- Another database, and some connections cancelled. -/
theorem authorized_cancel_iff
    (s : State)
    (db : Database)
    (topics : List String)
    (conns : List Nat) :
    AllAuthorized cfg (State.cancel { s with db, topics } conns)
      ↔
    Cuts cfg s db (fun sub => sub.conn ∈ conns) := by
  refine and_congr_left fun _ => ?_
  constructor
  · rintro hall sub hsub hlive ⟨t, ht, hlost⟩
    by_contra hconn
    have hmem : sub ∈
        (State.cancel { s with db, topics } conns).subscribers :=
      mem_cancel_iff.mpr ⟨sub, hsub, by simp [hconn]⟩
    exact hlost (hall sub hmem hlive t ht)
  · intro hcut sub' hsub' hlive t ht
    obtain ⟨sub, hsub, rfl⟩ := mem_cancel_iff.mp hsub'
    by_cases hconn : sub.conn ∈ conns
    · simp [hconn] at hlive
    · simp only [hconn, if_false] at hlive ht ⊢
      by_contra hlost
      exact hconn (hcut sub hsub hlive ⟨t, ht, hlost⟩)

theorem cuts_congr
    {db : Database} {cut cut' : Subscriber → Prop}
    (h : ∀ sub ∈ s.subscribers, (cut sub ↔ cut' sub)) :
    Cuts cfg s db cut ↔ Cuts cfg s db cut' := by
  refine and_congr_left fun _ => forall₂_congr fun sub hsub => ?_
  rw [h sub hsub]

/-- Another database, and `killUserSubscriber` in any order. -/
theorem authorized_killed_iff
    {u : User} {topicPattern : String} {db : Database}
    (hknown : Known s) :
    (∀ orders, AllAuthorized cfg
      (State.cancel { s with db } (killUserSubscriber s orders u topicPattern)))
      ↔
    Cuts cfg s db (OnlyConnection s u.id topicPattern) := by
  have hcancel : ∀ orders, AllAuthorized cfg
      (State.cancel { s with db } (killUserSubscriber s orders u topicPattern))
      ↔ Cuts cfg s db
        (fun sub => sub.conn ∈ killUserSubscriber s orders u topicPattern) :=
    fun orders => authorized_cancel_iff s db s.topics _
  constructor
  · intro hall
    refine ⟨?_, ((hcancel fun _ => []).mp (hall _)).2⟩
    intro sub hsub hlive hlost
    rw [← cancelled_in_every_order_iff hknown hsub]
    intro orders
    exact ((hcancel orders).mp (hall orders)).1 sub hsub hlive hlost
  · rintro ⟨hcut, hwebPush⟩ orders
    refine (hcancel orders).mpr ⟨?_, hwebPush⟩
    intro sub hsub hlive hlost
    exact (cancelled_in_every_order_iff hknown hsub).mpr
      (hcut sub hsub hlive hlost) orders

/-- Cutting by `CancelSubscribersExceptUser`. -/
theorem cuts_except_iff
    {topic userID : String} {db : Database} :
    Cuts cfg s db (fun sub => sub.conn ∈
      cancelSubscribersExceptUser (s.subscribersOf topic) userID)
      ↔
    Cuts cfg s db (fun sub => topic ∈ sub.topics ∧ sub.userID ≠ userID) := by
  refine cuts_congr fun sub hsub => ?_
  rw [mem_cancelSubscribersExceptUser_iff]
  constructor
  · rintro ⟨other, hother, huser, hconn⟩
    obtain ⟨hmem, htopic⟩ := mem_subscribersOf_iff.mp hother
    rw [← Table.eq_of_key_eq hmem hsub hconn]
    exact ⟨htopic, huser⟩
  · rintro ⟨htopic, huser⟩
    exact ⟨sub, mem_subscribersOf_iff.mpr ⟨hsub, htopic⟩, huser, rfl⟩

theorem authorized_accessReset_iff
    (hknown : Known s)
    (hauth : AllAuthorized cfg s)
    (username topic : String) :
    (∀ orders, AllAuthorized cfg (handleAccessReset s orders username topic).1)
      ↔
    LosersReached cfg s (.accessReset username topic) := by
  simp only [handleAccessReset, LosersReached]
  cases s.db.user username with
  | none =>
      simpa using hauth
  | some u =>
      cases s.db.resetAccess username topic with
      | error e =>
          simpa [Except.toOption] using hauth
      | ok db =>
          simpa [Except.toOption] using authorized_killed_iff hknown

theorem authorized_usersDelete_iff
    (hknown : Known s)
    (hauth : AllAuthorized cfg s)
    (foreignKeys : Bool)
    (username : String) :
    (∀ orders,
      AllAuthorized cfg (handleUsersDelete s orders foreignKeys username).1)
      ↔
    LosersReached cfg s (.usersDelete foreignKeys username) := by
  simp only [handleUsersDelete, LosersReached]
  cases s.db.user username with
  | none =>
      simpa using hauth
  | some u =>
      cases hu : u.isUser with
      | false =>
          simpa [hu] using hauth
      | true =>
          cases s.db.removeUser foreignKeys username with
          | error e =>
              simpa [hu, Except.toOption] using hauth
          | ok db =>
              simpa [hu, Except.toOption] using authorized_killed_iff hknown

theorem authorized_adminTopicAccessRevoke_iff
    (hauth : AllAuthorized cfg s)
    (username topicPattern : String) :
    AllAuthorized cfg (handleAdminTopicAccessRevoke s username topicPattern).1
      ↔
    LosersReached cfg s (.adminTopicAccessRevoke username topicPattern) := by
  simp only [handleAdminTopicAccessRevoke, LosersReached]
  by_cases husername : username = ""
  · simpa [husername] using hauth
  · by_cases htopicPattern : topicPattern = ""
    · simpa [htopicPattern] using hauth
    · cases s.db.resetAccess username topicPattern with
      | error e =>
          simpa [husername, htopicPattern, Except.toOption] using hauth
      | ok db =>
          simpa [husername, htopicPattern, Except.toOption] using
            authorized_write_iff s db

theorem authorized_adminUserDelete_iff
    (hauth : AllAuthorized cfg s)
    (foreignKeys : Bool)
    (username : String) :
    AllAuthorized cfg (handleAdminUserDelete s foreignKeys username).1
      ↔
    LosersReached cfg s (.adminUserDelete foreignKeys username) := by
  simp only [handleAdminUserDelete, LosersReached]
  by_cases husername : username = ""
  · simpa [husername] using hauth
  · by_cases hslash : '/' ∈ username.toList
    · simpa [hslash] using hauth
    · cases s.db.removeUser foreignKeys username with
      | error e =>
          simpa [husername, hslash, Except.toOption] using hauth
      | ok db =>
          simpa [husername, hslash, Except.toOption] using
            authorized_write_iff s db

theorem authorized_flieg_iff
    (hauth : AllAuthorized cfg s)
    (u : User)
    (topic : String) :
    AllAuthorized cfg (handleFlieg s u topic).1
      ↔
    LosersReached cfg s (.flieg u topic) := by
  simp only [handleFlieg, LosersReached]
  by_cases htopic : topic = ""
  · simpa [htopic] using hauth
  · cases "dm_".toList.isPrefixOf topic.toList with
    | true =>
        simpa [htopic] using hauth
    | false =>
        cases s.db.resetAccess u.name topic with
        | error e =>
            simpa [htopic, Except.toOption] using hauth
        | ok db =>
            simpa [htopic, Except.toOption] using authorized_write_iff s db

theorem authorized_reservationAdd_iff
    (hwf : WellFormed cfg s)
    (hauth : AllAuthorized cfg s)
    (u : User)
    (topic everyone : String) :
    AllAuthorized cfg (handleAccountReservationAdd cfg s u topic everyone).1
      ↔
    LosersReached cfg s (.reservationAdd u topic everyone) := by
  simp only [handleAccountReservationAdd, LosersReached]
  cases reserve s.db u topic everyone with
  | error e =>
      simpa [Except.toOption] using hauth
  | ok db =>
      simp only [Except.toOption, Option.mem_def, Option.some.injEq,
        forall_eq']
      rcases hlookup : topicsFromIDs cfg.topics s.topics [topic] with
        ⟨topics, e | ⟨⟩⟩
      · -- the lookup fails, so the topic has no subscribers
        have hfree : ∀ sub ∈ s.subscribers, topic ∉ sub.topics := by
          intro sub hsub htopic
          obtain ⟨hknown, hallowed⟩ := hwf.subscribers sub hsub topic htopic
          simp [topicsFromIDs, hallowed, hknown] at hlookup
        refine (authorized_write_iff s db).trans (cuts_congr fun sub hsub => ?_)
        exact ⟨False.elim, fun h => hfree sub hsub h.1⟩
      · exact (authorized_cancel_iff s db topics _).trans cuts_except_iff

theorem exists_insert?
    {subs : Table Subscriber.conn}
    (sub : Subscriber)
    (hfree : subs.find? sub.conn = none) :
    ∃ subs', subs.insert? sub = some subs' := by
  rw [← Option.isSome_iff_exists, Option.isSome_iff_ne_none]
  intro hnone
  obtain ⟨old, hold, hconn⟩ := Table.insert?_eq_none_iff.mp hnone
  exact Table.find?_eq_none_iff.mp hfree old hold hconn

/-- A registration leaves all as it should be if the request may read its topics. -/
theorem authorized_register_iff
    (hauth : AllAuthorized cfg s)
    (i : Nat)
    (u : Option User) :
    (∀ s', s.requests[i]?.bind
        (fun r => register { s with requests := s.requests.eraseIdx i }
          (maybeUserID u) r) = some s' → AllAuthorized cfg s')
      ↔
    LosersReached cfg s (.register i u) := by
  simp only [LosersReached]
  rcases s.requests[i]? with _ | ⟨conn | endpoint, topics, held⟩
  · simp
  · cases held with
    | none =>
        simp [register, Request.registrable]
    | some held =>
        simp only [Option.bind_some, Option.mem_def, Option.some.injEq,
          forall_eq', Request.registrable, Request.subscribed,
          Option.isSome_some, Bool.true_and, Option.isNone_iff_eq_none,
          Option.getD_some]
        constructor
        · intro hall hfree
          obtain ⟨subscribers, hinsert⟩ :=
            exists_insert? ⟨conn, maybeUserID u, held, false⟩ hfree
          have hnew := hall
            { s with requests := s.requests.eraseIdx i, subscribers }
            (by simp only [register, hinsert, Option.map_some])
          refine hnew.1 ⟨conn, maybeUserID u, held, false⟩ ?_ rfl
          rw [Table.mem_def, (Table.insert?_eq_some_iff.mp hinsert).2]
          simp
        · intro hread s' hregister
          rcases register_cases hregister with
            ⟨_, _, ⟨⟩, ⟨⟩, hfree, hwebPush, hdb, -, -, hmem⟩ | ⟨_, ⟨⟩, -⟩
          refine ⟨?_, ?_⟩
          · intro sub hsub hlive
            rw [hdb]
            rcases (hmem sub).mp hsub with hsub | rfl
            · exact hauth.1 sub hsub hlive
            · exact hread hfree
          · rw [hwebPush, hdb]
            exact hauth.2
  · simp only [Option.bind_some, Option.mem_def, Option.some.injEq, forall_eq',
      Request.registrable, Request.subscribed, true_implies]
    constructor
    · intro hall
      have hnew := hall _ rfl
      refine hnew.2 ⟨endpoint, maybeUserID u, topics⟩ ?_
      refine (Table.mem_upsert_iff ?_ ?_).mpr (Or.inl rfl)
      · exact fun _ => rfl
      · rintro ⟨_, _, _⟩ rfl
        rfl
    · intro hread s' hregister
      rcases register_cases hregister with
        ⟨_, _, ⟨⟩, -⟩ | ⟨_, ⟨⟩, hsubscribers, hdb, -, -, hmem⟩
      refine ⟨?_, ?_⟩
      · rw [hsubscribers, hdb]
        exact hauth.1
      · intro p hp
        rw [hdb]
        rcases (hmem p).mp hp with rfl | ⟨hp, -⟩
        · exact hread
        · exact hauth.2 p hp

/--
In whatever order an operation meets the subscribers, it leaves nobody
subscribed who may not read: this is the case exactly when it reaches everybody
who loses read access.
-/
theorem authorized_step_iff
    (hwf : WellFormed cfg s)
    (hauth : AllAuthorized cfg s)
    (operation : Operation) :
    (∀ orders s', step cfg s ⟨operation, orders⟩ = some s' →
      AllAuthorized cfg s')
      ↔
    LosersReached cfg s operation := by
  cases operation with
  | accessReset username topic =>
      simpa [step] using authorized_accessReset_iff hwf.known hauth username topic
  | usersDelete foreignKeys username =>
      simpa [step] using
        authorized_usersDelete_iff hwf.known hauth foreignKeys username
  | adminTopicAccessRevoke username topicPattern =>
      simpa [step] using
        authorized_adminTopicAccessRevoke_iff hauth username topicPattern
  | adminUserDelete foreignKeys username =>
      simpa [step] using authorized_adminUserDelete_iff hauth foreignKeys username
  | flieg u topic =>
      simpa [step] using authorized_flieg_iff hauth u topic
  | reservationAdd u topic everyone =>
      simpa [step] using authorized_reservationAdd_iff hwf hauth u topic everyone
  | write db =>
      simpa [step, LosersReached] using authorized_write_iff s db
  | register i u =>
      simpa [step] using authorized_register_iff hauth i u
  | restart topics =>
      refine iff_of_true ?_ trivial
      rintro orders s' ⟨⟩
      exact hauth.mono rfl (by simp) (fun p hp => hp)
  | authorize u target topics =>
      refine iff_of_true ?_ trivial
      intro orders s' hstep
      simp only [step] at hstep
      split at hstep
      · split at hstep
        · cases hstep
          exact hauth
        · split at hstep <;> cases hstep <;> exact hauth
      · cases hstep
  | lookup i =>
      refine iff_of_true ?_ trivial
      intro orders s' hstep
      simp only [step] at hstep
      split at hstep
      · split at hstep <;> cases hstep <;> exact hauth
      · cases hstep
  | drop i =>
      refine iff_of_true ?_ trivial
      rintro orders s' ⟨⟩
      exact hauth
  | unsubscribe conn =>
      refine iff_of_true ?_ trivial
      rintro orders s' ⟨⟩
      exact hauth.mono rfl (fun sub hsub => (Table.mem_delete_iff.mp hsub).1)
        (fun p hp => hp)
  | webPushDelete endpoint =>
      refine iff_of_true ?_ trivial
      rintro orders s' ⟨⟩
      exact hauth.mono rfl (fun sub hsub => hsub)
        (fun p hp => (Table.mem_delete_iff.mp hp).1)
  | expunge topic =>
      refine iff_of_true ?_ trivial
      intro orders s' hstep
      simp only [step] at hstep
      split at hstep <;> cases hstep
      exact hauth

end Revocations

section Runs

variable {cfg : Config}
variable {s : State}

/-- A message published now reaches only those who may read it. -/
theorem canRead_of_mem_recipients
    (h : AllAuthorized cfg s)
    {topic userID : String}
    (hmem : userID ∈ recipients s topic) :
    CanRead cfg s.db userID topic := by
  simp only [recipients, subscriptionsForTopic, List.mem_append, List.mem_map,
    List.mem_filter, decide_eq_true_eq, Bool.not_eq_true'] at hmem
  rcases hmem with ⟨sub, ⟨hsub, hlive⟩, rfl⟩ | ⟨p, ⟨hp, htopic⟩, rfl⟩
  · obtain ⟨hsub, htopic⟩ := mem_subscribersOf_iff.mp hsub
    exact h.1 sub hsub hlive topic htopic
  · exact h.2 p hp topic htopic

/--
In every run whose operations reach everybody who loses read access, a message
published at any time reaches only those who may read it; and the operations
that keep it so are exactly those that reach everybody who loses read access.
-/
theorem revocation_stops_delivery
    {db : Database} {topics : List String} {ls : List Label}
    (hreached : Along (step cfg) (fun s l => LosersReached cfg s l.operation)
      (initial db topics) ls)
    (hrun : run (step cfg) (initial db topics) ls = some s) :
    AllAuthorized cfg s ∧
      (∀ topic, ∀ userID ∈ recipients s topic,
        CanRead cfg s.db userID topic) ∧
      ∀ operation,
        (∀ orders s', step cfg s ⟨operation, orders⟩ = some s' →
          AllAuthorized cfg s')
          ↔
        LosersReached cfg s operation := by
  have hinit : WellFormed cfg (initial db topics) ∧
      AllAuthorized cfg (initial db topics) := by
    refine ⟨⟨?_, ?_⟩, ?_, ?_⟩ <;> simp [initial]
  have hpres : ∀ s l s', WellFormed cfg s ∧ AllAuthorized cfg s →
      LosersReached cfg s l.operation → step cfg s l = some s' →
      WellFormed cfg s' ∧ AllAuthorized cfg s' := by
    rintro s ⟨operation, orders⟩ s' ⟨hwf, hauth⟩ hreach hstep
    exact ⟨hwf.step hstep,
      (authorized_step_iff hwf hauth operation).mpr hreach orders s' hstep⟩
  obtain ⟨hwf, hauth⟩ := run_invariant_along hpres hinit hreached hrun
  exact ⟨hauth, fun topic userID hmem => canRead_of_mem_recipients hauth hmem,
    fun operation => authorized_step_iff hwf hauth operation⟩

def exampleConfig : Config where
  topics := { disallowedTopics := [], totalTopicLimit := 100 }
  defaultAccess := .denyAll

def exampleUser : User :=
  ⟨"u_a", "alice", .user, none, ⟨0, 0, 0⟩, false⟩

/-- Alice may read `news`, and nobody else may read anything. -/
def exampleDatabase : Database where
  users :=
    { rows :=
        [⟨everyoneID, everyone, .anonymous, none, ⟨0, 0, 0⟩, false⟩, exampleUser]
      nodup := by decide }
  names_nodup := by decide
  names_allowed := by decide
  everyone_row := by decide
  access :=
    { rows :=
        [⟨"u_a", .ofPattern "news" (by decide), true, false, none, false⟩]
      nodup := by decide }
  topicMeta := .empty
  contacts := .empty
  profiles := .empty

/-- An operation that meets the subscribers in the order of their connections. -/
def exampleLabel (operation : Operation) : Label :=
  ⟨operation, fun _ => []⟩

/-- Alice connects to `news`. -/
def exampleConnect (conn : Nat) : List Label :=
  [.authorize (some exampleUser) (.stream conn) ["news"], .lookup 0,
    .register 0 (some exampleUser)].map exampleLabel

/-- Alice registers a web push endpoint for `news`. -/
def exampleWebPush : List Label :=
  [.authorize (some exampleUser) (.webPush "https://fcm.googleapis.com/1")
      ["news"],
    .register 0 (some exampleUser)].map exampleLabel

/-- An administrator takes away alice's access to `news`. -/
def exampleReset : Label :=
  exampleLabel (.accessReset "alice" "news")

/-- The only connection of alice is cancelled. -/
theorem connection_cancelled :
    ∃ s, run (step exampleConfig) (initial exampleDatabase [])
        (exampleConnect 1 ++ [exampleReset]) = some s ∧
      AllAuthorized exampleConfig s := by
  have hreached : Along (step exampleConfig)
      (fun s l => LosersReached exampleConfig s l.operation)
      (initial exampleDatabase []) (exampleConnect 1 ++ [exampleReset]) := by
    decide
  have hsome : (run (step exampleConfig) (initial exampleDatabase [])
      (exampleConnect 1 ++ [exampleReset])).isSome = true := by
    decide
  obtain ⟨s, hrun⟩ := Option.isSome_iff_exists.mp hsome
  exact ⟨s, hrun, (revocation_stops_delivery hreached hrun).1⟩

/--
Of two connections of alice one is cancelled, and her web push subscription is
still there: she may not read `news` any more and still gets its messages.
-/
theorem second_connection_survives :
    (run (step exampleConfig) (initial exampleDatabase [])
        (exampleConnect 1 ++ exampleConnect 2 ++ exampleWebPush)).map
      (fun s => (decide (AllAuthorized exampleConfig s), recipients s "news")) =
      some (true, ["u_a", "u_a", "u_a"]) ∧
    (run (step exampleConfig) (initial exampleDatabase [])
        (exampleConnect 1 ++ exampleConnect 2 ++ exampleWebPush ++
          [exampleReset])).map
      (fun s => (decide (CanRead exampleConfig s.db "u_a" "news"),
        recipients s "news")) =
      some (false, ["u_a", "u_a"]) := by
  exact ⟨by decide, by decide⟩

end Runs

end Revocation

end Server
end CoopMessenger
