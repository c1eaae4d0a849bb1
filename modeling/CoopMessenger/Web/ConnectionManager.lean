import CoopMessenger.Library.Pools
import CoopMessenger.Web.Utils

/-!
# Connections of the web application

`ConnectionManager` of `web/src/app/ConnectionManager.js` keeps the open connections
under their IDs, and an ID is the 32-bit hash of the ID of the subscription and the
credentials.

**Results.**
* `refresh_run`: a run of `refresh` is a run of reconciliations of a pool.
* `refresh_reaches_of_injective`: without collisions the wanted set is reached.
* `refresh_reaches_iff`: for which runs it is reached.
-/

namespace CoopMessenger
namespace Web

open Library

namespace ConnectionManager

section Model

structure Subscription where
  id : JSString
  baseUrl : JSString
  topic : JSString
  last : Option JSString
deriving DecidableEq

structure User where
  baseUrl : JSString
  username : JSString
  password : Option JSString
  token : Option JSString
deriving DecidableEq

structure Connection where
  connectionId : Int32
  subscriptionId : JSString
  baseUrl : JSString
  topic : JSString
  user : Option User
  since : Option JSString
deriving DecidableEq

def bar : JSString :=
  JSString.ofString "|"

def makeConnectionId
    (subscription : Subscription)
    (user : Option User) : Int32 :=
  match user with
  | some user =>
      hashCode (subscription.id ++ bar ++ user.username ++ bar ++
        user.password.getD [] ++ bar ++ user.token.getD [])
  | none => hashCode subscription.id

/-- A subscription with its user. -/
structure Target where
  subscription : Subscription
  user : Option User
deriving DecidableEq

def Target.connectionId (t : Target) : Int32 :=
  makeConnectionId t.subscription t.user

def Target.connection (t : Target) : Connection where
  connectionId := t.connectionId
  subscriptionId := t.subscription.id
  baseUrl := t.subscription.baseUrl
  topic := t.subscription.topic
  user := t.user
  since := t.subscription.last

def userOf
    (users : List User)
    (subscription : Subscription) : Option User :=
  (users.filter fun u => u.baseUrl = subscription.baseUrl).head?

def targets
    (subscriptions : List Subscription)
    (users : List User) : List Target :=
  subscriptions.map fun s => ⟨s, userOf users s⟩

/-- The map of connections and the sockets that are open. -/
abbrev Manager : Type :=
  Pool Int32 Connection

/-- The arguments of a call; those that are not loaded yet are missing. -/
structure Call where
  subscriptions : Option (List Subscription)
  users : Option (List User)

def refresh
    (m : Manager)
    (call : Call) : Manager :=
  match call.subscriptions, call.users with
  | some subscriptions, some users =>
      let subscriptionsWithUsers := targets subscriptions users
      let targetIds := subscriptionsWithUsers.map Target.connectionId
      let deletedIds := m.keys.filter fun id => id ∉ targetIds
      let connected := subscriptionsWithUsers.foldl
        (fun m t => m.acquire t.connectionId t.connection) m
      deletedIds.foldl Pool.release connected
  | _, _ => m

/-- The manager after some calls. -/
def run (history : List Call) : Manager :=
  history.foldl refresh Pool.empty

def credentials
    (user : Option User) : Option (JSString × Option JSString × Option JSString) :=
  user.map fun u => (u.username, u.password, u.token)

/-- The connection is one for this subscription with these credentials. -/
def Serves
    (c : Connection)
    (s : Subscription)
    (user : Option User) : Prop :=
  c.subscriptionId = s.id ∧ c.baseUrl = s.baseUrl ∧ c.topic = s.topic ∧
    credentials c.user = credentials user

/-- One open connection for each subscription, and none for anything else. -/
def ReachesWanted
    (m : Manager)
    (subscriptions : List Subscription)
    (users : List User) : Prop :=
  (∀ s ∈ subscriptions, ∃ c, Serves c s (userOf users s) ∧
    m.opened.filter (fun c => c.subscriptionId = s.id) = [c]) ∧
  ∀ c ∈ m.opened, ∃ s ∈ subscriptions, Serves c s (userOf users s)

end Model

section Services

/-- What a connection is for. -/
structure Service where
  subscriptionId : JSString
  baseUrl : JSString
  topic : JSString
  credentials : Option (JSString × Option JSString × Option JSString)
deriving DecidableEq

def Service.connectionId (service : Service) : Int32 :=
  match service.credentials with
  | some (username, password, token) =>
      hashCode (service.subscriptionId ++ bar ++ username ++ bar ++
        password.getD [] ++ bar ++ token.getD [])
  | none => hashCode service.subscriptionId

def Target.service (t : Target) : Service :=
  ⟨t.subscription.id, t.subscription.baseUrl, t.subscription.topic, credentials t.user⟩

def Connection.service (c : Connection) : Service :=
  ⟨c.subscriptionId, c.baseUrl, c.topic, credentials c.user⟩

/-- The ID depends on what the connection is for. -/
theorem connectionId_service
    (t : Target) :
    t.service.connectionId = t.connectionId := by
  obtain ⟨s, user⟩ := t
  cases user <;> rfl

theorem serves_iff
    {c : Connection} {s : Subscription} {user : Option User} :
    Serves c s user ↔ c.service = (Target.mk s user).service := by
  simp [Serves, Connection.service, Target.service]

theorem service_connection
    (t : Target) :
    t.connection.service = t.service :=
  rfl

def Call.targets (call : Call) : Option (List Target) :=
  match call.subscriptions, call.users with
  | some subscriptions, some users => some (ConnectionManager.targets subscriptions users)
  | _, _ => none

/--
No two wanted connections have the same ID, and a connection that is there under a wanted
ID was opened for what is wanted now.
-/
def KeysFaithful
    (history : List Call)
    (subscriptions : List Subscription)
    (users : List User) : Prop :=
  Pool.KeysFaithful Service.connectionId Target.service
    (history.filterMap Call.targets) (targets subscriptions users)

end Services

section Refreshing

theorem refresh_eq
    {m : Manager} {call : Call} :
    refresh m call = (call.targets.elim m
      (Pool.reconcile (fun t => t.service.connectionId) Target.connection m)) := by
  have hkeys : (fun t : Target => t.service.connectionId) = Target.connectionId :=
    funext connectionId_service
  rw [hkeys]
  obtain ⟨subscriptions, users⟩ := call
  cases subscriptions with
  | none =>
      rfl
  | some subscriptions =>
      cases users with
      | none =>
          rfl
      | some users =>
          rfl

/-- Calls without their arguments do nothing, the others reconcile. -/
theorem refresh_run
    (history : List Call) :
    run history = (history.filterMap Call.targets).foldl
      (Pool.reconcile (fun t => t.service.connectionId) Target.connection) Pool.empty := by
  unfold run
  generalize (Pool.empty : Manager) = m
  induction history generalizing m with
  | nil =>
      rfl
  | cons call history ih =>
      rw [List.foldl_cons, ih, refresh_eq]
      cases h : call.targets with
      | none =>
          simp [h]
      | some wanted =>
          simp [h]

theorem reachesWanted_iff_exact
    {m : Manager} {subscriptions : List Subscription} {users : List User} :
    ReachesWanted m subscriptions users
      ↔
    m.Exact Connection.service Service.subscriptionId
      ((targets subscriptions users).map Target.service) := by
  have hthings : ∀ t, t ∈ (targets subscriptions users).map Target.service ↔
      ∃ s ∈ subscriptions, (Target.mk s (userOf users s)).service = t := by
    simp [targets]
  unfold ReachesWanted Pool.Exact
  simp only [hthings, serves_iff]
  refine and_congr ⟨fun h t ht => ?_, fun h s hs => h _ ⟨s, hs, rfl⟩⟩ ?_
  · obtain ⟨s, hs, rfl⟩ := ht
    exact h s hs
  · exact forall₂_congr fun c _ => exists_congr fun s => and_congr_right fun _ => eq_comm

theorem reachesWanted_refresh
    {history : List Call} {subscriptions : List Subscription} {users : List User}
    (hdistinct : (subscriptions.map Subscription.id).Nodup) :
    ReachesWanted (refresh (run history) ⟨some subscriptions, some users⟩)
        subscriptions users
      ↔
    KeysFaithful history subscriptions users := by
  rw [reachesWanted_iff_exact, refresh_eq, refresh_run]
  have hident : ∀ t ∈ targets subscriptions users, ∀ t' ∈ targets subscriptions users,
      t.service.subscriptionId = t'.service.subscriptionId → t.service = t'.service := by
    intro t ht t' ht' hid
    obtain ⟨s, hs, rfl⟩ := List.mem_map.mp ht
    obtain ⟨s', hs', rfl⟩ := List.mem_map.mp ht'
    rw [List.inj_on_of_nodup_map hdistinct hs hs' hid]
  have hexact := Pool.exact_iff Service.connectionId Service.subscriptionId
    service_connection (history.filterMap Call.targets) (targets subscriptions users) hident
  rwa [List.foldl_append, List.foldl_cons, List.foldl_nil] at hexact

/-- Without collisions among all that was ever wanted, the wanted set is reached. -/
theorem refresh_reaches_of_injective
    {history : List Call} {subscriptions : List Subscription} {users : List User}
    (hdistinct : (subscriptions.map Subscription.id).Nodup)
    (hinj : ∀ t ∈ (history.filterMap Call.targets ++ [targets subscriptions users]).flatten,
      ∀ t' ∈ (history.filterMap Call.targets ++ [targets subscriptions users]).flatten,
        t.connectionId = t'.connectionId → t.service = t'.service) :
    ReachesWanted (refresh (run history) ⟨some subscriptions, some users⟩)
      subscriptions users := by
  rw [reachesWanted_refresh hdistinct]
  refine Pool.keysFaithful_of_injective fun t ht t' ht' hid => hinj t ht t' ht' ?_
  rwa [connectionId_service, connectionId_service] at hid

/--
After any calls, a call reaches the wanted set if and only if no two wanted connections
have the same ID, and those that are there under a wanted ID are for what is wanted.
-/
theorem refresh_reaches_iff
    (history : List Call)
    (subscriptions : List Subscription)
    (users : List User)
    (hdistinct : (subscriptions.map Subscription.id).Nodup) :
    ReachesWanted (refresh (run history) ⟨some subscriptions, some users⟩)
        subscriptions users
      ↔
    KeysFaithful history subscriptions users :=
  reachesWanted_refresh hdistinct

end Refreshing

section Runs

def user : User where
  baseUrl := JSString.ofString "https://ntfy.sh"
  username := JSString.ofString "phil"
  password := some (JSString.ofString "secret")
  token := none

def subscription (topic : String) : Subscription where
  id := JSString.ofString ("https://ntfy.sh/" ++ topic)
  baseUrl := JSString.ofString "https://ntfy.sh"
  topic := JSString.ofString topic
  last := none

theorem two_topics_reached :
    ([subscription "alerts", subscription "backups"].map Subscription.id).Nodup ∧
      ReachesWanted
        (refresh (run [])
          ⟨some [subscription "alerts", subscription "backups"], some [user]⟩)
        [subscription "alerts", subscription "backups"] [user] := by
  have hdistinct :
      ([subscription "alerts", subscription "backups"].map Subscription.id).Nodup := by
    decide +kernel
  refine ⟨hdistinct, (refresh_reaches_iff [] _ _ hdistinct).mpr ⟨?_, ?_⟩⟩
  · decide +kernel
  · rintro t - o ho
    cases ho

/-- The topics Aa and BB get the same ID, so there is no connection for the second. -/
theorem colliding_topic_missed :
    ([subscription "Aa", subscription "BB"].map Subscription.id).Nodup ∧
      (refresh (run []) ⟨some [subscription "Aa", subscription "BB"], some [user]⟩).opened =
        [(Target.mk (subscription "Aa") (some user)).connection] ∧
      ¬ReachesWanted
        (refresh (run []) ⟨some [subscription "Aa", subscription "BB"], some [user]⟩)
        [subscription "Aa", subscription "BB"] [user] := by
  have hopened :
      (refresh (run []) ⟨some [subscription "Aa", subscription "BB"], some [user]⟩).opened =
        [(Target.mk (subscription "Aa") (some user)).connection] := by
    decide +kernel
  refine ⟨by decide +kernel, hopened, ?_⟩
  rintro ⟨hone, -⟩
  obtain ⟨c, -, hc⟩ := hone (subscription "BB") (by simp)
  rw [hopened] at hc
  have hnone : [(Target.mk (subscription "Aa") (some user)).connection].filter
      (fun c => c.subscriptionId = (subscription "BB").id) = [] := by
    decide +kernel
  rw [hnone] at hc
  cases hc

end Runs

end ConnectionManager
end Web
end CoopMessenger
