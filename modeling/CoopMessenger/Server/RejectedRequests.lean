import CoopMessenger.Server.TopicNames
import CoopMessenger.Server.WebPush

/-!
# The topic map and rejected requests

Publish, subscribe and web push requests look up their topics before they are checked:
`limitRequestsWithTopic` needs the topic for its rate visitor, and `authorizeTopic` and
`handleWebPushUpdate` authorize topics that they have looked up.  A lookup adds what is not
there, so a rejected request can leave topics behind.

**Results.**
* `topicsFromIDs_append`: two lookups are one lookup of all the names.
* `handle_topics`: a request changes the map by one lookup of what `looked` lists.
* `publishTo_topics`: in the model of topic names publishing does the same.
* `keys_after_request`: what a request adds, and when it adds nothing.
-/

namespace CoopMessenger
namespace Server

open Library Util

namespace RejectedRequests

open TopicNames (Config handlerOf parts)

section Model

/-- The keys of the topic map afterwards, and the answer. -/
abbrev Outcome : Type :=
  List String × Except ErrHTTP Unit

/--
What the checks come to that do not look up topics: what comes before the route, the body
(a Matrix push key that is not ours ends the request here, too), the limits of the visitor,
access to a topic, the parameters of a subscription, and the rest of a handler.
-/
structure Checks where
  entered : Except ErrHTTP Unit
  parsed : Except ErrHTTP Unit
  requestAllowed : Bool
  authorized : String → Bool
  upgrade : Bool
  subscriptionAllowed : Bool
  params : Except ErrHTTP Unit
  completed : Except ErrHTTP Unit

/-- Requests to publish, subscribe, or change the topics of a web push endpoint. -/
inductive Request where
  | publish (path : String)
  | publishJSON (topic : String)
  | publishMatrix (path : String)
  | subscribe (path : String)
  | webPush (topics : List String)
deriving DecidableEq, Repr

/-- Looks up topics, creating those that do not exist. -/
def topicsFromIDs
    (conf : Config) :
    List String → List String → Outcome
  | topics, [] => (topics, .ok ())
  | topics, id :: ids =>
      if id ∈ conf.disallowedTopics then
        (topics, .error errHTTPBadRequestTopicDisallowed)
      else if id ∈ topics then
        topicsFromIDs conf topics ids
      else if conf.totalTopicLimit ≤ topics.length then
        (topics, .error errHTTPTooManyRequestsLimitTotalTopics)
      else
        topicsFromIDs conf (topics ++ [id]) ids

/-- Goes on when a check has passed. -/
def checked
    (check : Except ErrHTTP Unit)
    (next : List String → Outcome)
    (topics : List String) : Outcome :=
  match check with
  | .ok () => next topics
  | .error e => (topics, .error e)

/-- Goes on when the topics were found; `err` is what becomes of the error. -/
def found
    (err : ErrHTTP → ErrHTTP)
    (r : Outcome)
    (next : List String → Outcome) : Outcome :=
  match r.2 with
  | .ok () => next r.1
  | .error e => (r.1, .error (err e))

def ensure
    (p : Bool)
    (e : ErrHTTP) : Except ErrHTTP Unit :=
  if p then .ok () else .error e

def limitRequests
    (k : Checks)
    (next : List String → Outcome) : List String → Outcome :=
  checked (ensure k.requestAllowed errHTTPTooManyRequestsLimitRequests) next

/-- `topicFromPath`, then the limit of the visitor or of the rate visitor of the topic. -/
def limitRequestsWithTopic
    (conf : Config)
    (k : Checks)
    (path : String)
    (next : List String → Outcome)
    (topics : List String) : Outcome :=
  match parts path with
  | _ :: topic :: _ => found id (topicsFromIDs conf topics [topic]) (limitRequests k next)
  | _ => (topics, .error errHTTPBadRequestTopicInvalid)

def topicsFromPath
    (conf : Config)
    (path : String)
    (next : List String → Outcome)
    (topics : List String) : Outcome :=
  match parts path with
  | _ :: topicsStr :: _ =>
      found (fun _ => errHTTPBadRequestTopicInvalid)
        (topicsFromIDs conf topics (splitNoEmpty topicsStr ',')) next
  | _ => (topics, .error errHTTPBadRequestTopicInvalid)

/-- The topics that a path names for `topicsFromPath`. -/
def pathTopics (path : String) : List String :=
  match parts path with
  | _ :: topicsStr :: _ => splitNoEmpty topicsStr ','
  | _ => []

def authorizeTopic
    (conf : Config)
    (k : Checks)
    (path : String)
    (next : List String → Outcome)
    (topics : List String) : Outcome :=
  if conf.userManager then
    topicsFromPath conf path
      (checked (ensure ((pathTopics path).all k.authorized) errHTTPForbidden) next) topics
  else
    next topics

/-- `handlePublish`, `handlePublishMatrix`, `handleDelete` and `handleClear` look up nothing. -/
def handlePublish (k : Checks) : List String → Outcome :=
  checked k.completed fun topics => (topics, .ok ())

def publish
    (conf : Config)
    (k : Checks)
    (path : String) : List String → Outcome :=
  limitRequestsWithTopic conf k path (authorizeTopic conf k path (handlePublish k))

/-- `handleSubscribeHTTP`, `handleSubscribeWS` or `handleTopicAuth`, by the last part. -/
def handleSubscribe
    (conf : Config)
    (k : Checks)
    (path : String) : List String → Outcome :=
  let last := (parts path).getLastD ""
  if last = "auth" then
    checked (.ok ()) fun topics => (topics, .ok ())
  else
    checked
      (ensure (decide (last ≠ "ws") || k.upgrade) errHTTPBadRequestWebSocketsUpgradeHeaderMissing) <|
    checked (ensure k.subscriptionAllowed errHTTPTooManyRequestsLimitSubscriptions) <|
    topicsFromPath conf path <|
    checked k.params <|
    checked k.completed fun topics => (topics, .ok ())

def subscribe
    (conf : Config)
    (k : Checks)
    (path : String) : List String → Outcome :=
  limitRequests k (authorizeTopic conf k path (handleSubscribe conf k path))

def handleWebPushUpdate
    (conf : Config)
    (k : Checks)
    (ids : List String) : List String → Outcome :=
  checked k.parsed <|
  checked (ensure (decide (ids.length ≤ WebPush.webPushTopicSubscribeLimit))
    errHTTPBadRequestWebPushTopicCountTooHigh) fun topics =>
  found id (topicsFromIDs conf topics ids) <|
  checked (ensure (!conf.userManager || ids.all k.authorized) errHTTPForbidden) <|
  checked k.completed fun topics => (topics, .ok ())

/-- `handle` -/
def handle
    (conf : Config)
    (k : Checks)
    (req : Request) : List String → Outcome :=
  checked k.entered <|
  match req with
  | .publish path => publish conf k path
  | .publishJSON topic =>
      checked k.parsed <|
      checked (ensure (Manager.allowedTopic topic) errHTTPBadRequestTopicInvalid) <|
      publish conf k ("/" ++ topic)
  | .publishMatrix path => checked k.parsed <| publish conf k path
  | .subscribe path => subscribe conf k path
  | .webPush ids => limitRequests k <| handleWebPushUpdate conf k ids

end Model

section Looked

/-- The names that a check lets a request look up. -/
def ifOk
    (check : Except ErrHTTP Unit)
    (ids : List String) : List String :=
  match check with
  | .ok () => ids
  | .error _ => []

/-- The topic of the path, and after the limit the topics of the path. -/
def lookedToPublish
    (conf : Config)
    (k : Checks)
    (path : String) : List String :=
  match parts path with
  | _ :: topic :: _ =>
      topic :: if k.requestAllowed && conf.userManager then pathTopics path else []
  | _ => []

/-- Does the handler of a subscription get to look up the topics? -/
def subscribes
    (k : Checks)
    (path : String) : Bool :=
  let last := (parts path).getLastD ""
  decide (last ≠ "auth") && (decide (last ≠ "ws") || k.upgrade) && k.subscriptionAllowed

/-- The names that a request looks up, if none of them is refused. -/
def looked
    (conf : Config)
    (k : Checks)
    (req : Request) : List String :=
  ifOk k.entered <|
  match req with
  | .publish path => lookedToPublish conf k path
  | .publishJSON topic =>
      ifOk k.parsed <|
      if Manager.allowedTopic topic then lookedToPublish conf k ("/" ++ topic) else []
  | .publishMatrix path => ifOk k.parsed <| lookedToPublish conf k path
  | .subscribe path =>
      if k.requestAllowed && (conf.userManager || subscribes k path) then
        pathTopics path
      else
        []
  | .webPush ids =>
      if k.requestAllowed then
        ifOk k.parsed <|
        if ids.length ≤ WebPush.webPushTopicSubscribeLimit then ids else []
      else
        []

end Looked

section Lookups

variable {conf : Config} {topics ids ids' : List String}

/-- This is the lookup that is modelled without its errors. -/
theorem topicsFromIDs_names
    (conf : Config) (topics ids : List String) :
    TopicNames.topicsFromIDs conf topics ids =
      ((topicsFromIDs conf topics ids).1, (topicsFromIDs conf topics ids).2.isOk) := by
  induction ids generalizing topics with
  | nil =>
      rfl
  | cons id ids ih =>
      rw [TopicNames.topicsFromIDs, topicsFromIDs]
      split
      · rfl
      · split
        · exact ih topics
        · split
          · rfl
          · exact ih (topics ++ [id])

theorem topicsFromIDs_append
    (conf : Config) (topics ids ids' : List String) :
    topicsFromIDs conf topics (ids ++ ids') =
      found id (topicsFromIDs conf topics ids) fun topics =>
        topicsFromIDs conf topics ids' := by
  induction ids generalizing topics with
  | nil =>
      rfl
  | cons id ids ih =>
      rw [List.cons_append, topicsFromIDs, topicsFromIDs]
      split
      · rfl
      · split
        · exact ih topics
        · split
          · rfl
          · exact ih (topics ++ [id])

/-- Names that are all there change nothing. -/
theorem topicsFromIDs_of_known
    (h : ∀ id ∈ ids, id ∈ topics) :
    (topicsFromIDs conf topics ids).1 = topics := by
  induction ids with
  | nil =>
      rfl
  | cons id ids ih =>
      rw [List.forall_mem_cons] at h
      rw [topicsFromIDs, if_pos h.1]
      split
      · rfl
      · exact ih h.2

theorem mem_topicsFromIDs
    {id : String}
    (h : id ∈ topics) :
    id ∈ (topicsFromIDs conf topics ids).1 := by
  induction ids generalizing topics with
  | nil =>
      exact h
  | cons other ids ih =>
      rw [topicsFromIDs]
      split
      · exact h
      · split
        · exact ih h
        · split
          · exact h
          · exact ih (List.mem_append_left _ h)

/-- After a lookup that has succeeded all its names are there. -/
theorem known_of_ok
    (h : (topicsFromIDs conf topics ids).2 = .ok ()) :
    ∀ id ∈ ids, id ∈ (topicsFromIDs conf topics ids).1 := by
  induction ids generalizing topics with
  | nil =>
      simp
  | cons other ids ih =>
      rw [topicsFromIDs] at h ⊢
      split at h
      · cases h
      · split at h
        case isTrue hmem =>
          rw [if_neg ‹_›, if_pos hmem]
          exact List.forall_mem_cons.mpr ⟨mem_topicsFromIDs hmem, ih h⟩
        case isFalse hmem =>
          split at h
          · cases h
          · rw [if_neg ‹_›, if_neg hmem, if_neg ‹_›]
            exact List.forall_mem_cons.mpr ⟨mem_topicsFromIDs (by simp), ih h⟩

/-- Looking up the same names again adds nothing. -/
theorem topicsFromIDs_again
    (conf : Config) (topics ids : List String) :
    (topicsFromIDs conf topics (ids ++ ids)).1 = (topicsFromIDs conf topics ids).1 := by
  rw [topicsFromIDs_append, found]
  split
  case h_1 hok =>
    exact topicsFromIDs_of_known (known_of_ok hok)
  case h_2 =>
    rfl

/-- What a lookup adds. -/
theorem exists_added
    (conf : Config) (topics ids : List String) :
    ∃ added, (topicsFromIDs conf topics ids).1 = topics ++ added ∧
      (∀ id ∈ added, id ∈ ids ∧ id ∉ conf.disallowedTopics ∧ id ∉ topics) ∧
      (added ≠ [] → (topics ++ added).length ≤ conf.totalTopicLimit) := by
  induction ids generalizing topics with
  | nil =>
      exact ⟨[], by simp [topicsFromIDs], by simp, by simp⟩
  | cons id ids ih =>
      rw [topicsFromIDs]
      split
      case isTrue =>
        exact ⟨[], by simp, by simp, by simp⟩
      case isFalse hallowed =>
        split
        case isTrue =>
          obtain ⟨added, heq, hadded, hlimit⟩ := ih topics
          refine ⟨added, heq, fun other hother => ?_, hlimit⟩
          exact ⟨List.mem_cons_of_mem id (hadded other hother).1, (hadded other hother).2⟩
        case isFalse hnew =>
          split
          case isTrue =>
            exact ⟨[], by simp, by simp, by simp⟩
          case isFalse hroom =>
            obtain ⟨added, heq, hadded, hlimit⟩ := ih (topics ++ [id])
            refine ⟨id :: added, by rw [heq, List.append_assoc]; rfl, ?_, fun _ => ?_⟩
            · refine List.forall_mem_cons.mpr ⟨⟨List.mem_cons_self, hallowed, hnew⟩, ?_⟩
              intro other hother
              obtain ⟨hmem, hother, hout⟩ := hadded other hother
              exact ⟨List.mem_cons_of_mem id hmem, hother,
                fun hin => hout (List.mem_append_left _ hin)⟩
            · cases added with
              | nil =>
                  simp only [List.length_append, List.length_singleton]
                  omega
              | cons other added =>
                  have := hlimit (List.cons_ne_nil _ _)
                  simp only [List.length_append, List.length_cons, List.length_nil] at this ⊢
                  omega

/--
Nothing is added when the map is full, or the names before the first one that is not
allowed are there.
-/
theorem topicsFromIDs_eq_iff :
    (topicsFromIDs conf topics ids).1 = topics
      ↔
    conf.totalTopicLimit ≤ topics.length ∨
      ∀ id ∈ ids.takeWhile (fun id => decide (id ∉ conf.disallowedTopics)), id ∈ topics := by
  induction ids with
  | nil =>
      simp [topicsFromIDs]
  | cons id ids ih =>
      rw [topicsFromIDs]
      by_cases hallowed : id ∈ conf.disallowedTopics
      · simp [hallowed]
      · rw [if_neg hallowed, List.takeWhile_cons_of_pos (by simpa using hallowed),
          List.forall_mem_cons]
        by_cases hknown : id ∈ topics
        · rw [if_pos hknown, ih]
          simp [hknown]
        · rw [if_neg hknown]
          by_cases hfull : conf.totalTopicLimit ≤ topics.length
          · simp [hfull]
          · rw [if_neg hfull]
            obtain ⟨added, heq, -⟩ := exists_added conf (topics ++ [id]) ids
            rw [heq]
            simp [hknown, hfull]

end Lookups

section Requests

variable {conf : Config} {ids ids' : List String} {next : List String → Outcome}

/-- The handler changes the map by a lookup of the names. -/
def LooksUp
    (conf : Config)
    (ids : List String)
    (next : List String → Outcome) : Prop :=
  ∀ topics, (next topics).1 = (topicsFromIDs conf topics ids).1

theorem LooksUp.done
    (r : Except ErrHTTP Unit) :
    LooksUp conf [] fun topics => (topics, r) :=
  fun _ => rfl

theorem LooksUp.checked
    (h : LooksUp conf ids next)
    (check : Except ErrHTTP Unit) :
    LooksUp conf (ifOk check ids) (checked check next) := by
  intro topics
  cases check with
  | ok =>
      exact h topics
  | error e =>
      rfl

theorem LooksUp.ensure
    (h : LooksUp conf ids next)
    (p : Bool)
    (e : ErrHTTP) :
    LooksUp conf (if p then ids else []) (RejectedRequests.checked (ensure p e) next) := by
  cases p with
  | true =>
      exact h
  | false =>
      exact LooksUp.done _

theorem LooksUp.found
    (h : LooksUp conf ids' next)
    (err : ErrHTTP → ErrHTTP)
    (ids : List String) :
    LooksUp conf (ids ++ ids') fun topics => found err (topicsFromIDs conf topics ids) next := by
  intro topics
  rw [topicsFromIDs_append]
  cases hr : (topicsFromIDs conf topics ids).2 with
  | ok =>
      simp only [RejectedRequests.found, hr]
      exact h _
  | error e =>
      simp only [RejectedRequests.found, hr]

/-- The names may be looked up once more, or not. -/
theorem LooksUp.again
    {p : Bool}
    (h : LooksUp conf (ids ++ if p then ids else []) next) :
    LooksUp conf ids next := by
  cases p with
  | true =>
      exact fun topics => (h topics).trans (topicsFromIDs_again conf topics ids)
  | false =>
      rwa [if_neg Bool.false_ne_true, List.append_nil] at h

section Paths

variable {k : Checks} {path : String} {p : Bool}

theorem looksUp_topicsFromPath
    (h : LooksUp conf (if p then pathTopics path else []) next) :
    LooksUp conf (pathTopics path) (topicsFromPath conf path next) := by
  cases hpath : parts path with
  | nil =>
      intro topics
      simp only [topicsFromPath, pathTopics, hpath, topicsFromIDs]
  | cons first rest =>
      cases rest with
      | nil =>
          intro topics
          simp only [topicsFromPath, pathTopics, hpath, topicsFromIDs]
      | cons topicsStr rest =>
          have hids : pathTopics path = splitNoEmpty topicsStr ',' := by
            simp only [pathTopics, hpath]
          rw [hids] at h ⊢
          refine LooksUp.again (p := p) fun topics => ?_
          simp only [topicsFromPath, hpath]
          exact h.found _ _ topics

theorem looksUp_authorizeTopic
    (h : LooksUp conf (if p then pathTopics path else []) next) :
    LooksUp conf (if conf.userManager || p then pathTopics path else [])
      (authorizeTopic conf k path next) := by
  intro topics
  unfold authorizeTopic
  cases hmanager : conf.userManager with
  | true =>
      have hnext := h.ensure ((pathTopics path).all k.authorized) errHTTPForbidden
      rw [← ite_and] at hnext
      exact looksUp_topicsFromPath (p := (pathTopics path).all k.authorized && p)
        (by simpa only [Bool.and_eq_true] using hnext) topics
  | false =>
      exact h topics

theorem looksUp_handlePublish :
    LooksUp conf [] (handlePublish k) := by
  intro topics
  unfold handlePublish
  cases hcompleted : k.completed <;> rfl

theorem looksUp_publish
    (conf : Config) (k : Checks) (path : String) :
    LooksUp conf (lookedToPublish conf k path) (publish conf k path) := by
  intro topics
  unfold lookedToPublish publish limitRequestsWithTopic
  split
  case h_1 first topic rest hpath =>
    have hauth : LooksUp conf (if conf.userManager || false then pathTopics path else [])
        (authorizeTopic conf k path (handlePublish k)) :=
      looksUp_authorizeTopic looksUp_handlePublish
    have hlimit := hauth.ensure k.requestAllowed errHTTPTooManyRequestsLimitRequests
    rw [limitRequests, hlimit.found id [topic] topics, ← ite_and, Bool.or_false]
    simp only [List.singleton_append, Bool.and_eq_true]
  case h_2 =>
    rfl

theorem looksUp_handleSubscribe :
    LooksUp conf (if subscribes k path then pathTopics path else [])
      (handleSubscribe conf k path) := by
  intro topics
  unfold handleSubscribe subscribes
  by_cases hauth : (parts path).getLastD "" = "auth"
  · rw [if_pos hauth]
    simp only [hauth, ne_eq, not_true_eq_false, decide_false, Bool.false_and]
    rfl
  · have hrest : LooksUp conf [] (checked k.params (checked k.completed
        fun topics => (topics, .ok ()))) := by
      intro topics
      cases hparams : k.params <;> cases hcompleted : k.completed <;> rfl
    have hfound : LooksUp conf (pathTopics path) (topicsFromPath conf path (checked k.params
        (checked k.completed fun topics => (topics, .ok ())))) :=
      looksUp_topicsFromPath (p := false) hrest
    have hall := (hfound.ensure k.subscriptionAllowed
      errHTTPTooManyRequestsLimitSubscriptions).ensure
        (decide ((parts path).getLastD "" ≠ "ws") || k.upgrade)
        errHTTPBadRequestWebSocketsUpgradeHeaderMissing
    rw [if_neg hauth, hall topics, ← ite_and]
    simp only [hauth, ne_eq, not_false_eq_true, decide_true, Bool.true_and, Bool.and_eq_true]

theorem looksUp_subscribe
    (conf : Config) (k : Checks) (path : String) :
    LooksUp conf
      (if k.requestAllowed && (conf.userManager || subscribes k path) then
        pathTopics path
      else
        [])
      (subscribe conf k path) := by
  have hauth : LooksUp conf (if conf.userManager || subscribes k path then pathTopics path else [])
      (authorizeTopic conf k path (handleSubscribe conf k path)) :=
    looksUp_authorizeTopic looksUp_handleSubscribe
  have h := hauth.ensure k.requestAllowed errHTTPTooManyRequestsLimitRequests
  rw [← ite_and] at h
  simpa only [Bool.and_eq_true, subscribe, limitRequests] using h

end Paths

theorem looksUp_handleWebPushUpdate
    (conf : Config) (k : Checks) (ids : List String) :
    LooksUp conf
      (ifOk k.parsed (if ids.length ≤ WebPush.webPushTopicSubscribeLimit then ids else []))
      (handleWebPushUpdate conf k ids) := by
  have hrest : LooksUp conf [] (checked (ensure (!conf.userManager || ids.all k.authorized)
      errHTTPForbidden) (checked k.completed fun topics => (topics, .ok ()))) := by
    intro topics
    cases hauth : !conf.userManager || ids.all k.authorized <;>
      cases hcompleted : k.completed <;> rfl
  have hfound := hrest.found id ids
  rw [List.append_nil] at hfound
  have hall := (hfound.ensure (decide (ids.length ≤ WebPush.webPushTopicSubscribeLimit))
    errHTTPBadRequestWebPushTopicCountTooHigh).checked k.parsed
  simpa only [decide_eq_true_eq, handleWebPushUpdate] using hall

/-- A request changes the topic map by one lookup. -/
theorem handle_topics
    (conf : Config)
    (k : Checks)
    (req : Request)
    (topics : List String) :
    (handle conf k req topics).1 = (topicsFromIDs conf topics (looked conf k req)).1 := by
  refine LooksUp.checked ?_ k.entered topics
  cases req with
  | publish path =>
      exact looksUp_publish conf k path
  | publishJSON topic =>
      exact ((looksUp_publish conf k ("/" ++ topic)).ensure _ _).checked k.parsed
  | publishMatrix path =>
      exact (looksUp_publish conf k path).checked k.parsed
  | subscribe path =>
      exact looksUp_subscribe conf k path
  | webPush ids =>
      exact (looksUp_handleWebPushUpdate conf k ids).ensure k.requestAllowed
        errHTTPTooManyRequestsLimitRequests

/-- A lookup of the model of names, and what follows it. -/
theorem lookup_topics
    {next : TopicNames.State → TopicNames.State}
    (h : ∀ s, (next s).topics = (topicsFromIDs conf s.topics ids').1)
    (s : TopicNames.State) (ids : List String) :
    (TopicNames.lookup conf s ids next).topics = (topicsFromIDs conf s.topics (ids ++ ids')).1 := by
  rw [TopicNames.lookup, topicsFromIDs_names, topicsFromIDs_append]
  cases hr : (topicsFromIDs conf s.topics ids).2 with
  | ok =>
      simp only [found, hr, Except.isOk, Except.toBool, if_true]
      exact h _
  | error e =>
      simp only [found, hr, Except.isOk, Except.toBool, Bool.false_eq_true, if_false]

/-- In the model of names a request to publish does the same to the topic map. -/
theorem publishTo_topics
    (conf : Config)
    (k : Checks)
    (a : TopicNames.Answers)
    (hallowed : a.allowed = k.requestAllowed)
    (s : TopicNames.State)
    (path : String) :
    (TopicNames.publishTo conf a s path).topics = (publish conf k path s.topics).1 := by
  rw [looksUp_publish, TopicNames.publishTo, lookedToPublish]
  rcases hpath : parts path with - | ⟨first, - | ⟨topic, rest⟩⟩
  · rfl
  · rfl
  · have hadd : ∀ s, (TopicNames.addMessage a topic s).topics = s.topics := by
      intro s
      unfold TopicNames.addMessage
      split <;> rfl
    refine lookup_topics (fun s => ?_) s [topic]
    rw [hallowed]
    cases k.requestAllowed with
    | false =>
        rfl
    | true =>
        simp only [if_true, TopicNames.authorizeTopic]
        cases conf.userManager with
        | false =>
            exact hadd s
        | true =>
            have hids : pathTopics path = splitNoEmpty topic ',' ++ [] := by
              simp only [pathTopics, hpath, List.append_nil]
            rw [hids, if_pos rfl]
            refine lookup_topics (fun s => ?_) s (splitNoEmpty topic ',')
            split
            · exact hadd s
            · rfl

/--
A request, rejected or not, removes no topic and adds only names that it looks up, that are
allowed, and for which there is room.  It adds nothing when the map is full, or when the
names it looks up before the first one that is not allowed are there, and only then.
-/
theorem keys_after_request
    (conf : Config)
    (k : Checks)
    (req : Request)
    (topics : List String) :
    (∃ added, (handle conf k req topics).1 = topics ++ added ∧
        (∀ id ∈ added,
          id ∈ looked conf k req ∧ id ∉ conf.disallowedTopics ∧ id ∉ topics) ∧
        (added ≠ [] → (topics ++ added).length ≤ conf.totalTopicLimit)) ∧
      ((∀ id, id ∈ (handle conf k req topics).1 ↔ id ∈ topics)
        ↔
      conf.totalTopicLimit ≤ topics.length ∨
        ∀ id ∈ (looked conf k req).takeWhile (fun id => decide (id ∉ conf.disallowedTopics)),
          id ∈ topics) := by
  rw [handle_topics, ← topicsFromIDs_eq_iff]
  obtain ⟨added, heq, hadded, hlimit⟩ := exists_added conf topics (looked conf k req)
  refine ⟨⟨added, heq, hadded, hlimit⟩, ?_⟩
  rw [heq]
  constructor
  · intro hsame
    have hnil : added = [] := List.eq_nil_iff_forall_not_mem.mpr fun id hid =>
      (hadded id hid).2.2 ((hsame id).mp (List.mem_append_right _ hid))
    rw [hnil, List.append_nil]
  · intro hsame id
    rw [hsame]

/-- A stranger, who has access to `news` only. -/
def stranger : Checks where
  entered := .ok ()
  parsed := .ok ()
  requestAllowed := true
  authorized topic := decide (topic = "news")
  upgrade := false
  subscriptionAllowed := true
  params := .ok ()
  completed := .ok ()

/-- Refused requests of each kind leave their topics behind, also those with access. -/
theorem refused_topics_added :
    handle ⟨⟨[], 100⟩, true⟩ stranger (.publish "/secret") [] =
        (["secret"], .error errHTTPForbidden) ∧
      handle ⟨⟨[], 100⟩, true⟩ stranger (.subscribe "/news,secret/json") [] =
        (["news", "secret"], .error errHTTPForbidden) ∧
      handle ⟨⟨[], 100⟩, true⟩ stranger (.webPush ["secret"]) [] =
        (["secret"], .error errHTTPForbidden) ∧
      handle ⟨⟨[], 100⟩, true⟩ { stranger with requestAllowed := false } (.publish "/news") [] =
        (["news"], .error errHTTPTooManyRequestsLimitRequests) := by
  decide +kernel

end Requests

end RejectedRequests

end Server
end CoopMessenger
