import CoopMessenger.Library.Runs
import CoopMessenger.Manager.Types
import CoopMessenger.Server.Topics
import CoopMessenger.Util.Text
import Mathlib.Data.List.Dedup

/-!
# Names of topics

How names get into the topic map, the message cache and the web push store: by paths
that `handleInternal` has matched, by the bodies of requests, by email, from Matrix
push keys, and from the sync topics of users.

**Results.**
* `topicsFromIDs_names`: lookups add valid names if the names they let in are valid.
* `Valid.step`: no request adds anything else, if those that do not look at their names
  are given valid ones.
* `topic_names_valid`: in runs of such requests all names are valid.
-/

namespace CoopMessenger
namespace Server

open Library Manager Util

namespace TopicNames

section Model

structure Config extends TopicConfig where
  userManager : Bool

/--
The keys of the topic map, the topics of the stored messages, the subscriptions by
endpoint and topic, and the sync topics of the users.
-/
structure State where
  topics : List String
  messages : List String
  webPush : List (String × String)
  syncTopics : List String
deriving DecidableEq, Repr

/--
What a request comes upon: whether it passes the limits and checks that do not look at
names, which topics it has access to, and whether it gets to its last statement.
-/
structure Answers where
  allowed : Bool
  authorized : String → Bool
  completed : Bool

/-- Looks up names, and adds those that are not there. -/
def topicsFromIDs
    (conf : Config) :
    List String → List String → List String × Bool
  | topics, [] => (topics, true)
  | topics, id :: ids =>
      if id ∈ conf.disallowedTopics then
        (topics, false)
      else if id ∈ topics then
        topicsFromIDs conf topics ids
      else if conf.totalTopicLimit ≤ topics.length then
        (topics, false)
      else
        topicsFromIDs conf (topics ++ [id]) ids

/-- What a handler does after a lookup that has succeeded. -/
def lookup
    (conf : Config)
    (s : State)
    (ids : List String)
    (next : State → State) : State :=
  if (topicsFromIDs conf s.topics ids).2 then
    next { s with topics := (topicsFromIDs conf s.topics ids).1 }
  else
    { s with topics := (topicsFromIDs conf s.topics ids).1 }

def parts (path : String) : List String :=
  (path.toList.splitOn '/').map String.ofList

/-- `[-_A-Za-z0-9]{1,64}(,[-_A-Za-z0-9]{1,64})*` -/
def allowedTopics (topics : String) : Bool :=
  ((topics.toList.splitOn ',').map String.ofList).all allowedTopic

inductive Handler where
  | publish
  | delete
  | clear
  | subscribe
deriving DecidableEq, Repr

/-- The handler of a path with topics, which no earlier route has taken. -/
def handlerOf
    (method path : String) : Option Handler :=
  match parts path with
  | ["", topic] =>
      if method ∈ ["PUT", "POST"] ∧ allowedTopic topic then some .publish else none
  | ["", topic, last] =>
      if method ∈ ["PUT", "POST"] ∧ allowedTopic topic ∧ allowedTopic last then
        some .publish
      else if method = "DELETE" ∧ allowedTopic topic ∧ allowedTopic last then
        some .delete
      else if method = "GET" ∧ allowedTopic topic ∧
          last ∈ ["publish", "send", "trigger"] then
        some .publish
      else if method = "GET" ∧ allowedTopics topic ∧
          last ∈ ["json", "sse", "raw", "ws", "auth"] then
        some .subscribe
      else
        none
  | ["", topic, sequenceID, last] =>
      if method = "PUT" ∧ allowedTopic topic ∧ allowedTopic sequenceID ∧
          last ∈ ["read", "clear"] then
        some .clear
      else
        none
  | _ => none

/-- `authorizeTopic` -/
def authorizeTopic
    (conf : Config)
    (a : Answers)
    (s : State)
    (topics : String)
    (next : State → State) : State :=
  if conf.userManager then
    lookup conf s (splitNoEmpty topics ',') fun s =>
      if (splitNoEmpty topics ',').all a.authorized then next s else s
  else
    next s

/-- The message is added. -/
def addMessage
    (a : Answers)
    (topic : String)
    (s : State) : State :=
  if a.completed then { s with messages := topic :: s.messages } else s

/-- `limitRequestsWithTopic`, then `handlePublish`, `handleDelete` or `handleClear` -/
def publishTo
    (conf : Config)
    (a : Answers)
    (s : State)
    (path : String) : State :=
  match parts path with
  | _ :: topic :: _ =>
      lookup conf s [topic] fun s =>
        if a.allowed then
          authorizeTopic conf a s topic (addMessage a topic)
        else
          s
  | _ => s

/-- The handlers of subscriptions. -/
def subscribeTo
    (conf : Config)
    (a : Answers)
    (s : State)
    (path : String) : State :=
  match parts path with
  | _ :: topics :: _ =>
      if a.allowed then
        authorizeTopic conf a s topics fun s =>
          lookup conf s (splitNoEmpty topics ',') id
      else
        s
  | _ => s

/-- A request whose path names the topics. -/
def handlePath
    (conf : Config)
    (a : Answers)
    (s : State)
    (method path : String) : State :=
  match handlerOf method path with
  | some .publish | some .delete | some .clear => publishTo conf a s path
  | some .subscribe => subscribeTo conf a s path
  | none => s

/-- `transformBodyJSON`, then `handlePublish` -/
def handlePublishJSON
    (conf : Config)
    (a : Answers)
    (s : State)
    (topic : String) : State :=
  if allowedTopic topic then publishTo conf a s ("/" ++ topic) else s

/-- `transformMatrixJSON`, then `handlePublishMatrix`; the path is that of the push key. -/
def handlePublishMatrix
    (conf : Config)
    (a : Answers)
    (s : State)
    (path : String) : State :=
  publishTo conf a s path

/-- `Rcpt` and `Data` of an SMTP session -/
def handleEmail
    (conf : Config)
    (a : Answers)
    (s : State)
    (recipient : String) : State :=
  if allowedTopic recipient then
    handlePath conf a s "POST" ("/" ++ recipient)
  else
    s

def handleWebPushUpdate
    (conf : Config)
    (a : Answers)
    (s : State)
    (endpoint : String)
    (topics : List String) : State :=
  if a.allowed then
    lookup conf s topics fun s =>
      if (!conf.userManager || topics.all a.authorized) && a.completed &&
          decide topics.Nodup then
        { s with
          webPush :=
            s.webPush.filter (fun e => !decide (e.1 = endpoint)) ++
              topics.map (fun topic => (endpoint, topic)) }
      else
        s
  else
    s

/-- A typing event, or a nudge, which is also stored. -/
def handleSocialEvent
    (conf : Config)
    (a : Answers)
    (s : State)
    (topic : String)
    (stored : Bool) : State :=
  if topic ≠ "" ∧ a.authorized topic ∧ a.allowed then
    lookup conf s [topic] fun s => if stored then addMessage a topic s else s
  else
    s

def handleTypingEvent
    (conf : Config)
    (a : Answers)
    (s : State)
    (topic : String) : State :=
  handleSocialEvent conf a s topic false

def handleNudge
    (conf : Config)
    (a : Answers)
    (s : State)
    (topic : String) : State :=
  handleSocialEvent conf a s topic true

/-- The command `gurr`; the other commands do not look up topics. -/
def handleSlashCommand
    (conf : Config)
    (a : Answers)
    (s : State)
    (topic : String) : State :=
  handleSocialEvent conf a s topic true

def handleAccountReservationAdd
    (conf : Config)
    (a : Answers)
    (s : State)
    (topic : String) : State :=
  if allowedTopic topic ∧ a.allowed then lookup conf s [topic] id else s

def publishSyncEvent
    (conf : Config)
    (s : State)
    (syncTopic : String) : State :=
  if syncTopic = "" then s else lookup conf s [syncTopic] id

/--
Requests, and what removes names.  `syncEvent` follows the requests of a user, and
`addUser` draws the sync topic of a new one.
-/
inductive Label where
  | path (method path : String) (a : Answers)
  | publishJSON (topic : String) (a : Answers)
  | publishMatrix (path : String) (a : Answers)
  | email (recipient : String) (a : Answers)
  | webPush (endpoint : String) (topics : List String) (a : Answers)
  | typing (topic : String) (a : Answers)
  | nudge (topic : String) (a : Answers)
  | gurr (topic : String) (a : Answers)
  | reserve (topic : String) (a : Answers)
  | syncEvent (syncTopic : String)
  | addUser (random : String)
  | expunge (topic : String)
  | deleteMessage (i : Nat)
  | removeSubscription (endpoint : String)
  | restart

/-- One step; `none` if it is not enabled. -/
def step
    (conf : Config)
    (s : State) : Label → Option State
  | .path method path a => some (handlePath conf a s method path)
  | .publishJSON topic a => some (handlePublishJSON conf a s topic)
  | .publishMatrix path a => some (handlePublishMatrix conf a s path)
  | .email recipient a => some (handleEmail conf a s recipient)
  | .webPush endpoint topics a => some (handleWebPushUpdate conf a s endpoint topics)
  | .typing topic a => some (handleTypingEvent conf a s topic)
  | .nudge topic a => some (handleNudge conf a s topic)
  | .gurr topic a => some (handleSlashCommand conf a s topic)
  | .reserve topic a => some (handleAccountReservationAdd conf a s topic)
  | .syncEvent syncTopic =>
      if syncTopic ∈ s.syncTopics then
        some (publishSyncEvent conf s syncTopic)
      else
        none
  | .addUser random =>
      if random.toList.length = 13 ∧ random.toList.all Char.isAlphanum then
        some { s with syncTopics := ("st_" ++ random) :: s.syncTopics }
      else
        none
  | .expunge topic =>
      some { s with topics := s.topics.filter (fun id => !decide (id = topic)) }
  | .deleteMessage i => some { s with messages := s.messages.eraseIdx i }
  | .removeSubscription endpoint =>
      some { s with webPush := s.webPush.filter (fun e => !decide (e.1 = endpoint)) }
  | .restart => some { s with topics := s.messages.dedup }

/-- A new server. -/
def initial : State :=
  ⟨[], [], [], []⟩

end Model

section Spec

/-- A valid name that is not disallowed. -/
def IsName
    (conf : Config)
    (id : String) : Prop :=
  allowedTopic id = true ∧ id ∉ conf.disallowedTopics

instance decidableIsName
    (conf : Config) (id : String) :
    Decidable (IsName conf id) := by
  unfold IsName
  infer_instance

structure Valid
    (conf : Config)
    (s : State) : Prop where
  topics : ∀ id ∈ s.topics, IsName conf id
  messages : ∀ id ∈ s.messages, IsName conf id
  webPush : ∀ e ∈ s.webPush, IsName conf e.2
  syncTopics : ∀ id ∈ s.syncTopics, allowedTopic id = true

/--
All names are valid up to the first one that is refused, because it is disallowed or
there is no room for it.
-/
def AdmitsOnlyValid
    (conf : Config) :
    List String → List String → Prop
  | _, [] => True
  | topics, id :: ids =>
      id ∈ conf.disallowedTopics ∨
        (id ∉ topics ∧ conf.totalTopicLimit ≤ topics.length) ∨
        (allowedTopic id = true ∧
          AdmitsOnlyValid conf (if id ∈ topics then topics else topics ++ [id]) ids)

instance AdmitsOnlyValid.decidable
    (conf : Config) :
    ∀ topics ids, Decidable (AdmitsOnlyValid conf topics ids)
  | _, [] => isTrue trivial
  | topics, id :: ids =>
      have := AdmitsOnlyValid.decidable conf
        (if id ∈ topics then topics else topics ++ [id]) ids
      inferInstanceAs (Decidable (_ ∨ _ ∨ _))

/-- The requests that do not look at their names are given valid ones. -/
def NamesValid
    (conf : Config)
    (s : State) : Label → Prop
  | .publishMatrix path _ =>
      AdmitsOnlyValid conf s.topics ((parts path).tail.take 1)
  | .webPush _ topics a => a.allowed = true → AdmitsOnlyValid conf s.topics topics
  | .typing topic a | .nudge topic a | .gurr topic a =>
      topic ≠ "" ∧ a.authorized topic = true ∧ a.allowed = true →
        AdmitsOnlyValid conf s.topics [topic]
  | _ => True

instance decidableNamesValid
    (conf : Config) (s : State) (l : Label) :
    Decidable (NamesValid conf s l) := by
  unfold NamesValid
  split <;> infer_instance

end Spec

section Names

theorem mem_allowedTopic
    {topic : String} {c : Char}
    (h : allowedTopic topic = true)
    (hc : c ∈ topic.toList) :
    topicChar c = true := by
  simp only [allowedTopic, Bool.and_eq_true, List.all_eq_true] at h
  exact h.2 c hc

theorem splitOn_of_allowedTopic
    {topic : String} {sep : Char}
    (h : allowedTopic topic = true)
    (hsep : topicChar sep = false) :
    topic.toList.splitOn sep = [topic.toList] := by
  refine List.splitOn_eq_singleton fun hmem => ?_
  rw [mem_allowedTopic h hmem] at hsep
  cases hsep

/-- The path of a valid topic has it as its second part. -/
theorem parts_slash
    {topic : String}
    (h : allowedTopic topic = true) :
    parts ("/" ++ topic) = ["", topic] := by
  have hsplit : topic.toList.splitOn '/' = [topic.toList] :=
    splitOn_of_allowedTopic h (by decide)
  have hcons : ("/" ++ topic).toList.splitOn '/' = [] :: topic.toList.splitOn '/' := by
    rw [String.toList_append]
    exact List.splitOn_append_cons_self [] topic.toList
  rw [parts, hcons, hsplit]
  simp

theorem splitNoEmpty_of_allowedTopic
    {topic : String}
    (h : allowedTopic topic = true) :
    splitNoEmpty topic ',' = [topic] := by
  have hne : topic.toList ≠ [] := by
    rintro heq
    simp [allowedTopic, heq] at h
  rw [splitNoEmpty, splitOn_of_allowedTopic h (by decide)]
  simp [hne]

theorem allowedTopic_of_mem_splitNoEmpty
    {topics topic : String}
    (h : allowedTopics topics = true)
    (htopic : topic ∈ splitNoEmpty topics ',') :
    allowedTopic topic = true := by
  obtain ⟨part, hpart, rfl⟩ := List.mem_map.mp htopic
  exact List.all_eq_true.mp h _
    (List.mem_map.mpr ⟨part, List.mem_of_mem_filter hpart, rfl⟩)

/-- Every path that reaches a handler of topics has valid names in its second part. -/
theorem handlerOf_cases
    {method path : String} {handler : Handler}
    (h : handlerOf method path = some handler) :
    ∃ topics rest, parts path = "" :: topics :: rest ∧
      (allowedTopic topics = true ∨
        (handler = .subscribe ∧ allowedTopics topics = true)) := by
  unfold handlerOf at h
  split at h
  case h_1 topic hparts =>
    rw [Option.ite_none_right_eq_some] at h
    exact ⟨topic, [], hparts, Or.inl h.1.2⟩
  case h_2 topic last hparts =>
    refine ⟨topic, [last], hparts, ?_⟩
    split at h
    case isTrue hput =>
      exact Or.inl hput.2.1
    case isFalse =>
      split at h
      case isTrue hdelete =>
        exact Or.inl hdelete.2.1
      case isFalse =>
        split at h
        case isTrue hget =>
          exact Or.inl hget.2.1
        case isFalse =>
          rw [Option.ite_none_right_eq_some] at h
          obtain ⟨⟨-, htopics, -⟩, ⟨⟩⟩ := h
          exact Or.inr ⟨rfl, htopics⟩
  case h_3 topic sequenceID last hparts =>
    rw [Option.ite_none_right_eq_some] at h
    exact ⟨topic, [sequenceID, last], hparts, Or.inl h.1.2.1⟩
  case h_4 =>
    cases h

/-- The sync topic of a new user is valid. -/
theorem allowedTopic_syncTopic
    {random : String}
    (hlength : random.toList.length = 13)
    (hrandom : random.toList.all Char.isAlphanum = true) :
    allowedTopic ("st_" ++ random) = true := by
  have hchars : random.toList.all topicChar = true := by
    rw [List.all_eq_true] at hrandom ⊢
    intro c hc
    simp [topicChar, hrandom c hc]
  have hprefix : "st_".toList = ['s', 't', '_'] := rfl
  rw [allowedTopic, String.toList_append, hprefix, List.length_append, List.all_append,
    hlength, hchars]
  rfl

end Names

section Preservation

variable {conf : Config}
variable {s s' : State}
variable {a : Answers}

theorem AdmitsOnlyValid.of_forall
    {topics ids : List String}
    (h : ∀ id ∈ ids, allowedTopic id = true) :
    AdmitsOnlyValid conf topics ids := by
  induction ids generalizing topics with
  | nil =>
      trivial
  | cons id ids ih =>
      exact Or.inr (Or.inr ⟨h id List.mem_cons_self,
        ih fun other hother => h other (List.mem_cons_of_mem id hother)⟩)

/-- A lookup adds valid names, if those that it lets in are valid. -/
theorem topicsFromIDs_names
    {topics ids : List String}
    (htopics : ∀ id ∈ topics, IsName conf id)
    (hids : AdmitsOnlyValid conf topics ids) :
    (∀ id ∈ (topicsFromIDs conf topics ids).1, IsName conf id) ∧
      ((topicsFromIDs conf topics ids).2 = true → ∀ id ∈ ids, IsName conf id) := by
  induction ids generalizing topics with
  | nil =>
      exact ⟨htopics, fun _ id hid => (List.not_mem_nil hid).elim⟩
  | cons id ids ih =>
      rw [topicsFromIDs]
      split
      case isTrue =>
        exact ⟨htopics, nofun⟩
      case isFalse hallowed =>
        rcases hids with hdisallowed | hids
        · exact absurd hdisallowed hallowed
        split
        case isTrue hknown =>
          rcases hids with hfull | ⟨-, hrest⟩
          · exact absurd hknown hfull.1
          rw [if_pos hknown] at hrest
          obtain ⟨hkept, hnames⟩ := ih htopics hrest
          exact ⟨hkept, fun hfound => List.forall_mem_cons.mpr
            ⟨htopics id hknown, hnames hfound⟩⟩
        case isFalse hnew =>
          split
          case isTrue =>
            exact ⟨htopics, nofun⟩
          case isFalse hroom =>
            rcases hids with hfull | ⟨hvalid, hrest⟩
            · exact absurd hfull.2 hroom
            rw [if_neg hnew] at hrest
            have hname : IsName conf id := ⟨hvalid, hallowed⟩
            obtain ⟨hkept, hnames⟩ := ih (fun other hother => by
              rcases List.mem_append.mp hother with hold | hlast
              · exact htopics other hold
              · exact List.mem_singleton.mp hlast ▸ hname) hrest
            exact ⟨hkept, fun hfound => List.forall_mem_cons.mpr ⟨hname, hnames hfound⟩⟩

theorem Valid.withTopics
    (h : Valid conf s)
    {topics : List String}
    (htopics : ∀ id ∈ topics, IsName conf id) :
    Valid conf { s with topics } :=
  ⟨htopics, h.messages, h.webPush, h.syncTopics⟩

/-- The rule for a lookup. -/
theorem Valid.lookup
    (h : Valid conf s)
    {ids : List String} {next : State → State}
    (hids : AdmitsOnlyValid conf s.topics ids)
    (hnext : ∀ s', Valid conf s' → (∀ id ∈ ids, IsName conf id) → Valid conf (next s')) :
    Valid conf (lookup conf s ids next) := by
  obtain ⟨hkept, hnames⟩ := topicsFromIDs_names h.topics hids
  unfold TopicNames.lookup
  split
  case isTrue hfound =>
    exact hnext _ (h.withTopics hkept) (hnames hfound)
  case isFalse =>
    exact h.withTopics hkept

theorem Valid.addMessage
    (h : Valid conf s)
    {topic : String}
    (hname : IsName conf topic) :
    Valid conf (addMessage a topic s) := by
  unfold TopicNames.addMessage
  split
  case isTrue =>
    exact ⟨h.topics, List.forall_mem_cons.mpr ⟨hname, h.messages⟩, h.webPush,
      h.syncTopics⟩
  case isFalse =>
    exact h

theorem Valid.authorizeTopic
    (h : Valid conf s)
    {topics : String} {next : State → State}
    (htopics : ∀ id ∈ splitNoEmpty topics ',', allowedTopic id = true)
    (hnext : ∀ s', Valid conf s' → Valid conf (next s')) :
    Valid conf (authorizeTopic conf a s topics next) := by
  unfold TopicNames.authorizeTopic
  split
  case isTrue =>
    refine h.lookup (.of_forall htopics) fun s' hs' _ => ?_
    split
    case isTrue =>
      exact hnext s' hs'
    case isFalse =>
      exact hs'
  case isFalse =>
    exact hnext s h

theorem Valid.publishTo
    (h : Valid conf s)
    {path : String}
    (hpath : AdmitsOnlyValid conf s.topics ((parts path).tail.take 1)) :
    Valid conf (publishTo conf a s path) := by
  unfold TopicNames.publishTo
  split
  case h_1 first topic rest hparts =>
    rw [hparts] at hpath
    refine h.lookup hpath fun s' hs' hnames => ?_
    have hname := hnames topic List.mem_cons_self
    split
    case isTrue =>
      refine hs'.authorizeTopic (fun id hid => ?_) (fun _ hs => hs.addMessage hname)
      rw [splitNoEmpty_of_allowedTopic hname.1, List.mem_singleton] at hid
      exact hid ▸ hname.1
    case isFalse =>
      exact hs'
  case h_2 =>
    exact h

theorem Valid.subscribeTo
    (h : Valid conf s)
    {path first topics : String} {rest : List String}
    (hparts : parts path = first :: topics :: rest)
    (htopics : ∀ id ∈ splitNoEmpty topics ',', allowedTopic id = true) :
    Valid conf (subscribeTo conf a s path) := by
  simp only [TopicNames.subscribeTo, hparts]
  split
  case isTrue =>
    refine h.authorizeTopic htopics fun s' hs' => ?_
    exact hs'.lookup (.of_forall htopics) (fun _ hs _ => hs)
  case isFalse =>
    exact h

/-- What `handleInternal` lets through to a handler of topics is valid. -/
theorem Valid.handlePath
    (h : Valid conf s)
    (method path : String) :
    Valid conf (handlePath conf a s method path) := by
  have hpublish : ∀ handler, handlerOf method path = some handler →
      handler ≠ .subscribe → Valid conf (TopicNames.publishTo conf a s path) := by
    intro handler hhandler hne
    obtain ⟨topic, rest, hparts, htopic⟩ := handlerOf_cases hhandler
    refine h.publishTo ?_
    rw [hparts]
    refine .of_forall fun id hid => ?_
    rw [List.mem_singleton.mp hid]
    exact htopic.resolve_right fun hsubscribe => hne hsubscribe.1
  unfold TopicNames.handlePath
  split
  case h_1 hhandler =>
    exact hpublish _ hhandler (by decide)
  case h_2 hhandler =>
    exact hpublish _ hhandler (by decide)
  case h_3 hhandler =>
    exact hpublish _ hhandler (by decide)
  case h_4 hhandler =>
    obtain ⟨topics, rest, hparts, htopics⟩ := handlerOf_cases hhandler
    refine h.subscribeTo hparts fun id hid => ?_
    rcases htopics with htopic | ⟨-, htopics⟩
    · rw [splitNoEmpty_of_allowedTopic htopic, List.mem_singleton] at hid
      exact hid ▸ htopic
    · exact allowedTopic_of_mem_splitNoEmpty htopics hid
  case h_5 =>
    exact h

theorem Valid.handleWebPushUpdate
    (h : Valid conf s)
    {endpoint : String} {topics : List String}
    (htopics : a.allowed = true → AdmitsOnlyValid conf s.topics topics) :
    Valid conf (handleWebPushUpdate conf a s endpoint topics) := by
  unfold TopicNames.handleWebPushUpdate
  split
  case isTrue hallowed =>
    refine h.lookup (htopics hallowed) fun s' hs' hnames => ?_
    split
    case isTrue =>
      refine ⟨hs'.topics, hs'.messages, fun e he => ?_, hs'.syncTopics⟩
      rcases List.mem_append.mp he with hold | hnew
      · exact hs'.webPush e (List.mem_of_mem_filter hold)
      · obtain ⟨topic, htopic, rfl⟩ := List.mem_map.mp hnew
        exact hnames topic htopic
    case isFalse =>
      exact hs'
  case isFalse =>
    exact h

theorem Valid.handleSocialEvent
    (h : Valid conf s)
    {topic : String} {stored : Bool}
    (htopic : topic ≠ "" ∧ a.authorized topic = true ∧ a.allowed = true →
      AdmitsOnlyValid conf s.topics [topic]) :
    Valid conf (handleSocialEvent conf a s topic stored) := by
  unfold TopicNames.handleSocialEvent
  split
  case isTrue hpassed =>
    refine h.lookup (htopic hpassed) fun s' hs' hnames => ?_
    split
    case isTrue =>
      exact hs'.addMessage (hnames topic List.mem_cons_self)
    case isFalse =>
      exact hs'
  case isFalse =>
    exact h

/-- Every request keeps the names valid, if those that it does not look at are. -/
theorem Valid.step
    (h : Valid conf s)
    {l : Label}
    (hnames : NamesValid conf s l)
    (hstep : TopicNames.step conf s l = some s') :
    Valid conf s' := by
  cases l with
  | path method path a =>
      cases hstep
      exact h.handlePath method path
  | publishJSON topic a =>
      cases hstep
      unfold handlePublishJSON
      split
      case isTrue hvalid =>
        refine h.publishTo ?_
        rw [parts_slash hvalid]
        exact .of_forall fun id hid => List.mem_singleton.mp hid ▸ hvalid
      case isFalse =>
        exact h
  | publishMatrix path a =>
      cases hstep
      exact h.publishTo hnames
  | email recipient a =>
      cases hstep
      unfold handleEmail
      split
      case isTrue =>
        exact h.handlePath "POST" ("/" ++ recipient)
      case isFalse =>
        exact h
  | webPush endpoint topics a =>
      cases hstep
      exact h.handleWebPushUpdate hnames
  | typing topic a =>
      cases hstep
      exact h.handleSocialEvent hnames
  | nudge topic a =>
      cases hstep
      exact h.handleSocialEvent hnames
  | gurr topic a =>
      cases hstep
      exact h.handleSocialEvent hnames
  | reserve topic a =>
      cases hstep
      unfold handleAccountReservationAdd
      split
      case isTrue hvalid =>
        refine h.lookup (.of_forall fun id hid => ?_) (fun _ hs _ => hs)
        exact List.mem_singleton.mp hid ▸ hvalid.1
      case isFalse =>
        exact h
  | syncEvent syncTopic =>
      simp only [TopicNames.step, Option.ite_none_right_eq_some] at hstep
      obtain ⟨hknown, ⟨⟩⟩ := hstep
      unfold publishSyncEvent
      split
      case isTrue =>
        exact h
      case isFalse =>
        refine h.lookup (.of_forall fun id hid => ?_) (fun _ hs _ => hs)
        exact List.mem_singleton.mp hid ▸ h.syncTopics syncTopic hknown
  | addUser random =>
      simp only [TopicNames.step, Option.ite_none_right_eq_some] at hstep
      obtain ⟨⟨hlength, hrandom⟩, ⟨⟩⟩ := hstep
      exact ⟨h.topics, h.messages, h.webPush, List.forall_mem_cons.mpr
        ⟨allowedTopic_syncTopic hlength hrandom, h.syncTopics⟩⟩
  | expunge topic =>
      cases hstep
      exact h.withTopics fun id hid => h.topics id (List.mem_of_mem_filter hid)
  | deleteMessage i =>
      cases hstep
      exact ⟨h.topics, fun id hid => h.messages id (List.mem_of_mem_eraseIdx hid),
        h.webPush, h.syncTopics⟩
  | removeSubscription endpoint =>
      cases hstep
      exact ⟨h.topics, h.messages, fun e he => h.webPush e (List.mem_of_mem_filter he),
        h.syncTopics⟩
  | restart =>
      cases hstep
      exact h.withTopics fun id hid => h.messages id (List.mem_dedup.mp hid)

theorem valid_initial
    (conf : Config) :
    Valid conf initial :=
  ⟨nofun, nofun, nofun, nofun⟩

/--
In every run in which the requests that do not look at their names are given valid ones,
the names of all topics, stored messages and web push subscriptions are valid.
-/
theorem topic_names_valid
    {ls : List Label}
    (hnames : Along (TopicNames.step conf) (NamesValid conf) initial ls)
    (hrun : run (TopicNames.step conf) initial ls = some s) :
    (∀ id ∈ s.topics, IsName conf id) ∧ (∀ id ∈ s.messages, IsName conf id) ∧
      ∀ e ∈ s.webPush, IsName conf e.2 := by
  have h : Valid conf s :=
    run_invariant_along (fun _ _ _ hs hnames hstep => hs.step hnames hstep)
      (valid_initial conf) hnames hrun
  exact ⟨h.topics, h.messages, h.webPush⟩

end Preservation

section Examples

def exampleConfig : Config :=
  ⟨⟨["docs", "static", "file", "app", "metrics", "account", "settings", "signup",
    "login", "v1"], 15000⟩, true⟩

/-- A request that nothing refuses. -/
def accepted : Answers :=
  ⟨true, fun _ => true, true⟩

def exampleRun : List Label :=
  [.addUser "aB3dE5gH7jK9m", .path "PUT" "/news" accepted,
    .path "GET" "/news,alerts/json" accepted, .publishJSON "misc" accepted,
    .publishMatrix "/upABCDEFGHIJKL" accepted, .webPush "e1" ["news", "v1"] accepted,
    .webPush "e2" ["news", "mail"] accepted, .nudge "dm_0123456789ab" accepted,
    .syncEvent "st_aB3dE5gH7jK9m", .restart]

/-- Topics from all kinds of requests. -/
theorem named_example :
    ∃ s, run (step exampleConfig) initial exampleRun = some s ∧
      (∀ id ∈ s.topics, IsName exampleConfig id) ∧
        (∀ id ∈ s.messages, IsName exampleConfig id) ∧
          ∀ e ∈ s.webPush, IsName exampleConfig e.2 := by
  have hnames : Along (step exampleConfig) (NamesValid exampleConfig) initial
      exampleRun := by
    decide
  have hrun : (run (step exampleConfig) initial exampleRun).isSome = true := by
    decide
  obtain ⟨s, hs⟩ := Option.isSome_iff_exists.mp hrun
  exact ⟨s, hs, topic_names_valid hnames hs⟩

/-- Names that no topic may have, from the requests that do not look at them. -/
theorem invalid_names_admitted :
    run (step exampleConfig) initial
        [.nudge "../x y" accepted, .typing "a,b" accepted,
          .publishMatrix "/up.example" accepted, .gurr "ä" accepted,
          .webPush "e1" [""] accepted] =
        some ⟨["../x y", "a,b", "up.example", "ä", ""], ["ä", "up.example", "../x y"],
          [("e1", "")], []⟩ ∧
      ∀ id ∈ ["../x y", "a,b", "up.example", "ä", ""], ¬IsName exampleConfig id := by
  decide

end Examples

end TopicNames

end Server
end CoopMessenger
