import Mathlib.Data.Multiset.Basic
import CoopMessenger.Library.Runs
import CoopMessenger.Manager.Profiles
import CoopMessenger.Server.Errors
import CoopMessenger.Server.MessageCache

/-!
# Reading the data of a topic

The read endpoints for what is kept about a topic: its metadata, the reactions
to one of its messages or to all of them, and the profiles of its members.
Reactions are rows of their own that name a message and its topic.

**Results.**
* `mem_groupReactions_iff`: the groups of a listing hold exactly its rows.
* `Consistent.step`: a reaction keeps the topic of its message.
* `shown_to_readers_iff`: when data is shown to readers of the topic only.
-/

namespace CoopMessenger
namespace Server

open Library Manager

namespace TopicData

section Tables

/-- A row of `topic_meta` with all its columns. -/
structure MetaRow where
  topic : String
  displayName : String
  description : String
  avatarId : String
  createdBy : String
  createdAt : Int
  dmUserA : String
  dmUserB : String
deriving DecidableEq, Repr

/-- A row of `reactions`. -/
structure Reaction where
  messageID : String
  topic : String
  username : String
  emoji : String
  createdAt : Int
deriving DecidableEq, Repr

/-- `UNIQUE(message_id, username, emoji)` -/
def Reaction.key
    (r : Reaction) : String × String × String :=
  (r.messageID, r.username, r.emoji)

/-- The tables that the endpoints read. -/
structure State where
  db : Database
  topicMeta : Table MetaRow.topic
  texts : Table ProfileText.userId
  cache : MessageCache
  reactions : Table Reaction.key

end Tables

section Paths

/-- The topic in `/v1/coop/topics/{topic}/meta`. -/
def metaTopic (path : String) : String :=
  String.ofList (Util.trimSuffix "/meta".toList
    (Util.trimPrefix "/v1/coop/topics/".toList path.toList))

/-- The message ID in `/v1/coop/messages/{messageId}/reactions`. -/
def reactionMessageID (path : String) : Except HandlerError String :=
  match (Util.trimPrefix "/v1/coop/messages/".toList path.toList).splitOn '/' with
  | first :: _ :: _ =>
      if first = [] then
        .error (.http (errHTTPBadRequest.wrap "invalid message ID"))
      else
        .ok (String.ofList first)
  | _ => .error (.http (errHTTPBadRequest.wrap "invalid message ID"))

end Paths

section Groups

/-- The reactions to a message with one emoji. -/
structure ReactionGroup where
  emoji : String
  count : Nat
  users : List String
  reacted : Bool
deriving DecidableEq, Repr

/-- Enters a reaction into its group; a new group comes last. -/
def noteReaction
    (requestingUser : String) :
    List ReactionGroup → Reaction → List ReactionGroup
  | [], r =>
      [⟨r.emoji, 1, [r.username], decide (r.username = requestingUser)⟩]
  | g :: gs, r =>
      if g.emoji = r.emoji then
        { g with
          count := g.count + 1
          users := g.users ++ [r.username]
          reacted := g.reacted || decide (r.username = requestingUser) } :: gs
      else
        g :: noteReaction requestingUser gs r

/-- Groups reactions by emoji, in the order of their first rows. -/
def groupReactions
    (requestingUser : String)
    (rows : List Reaction) : List ReactionGroup :=
  rows.foldl (noteReaction requestingUser) []

/-- The reactions to one message; the groups are listed in no fixed order. -/
structure MessageReactions where
  messageID : String
  reactions : Multiset ReactionGroup
deriving DecidableEq

/-- Enters a reaction under its message; a new message comes last. -/
def noteMessage
    (requestingUser : String) :
    List (String × List ReactionGroup) → Reaction →
      List (String × List ReactionGroup)
  | [], r => [(r.messageID, noteReaction requestingUser [] r)]
  | (id, gs) :: ms, r =>
      if id = r.messageID then
        (id, noteReaction requestingUser gs r) :: ms
      else
        (id, gs) :: noteMessage requestingUser ms r

variable {me : String}

/-- What one more reaction adds to the groups. -/
theorem mem_noteReaction_iff
    {gs : List ReactionGroup} {r : Reaction} {emoji username : String} :
    (∃ g ∈ noteReaction me gs r, g.emoji = emoji ∧ username ∈ g.users)
      ↔
    (∃ g ∈ gs, g.emoji = emoji ∧ username ∈ g.users) ∨
      (r.emoji = emoji ∧ r.username = username) := by
  induction gs with
  | nil =>
      simp [noteReaction, eq_comm]
  | cons g gs ih =>
      unfold noteReaction
      split
      case isTrue h =>
        simp only [List.exists_mem_cons_iff, List.mem_append,
          List.mem_singleton, h, and_or_left, @eq_comm _ username]
        exact or_right_comm
      case isFalse h =>
        simp only [List.exists_mem_cons_iff, ih, or_assoc]

/-- The groups of a listing hold exactly the users of its rows. -/
theorem mem_groupReactions_iff
    {rows : List Reaction} {emoji username : String} :
    (∃ g ∈ groupReactions me rows, g.emoji = emoji ∧ username ∈ g.users)
      ↔
    ∃ r ∈ rows, r.emoji = emoji ∧ r.username = username := by
  have hfold : ∀ gs : List ReactionGroup,
      (∃ g ∈ rows.foldl (noteReaction me) gs,
        g.emoji = emoji ∧ username ∈ g.users) ↔
      (∃ g ∈ gs, g.emoji = emoji ∧ username ∈ g.users) ∨
        ∃ r ∈ rows, r.emoji = emoji ∧ r.username = username := by
    induction rows with
    | nil =>
        simp
    | cons r rows ih =>
        intro gs
        rw [List.foldl_cons, ih, mem_noteReaction_iff]
        simp only [List.exists_mem_cons_iff, or_assoc]
  have hempty := hfold []
  simpa [groupReactions] using hempty

/-- What one more reaction adds to the listing of a topic. -/
theorem mem_noteMessage_iff
    {ms : List (String × List ReactionGroup)} {r : Reaction}
    {id emoji username : String} :
    (∃ m ∈ noteMessage me ms r, m.1 = id ∧
      ∃ g ∈ m.2, g.emoji = emoji ∧ username ∈ g.users)
      ↔
    (∃ m ∈ ms, m.1 = id ∧ ∃ g ∈ m.2, g.emoji = emoji ∧ username ∈ g.users) ∨
      (r.messageID = id ∧ r.emoji = emoji ∧ r.username = username) := by
  induction ms with
  | nil =>
      simp [noteMessage, noteReaction, eq_comm]
  | cons m ms ih =>
      obtain ⟨mid, gs⟩ := m
      unfold noteMessage
      split
      case isTrue h =>
        simp only [List.exists_mem_cons_iff, mem_noteReaction_iff, and_or_left,
          h]
        exact or_right_comm
      case isFalse h =>
        simp only [List.exists_mem_cons_iff, ih, or_assoc]

/-- The reactions of rows, grouped by message and emoji. -/
def groupMessages
    (requestingUser : String)
    (rows : List Reaction) : List MessageReactions :=
  (rows.foldl (noteMessage requestingUser) []).map
    (fun m => ⟨m.1, (m.2 : Multiset ReactionGroup)⟩)

/-- The listing of a topic holds exactly the messages and users of its rows. -/
theorem mem_groupMessages_iff
    {rows : List Reaction} {id emoji username : String} :
    (∃ m ∈ groupMessages me rows, m.messageID = id ∧
      ∃ g ∈ m.reactions, g.emoji = emoji ∧ username ∈ g.users)
      ↔
    ∃ r ∈ rows, r.messageID = id ∧ r.emoji = emoji ∧
      r.username = username := by
  have hfold : ∀ ms : List (String × List ReactionGroup),
      (∃ m ∈ rows.foldl (noteMessage me) ms, m.1 = id ∧
        ∃ g ∈ m.2, g.emoji = emoji ∧ username ∈ g.users) ↔
      (∃ m ∈ ms, m.1 = id ∧ ∃ g ∈ m.2, g.emoji = emoji ∧ username ∈ g.users) ∨
        ∃ r ∈ rows, r.messageID = id ∧ r.emoji = emoji ∧
          r.username = username := by
    induction rows with
    | nil =>
        simp
    | cons r rows ih =>
        intro ms
        rw [List.foldl_cons, ih, mem_noteMessage_iff]
        simp only [List.exists_mem_cons_iff, or_assoc]
  have hempty := hfold []
  simpa [groupMessages] using hempty

end Groups

section Handlers

/-- Returns the metadata of a topic, or default metadata. -/
def handleTopicMetaGet
    (s : State)
    (path : String) : Except HandlerError MetaRow :=
  if metaTopic path = "" then
    .error (.http (errHTTPBadRequest.wrap "missing topic"))
  else
    .ok ((s.topicMeta.find? (metaTopic path)).getD
      ⟨metaTopic path, "", "", "", "", 0, "", ""⟩)

/-- The message of a path, if the user may read its topic. -/
def readableMessage
    (s : State)
    (defaultAccess : Permission)
    (u : User)
    (messageID : String) : Except HandlerError Message :=
  match s.cache.message? messageID with
  | none => .error (.http errHTTPNotFound)
  | some msg =>
      match authorize s.db defaultAccess (some u) msg.topic .read with
      | .error _ => .error (.http errHTTPForbidden)
      | .ok () => .ok msg

/-- Lists the reactions to a message. -/
def handleReactionList
    (s : State)
    (defaultAccess : Permission)
    (u : User)
    (path : String) : Except HandlerError (List ReactionGroup) := do
  let messageID ← reactionMessageID path
  let _ ← readableMessage s defaultAccess u messageID
  return groupReactions u.name
    (orderBy Reaction.createdAt
      (s.reactions.rows.filter (fun r => decide (r.messageID = messageID))))

/-- Returns all reactions to messages of a topic. -/
def handleReactionsByTopic
    (s : State)
    (defaultAccess : Permission)
    (u : User)
    (topic : String) : Except HandlerError (List MessageReactions) :=
  if topic = "" then
    .error (.http (errHTTPBadRequest.wrap "topic parameter is required"))
  else
    match authorize s.db defaultAccess (some u) topic .read with
    | .error _ => .error (.http errHTTPForbidden)
    | .ok () =>
        .ok (groupMessages u.name
          (orderBy (fun r => toLex (r.messageID, r.createdAt))
            (s.reactions.rows.filter (fun r => decide (r.topic = topic)))))

/-- Returns the profiles of the members of a topic. -/
def handleProfilesByTopic
    (s : State)
    (defaultAccess : Permission)
    (u : User)
    (topic : String) : Except HandlerError (List Profile) :=
  if topic = "" then
    .error (.http (errHTTPBadRequest.wrap "topic parameter required"))
  else
    match authorize s.db defaultAccess (some u) topic .read with
    | .error _ => .error (.http errHTTPForbidden)
    | .ok () => .ok (profilesByTopic s.db s.texts topic)

/-- Adds a reaction, or takes it back. -/
def handleReactionAdd
    (s : State)
    (defaultAccess : Permission)
    (u : User)
    (path : String)
    (body : Option String)
    (now : Int) : Except HandlerError State := do
  let messageID ← reactionMessageID path
  let emoji ← body.elim (.error (.http errHTTPBadRequestJSONInvalid)) .ok
  if emoji = "" then
    .error (.http (errHTTPBadRequest.wrap "emoji is required"))
  else
    let msg ← readableMessage s defaultAccess u messageID
    match s.reactions.insert? ⟨messageID, msg.topic, u.name, emoji, now⟩ with
    | some reactions => .ok { s with reactions }
    | none =>
        .ok
          { s with
            reactions := s.reactions.delete
              (fun r => decide (r.key = (messageID, u.name, emoji))) }

/-- Removes a reaction of the user. -/
def handleReactionDelete
    (s : State)
    (defaultAccess : Permission)
    (u : User)
    (path : String) : Except HandlerError State :=
  match (Util.trimPrefix "/v1/coop/messages/".toList path.toList).splitOn '/' with
  | id :: _ :: part :: parts =>
      let messageID := String.ofList id
      let emoji := String.ofList (['/'].intercalate (part :: parts))
      if messageID = "" ∨ emoji = "" then
        .error (.http (errHTTPBadRequest.wrap "invalid path"))
      else do
        let _ ← readableMessage s defaultAccess u messageID
        if (s.reactions.find? (messageID, u.name, emoji)).isSome then
          .ok
            { s with
              reactions := s.reactions.delete
                (fun r => decide (r.key = (messageID, u.name, emoji))) }
        else
          .error (.http errHTTPNotFound)
  | _ => .error (.http (errHTTPBadRequest.wrap "invalid path"))

end Handlers

section System

/-- The rows of the cache may come and go, but a message ID is used once. -/
def Follows
    (s : State)
    (c : MessageCache) : Prop :=
  (∀ r ∈ c.rows, ∀ r' ∈ c.rows,
    r.message.id = r'.message.id → r.message.topic = r'.message.topic) ∧
  ∀ r ∈ c.rows,
    (∃ r' ∈ s.cache.rows, r'.message.id = r.message.id ∧
      r'.message.topic = r.message.topic) ∨
    ∀ x ∈ s.reactions, x.messageID ≠ r.message.id

instance decidableFollows
    (s : State) (c : MessageCache) :
    Decidable (Follows s c) :=
  inferInstanceAs (Decidable ((∀ r ∈ c.rows, ∀ r' ∈ c.rows,
    r.message.id = r'.message.id → r.message.topic = r'.message.topic) ∧
  ∀ r ∈ c.rows,
    (∃ r' ∈ s.cache.rows, r'.message.id = r.message.id ∧
      r'.message.topic = r.message.topic) ∨
    ∀ x ∈ s.reactions, x.messageID ≠ r.message.id))

/--
A request adds or removes a reaction, messages are stored or deleted, or any
other table is written.
-/
inductive Label where
  | react (u : User) (path : String) (body : Option String) (now : Int)
  | unreact (u : User) (path : String)
  | store (c : MessageCache)
  | write (db : Database) (topicMeta : Table MetaRow.topic)
      (texts : Table ProfileText.userId)

/-- One step; `none` if it is not enabled. -/
def step
    (defaultAccess : Permission)
    (s : State) : Label → Option State
  | .react u path body now =>
      some (((handleReactionAdd s defaultAccess u path body now).toOption).getD s)
  | .unreact u path =>
      some (((handleReactionDelete s defaultAccess u path).toOption).getD s)
  | .store c =>
      if Follows s c then
        some { s with cache := c }
      else
        none
  | .write db topicMeta texts => some { s with db, topicMeta, texts }

/-- No message has been stored, and nobody has reacted. -/
def initial
    (db : Database)
    (topicMeta : Table MetaRow.topic)
    (texts : Table ProfileText.userId) : State where
  db
  topicMeta
  texts
  cache := .empty
  reactions := .empty

/-- A message ID is used in one topic, and reactions to it name this topic. -/
structure Consistent (s : State) : Prop where
  messages : ∀ r ∈ s.cache.rows, ∀ r' ∈ s.cache.rows,
    r.message.id = r'.message.id → r.message.topic = r'.message.topic
  reactions : ∀ x ∈ s.reactions, ∀ r ∈ s.cache.rows,
    r.message.id = x.messageID → r.message.topic = x.topic

variable {s s' : State}
variable {defaultAccess : Permission}
variable {u : User}

theorem consistent_initial
    (db : Database)
    (topicMeta : Table MetaRow.topic)
    (texts : Table ProfileText.userId) :
    Consistent (initial db topicMeta texts) :=
  ⟨fun _ hr => absurd hr List.not_mem_nil, fun x hx => absurd hx (Table.not_mem_empty x)⟩

/-- A readable message is stored, and the user may read its topic. -/
theorem readableMessage_eq_ok
    {messageID : String} {msg : Message}
    (h : readableMessage s defaultAccess u messageID = .ok msg) :
    (∃ r ∈ s.cache.rows, r.message = msg ∧ msg.id = messageID) ∧
      authorize s.db defaultAccess (some u) msg.topic .read = .ok () := by
  unfold readableMessage at h
  split at h
  case h_1 =>
    cases h
  case h_2 m hfound =>
    split at h
    case h_1 =>
      cases h
    case h_2 hauth =>
      cases h
      obtain ⟨r, hr, rfl⟩ := Option.map_eq_some_iff.mp hfound
      have hid := List.find?_some hr
      rw [decide_eq_true_eq] at hid
      exact ⟨⟨r, List.mem_of_find?_eq_some hr, rfl, hid⟩, hauth⟩

/-- Removing reactions leaves the tables consistent. -/
theorem Consistent.delete
    (h : Consistent s)
    (p : Reaction → Bool) :
    Consistent { s with reactions := s.reactions.delete p } :=
  ⟨h.messages, fun x hx => h.reactions x (Table.mem_delete_iff.mp hx).1⟩

/-- A new reaction names the topic of its message. -/
theorem Consistent.handleReactionAdd
    {path : String} {body : Option String} {now : Int}
    (h : Consistent s)
    (hadd : handleReactionAdd s defaultAccess u path body now = .ok s') :
    Consistent s' := by
  obtain ⟨messageID, -, hadd⟩ := exists_of_bind_eq_ok hadd
  obtain ⟨emoji, -, hadd⟩ := exists_of_bind_eq_ok hadd
  split at hadd
  case isTrue =>
    cases hadd
  case isFalse =>
    obtain ⟨msg, hmsg, hadd⟩ := exists_of_bind_eq_ok hadd
    obtain ⟨⟨r, hr, rfl, hid⟩, -⟩ := readableMessage_eq_ok hmsg
    split at hadd
    case h_1 reactions hins =>
      cases hadd
      refine ⟨h.messages, fun x hx r' hr' hsame => ?_⟩
      rcases (Table.mem_insert?_iff hins).mp hx with hx | rfl
      · exact h.reactions x hx r' hr' hsame
      · exact h.messages r' hr' r hr (hsame.trans hid.symm)
    case h_2 =>
      cases hadd
      exact h.delete _

theorem Consistent.handleReactionDelete
    {path : String}
    (h : Consistent s)
    (hdelete : handleReactionDelete s defaultAccess u path = .ok s') :
    Consistent s' := by
  unfold TopicData.handleReactionDelete at hdelete
  split at hdelete
  case h_2 =>
    cases hdelete
  case h_1 =>
    extract_lets messageID emoji at hdelete
    split at hdelete
    case isTrue =>
      cases hdelete
    case isFalse =>
      obtain ⟨msg, -, hdelete⟩ := exists_of_bind_eq_ok hdelete
      split at hdelete
      case isTrue =>
        cases hdelete
        exact h.delete _
      case isFalse =>
        cases hdelete

/-- Every step leaves the tables consistent. -/
theorem Consistent.step
    {l : Label}
    (h : Consistent s)
    (hstep : step defaultAccess s l = some s') :
    Consistent s' := by
  cases l with
  | react u path body now =>
      cases Option.some.inj hstep
      cases hadd : TopicData.handleReactionAdd s defaultAccess u path body
          now with
      | error e =>
          exact h
      | ok t =>
          exact h.handleReactionAdd hadd
  | unreact u path =>
      cases Option.some.inj hstep
      cases hdelete : TopicData.handleReactionDelete s defaultAccess u
          path with
      | error e =>
          exact h
      | ok t =>
          exact h.handleReactionDelete hdelete
  | store c =>
      simp only [TopicData.step] at hstep
      split at hstep
      case isFalse =>
        cases hstep
      case isTrue hfollows =>
        cases hstep
        refine ⟨hfollows.1, fun x hx r hr hid => ?_⟩
        rcases hfollows.2 r hr with ⟨r', hr', hid', htopic⟩ | hfree
        · rw [← htopic]
          exact h.reactions x hx r' hr' (hid'.trans hid)
        · exact absurd hid.symm (hfree x hx)
  | write db topicMeta texts =>
      cases Option.some.inj hstep
      exact ⟨h.messages, h.reactions⟩

end System

section Readers

/-- The read requests, by path or by topic parameter. -/
inductive ReadRequest where
  | topicMeta (path : String)
  | messageReactions (path : String)
  | topicReactions (topic : String)
  | members (topic : String)
deriving DecidableEq, Repr

inductive ReadResponse where
  | topicMeta (m : MetaRow)
  | messageReactions (groups : List ReactionGroup)
  | topicReactions (messages : List MessageReactions)
  | members (profiles : List Profile)
deriving DecidableEq

/-- The response to a read request of a user. -/
def serve
    (s : State)
    (defaultAccess : Permission)
    (u : User) :
    ReadRequest → Except HandlerError ReadResponse
  | .topicMeta path => (handleTopicMetaGet s path).map .topicMeta
  | .messageReactions path =>
      (handleReactionList s defaultAccess u path).map .messageReactions
  | .topicReactions topic =>
      (handleReactionsByTopic s defaultAccess u topic).map .topicReactions
  | .members topic =>
      (handleProfilesByTopic s defaultAccess u topic).map .members

/-- An entry that the listing of members joins with a user. -/
def Listed
    (db : Database)
    (topic : String)
    (a : AccessRow) : Prop :=
  a.topic.1 = topic ∧ allowedTopic a.topic.visible = true ∧
    ∃ v ∈ db.users, v.id = a.userId ∧ v.role ≠ .anonymous

instance decidableListed
    (db : Database) (topic : String) (a : AccessRow) :
    Decidable (Listed db topic a) :=
  inferInstanceAs (Decidable (a.topic.1 = topic ∧
    allowedTopic a.topic.visible = true ∧
      ∃ v ∈ db.users, v.id = a.userId ∧ v.role ≠ .anonymous))

/-- The rows that answer the request include one of this topic. -/
def Shows
    (s : State)
    (p : String) : ReadRequest → Prop
  | .topicMeta path =>
      ∃ m ∈ s.topicMeta, m.topic = metaTopic path ∧ m.topic = p
  | .messageReactions path =>
      ∃ x ∈ s.reactions, reactionMessageID path = .ok x.messageID ∧ x.topic = p
  | .topicReactions topic => ∃ x ∈ s.reactions, x.topic = topic ∧ x.topic = p
  | .members topic =>
      ∃ a ∈ s.db.access, Listed s.db topic a ∧ a.topic.visible = p

/-- A response that succeeds shows data only of topics that the user may read. -/
def ShownToReaders
    (s : State)
    (defaultAccess : Permission)
    (u : User)
    (req : ReadRequest) : Prop :=
  ∀ r, serve s defaultAccess u req = .ok r → ∀ p, Shows s p req →
    authorize s.db defaultAccess (some u) p .read = .ok ()

/--
Stored metadata belongs to a topic that the user may read, and a topic parameter
for members that stands for another topic than it says, stands for one that the
user may read.
-/
def ReadsOwn
    (s : State)
    (defaultAccess : Permission)
    (u : User) : ReadRequest → Prop
  | .topicMeta path =>
      metaTopic path ≠ "" → (s.topicMeta.find? (metaTopic path)).isSome →
        authorize s.db defaultAccess (some u) (metaTopic path) .read = .ok ()
  | .messageReactions _ => True
  | .topicReactions _ => True
  | .members topic =>
      authorize s.db defaultAccess (some u) topic .read = .ok () →
        ∀ a ∈ s.db.access, Listed s.db topic a →
          authorize s.db defaultAccess (some u) a.topic.visible .read = .ok ()

variable {s : State}
variable {defaultAccess : Permission}
variable {u : User}

/-- A member request succeeds exactly if the user may read the text it names. -/
theorem handleProfilesByTopic_isOk_iff
    {topic : String} :
    (∃ r, serve s defaultAccess u (.members topic) = .ok r)
      ↔
    topic ≠ "" ∧ authorize s.db defaultAccess (some u) topic .read = .ok () := by
  simp only [serve, handleProfilesByTopic]
  by_cases hempty : topic = ""
  · simp [hempty, Except.map]
  · rw [if_neg hempty]
    cases hauth : authorize s.db defaultAccess (some u) topic .read with
    | error e =>
        simp [Except.map]
    | ok _ =>
        simp [hempty, Except.map]

/-- A stored pattern is never empty. -/
theorem ne_of_listed
    {a : AccessRow} {topic : String}
    (h : Listed s.db topic a) :
    topic ≠ "" := by
  rintro rfl
  have hvisible : a.topic.visible = fromSQLWildcard "" :=
    congrArg fromSQLWildcard h.1
  have hallowed := h.2.1
  rw [hvisible] at hallowed
  exact absurd hallowed (by decide)

/-- For a valid topic name the members listed are those of this topic. -/
theorem visible_of_listed
    {a : AccessRow} {topic : String}
    (ht : allowedTopic topic = true)
    (h : Listed s.db topic a) :
    a.topic.visible = topic := by
  have hplain : '_' ∉ topic.toList :=
    fun hunder => stored_ne_of_underscore a.topic ht hunder h.1
  rw [← stored_eq_escapeUnderscore_iff ht,
    escapeUnderscore_of_no_underscore hplain]
  exact h.1

/-- So the request for a valid topic name shows readers only. -/
theorem readsOwn_of_allowedTopic
    {topic : String}
    (ht : allowedTopic topic = true) :
    ReadsOwn s defaultAccess u (.members topic) := by
  intro hauth a _ hlisted
  rw [visible_of_listed ht hlisted]
  exact hauth

/-- When a request in a consistent state shows data to readers only. -/
theorem Consistent.shownToReaders_iff
    (h : Consistent s)
    (req : ReadRequest) :
    ShownToReaders s defaultAccess u req ↔ ReadsOwn s defaultAccess u req := by
  cases req with
  | topicMeta path =>
      constructor
      · intro hshown hne hsome
        obtain ⟨m, hm⟩ := Option.isSome_iff_exists.mp hsome
        obtain ⟨hmem, htopic⟩ := Table.find?_eq_some_iff.mp hm
        have hserve : serve s defaultAccess u (.topicMeta path) =
            .ok (.topicMeta m) := by
          simp [serve, handleTopicMetaGet, hne, hm, Except.map]
        exact hshown _ hserve _ ⟨m, hmem, htopic, htopic⟩
      · rintro hreads r hserve p ⟨m, hm, htopic, rfl⟩
        have hne : metaTopic path ≠ "" := by
          intro hempty
          simp [serve, handleTopicMetaGet, hempty, Except.map] at hserve
        rw [htopic]
        exact hreads hne (Table.find?_isSome_iff.mpr ⟨m, hm, htopic⟩)
  | messageReactions path =>
      refine iff_of_true ?_ trivial
      rintro r hserve p ⟨x, hx, hid, rfl⟩
      obtain ⟨groups, hlist⟩ : ∃ groups,
          handleReactionList s defaultAccess u path = .ok groups := by
        cases hlist : handleReactionList s defaultAccess u path with
        | error e =>
            simp [serve, hlist, Except.map] at hserve
        | ok groups =>
            exact ⟨groups, rfl⟩
      obtain ⟨messageID, hpath, hlist⟩ := exists_of_bind_eq_ok hlist
      obtain ⟨msg, hmsg, -⟩ := exists_of_bind_eq_ok hlist
      obtain ⟨⟨row, hrow, rfl, hmsgid⟩, hauth⟩ := readableMessage_eq_ok hmsg
      rw [hpath] at hid
      cases hid
      rwa [← h.reactions x hx row hrow hmsgid]
  | topicReactions topic =>
      refine iff_of_true ?_ trivial
      rintro r hserve p ⟨x, -, htopic, rfl⟩
      rw [htopic]
      cases hauth : authorize s.db defaultAccess (some u) topic .read with
      | error e =>
          simp only [serve, handleReactionsByTopic, hauth] at hserve
          split at hserve
          · cases hserve
          · cases hserve
      | ok _ =>
          rfl
  | members topic =>
      constructor
      · intro hshown hauth a ha hlisted
        obtain ⟨r, hserve⟩ := handleProfilesByTopic_isOk_iff.mpr
          ⟨ne_of_listed hlisted, hauth⟩
        exact hshown r hserve _ ⟨a, ha, hlisted, rfl⟩
      · rintro hreads r hserve p ⟨a, ha, hlisted, rfl⟩
        have hauth := (handleProfilesByTopic_isOk_iff.mp ⟨r, hserve⟩).2
        exact hreads hauth a ha hlisted

/--
In every state reached, data is shown only to readers of its topic, except that
the metadata endpoint does not ask, and that the listing of members asks about
the text of its parameter.
-/
theorem shown_to_readers_iff
    {db : Database} {topicMeta : Table MetaRow.topic}
    {texts : Table ProfileText.userId} {ls : List Label}
    (hrun : run (step defaultAccess) (initial db topicMeta texts) ls = some s)
    (u : User)
    (req : ReadRequest) :
    ShownToReaders s defaultAccess u req ↔ ReadsOwn s defaultAccess u req := by
  have hcons : Consistent s :=
    run_invariant (fun _ _ _ h hstep => h.step hstep)
      (consistent_initial db topicMeta texts) hrun
  exact hcons.shownToReaders_iff req

/-- The private group of alice, with its metadata; bob has no access to it. -/
def exampleState : State :=
  initial
    (twoUsers
      { rows := [⟨"u_a", .ofPattern "grp_a" (by decide), true, true, none, false⟩,
          ⟨"u_b", .ofPattern "*" (by decide), true, true, none, false⟩,
          ⟨"u_b", .ofPattern "grp_a" (by decide), false, false, none, false⟩]
        nodup := by decide })
    { rows := [⟨"grp_a", "Alice's group", "", "", "alice", 1, "", ""⟩]
      nodup := by decide }
    .empty

def exampleReader : User :=
  ⟨"u_b", "bob", .user, some ⟨"basic", 1⟩, ⟨0, 0, 0⟩, false⟩

/-- The listing of reactions shows nothing that bob may not see. -/
theorem reactions_shown_to_readers :
    ShownToReaders exampleState .denyAll exampleReader
      (.topicReactions "grp_a") := by
  have hrun : run (step .denyAll) exampleState [] = some exampleState := rfl
  exact (shown_to_readers_iff hrun exampleReader
    (.topicReactions "grp_a")).mpr trivial

/--
Bob may not read the group, but gets its metadata; and, by the stored form of
its name, which his entry for all topics matches, he gets its members.
-/
theorem private_group_shown :
    authorize exampleState.db .denyAll (some exampleReader) "grp_a" .read =
        .error .unauthorized ∧
      serve exampleState .denyAll exampleReader
        (.topicMeta "/v1/coop/topics/grp_a/meta") =
        .ok (.topicMeta
          ⟨"grp_a", "Alice's group", "", "", "alice", 1, "", ""⟩) ∧
      serve exampleState .denyAll exampleReader (.members "grp\\_a") =
        .ok (.members [⟨"alice", "", "", "", 0⟩, ⟨"bob", "", "", "", 0⟩]) := by
  decide +kernel

end Readers

end TopicData

end Server
end CoopMessenger
