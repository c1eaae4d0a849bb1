import CoopMessenger.Library.Table
import CoopMessenger.Manager.Patterns

/-!
# The user database

The tables of `user/manager.go` after all migrations: users, access entries,
topic metadata, contacts and profiles, with the statements the manager issues
against users, access entries and topic metadata.  A write returns the new
database or the error; a failed write leaves the database as it was, because
every statement of one operation runs in one transaction.

**Results.**
* `mem_access_upsertUserAccess`: the access entries after a grant.
* `allowAccess_isOk_iff`: when a grant succeeds.
-/

namespace CoopMessenger
namespace Manager

open Library

/-- A row of `user_access`. -/
structure AccessRow where
  userId : String
  topic : StoredPattern
  read : Bool
  write : Bool
  ownerUserId : Option String
  provisioned : Bool
deriving DecidableEq

/-- `PRIMARY KEY (user_id, topic)` -/
def AccessRow.key
    (a : AccessRow) : String × StoredPattern :=
  (a.userId, a.topic)

/-- The permission the entry grants. -/
def AccessRow.permission (a : AccessRow) : Permission :=
  newPermission a.read a.write

/-- A row of `topic_meta`. -/
structure TopicMeta where
  topic : String
  displayName : String
  description : String
  avatarId : String
  createdBy : String
deriving DecidableEq, Repr

/-- The status of a contact row. -/
inductive ContactStatus where
  | pending
  | accepted
  | blocked
deriving DecidableEq, Repr

/-- A row of `user_contact`: what `userId` keeps about `contactUserId`. -/
structure ContactRow where
  userId : String
  contactUserId : String
  status : ContactStatus
deriving DecidableEq, Repr

/-- `PRIMARY KEY (user_id, contact_user_id)` -/
def ContactRow.key
    (c : ContactRow) : String × String :=
  (c.userId, c.contactUserId)

/-- Who may become a contact of a user. -/
inductive Privacy where
  | «open»
  | request
  | inviteOnly
deriving DecidableEq, Repr

/-- A row of `user_profile`. -/
structure ProfileRow where
  userId : String
  privacy : Privacy
deriving DecidableEq, Repr

/--
The user database.  User names are unique and well formed, and the row of
`everyone` is always there.
-/
structure Database where
  users : Table User.id
  names_nodup : (users.rows.map User.name).Nodup
  names_allowed :
    ∀ u ∈ users.rows, u.name = everyone ∨ allowedUsername u.name = true
  everyone_row :
    ∃ u ∈ users.rows, u.id = everyoneID ∧ u.name = everyone
  access : Table AccessRow.key
  topicMeta : Table TopicMeta.topic
  contacts : Table ContactRow.key
  profiles : Table ProfileRow.userId

namespace Database

/-- The database as it is created: the row of `everyone` and nothing else. -/
def initial : Database where
  users :=
    { rows := [⟨everyoneID, everyone, .anonymous, none, ⟨0, 0, 0⟩, false⟩]
      nodup := by decide }
  names_nodup := by decide
  names_allowed := by decide
  everyone_row := by decide
  access := .empty
  topicMeta := .empty
  contacts := .empty
  profiles := .empty

section Users

/-- `SELECT ... FROM user WHERE user = ?` -/
def user
    (db : Database)
    (username : String) : Option User :=
  db.users.rows.find? (fun u => decide (u.name = username))

/-- `SELECT id FROM user WHERE user = ?` -/
def userID
    (db : Database)
    (username : String) : Option String :=
  (db.user username).map User.id

/-- User names are unique. -/
theorem eq_of_name_eq
    {db : Database} {u v : User}
    (hu : u ∈ db.users) (hv : v ∈ db.users)
    (h : u.name = v.name) :
    u = v :=
  List.inj_on_of_nodup_map db.names_nodup hu hv h

theorem user_eq_some_iff
    {db : Database} {username : String} {u : User} :
    db.user username = some u
      ↔
    u ∈ db.users ∧ u.name = username := by
  constructor
  · intro h
    exact ⟨List.mem_of_find?_eq_some h, by simpa using List.find?_some h⟩
  · rintro ⟨hu, rfl⟩
    cases h : db.user u.name with
    | none =>
        have := List.find?_eq_none.mp h u hu
        simp at this
    | some v =>
        have hv : v ∈ db.users := List.mem_of_find?_eq_some h
        have hname : v.name = u.name := by
          simpa using List.find?_some h
        rw [eq_of_name_eq hv hu hname]

theorem userID_eq_some_iff
    {db : Database} {username id : String} :
    db.userID username = some id
      ↔
    ∃ u ∈ db.users, u.name = username ∧ u.id = id := by
  simp only [userID, Option.map_eq_some_iff, user_eq_some_iff, and_assoc]

/-- Only `everyone` and well-formed names have an ID. -/
theorem name_of_userID
    {db : Database} {username id : String}
    (h : db.userID username = some id) :
    username = everyone ∨ allowedUsername username = true := by
  obtain ⟨u, hu, rfl, -⟩ := userID_eq_some_iff.mp h
  exact db.names_allowed u hu

/-- The row of `everyone` has the reserved ID. -/
theorem userID_everyone
    (db : Database) :
    db.userID everyone = some everyoneID := by
  obtain ⟨u, hu, hid, hname⟩ := db.everyone_row
  exact userID_eq_some_iff.mpr ⟨u, hu, hname, hid⟩

/-- Two databases with the same users. -/
theorem userID_congr
    {db db' : Database}
    (h : db'.users = db.users) :
    db'.userID = db.userID := by
  funext username
  simp [userID, user, h]

/-- Two names with one ID are the same name. -/
theorem userID_injective
    {db : Database} {a b id : String}
    (ha : db.userID a = some id)
    (hb : db.userID b = some id) :
    a = b := by
  obtain ⟨u, hu, rfl, hid⟩ := userID_eq_some_iff.mp ha
  obtain ⟨v, hv, rfl, hid'⟩ := userID_eq_some_iff.mp hb
  rw [Table.eq_of_key_eq hu hv (hid.trans hid'.symm)]

/-- Provisioned users cannot be changed. -/
def canChangeUser
    (db : Database)
    (username : String) : Except Error Unit :=
  match db.user username with
  | none => .error .userNotFound
  | some u =>
      if u.provisioned then
        .error .provisionedUserChange
      else
        .ok ()

/-- `DELETE FROM user WHERE user = ?`, for a name a user can have. -/
def deleteUser
    (db : Database)
    (username : String)
    (h : allowedUsername username = true) : Database where
  users := db.users.delete (fun u => decide (u.name = username))
  names_nodup :=
    db.names_nodup.sublist (List.filter_sublist.map User.name)
  names_allowed := by
    intro u hu
    exact db.names_allowed u (List.mem_of_mem_filter hu)
  everyone_row := by
    obtain ⟨u, hu, hid, hname⟩ := db.everyone_row
    refine ⟨u, ?_, hid, hname⟩
    have hne : u.name ≠ username := by
      rintro rfl
      rw [hname, not_allowedUsername_everyone] at h
      exact absurd h (by decide)
    simpa [Table.delete, hne] using hu
  access := db.access
  topicMeta := db.topicMeta
  contacts := db.contacts
  profiles := db.profiles

/-- What `ON DELETE CASCADE` removes together with a user ID. -/
def cascade
    (db : Database)
    (id : String) : Database :=
  { db with
    access :=
      db.access.delete
        (fun a => decide (a.userId = id ∨ a.ownerUserId = some id))
    contacts :=
      db.contacts.delete
        (fun c => decide (c.userId = id ∨ c.contactUserId = id))
    profiles :=
      db.profiles.delete (fun p => decide (p.userId = id)) }

/--
Deletes the user.  `foreignKeys` says whether the connection that runs the
statement has `PRAGMA foreign_keys` switched on.
-/
def removeUser
    (db : Database)
    (foreignKeys : Bool)
    (username : String) : Except Error Database :=
  match db.canChangeUser username with
  | .error e => .error e
  | .ok () =>
      if h : allowedUsername username = true then
        match db.userID username, foreignKeys with
        | some id, true => .ok ((db.deleteUser username h).cascade id)
        | _, _ => .ok (db.deleteUser username h)
      else
        .error .invalidArgument

/-- `UPDATE user SET role = ? WHERE user = ?` -/
def updateUserRole
    (db : Database)
    (username : String)
    (role : Role) : Database where
  users :=
    db.users.modify
      (fun u => if u.name = username then { u with role } else u)
      (by intro u; split <;> rfl)
  names_nodup := by
    have hname :
        User.name ∘ (fun u : User =>
          if u.name = username then { u with role } else u) = User.name := by
      funext u
      simp only [Function.comp_apply]
      split <;> rfl
    rw [Table.modify, List.map_map, hname]
    exact db.names_nodup
  names_allowed := by
    intro u hu
    obtain ⟨v, hv, rfl⟩ := List.mem_map.mp hu
    have hname := db.names_allowed v hv
    split <;> exact hname
  everyone_row := by
    obtain ⟨u, hu, hid, hname⟩ := db.everyone_row
    exact ⟨_, List.mem_map_of_mem hu, by split <;> exact hid,
      by split <;> exact hname⟩
  access := db.access
  topicMeta := db.topicMeta
  contacts := db.contacts
  profiles := db.profiles

end Users

section Access

/-- Insert or overwrite an access entry; `owner` empty means no owner. -/
def upsertUserAccess
    (db : Database)
    (username : String)
    (topic : StoredPattern)
    (read write : Bool)
    (owner : String)
    (provisioned : Bool) : Except Error Database :=
  match db.userID username with
  | none => .error .database
  | some id =>
      let ownerUserId := if owner = "" then none else db.userID owner
      .ok
        { db with
          access :=
            db.access.upsert
              { userId := id, topic, read, write, ownerUserId, provisioned }
              (fun a => { a with read, write, ownerUserId, provisioned })
              (fun _ => rfl) }

/-- The entries after a grant, up to their order. -/
theorem perm_access_upsertUserAccess
    {db db' : Database} {username owner id : String}
    {topic : StoredPattern} {read write provisioned : Bool}
    (hid : db.userID username = some id)
    (h : db.upsertUserAccess username topic read write owner provisioned =
      .ok db') :
    db'.users = db.users ∧ db'.topicMeta = db.topicMeta ∧
      db'.access.rows.Perm
        (⟨id, topic, read, write,
            if owner = "" then none else db.userID owner, provisioned⟩ ::
          db.access.rows.filter
            (fun a => decide (a.key ≠ (id, topic)))) := by
  simp only [upsertUserAccess, hid, Except.ok.injEq] at h
  subst h
  refine ⟨rfl, rfl, Table.perm_upsert ?_ ?_⟩
  · exact fun _ => rfl
  · rintro ⟨userId, topic', _, _, _, _⟩ hkey
    simp only [AccessRow.key, Prod.mk.injEq] at hkey
    obtain ⟨rfl, rfl⟩ := hkey
    rfl

/-- A grant adds or overwrites one entry and keeps all others. -/
theorem mem_access_upsertUserAccess
    {db db' : Database} {username owner id : String}
    {topic : StoredPattern} {read write provisioned : Bool}
    (hid : db.userID username = some id)
    (h : db.upsertUserAccess username topic read write owner provisioned =
      .ok db')
    (a : AccessRow) :
    a ∈ db'.access
      ↔
    a = ⟨id, topic, read, write,
        if owner = "" then none else db.userID owner, provisioned⟩ ∨
      (a ∈ db.access ∧ a.key ≠ (id, topic)) := by
  have hperm := (perm_access_upsertUserAccess hid h).2.2
  rw [Table.mem_def, hperm.mem_iff]
  simp [Table.mem_def]

/-- A grant needs an existing user, and nothing else. -/
theorem upsertUserAccess_eq_ok_iff
    {db : Database} {username owner : String}
    {topic : StoredPattern} {read write provisioned : Bool} :
    (∃ db',
      db.upsertUserAccess username topic read write owner provisioned =
        .ok db')
      ↔
    (db.userID username).isSome := by
  unfold upsertUserAccess
  cases db.userID username <;> simp

/-- Adds or updates an access entry without owner. -/
def allowAccess
    (db : Database)
    (username topicPattern : String)
    (permission : Permission) : Except Error Database :=
  if !allowedUsername username && decide (username ≠ everyone) then
    .error .invalidArgument
  else if h : allowedTopicPattern topicPattern = true then
    db.upsertUserAccess username (.ofPattern topicPattern h)
      permission.isRead permission.isWrite "" false
  else
    .error .invalidArgument

/-- A grant that succeeds writes one entry without owner, and nothing else. -/
theorem allowAccess_eq_ok
    {db db' : Database} {username topicPattern : String}
    {permission : Permission}
    (h : db.allowAccess username topicPattern permission = .ok db') :
    ∃ id, ∃ hp : allowedTopicPattern topicPattern = true,
      db.userID username = some id ∧
      db'.users = db.users ∧ db'.topicMeta = db.topicMeta ∧
      ∀ a, a ∈ db'.access ↔
        a = ⟨id, .ofPattern topicPattern hp, permission.isRead,
          permission.isWrite, none, false⟩ ∨
        (a ∈ db.access ∧ a.key ≠ (id, .ofPattern topicPattern hp)) := by
  unfold allowAccess at h
  split at h
  · cases h
  · split at h
    case isFalse =>
      cases h
    case isTrue hp =>
      cases hid : db.userID username with
      | none =>
          simp [upsertUserAccess, hid] at h
      | some id =>
          refine ⟨id, hp, rfl, ?_, ?_, fun a => ?_⟩
          · simp only [upsertUserAccess, hid, Except.ok.injEq] at h
            rw [← h]
          · simp only [upsertUserAccess, hid, Except.ok.injEq] at h
            rw [← h]
          · simpa using mem_access_upsertUserAccess hid h a

/-- A grant goes through for an existing user and a valid pattern. -/
theorem allowAccess_isOk_iff
    {db : Database} {username topicPattern : String}
    {permission : Permission} :
    (∃ db', db.allowAccess username topicPattern permission = .ok db')
      ↔
    (db.userID username).isSome ∧ allowedTopicPattern topicPattern = true := by
  constructor
  · rintro ⟨db', h⟩
    obtain ⟨id, hp, hid, -⟩ := allowAccess_eq_ok h
    exact ⟨by rw [hid]; rfl, hp⟩
  · rintro ⟨hsome, hp⟩
    obtain ⟨id, hid⟩ := Option.isSome_iff_exists.mp hsome
    have hname :
        (!allowedUsername username && decide (username ≠ everyone)) =
          false := by
      rcases name_of_userID hid with heveryone | hallowed
      · simp [heveryone]
      · simp [hallowed]
    simp only [allowAccess, hname, Bool.false_eq_true, if_false, hp, dif_pos]
    exact upsertUserAccess_eq_ok_iff.mpr hsome

/-- `DELETE FROM user_access WHERE user_id = ... OR owner_user_id = ...` -/
def deleteUserAccess
    (db : Database)
    (username : String) : Database :=
  { db with
    access :=
      db.access.delete
        (fun a =>
          (db.userID username).any
            (fun id => decide (a.userId = id ∨ a.ownerUserId = some id))) }

/-- The same, for one stored pattern. -/
def deleteTopicAccess
    (db : Database)
    (username : String)
    (topic : String) : Database :=
  { db with
    access :=
      db.access.delete
        (fun a =>
          (db.userID username).any
            (fun id => decide (a.userId = id ∨ a.ownerUserId = some id)) &&
          decide (a.topic.1 = topic)) }

/--
Removes the entry of a user for a topic pattern, all entries of the user if the
pattern is empty, and all entries if the name is empty as well.
-/
def resetAccess
    (db : Database)
    (username topicPattern : String) : Except Error Database :=
  if !allowedUsername username && decide (username ≠ everyone) &&
      decide (username ≠ "") then
    .error .invalidArgument
  else if !allowedTopicPattern topicPattern &&
      decide (topicPattern ≠ "") then
    .error .invalidArgument
  else if username = "" ∧ topicPattern = "" then
    .ok { db with access := .empty }
  else if topicPattern = "" then
    .ok (db.deleteUserAccess username)
  else
    .ok (db.deleteTopicAccess username (toSQLWildcard topicPattern))

/-- Changes the role; a new admin loses all access entries. -/
def changeRole
    (db : Database)
    (username : String)
    (role : Role) : Except Error Database :=
  match db.canChangeUser username with
  | .error e => .error e
  | .ok () =>
      if !allowedUsername username || !allowedRole role then
        .error .invalidArgument
      else if role = .admin then
        .ok ((db.updateUserRole username role).deleteUserAccess username)
      else
        .ok (db.updateUserRole username role)

end Access

section Reservations

/-- A topic name as it is stored. -/
def storedTopic
    (topic : String)
    (h : allowedTopic topic = true) : StoredPattern :=
  .ofPattern topic (allowedTopicPattern_of_allowedTopic h)

@[simp] theorem storedTopic_val
    {topic : String}
    (h : allowedTopic topic = true) :
    (storedTopic topic h).1 = escapeUnderscore topic :=
  toSQLWildcard_of_allowedTopic h

/-- Is the topic free of entries that are not owned by the user? -/
def allowReservation
    (db : Database)
    (username topic : String) : Except Error Unit :=
  if (!allowedUsername username && decide (username ≠ everyone)) ||
      !allowedTopic topic then
    .error .invalidArgument
  else if db.access.rows.any (fun a =>
      (decide (a.topic.1 = escapeUnderscore topic) ||
        sqlLike '\\' (escapeUnderscore topic) a.topic.1) &&
      -- `owner_user_id != NULL` is not true when the user does not exist
      (a.ownerUserId.isNone ||
        (db.userID username).any
          (fun id => decide (a.ownerUserId ≠ some id)))) then
    .error .topicOwnedByOthers
  else
    .ok ()

/-- Creates the owner's entry and the entry of `everyone` for a topic. -/
def addReservation
    (db : Database)
    (username topic : String)
    (perm : Permission) : Except Error Database :=
  if !allowedUsername username || decide (username = everyone) then
    .error .invalidArgument
  else if h : allowedTopic topic = true then do
    let db' ← db.upsertUserAccess username (storedTopic topic h)
      true true username false
    db'.upsertUserAccess everyone (storedTopic topic h)
      perm.isRead perm.isWrite username false
  else
    .error .invalidArgument

/-- The number of topics reserved by the user. -/
def reservationsCount
    (db : Database)
    (username : String) : Nat :=
  db.access.rows.countP (fun a =>
    decide (a.ownerUserId = some a.userId) &&
      (db.userID username).any (fun id => decide (a.userId = id)))

/-- Is the topic reserved by the user? -/
def hasReservation
    (db : Database)
    (username topic : String) : Bool :=
  db.access.rows.any (fun a =>
    decide (a.ownerUserId = some a.userId) &&
      (db.userID username).any (fun id => decide (a.userId = id)) &&
      decide (a.topic.1 = escapeUnderscore topic))

end Reservations

section Meta

/-- The metadata of a topic. -/
def meta?
    (db : Database)
    (topic : String) : Option TopicMeta :=
  db.topicMeta.find? topic

/-- Creates the metadata, or updates all of it but its creator. -/
def setTopicMeta
    (db : Database)
    (m : TopicMeta) : Database :=
  { db with
    topicMeta :=
      db.topicMeta.upsert m
        (fun old => { m with topic := old.topic, createdBy := old.createdBy })
        (fun _ => rfl) }

/-- Metadata is never lost by a write of metadata. -/
theorem meta?_setTopicMeta_isSome
    {db : Database} {m : TopicMeta} {topic : String} :
    ((db.setTopicMeta m).meta? topic).isSome
      ↔
    topic = m.topic ∨ (db.meta? topic).isSome := by
  refine Table.find?_upsert_isSome ?_
  exact fun _ => rfl

end Meta

end Database

end Manager
end CoopMessenger
