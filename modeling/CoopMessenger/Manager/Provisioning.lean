import CoopMessenger.Library.Ranking
import CoopMessenger.Manager.Accounts

/-!
# Provisioning

`maybeProvisionUsersAccessAndTokens` of `user/manager.go`: the users, access entries
and tokens of the configuration file are written at startup, in one transaction.

`Established` says what a run is for.  That a run establishes it, in whatever order
the maps are iterated, is `provision_establishes`.
-/

namespace CoopMessenger
namespace Manager

open Library

namespace Database

/-- `UPDATE user SET provisioned = ? WHERE user = ?` -/
def updateUserProvisioned
    (db : Database)
    (username : String)
    (provisioned : Bool) : Database where
  users :=
    db.users.modify
      (fun u => if u.name = username then { u with provisioned } else u)
      (by intro u; split <;> rfl)
  names_nodup := by
    have hname :
        User.name ∘ (fun u : User =>
          if u.name = username then { u with provisioned } else u) =
            User.name := by
      funext u
      simp only [Function.comp_apply]
      split <;> rfl
    rw [Table.modify, List.map_map, hname]
    exact db.names_nodup
  names_allowed := by
    intro u hu
    obtain ⟨v, hv, rfl⟩ := List.mem_map.mp hu
    have hname := db.names_allowed v hv
    split <;> exact hname
  everyone_row := by
    obtain ⟨u, hu, hid, hname⟩ := db.everyone_row
    exact ⟨_, List.mem_map_of_mem hu, by split <;> exact hid,
      by split <;> exact hname⟩
  access := db.access
  topicMeta := db.topicMeta
  contacts := db.contacts
  profiles := db.profiles

theorem user_insertUser
    {db : Database} {u : User}
    (hname : allowedUsername u.name = true)
    (h : db.insertable u.id u.name)
    (username : String) :
    (db.insertUser u hname h).user username =
      if username = u.name then some u else db.user username := by
  simp only [user, insertUser, List.find?_append]
  split
  case isTrue heq =>
    subst heq
    have hnone : db.users.rows.find?
        (fun v => decide (v.name = u.name)) = none := h.1
    simp [hnone]
  case isFalse hne =>
    simp [Ne.symm hne]

/-- Adds or updates an access entry without owner. -/
def allowAccessTx
    (db : Database)
    (username topicPattern : String)
    (permission : Permission)
    (provisioned : Bool) : Except Error Database :=
  if !allowedUsername username && decide (username ≠ everyone) then
    .error .invalidArgument
  else if h : allowedTopicPattern topicPattern = true then
    db.upsertUserAccess username (.ofPattern topicPattern h)
      permission.isRead permission.isWrite "" provisioned
  else
    .error .invalidArgument

end Database

namespace Provisioning

section Model

/-- A row of `user_token`. -/
structure TokenRow where
  userId : String
  token : String
  label : String
  lastAccess : Int
  lastOrigin : String
  expires : Int
  provisioned : Bool
deriving DecidableEq, Repr

/-- The accounts and the tokens.  A unique index holds the values of tokens. -/
structure Store where
  accounts : Accounts
  tokens : Table TokenRow.token

/-- A user of the configuration. -/
structure ConfigUser where
  name : String
  hash : String
  role : Role
deriving DecidableEq, Repr

structure Grant where
  topicPattern : String
  permission : Permission
deriving DecidableEq, Repr

/-- A token of the configuration. -/
structure ConfigToken where
  value : String
  label : String
deriving DecidableEq, Repr

/-- The configuration; the entries of its maps in the order of their iteration. -/
structure Config where
  provisionEnabled : Bool
  users : List ConfigUser
  access : List (String × List Grant)
  tokens : List (String × List ConfigToken)

/-- The IDs that are drawn for new users, and the times at which tokens are created. -/
structure Draws where
  userID : String → String
  now : String → Int

inductive ProvisionError where
  | removeUser (username : String) (e : Error)
  | addUser (username : String) (e : Error)
  | changePassword (username : String) (e : Error)
  | changeRole (username : String) (e : Error)
  | accessNotProvisioned (username : String)
  | accessOfAdmin (username : String)
  | resetAccess (username topicPattern : String) (e : Error)
  | allowAccess (e : Error)
  | tokensNotProvisioned (username : String)
  | userMissing (username : String)
  | createToken (e : Error)
deriving DecidableEq, Repr

variable (b : Bcrypt)
variable (conf : Config)

/-- Deletes a user; rows of other tables go where foreign keys are enforced. -/
def removeUserTx
    (foreignKeys : Bool)
    (s : Store)
    (username : String) : Except Error Store :=
  if h : allowedUsername username = true then
    let db := s.accounts.db.deleteUser username h
    match s.accounts.db.userID username, foreignKeys with
    | some id, true =>
        .ok
          { accounts := { s.accounts with db := db.cascade id }
            tokens := s.tokens.delete (fun t => decide (t.userId = id)) }
    | _, _ => .ok { s with accounts := { s.accounts with db } }
  else
    .error .invalidArgument

/-- The row of a new user. -/
def newUser
    (id username : String)
    (role : Role)
    (provisioned : Bool) : User :=
  ⟨id, username, role, none, ⟨0, 0, 0⟩, provisioned⟩

theorem allowedUsername_of_and
    {username : String} {role : Role}
    (h : allowedUsername username = true ∧ allowedRole role = true) :
    allowedUsername username = true :=
  h.1

/-- Adds a user with this hash. -/
def addUserTx
    (s : Accounts)
    (id username hash : String)
    (role : Role)
    (provisioned : Bool) : Except Error Accounts :=
  if h : allowedUsername username = true ∧ allowedRole role = true then
    match validPasswordHash b hash with
    | .error e => .error e
    | .ok () =>
        if (s.db.user username).isSome then
          .error .userExists
        else if hfree : s.db.insertable id username then
          .ok
            { s with
              db :=
                s.db.insertUser (newUser id username role provisioned)
                  (allowedUsername_of_and h) hfree
              pass := Function.update s.pass id hash
              deleted := Function.update s.deleted id false }
        else
          .error .database
  else
    .error .invalidArgument

def changeProvisionedTx
    (s : Accounts)
    (username : String)
    (provisioned : Bool) : Accounts :=
  { s with db := s.db.updateUserProvisioned username provisioned }

/-- Sets the hash of a user. -/
def changePasswordTx
    (s : Accounts)
    (username hash : String) : Except Error Accounts :=
  match validPasswordHash b hash with
  | .error e => .error e
  | .ok () =>
      match s.db.userID username with
      | none => .ok s
      | some id => .ok { s with pass := Function.update s.pass id hash }

def changeRoleTx
    (s : Accounts)
    (username : String)
    (role : Role) : Except Error Accounts :=
  if !allowedUsername username || !allowedRole role then
    .error .invalidArgument
  else
    let db := s.db.updateUserRole username role
    .ok { s with db := if role = .admin then db.deleteUserAccess username else db }

/-- Is the user provisioned, but not in the configuration any more? -/
def isStale (u : User) : Bool :=
  decide (u.name ≠ everyone) && u.provisioned &&
    !decide (u.name ∈ conf.users.map ConfigUser.name)

/-- Removes users that are provisioned, but not in the configuration any more. -/
def removeStale
    (foreignKeys : Bool) :
    Store → List User → Except ProvisionError Store
  | s, [] => .ok s
  | s, u :: rest =>
      if isStale conf u then
        match removeUserTx foreignKeys s u.name with
        | .error e => .error (.removeUser u.name e)
        | .ok s' => removeStale foreignKeys s' rest
      else
        removeStale foreignKeys s rest

/-- Changes the hash of an existing user, if it is another one. -/
def updateHash
    (s₀ : Accounts)
    (existing : User)
    (u : ConfigUser)
    (s : Accounts) : Except ProvisionError Accounts :=
  if s₀.pass existing.id ≠ u.hash then
    (changePasswordTx b s u.name u.hash).mapError (.changePassword u.name)
  else
    .ok s

/-- Changes the role of an existing user, if it is another one. -/
def updateRole
    (existing : User)
    (u : ConfigUser)
    (s : Accounts) : Except ProvisionError Accounts :=
  if existing.role ≠ u.role then
    (changeRoleTx s u.name u.role).mapError (.changeRole u.name)
  else
    .ok s

/-- Brings an existing user in line with the configuration. -/
def updateExisting
    (s₀ : Accounts)
    (existing : User)
    (s : Accounts)
    (u : ConfigUser) : Except ProvisionError Accounts :=
  let s :=
    if !existing.provisioned then changeProvisionedTx s u.name true else s
  (updateHash b s₀ existing u s).bind (updateRole existing u)

/-- Adds or updates a user; `s₀` holds the users from before. -/
def provisionUser
    (draws : Draws)
    (s₀ s : Accounts)
    (u : ConfigUser) : Except ProvisionError Accounts :=
  if u.name = everyone then
    .ok s
  else
    match s₀.db.user u.name with
    | some existing => updateExisting b s₀ existing s u
    | none =>
        match addUserTx b s (draws.userID u.name) u.name u.hash u.role true with
        | .ok s' => .ok s'
        | .error e =>
            if e = .userExists then .ok s else .error (.addUser u.name e)

/-- Adds or updates the users of the configuration. -/
def provisionUsers
    (draws : Draws)
    (s₀ : Accounts) :
    Accounts → List ConfigUser → Except ProvisionError Accounts
  | s, [] => .ok s
  | s, u :: rest => do
      provisionUsers draws s₀ (← provisionUser b draws s₀ s u) rest

def maybeProvisionUsers
    (foreignKeys : Bool)
    (draws : Draws)
    (s : Store) : Except ProvisionError Store := do
  let s' ← removeStale conf foreignKeys s s.accounts.db.users.rows
  let accounts ← provisionUsers b draws s.accounts s'.accounts conf.users
  return { s' with accounts }

/-- Writes an access entry over what was there. -/
def provisionGrant
    (db : Database)
    (username : String)
    (g : Grant) : Except ProvisionError Database := do
  let db ← (db.resetAccess username g.topicPattern).mapError
    (.resetAccess username g.topicPattern)
  (db.allowAccessTx username g.topicPattern g.permission true).mapError
    .allowAccess

/-- Writes the access entries of a user. -/
def provisionGrants
    (username : String) :
    Database → List Grant → Except ProvisionError Database
  | db, [] => .ok db
  | db, g :: rest => do
      provisionGrants username (← provisionGrant db username g) rest

/-- May entries be written for this user? -/
def checkAccess (username : String) : Except ProvisionError Unit :=
  match conf.users.find? (fun u => decide (u.name = username)) with
  | none =>
      if username ≠ everyone then
        .error (.accessNotProvisioned username)
      else
        .ok ()
  | some u =>
      if u.role = .admin then .error (.accessOfAdmin username) else .ok ()

/-- Writes the access entries of the configuration. -/
def provisionAccess :
    Database → List (String × List Grant) → Except ProvisionError Database
  | db, [] => .ok db
  | db, (username, grants) :: rest => do
      checkAccess conf username
      provisionAccess (← provisionGrants username db grants) rest

/-- Removes all provisioned entries, and adds those of the configuration. -/
def maybeProvisionGrants
    (db : Database) : Except ProvisionError Database :=
  provisionAccess conf
    { db with access := db.access.delete AccessRow.provisioned }
    conf.access

/-- `upsertTokenQuery`; fails if another user has the token. -/
def upsertToken
    (T : Table TokenRow.token)
    (t : TokenRow) : Except Error (Table TokenRow.token) :=
  match T.find? t.token with
  | none => .ok (T.upsert t id (fun _ => rfl))
  | some r =>
      if r.userId = t.userId then
        .ok
          (T.modify
            (fun r =>
              if r.token = t.token then
                { r with
                  label := t.label
                  expires := t.expires
                  provisioned := t.provisioned }
              else
                r)
            (by intro r; split <;> rfl))
      else
        .error .database

def tokenMaxCount : Nat := 60

/-- The tokens of a user, those that expire last first. -/
def tokensByExpiry
    (T : Table TokenRow.token)
    (userID : String) : List TokenRow :=
  orderByDesc TokenRow.expires
    (T.rows.filter (fun t => decide (t.userId = userID)))

/-- Deletes all but the tokens that expire last. -/
def deleteExcessTokens
    (T : Table TokenRow.token)
    (userID : String) : Table TokenRow.token :=
  let kept := ((tokensByExpiry T userID).take tokenMaxCount).map TokenRow.token
  T.delete (fun t => decide (t.userId = userID) && !decide (t.token ∈ kept))

/-- Creates a token, and prunes the tokens of the user if there are too many. -/
def createTokenTx
    (T : Table TokenRow.token)
    (t : TokenRow) : Except Error (Table TokenRow.token) := do
  let T ← upsertToken T t
  if T.rows.countP (fun r => decide (r.userId = t.userId)) ≥ tokenMaxCount then
    return deleteExcessTokens T t.userId
  else
    return T

/-- The row of a provisioned token. -/
def tokenRow
    (draws : Draws)
    (userID : String)
    (t : ConfigToken) : TokenRow :=
  ⟨userID, t.value, t.label, draws.now t.value, "0.0.0.0", 0, true⟩

/-- Creates the tokens of a user. -/
def createTokens
    (draws : Draws)
    (userID : String) :
    Table TokenRow.token → List ConfigToken →
      Except ProvisionError (Table TokenRow.token)
  | T, [] => .ok T
  | T, t :: rest => do
      let T ← (createTokenTx T (tokenRow draws userID t)).mapError .createToken
      createTokens draws userID T rest

/-- Creates the tokens of the configuration. -/
def provisionTokens
    (draws : Draws)
    (db : Database) :
    Table TokenRow.token → List (String × List ConfigToken) →
      Except ProvisionError (Table TokenRow.token)
  | T, [] => .ok T
  | T, (username, tokens) :: rest => do
      if username ∉ conf.users.map ConfigUser.name ∧ username ≠ everyone then
        throw (.tokensNotProvisioned username)
      match db.userID username with
      | none => throw (.userMissing username)
      | some userID =>
          let T ← createTokens draws userID T tokens
          provisionTokens draws db T rest

/-- The values of all tokens of the configuration. -/
def Config.tokenValues : List String :=
  conf.tokens.flatMap (fun p => p.2.map ConfigToken.value)

/--
Removes tokens that are provisioned, but not in the configuration any more, and
creates those of the configuration.  The provisioned tokens are read outside of the
transaction, from `T₀`.
-/
def maybeProvisionTokens
    (draws : Draws)
    (db : Database)
    (T₀ T : Table TokenRow.token) :
    Except ProvisionError (Table TokenRow.token) :=
  let stale := (T₀.rows.filter (fun t =>
    t.provisioned && !decide (t.token ∈ conf.tokenValues))).map TokenRow.token
  provisionTokens conf draws db (T.delete (fun t => decide (t.token ∈ stale)))
    conf.tokens

/-- Provisions users, access entries and tokens. -/
def provision
    (foreignKeys : Bool)
    (draws : Draws)
    (s : Store) : Except ProvisionError Store :=
  if !conf.provisionEnabled then
    .ok s
  else do
    let s' ← maybeProvisionUsers b conf foreignKeys draws s
    let db ← maybeProvisionGrants conf s'.accounts.db
    let tokens ← maybeProvisionTokens conf draws db s.tokens s'.tokens
    return ⟨{ s'.accounts with db }, tokens⟩

end Model

section Spec

variable (b : Bcrypt)
variable (conf : Config)

/-- The entries of the configuration with the names of their users. -/
def Config.grants : List (String × Grant) :=
  conf.access.flatMap (fun p => p.2.map (fun g => (p.1, g)))

/-- The tokens of the configuration with the names of their users. -/
def Config.tokenList : List (String × ConfigToken) :=
  conf.tokens.flatMap (fun p => p.2.map (fun t => (p.1, t)))

/--
A valid configuration: well-formed users, entries for regular users and for
everyone, tokens for users; nothing is listed twice.
-/
structure Valid : Prop where
  enabled : conf.provisionEnabled = true
  names : (conf.users.map ConfigUser.name).Nodup
  users :
    ∀ u ∈ conf.users, allowedUsername u.name = true ∧
      allowedRole u.role = true ∧ validPasswordHash b u.hash = .ok ()
  accessUsers :
    ∀ p ∈ conf.access, p.1 = everyone ∨
      ∃ u ∈ conf.users, u.name = p.1 ∧ u.role ≠ .admin
  patterns : ∀ p ∈ conf.grants, allowedTopicPattern p.2.topicPattern = true
  grants : (conf.grants.map (fun p => (p.1, p.2.topicPattern))).Nodup
  tokenUsers :
    ∀ p ∈ conf.tokens, p.1 = everyone ∨ ∃ u ∈ conf.users, u.name = p.1
  tokens : (conf.tokenList.map (fun p => p.2.value)).Nodup

/-- The ID of a user after a run. -/
def userIDFor
    (draws : Draws)
    (s : Store)
    (username : String) : String :=
  (s.accounts.db.userID username).getD (draws.userID username)

/-- Is the token one of the user, neither provisioned nor in the configuration? -/
def isOther
    (userID : String)
    (t : TokenRow) : Bool :=
  decide (t.userId = userID) && !t.provisioned &&
    !decide (t.token ∈ conf.tokenValues)

/-- The tokens of a user that do not come from a configuration. -/
def otherTokens
    (draws : Draws)
    (s : Store)
    (username : String) : List TokenRow :=
  s.tokens.rows.filter (isOther conf (userIDFor draws s username))

/-- The tokens that the configuration lists for a user. -/
def listedTokens (username : String) : List (String × ConfigToken) :=
  conf.tokenList.filter (fun p => decide (p.1 = username))

/-- Does the row go with a user who is removed? -/
def GoesWithUser
    (foreignKeys : Bool)
    (s : Store)
    (t : TokenRow) : Prop :=
  foreignKeys = true ∧
    ∃ x ∈ s.accounts.db.users, isStale conf x = true ∧ x.id = t.userId

/--
The database can take the configuration: its users are not marked as deleted, the
drawn IDs are new, no token is that of another user who stays, and no user has more
tokens than are kept.
-/
structure Applicable
    (foreignKeys : Bool)
    (draws : Draws)
    (s : Store) : Prop where
  active :
    ∀ u ∈ conf.users, ∀ id, s.accounts.db.userID u.name = some id →
      s.accounts.deleted id = false
  fresh :
    ∀ u ∈ conf.users, s.accounts.db.userID u.name = none →
      (∀ x ∈ s.accounts.db.users, x.id ≠ draws.userID u.name) ∧
      ∀ v ∈ conf.users, s.accounts.db.userID v.name = none →
        draws.userID v.name = draws.userID u.name → v = u
  free :
    ∀ p ∈ conf.tokenList, ∀ t ∈ s.tokens, t.token = p.2.value →
      t.userId = userIDFor draws s p.1 ∨ GoesWithUser conf foreignKeys s t
  limit :
    ∀ p ∈ conf.tokens,
      (otherTokens conf draws s p.1).length + (listedTokens conf p.1).length ≤
        tokenMaxCount

/-- The entry that a grant of the configuration is written as. -/
def IsGrantRow
    (db : Database)
    (p : String × Grant)
    (a : AccessRow) : Prop :=
  ∃ id, ∃ hp : allowedTopicPattern p.2.topicPattern = true,
    db.userID p.1 = some id ∧
      a = ⟨id, .ofPattern p.2.topicPattern hp, p.2.permission.isRead,
        p.2.permission.isWrite, none, true⟩

/-- The row that a token of the configuration is written as. -/
def IsTokenRow
    (db : Database)
    (p : String × ConfigToken)
    (t : TokenRow) : Prop :=
  db.userID p.1 = some t.userId ∧ t.token = p.2.value ∧ t.label = p.2.label ∧
    t.expires = 0 ∧ t.provisioned = true

/-- The database holds what the configuration says. -/
structure Established (s : Store) : Prop where
  users :
    ∀ u ∈ conf.users, ∃ x ∈ s.accounts.db.users,
      x.name = u.name ∧ x.role = u.role ∧ x.provisioned = true ∧
        s.accounts.pass x.id = u.hash ∧
          ∀ password, b.compareHashAndPassword u.hash password = true →
            s.accounts.authenticate b u.name password = .ok x
  gone :
    ∀ x ∈ s.accounts.db.users, x.provisioned = true →
      x.name = everyone ∨ x.name ∈ conf.users.map ConfigUser.name
  access :
    ∀ a, a ∈ s.accounts.db.access ∧ a.provisioned = true ↔
      ∃ p ∈ conf.grants, IsGrantRow s.accounts.db p a
  tokensListed :
    ∀ t ∈ s.tokens, t.provisioned = true →
      ∃ p ∈ conf.tokenList, IsTokenRow s.accounts.db p t
  tokensThere :
    ∀ p ∈ conf.tokenList, ∃ t ∈ s.tokens, IsTokenRow s.accounts.db p t

/-- The same rows, in whatever order. -/
structure SameStore (s s' : Store) : Prop where
  users : s'.accounts.db.users = s.accounts.db.users
  access : ∀ a, a ∈ s'.accounts.db.access ↔ a ∈ s.accounts.db.access
  topicMeta : s'.accounts.db.topicMeta = s.accounts.db.topicMeta
  contacts : s'.accounts.db.contacts = s.accounts.db.contacts
  profiles : s'.accounts.db.profiles = s.accounts.db.profiles
  pass : s'.accounts.pass = s.accounts.pass
  deleted : s'.accounts.deleted = s.accounts.deleted
  tiers : s'.accounts.tiers = s.accounts.tiers
  tokens : ∀ t, t ∈ s'.tokens ↔ t ∈ s.tokens

/-- The same configuration, with its maps iterated in another order. -/
structure SameMaps (conf conf' : Config) : Prop where
  enabled : conf'.provisionEnabled = conf.provisionEnabled
  users : conf'.users = conf.users
  access : conf'.access.Perm conf.access
  tokens : conf'.tokens.Perm conf.tokens

end Spec

end Provisioning
end Manager
end CoopMessenger
