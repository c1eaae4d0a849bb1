import CoopMessenger.Manager.UserManager

/-!
# Operations of the user manager

One label for every method of the manager, and the program that it executes.

**Results.**
* `common_prog`: all but a few methods execute only statements on tables and
  columns of the creation script, and delete no user.
-/

namespace CoopMessenger
namespace Manager
namespace UserDB

open Library Library.Sql

section Operations

/-- A method with its arguments, the times and the values that it draws. -/
inductive Operation where
  | authenticate (username password : String)
  | authenticateToken (token : String) (now : Int)
  | createToken
      (userID token label : String)
      (access : Int)
      (origin : String)
      (expires : Int)
      (provisioned : Bool)
  | tokens (userID : String)
  | token (userID token : String)
  | changeToken
      (userID value : String)
      (label : Option String)
      (expires : Option Int)
  | removeToken (userID value : String)
  | removeExpiredTokens (now : Int)
  | phoneNumbers (userID : String)
  | addPhoneNumber (userID phoneNumber : String)
  | removePhoneNumber (userID phoneNumber : String)
  | removeDeletedUsers (now : Int)
  | changeSettings (userID prefs : String)
  | resetStats
  | writeLastSeenQueue (queue : List (String × Int))
  | writeUserStatsQueue (queue : List (String × Stats))
  | writeTokenUpdateQueue (queue : List (String × Int × String))
  | authorize (u : Option User) (topic : String) (perm : Permission)
  | addUser
      (salt : Vector UInt8 16)
      (userID syncTopic : String)
      (now : Int)
      (username password : String)
      (role : Role)
      (hashed : Bool)
  | removeUser (username : String)
  | markUserRemoved (name id : String) (now : Int)
  | users
  | usersCount
  | user (username : String)
  | userByID (id : String)
  | userByStripeCustomer (stripeCustomerID : String)
  | allGrants
  | grants (username : String)
  | reservations (username : String)
  | hasReservation (username topic : String)
  | reservationsCount (username : String)
  | reservationOwner (topic : String)
  | changePassword
      (salt : Vector UInt8 16)
      (username password : String)
      (hashed : Bool)
  | changeRole (username : String) (role : Role)
  | changeTier (username code : String)
  | resetTier (username : String)
  | allowReservation (username topic : String)
  | allowAccess (username topicPattern : String) (permission : Permission)
  | resetAccess (username topicPattern : String)
  | addReservation (username topic : String) (permission : Permission)
  | removeReservations (username : String) (topics : List String)
  | addTier (drawnID id code : String) (t : TierData)
  | updateTier (code : String) (t : TierData)
  | removeTier (code : String)
  | changeBilling (username : String) (b : Billing)
  | tiers
  | tier (code : String)
  | tierByStripePrice (priceID : String)
  | profile (username : String)
  | profileByUserID (userID : String)
  | profilesByTopic (topic : String)
  | updateProfile (userID displayName bio : String)
  | updateProfileAvatar (userID avatarID : String)
  | profileAvatarID (userID : String)
  | updateProfileLastSeen (userID : String) (lastSeen : Int)
  | updateProfilePrivacy (username privacy : String)
  | profilePrivacy (username : String)
  | addContact (fromUsername toUsername status : String) (now : Int)
  | contacts (username status : String)
  | contactRequests (username : String)
  | contactStatus (fromUsername toUsername : String)
  | updateContactStatus
      (fromUsername toUsername status : String)
      (now : Int)
  | deleteContact (userA userB : String)
  | blockContact (fromUsername toUsername : String) (now : Int)
  | isBlocked (userA userB : String)
  | searchUsers (text excludeUser : String)
  | topicMeta (topic : String)
  | setTopicMeta
      (topic displayName description avatarID createdBy : String)
      (now : Int)
  | setDMTopicMeta (topic userA userB : String) (now : Int)
  | findDMTopic (userA userB : String)
  | dmTopics (username : String)

/-- A single row as an answer. -/
def single (p : Op (List Value)) : Op Answer := do
  return [← p]

/-- The program of a method. -/
def Operation.prog
    (conf : Config) : Operation → Op Answer
  | .authenticate username password =>
      single (UserDB.authenticate conf username password)
  | .authenticateToken value now =>
      single (UserDB.authenticateToken conf value now)
  | .createToken userID value label access origin expires provisioned =>
      UserDB.createToken userID value label access origin expires provisioned
  | .tokens userID => UserDB.tokens userID
  | .token userID value => single (UserDB.token userID value)
  | .changeToken userID value label expires =>
      single (UserDB.changeToken userID value label expires)
  | .removeToken userID value => UserDB.removeToken userID value
  | .removeExpiredTokens now => UserDB.removeExpiredTokens now
  | .phoneNumbers userID => UserDB.phoneNumbers userID
  | .addPhoneNumber userID phoneNumber =>
      UserDB.addPhoneNumber userID phoneNumber
  | .removePhoneNumber userID phoneNumber =>
      UserDB.removePhoneNumber userID phoneNumber
  | .removeDeletedUsers now => UserDB.removeDeletedUsers now
  | .changeSettings userID prefs => UserDB.changeSettings userID prefs
  | .resetStats => UserDB.resetStats
  | .writeLastSeenQueue queue => UserDB.writeLastSeenQueue queue
  | .writeUserStatsQueue queue => UserDB.writeUserStatsQueue queue
  | .writeTokenUpdateQueue queue => UserDB.writeTokenUpdateQueue queue
  | .authorize u topic perm => UserDB.authorize conf u topic perm
  | .addUser salt userID syncTopic now username password role hashed =>
      UserDB.addUser conf salt userID syncTopic now username password role
        hashed
  | .removeUser username => UserDB.removeUser conf username
  | .markUserRemoved name id now => UserDB.markUserRemoved name id now
  | .users => UserDB.users conf
  | .usersCount => UserDB.usersCount
  | .user username => single (UserDB.user conf username)
  | .userByID id => single (UserDB.userByID conf id)
  | .userByStripeCustomer stripeCustomerID =>
      single (UserDB.userByStripeCustomer conf stripeCustomerID)
  | .allGrants => UserDB.allGrants
  | .grants username => UserDB.grants username
  | .reservations username => UserDB.reservations username
  | .hasReservation username topic => UserDB.hasReservation username topic
  | .reservationsCount username => UserDB.reservationsCount username
  | .reservationOwner topic => UserDB.reservationOwner topic
  | .changePassword salt username password hashed =>
      UserDB.changePassword conf salt username password hashed
  | .changeRole username role => UserDB.changeRole conf username role
  | .changeTier username code => UserDB.changeTier conf username code
  | .resetTier username => UserDB.resetTier conf username
  | .allowReservation username topic => UserDB.allowReservation username topic
  | .allowAccess username topicPattern permission =>
      UserDB.allowAccess username topicPattern permission
  | .resetAccess username topicPattern =>
      UserDB.resetAccess username topicPattern
  | .addReservation username topic permission =>
      UserDB.addReservation username topic permission
  | .removeReservations username topics =>
      UserDB.removeReservations username topics
  | .addTier drawnID id code t => UserDB.addTier drawnID id code t
  | .updateTier code t => UserDB.updateTier code t
  | .removeTier code => UserDB.removeTier code
  | .changeBilling username b => UserDB.changeBilling username b
  | .tiers => UserDB.tiers
  | .tier code => single (UserDB.tier code)
  | .tierByStripePrice priceID => single (UserDB.tierByStripePrice priceID)
  | .profile username => UserDB.profile username
  | .profileByUserID userID => UserDB.profileByUserID userID
  | .profilesByTopic topic => UserDB.profilesByTopic topic
  | .updateProfile userID displayName bio =>
      UserDB.updateProfile userID displayName bio
  | .updateProfileAvatar userID avatarID =>
      UserDB.updateProfileAvatar userID avatarID
  | .profileAvatarID userID => UserDB.profileAvatarID userID
  | .updateProfileLastSeen userID lastSeen =>
      UserDB.updateProfileLastSeen userID lastSeen
  | .updateProfilePrivacy username privacy =>
      UserDB.updateProfilePrivacy username privacy
  | .profilePrivacy username => UserDB.profilePrivacy username
  | .addContact fromUsername toUsername status now =>
      UserDB.addContact fromUsername toUsername status now
  | .contacts username status => UserDB.contacts username status
  | .contactRequests username => UserDB.contactRequests username
  | .contactStatus fromUsername toUsername =>
      UserDB.contactStatus fromUsername toUsername
  | .updateContactStatus fromUsername toUsername status now =>
      UserDB.updateContactStatus fromUsername toUsername status now
  | .deleteContact userA userB => UserDB.deleteContact userA userB
  | .blockContact fromUsername toUsername now =>
      UserDB.blockContact fromUsername toUsername now
  | .isBlocked userA userB => UserDB.isBlocked userA userB
  | .searchUsers text excludeUser => UserDB.searchUsers text excludeUser
  | .topicMeta topic => UserDB.topicMeta topic
  | .setTopicMeta topic displayName description avatarID createdBy now =>
      UserDB.setTopicMeta topic displayName description avatarID createdBy now
  | .setDMTopicMeta topic userA userB now =>
      UserDB.setDMTopicMeta topic userA userB now
  | .findDMTopic userA userB => UserDB.findDMTopic userA userB
  | .dmTopics username => UserDB.dmTopics username

/-- Does the method use a table or a column that only migrations create? -/
def Operation.needsMigration : Operation → Bool
  | .profile _ => true
  | .profileByUserID _ => true
  | .updateProfilePrivacy _ privacy => validPrivacy privacy
  | .profilePrivacy _ => true
  | .addContact _ _ _ _ => true
  | .contacts _ _ => true
  | .contactRequests _ => true
  | .contactStatus _ _ => true
  | .updateContactStatus _ _ _ _ => true
  | .deleteContact _ _ => true
  | .blockContact _ _ _ => true
  | .isBlocked _ _ => true
  | .topicMeta _ => true
  | .setTopicMeta _ _ _ _ _ _ => true
  | .setDMTopicMeta _ _ _ _ => true
  | .findDMTopic _ _ => true
  | .dmTopics _ => true
  | _ => false

/-- Does the method write phone numbers? -/
def Operation.writesPhones : Operation → Bool
  | .addPhoneNumber _ _ => true
  | .removePhoneNumber _ _ => true
  | _ => false

/-- Does the method delete users? -/
def Operation.deletesUsers : Operation → Bool
  | .removeUser _ => true
  | .removeDeletedUsers _ => true
  | _ => false

end Operations

section Runs

variable {α β : Type}
variable {S : Schema TableName ColumnName IndexName}

/-- The default limit of nested cascades. -/
def maxTriggerDepth : Nat := 1000

/-- A pooled connection; whether foreign keys are enforced is its own setting. -/
def pooled (enforced : Bool) : Connection :=
  ⟨enforced, maxTriggerDepth⟩

/-- An operation on a connection, on the rows of a database with this schema. -/
def Operation.apply
    (conf : Config)
    (enforced : Bool)
    (S : Schema TableName ColumnName IndexName)
    (op : Operation)
    (C : Records) : Except OpError Answer × Records :=
  let r := Prog.run (pooled enforced) S (op.prog conf).run ⟨C, none⟩
  (r.1, r.2.content)

/-- The second program runs if the first one succeeds. -/
theorem run_op_bind
    (conn : Connection) (p : Op α) (f : α → Op β)
    (s : Session TableName ColumnName) :
    Prog.run conn S (p >>= f).run s =
      match Prog.run conn S p.run s with
      | (.error e, s') => (.error e, s')
      | (.ok a, s') => Prog.run conn S (f a).run s' := by
  change Prog.run conn S (Prog.bind p.run _) s = _
  rw [run_bind]
  generalize Prog.run conn S p.run s = r
  obtain ⟨x, s'⟩ := r
  cases x <;> rfl

/-- One statement. -/
theorem run_queryOr
    (conn : Connection) (onError : Failure → OpError) (q : Query)
    (args : List Value) (s : Session TableName ColumnName) :
    Prog.run conn S (queryOr onError q args).run s =
      match exec conn S q (fun i => args.getD i .null) s.content with
      | .error e => (.error (onError e), s)
      | .ok (answer, C) => (.ok answer, { s with content := C }) := by
  change Prog.run conn S (.exec q args _) s = _
  rw [Prog.run]
  generalize exec conn S q (fun i => args.getD i .null) s.content = r
  cases r <;> rfl

/-- An operation, and whether foreign keys are enforced on its connection. -/
abbrev Label := Bool × Operation

/-- Performs operations one after another. -/
def performAll
    (conf : Config)
    (S : Schema TableName ColumnName IndexName)
    (C : Records)
    (ls : List Label) : Records :=
  ls.foldl (fun C l => (l.2.apply conf l.1 S C).2) C

theorem run_exec'
    (conn : Connection) (q : Query) (args : List Value)
    (s : Session TableName ColumnName) :
    Prog.run conn S (exec' q args).run s =
      match exec conn S q (fun i => args.getD i .null) s.content with
      | .error e => (.error (.sql e), s)
      | .ok (_, C) => (.ok [], { s with content := C }) := by
  unfold exec' query
  rw [run_op_bind, run_queryOr]
  generalize exec conn S q (fun i => args.getD i .null) s.content = r
  cases r <;> rfl

/-- A transaction keeps what the program did, if it succeeds. -/
theorem run_execTx
    (conn : Connection) (p : Op α) (s : Session TableName ColumnName) :
    Prog.run conn S (execTx p).run s =
      match Prog.run conn S p.run ⟨s.content, some s.content⟩ with
      | (.error e, s') => (.error e, ⟨s'.saved.getD s'.content, none⟩)
      | (.ok a, s') => (.ok a, ⟨s'.content, none⟩) := by
  change Prog.run conn S (Prog.bind p.run _) ⟨s.content, some s.content⟩ = _
  rw [run_bind]
  generalize Prog.run conn S p.run ⟨s.content, some s.content⟩ = r
  obtain ⟨x, s'⟩ := r
  cases x <;> rfl

end Runs

section Uses

variable {α β : Type}
variable {P : Query → Prop}

/-- All statements that the program may execute meet the condition. -/
def UsesOnly
    (P : Query → Prop)
    (p : Op α) : Prop :=
  Prog.Uses P p.run

theorem UsesOnly.bind
    {p : Op α} {f : α → Op β}
    (hp : UsesOnly P p)
    (hf : ∀ a, UsesOnly P (f a)) :
    UsesOnly P (p >>= f) := by
  refine Prog.Uses.bind hp fun r => ?_
  cases r with
  | error e =>
      exact trivial
  | ok a =>
      exact hf a

@[simp] theorem usesOnly_pure
    (a : α) :
    UsesOnly P (pure a : Op α) := by
  exact trivial

@[simp] theorem usesOnly_result
    (x : Except OpError α) :
    UsesOnly P (result x) := by
  exact trivial

@[simp] theorem usesOnly_fail
    (e : Manager.Error) :
    UsesOnly P (fail e : Op α) := by
  exact trivial

@[simp] theorem usesOnly_queryOr
    {onError : Failure → OpError} {q : Query} {args : List Value} :
    UsesOnly P (queryOr onError q args) ↔ P q := by
  exact ⟨fun h => h.1, fun h => ⟨h, fun _ => trivial⟩⟩

@[simp] theorem usesOnly_query
    {q : Query} {args : List Value} :
    UsesOnly P (query q args) ↔ P q := by
  exact usesOnly_queryOr

theorem UsesOnly.map
    {p : Op α} {f : α → β}
    (hp : UsesOnly P p) :
    UsesOnly P (p >>= fun a => pure (f a)) := by
  exact hp.bind fun _ => usesOnly_pure _

theorem UsesOnly.execTx
    {p : Op α}
    (hp : UsesOnly P p) :
    UsesOnly P (execTx p) := by
  refine Prog.Uses.bind hp fun r => ?_
  cases r <;> exact trivial

theorem UsesOnly.handle
    {p : Op α} {f : Except OpError α → Except OpError β}
    (hp : UsesOnly P p) :
    UsesOnly P (handle p f) := by
  exact Prog.Uses.bind hp fun _ => trivial

theorem UsesOnly.exec'
    {q : Query} {args : List Value}
    (hq : P q) :
    UsesOnly P (exec' q args) := by
  exact (usesOnly_query.mpr hq).bind fun _ => usesOnly_pure _

theorem UsesOnly.execAll
    {q : Query} {rows : List (List Value)}
    (hq : P q) :
    UsesOnly P (execAll q rows) := by
  induction rows with
  | nil =>
      exact usesOnly_pure _
  | cons args rest ih =>
      exact (usesOnly_query.mpr hq).bind fun _ => ih

end Uses

section Common

/-- The columns of the creation script. -/
def createdColumns : TableName → List ColumnName :=
  freshDB.schema.columns

/-- The statements that do the same in every schema. -/
def commonQueries : List Query :=
  [selectUserByIDQuery, selectUserByNameQuery, selectUserByTokenQuery,
    selectUserByStripeCustomerIDQuery, insertUserQuery, selectUsernamesQuery,
    selectUserCountQuery, updateUserPassQuery, updateUserRoleQuery,
    updateUserPrefsQuery, updateUserStatsQuery, updateUserStatsResetAllQuery,
    updateUserDeletedQuery, selectTopicPermsQuery, upsertUserAccessQuery,
    selectUserAllAccessQuery, selectUserAccessQuery,
    selectUserReservationsQuery, selectUserReservationsCountQuery,
    selectUserReservationsOwnerQuery, selectUserHasReservationQuery,
    selectOtherAccessCountQuery, deleteAllAccessQuery, deleteUserAccessQuery,
    deleteTopicAccessQuery, selectTokenCountQuery, selectTokensQuery,
    selectTokenQuery, upsertTokenQuery, updateTokenExpiryQuery,
    updateTokenLabelQuery, updateTokenLastAccessQuery, deleteTokenQuery,
    deleteAllTokenQuery, deleteExpiredTokensQuery, deleteExcessTokensQuery,
    selectPhoneNumbersQuery, insertTierQuery, updateTierQuery,
    selectTiersQuery, selectTierByCodeQuery, selectTierByPriceIDQuery,
    updateUserTierQuery, deleteUserTierQuery, deleteTierQuery,
    updateBillingQuery, searchUsersQuery, selectProfilesByTopicQuery,
    upsertProfileQuery, updateProfileDisplayNameBioQuery,
    updateProfileAvatarQuery, updateProfileLastSeenQuery,
    selectProfileAvatarIDQuery]

theorem fits_common
    (o : Origin) (fk : Bool) :
    ∀ q ∈ commonQueries,
      Fits createdColumns fk freshDB.schema (migratedDB o).schema q := by
  cases o <;> cases fk <;> decide

end Common

section Methods

variable (conf : Config)

/-- The method executes only statements that do the same in every schema. -/
abbrev Common
    {α : Type}
    (p : Op α) : Prop :=
  UsesOnly (· ∈ commonQueries) p

theorem common_readUser
    (rows : Answer) :
    Common (readUser conf rows) := by
  unfold readUser
  cases rows with
  | nil =>
      exact usesOnly_fail _
  | cons row rest =>
      dsimp only
      split
      · exact usesOnly_pure _
      · exact usesOnly_result _

theorem common_user
    (username : String) :
    Common (user conf username) := by
  refine UsesOnly.bind (usesOnly_query.mpr ?_) (common_readUser conf)
  simp [commonQueries]

theorem common_authenticate
    (username password : String) :
    Common (authenticate conf username password) := by
  unfold authenticate
  split
  · exact usesOnly_fail _
  · exact (common_user conf username).handle

theorem common_authenticateToken
    (value : String) (now : Int) :
    Common (authenticateToken conf value now) := by
  unfold authenticateToken
  split
  · exact usesOnly_fail _
  · refine UsesOnly.handle (UsesOnly.bind (usesOnly_query.mpr ?_)
      (common_readUser conf))
    simp [commonQueries]

theorem common_readUsers
    (usernames : List Value) :
    Common (readUsers conf usernames) := by
  induction usernames with
  | nil =>
      exact usesOnly_pure _
  | cons username rest ih =>
      refine UsesOnly.bind (usesOnly_query.mpr ?_) fun rows => ?_
      · simp [commonQueries]
      · exact (common_readUser conf rows).bind fun u => ih.map

theorem common_users :
    Common (users conf) := by
  refine UsesOnly.bind (usesOnly_query.mpr ?_) fun rows =>
    common_readUsers conf _
  simp [commonQueries]

theorem common_canChangeUser
    (username : String) :
    Common (canChangeUser conf username) := by
  refine (common_user conf username).bind fun u => ?_
  split
  · exact usesOnly_fail _
  · exact usesOnly_pure _

theorem common_passValue
    (salt : Vector UInt8 16) (password : String) (hashed : Bool) :
    Common (passValue conf salt password hashed) := by
  unfold passValue
  split
  · exact usesOnly_fail _
  · exact usesOnly_pure _

theorem common_addUser
    (salt : Vector UInt8 16) (userID syncTopic : String) (now : Int)
    (username password : String) (role : Role) (hashed : Bool) :
    Common (addUser conf salt userID syncTopic now username password role
      hashed) := by
  refine UsesOnly.execTx ?_
  unfold addUserTx
  split
  · exact usesOnly_fail _
  · refine (common_passValue conf salt password hashed).bind fun hash => ?_
    refine UsesOnly.bind (usesOnly_queryOr.mpr ?_) fun _ => ?_
    · simp [commonQueries]
    · split
      · refine UsesOnly.exec' ?_
        simp [commonQueries]
      · exact usesOnly_pure _

theorem common_markUserRemoved
    (name id : String) (now : Int) :
    Common (markUserRemoved name id now) := by
  unfold markUserRemoved
  split
  · exact usesOnly_fail _
  · refine UsesOnly.execTx (UsesOnly.bind (usesOnly_query.mpr ?_) fun _ =>
      UsesOnly.bind (usesOnly_query.mpr ?_) fun _ => UsesOnly.exec' ?_)
    all_goals simp [commonQueries]

theorem common_queue
    {α : Type} {q : Query} {queue : List α} {f : α → List Value}
    (hq : q ∈ commonQueries) :
    Common (if queue.isEmpty then return []
      else execTx (execAll q (queue.map f))) := by
  split
  · exact usesOnly_pure _
  · exact (UsesOnly.execAll hq).execTx

theorem common_changePassword
    (salt : Vector UInt8 16) (username password : String) (hashed : Bool) :
    Common (changePassword conf salt username password hashed) := by
  refine (common_canChangeUser conf username).bind fun _ => UsesOnly.execTx ?_
  refine (common_passValue conf salt password hashed).bind fun hash => ?_
  refine UsesOnly.exec' ?_
  simp [commonQueries]

theorem common_changeRole
    (username : String) (role : Role) :
    Common (changeRole conf username role) := by
  refine (common_canChangeUser conf username).bind fun _ => UsesOnly.execTx ?_
  split
  · exact usesOnly_fail _
  · refine UsesOnly.bind (usesOnly_query.mpr ?_) fun _ => ?_
    · simp [commonQueries]
    · split
      · refine UsesOnly.exec' ?_
        simp [commonQueries]
      · exact usesOnly_pure _

theorem common_resolvePerms
    (base perm : Permission) :
    Common (resolvePerms base perm) := by
  unfold resolvePerms
  split
  · exact usesOnly_pure _
  · exact usesOnly_fail _

theorem common_authorize
    (u : Option User) (topic : String) (perm : Permission) :
    Common (authorize conf u topic perm) := by
  unfold authorize
  split
  · exact usesOnly_pure _
  · refine UsesOnly.bind (usesOnly_query.mpr ?_) fun rows => ?_
    · simp [commonQueries]
    · cases rows with
      | nil =>
          exact common_resolvePerms _ _
      | cons row rest =>
          exact common_resolvePerms _ _

/-- Methods that return what becomes of the rows. -/
theorem common_query_map
    {α : Type} {q : Query} {args : List Value} {f : Answer → α}
    (hq : q ∈ commonQueries) :
    Common (query q args >>= fun rows => pure (f rows)) := by
  exact (usesOnly_query.mpr hq).map

theorem common_firstValue
    {α : Type} {q : Query} {args : List Value} {f : Value → Op α}
    (hq : q ∈ commonQueries)
    (hf : ∀ v, Common (f v)) :
    Common (query q args >>= fun rows => result (firstValue rows) >>= f) := by
  exact (usesOnly_query.mpr hq).bind fun rows =>
    (usesOnly_result _).bind hf

theorem common_reservations
    (username : String) :
    Common (reservations username) := by
  refine common_query_map ?_
  simp [commonQueries]

theorem common_allowReservation
    (username topic : String) :
    Common (allowReservation username topic) := by
  unfold allowReservation
  split
  · exact usesOnly_fail _
  · refine common_firstValue (by simp [commonQueries]) fun n => ?_
    split
    · exact usesOnly_fail _
    · exact usesOnly_pure _

theorem common_allowAccess
    (username topicPattern : String) (permission : Permission) :
    Common (allowAccess username topicPattern permission) := by
  refine UsesOnly.execTx ?_
  split
  · exact usesOnly_fail _
  · split
    · exact usesOnly_fail _
    · refine UsesOnly.exec' ?_
      simp [commonQueries]

theorem common_resetAccess
    (username topicPattern : String) :
    Common (resetAccess username topicPattern) := by
  refine UsesOnly.execTx ?_
  split
  · exact usesOnly_fail _
  · split
    · exact usesOnly_fail _
    · split
      · exact UsesOnly.exec' (by simp [commonQueries])
      · split
        · exact UsesOnly.exec' (by simp [commonQueries])
        · exact UsesOnly.exec' (by simp [commonQueries])

theorem common_addReservation
    (username topic : String) (permission : Permission) :
    Common (addReservation username topic permission) := by
  have hq : upsertUserAccessQuery ∈ commonQueries := by
    simp [commonQueries]
  unfold addReservation
  split
  · exact usesOnly_fail _
  · exact ((usesOnly_query.mpr hq).bind fun _ => UsesOnly.exec' hq).execTx

theorem common_removeTopics
    (username : String) (topics : List String) :
    Common (removeTopics username topics) := by
  have hq : deleteTopicAccessQuery ∈ commonQueries := by
    simp [commonQueries]
  induction topics with
  | nil =>
      exact usesOnly_pure _
  | cons topic rest ih =>
      exact (usesOnly_query.mpr hq).bind fun _ =>
        (usesOnly_query.mpr hq).bind fun _ => ih

theorem common_removeReservations
    (username : String) (topics : List String) :
    Common (removeReservations username topics) := by
  unfold removeReservations
  split
  · exact usesOnly_fail _
  · split
    · exact usesOnly_fail _
    · exact (common_removeTopics username topics).execTx

theorem common_createToken
    (userID value label : String) (access : Int) (origin : String)
    (expires : Int) (provisioned : Bool) :
    Common (createToken userID value label access origin expires
      provisioned) := by
  refine UsesOnly.execTx (UsesOnly.bind (usesOnly_query.mpr ?_) fun _ => ?_)
  · simp [commonQueries]
  · refine common_firstValue (by simp [commonQueries]) fun n => ?_
    split
    · refine UsesOnly.bind (usesOnly_query.mpr ?_) fun _ => usesOnly_pure _
      simp [commonQueries]
    · exact usesOnly_pure _

theorem common_token
    (userID value : String) :
    Common (token userID value) := by
  refine UsesOnly.bind (usesOnly_query.mpr (by simp [commonQueries]))
    fun rows => ?_
  cases rows with
  | nil =>
      exact usesOnly_result _
  | cons row rest =>
      exact usesOnly_pure _

theorem common_canChangeToken
    (userID value : String) :
    Common (canChangeToken userID value) := by
  refine (common_token userID value).bind fun t => ?_
  split
  · exact usesOnly_result _
  · exact usesOnly_pure _

theorem common_changeToken
    (userID value : String) (label : Option String) (expires : Option Int) :
    Common (changeToken userID value label expires) := by
  unfold changeToken
  split
  · exact usesOnly_result _
  · refine (common_canChangeToken userID value).bind fun _ =>
      UsesOnly.bind (UsesOnly.execTx ?_) fun _ => common_token userID value
    have hexpires : ∀ e : Int, Common (do
        let _ ← query updateTokenExpiryQuery
          [.int e, .text userID, .text value]
        pure ()) := fun e => common_query_map (by simp [commonQueries])
    cases label with
    | none =>
        cases expires with
        | none =>
            exact usesOnly_pure _
        | some e =>
            exact hexpires e
    | some l =>
        refine UsesOnly.bind (usesOnly_query.mpr (by simp [commonQueries]))
          fun _ => ?_
        cases expires with
        | none =>
            exact usesOnly_pure _
        | some e =>
            exact hexpires e

theorem common_removeToken
    (userID value : String) :
    Common (removeToken userID value) := by
  refine (common_canChangeToken userID value).bind fun _ => UsesOnly.execTx ?_
  split
  · exact usesOnly_result _
  · refine UsesOnly.exec' ?_
    simp [commonQueries]

theorem common_readTier
    (rows : Answer) :
    Common (readTier rows) := by
  cases rows with
  | nil =>
      exact usesOnly_fail _
  | cons row rest =>
      exact usesOnly_pure _

theorem common_tier
    (code : String) :
    Common (tier code) := by
  exact UsesOnly.bind (usesOnly_query.mpr (by simp [commonQueries]))
    common_readTier

theorem common_checkReservationsLimit
    (username : String) (limit : Int) :
    Common (checkReservationsLimit conf username limit) := by
  refine (common_user conf username).bind fun u => ?_
  split
  · exact usesOnly_pure _
  · split
    · refine (common_reservations username).bind fun rows => ?_
      split
      · exact usesOnly_fail _
      · exact usesOnly_pure _
    · exact usesOnly_pure _

theorem common_changeTier
    (username code : String) :
    Common (changeTier conf username code) := by
  unfold changeTier
  split
  · exact usesOnly_fail _
  · refine (common_tier code).bind fun t => ?_
    have hexec : Common (exec' updateUserTierQuery
        [.text code, .text username]) :=
      UsesOnly.exec' (by simp [commonQueries])
    dsimp only
    split
    · exact (common_checkReservationsLimit conf username _).bind
        fun _ => hexec
    · exact (common_checkReservationsLimit conf username 0).bind
        fun _ => hexec

theorem common_resetTier
    (username : String) :
    Common (resetTier conf username) := by
  unfold resetTier
  split
  · exact usesOnly_fail _
  · refine (common_checkReservationsLimit conf username 0).bind fun _ => ?_
    refine UsesOnly.exec' ?_
    simp [commonQueries]

/-- The other methods do the same in every schema. -/
theorem common_prog
    {op : Operation}
    (hmigration : op.needsMigration = false)
    (hphones : op.writesPhones = false)
    (husers : op.deletesUsers = false) :
    Common (op.prog conf) := by
  cases op with
  | authenticate username password =>
      exact (common_authenticate conf username password).map
  | authenticateToken value now =>
      exact (common_authenticateToken conf value now).map
  | createToken =>
      exact common_createToken _ _ _ _ _ _ _
  | token userID value =>
      exact (common_token userID value).map
  | changeToken userID value label expires =>
      exact (common_changeToken userID value label expires).map
  | removeToken userID value =>
      exact common_removeToken userID value
  | addPhoneNumber =>
      cases hphones
  | removePhoneNumber =>
      cases hphones
  | removeDeletedUsers =>
      cases husers
  | removeUser =>
      cases husers
  | writeLastSeenQueue queue =>
      exact common_queue (by simp [commonQueries])
  | writeUserStatsQueue queue =>
      exact common_queue (by simp [commonQueries])
  | writeTokenUpdateQueue queue =>
      exact common_queue (by simp [commonQueries])
  | authorize u topic perm =>
      exact common_authorize conf u topic perm
  | addUser =>
      exact common_addUser conf _ _ _ _ _ _ _ _
  | markUserRemoved name id now =>
      exact common_markUserRemoved name id now
  | users =>
      exact common_users conf
  | usersCount =>
      exact common_firstValue (by simp [commonQueries])
        fun _ => usesOnly_pure _
  | user username =>
      exact (common_user conf username).map
  | userByID id =>
      exact ((usesOnly_query.mpr (by simp [commonQueries])).bind
        (common_readUser conf)).map
  | userByStripeCustomer stripeCustomerID =>
      exact ((usesOnly_query.mpr (by simp [commonQueries])).bind
        (common_readUser conf)).map
  | reservations username =>
      exact common_reservations username
  | hasReservation =>
      exact common_firstValue (by simp [commonQueries])
        fun _ => usesOnly_pure _
  | reservationsCount =>
      exact common_firstValue (by simp [commonQueries])
        fun _ => usesOnly_pure _
  | changePassword salt username password hashed =>
      exact common_changePassword conf salt username password hashed
  | changeRole username role =>
      exact common_changeRole conf username role
  | changeTier username code =>
      exact common_changeTier conf username code
  | resetTier username =>
      exact common_resetTier conf username
  | allowReservation username topic =>
      exact common_allowReservation username topic
  | allowAccess username topicPattern permission =>
      exact common_allowAccess username topicPattern permission
  | resetAccess username topicPattern =>
      exact common_resetAccess username topicPattern
  | addReservation username topic permission =>
      exact common_addReservation username topic permission
  | removeReservations username topics =>
      exact common_removeReservations username topics
  | removeTier code =>
      change Common (UserDB.removeTier code)
      unfold removeTier
      split
      · exact usesOnly_fail _
      · exact UsesOnly.exec' (by simp [commonQueries])
  | tier code =>
      exact (common_tier code).map
  | tierByStripePrice =>
      exact ((usesOnly_query.mpr (by simp [commonQueries])).bind
        common_readTier).map
  | updateProfilePrivacy username privacy =>
      change Common (UserDB.updateProfilePrivacy username privacy)
      unfold updateProfilePrivacy
      rw [if_pos (by simpa [Operation.needsMigration] using hmigration)]
      exact usesOnly_fail _
  | tokens | phoneNumbers | tiers | profilesByTopic | searchUsers =>
      exact usesOnly_query.mpr (by simp [commonQueries])
  | allGrants | grants | reservationOwner | profileAvatarID =>
      exact common_query_map (by simp [commonQueries])
  | removeExpiredTokens | changeSettings | resetStats | addTier |
      updateTier | changeBilling | updateProfile | updateProfileAvatar |
      updateProfileLastSeen =>
      exact UsesOnly.exec' (by simp [commonQueries])
  | profile | profileByUserID | profilePrivacy | addContact | contacts |
      contactRequests | contactStatus | updateContactStatus | deleteContact |
      blockContact | isBlocked | topicMeta | setTopicMeta | setDMTopicMeta |
      findDMTopic | dmTopics =>
      cases hmigration

end Methods

end UserDB
end Manager
end CoopMessenger
