import CoopMessenger.Library.Transactions
import CoopMessenger.Manager.Accounts
import CoopMessenger.Manager.UserQueries

/-!
# The user manager

The methods of `user/manager.go` that use its database, as programs of
statements.  A method returns the rows that it scans, with the values that it
changes; what is made of them does not touch the database.  Times and random
values are arguments.
-/

namespace CoopMessenger
namespace Manager
namespace UserDB

open Library Library.Sql

section Programs

/-- Errors of the manager and of the database. -/
inductive OpError where
  | manager (e : Manager.Error)
  | tokenNotFound
  | noTokenProvided
  | provisionedTokenChange
  | phoneNumberExists
  | noRows
  | unmarshal
  | sql (e : Failure)
deriving DecidableEq, Repr

abbrev Program := Prog TableName ColumnName IndexName

abbrev Op := ExceptT OpError Program

/-- A result that takes no statement. -/
def result
    {α : Type}
    (x : Except OpError α) : Op α :=
  .mk (.ret x)

def fail
    {α : Type}
    (e : Manager.Error) : Op α :=
  result (.error (.manager e))

/-- Executes a statement; `onError` makes an error of the one of the database. -/
def queryOr
    (onError : Failure → OpError)
    (q : Query)
    (args : List Value) : Op Answer :=
  .mk (.exec q args (fun r => .ret (r.mapError onError)))

/-- Executes a statement and returns its error as it is. -/
def query
    (q : Query)
    (args : List Value) : Op Answer :=
  queryOr .sql q args

/-- Executes a statement that returns nothing. -/
def exec'
    (q : Query)
    (args : List Value) : Op Answer := do
  let _ ← query q args
  return []

/-- Runs a program in a transaction, which is rolled back if it fails. -/
def execTx
    {α : Type}
    (p : Op α) : Op α :=
  .mk (.begin (p.run.bind (fun r =>
    match r with
    | .error e => .rollback (.ret (.error e))
    | .ok a => .commit (.ret (.ok a)))))

/-- Goes on with the result or with the error. -/
def handle
    {α β : Type}
    (p : Op α)
    (f : Except OpError α → Except OpError β) : Op β :=
  .mk (p.run.bind (fun r => .ret (f r)))

/-- Executes a statement for every list of arguments. -/
def execAll
    (q : Query) : List (List Value) → Op Answer
  | [] => return []
  | args :: rest => do
      let _ ← query q args
      execAll q rest

def bool (b : Bool) : Value :=
  .int (if b then 1 else 0)

def truth (v : Value) : Bool :=
  decide (v ≠ .int 0)

/-- The first value of the first row. -/
def firstValue (rows : Answer) : Except OpError Value :=
  match rows with
  | [] => .error .noRows
  | row :: _ => .ok (row.getD 0 .null)

/-- `sql.NullString` -/
def nullString (s : String) : Value :=
  if s = "" then .null else .text s

/-- `sql.NullInt64` -/
def nullInt64 (v : Int) : Value :=
  if v = 0 then .null else .int v

/-- The name of a role. -/
def roleText : Role → String
  | .admin => "admin"
  | .user => "user"
  | .anonymous => "anonymous"

/--
The configuration: the default permission, and package `bcrypt` and the parser of
settings that the methods call.
-/
structure Config where
  defaultAccess : Permission
  bcrypt : Bcrypt
  unmarshalPrefs : Value → Bool

end Programs

variable (conf : Config)

section Users

/-- The first user of the rows. -/
def readUser (rows : Answer) : Op (List Value) :=
  match rows with
  | [] => fail .userNotFound
  | row :: _ =>
      if conf.unmarshalPrefs (row.getD 4 .null) then
        return row
      else
        result (.error .unmarshal)

/-- Is the user one of the configuration file? -/
def isProvisioned (u : List Value) : Bool :=
  truth (u.getD 6 .null)

/-- Is the user marked as deleted? -/
def isDeleted (u : List Value) : Bool :=
  decide (u.getD 16 .null ≠ .null)

/-- The reservation limit of the user's tier, if it has one. -/
def reservationLimit (u : List Value) : Option Int :=
  if u.getD 18 .null = .null then
    none
  else
    match u.getD 24 .null with
    | .int n => some n
    | _ => some 0

def user (username : String) : Op (List Value) := do
  readUser conf (← query selectUserByNameQuery [.text username])

def userByID (id : String) : Op (List Value) := do
  readUser conf (← query selectUserByIDQuery [.text id])

def userByStripeCustomer (stripeCustomerID : String) : Op (List Value) := do
  readUser conf
    (← query selectUserByStripeCustomerIDQuery [.text stripeCustomerID])

def authenticate (username password : String) : Op (List Value) :=
  if username = everyone then
    fail .unauthenticated
  else
    handle (user conf username) (fun r =>
      match r with
      | .error _ => .error (.manager .unauthenticated)
      | .ok u =>
          match u.getD 2 .null with
          | .text hash =>
              if isDeleted u ||
                  !conf.bcrypt.compareHashAndPassword hash password then
                .error (.manager .unauthenticated)
              else
                .ok u
          | _ => .error (.manager .unauthenticated))

def tokenLength : Nat := 32

def authenticateToken
    (token : String)
    (now : Int) : Op (List Value) :=
  if token.utf8ByteSize ≠ tokenLength then
    fail .unauthenticated
  else
    handle
      (do readUser conf
            (← query selectUserByTokenQuery [.text token, .int now]))
      (fun r =>
        match r with
        | .error _ => .error (.manager .unauthenticated)
        | .ok u => .ok (u ++ [.text token]))

/-- Reads the users one after another. -/
def readUsers : List Value → Op Answer
  | [] => return []
  | username :: rest => do
      let u ← readUser conf (← query selectUserByNameQuery [username])
      return u :: (← readUsers rest)

def users : Op Answer := do
  let rows ← query selectUsernamesQuery []
  readUsers conf (rows.map (fun row => row.getD 0 .null))

def usersCount : Op Answer := do
  let n ← result (firstValue (← query selectUserCountQuery []))
  return [[n]]

/-- Users of the configuration file cannot be changed. -/
def canChangeUser (username : String) : Op Unit := do
  let u ← user conf username
  if isProvisioned u then fail .provisionedUserChange else return ()

/-- The column `pass` for a password or a hash. -/
def passValue
    (salt : Vector UInt8 16)
    (password : String)
    (hashed : Bool) : Op Value :=
  match passColumn conf.bcrypt salt password hashed with
  | .error e => fail e
  | .ok hash => return .text hash

/-- A name that is taken is reported as such. -/
def insertUserError : Failure → OpError
  | .unique _ _ false => .manager .userExists
  | e => .sql e

def addUserTx
    (salt : Vector UInt8 16)
    (userID syncTopic : String)
    (now : Int)
    (username password : String)
    (role : Role)
    (hashed provisioned : Bool) : Op Answer :=
  if !allowedUsername username || !allowedRole role then
    fail .invalidArgument
  else do
    let hash ← passValue conf salt password hashed
    let _ ← queryOr insertUserError insertUserQuery
      [.text userID, .text username, hash, .text (roleText role),
        .text syncTopic, bool provisioned, .int now]
    if role ≠ .anonymous then
      exec' upsertProfileQuery
        [.text userID, .text "", .text "", .text "", .int 0]
    else
      return []

def addUser
    (salt : Vector UInt8 16)
    (userID syncTopic : String)
    (now : Int)
    (username password : String)
    (role : Role)
    (hashed : Bool) : Op Answer :=
  execTx (addUserTx conf salt userID syncTopic now username password role
    hashed false)

def removeUserTx (username : String) : Op Answer :=
  if !allowedUsername username then
    fail .invalidArgument
  else
    exec' deleteUserQuery [.text username]

def removeUser (username : String) : Op Answer := do
  canChangeUser conf username
  execTx (removeUserTx username)

def userHardDeleteAfterDuration : Int := 7 * 24 * 3600

def markUserRemoved
    (name id : String)
    (now : Int) : Op Answer :=
  if !allowedUsername name then
    fail .invalidArgument
  else
    execTx (do
      let _ ← query deleteUserAccessQuery [.text name, .text name]
      let _ ← query deleteAllTokenQuery [.text id]
      exec' updateUserDeletedQuery
        [.int (now + userHardDeleteAfterDuration), .text id])

def removeDeletedUsers (now : Int) : Op Answer :=
  exec' deleteUsersMarkedQuery [.int now]

def changeSettings (userID prefs : String) : Op Answer :=
  exec' updateUserPrefsQuery [.text prefs, .text userID]

def resetStats : Op Answer :=
  exec' updateUserStatsResetAllQuery []

/-- The queue as a list, in the order in which it is written. -/
def writeUserStatsQueue (queue : List (String × Stats)) : Op Answer :=
  if queue.isEmpty then
    return []
  else
    execTx (execAll updateUserStatsQuery (queue.map (fun p =>
      [.int p.2.messages, .int p.2.emails, .int p.2.calls, .text p.1])))

def changePassword
    (salt : Vector UInt8 16)
    (username password : String)
    (hashed : Bool) : Op Answer := do
  canChangeUser conf username
  execTx (do
    let hash ← passValue conf salt password hashed
    exec' updateUserPassQuery [hash, .text username])

def changeRole
    (username : String)
    (role : Role) : Op Answer := do
  canChangeUser conf username
  execTx (
    if !allowedUsername username || !allowedRole role then
      fail .invalidArgument
    else do
      let _ ← query updateUserRoleQuery [.text (roleText role), .text username]
      if role = .admin then
        exec' deleteUserAccessQuery [.text username, .text username]
      else
        return [])

end Users

section Access

/-- Is the permission part of the access? -/
def resolvePerms
    (base perm : Permission) : Op Answer :=
  if (perm = .read && base.isRead) || (perm = .write && base.isWrite) then
    return []
  else
    fail .unauthorized

/-- A missing user is an anonymous one. -/
def authorize
    (u : Option User)
    (topic : String)
    (perm : Permission) : Op Answer :=
  if isAdmin u then
    return []
  else do
    let username := (u.map User.name).getD everyone
    let rows ← query selectTopicPermsQuery
      [.text everyone, .text username, .text topic]
    match rows with
    | [] => resolvePerms conf.defaultAccess perm
    | row :: _ =>
        resolvePerms
          (newPermission (truth (row.getD 0 .null)) (truth (row.getD 1 .null)))
          perm

/-- A text that is changed. -/
def mapText (f : String → String) : Value → Value
  | .text s => .text (f s)
  | v => v

/-- The rows with one text changed. -/
def mapColumn
    (i : Nat)
    (f : String → String)
    (rows : Answer) : Answer :=
  rows.map (fun row => row.modify i (mapText f))

def allGrants : Op Answer := do
  return mapColumn 1 fromSQLWildcard (← query selectUserAllAccessQuery [])

def grants (username : String) : Op Answer := do
  return mapColumn 0 fromSQLWildcard
    (← query selectUserAccessQuery [.text username])

def reservations (username : String) : Op Answer := do
  return mapColumn 0 unescapeUnderscore
    (← query selectUserReservationsQuery [.text everyone, .text username])

/-- Is the count not zero? -/
def positive : Value → Bool
  | .int n => decide (0 < n)
  | _ => false

def hasReservation (username topic : String) : Op Answer := do
  let n ← result (firstValue (← query selectUserHasReservationQuery
    [.text username, .text (escapeUnderscore topic)]))
  return [[bool (positive n)]]

def reservationsCount (username : String) : Op Answer := do
  let n ← result (firstValue
    (← query selectUserReservationsCountQuery [.text username]))
  return [[n]]

def reservationOwner (topic : String) : Op Answer := do
  let rows ← query selectUserReservationsOwnerQuery
    [.text (escapeUnderscore topic)]
  return [[(rows.head?.map (fun row => row.getD 0 .null)).getD (.text "")]]

def allowReservation (username topic : String) : Op Answer :=
  if (!allowedUsername username && username ≠ everyone) ||
      !allowedTopic topic then
    fail .invalidArgument
  else do
    let n ← result (firstValue (← query selectOtherAccessCountQuery
      [.text (escapeUnderscore topic), .text (escapeUnderscore topic),
        .text username]))
    if positive n then fail .topicOwnedByOthers else return []

def allowAccess
    (username topicPattern : String)
    (permission : Permission) : Op Answer :=
  execTx (
    if !allowedUsername username && username ≠ everyone then
      fail .invalidArgument
    else if !allowedTopicPattern topicPattern then
      fail .invalidArgument
    else
      exec' upsertUserAccessQuery
        [.text username, .text (toSQLWildcard topicPattern),
          bool permission.isRead, bool permission.isWrite, .text "", .text "",
          bool false])

def resetAccess (username topicPattern : String) : Op Answer :=
  execTx (
    if !allowedUsername username && username ≠ everyone && username ≠ "" then
      fail .invalidArgument
    else if !allowedTopicPattern topicPattern && topicPattern ≠ "" then
      fail .invalidArgument
    else if username = "" && topicPattern = "" then
      exec' deleteAllAccessQuery [.text username]
    else if topicPattern = "" then
      exec' deleteUserAccessQuery [.text username, .text username]
    else
      exec' deleteTopicAccessQuery
        [.text username, .text username, .text (toSQLWildcard topicPattern)])

def addReservation
    (username topic : String)
    (permission : Permission) : Op Answer :=
  if !allowedUsername username || username = everyone ||
      !allowedTopic topic then
    fail .invalidArgument
  else
    execTx (do
      let _ ← query upsertUserAccessQuery
        [.text username, .text (escapeUnderscore topic), bool true, bool true,
          .text username, .text username, bool false]
      exec' upsertUserAccessQuery
        [.text everyone, .text (escapeUnderscore topic),
          bool permission.isRead, bool permission.isWrite, .text username,
          .text username, bool false])

/-- The deletions of one topic after another. -/
def removeTopics (username : String) : List String → Op Answer
  | [] => return []
  | topic :: rest => do
      let _ ← query deleteTopicAccessQuery
        [.text username, .text username, .text (escapeUnderscore topic)]
      let _ ← query deleteTopicAccessQuery
        [.text everyone, .text everyone, .text (escapeUnderscore topic)]
      removeTopics username rest

def removeReservations
    (username : String)
    (topics : List String) : Op Answer :=
  if !allowedUsername username || username = everyone || topics.isEmpty then
    fail .invalidArgument
  else if topics.any (fun topic => !allowedTopic topic) then
    fail .invalidArgument
  else
    execTx (removeTopics username topics)

end Access

section Tokens

def tokenMaxCount : Int := 60

def createToken
    (userID token label : String)
    (access : Int)
    (origin : String)
    (expires : Int)
    (provisioned : Bool) : Op Answer :=
  execTx (do
    let _ ← query upsertTokenQuery
      [.text userID, .text token, .text label, .int access, .text origin,
        .int expires, bool provisioned]
    let tokenCount ← result (firstValue
      (← query selectTokenCountQuery [.text userID]))
    if !lt tokenCount (.int tokenMaxCount) then
      let _ ← query deleteExcessTokensQuery
        [.text userID, .text userID, .int tokenMaxCount]
    return [[.text token, .text label, .int access, .text origin,
      .int expires, bool provisioned]])

def tokens (userID : String) : Op Answer :=
  query selectTokensQuery [.text userID]

def token (userID token : String) : Op (List Value) := do
  match ← query selectTokenQuery [.text userID, .text token] with
  | [] => result (.error .tokenNotFound)
  | row :: _ => return row

def canChangeToken (userID value : String) : Op Unit := do
  let t ← token userID value
  if truth (t.getD 5 .null) then
    result (.error .provisionedTokenChange)
  else
    return ()

def changeToken
    (userID value : String)
    (label : Option String)
    (expires : Option Int) : Op (List Value) :=
  if value = "" then
    result (.error .noTokenProvided)
  else do
    canChangeToken userID value
    execTx (do
      if let some l := label then
        let _ ← query updateTokenLabelQuery
          [.text l, .text userID, .text value]
      if let some e := expires then
        let _ ← query updateTokenExpiryQuery
          [.int e, .text userID, .text value])
    token userID value

def removeToken (userID value : String) : Op Answer := do
  canChangeToken userID value
  execTx (
    if value = "" then
      result (.error .noTokenProvided)
    else
      exec' deleteTokenQuery [.text userID, .text value])

def removeExpiredTokens (now : Int) : Op Answer :=
  exec' deleteExpiredTokensQuery [.int now]

/-- The queue as a list of tokens with their last access and origin. -/
def writeTokenUpdateQueue (queue : List (String × Int × String)) : Op Answer :=
  if queue.isEmpty then
    return []
  else
    execTx (execAll updateTokenLastAccessQuery (queue.map (fun p =>
      [.int p.2.1, .text p.2.2, .text p.1])))

end Tokens

section PhoneNumbers

def phoneNumbers (userID : String) : Op Answer :=
  query selectPhoneNumbersQuery [.text userID]

/-- A number that the user has already is a duplicate of the primary key. -/
def insertPhoneNumberError : Failure → OpError
  | .unique _ _ false => .phoneNumberExists
  | e => .sql e

def addPhoneNumber (userID phoneNumber : String) : Op Answer := do
  let _ ← queryOr insertPhoneNumberError insertPhoneNumberQuery
    [.text userID, .text phoneNumber]
  return []

def removePhoneNumber (userID phoneNumber : String) : Op Answer :=
  exec' deletePhoneNumberQuery [.text userID, .text phoneNumber]

end PhoneNumbers

section Tiers

/-- A tier as it is given to the database, without its ID and code. -/
structure TierData where
  name : String
  messageLimit : Int
  messageExpiryDuration : Int
  emailLimit : Int
  callLimit : Int
  reservationLimit : Int
  attachmentFileSizeLimit : Int
  attachmentTotalSizeLimit : Int
  attachmentExpiryDuration : Int
  attachmentBandwidthLimit : Int
  stripeMonthlyPriceID : String
  stripeYearlyPriceID : String
deriving DecidableEq, Repr

def TierData.values (t : TierData) : List Value :=
  [.text t.name, .int t.messageLimit, .int t.messageExpiryDuration,
    .int t.emailLimit, .int t.callLimit, .int t.reservationLimit,
    .int t.attachmentFileSizeLimit, .int t.attachmentTotalSizeLimit,
    .int t.attachmentExpiryDuration, .int t.attachmentBandwidthLimit,
    nullString t.stripeMonthlyPriceID, nullString t.stripeYearlyPriceID]

/-- An ID is drawn if none is given. -/
def addTier
    (drawnID id code : String)
    (t : TierData) : Op Answer :=
  exec' insertTierQuery
    ([.text (if id = "" then drawnID else id), .text code] ++ t.values)

def updateTier
    (code : String)
    (t : TierData) : Op Answer :=
  exec' updateTierQuery (t.values ++ [.text code])

/-- Tier codes are like topics. -/
def removeTier (code : String) : Op Answer :=
  if !allowedTopic code then
    fail .invalidArgument
  else
    exec' deleteTierQuery [.text code]

def tiers : Op Answer :=
  query selectTiersQuery []

/-- The first tier of the rows. -/
def readTier (rows : Answer) : Op (List Value) :=
  match rows with
  | [] => fail .tierNotFound
  | row :: _ => return row

def tier (code : String) : Op (List Value) := do
  readTier (← query selectTierByCodeQuery [.text code])

def tierByStripePrice (priceID : String) : Op (List Value) := do
  readTier (← query selectTierByPriceIDQuery [.text priceID, .text priceID])

def checkReservationsLimit
    (username : String)
    (reservationsLimit : Int) : Op Unit := do
  let u ← user conf username
  match reservationLimit u with
  | none => return ()
  | some n =>
      if reservationsLimit < n then
        let rows ← reservations username
        if (rows.length : Int) > reservationsLimit then
          fail .tooManyReservations

def changeTier (username code : String) : Op Answer :=
  if !allowedUsername username then
    fail .invalidArgument
  else do
    let t ← tier code
    match t.getD 7 .null with
    | .int n => checkReservationsLimit conf username n
    | _ => checkReservationsLimit conf username 0
    exec' updateUserTierQuery [.text code, .text username]

def resetTier (username : String) : Op Answer :=
  if !allowedUsername username && username ≠ everyone && username ≠ "" then
    fail .invalidArgument
  else do
    checkReservationsLimit conf username 0
    exec' deleteUserTierQuery [.text username]

structure Billing where
  stripeCustomerID : String
  stripeSubscriptionID : String
  stripeSubscriptionStatus : String
  stripeSubscriptionInterval : String
  stripeSubscriptionPaidUntil : Int
  stripeSubscriptionCancelAt : Int
deriving DecidableEq, Repr

def changeBilling
    (username : String)
    (b : Billing) : Op Answer :=
  exec' updateBillingQuery
    [nullString b.stripeCustomerID, nullString b.stripeSubscriptionID,
      nullString b.stripeSubscriptionStatus,
      nullString b.stripeSubscriptionInterval,
      nullInt64 b.stripeSubscriptionPaidUntil,
      nullInt64 b.stripeSubscriptionCancelAt, .text username]

end Tiers

section Profiles

/-- The first row. -/
def oneProfile (rows : Answer) : Op Answer :=
  match rows with
  | [] => fail .userNotFound
  | row :: _ => return [row]

def profile (username : String) : Op Answer := do
  oneProfile (← query selectProfileByUsernameQuery [.text username])

def profileByUserID (userID : String) : Op Answer := do
  oneProfile (← query selectProfileByUserIDQuery [.text userID])

def profilesByTopic (topic : String) : Op Answer :=
  query selectProfilesByTopicQuery [.text topic]

def updateProfile (userID displayName bio : String) : Op Answer :=
  exec' updateProfileDisplayNameBioQuery
    [.text displayName, .text bio, .text userID]

def updateProfileAvatar (userID avatarID : String) : Op Answer :=
  exec' updateProfileAvatarQuery [.text avatarID, .text userID]

/-- The first value of the first row, or a default. -/
def valueOr
    (default : Value)
    (rows : Answer) : Answer :=
  match rows with
  | [] => [[default]]
  | row :: _ => [[row.getD 0 .null]]

def profileAvatarID (userID : String) : Op Answer := do
  return valueOr (.text "")
    (← query selectProfileAvatarIDQuery [.text userID])

def updateProfileLastSeen
    (userID : String)
    (lastSeen : Int) : Op Answer :=
  exec' updateProfileLastSeenQuery [.int lastSeen, .text userID]

/-- The queue as a list of users with the time. -/
def writeLastSeenQueue (queue : List (String × Int)) : Op Answer :=
  if queue.isEmpty then
    return []
  else
    execTx (execAll updateProfileLastSeenQuery (queue.map (fun p =>
      [.int p.2, .text p.1])))

/-- Is this one of the settings of privacy? -/
def validPrivacy (privacy : String) : Bool :=
  privacy = "open" || privacy = "request" || privacy = "invite_only"

def updateProfilePrivacy (username privacy : String) : Op Answer :=
  if !validPrivacy privacy then
    fail .invalidArgument
  else
    exec' updateProfilePrivacyQuery [.text privacy, .text username]

def profilePrivacy (username : String) : Op Answer := do
  return valueOr (.text "request")
    (← query selectProfilePrivacyQuery [.text username])

/-- `strings.ReplaceAll` of the characters that `LIKE` treats specially. -/
def escapeLike (s : String) : String :=
  String.ofList (s.toList.flatMap (fun c =>
    if c = '\\' ∨ c = '%' ∨ c = '_' then ['\\', c] else [c]))

def searchUsers (text excludeUser : String) : Op Answer :=
  let likeQuery := Value.text ("%" ++ escapeLike text ++ "%")
  query searchUsersQuery [likeQuery, likeQuery, .text excludeUser]

end Profiles

section Contacts

def addContact
    (fromUsername toUsername status : String)
    (now : Int) : Op Answer :=
  exec' insertContactQuery
    [.text fromUsername, .text toUsername, .text status, .int now]

def contacts (username status : String) : Op Answer :=
  query selectContactsQuery [.text username, .text status]

def contactRequests (username : String) : Op Answer :=
  query selectContactRequestsQuery [.text username]

def contactStatus (fromUsername toUsername : String) : Op Answer := do
  return valueOr (.text "")
    (← query selectContactStatusQuery [.text fromUsername, .text toUsername])

def updateContactStatus
    (fromUsername toUsername status : String)
    (now : Int) : Op Answer := do
  let n ← result (firstValue (← query updateContactStatusQuery
    [.text status, .text fromUsername, .text toUsername, .int now]))
  if positive n then return [] else fail .userNotFound

def deleteContact (userA userB : String) : Op Answer :=
  exec' deleteContactQuery
    [.text userA, .text userB, .text userB, .text userA]

/-- The error of the deletion is ignored. -/
def blockContact
    (fromUsername toUsername : String)
    (now : Int) : Op Answer := do
  handle (deleteContact fromUsername toUsername) (fun _ => .ok ())
  addContact fromUsername toUsername "blocked" now

def isBlocked (userA userB : String) : Op Answer := do
  let n ← result (firstValue (← query selectIsBlockedQuery
    [.text userA, .text userB, .text userB, .text userA]))
  return [[bool (positive n)]]

end Contacts

section TopicMeta

/-- Nothing, if there is no metadata. -/
def topicMeta (topic : String) : Op Answer := do
  return (← query selectTopicMetaQuery [.text topic]).take 1

def setTopicMeta
    (topic displayName description avatarID createdBy : String)
    (now : Int) : Op Answer :=
  exec' upsertTopicMetaQuery
    [.text topic, .text displayName, .text description, .text avatarID,
      .text createdBy, .int now]

def setDMTopicMeta
    (topic userA userB : String)
    (now : Int) : Op Answer :=
  exec' upsertDMTopicMetaQuery
    [.text topic, .text userA, .text userB, .int now]

def findDMTopic (userA userB : String) : Op Answer := do
  return valueOr (.text "")
    (← query findDMTopicQuery
      [.text userA, .text userB, .text userB, .text userA])

def dmTopics (username : String) : Op Answer := do
  return (← query selectDMTopicsQuery [.text username, .text username]).map
    (fun row =>
      [row.getD 0 .null,
        if row.getD 1 .null = .text username then row.getD 2 .null
        else row.getD 1 .null])

end TopicMeta

end UserDB
end Manager
end CoopMessenger
