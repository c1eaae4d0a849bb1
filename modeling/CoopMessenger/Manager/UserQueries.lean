import CoopMessenger.Library.Ranking
import CoopMessenger.Manager.Patterns
import CoopMessenger.Manager.UserSchema

/-!
# The statements of the user manager

The queries of `user/manager.go` as statements over the tables of its database.
The arguments are taken by position, as in the source; an argument that the
source passes twice is passed twice.
-/

namespace CoopMessenger
namespace Manager
namespace UserDB

open Library Library.Sql

abbrev Query := Stmt TableName ColumnName

abbrev Record := Row ColumnName

abbrev Records := Content TableName ColumnName

section Expressions

/-- `a = b` -/
def eq (a b : Value) : Bool :=
  decide (a ≠ .null) && decide (a = b)

/-- The order of values: `NULL`, numbers, texts. -/
def sortKey : Value → Nat ×ₗ Int ×ₗ String
  | .null => toLex (0, toLex (0, ""))
  | .int i => toLex (1, toLex (i, ""))
  | .text s => toLex (2, toLex (0, s))

/-- `a < b` -/
def lt (a b : Value) : Bool :=
  decide (a ≠ .null) && decide (b ≠ .null) && decide (sortKey a < sortKey b)

/-- `t LIKE p ESCAPE '\'` -/
def like : Value → Value → Bool
  | .text t, .text p => sqlLike '\\' t p
  | _, _ => false

/-- `LENGTH(v)` -/
def length : Value → Value
  | .text s => .int s.toList.length
  | v => v

/-- `COALESCE(a, b)` -/
def coalesce (a b : Value) : Value :=
  if a = .null then b else a

/-- The rows of a `LEFT JOIN`: a row of `NULL` if there is none. -/
def leftJoin (rows : List Record) : List Record :=
  if rows.isEmpty then [fun _ => .null] else rows

/-- `(SELECT id FROM user WHERE user = ?)` -/
def userIDOf
    (v : Records)
    (username : Value) : Value :=
  (((v .user).find? (fun u => eq (u .user) username)).map (· .id)).getD .null

/-- The rows ordered by a column, then as before. -/
def sortBy
    (f : Record → Value)
    (rows : List Record) : List Record :=
  orderBy (fun r => sortKey (f r)) rows

/-- The same, downwards. -/
def sortByDesc
    (f : Record → Value)
    (rows : List Record) : List Record :=
  orderByDesc (fun r => sortKey (f r)) rows

/-- A statement that selects. -/
def selecting
    (reads : List (TableName × List ColumnName))
    (answer : Args → Records → Answer) : Query :=
  ⟨reads, .select answer⟩

/-- `INSERT INTO ... VALUES ...` -/
def inserting
    (table : TableName)
    (columns : List ColumnName)
    (conflict : Conflict ColumnName)
    (reads : List (TableName × List ColumnName))
    (values : Args → Records → List Value) : Query :=
  ⟨reads, .insert table columns conflict (fun a v => [values a v])⟩

/-- `UPDATE ... SET ... WHERE ...`, with values that are the same for all rows. -/
def updating
    (table : TableName)
    (sets : List ColumnName)
    (reads : List (TableName × List ColumnName))
    (values : Args → Records → List Value)
    (cond : Args → Records → Record → Bool) : Query :=
  ⟨reads, .update table sets (fun a v _ => values a v) cond⟩

/-- `DELETE FROM ... WHERE ...` -/
def deleting
    (table : TableName)
    (reads : List (TableName × List ColumnName))
    (cond : Args → Records → Record → Bool) : Query :=
  ⟨reads, .delete table cond⟩

/-- The first `n` arguments. -/
def argList
    (n : Nat)
    (a : Args) : List Value :=
  (List.range n).map a

end Expressions

section Users

def userFields : List ColumnName :=
  [.id, .user, .pass, .role, .prefs, .syncTopic, .provisioned, .statsMessages,
    .statsEmails, .statsCalls, .stripeCustomerId, .stripeSubscriptionId,
    .stripeSubscriptionStatus, .stripeSubscriptionInterval,
    .stripeSubscriptionPaidUntil, .stripeSubscriptionCancelAt, .deleted]

def tierFields : List ColumnName :=
  [.id, .code, .name, .messagesLimit, .messagesExpiryDuration, .emailsLimit,
    .callsLimit, .reservationsLimit, .attachmentFileSizeLimit,
    .attachmentTotalSizeLimit, .attachmentExpiryDuration,
    .attachmentBandwidthLimit, .stripeMonthlyPriceId, .stripeYearlyPriceId]

/-- Users with their tiers. -/
def selectUser
    (reads : List (TableName × List ColumnName))
    (users : Args → Records → List Record) : Query :=
  selecting
    ([(.user, .tierId :: userFields), (.tier, tierFields)] ++ reads)
    (fun a v =>
      (users a v).flatMap (fun u =>
        (leftJoin ((v .tier).filter (fun t => eq (t .id) (u .tierId)))).map
          (fun t => userFields.map u ++ tierFields.map t)))

def selectUserByIDQuery : Query :=
  selectUser [] (fun a v => (v .user).filter (fun u => eq (u .id) (a 0)))

def selectUserByNameQuery : Query :=
  selectUser [] (fun a v => (v .user).filter (fun u => eq (u .user) (a 0)))

def selectUserByTokenQuery : Query :=
  selectUser [(.userToken, [.userId, .token, .expires])] (fun a v =>
    (v .user).flatMap (fun u =>
      ((v .userToken).filter (fun tk =>
        eq (u .id) (tk .userId) && eq (tk .token) (a 0) &&
          (eq (tk .expires) (.int 0) || !lt (tk .expires) (a 1)))).map
            (fun _ => u)))

def selectUserByStripeCustomerIDQuery : Query :=
  selectUser []
    (fun a v => (v .user).filter (fun u => eq (u .stripeCustomerId) (a 0)))

def insertUserQuery : Query :=
  inserting .user
    [.id, .user, .pass, .role, .syncTopic, .provisioned, .created] .abort []
    (fun a _ => argList 7 a)

/-- The order of roles in `selectUsernamesQuery`. -/
def roleRank (role : Value) : Value :=
  if role = .text "admin" then .int 1
  else if role = .text "anonymous" then .int 3
  else .int 2

def selectUsernamesQuery : Query :=
  selecting [(.user, [.user, .role])] (fun _ v =>
    (sortBy (fun u => roleRank (u .role)) (sortBy (· .user) (v .user))).map
      (fun u => [u .user]))

def selectUserCountQuery : Query :=
  selecting [(.user, [])] (fun _ v => count (v .user))

/-- `UPDATE user SET ... WHERE user = ?`, with the name as last argument. -/
def updateUserByName (sets : List ColumnName) : Query :=
  updating .user sets [(.user, [.user])]
    (fun a _ => argList sets.length a)
    (fun a _ u => eq (u .user) (a sets.length))

/-- `UPDATE user SET ... WHERE id = ?`, with the ID as last argument. -/
def updateUserByID (sets : List ColumnName) : Query :=
  updating .user sets [(.user, [.id])]
    (fun a _ => argList sets.length a)
    (fun a _ u => eq (u .id) (a sets.length))

def updateUserPassQuery : Query :=
  updateUserByName [.pass]

def updateUserRoleQuery : Query :=
  updateUserByName [.role]

def updateUserPrefsQuery : Query :=
  updateUserByID [.prefs]

def updateUserStatsQuery : Query :=
  updateUserByID [.statsMessages, .statsEmails, .statsCalls]

def updateUserStatsResetAllQuery : Query :=
  updating .user [.statsMessages, .statsEmails, .statsCalls] []
    (fun _ _ => [.int 0, .int 0, .int 0]) (fun _ _ _ => true)

def updateUserDeletedQuery : Query :=
  updateUserByID [.deleted]

def deleteUsersMarkedQuery : Query :=
  deleting .user [(.user, [.deleted])] (fun a _ u => lt (u .deleted) (a 0))

def deleteUserQuery : Query :=
  deleting .user [(.user, [.user])] (fun a _ u => eq (u .user) (a 0))

end Users

section Access

def selectTopicPermsQuery : Query :=
  selecting
    [(.userAccess, [.userId, .topic, .read, .write]), (.user, [.id, .user])]
    (fun a v =>
      let named := (v .user).filter
        (fun u => eq (u .user) (a 0) || eq (u .user) (a 1))
      let ordered := sortByDesc (fun r => length (r .topic))
        (sortByDesc (· .write)
          ((v .userAccess).filter (fun r => like (a 2) (r .topic))))
      (sortByDesc (· .user) named).flatMap (fun u =>
        (ordered.filter (fun r => eq (u .id) (r .userId))).map
          (fun r => [r .read, r .write])))

/-- The arguments are user, topic, bits, owner, owner, and `provisioned`. -/
def upsertUserAccessQuery : Query :=
  inserting .userAccess
    [.userId, .topic, .read, .write, .ownerUserId, .provisioned]
    (.target [.userId, .topic] [.read, .write, .ownerUserId, .provisioned])
    [(.user, [.id, .user])]
    (fun a v =>
      [userIDOf v (a 0), a 1, a 2, a 3,
        if a 4 = .text "" then .null else userIDOf v (a 5), a 6])

/-- `ORDER BY LENGTH(topic) DESC, write DESC, read DESC, topic` -/
def accessOrder (rows : List Record) : List Record :=
  sortByDesc (fun r => length (r .topic))
    (sortByDesc (· .write) (sortByDesc (· .read) (sortBy (· .topic) rows)))

def selectUserAllAccessQuery : Query :=
  selecting [(.userAccess, [.userId, .topic, .read, .write, .provisioned])]
    (fun _ v =>
      (accessOrder (v .userAccess)).map
        (fun r => [r .userId, r .topic, r .read, r .write, r .provisioned]))

def selectUserAccessQuery : Query :=
  selecting
    [(.userAccess, [.userId, .topic, .read, .write, .provisioned]),
      (.user, [.id, .user])]
    (fun a v =>
      (accessOrder ((v .userAccess).filter
        (fun r => eq (r .userId) (userIDOf v (a 0))))).map
          (fun r => [r .topic, r .read, r .write, r .provisioned]))

/-- The entries that a user owns for itself. -/
def ownedBy
    (v : Records)
    (username : Value) : List Record :=
  (v .userAccess).filter (fun r =>
    eq (r .userId) (r .ownerUserId) &&
      eq (r .ownerUserId) (userIDOf v username))

def selectUserReservationsQuery : Query :=
  selecting
    [(.userAccess, [.userId, .topic, .read, .write, .ownerUserId]),
      (.user, [.id, .user])]
    (fun a v =>
      (sortBy (· .topic) (ownedBy v (a 1))).flatMap (fun r =>
        (leftJoin ((v .userAccess).filter (fun e =>
          eq (r .topic) (e .topic) &&
            eq (e .userId) (userIDOf v (a 0))))).map
              (fun e => [r .topic, r .read, r .write, e .read, e .write])))

def selectUserReservationsCountQuery : Query :=
  selecting [(.userAccess, [.userId, .ownerUserId]), (.user, [.id, .user])]
    (fun a v => count (ownedBy v (a 0)))

def selectUserReservationsOwnerQuery : Query :=
  selecting [(.userAccess, [.userId, .topic, .ownerUserId])] (fun a v =>
    ((v .userAccess).filter (fun r =>
      eq (r .topic) (a 0) && eq (r .userId) (r .ownerUserId))).map
        (fun r => [r .ownerUserId]))

def selectUserHasReservationQuery : Query :=
  selecting
    [(.userAccess, [.userId, .topic, .ownerUserId]), (.user, [.id, .user])]
    (fun a v =>
      count ((ownedBy v (a 0)).filter (fun r => eq (r .topic) (a 1))))

def selectOtherAccessCountQuery : Query :=
  selecting [(.userAccess, [.topic, .ownerUserId]), (.user, [.id, .user])]
    (fun a v =>
      let owner := userIDOf v (a 2)
      count ((v .userAccess).filter (fun r =>
        (eq (r .topic) (a 0) || like (a 1) (r .topic)) &&
          (decide (r .ownerUserId = .null) ||
            decide (owner ≠ .null) && decide (r .ownerUserId ≠ owner)))))

def deleteAllAccessQuery : Query :=
  deleting .userAccess [] (fun _ _ _ => true)

def deleteUserAccessQuery : Query :=
  deleting .userAccess
    [(.userAccess, [.userId, .ownerUserId]), (.user, [.id, .user])]
    (fun a v r =>
      eq (r .userId) (userIDOf v (a 0)) ||
        eq (r .ownerUserId) (userIDOf v (a 1)))

def deleteTopicAccessQuery : Query :=
  deleting .userAccess
    [(.userAccess, [.userId, .topic, .ownerUserId]), (.user, [.id, .user])]
    (fun a v r =>
      (eq (r .userId) (userIDOf v (a 0)) ||
        eq (r .ownerUserId) (userIDOf v (a 1))) &&
          eq (r .topic) (a 2))

end Access

section Tokens

def selectTokenCountQuery : Query :=
  selecting [(.userToken, [.userId])] (fun a v =>
    count ((v .userToken).filter (fun r => eq (r .userId) (a 0))))

def tokenFields : List ColumnName :=
  [.token, .label, .lastAccess, .lastOrigin, .expires, .provisioned]

def selectTokensQuery : Query :=
  selecting [(.userToken, .userId :: tokenFields)] (fun a v =>
    ((v .userToken).filter (fun r => eq (r .userId) (a 0))).map
      (fun r => tokenFields.map r))

def selectTokenQuery : Query :=
  selecting [(.userToken, .userId :: tokenFields)] (fun a v =>
    ((v .userToken).filter
      (fun r => eq (r .userId) (a 0) && eq (r .token) (a 1))).map
        (fun r => tokenFields.map r))

def upsertTokenQuery : Query :=
  inserting .userToken
    [.userId, .token, .label, .lastAccess, .lastOrigin, .expires, .provisioned]
    (.target [.userId, .token] [.label, .expires, .provisioned]) []
    (fun a _ => argList 7 a)

/-- `UPDATE user_token SET c = ? WHERE user_id = ? AND token = ?` -/
def updateToken (c : ColumnName) : Query :=
  updating .userToken [c] [(.userToken, [.userId, .token])]
    (fun a _ => [a 0])
    (fun a _ r => eq (r .userId) (a 1) && eq (r .token) (a 2))

def updateTokenExpiryQuery : Query :=
  updateToken .expires

def updateTokenLabelQuery : Query :=
  updateToken .label

def updateTokenLastAccessQuery : Query :=
  updating .userToken [.lastAccess, .lastOrigin] [(.userToken, [.token])]
    (fun a _ => [a 0, a 1]) (fun a _ r => eq (r .token) (a 2))

def deleteTokenQuery : Query :=
  deleting .userToken [(.userToken, [.userId, .token])]
    (fun a _ r => eq (r .userId) (a 0) && eq (r .token) (a 1))

def deleteAllTokenQuery : Query :=
  deleting .userToken [(.userToken, [.userId])]
    (fun a _ r => eq (r .userId) (a 0))

def deleteExpiredTokensQuery : Query :=
  deleting .userToken [(.userToken, [.expires])]
    (fun a _ r => lt (.int 0) (r .expires) && lt (r .expires) (a 0))

/-- The number of an argument of `LIMIT`. -/
def limit : Value → Nat
  | .int n => n.toNat
  | _ => 0

def deleteExcessTokensQuery : Query :=
  deleting .userToken [(.userToken, [.userId, .token, .expires])]
    (fun a v r =>
      let kept := (sortByDesc (· .expires)
        ((v .userToken).filter (fun q => eq (q .userId) (a 1)))).take
          (limit (a 2))
      eq (r .userId) (a 0) &&
        !kept.any (fun q =>
          eq (q .userId) (r .userId) && eq (q .token) (r .token)))

end Tokens

section PhoneNumbers

def selectPhoneNumbersQuery : Query :=
  selecting [(.userPhone, [.userId, .phoneNumber])] (fun a v =>
    ((v .userPhone).filter (fun r => eq (r .userId) (a 0))).map
      (fun r => [r .phoneNumber]))

def insertPhoneNumberQuery : Query :=
  inserting .userPhone [.userId, .phoneNumber] .abort []
    (fun a _ => argList 2 a)

def deletePhoneNumberQuery : Query :=
  deleting .userPhone [(.userPhone, [.userId, .phoneNumber])]
    (fun a _ r => eq (r .userId) (a 0) && eq (r .phoneNumber) (a 1))

end PhoneNumbers

section Tiers

def insertTierQuery : Query :=
  inserting .tier tierFields .abort [] (fun a _ => argList 14 a)

def updateTierQuery : Query :=
  updating .tier
    [.name, .messagesLimit, .messagesExpiryDuration, .emailsLimit, .callsLimit,
      .reservationsLimit, .attachmentFileSizeLimit, .attachmentTotalSizeLimit,
      .attachmentExpiryDuration, .attachmentBandwidthLimit,
      .stripeMonthlyPriceId, .stripeYearlyPriceId]
    [(.tier, [.code])]
    (fun a _ => argList 12 a) (fun a _ t => eq (t .code) (a 12))

/-- Tiers that meet a condition. -/
def selectTier (cond : Args → Record → Bool) : Query :=
  selecting [(.tier, tierFields)] (fun a v =>
    ((v .tier).filter (cond a)).map (fun t => tierFields.map t))

def selectTiersQuery : Query :=
  selectTier (fun _ _ => true)

def selectTierByCodeQuery : Query :=
  selectTier (fun a t => eq (t .code) (a 0))

def selectTierByPriceIDQuery : Query :=
  selectTier (fun a t =>
    eq (t .stripeMonthlyPriceId) (a 0) || eq (t .stripeYearlyPriceId) (a 1))

def updateUserTierQuery : Query :=
  updating .user [.tierId] [(.user, [.user]), (.tier, [.id, .code])]
    (fun a v =>
      [(((v .tier).find? (fun t => eq (t .code) (a 0))).map (· .id)).getD
        .null])
    (fun a _ u => eq (u .user) (a 1))

def deleteUserTierQuery : Query :=
  updating .user [.tierId] [(.user, [.user])]
    (fun _ _ => [.null]) (fun a _ u => eq (u .user) (a 0))

def deleteTierQuery : Query :=
  deleting .tier [(.tier, [.code])] (fun a _ t => eq (t .code) (a 0))

def updateBillingQuery : Query :=
  updateUserByName
    [.stripeCustomerId, .stripeSubscriptionId, .stripeSubscriptionStatus,
      .stripeSubscriptionInterval, .stripeSubscriptionPaidUntil,
      .stripeSubscriptionCancelAt]

end Tiers

section Contacts

/-- The arguments are the two names, the status, and the time. -/
def insertContactQuery : Query :=
  inserting .userContact
    [.userId, .contactUserId, .status, .createdAt, .updatedAt] .abort
    [(.user, [.id, .user])]
    (fun a v => [userIDOf v (a 0), userIDOf v (a 1), a 2, a 3, a 3])

/-- A contact with the profile of one of the two. -/
def contactFields
    (name : Value)
    (p c : Record) : List Value :=
  [name, coalesce (p .displayName) (.text ""), coalesce (p .bio) (.text ""),
    coalesce (p .avatarId) (.text ""), coalesce (p .lastSeen) (.int 0),
    c .status, c .nickname, c .createdAt]

def contactReads : List (TableName × List ColumnName) :=
  [(.userContact,
      [.userId, .contactUserId, .status, .nickname, .createdAt]),
    (.user, [.id, .user]),
    (.userProfile, [.userId, .displayName, .bio, .avatarId, .lastSeen])]

/-- The two users of a contact. -/
def contactUsers
    (v : Records)
    (c : Record) : List (Record × Record) :=
  ((v .user).filter (fun u => eq (u .id) (c .userId))).flatMap (fun u₁ =>
    ((v .user).filter (fun u => eq (u .id) (c .contactUserId))).map
      (fun u₂ => (u₁, u₂)))

def selectContactsQuery : Query :=
  selecting contactReads (fun a v =>
    let rows := (v .userContact).flatMap (fun c =>
      (contactUsers v c).flatMap (fun u =>
        if eq (u.1 .user) (a 0) && eq (c .status) (a 1) then
          (leftJoin ((v .userProfile).filter
            (fun p => eq (p .userId) (c .contactUserId)))).map
              (fun p =>
                (coalesce (p .displayName) (u.2 .user),
                  contactFields (u.2 .user) p c))
        else
          []))
    (orderBy (fun r => sortKey r.1) rows).map Prod.snd)

def selectContactRequestsQuery : Query :=
  selecting contactReads (fun a v =>
    (sortByDesc (· .createdAt) (v .userContact)).flatMap (fun c =>
      (contactUsers v c).flatMap (fun u =>
        if eq (u.2 .user) (a 0) && eq (c .status) (.text "pending") then
          (leftJoin ((v .userProfile).filter
            (fun p => eq (p .userId) (c .userId)))).map
              (contactFields (u.1 .user) · c)
        else
          [])))

def selectContactStatusQuery : Query :=
  selecting
    [(.userContact, [.userId, .contactUserId, .status]),
      (.user, [.id, .user])]
    (fun a v =>
      (v .userContact).flatMap (fun c =>
        ((contactUsers v c).filter
          (fun u => eq (u.1 .user) (a 0) && eq (u.2 .user) (a 1))).map
            (fun _ => [c .status])))

/-- The arguments are the status, the two names, and the time. -/
def updateContactStatusQuery : Query :=
  updating .userContact [.status, .updatedAt]
    [(.userContact, [.userId, .contactUserId]), (.user, [.id, .user])]
    (fun a _ => [a 0, a 3])
    (fun a v c =>
      eq (c .userId) (userIDOf v (a 1)) &&
        eq (c .contactUserId) (userIDOf v (a 2)))

def deleteContactQuery : Query :=
  deleting .userContact
    [(.userContact, [.userId, .contactUserId]), (.user, [.id, .user])]
    (fun a v c =>
      eq (c .userId) (userIDOf v (a 0)) &&
          eq (c .contactUserId) (userIDOf v (a 1)) ||
        eq (c .userId) (userIDOf v (a 2)) &&
          eq (c .contactUserId) (userIDOf v (a 3)))

def selectIsBlockedQuery : Query :=
  selecting
    [(.userContact, [.userId, .contactUserId, .status]),
      (.user, [.id, .user])]
    (fun a v =>
      let rows := (v .userContact).flatMap (fun c =>
        ((contactUsers v c).filter (fun u =>
          (eq (u.1 .user) (a 0) && eq (u.2 .user) (a 1) ||
            eq (u.1 .user) (a 2) && eq (u.2 .user) (a 3)) &&
              eq (c .status) (.text "blocked"))).map Prod.fst)
      count rows)

end Contacts

section Profiles

def searchUsersQuery : Query :=
  selecting
    [(.user, [.id, .user, .role, .deleted]),
      (.userProfile, [.userId, .displayName, .bio, .avatarId])]
    (fun a v =>
      ((sortBy (· .user) (v .user)).flatMap (fun u =>
        ((leftJoin ((v .userProfile).filter
          (fun p => eq (p .userId) (u .id)))).filter (fun p =>
            decide (u .role ≠ .text "anonymous") &&
              decide (u .deleted = .null) &&
              (like (u .user) (a 0) || like (p .displayName) (a 1)) &&
              decide (u .user ≠ a 2))).map
                (fun p =>
                  [u .user, coalesce (p .displayName) (.text ""),
                    coalesce (p .bio) (.text ""),
                    coalesce (p .avatarId) (.text "")]))).take 20)

def selectProfilePrivacyQuery : Query :=
  selecting [(.userProfile, [.userId, .privacy]), (.user, [.id, .user])]
    (fun a v =>
      (v .userProfile).flatMap (fun p =>
        ((v .user).filter
          (fun u => eq (u .id) (p .userId) && eq (u .user) (a 0))).map
            (fun _ => [coalesce (p .privacy) (.text "request")])))

def updateProfilePrivacyQuery : Query :=
  updating .userProfile [.privacy]
    [(.userProfile, [.userId]), (.user, [.id, .user])]
    (fun a _ => [a 0])
    (fun a v p => eq (p .userId) (userIDOf v (a 1)))

def selectProfileByUserIDQuery : Query :=
  selecting
    [(.userProfile,
      [.userId, .displayName, .bio, .avatarId, .lastSeen, .privacy])]
    (fun a v =>
      ((v .userProfile).filter (fun p => eq (p .userId) (a 0))).map (fun p =>
        [p .displayName, p .bio, p .avatarId, p .lastSeen, p .privacy]))

def selectProfileByUsernameQuery : Query :=
  selecting
    [(.userProfile,
        [.userId, .displayName, .bio, .avatarId, .lastSeen, .privacy]),
      (.user, [.id, .user])]
    (fun a v =>
      (v .userProfile).flatMap (fun p =>
        ((v .user).filter
          (fun u => eq (u .id) (p .userId) && eq (u .user) (a 0))).map
            (fun u =>
              [u .user, p .displayName, p .bio, p .avatarId, p .lastSeen,
                p .privacy])))

def selectProfilesByTopicQuery : Query :=
  selecting
    [(.userAccess, [.userId, .topic]), (.user, [.id, .user, .role]),
      (.userProfile, [.userId, .displayName, .bio, .avatarId, .lastSeen])]
    (fun a v =>
      ((v .userAccess).filter (fun r => eq (r .topic) (a 0))).flatMap (fun r =>
        ((v .user).filter (fun u =>
          eq (u .id) (r .userId) &&
            decide (u .role ≠ .text "anonymous"))).flatMap (fun u =>
              (leftJoin ((v .userProfile).filter
                (fun p => eq (p .userId) (u .id)))).map (fun p =>
                  [u .user, p .displayName, p .bio, p .avatarId,
                    p .lastSeen]))))

def upsertProfileQuery : Query :=
  inserting .userProfile [.userId, .displayName, .bio, .avatarId, .lastSeen]
    (.target [.userId] [.displayName, .bio, .avatarId, .lastSeen]) []
    (fun a _ => argList 5 a)

/-- `UPDATE user_profile SET ... WHERE user_id = ?`, with the ID at the end. -/
def updateProfileByID (sets : List ColumnName) : Query :=
  updating .userProfile sets [(.userProfile, [.userId])]
    (fun a _ => argList sets.length a)
    (fun a _ p => eq (p .userId) (a sets.length))

def updateProfileDisplayNameBioQuery : Query :=
  updateProfileByID [.displayName, .bio]

def updateProfileAvatarQuery : Query :=
  updateProfileByID [.avatarId]

def updateProfileLastSeenQuery : Query :=
  updateProfileByID [.lastSeen]

def selectProfileAvatarIDQuery : Query :=
  selecting [(.userProfile, [.userId, .avatarId])] (fun a v =>
    ((v .userProfile).filter (fun p => eq (p .userId) (a 0))).map
      (fun p => [p .avatarId]))

end Profiles

section TopicMeta

def topicMetaFields : List ColumnName :=
  [.topic, .displayName, .description, .avatarId, .createdBy, .createdAt,
    .dmUserA, .dmUserB]

def selectTopicMetaQuery : Query :=
  selecting [(.topicMeta, topicMetaFields)] (fun a v =>
    ((v .topicMeta).filter (fun m => eq (m .topic) (a 0))).map
      (fun m => topicMetaFields.map m))

/-- The time is the last argument. -/
def upsertTopicMetaQuery : Query :=
  inserting .topicMeta
    [.topic, .displayName, .description, .avatarId, .createdBy, .createdAt]
    (.target [.topic] [.displayName, .description, .avatarId]) []
    (fun a _ => argList 6 a)

/-- The time is the last argument. -/
def upsertDMTopicMetaQuery : Query :=
  inserting .topicMeta topicMetaFields
    (.target [.topic] [.dmUserA, .dmUserB]) []
    (fun a _ =>
      [a 0, .text "", .text "", .text "", .text "", a 3, a 1, a 2])

def findDMTopicQuery : Query :=
  selecting [(.topicMeta, [.topic, .dmUserA, .dmUserB])] (fun a v =>
    (((v .topicMeta).filter (fun m =>
      eq (m .dmUserA) (a 0) && eq (m .dmUserB) (a 1) ||
        eq (m .dmUserA) (a 2) && eq (m .dmUserB) (a 3))).map
          (fun m => [m .topic])).take 1)

def selectDMTopicsQuery : Query :=
  selecting [(.topicMeta, [.topic, .dmUserA, .dmUserB])] (fun a v =>
    ((v .topicMeta).filter
      (fun m => eq (m .dmUserA) (a 0) || eq (m .dmUserB) (a 1))).map
        (fun m => [m .topic, m .dmUserA, m .dmUserB]))

end TopicMeta

end UserDB
end Manager
end CoopMessenger
