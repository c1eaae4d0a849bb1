import CoopMessenger.Library.SchemaChanges
import CoopMessenger.Manager.Types

/-!
# The schema of the user database

The creation script of `user/manager.go`, its eight migrations, and `setupDB`,
which runs one or the other.  Column types are left out: no value that is stored
is changed by the affinity of its column.  The time at which a row of `user` is
created by a script is taken as zero: nothing reads it.  The defaults of
`created_at` and `updated_at`, the current time, are never used, since every
insert gives these columns.

**Results.**
* `setupDB_empty`: a new file gets the tables of the creation script.
* `setupDB_emptyVersion`: an older database without users is migrated, and what
  it becomes depends on whether it was created before version 6.
-/

namespace CoopMessenger
namespace Manager
namespace UserDB

open Library Library.Sql

section Names

inductive TableName where
  | tier
  | user
  | userAccess
  | userToken
  | userPhone
  | userProfile
  | userContact
  | topicMeta
  | schemaVersion
  | access
  | userOld
  | userAccessOld
  | userTokenOld
deriving DecidableEq, Repr

inductive ColumnName where
  | id
  | code
  | name
  | messagesLimit
  | messagesExpiryDuration
  | emailsLimit
  | callsLimit
  | reservationsLimit
  | attachmentFileSizeLimit
  | attachmentTotalSizeLimit
  | attachmentExpiryDuration
  | attachmentBandwidthLimit
  | stripePriceId
  | stripeMonthlyPriceId
  | stripeYearlyPriceId
  | tierId
  | user
  | pass
  | role
  | prefs
  | syncTopic
  | provisioned
  | statsMessages
  | statsEmails
  | statsCalls
  | stripeCustomerId
  | stripeSubscriptionId
  | stripeSubscriptionStatus
  | stripeSubscriptionInterval
  | stripeSubscriptionPaidUntil
  | stripeSubscriptionCancelAt
  | created
  | deleted
  | userId
  | topic
  | read
  | write
  | ownerUserId
  | token
  | label
  | lastAccess
  | lastOrigin
  | expires
  | phoneNumber
  | displayName
  | bio
  | avatarId
  | lastSeen
  | privacy
  | contactUserId
  | nickname
  | status
  | createdAt
  | updatedAt
  | description
  | createdBy
  | dmUserA
  | dmUserB
  | version
deriving DecidableEq, Repr

inductive IndexName where
  | tierCode
  | tierPriceId
  | tierStripeMonthlyPriceId
  | tierStripeYearlyPriceId
  | user
  | userStripeCustomerId
  | userStripeSubscriptionId
  | userToken
  | contactUser
  | contactReverse
  | topicMetaDM
deriving DecidableEq, Repr

end Names

section Definitions

/-- A column that may be `NULL`. -/
def nullable (c : ColumnName) : Column ColumnName :=
  ⟨c, false, .null⟩

/-- A column declared `NOT NULL`. -/
def notNull (c : ColumnName) : Column ColumnName :=
  ⟨c, true, .null⟩

/-- A column declared `NOT NULL DEFAULT ...`. -/
def defaulting
    (c : ColumnName)
    (v : Value) : Column ColumnName :=
  ⟨c, true, v⟩

/-- `FOREIGN KEY (c) REFERENCES user (id) ON DELETE CASCADE` -/
def ofUser (c : ColumnName) : ForeignKey TableName ColumnName :=
  ⟨c, .user, .id, true⟩

/-- `FOREIGN KEY (tier_id) REFERENCES tier (id)` -/
def ofTier : ForeignKey TableName ColumnName :=
  ⟨.tierId, .tier, .id, false⟩

/-- `role IN ('anonymous', 'admin', 'user')` -/
def roleCheck : ColumnName × List Value :=
  (.role, [.text "anonymous", .text "admin", .text "user"])

/-- A unique index. -/
def uniqueIndex
    (i : IndexName)
    (columns : List ColumnName) : Index ColumnName IndexName :=
  ⟨i, columns, true, none⟩

abbrev TableSchema := TableDef TableName ColumnName IndexName

abbrev Script := List (Command TableName ColumnName IndexName)

/-- `CREATE TABLE IF NOT EXISTS ...` -/
def createTable
    (d : TableSchema) : Command TableName ColumnName IndexName :=
  .ddl (.createTable true d)

/-- `CREATE UNIQUE INDEX ...` -/
def createUniqueIndex
    (t : TableName)
    (i : IndexName)
    (columns : List ColumnName) : Command TableName ColumnName IndexName :=
  .ddl (.createIndex false t (uniqueIndex i columns))

end Definitions

section Creation

def tierTable : TableSchema where
  name := .tier
  columns :=
    [nullable .id, notNull .code, notNull .name, notNull .messagesLimit,
      notNull .messagesExpiryDuration, notNull .emailsLimit,
      notNull .callsLimit, notNull .reservationsLimit,
      notNull .attachmentFileSizeLimit, notNull .attachmentTotalSizeLimit,
      notNull .attachmentExpiryDuration, notNull .attachmentBandwidthLimit,
      nullable .stripeMonthlyPriceId, nullable .stripeYearlyPriceId]
  primaryKey := [.id]
  checks := []
  foreignKeys := []
  indexes := []

def userTable : TableSchema where
  name := .user
  columns :=
    [nullable .id, nullable .tierId, notNull .user, notNull .pass,
      notNull .role, defaulting .prefs (.text "\x7b\x7d"), notNull .syncTopic,
      notNull .provisioned, defaulting .statsMessages (.int 0),
      defaulting .statsEmails (.int 0), defaulting .statsCalls (.int 0),
      nullable .stripeCustomerId, nullable .stripeSubscriptionId,
      nullable .stripeSubscriptionStatus, nullable .stripeSubscriptionInterval,
      nullable .stripeSubscriptionPaidUntil,
      nullable .stripeSubscriptionCancelAt, notNull .created,
      nullable .deleted]
  primaryKey := [.id]
  checks := [roleCheck]
  foreignKeys := [ofTier]
  indexes := []

def userAccessTable : TableSchema where
  name := .userAccess
  columns :=
    [notNull .userId, notNull .topic, notNull .read, notNull .write,
      nullable .ownerUserId, notNull .provisioned]
  primaryKey := [.userId, .topic]
  checks := []
  foreignKeys := [ofUser .userId, ofUser .ownerUserId]
  indexes := []

def userTokenTable : TableSchema where
  name := .userToken
  columns :=
    [notNull .userId, notNull .token, notNull .label, notNull .lastAccess,
      notNull .lastOrigin, notNull .expires, notNull .provisioned]
  primaryKey := [.userId, .token]
  checks := []
  foreignKeys := [ofUser .userId]
  indexes := []

def userPhoneTable : TableSchema where
  name := .userPhone
  columns := [notNull .userId, notNull .phoneNumber]
  primaryKey := [.userId, .phoneNumber]
  checks := []
  foreignKeys := [ofUser .userId]
  indexes := []

def userProfileTable : TableSchema where
  name := .userProfile
  columns :=
    [nullable .userId, defaulting .displayName (.text ""),
      defaulting .bio (.text ""), defaulting .avatarId (.text ""),
      defaulting .lastSeen (.int 0)]
  primaryKey := [.userId]
  checks := []
  foreignKeys := [ofUser .userId]
  indexes := []

def schemaVersionTable : TableSchema where
  name := .schemaVersion
  columns := [nullable .id, notNull .version]
  primaryKey := [.id]
  checks := []
  foreignKeys := []
  indexes := []

/-- The insert of `everyone`. -/
def insertEveryoneQuery : Stmt TableName ColumnName where
  reads := []
  effect :=
    .insert .user
      [.id, .user, .pass, .role, .syncTopic, .provisioned, .created]
      (.target [.id] [])
      (fun _ _ =>
        [[.text everyoneID, .text everyone, .text "", .text "anonymous",
          .text "", .int 0, .int 0]])

def createTablesQueries : Script :=
  [createTable tierTable,
    createUniqueIndex .tier .tierCode [.code],
    createUniqueIndex .tier .tierStripeMonthlyPriceId [.stripeMonthlyPriceId],
    createUniqueIndex .tier .tierStripeYearlyPriceId [.stripeYearlyPriceId],
    createTable userTable,
    createUniqueIndex .user .user [.user],
    createUniqueIndex .user .userStripeCustomerId [.stripeCustomerId],
    createUniqueIndex .user .userStripeSubscriptionId [.stripeSubscriptionId],
    createTable userAccessTable,
    createTable userTokenTable,
    createUniqueIndex .userToken .userToken [.token],
    createTable userPhoneTable,
    createTable userProfileTable,
    createTable schemaVersionTable,
    .dml insertEveryoneQuery []]

def currentSchemaVersion : Int := 9

def insertSchemaVersion : Stmt TableName ColumnName where
  reads := []
  effect :=
    .insert .schemaVersion [.id, .version] .abort
      (fun a _ => [[.int 1, a 0]])

def updateSchemaVersion : Stmt TableName ColumnName where
  reads := [(.schemaVersion, [.id])]
  effect :=
    .update .schemaVersion [.version] (fun a _ _ => [a 0])
      (fun _ _ r => decide (r .id = .int 1))

def selectSchemaVersionQuery : Stmt TableName ColumnName where
  reads := [(.schemaVersion, [.id, .version])]
  effect :=
    .select (fun _ v =>
      ((v .schemaVersion).filter (fun r => decide (r .id = .int 1))).map
        (fun r => [r .version]))

end Creation

section Migrations

/-- `tier` of version 2. -/
def tierTable2 : TableSchema where
  name := .tier
  columns :=
    [nullable .id, notNull .code, notNull .name, notNull .messagesLimit,
      notNull .messagesExpiryDuration, notNull .emailsLimit,
      notNull .reservationsLimit, notNull .attachmentFileSizeLimit,
      notNull .attachmentTotalSizeLimit, notNull .attachmentExpiryDuration,
      notNull .attachmentBandwidthLimit, nullable .stripePriceId]
  primaryKey := [.id]
  checks := []
  foreignKeys := []
  indexes := []

/-- `user` of version 2. -/
def userTable2 : TableSchema where
  name := .user
  columns :=
    [nullable .id, nullable .tierId, notNull .user, notNull .pass,
      notNull .role, defaulting .prefs (.text "\x7b\x7d"), notNull .syncTopic,
      defaulting .statsMessages (.int 0), defaulting .statsEmails (.int 0),
      nullable .stripeCustomerId, nullable .stripeSubscriptionId,
      nullable .stripeSubscriptionStatus,
      nullable .stripeSubscriptionPaidUntil,
      nullable .stripeSubscriptionCancelAt, notNull .created,
      nullable .deleted]
  primaryKey := [.id]
  checks := [roleCheck]
  foreignKeys := [ofTier]
  indexes := []

/-- `user_access` of version 2. -/
def userAccessTable2 : TableSchema where
  name := .userAccess
  columns :=
    [notNull .userId, notNull .topic, notNull .read, notNull .write,
      nullable .ownerUserId]
  primaryKey := [.userId, .topic]
  checks := []
  foreignKeys := [ofUser .userId, ofUser .ownerUserId]
  indexes := []

/-- `user_token` of version 2. -/
def userTokenTable2 : TableSchema where
  name := .userToken
  columns :=
    [notNull .userId, notNull .token, notNull .label, notNull .lastAccess,
      notNull .lastOrigin, notNull .expires]
  primaryKey := [.userId, .token]
  checks := []
  foreignKeys := [ofUser .userId]
  indexes := []

/-- The insert of `everyone` of version 2. -/
def insertEveryoneQuery2 : Stmt TableName ColumnName where
  reads := []
  effect :=
    .insert .user [.id, .user, .pass, .role, .syncTopic, .created]
      (.target [.id] [])
      (fun _ _ =>
        [[.text everyoneID, .text everyone, .text "", .text "anonymous",
          .text "", .int 0]])

def migrate1To2CreateTablesQueries : Script :=
  [.ddl (.renameTable .user .userOld),
    createTable tierTable2,
    createUniqueIndex .tier .tierCode [.code],
    createUniqueIndex .tier .tierPriceId [.stripePriceId],
    createTable userTable2,
    createUniqueIndex .user .user [.user],
    createUniqueIndex .user .userStripeCustomerId [.stripeCustomerId],
    createUniqueIndex .user .userStripeSubscriptionId [.stripeSubscriptionId],
    createTable userAccessTable2,
    createTable userTokenTable2,
    createTable schemaVersionTable,
    .dml insertEveryoneQuery2 []]

def migrate1To2SelectAllOldUsernamesNoTx : Stmt TableName ColumnName where
  reads := [(.userOld, [.user])]
  effect := .select (fun _ v => (v .userOld).map (fun r => [r .user]))

/-- The arguments are the new ID and sync topic, and the name. -/
def migrate1To2InsertUserNoTx : Stmt TableName ColumnName where
  reads := [(.userOld, [.user, .pass, .role])]
  effect :=
    .insert .user [.id, .user, .pass, .role, .syncTopic, .created] .abort
      (fun a v =>
        ((v .userOld).filter (fun r => decide (r .user = a 2))).map
          (fun r => [a 0, r .user, r .pass, r .role, a 1, .int 0]))

def migrate1To2InsertFromOldTables : Stmt TableName ColumnName where
  reads := [(.user, [.id, .user]), (.access, [.user, .topic, .read, .write])]
  effect :=
    .insert .userAccess [.userId, .topic, .read, .write] .abort
      (fun _ v =>
        (v .user).flatMap (fun u =>
          ((v .access).filter (fun a => decide (a .user = u .user))).map
            (fun a => [u .id, a .topic, a .read, a .write])))

def migrate1To2InsertFromOldTablesAndDropNoTx : Script :=
  [.dml migrate1To2InsertFromOldTables [],
    .ddl (.dropTable .access),
    .ddl (.dropTable .userOld)]

def migrate2To3UpdateQueries : Script :=
  [.ddl (.addColumn .user (nullable .stripeSubscriptionInterval)),
    .ddl (.renameColumn .tier .stripePriceId .stripeMonthlyPriceId),
    .ddl (.addColumn .tier (nullable .stripeYearlyPriceId)),
    .ddl (.dropIndexIfExists .tierPriceId),
    createUniqueIndex .tier .tierStripeMonthlyPriceId [.stripeMonthlyPriceId],
    createUniqueIndex .tier .tierStripeYearlyPriceId [.stripeYearlyPriceId]]

def migrate3To4UpdateQueries : Script :=
  [.ddl (.addColumn .tier (defaulting .callsLimit (.int 0))),
    .ddl (.addColumn .user (defaulting .statsCalls (.int 0))),
    createTable userPhoneTable]

/-- `REPLACE(topic, '_', '\_')` -/
def replaceUnderscore : Value → Value
  | .text s =>
      .text (String.ofList
        (s.toList.flatMap (fun c => if c = '_' then ['\\', '_'] else [c])))
  | v => v

def migrate4To5UpdateQueries : Script :=
  [.dml
    { reads := [(.userAccess, [.topic])]
      effect :=
        .update .userAccess [.topic]
          (fun _ _ r => [replaceUnderscore (r .topic)]) (fun _ _ _ => true) }
    []]

/-- The columns of `user` of version 5, in the order of the copy. -/
def copiedUserColumns : List ColumnName :=
  [.id, .tierId, .user, .pass, .role, .prefs, .syncTopic, .statsMessages,
    .statsEmails, .statsCalls, .stripeCustomerId, .stripeSubscriptionId,
    .stripeSubscriptionStatus, .stripeSubscriptionInterval,
    .stripeSubscriptionPaidUntil, .stripeSubscriptionCancelAt, .created,
    .deleted]

/-- Copies a table with all its columns, with `provisioned` as `0`. -/
def copyProvisioned
    (t t' : TableName)
    (columns : List ColumnName) : Stmt TableName ColumnName where
  reads := [(t, columns)]
  effect :=
    .insert t' (columns ++ [.provisioned]) .abort
      (fun _ v => (v t).map (fun r => columns.map r ++ [.int 0]))

/-- The two PRAGMAs of the script have no effect within the transaction. -/
def migrate5To6UpdateQueries : Script :=
  [.ddl (.renameTable .user .userOld),
    createTable userTable,
    .dml (copyProvisioned .userOld .user copiedUserColumns) [],
    .ddl (.dropTable .userOld),
    .ddl (.renameTable .userAccess .userAccessOld),
    .ddl (.createTable false userAccessTable),
    .dml
      (copyProvisioned .userAccessOld .userAccess
        [.userId, .topic, .read, .write, .ownerUserId]) [],
    .ddl (.dropTable .userAccessOld),
    .ddl (.renameTable .userToken .userTokenOld),
    createTable userTokenTable,
    .dml
      (copyProvisioned .userTokenOld .userToken
        [.userId, .token, .label, .lastAccess, .lastOrigin, .expires]) [],
    .ddl (.dropTable .userTokenOld),
    createUniqueIndex .user .user [.user],
    createUniqueIndex .user .userStripeCustomerId [.stripeCustomerId],
    createUniqueIndex .user .userStripeSubscriptionId [.stripeSubscriptionId],
    createUniqueIndex .userToken .userToken [.token]]

def migrate6To7UpdateQueries : Script :=
  [createTable userProfileTable,
    .dml
      { reads := [(.user, [.id, .role])]
        effect :=
          .insert .userProfile [.userId] .ignore
            (fun _ v =>
              ((v .user).filter
                (fun u => decide (u .role ≠ .text "anonymous"))).map
                  (fun u => [u .id])) }
      []]

def userContactTable : TableSchema where
  name := .userContact
  columns :=
    [notNull .userId, notNull .contactUserId,
      defaulting .nickname (.text ""), defaulting .status (.text "pending"),
      defaulting .createdAt (.int 0), defaulting .updatedAt (.int 0)]
  primaryKey := [.userId, .contactUserId]
  checks := []
  foreignKeys := [ofUser .userId, ofUser .contactUserId]
  indexes := []

/-- `topic_meta` of version 8. -/
def topicMetaTable8 : TableSchema where
  name := .topicMeta
  columns :=
    [nullable .topic, defaulting .displayName (.text ""),
      defaulting .description (.text ""), defaulting .avatarId (.text ""),
      defaulting .createdBy (.text ""), defaulting .createdAt (.int 0)]
  primaryKey := [.topic]
  checks := []
  foreignKeys := []
  indexes := []

def migrate7To8UpdateQueries : Script :=
  [createTable userContactTable,
    .ddl (.createIndex true .userContact
      ⟨.contactUser, [.userId, .status], false, none⟩),
    .ddl (.createIndex true .userContact
      ⟨.contactReverse, [.contactUserId, .status], false, none⟩),
    createTable topicMetaTable8,
    .ddl (.addColumn .userProfile (defaulting .privacy (.text "request")))]

def migrate8To9UpdateQueries : Script :=
  [.ddl (.addColumn .topicMeta (defaulting .dmUserA (.text ""))),
    .ddl (.addColumn .topicMeta (defaulting .dmUserB (.text ""))),
    .ddl (.createIndex true .topicMeta
      ⟨.topicMetaDM, [.dmUserA, .dmUserB], true, some (.dmUserA, .text "")⟩)]

end Migrations

section Setup

abbrev UserDatabase := Db TableName ColumnName IndexName

abbrev Failure := SqlError TableName ColumnName IndexName

/-- The random ID and sync topic of a migrated user, by name. -/
abbrev Drawn := String → String × String

/-- Inserts the users of the old table one after another. -/
def insertOldUsers
    (drawn : Drawn)
    (usernames : Answer) : Script :=
  usernames.flatMap (fun row =>
    match row with
    | [.text username] =>
        [.dml migrate1To2InsertUserNoTx
          [.text (drawn username).1, .text (drawn username).2,
            .text username]]
    | _ => [])

def migrateFrom1
    (drawn : Drawn)
    (db : UserDatabase) : Except Failure UserDatabase :=
  (runScript db migrate1To2CreateTablesQueries).bind fun db =>
    (exec .script db.schema migrate1To2SelectAllOldUsernamesNoTx
      (fun _ => .null) db.content).bind fun x =>
        runScript db
          (insertOldUsers drawn x.1 ++
            migrate1To2InsertFromOldTablesAndDropNoTx ++
              [.dml updateSchemaVersion [.int 2]])

/-- A migration that is a script. -/
def migrateBy
    (script : Script)
    (version : Int)
    (db : UserDatabase) : Except Failure UserDatabase :=
  runScript db (script ++ [.dml updateSchemaVersion [.int version]])

/-- The migrations, by the version they start from. -/
def migrations
    (drawn : Drawn) :
    Nat → Option (UserDatabase → Except Failure UserDatabase)
  | 1 => some (migrateFrom1 drawn)
  | 2 => some (migrateBy migrate2To3UpdateQueries 3)
  | 3 => some (migrateBy migrate3To4UpdateQueries 4)
  | 4 => some (migrateBy migrate4To5UpdateQueries 5)
  | 5 => some (migrateBy migrate5To6UpdateQueries 6)
  | 6 => some (migrateBy migrate6To7UpdateQueries 7)
  | 7 => some (migrateBy migrate7To8UpdateQueries 8)
  | 8 => some (migrateBy migrate8To9UpdateQueries 9)
  | _ => none

inductive SetupError where
  | sql (e : Failure)
  | corrupt
  | unexpectedVersion (version : Int)
  | noMigration (version : Nat)
deriving DecidableEq, Repr

/-- Runs the next `n` migrations. -/
def migrate
    (drawn : Drawn) :
    Nat → Nat → UserDatabase → Except SetupError UserDatabase
  | 0, _, db => .ok db
  | n + 1, version, db =>
      match migrations drawn version with
      | none => .error (.noMigration version)
      | some fn =>
          ((fn db).mapError .sql).bind (migrate drawn n (version + 1))

def setupNewDB (db : UserDatabase) : Except SetupError UserDatabase :=
  (runScript db
    (createTablesQueries ++
      [.dml insertSchemaVersion [.int currentSchemaVersion]])).mapError .sql

/-- Creates the schema, or migrates an older one. -/
def setupDB
    (drawn : Drawn)
    (db : UserDatabase) : Except SetupError UserDatabase :=
  match exec .script db.schema selectSchemaVersionQuery (fun _ => .null)
      db.content with
  | .error _ => setupNewDB db
  | .ok ([.int version] :: _, _) =>
      if version = currentSchemaVersion then
        .ok db
      else if version > currentSchemaVersion then
        .error (.unexpectedVersion version)
      else
        migrate drawn (currentSchemaVersion - version).toNat version.toNat db
  | .ok _ => .error .corrupt

end Setup

section Versions

/-- `user` of version 1. -/
def userTable1 : TableSchema where
  name := .user
  columns := [notNull .user, notNull .pass, notNull .role]
  primaryKey := [.user]
  checks := []
  foreignKeys := []
  indexes := []

/-- `access` of version 1. -/
def accessTable1 : TableSchema where
  name := .access
  columns := [notNull .user, notNull .topic, notNull .read, notNull .write]
  primaryKey := [.topic, .user]
  checks := []
  foreignKeys := []
  indexes := []

/-- Creates a database of version 1. -/
def createTables1Queries : Script :=
  [createTable userTable1, createTable accessTable1,
    createTable schemaVersionTable, .dml insertSchemaVersion [.int 1]]

/-- Creates a database of version 6, which has no profiles yet. -/
def createTables6Queries : Script :=
  createTablesQueries ++
    [.ddl (.dropTable .userProfile), .dml insertSchemaVersion [.int 6]]

/-- The version that created the database: the first one, or 6 or a later one. -/
inductive Origin where
  | first
  | sixth
deriving DecidableEq, Repr

def Origin.version : Origin → Nat
  | .first => 1
  | .sixth => 6

def Origin.script : Origin → Script
  | .first => createTables1Queries
  | .sixth => createTables6Queries

/-- A database of this origin and version, without users. -/
def emptyVersion
    (drawn : Drawn)
    (o : Origin)
    (v : Nat) : Except SetupError UserDatabase :=
  ((runScript .empty o.script).mapError .sql).bind
    (migrate drawn (v - o.version) o.version)

/-- The database that is created. -/
def freshDB : UserDatabase :=
  (setupNewDB .empty).toOption.getD .empty

/-- The database that is migrated. -/
def migratedDB (o : Origin) : UserDatabase :=
  (emptyVersion (fun _ => ("", "")) o 9).toOption.getD .empty

/-- The version that the database is stamped with. -/
def UserDatabase.stamp (db : UserDatabase) : Option Answer :=
  (exec .script db.schema selectSchemaVersionQuery (fun _ => .null)
    db.content).toOption.map Prod.fst

end Versions

section SetupResults

variable (drawn : Drawn)

/-- A database in which no user is left to be copied. -/
theorem migrateFrom1_eq
    {db db' : UserDatabase}
    (hcreate : runScript db migrate1To2CreateTablesQueries = .ok db')
    (hnone : db'.content .userOld = [])
    (drawn' : Drawn) :
    migrateFrom1 drawn db = migrateFrom1 drawn' db := by
  have hanswer : ∀ x, exec .script db'.schema
      migrate1To2SelectAllOldUsernamesNoTx (fun _ => .null) db'.content =
        .ok x → x.1 = [] := by
    intro x hx
    simp only [exec] at hx
    split at hx
    case h_1 =>
      cases hx
    case h_2 =>
      cases hx
      simp [view, hnone, migrate1To2SelectAllOldUsernamesNoTx]
  unfold migrateFrom1
  rw [hcreate]
  cases hread : exec .script db'.schema migrate1To2SelectAllOldUsernamesNoTx
      (fun _ => .null) db'.content with
  | error e =>
      simp [Except.bind, hread]
  | ok x =>
      simp [Except.bind, hread, hanswer x hread, insertOldUsers]

/-- From version 2 on nothing is drawn. -/
theorem migrate_eq
    {version : Nat}
    (hversion : 2 ≤ version)
    (drawn' : Drawn) (n : Nat) (db : UserDatabase) :
    migrate drawn n version db = migrate drawn' n version db := by
  induction n generalizing version db with
  | zero =>
      rfl
  | succ n ih =>
      have hfn : migrations drawn version = migrations drawn' version := by
        have hne : version ≠ 1 := by omega
        unfold migrations
        split
        case h_1 =>
          exact absurd rfl hne
        all_goals rfl
      have hrest : migrate drawn n (version + 1) =
          migrate drawn' n (version + 1) :=
        funext fun db' => ih (Nat.le_succ_of_le hversion) db'
      rw [migrate, migrate, hfn, hrest]

theorem migrate_add
    (m n version : Nat) (db : UserDatabase) :
    migrate drawn (m + n) version db =
      (migrate drawn m version db).bind (migrate drawn n (version + m)) := by
  induction m generalizing version db with
  | zero =>
      simp [migrate, Except.bind]
  | succ m ih =>
      rw [Nat.succ_add, migrate, migrate]
      cases migrations drawn version with
      | none =>
          rfl
      | some fn =>
          cases hfn : (fn db).mapError SetupError.sql with
          | error e =>
              simp [hfn, Except.bind]
          | ok db' =>
              simp only [hfn, Except.bind]
              rw [ih]
              simp [Except.bind, Nat.add_assoc, Nat.add_comm 1 m]

theorem first_without_users :
    ∃ db db', runScript .empty Origin.first.script = .ok db ∧
      runScript db migrate1To2CreateTablesQueries = .ok db' ∧
        db'.content .userOld = [] := by
  have h : ((runScript .empty Origin.first.script).bind
      (fun db => runScript db migrate1To2CreateTablesQueries)).toOption.map
        (fun db => (db.content .userOld).isEmpty) = some true := by
    decide
  cases hscript : runScript (.empty : UserDatabase) Origin.first.script with
  | error e =>
      rw [hscript] at h
      cases h
  | ok db =>
      cases hcreate : runScript db migrate1To2CreateTablesQueries with
      | error e =>
          simp only [hscript, Except.bind, hcreate] at h
          cases h
      | ok db' =>
          simp only [hscript, Except.bind, hcreate] at h
          exact ⟨db, db', rfl, hcreate,
            List.isEmpty_iff.mp (Option.some.inj h)⟩

/-- Before the first migration there is no user to be copied. -/
theorem emptyVersion_eq
    (drawn' : Drawn) (o : Origin) (v : Nat) :
    emptyVersion drawn o v = emptyVersion drawn' o v := by
  unfold emptyVersion
  generalize v - o.version = n
  cases o with
  | sixth =>
      have h : ∀ db, migrate drawn n Origin.sixth.version db =
          migrate drawn' n Origin.sixth.version db :=
        migrate_eq drawn (by decide) drawn' n
      rw [funext h]
  | first =>
      obtain ⟨db, db', hscript, hcreate, hnone⟩ := first_without_users
      rw [hscript]
      cases n with
      | zero =>
          rfl
      | succ n =>
          have hfrom : migrateFrom1 drawn db = migrateFrom1 drawn' db :=
            migrateFrom1_eq drawn hcreate hnone drawn'
          have hrest : migrate drawn n 2 = migrate drawn' n 2 :=
            funext fun d => migrate_eq drawn (by decide) drawn' n d
          change ((migrateFrom1 drawn db).mapError SetupError.sql).bind
              (migrate drawn n 2) =
            ((migrateFrom1 drawn' db).mapError SetupError.sql).bind
              (migrate drawn' n 2)
          rw [hfrom, hrest]

theorem emptyVersion_add
    {o : Origin} {v : Nat}
    (hle : o.version ≤ v)
    (n : Nat) :
    emptyVersion drawn o (v + n) =
      (emptyVersion drawn o v).bind (migrate drawn n v) := by
  have hsub : v + n - o.version = (v - o.version) + n := by omega
  have hadd : o.version + (v - o.version) = v := by omega
  unfold emptyVersion
  rw [hsub]
  cases hscript : (runScript .empty o.script).mapError SetupError.sql with
  | error e =>
      rfl
  | ok db =>
      change migrate drawn _ _ db = (migrate drawn _ _ db).bind _
      rw [migrate_add, hadd]

theorem setupDB_of_stamp
    {db : UserDatabase} {version : Nat}
    (h : db.stamp = some [[.int version]])
    (hle : version ≤ 9) :
    setupDB drawn db = migrate drawn (9 - version) version db := by
  unfold UserDatabase.stamp at h
  unfold setupDB
  cases hread : exec .script db.schema selectSchemaVersionQuery
      (fun _ => .null) db.content with
  | error e =>
      rw [hread] at h
      cases h
  | ok x =>
      obtain ⟨answer, C⟩ := x
      rw [hread] at h
      cases h
      simp only [currentSchemaVersion]
      by_cases heq : version = 9
      · subst heq
        simp [migrate]
      · have hne : (version : Int) ≠ 9 := by omega
        have hlt : ¬ (version : Int) > 9 := by omega
        have hsub : ((9 : Int) - version).toNat = 9 - version := by omega
        simp [hne, hlt, hsub]

/-- Every version stamps its databases. -/
theorem stamp_emptyVersion
    (o : Origin) :
    ∀ v < 10, o.version ≤ v →
      (emptyVersion (fun _ => ("", "")) o v).toOption.bind UserDatabase.stamp =
        some [[.int v]] := by
  cases o <;> decide

/-- A new file gets the tables of the creation script. -/
theorem setupDB_empty :
    setupDB drawn .empty = .ok freshDB := by
  have hok : (setupNewDB .empty).toOption.isSome = true := by
    decide
  change setupNewDB .empty = .ok freshDB
  unfold freshDB
  cases hnew : setupNewDB .empty with
  | error e =>
      rw [hnew] at hok
      cases hok
  | ok db =>
      rfl

/-- An older database is migrated to one that depends on its origin alone. -/
theorem setupDB_emptyVersion
    {o : Origin} {v : Nat}
    (hle : o.version ≤ v)
    (hlt : v < 10) :
    (emptyVersion drawn o v).bind (setupDB drawn) = .ok (migratedDB o) := by
  have hstamp := stamp_emptyVersion o v hlt hle
  have hlast := stamp_emptyVersion o 9 (by decide) (by omega)
  have hall := emptyVersion_add drawn hle (9 - v)
  rw [Nat.add_sub_cancel' (Nat.le_of_lt_succ hlt)] at hall
  rw [migratedDB]
  rw [emptyVersion_eq (fun _ => ("", "")) drawn] at hstamp hlast ⊢
  cases hv : emptyVersion drawn o v with
  | error e =>
      rw [hv] at hstamp
      cases hstamp
  | ok db =>
      rw [hv] at hstamp hall
      have hsetup : setupDB drawn db = migrate drawn (9 - v) v db :=
        setupDB_of_stamp drawn hstamp (Nat.le_of_lt_succ hlt)
      change setupDB drawn db = _
      rw [hsetup]
      change emptyVersion drawn o 9 = migrate drawn (9 - v) v db at hall
      rw [← hall]
      cases hnine : emptyVersion drawn o 9 with
      | error e =>
          rw [hnine] at hlast
          cases hlast
      | ok db' =>
          rfl

end SetupResults

end UserDB
end Manager
end CoopMessenger
