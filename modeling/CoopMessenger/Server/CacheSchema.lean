import CoopMessenger.Library.Ranking
import CoopMessenger.Library.SchemaChanges
import CoopMessenger.Server.Message

/-!
# The schema of the message cache

The creation script of `server/message_cache.go`, its seventeen migrations, and
`setupMessagesDB`, which runs one or the other; and the statements on the table `messages`.
Column types are left out, as no value that is stored is changed by the affinity of its
column.  `AUTOINCREMENT` is modelled by giving the row ID with the other columns.

**Results.**
* `oldDatabase_isSome`: the empty database of the first version is migrated.
* `columns_schemaAt`: the columns of `messages` in each version.
* `columns_freshSchema`: a migrated database has the columns of a new one.
-/

namespace CoopMessenger
namespace Server
namespace CacheDB

open Library Library.Sql

section Names

inductive TableName where
  | messages
  | messagesNew
  | schemaVersion
  | stats
  | invites
  | joinRequests
  | reactions
deriving DecidableEq, Repr

inductive ColumnName where
  | id
  | mid
  | sequenceId
  | time
  | event
  | expires
  | topic
  | message
  | title
  | priority
  | tags
  | click
  | icon
  | actions
  | attachmentName
  | attachmentType
  | attachmentSize
  | attachmentExpires
  | attachmentUrl
  | attachmentDeleted
  | attachmentOwner
  | sender
  | senderName
  | user
  | contentType
  | encoding
  | published
  | replyTo
  | replyToText
  | version
  | key
  | value
  | token
  | createdBy
  | topics
  | maxUses
  | usedCount
  | expiresAt
  | createdAt
  | username
  | status
  | resolvedAt
  | resolvedBy
  | messageId
  | emoji
deriving DecidableEq, Repr

inductive IndexName where
  | mid
  | sequenceId
  | time
  | topic
  | expires
  | sender
  | user
  | attachmentExpires
  | joinRequestsUnique
  | joinRequestsStatus
  | reactionsUnique
  | reactionsMessage
deriving DecidableEq, Repr

end Names

section Definitions

abbrev TableSchema := TableDef TableName ColumnName IndexName

abbrev Change := Ddl TableName ColumnName IndexName

abbrev Query := Stmt TableName ColumnName

abbrev Script := List (Command TableName ColumnName IndexName)

abbrev CacheDatabase := Db TableName ColumnName IndexName

abbrev Failure := SqlError TableName ColumnName IndexName

/-- A column declared `NOT NULL`. -/
def notNull (c : ColumnName) : Column ColumnName :=
  ⟨c, true, .null⟩

/-- A column that may be `NULL`. -/
def nullable (c : ColumnName) : Column ColumnName :=
  ⟨c, false, .null⟩

/-- `TEXT NOT NULL DEFAULT('')` -/
def text (c : ColumnName) : Column ColumnName :=
  ⟨c, true, .text ""⟩

/-- `INT NOT NULL DEFAULT('0')` -/
def int (c : ColumnName) : Column ColumnName :=
  ⟨c, true, .int 0⟩

/-- `ALTER TABLE messages ADD COLUMN ...` -/
def addColumn (c : Column ColumnName) : Change :=
  .addColumn .messages c

/-- `CREATE TABLE IF NOT EXISTS ...` -/
def createTable (d : TableSchema) : Change :=
  .createTable true d

/-- `CREATE INDEX IF NOT EXISTS ...` -/
def createIndex
    (t : TableName)
    (i : IndexName)
    (c : ColumnName) : Change :=
  .createIndex true t ⟨i, [c], false, none⟩

/-- A table without constraints but for its key. -/
def table
    (name : TableName)
    (columns : List (Column ColumnName))
    (primaryKey : List ColumnName) : TableSchema where
  name
  columns
  primaryKey
  checks := []
  foreignKeys := []
  indexes := []

end Definitions

section Creation

/-- The columns of `insertMessageQuery`. -/
def messageColumns : List ColumnName :=
  [.mid, .sequenceId, .time, .event, .expires, .topic, .message, .title, .priority, .tags,
    .click, .icon, .actions, .attachmentName, .attachmentType, .attachmentSize,
    .attachmentExpires, .attachmentUrl, .attachmentDeleted, .sender, .senderName, .user,
    .contentType, .encoding, .published, .replyTo, .replyToText]

def messagesTable : TableSchema :=
  table .messages
    (nullable .id :: (messageColumns.take 25).map notNull ++ [text .replyTo, text .replyToText])
    [.id]

def statsTable : TableSchema :=
  table .stats [nullable .key, nullable .value] [.key]

def invitesTable : TableSchema :=
  table .invites
    [nullable .token, notNull .createdBy, text .topics, ⟨.maxUses, true, .int 1⟩,
      int .usedCount, int .expiresAt, notNull .createdAt]
    [.token]

def joinRequestsTable : TableSchema where
  name := .joinRequests
  columns :=
    [nullable .id, notNull .username, notNull .topic, ⟨.status, true, .text "pending"⟩,
      notNull .createdAt, int .resolvedAt, text .resolvedBy]
  primaryKey := [.id]
  checks := []
  foreignKeys := []
  indexes := [⟨.joinRequestsUnique, [.username, .topic], true, none⟩]

def reactionsTable : TableSchema where
  name := .reactions
  columns :=
    [nullable .id, notNull .messageId, notNull .topic, notNull .username, notNull .emoji,
      notNull .createdAt]
  primaryKey := [.id]
  checks := []
  foreignKeys := []
  indexes := [⟨.reactionsUnique, [.messageId, .username, .emoji], true, none⟩]

def schemaVersionTable : TableSchema :=
  table .schemaVersion [nullable .id, notNull .version] [.id]

def insertStatsQuery : Query where
  reads := []
  effect :=
    .insert .stats [.key, .value] .abort (fun _ _ => [[.text "messages", .int 0]])

def createMessagesTableQuery : Script :=
  [.ddl (createTable messagesTable),
    .ddl (createIndex .messages .mid .mid),
    .ddl (createIndex .messages .sequenceId .sequenceId),
    .ddl (createIndex .messages .time .time),
    .ddl (createIndex .messages .topic .topic),
    .ddl (createIndex .messages .expires .expires),
    .ddl (createIndex .messages .sender .sender),
    .ddl (createIndex .messages .user .user),
    .ddl (createIndex .messages .attachmentExpires .attachmentExpires),
    .ddl (createTable statsTable),
    .dml insertStatsQuery [],
    .ddl (createTable invitesTable),
    .ddl (createTable joinRequestsTable),
    .ddl (createIndex .joinRequests .joinRequestsStatus .status),
    .ddl (createTable reactionsTable),
    .ddl (createIndex .reactions .reactionsMessage .messageId)]

def currentSchemaVersion : Int := 17

def insertSchemaVersion : Query where
  reads := []
  effect := .insert .schemaVersion [.id, .version] .abort (fun a _ => [[.int 1, a 0]])

def updateSchemaVersion : Query where
  reads := [(.schemaVersion, [.id])]
  effect :=
    .update .schemaVersion [.version] (fun a _ _ => [a 0])
      (fun _ _ r => decide (r .id = .int 1))

def selectSchemaVersionQuery : Query where
  reads := [(.schemaVersion, [.id, .version])]
  effect :=
    .select (fun _ v =>
      ((v .schemaVersion).filter (fun r => decide (r .id = .int 1))).map
        (fun r => [r .version]))

def selectMessagesCountQuery : Query where
  reads := [(.messages, [])]
  effect := .select (fun _ v => count (v .messages))

end Creation

section Migrations

def migrate0To1AlterMessagesTableQuery : List Change :=
  [addColumn (text .title), addColumn (int .priority), addColumn (text .tags)]

def migrate1To2AlterMessagesTableQuery : List Change :=
  [addColumn ⟨.published, true, .int 1⟩]

def migrate2To3AlterMessagesTableQuery : List Change :=
  [addColumn (text .click), addColumn (text .attachmentName),
    addColumn (text .attachmentType), addColumn (int .attachmentSize),
    addColumn (int .attachmentExpires), addColumn (text .attachmentOwner),
    addColumn (text .attachmentUrl)]

def migrate3To4AlterMessagesTableQuery : List Change :=
  [addColumn (text .encoding)]

/-- The columns of `messages` of version 4, in the order of the copy. -/
def copiedColumns : List ColumnName :=
  [.time, .topic, .message, .title, .priority, .tags, .click, .attachmentName,
    .attachmentType, .attachmentSize, .attachmentExpires, .attachmentUrl, .attachmentOwner,
    .encoding, .published]

def messagesNewTable : TableSchema :=
  table .messagesNew (nullable .id :: (.mid :: copiedColumns).map notNull) [.id]

/-- What is copied of a row; row IDs are assigned from 1 on, in the order of the table. -/
def copyValues
    (i : Nat)
    (r : Row ColumnName) : List Value :=
  .int (i + 1) :: r .id :: copiedColumns.map r

def insertMessagesNewQuery : Query where
  reads := [(.messages, .id :: copiedColumns)]
  effect :=
    .insert .messagesNew (.id :: .mid :: copiedColumns) .abort
      (fun _ v => (v .messages).mapIdx copyValues)

/-- The old indexes go with the old table, so there is no index on the topic. -/
def migrate4To5AlterMessagesTableQuery : Script :=
  [.ddl (createTable messagesNewTable),
    .ddl (createIndex .messagesNew .mid .mid),
    .ddl (createIndex .messagesNew .topic .topic),
    .dml insertMessagesNewQuery [],
    .ddl (.dropTable .messages),
    .ddl (.renameTable .messagesNew .messages)]

def migrate5To6AlterMessagesTableQuery : List Change :=
  [addColumn (text .actions)]

def migrate6To7AlterMessagesTableQuery : List Change :=
  [.renameColumn .messages .attachmentOwner .sender]

def migrate7To8AlterMessagesTableQuery : List Change :=
  [addColumn (text .icon)]

def migrate8To9AlterMessagesTableQuery : List Change :=
  [createIndex .messages .time .time]

def migrate9To10AlterMessagesTableQuery : List Change :=
  [addColumn (text .user), addColumn (int .attachmentDeleted), addColumn (int .expires),
    createIndex .messages .expires .expires, createIndex .messages .sender .sender,
    createIndex .messages .user .user,
    createIndex .messages .attachmentExpires .attachmentExpires]

/-- Adds integers. -/
def plus : Value → Value → Value
  | .int a, .int b => .int (a + b)
  | _, _ => .null

def migrate9To10UpdateMessageExpiryQuery : Query where
  reads := [(.messages, [.time])]
  effect :=
    .update .messages [.expires] (fun a _ r => [plus (r .time) (a 0)]) (fun _ _ _ => true)

def migrate10To11AlterMessagesTableQuery : List Change :=
  [createTable statsTable]

def migrate11To12AlterMessagesTableQuery : List Change :=
  [addColumn (text .contentType)]

def migrate12To13AlterMessagesTableQuery : List Change :=
  [createIndex .messages .topic .topic]

def migrate13To14AlterMessagesTableQuery : List Change :=
  [addColumn (text .sequenceId), addColumn ⟨.event, true, .text "message"⟩,
    createIndex .messages .sequenceId .sequenceId]

def migrate14To15AlterMessagesTableQuery : List Change :=
  [addColumn (text .senderName)]

def migrate14To15CreateInvitesTableQuery : List Change :=
  [createTable invitesTable]

def migrate15To16CreateJoinRequestsTableQuery : List Change :=
  [createTable joinRequestsTable]

def migrate16To17AlterMessagesTableQuery : List Change :=
  [addColumn (text .replyTo), addColumn (text .replyToText)]

def migrate16To17CreateReactionsTableQuery : List Change :=
  [createTable reactionsTable, createIndex .reactions .reactionsMessage .messageId,
    createIndex .joinRequests .joinRequestsStatus .status]

/-- Changes of the schema, statements, and the new version. -/
def migrateBy
    (changes : List Change)
    (statements : Script)
    (version : Int) : Script :=
  changes.map .ddl ++ statements ++ [.dml updateSchemaVersion [.int version]]

/-- The migrations, by the version they start from; the duration is in seconds. -/
def migrations
    (cacheDuration : Int) :
    Nat → Option Script
  | 0 =>
      some ((migrate0To1AlterMessagesTableQuery ++ [createTable schemaVersionTable]).map .ddl ++
        [.dml insertSchemaVersion [.int 1]])
  | 1 => some (migrateBy migrate1To2AlterMessagesTableQuery [] 2)
  | 2 => some (migrateBy migrate2To3AlterMessagesTableQuery [] 3)
  | 3 => some (migrateBy migrate3To4AlterMessagesTableQuery [] 4)
  | 4 => some (migrateBy [] migrate4To5AlterMessagesTableQuery 5)
  | 5 => some (migrateBy migrate5To6AlterMessagesTableQuery [] 6)
  | 6 => some (migrateBy migrate6To7AlterMessagesTableQuery [] 7)
  | 7 => some (migrateBy migrate7To8AlterMessagesTableQuery [] 8)
  | 8 => some (migrateBy migrate8To9AlterMessagesTableQuery [] 9)
  | 9 =>
      some (migrateBy migrate9To10AlterMessagesTableQuery
        [.dml migrate9To10UpdateMessageExpiryQuery [.int cacheDuration]] 10)
  | 10 =>
      some (migrateBy migrate10To11AlterMessagesTableQuery [.dml insertStatsQuery []] 11)
  | 11 => some (migrateBy migrate11To12AlterMessagesTableQuery [] 12)
  | 12 => some (migrateBy migrate12To13AlterMessagesTableQuery [] 13)
  | 13 => some (migrateBy migrate13To14AlterMessagesTableQuery [] 14)
  | 14 =>
      some (migrateBy
        (migrate14To15AlterMessagesTableQuery ++ migrate14To15CreateInvitesTableQuery) [] 15)
  | 15 => some (migrateBy migrate15To16CreateJoinRequestsTableQuery [] 16)
  | 16 =>
      some (migrateBy
        (migrate16To17AlterMessagesTableQuery ++ migrate16To17CreateReactionsTableQuery) [] 17)
  | _ => none

end Migrations

section Setup

inductive SetupError where
  | sql (e : Failure)
  | corrupt
  | unexpectedVersion (version : Int)
  | noMigration (version : Nat)
deriving DecidableEq, Repr

/-- Runs the next `n` migrations. -/
def migrate
    (cacheDuration : Int) :
    Nat → Nat → CacheDatabase → Except SetupError CacheDatabase
  | 0, _, db => .ok db
  | n + 1, version, db =>
      match migrations cacheDuration version with
      | none => .error (.noMigration version)
      | some script =>
          ((runScript db script).mapError .sql).bind (migrate cacheDuration n (version + 1))

def setupNewCacheDB (db : CacheDatabase) : Except SetupError CacheDatabase :=
  (runScript db
    (createMessagesTableQuery ++
      [.ddl (createTable schemaVersionTable),
        .dml insertSchemaVersion [.int currentSchemaVersion]])).mapError .sql

/-- Executes a query without arguments. -/
def ask
    (db : CacheDatabase)
    (q : Query) : Except Failure Answer :=
  (exec .script db.schema q (fun _ => .null) db.content).map Prod.fst

/-- Creates the schema, or migrates an older one; without a stamp the version is 0. -/
def setupMessagesDB
    (cacheDuration : Int)
    (db : CacheDatabase) : Except SetupError CacheDatabase :=
  match ask db selectMessagesCountQuery with
  | .error _ => setupNewCacheDB db
  | .ok _ =>
      match ask db selectSchemaVersionQuery with
      | .error _ => migrate cacheDuration currentSchemaVersion.toNat 0 db
      | .ok ([.int version] :: _) =>
          if version = currentSchemaVersion then
            .ok db
          else if version > currentSchemaVersion then
            .error (.unexpectedVersion version)
          else
            migrate cacheDuration (currentSchemaVersion - version).toNat version.toNat db
      | .ok _ => .error .corrupt

end Setup

section Versions

/-- `messages` of the first version. -/
def messagesTable0 : TableSchema :=
  table .messages [nullable .id, notNull .time, notNull .topic, notNull .message] [.id]

/-- A database of the version without rows. -/
def oldDatabase : Nat → Option CacheDatabase
  | 0 =>
      (runScript .empty
        [.ddl (createTable messagesTable0),
          .ddl (createIndex .messages .topic .topic)]).toOption
  | v + 1 =>
      (oldDatabase v).bind fun db =>
        (migrations 0 v).bind fun script => (runScript db script).toOption

/-- The schema of the version. -/
def schemaAt (v : Nat) : Schema TableName ColumnName IndexName :=
  ((oldDatabase v).map Db.schema).getD []

/-- The schema of a new database. -/
def freshSchema : Schema TableName ColumnName IndexName :=
  ((setupNewCacheDB .empty).toOption.map Db.schema).getD []

/-- The version that brought the column. -/
def introduced : ColumnName → Nat
  | .title | .priority | .tags => 1
  | .published => 2
  | .click | .attachmentName | .attachmentType | .attachmentSize | .attachmentExpires => 3
  | .attachmentUrl | .sender => 3
  | .encoding => 4
  | .actions => 6
  | .icon => 8
  | .expires | .user | .attachmentDeleted => 10
  | .contentType => 12
  | .sequenceId | .event => 14
  | .senderName => 15
  | .replyTo | .replyToText => 17
  | _ => 0

/-- The name that the column has in the version. -/
def oldName
    (v : Nat) :
    ColumnName → ColumnName
  | .mid => if v ≤ 4 then .id else .mid
  | .sender => if v ≤ 6 then .attachmentOwner else .sender
  | c => c

/-- The columns of `messages` in the version, but for the row ID. -/
def columnsAt (v : Nat) : List ColumnName :=
  (messageColumns.filter fun c => decide (introduced c ≤ v)).map (oldName v)

end Versions

section Checks

/-- The empty database of the first version is migrated. -/
theorem oldDatabase_isSome :
    ∀ v < 18, (oldDatabase v).isSome = true := by
  decide +kernel

/-- The columns of `messages` in each version. -/
theorem columns_schemaAt :
    ∀ v < 18, (∀ c ∈ (schemaAt v).columns .messages, c = .id ∨ c ∈ columnsAt v) ∧
      ∀ c ∈ columnsAt v, c ∈ (schemaAt v).columns .messages := by
  decide +kernel

/-- A migrated database has the tables and the columns of a new one. -/
theorem columns_freshSchema :
    (∀ t ∈ freshSchema.names, ∀ c ∈ freshSchema.columns t, c ∈ (schemaAt 17).columns t) ∧
      ∀ t ∈ (schemaAt 17).names, ∀ c ∈ (schemaAt 17).columns t, c ∈ freshSchema.columns t := by
  decide +kernel

end Checks

end CacheDB
end Server
end CoopMessenger
