import CoopMessenger.Server.CacheMigrations

/-!
# Operations on migrated messages

The operations of the message cache on a database that was migrated and on a new one that
holds the same messages.  Both hold the same rows but for the sequence IDs of messages from
before version 14: `addMessages` is given the ID of the message, the migration leaves them
empty.  Readers cannot tell, but scheduled messages are deleted by their sequence IDs.

**Results.**
* `setupMessagesDB_old`: an old database is migrated.
* `migration_faithful_iff`: when every operation treats migrated messages like new ones.
-/

namespace CoopMessenger
namespace Server
namespace CacheDB

open Library Library.Sql

section Queries

/-- The columns of the queries for messages. -/
def selectedColumns : List ColumnName :=
  [.mid, .sequenceId, .time, .event, .expires, .topic, .message, .title, .priority, .tags,
    .click, .icon, .actions, .attachmentName, .attachmentType, .attachmentSize,
    .attachmentExpires, .attachmentUrl, .sender, .senderName, .user, .contentType,
    .encoding, .replyTo, .replyToText]

def number : Value → Int
  | .int n => n
  | _ => 0

/-- `ORDER BY time, id` -/
def byTime (r : Row ColumnName) : Int ×ₗ Int :=
  toLex (number (r .time), number (r .id))

/-- A query on `messages`: the columns it reads, its condition, and its result. -/
structure MessageQuery where
  columns : List ColumnName
  cond : Args → Row ColumnName → Bool
  result : List (Row ColumnName) → Answer

def MessageQuery.answer
    (q : MessageQuery)
    (a : Args)
    (rows : List (Row ColumnName)) : Answer :=
  q.result (rows.filter (q.cond a))

def MessageQuery.stmt (q : MessageQuery) : Query where
  reads := [(.messages, q.columns)]
  effect := .select fun a v => q.answer a (v .messages)

/-- `SELECT mid, sequence_id, ... FROM messages WHERE ... ORDER BY time, id` -/
def selectMessages (cond : Args → Row ColumnName → Bool) : MessageQuery where
  columns := .id :: .published :: selectedColumns
  cond
  result rows := (orderBy byTime rows).map fun r => selectedColumns.map r

def selectMessagesSinceTimeQuery : MessageQuery :=
  selectMessages fun a r => decide (r .topic = a 0) &&
    decide (number (a 1) ≤ number (r .time)) && decide (r .published = .int 1)

def selectMessagesSinceTimeIncludeScheduledQuery : MessageQuery :=
  selectMessages fun a r => decide (r .topic = a 0) &&
    decide (number (a 1) ≤ number (r .time))

def selectMessagesSinceIDQuery : MessageQuery :=
  selectMessages fun a r => decide (r .topic = a 0) &&
    decide (number (a 1) < number (r .id)) && decide (r .published = .int 1)

def selectMessagesSinceIDIncludeScheduledQuery : MessageQuery :=
  selectMessages fun a r => decide (r .topic = a 0) &&
    (decide (number (a 1) < number (r .id)) || decide (r .published = .int 0))

def selectMessagesDueQuery : MessageQuery :=
  selectMessages fun a r => decide (number (r .time) ≤ number (a 0)) &&
    decide (r .published = .int 0)

/-- `ORDER BY time DESC, id DESC LIMIT 1` -/
def selectMessagesLatestQuery : MessageQuery where
  columns := .id :: .published :: selectedColumns
  cond a r := decide (r .topic = a 0) && decide (r .published = .int 1)
  result rows := ((orderByDesc byTime rows).map fun r => selectedColumns.map r).take 1

def selectMessagesExpiredQuery : MessageQuery where
  columns := [.mid, .expires, .published]
  cond a r := decide (number (r .expires) ≤ number (a 0)) && decide (r .published = .int 1)
  result rows := rows.map fun r => [r .mid]

def selectRowIDFromMessageID : MessageQuery where
  columns := [.id, .mid]
  cond a r := decide (r .mid = a 0)
  result rows := rows.map fun r => [r .id]

/-- `SELECT IFNULL(SUM(attachment_size), 0) ...` -/
def attachmentSizes (rows : List (Row ColumnName)) : Answer :=
  [[.int (rows.foldr (fun r n => number (r .attachmentSize) + n) 0)]]

def selectAttachmentsSizeBySenderQuery : MessageQuery where
  columns := [.user, .sender, .attachmentExpires, .attachmentSize]
  cond a r := decide (r .user = .text "") && decide (r .sender = a 0) &&
    decide (number (a 1) ≤ number (r .attachmentExpires))
  result := attachmentSizes

def selectAttachmentsSizeByUserIDQuery : MessageQuery where
  columns := [.user, .attachmentExpires, .attachmentSize]
  cond a r := decide (r .user = a 0) &&
    decide (number (a 1) ≤ number (r .attachmentExpires))
  result := attachmentSizes

/-- Is the message scheduled in the topic, in the sequence? -/
def isScheduled
    (a : Args)
    (r : Row ColumnName) : Bool :=
  decide (r .topic = a 0) && decide (r .sequenceId = a 1) && decide (r .published = .int 0)

def selectScheduledMessageIDsBySeqIDQuery : MessageQuery where
  columns := [.mid, .topic, .sequenceId, .published]
  cond := isScheduled
  result rows := rows.map fun r => [r .mid]

def deleteScheduledBySequenceIDQuery : Query where
  reads := [(.messages, [.topic, .sequenceId, .published])]
  effect := .delete .messages fun a _ r => isScheduled a r

/-- The row ID that is assigned is the first argument. -/
def insertMessageQuery : Query where
  reads := []
  effect :=
    .insert .messages (.id :: messageColumns) .abort
      (fun a _ => [(List.range (messageColumns.length + 1)).map a])

end Queries

section Operations

/-- A sequence ID that is the ID of the message is not shown. -/
def forJSON : List Value → List Value
  | mid :: sequenceID :: rest =>
      mid :: (if sequenceID = mid then .text "" else sequenceID) :: rest
  | vals => vals

def ask?
    (db : CacheDatabase)
    (q : MessageQuery)
    (args : List Value) : Except Failure Answer :=
  (exec .script db.schema q.stmt (fun i => args.getD i .null) db.content).map Prod.fst

/-- The messages that a query finds, as they are shown. -/
def readMessages
    (db : CacheDatabase)
    (q : MessageQuery)
    (args : List Value) : Except Failure Answer :=
  (ask? db q args).map fun rows => rows.map forJSON

def messagesSinceTime
    (db : CacheDatabase)
    (topic : String)
    (time : Int)
    (scheduled : Bool) : Except Failure Answer :=
  readMessages db
    (if scheduled then selectMessagesSinceTimeIncludeScheduledQuery
      else selectMessagesSinceTimeQuery)
    [.text topic, .int time]

def messagesSinceID
    (db : CacheDatabase)
    (topic id : String)
    (scheduled : Bool) : Except Failure Answer :=
  (ask? db selectRowIDFromMessageID [.text id]).bind fun rows =>
    match rows with
    | [] => messagesSinceTime db topic sinceAllMessages.time scheduled
    | row :: _ =>
        readMessages db
          (if scheduled then selectMessagesSinceIDIncludeScheduledQuery
            else selectMessagesSinceIDQuery)
          [.text topic, row.headD .null]

/-- `Messages` -/
def messages
    (db : CacheDatabase)
    (topic : String)
    (since : SinceMarker)
    (scheduled : Bool) : Except Failure Answer :=
  if since.isNone then
    .ok []
  else if since.isLatest then
    readMessages db selectMessagesLatestQuery [.text topic]
  else if since.isID then
    messagesSinceID db topic since.id scheduled
  else
    messagesSinceTime db topic since.time scheduled

/-- The IDs of the messages that are deleted, and what is left. -/
def deleteScheduledBySequenceID
    (db : CacheDatabase)
    (topic sequenceID : String) : Except Failure (Answer × CacheDatabase) :=
  (ask? db selectScheduledMessageIDsBySeqIDQuery [.text topic, .text sequenceID]).bind
    fun ids =>
      (runScript db [.dml deleteScheduledBySequenceIDQuery
        [.text topic, .text sequenceID]]).map fun db' => (ids, db')

inductive Operation where
  | messages (topic : String) (since : SinceMarker) (scheduled : Bool)
  | messagesDue (now : Int)
  | messagesExpired (now : Int)
  | attachmentBytesUsedBySender (sender : String) (now : Int)
  | attachmentBytesUsedByUser (userID : String) (now : Int)
  | deleteScheduledBySequenceID (topic sequenceID : String)

def Operation.run
    (db : CacheDatabase) :
    Operation → Except Failure (Answer × CacheDatabase)
  | .messages topic since scheduled =>
      (CacheDB.messages db topic since scheduled).map fun answer => (answer, db)
  | .messagesDue now =>
      (readMessages db selectMessagesDueQuery [.int now]).map fun answer => (answer, db)
  | .messagesExpired now =>
      (ask? db selectMessagesExpiredQuery [.int now]).map fun answer => (answer, db)
  | .attachmentBytesUsedBySender sender now =>
      (ask? db selectAttachmentsSizeBySenderQuery [.text sender, .int now]).map
        fun answer => (answer, db)
  | .attachmentBytesUsedByUser userID now =>
      (ask? db selectAttachmentsSizeByUserIDQuery [.text userID, .int now]).map
        fun answer => (answer, db)
  | .deleteScheduledBySequenceID topic sequenceID =>
      CacheDB.deleteScheduledBySequenceID db topic sequenceID

/-- The row that is stored for a message. -/
def storedRow
    (id : Value)
    (vals : List Value) : Row ColumnName :=
  setColumns (.id :: messageColumns) (id :: vals) messagesTable.defaults

/-- The row as it is shown. -/
def present (r : Row ColumnName) : Row ColumnName :=
  storedRow (r .id) (forJSON (messageColumns.map r))

/-- The same answers, and the same messages left, as they are shown. -/
def SameEffect (x y : Except Failure (Answer × CacheDatabase)) : Prop :=
  x.map (fun p => (p.1, (p.2.content .messages).map present)) =
    y.map (fun p => (p.1, (p.2.content .messages).map present))

/-- A new database, without messages. -/
def newDatabase : CacheDatabase :=
  (setupNewCacheDB .empty).toOption.getD .empty

/-- A new database, with the messages stored one after another. -/
def addMessages (ms : List (Value × List Value)) : Except Failure CacheDatabase :=
  runScript newDatabase (ms.map fun m => .dml insertMessageQuery (m.1 :: m.2))

/-- A database of the version. -/
structure IsVersion
    (v : Nat)
    (db : CacheDatabase) : Prop where
  schema : db.schema = schemaAt v
  stamp : v ≠ 0 → ∃ rest, ask db selectSchemaVersionQuery = .ok ([.int v] :: rest)
  notNull : ∀ r ∈ db.content .messages, ∀ c ∈ .id :: columnsAt v, r c ≠ .null
  time : ∀ r ∈ db.content .messages, ∃ n, r .time = .int n
  text : ∀ r ∈ db.content .messages, ∀ c ∈ [oldName v .mid, .topic], ∃ s, r c = .text s
  unique : ((db.content .messages).map fun r => r .id).Nodup

/-- Sequence IDs to delete by are IDs of the messages. -/
def Operation.about
    (cacheDuration : Int)
    (v : Nat)
    (rows : List (Row ColumnName)) :
    Operation → Prop
  | .deleteScheduledBySequenceID _ sequenceID =>
      ∃ r ∈ rows, fieldOf cacheDuration v r .mid = .text sequenceID
  | _ => True

/--
After the migration every message is there once, with its fields, in its place; and every
operation treats it like the same message in a new database.
-/
def Faithful
    (cacheDuration : Int)
    (v : Nat)
    (db : CacheDatabase) : Prop :=
  ∃ db', setupMessagesDB cacheDuration db = .ok db' ∧
    (∀ c ∈ messageColumns, c ≠ .sequenceId →
      (db'.content .messages).map (fun r => r c) =
        (db.content .messages).map fun r => fieldOf cacheDuration v r c) ∧
    ((db'.content .messages).map fun r => r .id) =
      (if v ≤ 4 then newIDs (db.content .messages).length
        else (db.content .messages).map fun r => r .id) ∧
    ∃ fresh, addMessages (((db'.content .messages).map fun r => r .id).zip
        ((db.content .messages).map (fields cacheDuration v))) = .ok fresh ∧
      ∀ op : Operation, op.about cacheDuration v (db.content .messages) →
        SameEffect (op.run db') (op.run fresh)

end Operations

section Setup

variable {cacheDuration : Int}
variable {db : CacheDatabase}
variable {v : Nat}

theorem counted_schemaAt :
    ∀ v < 17, prepare false (schemaAt v) selectMessagesCountQuery = none := by
  decide +kernel

theorem unstamped_schemaAt :
    (prepare false (schemaAt 0) selectSchemaVersionQuery).isSome = true := by
  decide +kernel

/-- The columns of the messages, by the names that they have in the version. -/
theorem oldName_mem_columnsAt
    {c : ColumnName}
    (hc : c ∈ messageColumns)
    (hle : introduced c ≤ v) :
    oldName v c ∈ columnsAt v :=
  List.mem_map_of_mem (List.mem_filter.mpr ⟨hc, decide_eq_true hle⟩)

theorem fieldOf_of_le
    {r : Row ColumnName} {c : ColumnName}
    (hle : introduced c ≤ v) :
    fieldOf cacheDuration v r c = r (oldName v c) := by
  unfold fieldOf
  rw [if_pos hle]

/-- Fields of a database of the version are not `NULL`. -/
theorem IsVersion.fieldOf_ne
    (h : IsVersion v db)
    {r : Row ColumnName}
    (hr : r ∈ db.content .messages)
    {c : ColumnName}
    (hc : c ∈ messageColumns) :
    fieldOf cacheDuration v r c ≠ .null := by
  by_cases hle : introduced c ≤ v
  · rw [fieldOf_of_le hle]
    exact h.notNull r hr _ (List.mem_cons_of_mem _ (oldName_mem_columnsAt hc hle))
  · obtain ⟨n, hn⟩ := h.time r hr
    have hmid : r (oldName v .mid) ≠ .null :=
      h.notNull r hr _ (List.mem_cons_of_mem _ (oldName_mem_columnsAt (by decide) (Nat.zero_le v)))
    unfold fieldOf
    rw [if_neg hle]
    split
    · exact hmid
    · exact nofun
    · rw [hn]
      exact nofun
    all_goals exact nofun

theorem IsVersion.valid
    (h : IsVersion v db)
    {r : Row ColumnName}
    (hr : r ∈ db.content .messages) :
    ValidFields (migratedFields cacheDuration v r) := by
  constructor
  · intro x hx
    obtain ⟨c, hc, rfl⟩ := List.mem_map.mp hx
    unfold migratedField
    split
    · exact nofun
    · exact h.fieldOf_ne hr hc
  · obtain ⟨n, hn⟩ := h.time r hr
    refine ⟨n, ?_⟩
    rw [← hn]
    rfl

/-- An old database is migrated. -/
theorem setupMessagesDB_old
    (cacheDuration : Int)
    (hv : v < 17)
    (h : IsVersion v db) :
    ∃ db', setupMessagesDB cacheDuration db = .ok db' ∧ db'.schema = schemaAt 17 ∧
      Migrated cacheDuration v (db.content .messages) (db'.content .messages) := by
  obtain ⟨db', hrun, hschema, hrows⟩ := migrate_run cacheDuration (17 - v) (by omega) h.schema
    fun r hr => h.valid hr
  refine ⟨db', ?_, hschema, hrows⟩
  have hcount : ask db selectMessagesCountQuery =
      .ok (count (view selectMessagesCountQuery.reads db.content .messages)) := by
    have hprep := counted_schemaAt v hv
    rw [← h.schema] at hprep
    rw [ask, exec_select hprep rfl]
    rfl
  rw [setupMessagesDB, hcount]
  dsimp only
  by_cases hzero : v = 0
  · subst hzero
    obtain ⟨e, he⟩ := Option.isSome_iff_exists.mp unstamped_schemaAt
    have herror : ask db selectSchemaVersionQuery = .error e := by
      rw [ask, exec, Connection.script, h.schema, he]
      rfl
    rw [herror]
    exact hrun
  · obtain ⟨rest, hstamp⟩ := h.stamp hzero
    have hne : ¬ (v : Int) = currentSchemaVersion := by
      rw [currentSchemaVersion]
      omega
    have hnot : ¬ (v : Int) > currentSchemaVersion := by
      rw [currentSchemaVersion]
      omega
    have hsteps : (currentSchemaVersion - (v : Int)).toNat = 17 - v := by
      rw [currentSchemaVersion]
      omega
    rw [hstamp]
    dsimp only
    rw [if_neg hne, if_neg hnot, hsteps]
    exact hrun

/-- The fields of the migrated rows, one after another. -/
theorem Migrated.columns
    {rows rows' : List (Row ColumnName)}
    (h : Migrated cacheDuration v rows rows')
    {c : ColumnName}
    (hc : c ∈ messageColumns) :
    rows'.map (fun r => r c) = rows.map fun r => migratedField cacheDuration v r c := by
  have hread : ∀ f : ColumnName → Value,
      (messageColumns.map f)[messageColumns.idxOf c]? = some (f c) := by
    intro f
    rw [List.getElem?_map, List.getElem?_idxOf hc]
    rfl
  have hfields := congrArg (List.map fun vals => vals[messageColumns.idxOf c]?) h.1
  simp only [List.map_map, Function.comp_def, migratedFields, hread] at hfields
  have hsome := congrArg (List.map fun x : Option Value => x.getD .null) hfields
  simpa only [List.map_map, Function.comp_def, Option.getD_some] using hsome

end Setup

section Storing

variable {db : CacheDatabase}

/-- The table of the messages in a new database. -/
def storedTable : TableSchema :=
  { messagesTable with
    indexes := [⟨.mid, [.mid], false, none⟩, ⟨.sequenceId, [.sequenceId], false, none⟩,
      ⟨.time, [.time], false, none⟩, ⟨.topic, [.topic], false, none⟩,
      ⟨.expires, [.expires], false, none⟩, ⟨.sender, [.sender], false, none⟩,
      ⟨.user, [.user], false, none⟩, ⟨.attachmentExpires, [.attachmentExpires], false, none⟩] }

theorem newDatabase_messages :
    newDatabase.content .messages = [] := by
  have hempty : (newDatabase.content .messages).isEmpty = true := by
    decide +kernel
  exact List.isEmpty_iff.mp hempty

theorem newDatabase_schema :
    newDatabase.schema = freshSchema ∧ freshSchema.table? .messages = some storedTable ∧
      prepare false freshSchema insertMessageQuery = none := by
  decide +kernel

/-- A row ID and values for all columns. -/
structure Storable (m : Value × List Value) : Prop where
  length : m.2.length = messageColumns.length
  id : m.1 ≠ .null
  values : ∀ x ∈ m.2, x ≠ .null

/-- Rows with different row IDs do not clash. -/
theorem keys_storedTable
    {rows : List (Row ColumnName)}
    (h : (rows.map fun r => r .id).Nodup) :
    ∀ k ∈ storedTable.keys, rows.Pairwise fun r r' => k.same r' r = false := by
  intro k hk
  have hprimary : k = ⟨[.id], none, true⟩ := by
    simpa [storedTable, TableDef.keys, messagesTable, table] using hk
  subst hprimary
  refine (List.pairwise_map.mp h).imp fun {r r'} hne => ?_
  have hne' : r' .id ≠ r .id := Ne.symm hne
  simp [Key.same, hne']

/-- One message is stored. -/
theorem insertMessageQuery_run
    (hschema : db.schema = freshSchema)
    {m : Value × List Value}
    (hm : Storable m)
    (hids : ((db.content .messages ++ [storedRow m.1 m.2]).map fun r => r .id).Nodup) :
    (Command.dml insertMessageQuery (m.1 :: m.2)).run db =
      .ok ⟨db.schema, Function.update db.content .messages
        (db.content .messages ++ [storedRow m.1 m.2])⟩ := by
  obtain ⟨-, htable, hprep⟩ := newDatabase_schema
  rw [← hschema] at htable hprep
  have hvals : (List.range (messageColumns.length + 1)).map
      (fun i => (m.1 :: m.2).getD i .null) = m.1 :: m.2 := by
    rw [← hm.length]
    refine List.ext_getElem (by simp) fun i hi hi' => ?_
    simp only [List.getElem_map, List.getElem_range]
    rw [List.getD_eq_getElem?_getD, List.getElem?_eq_getElem hi', Option.getD_some]
  have hfull : ∀ c ∈ ColumnName.id :: messageColumns,
      setColumns (.id :: messageColumns) (m.1 :: m.2) storedTable.defaults c ≠ .null := by
    intro c hc
    have hlt : (ColumnName.id :: messageColumns).idxOf c < (m.1 :: m.2).length := by
      rw [List.length_cons, hm.length, ← List.length_cons]
      exact List.idxOf_lt_length_iff.mpr hc
    rw [setColumns, if_pos hc, List.getD_eq_getElem?_getD, List.getElem?_eq_getElem hlt,
      Option.getD_some]
    rcases List.mem_cons.mp (List.getElem_mem hlt) with heq | hmem
    · rw [heq]
      exact hm.id
    · exact hm.values _ hmem
  have hexec := @exec_insert_rows _ _ _ _ _ db.schema db.content storedTable insertMessageQuery
    (fun i => (m.1 :: m.2).getD i .null) _ _ _ hprep rfl htable rfl rfl
    (by
      rw [hvals]
      exact fun vals hvals' => List.mem_singleton.mp hvals' ▸ hfull)
    (by
      rw [hvals]
      exact keys_storedTable hids)
  rw [hvals] at hexec
  exact run_dml_of_exec (m.1 :: m.2) hexec

/-- Messages are stored one after another. -/
theorem addMessages_run
    (ms : List (Value × List Value))
    (hms : ∀ m ∈ ms, Storable m)
    (hids : (ms.map Prod.fst).Nodup) :
    ∃ fresh, addMessages ms = .ok fresh ∧ fresh.schema = freshSchema ∧
      fresh.content .messages = ms.map fun m => storedRow m.1 m.2 := by
  have hrun : ∀ (ms : List (Value × List Value)) (db : CacheDatabase), db.schema = freshSchema →
      (∀ m ∈ ms, Storable m) →
      ((db.content .messages ++ ms.map fun m => storedRow m.1 m.2).map fun r => r .id).Nodup →
      ∃ fresh, runScript db (ms.map fun m => .dml insertMessageQuery (m.1 :: m.2)) = .ok fresh ∧
        fresh.schema = freshSchema ∧
        fresh.content .messages =
          db.content .messages ++ ms.map fun m => storedRow m.1 m.2 := by
    intro ms
    induction ms with
    | nil =>
        intro db hschema _ _
        exact ⟨db, rfl, hschema, (List.append_nil _).symm⟩
    | cons m ms ih =>
        intro db hschema hms hids
        have hsplit : db.content .messages ++ (m :: ms).map (fun m => storedRow m.1 m.2) =
            (db.content .messages ++ [storedRow m.1 m.2]) ++
              ms.map fun m => storedRow m.1 m.2 := by
          simp
        rw [hsplit] at hids ⊢
        have hfirst := insertMessageQuery_run hschema (hms m List.mem_cons_self)
          (by
            rw [List.map_append] at hids
            exact (List.nodup_append.mp hids).1)
        have hself : Function.update db.content .messages
            (db.content .messages ++ [storedRow m.1 m.2]) .messages =
              db.content .messages ++ [storedRow m.1 m.2] :=
          Function.update_self ..
        obtain ⟨fresh, hrest, hschema', hcontent⟩ := ih
          ⟨db.schema, Function.update db.content .messages
            (db.content .messages ++ [storedRow m.1 m.2])⟩ hschema
          (fun m' hm' => hms m' (List.mem_cons_of_mem m hm'))
          (by
            dsimp only
            rw [hself]
            exact hids)
        refine ⟨fresh, ?_, hschema', ?_⟩
        · rw [List.map_cons, runScript_cons hfirst]
          exact hrest
        · rw [hcontent]
          dsimp only
          rw [hself]
  obtain ⟨hschema, -, -⟩ := newDatabase_schema
  obtain ⟨fresh, hfresh, hschema', hcontent⟩ := hrun ms newDatabase hschema hms (by
    rw [newDatabase_messages, List.nil_append, List.map_map]
    exact hids)
  refine ⟨fresh, hfresh, hschema', ?_⟩
  rw [hcontent, newDatabase_messages, List.nil_append]

end Storing

section Twins

variable {cacheDuration : Int}
variable {v : Nat}
variable {rows rows' fs : List (Row ColumnName)}
variable {r r' f : Row ColumnName}

/-- An old row, what the migration makes of it, and the row of the same message when it is new. -/
structure Twin
    (cacheDuration : Int)
    (v : Nat)
    (r r' f : Row ColumnName) : Prop where
  id : r' .id = f .id
  migrated : ∀ c ∈ messageColumns, r' c = migratedField cacheDuration v r c
  stored : ∀ c ∈ messageColumns, f c = fieldOf cacheDuration v r c

/-- The rows of three tables, one by one. -/
structure Twins
    (cacheDuration : Int)
    (v : Nat)
    (rows rows' fs : List (Row ColumnName)) : Prop where
  length : rows'.length = rows.length ∧ fs.length = rows.length
  twin : ∀ (i : Nat) r r' f, rows[i]? = some r → rows'[i]? = some r' → fs[i]? = some f →
    Twin cacheDuration v r r' f

/-- What twins have in common, all rows have. -/
theorem Twins.map_eq
    {α : Type}
    {g g' : Row ColumnName → α}
    (h : Twins cacheDuration v rows rows' fs)
    (hg : ∀ r ∈ rows, ∀ r' f, Twin cacheDuration v r r' f → g r' = g' f) :
    rows'.map g = fs.map g' := by
  obtain ⟨hlength', hlength⟩ := h.length
  refine List.ext_getElem (by simp [hlength', hlength]) fun i hi hi' => ?_
  rw [List.length_map] at hi hi'
  have hold : i < rows.length := hlength' ▸ hi
  rw [List.getElem_map, List.getElem_map]
  exact hg rows[i] (List.getElem_mem hold) _ _
    (h.twin i _ _ _ (List.getElem?_eq_getElem hold) (List.getElem?_eq_getElem hi)
      (List.getElem?_eq_getElem hi'))

/-- Every old row has its twins. -/
theorem Twins.exists_twin
    (h : Twins cacheDuration v rows rows' fs)
    (hr : r ∈ rows) :
    ∃ r' ∈ rows', ∃ f ∈ fs, Twin cacheDuration v r r' f := by
  obtain ⟨i, hi, rfl⟩ := List.mem_iff_getElem.mp hr
  obtain ⟨hlength', hlength⟩ := h.length
  have hi' : i < rows'.length := hlength' ▸ hi
  have hi'' : i < fs.length := hlength ▸ hi
  exact ⟨_, List.getElem_mem hi', _, List.getElem_mem hi'', h.twin i _ _ _
    (List.getElem?_eq_getElem hi) (List.getElem?_eq_getElem hi') (List.getElem?_eq_getElem hi'')⟩

theorem storedRow_column
    (id : Value)
    (vals : List Value)
    {c : ColumnName}
    (hc : c ∈ messageColumns) :
    storedRow id vals c = vals.getD (messageColumns.idxOf c) .null := by
  have hne : ColumnName.id ≠ c := by
    rintro rfl
    exact absurd hc (by decide)
  rw [storedRow, setColumns, if_pos (List.mem_cons_of_mem _ hc), List.idxOf_cons_ne _ hne]
  rfl

theorem getD_idxOf
    (g : ColumnName → Value)
    {c : ColumnName}
    (hc : c ∈ messageColumns) :
    (messageColumns.map g).getD (messageColumns.idxOf c) .null = g c := by
  rw [List.getD_eq_getElem?_getD, List.getElem?_map, List.getElem?_idxOf hc]
  rfl

/-- The messages of a migrated database, and the same ones in a new database. -/
theorem Migrated.twins
    (h : Migrated cacheDuration v rows rows')
    (hfs : fs = ((rows'.map fun r => r .id).zip (rows.map (fields cacheDuration v))).map
      fun m => storedRow m.1 m.2) :
    Twins cacheDuration v rows rows' fs := by
  have hlength : rows'.length = rows.length := by
    simpa using congrArg List.length h.1
  subst hfs
  refine ⟨⟨hlength, by simp [hlength]⟩, ?_⟩
  intro i r r' f hr hr' hf
  have hfields := congrArg (fun l => l[i]?) h.1
  simp only [List.getElem?_map, hr, hr', Option.map_some, Option.some.injEq] at hfields
  have hzip : ((rows'.map fun r => r .id).zip (rows.map (fields cacheDuration v)))[i]? =
      some (r' .id, fields cacheDuration v r) :=
    List.getElem?_zip_eq_some.mpr ⟨by simp [hr'], by simp [hr]⟩
  rw [List.getElem?_map, hzip] at hf
  obtain rfl := Option.some.inj hf
  refine ⟨rfl, fun c hc => ?_, fun c hc => ?_⟩
  · rw [← getD_idxOf r' hc, hfields, migratedFields, getD_idxOf _ hc]
  · exact (storedRow_column _ _ hc).trans (getD_idxOf _ hc)

theorem migratedField_of_ne
    {c : ColumnName}
    (hc : c ≠ .sequenceId ∨ introduced c ≤ v) :
    migratedField cacheDuration v r c = fieldOf cacheDuration v r c := by
  refine if_neg fun h => ?_
  rcases hc with hne | hle
  · exact hne h.1
  · omega

theorem Twin.column_eq
    (h : Twin cacheDuration v r r' f)
    {c : ColumnName}
    (hc : c ∈ messageColumns)
    (hne : c ≠ .sequenceId ∨ introduced c ≤ v) :
    r' c = f c := by
  rw [h.migrated c hc, h.stored c hc, migratedField_of_ne hne]

end Twins

section Answers

variable {cacheDuration : Int}
variable {v : Nat}
variable {db db' : CacheDatabase}
variable {q : MessageQuery}
variable {args : List Value}
variable {rows rows' : List (Row ColumnName)}
variable {r r' f : Row ColumnName}

/-- The columns of `messages`. -/
def allColumns : List ColumnName :=
  .id :: messageColumns

/-- The row with its sequence ID as it is shown. -/
def shown (r : Row ColumnName) : Row ColumnName :=
  setColumns [.sequenceId]
    [if r .sequenceId = r .mid then .text "" else r .sequenceId] r

/-- The rows are the same as they are shown. -/
def SameShown (rows rows' : List (Row ColumnName)) : Prop :=
  rows.map (fun r => restrict allColumns (shown r)) =
    rows'.map fun r => restrict allColumns (shown r)

theorem shown_of_ne
    (r : Row ColumnName)
    {c : ColumnName}
    (hne : c ≠ .sequenceId) :
    shown r c = r c :=
  if_neg fun h => hne (List.mem_singleton.mp h)

/-- An empty sequence ID is shown like the message's own ID. -/
theorem Twin.shown_eq
    (h : Twin cacheDuration v r r' f)
    {c : ColumnName}
    (hc : c ∈ allColumns) :
    shown r' c = shown f c := by
  rcases List.mem_cons.mp hc with rfl | hc
  · exact h.id
  · by_cases hne : c = .sequenceId
    · subst hne
      have hmid : r' .mid = f .mid :=
        h.column_eq (by decide) (Or.inl (by decide))
      show (if r' .sequenceId = r' .mid then Value.text "" else r' .sequenceId) =
        if f .sequenceId = f .mid then Value.text "" else f .sequenceId
      by_cases hle : introduced .sequenceId ≤ v
      · rw [h.column_eq hc (Or.inr hle), hmid]
      · have hold : r' .sequenceId = .text "" := by
          rw [h.migrated _ hc, migratedField, if_pos ⟨rfl, Nat.lt_of_not_le hle⟩]
        have hown : f .sequenceId = f .mid := by
          rw [h.stored _ hc, h.stored _ (by decide), fieldOf_of_le (c := .mid) (Nat.zero_le v)]
          unfold fieldOf
          rw [if_neg hle]
        rw [hold, hown, if_pos rfl, ite_self]
    · rw [shown_of_ne _ hne, shown_of_ne _ hne]
      exact h.column_eq hc (Or.inl hne)

theorem restrict_restrict
    {cols cols' : List ColumnName}
    (hcols : ∀ c ∈ cols, c ∈ cols')
    (r : Row ColumnName) :
    restrict cols (restrict cols' r) = restrict cols r := by
  funext c
  unfold restrict
  split
  · next hc =>
      rw [if_pos (hcols c hc)]
  · rfl

/-- Fewer columns of rows that are the same as they are shown. -/
theorem SameShown.restrict
    (h : SameShown rows rows')
    {cols : List ColumnName}
    (hcols : ∀ c ∈ cols, c ∈ allColumns) :
    (rows.map shown).map (restrict cols) = (rows'.map shown).map (restrict cols) := by
  have hmap := congrArg (List.map (Sql.restrict cols)) h
  simp only [List.map_map, Function.comp_def, restrict_restrict hcols] at hmap ⊢
  exact hmap

theorem restrict_shown
    {cols : List ColumnName}
    (hseq : ColumnName.sequenceId ∉ cols)
    (r : Row ColumnName) :
    restrict cols (shown r) = restrict cols r := by
  funext c
  unfold restrict
  split
  · next hc =>
      exact shown_of_ne r fun heq => hseq (heq ▸ hc)
  · rfl

/-- What a query answers that can be prepared. -/
theorem ask?_eq
    (hprep : prepare false db.schema q.stmt = none) :
    ask? db q args =
      .ok (q.answer (fun i => args.getD i .null)
        ((db.content .messages).map (restrict q.columns))) := by
  have hread : readColumns q.stmt.reads .messages = q.columns := by
    simp [readColumns, MessageQuery.stmt]
  have hview : view q.stmt.reads db.content .messages =
      (db.content .messages).map (restrict q.columns) := by
    rw [← hread]
    rfl
  rw [ask?, exec_select hprep rfl, hview]
  rfl

/-- A query that does not read sequence IDs. -/
theorem ask?_congr
    (hprep : prepare false db.schema q.stmt = none)
    (hprep' : prepare false db'.schema q.stmt = none)
    (hcols : ∀ c ∈ q.columns, c ∈ allColumns)
    (hseq : ColumnName.sequenceId ∉ q.columns)
    (h : SameShown (db.content .messages) (db'.content .messages)) :
    ask? db q args = ask? db' q args := by
  have hrows := h.restrict hcols
  simp only [List.map_map, Function.comp_def, restrict_shown hseq] at hrows
  rw [ask?_eq hprep, ask?_eq hprep', hrows]

/-- The query only shows the sequence IDs that it reads. -/
def Shows (q : MessageQuery) : Prop :=
  ∀ a (rows : List (Row ColumnName)),
    (q.answer a (rows.map (restrict q.columns))).map forJSON =
      q.answer a ((rows.map shown).map (restrict q.columns))

theorem readMessages_congr
    (hprep : prepare false db.schema q.stmt = none)
    (hprep' : prepare false db'.schema q.stmt = none)
    (hcols : ∀ c ∈ q.columns, c ∈ allColumns)
    (hq : Shows q)
    (h : SameShown (db.content .messages) (db'.content .messages)) :
    readMessages db q args = readMessages db' q args := by
  have hanswer : ∀ a, (q.answer a ((db.content .messages).map (restrict q.columns))).map forJSON =
      (q.answer a ((db'.content .messages).map (restrict q.columns))).map forJSON := by
    intro a
    rw [hq, hq, h.restrict hcols]
  rw [readMessages, readMessages, ask?_eq hprep, ask?_eq hprep']
  exact congrArg Except.ok (hanswer _)

/-- The columns of a row that the queries for messages see. -/
def seen (r : Row ColumnName) : Row ColumnName :=
  restrict (.id :: .published :: selectedColumns) r

theorem forJSON_seen
    (r : Row ColumnName) :
    forJSON (selectedColumns.map (seen r)) = selectedColumns.map (seen (shown r)) :=
  rfl

theorem byTime_seen
    (r : Row ColumnName) :
    byTime (seen (shown r)) = byTime (seen r) :=
  rfl

/-- The condition does not look at the sequence ID. -/
def Blind (cond : Args → Row ColumnName → Bool) : Prop :=
  ∀ a r, cond a (seen (shown r)) = cond a (seen r)

/-- The rows that a blind condition selects. -/
theorem filter_shown
    {cond : Args → Row ColumnName → Bool}
    (hcond : Blind cond)
    (a : Args)
    (rows : List (Row ColumnName)) :
    ((rows.map shown).map seen).filter (cond a) =
      (rows.filter fun r => cond a (seen r)).map fun r => seen (shown r) := by
  rw [List.map_map, List.filter_map]
  exact congrArg _ (List.filter_congr fun r _ => hcond a r)

theorem selectMessages_shows
    {cond : Args → Row ColumnName → Bool}
    (hcond : Blind cond) :
    Shows (selectMessages cond) := by
  intro a rows
  show (((orderBy byTime ((rows.map seen).filter (cond a))).map
      fun r => selectedColumns.map r).map forJSON) =
    (orderBy byTime (((rows.map shown).map seen).filter (cond a))).map
      fun r => selectedColumns.map r
  rw [filter_shown hcond, List.filter_map, orderBy_map fun _ => rfl, orderBy_map byTime_seen]
  simp only [List.map_map]
  exact List.map_congr_left fun r _ => forJSON_seen r

theorem selectMessagesLatestQuery_shows :
    Shows selectMessagesLatestQuery := by
  have hcond : Blind selectMessagesLatestQuery.cond :=
    fun _ _ => rfl
  intro a rows
  show ((((orderByDesc byTime ((rows.map seen).filter (selectMessagesLatestQuery.cond a))).map
      fun r => selectedColumns.map r).take 1).map forJSON) =
    ((orderByDesc byTime (((rows.map shown).map seen).filter
      (selectMessagesLatestQuery.cond a))).map fun r => selectedColumns.map r).take 1
  rw [filter_shown hcond, List.filter_map, orderByDesc_map fun _ => rfl,
    orderByDesc_map byTime_seen, List.map_take]
  simp only [List.map_map]
  exact congrArg (List.take 1) (List.map_congr_left fun r _ => forJSON_seen r)

end Answers

section Effects

variable {db fresh : CacheDatabase}
variable {q : MessageQuery}
variable {args : List Value}
variable {topic sequenceID : String}

/-- The queries of the operations. -/
def messageQueries : List MessageQuery :=
  [selectMessagesSinceTimeQuery, selectMessagesSinceTimeIncludeScheduledQuery,
    selectMessagesSinceIDQuery, selectMessagesSinceIDIncludeScheduledQuery,
    selectMessagesDueQuery, selectMessagesLatestQuery, selectMessagesExpiredQuery,
    selectRowIDFromMessageID, selectAttachmentsSizeBySenderQuery,
    selectAttachmentsSizeByUserIDQuery, selectScheduledMessageIDsBySeqIDQuery]

theorem prepare_messageQueries :
    ∀ q ∈ messageQueries, prepare false (schemaAt 17) q.stmt = none ∧
      prepare false freshSchema q.stmt = none ∧ ∀ c ∈ q.columns, c ∈ allColumns := by
  decide +kernel

theorem prepare_deleteScheduled :
    prepare false (schemaAt 17) deleteScheduledBySequenceIDQuery = none ∧
      prepare false freshSchema deleteScheduledBySequenceIDQuery = none := by
  decide +kernel

/-- A migrated database and a new one with the same messages, as they are shown. -/
structure Alike (db fresh : CacheDatabase) : Prop where
  migrated : db.schema = schemaAt 17
  stored : fresh.schema = freshSchema
  rows : SameShown (db.content .messages) (fresh.content .messages)

theorem Alike.ask?
    (h : Alike db fresh)
    (hq : q ∈ messageQueries)
    (hseq : ColumnName.sequenceId ∉ q.columns) :
    ask? db q args = ask? fresh q args := by
  obtain ⟨hprep, hprep', hcols⟩ := prepare_messageQueries q hq
  rw [← h.migrated] at hprep
  rw [← h.stored] at hprep'
  exact ask?_congr hprep hprep' hcols hseq h.rows

theorem Alike.readMessages
    (h : Alike db fresh)
    (hq : q ∈ messageQueries)
    (hshows : Shows q) :
    readMessages db q args = readMessages fresh q args := by
  obtain ⟨hprep, hprep', hcols⟩ := prepare_messageQueries q hq
  rw [← h.migrated] at hprep
  rw [← h.stored] at hprep'
  exact readMessages_congr hprep hprep' hcols hshows h.rows

theorem Alike.messagesSinceTime
    (h : Alike db fresh)
    (topic : String)
    (time : Int)
    (scheduled : Bool) :
    messagesSinceTime db topic time scheduled = messagesSinceTime fresh topic time scheduled := by
  cases scheduled with
  | true =>
      exact h.readMessages (by simp [messageQueries]) (selectMessages_shows fun _ _ => rfl)
  | false =>
      exact h.readMessages (by simp [messageQueries]) (selectMessages_shows fun _ _ => rfl)

theorem Alike.messagesSinceID
    (h : Alike db fresh)
    (topic id : String)
    (scheduled : Bool) :
    messagesSinceID db topic id scheduled = messagesSinceID fresh topic id scheduled := by
  rw [CacheDB.messagesSinceID, CacheDB.messagesSinceID,
    h.ask? (q := selectRowIDFromMessageID) (by simp [messageQueries]) (by decide)]
  refine congrArg (Except.bind _) (funext fun rows => ?_)
  cases rows with
  | nil =>
      exact h.messagesSinceTime topic _ scheduled
  | cons row rows =>
      cases scheduled with
      | true =>
          exact h.readMessages (by simp [messageQueries]) (selectMessages_shows fun _ _ => rfl)
      | false =>
          exact h.readMessages (by simp [messageQueries]) (selectMessages_shows fun _ _ => rfl)

theorem Alike.messages
    (h : Alike db fresh)
    (topic : String)
    (since : SinceMarker)
    (scheduled : Bool) :
    messages db topic since scheduled = messages fresh topic since scheduled := by
  unfold CacheDB.messages
  split
  · rfl
  · split
    · exact h.readMessages (by simp [messageQueries]) selectMessagesLatestQuery_shows
    · split
      · exact h.messagesSinceID topic since.id scheduled
      · exact h.messagesSinceTime topic since.time scheduled

theorem present_eq
    (r : Row ColumnName) :
    present r = storedRow (restrict allColumns (shown r) .id)
      (messageColumns.map (restrict allColumns (shown r))) :=
  rfl

theorem Alike.present
    (h : Alike db fresh) :
    (db.content .messages).map present = (fresh.content .messages).map present := by
  have hrows := congrArg (List.map fun r => storedRow (r .id) (messageColumns.map r)) h.rows
  simp only [List.map_map, Function.comp_def, ← present_eq] at hrows
  exact hrows

/-- An operation that changes nothing. -/
theorem Alike.sameEffect
    (h : Alike db fresh)
    {x y : Except Failure Answer}
    (hxy : x = y) :
    SameEffect (x.map fun answer => (answer, db)) (y.map fun answer => (answer, fresh)) := by
  subst hxy
  cases x with
  | error e =>
      rfl
  | ok answer =>
      exact congrArg (fun l => Except.ok (answer, l)) h.present

/-- Is the message scheduled in the topic and the sequence? -/
def scheduledIn
    (topic sequenceID : String)
    (r : Row ColumnName) : Bool :=
  isScheduled (fun i => [Value.text topic, .text sequenceID].getD i .null) r

/-- What a deletion of scheduled messages answers, and what it leaves. -/
theorem deleteScheduled_run
    (topic sequenceID : String)
    (hselect : prepare false db.schema selectScheduledMessageIDsBySeqIDQuery.stmt = none)
    (hdelete : prepare false db.schema deleteScheduledBySequenceIDQuery = none) :
    ∃ db', deleteScheduledBySequenceID db topic sequenceID =
        .ok (((db.content .messages).filter (scheduledIn topic sequenceID)).map
          (fun r => [r .mid]), db') ∧
      db'.content .messages =
        (db.content .messages).filter fun r => !scheduledIn topic sequenceID r := by
  have hdeleted : ∃ C', (exec .script db.schema deleteScheduledBySequenceIDQuery
      (fun i => [Value.text topic, .text sequenceID].getD i .null) db.content).map Prod.snd =
        .ok C' ∧ C' .messages =
          (db.content .messages).filter fun r => !scheduledIn topic sequenceID r :=
    exec_delete_rows hdelete rfl
  obtain ⟨C', hexec, hrows⟩ := hdeleted
  refine ⟨⟨db.schema, C'⟩, ?_, hrows⟩
  have hanswer : ask? db selectScheduledMessageIDsBySeqIDQuery
      [.text topic, .text sequenceID] =
        .ok (((db.content .messages).filter (scheduledIn topic sequenceID)).map
          fun r => [r .mid]) := by
    rw [ask?_eq hselect]
    show Except.ok ((((db.content .messages).map _).filter _).map _) = _
    rw [List.filter_map, List.map_map]
    rfl
  rw [deleteScheduledBySequenceID, hanswer]
  show Except.map _ (runScript db _) = _
  rw [runScript_cons (run_dml_of_exec _ hexec)]
  rfl

end Effects

section Faithfulness

variable {cacheDuration : Int}
variable {v : Nat}
variable {db db' fresh : CacheDatabase}
variable {r r' f : Row ColumnName}
variable {topic sequenceID : String}

theorem Twin.restrict_shown
    (h : Twin cacheDuration v r r' f) :
    restrict allColumns (shown r') = restrict allColumns (shown f) := by
  funext c
  unfold restrict
  split
  · next hc =>
      exact h.shown_eq hc
  · rfl

/-- Twins are in one sequence, or they are published or have no ID. -/
theorem Twin.scheduledIn_eq
    (h : Twin cacheDuration v r r' f)
    (hr : 14 ≤ v ∨ (fieldOf cacheDuration v r .published = .int 0 →
      fieldOf cacheDuration v r .mid = .text "")) :
    scheduledIn topic sequenceID r' = scheduledIn topic sequenceID f := by
  have htopic : r' .topic = f .topic :=
    h.column_eq (by decide) (Or.inl (by decide))
  have hpublished : r' .published = f .published :=
    h.column_eq (by decide) (Or.inl (by decide))
  unfold scheduledIn isScheduled
  rw [htopic, hpublished]
  by_cases hscheduled : f .published = .int 0
  · have hsame : r' .sequenceId = f .sequenceId := by
      by_cases hle : introduced .sequenceId ≤ v
      · exact h.column_eq (by decide) (Or.inr hle)
      · rcases hr with hr | hr
        · exact absurd hr hle
        · rw [h.stored _ (by decide)] at hscheduled
          have hown : fieldOf cacheDuration v r .sequenceId = fieldOf cacheDuration v r .mid := by
            rw [fieldOf_of_le (c := .mid) (Nat.zero_le v)]
            exact if_neg hle
          rw [h.migrated _ (by decide), h.stored _ (by decide), hown, hr hscheduled,
            migratedField, if_pos ⟨rfl, Nat.lt_of_not_le hle⟩]
    rw [hsame]
  · rw [decide_eq_false hscheduled, Bool.and_false, Bool.and_false]

/-- Deletions of the same messages. -/
theorem Alike.deleteScheduled
    (h : Alike db fresh)
    (hrows : (db.content .messages).map (fun r =>
        (scheduledIn topic sequenceID r, restrict allColumns (shown r))) =
      (fresh.content .messages).map fun r =>
        (scheduledIn topic sequenceID r, restrict allColumns (shown r))) :
    SameEffect (deleteScheduledBySequenceID db topic sequenceID)
      (deleteScheduledBySequenceID fresh topic sequenceID) := by
  obtain ⟨hprep, hprep', -⟩ := prepare_messageQueries selectScheduledMessageIDsBySeqIDQuery
    (by simp [messageQueries])
  obtain ⟨hdelete, hdelete'⟩ := prepare_deleteScheduled
  rw [← h.migrated] at hprep hdelete
  rw [← h.stored] at hprep' hdelete'
  obtain ⟨db₁, hrun, hleft⟩ := deleteScheduled_run topic sequenceID hprep hdelete
  obtain ⟨fresh₁, hrun', hleft'⟩ := deleteScheduled_run topic sequenceID hprep' hdelete'
  have hanswer := congrArg (fun l => (l.filter Prod.fst).map fun p => [p.2 .mid]) hrows
  simp only [List.filter_map, List.map_map, Function.comp_def] at hanswer
  have hrest := congrArg (fun l => (l.filter fun p => !p.1).map fun p =>
    storedRow (p.2 .id) (messageColumns.map p.2)) hrows
  simp only [List.filter_map, List.map_map, Function.comp_def, ← present_eq] at hrest
  have hkept : (db₁.content .messages).map CacheDB.present =
      (fresh₁.content .messages).map CacheDB.present := by
    rw [hleft, hleft']
    exact hrest
  rw [SameEffect, hrun, hrun']
  exact congrArg Except.ok (Prod.ext hanswer hkept)

/-- The migrated database, and a new one with the same messages. -/
theorem IsVersion.migrates
    (cacheDuration : Int)
    (hv : v < 17)
    (h : IsVersion v db) :
    ∃ db' fresh, setupMessagesDB cacheDuration db = .ok db' ∧
      addMessages (((db'.content .messages).map fun r => r .id).zip
        ((db.content .messages).map (fields cacheDuration v))) = .ok fresh ∧
      Migrated cacheDuration v (db.content .messages) (db'.content .messages) ∧
      Twins cacheDuration v (db.content .messages) (db'.content .messages)
        (fresh.content .messages) ∧
      db'.schema = schemaAt 17 ∧ fresh.schema = freshSchema := by
  obtain ⟨db', hsetup, hschema, hmigrated⟩ := setupMessagesDB_old cacheDuration hv h
  have hids : ((db'.content .messages).map fun r => r .id).Nodup := by
    rw [hmigrated.2]
    split
    · refine List.Nodup.map ?_ List.nodup_range
      intro i j hij
      rw [Value.int.injEq] at hij
      omega
    · exact h.unique
  have hnull : ∀ id ∈ (db'.content .messages).map fun r => r .id, id ≠ .null := by
    intro id hid
    rw [hmigrated.2] at hid
    split at hid
    · obtain ⟨i, -, rfl⟩ := List.mem_map.mp hid
      exact nofun
    · obtain ⟨r, hr, rfl⟩ := List.mem_map.mp hid
      exact h.notNull r hr _ List.mem_cons_self
  have hlength : ((db'.content .messages).map fun r => r .id).length =
      ((db.content .messages).map (fields cacheDuration v)).length := by
    have hlengths := congrArg List.length hmigrated.1
    simpa using hlengths
  obtain ⟨fresh, hfresh, hschema', hcontent⟩ := addMessages_run
    (((db'.content .messages).map fun r => r .id).zip
      ((db.content .messages).map (fields cacheDuration v)))
    (by
      intro m hm
      obtain ⟨hid, hvals⟩ := List.of_mem_zip hm
      obtain ⟨r, hr, hfields⟩ := List.mem_map.mp hvals
      refine ⟨by rw [← hfields]; rfl, hnull _ hid, fun x hx => ?_⟩
      rw [← hfields] at hx
      obtain ⟨c, hc, rfl⟩ := List.mem_map.mp hx
      exact h.fieldOf_ne hr hc)
    (by
      rw [List.map_fst_zip (Nat.le_of_eq hlength)]
      exact hids)
  exact ⟨db', fresh, hsetup, hfresh, hmigrated, hmigrated.twins hcontent, hschema, hschema'⟩

theorem Twins.sameShown
    {rows rows' fs : List (Row ColumnName)}
    (h : Twins cacheDuration v rows rows' fs) :
    SameShown rows' fs :=
  h.map_eq fun _ _ _ _ htwin => htwin.restrict_shown

/-- Every operation treats migrated messages like new ones. -/
theorem sameEffect_run
    (hdb : db'.schema = schemaAt 17)
    (hfresh : fresh.schema = freshSchema)
    (htwins : Twins cacheDuration v (db.content .messages) (db'.content .messages)
      (fresh.content .messages))
    (hcond : 14 ≤ v ∨ ∀ r ∈ db.content .messages,
      fieldOf cacheDuration v r .published = .int 0 → fieldOf cacheDuration v r .mid = .text "")
    (op : Operation) :
    SameEffect (op.run db') (op.run fresh) := by
  have halike : Alike db' fresh := ⟨hdb, hfresh, htwins.sameShown⟩
  cases op with
  | messages topic since scheduled =>
      exact halike.sameEffect (halike.messages topic since scheduled)
  | messagesDue now =>
      exact halike.sameEffect
        (halike.readMessages (by simp [messageQueries]) (selectMessages_shows fun _ _ => rfl))
  | messagesExpired now =>
      exact halike.sameEffect (halike.ask? (by simp [messageQueries]) (by decide))
  | attachmentBytesUsedBySender sender now =>
      exact halike.sameEffect (halike.ask? (by simp [messageQueries]) (by decide))
  | attachmentBytesUsedByUser userID now =>
      exact halike.sameEffect (halike.ask? (by simp [messageQueries]) (by decide))
  | deleteScheduledBySequenceID topic sequenceID =>
      refine halike.deleteScheduled (htwins.map_eq fun r hr r' f htwin => ?_)
      exact Prod.ext (htwin.scheduledIn_eq (hcond.imp id fun h => h r hr)) htwin.restrict_shown

/-- A scheduled message of an old version is not found by its own ID. -/
theorem not_sameEffect_of_scheduled
    (hdb : db'.schema = schemaAt 17)
    (hfresh : fresh.schema = freshSchema)
    (htwins : Twins cacheDuration v (db.content .messages) (db'.content .messages)
      (fresh.content .messages))
    (hv : v < 14)
    (hr : r ∈ db.content .messages)
    (hscheduled : fieldOf cacheDuration v r .published = .int 0)
    (htopic : fieldOf cacheDuration v r .topic = .text topic)
    (hmid : fieldOf cacheDuration v r .mid = .text sequenceID)
    (hne : sequenceID ≠ "") :
    ¬ SameEffect ((Operation.deleteScheduledBySequenceID topic sequenceID).run db')
        ((Operation.deleteScheduledBySequenceID topic sequenceID).run fresh) := by
  intro hsame
  obtain ⟨hprep, hprep', -⟩ := prepare_messageQueries selectScheduledMessageIDsBySeqIDQuery
    (by simp [messageQueries])
  obtain ⟨hdelete, hdelete'⟩ := prepare_deleteScheduled
  rw [← hdb] at hprep hdelete
  rw [← hfresh] at hprep' hdelete'
  obtain ⟨db₁, hrun, -⟩ := deleteScheduled_run topic sequenceID hprep hdelete
  obtain ⟨fresh₁, hrun', -⟩ := deleteScheduled_run topic sequenceID hprep' hdelete'
  have hnot : ¬ introduced .sequenceId ≤ v := Nat.not_le.mpr hv
  -- no migrated row has the ID as its sequence ID, but the new row of the message does
  have hempty : (db'.content .messages).filter (scheduledIn topic sequenceID) = [] := by
    rw [List.filter_eq_nil_iff]
    intro r' hr' hin
    obtain ⟨i, hi, rfl⟩ := List.mem_iff_getElem.mp hr'
    have hold : i < (db.content .messages).length := htwins.length.1 ▸ hi
    have hnew : i < (fresh.content .messages).length := htwins.length.2 ▸ hold
    have htwin := htwins.twin i _ _ _ (List.getElem?_eq_getElem hold)
      (List.getElem?_eq_getElem hi) (List.getElem?_eq_getElem hnew)
    have hseq : (db'.content .messages)[i] .sequenceId = .text "" := by
      rw [htwin.migrated _ (by decide), migratedField, if_pos ⟨rfl, hv⟩]
    simp only [scheduledIn, isScheduled, Bool.and_eq_true, decide_eq_true_eq, hseq] at hin
    exact hne (Value.text.inj hin.1.2).symm
  obtain ⟨r', -, f, hf, htwin⟩ := htwins.exists_twin hr
  have hown : f .sequenceId = .text sequenceID := by
    rw [htwin.stored _ (by decide), ← hmid, fieldOf_of_le (c := .mid) (Nat.zero_le v)]
    exact if_neg hnot
  have hfound : f ∈ (fresh.content .messages).filter (scheduledIn topic sequenceID) := by
    refine List.mem_filter.mpr ⟨hf, ?_⟩
    have htopic' : f .topic = .text topic := (htwin.stored _ (by decide)).trans htopic
    have hpublished : f .published = .int 0 := (htwin.stored _ (by decide)).trans hscheduled
    simp [scheduledIn, isScheduled, htopic', hown, hpublished]
  rw [SameEffect, Operation.run, Operation.run, hrun, hrun'] at hsame
  have hanswers := congrArg Prod.fst (Except.ok.inj hsame)
  dsimp only at hanswers
  rw [hempty] at hanswers
  have hmem := List.mem_map_of_mem (f := fun r : Row ColumnName => [r .mid]) hfound
  rw [← hanswers] at hmem
  cases hmem

/--
The migration is faithful just in case the version had sequence IDs already, or no message
is scheduled that has an ID.
-/
theorem migration_faithful_iff
    (cacheDuration : Int)
    (hv : v < 17)
    (h : IsVersion v db) :
    Faithful cacheDuration v db ↔
      14 ≤ v ∨ ∀ r ∈ db.content .messages,
        fieldOf cacheDuration v r .published = .int 0 →
          fieldOf cacheDuration v r .mid = .text "" := by
  obtain ⟨db', fresh, hsetup, hfresh, hmigrated, htwins, hdb, hstored⟩ :=
    h.migrates cacheDuration hv
  constructor
  · rintro ⟨db₁, hsetup₁, -, -, fresh₁, hfresh₁, hsame⟩
    cases hsetup.symm.trans hsetup₁
    cases hfresh.symm.trans hfresh₁
    by_contra hcond
    obtain ⟨hold, hrow⟩ := not_or.mp hcond
    simp only [not_forall] at hrow
    obtain ⟨r, hr, hscheduled, hmid⟩ := hrow
    obtain ⟨sequenceID, hid⟩ := h.text r hr (oldName v .mid) (by simp)
    obtain ⟨topic, htopic⟩ := h.text r hr .topic (by simp)
    have hmid' : fieldOf cacheDuration v r .mid = .text sequenceID :=
      (fieldOf_of_le (Nat.zero_le v)).trans hid
    refine not_sameEffect_of_scheduled hdb hstored htwins (Nat.lt_of_not_le hold) hr hscheduled
      ((fieldOf_of_le (Nat.zero_le v)).trans htopic) hmid' ?_
      (hsame (.deleteScheduledBySequenceID topic sequenceID) ⟨r, hr, hmid'⟩)
    rintro rfl
    exact hmid hmid'
  · intro hcond
    refine ⟨db', hsetup, fun c hc hne => ?_, hmigrated.2, fresh, hfresh,
      fun op _ => sameEffect_run hdb hstored htwins hcond op⟩
    rw [hmigrated.columns hc]
    exact List.map_congr_left fun r _ => migratedField_of_ne (Or.inl hne)

end Faithfulness

section Examples

/-- A row of a message. -/
def reminderRow (published : Int) : Row ColumnName
  | .id => .int 1
  | .mid => .text "hwQ2YpKdmgab"
  | .time => .int 1735689600
  | .topic => .text "reminders"
  | .message => .text "Call back"
  | .expires => .int 1735732800
  | .published => .int published
  | .priority | .attachmentSize | .attachmentExpires | .attachmentDeleted => .int 0
  | _ => .text ""

def stampRow : Row ColumnName
  | .id => .int 1
  | .version => .int 13
  | _ => .null

/-- A database of version 13 with this message. -/
def reminderDatabase (published : Int) : CacheDatabase where
  schema := schemaAt 13
  content
    | .messages => [reminderRow published]
    | .schemaVersion => [stampRow]
    | _ => []

theorem isVersion_reminderDatabase
    (published : Int) :
    IsVersion 13 (reminderDatabase published) := by
  have hprep : prepare false (reminderDatabase published).schema selectSchemaVersionQuery =
      none := by
    show prepare false (schemaAt 13) selectSchemaVersionQuery = none
    decide +kernel
  have hcolumns : ∀ c ∈ .id :: columnsAt 13, reminderRow published c ≠ .null := by
    intro c _
    cases c <;> exact nofun
  refine ⟨rfl, fun _ => ⟨[], ?_⟩, ?_, ?_, ?_, List.nodup_singleton _⟩
  · rw [ask, exec_select hprep rfl]
    rfl
  · intro r hr
    rw [List.mem_singleton.mp hr]
    exact hcolumns
  · intro r hr
    rw [List.mem_singleton.mp hr]
    exact ⟨_, rfl⟩
  · intro r hr c hc
    rw [List.mem_singleton.mp hr]
    rcases List.mem_cons.mp hc with rfl | hc
    · exact ⟨_, rfl⟩
    · rw [List.mem_singleton.mp hc]
      exact ⟨_, rfl⟩

/-- A message that is published already. -/
theorem faithful_published :
    Faithful 43200 13 (reminderDatabase 1) ↔
      14 ≤ 13 ∨ ∀ r ∈ (reminderDatabase 1).content .messages,
        fieldOf 43200 13 r .published = .int 0 → fieldOf 43200 13 r .mid = .text "" :=
  migration_faithful_iff 43200 (by decide) (isVersion_reminderDatabase 1)

/-- A scheduled message cannot be deleted by its own ID after the migration. -/
theorem scheduled_not_faithful :
    ¬ ∀ (cacheDuration : Int) (v : Nat) (db : CacheDatabase),
      v < 17 → IsVersion v db → Faithful cacheDuration v db := by
  intro h
  have hversion := isVersion_reminderDatabase 0
  obtain ⟨db', fresh, hsetup, hfresh, -, htwins, hdb, hstored⟩ :=
    hversion.migrates 43200 (by decide)
  obtain ⟨db₁, hsetup₁, -, -, fresh₁, hfresh₁, hsame⟩ :=
    h 43200 13 (reminderDatabase 0) (by decide) hversion
  cases hsetup.symm.trans hsetup₁
  cases hfresh.symm.trans hfresh₁
  have hrow : reminderRow 0 ∈ (reminderDatabase 0).content .messages :=
    List.mem_singleton.mpr rfl
  exact not_sameEffect_of_scheduled hdb hstored htwins (by decide) hrow rfl rfl rfl (by decide)
    (hsame (.deleteScheduledBySequenceID "reminders" "hwQ2YpKdmgab") ⟨_, hrow, rfl⟩)

end Examples

end CacheDB
end Server
end CoopMessenger
