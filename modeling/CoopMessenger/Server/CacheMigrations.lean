import CoopMessenger.Library.SchemaScripts
import CoopMessenger.Server.CacheSchema
import Mathlib.Tactic.IntervalCases

/-!
# Migrated messages

What a migration makes of a row of `messages`, and what all that are left make of it: every
field keeps its value, and one that the old version did not have gets its default.

**Results.**
* `migrate_step`: one migration.
* `migrate_run`: all migrations from a version on.
-/

namespace CoopMessenger
namespace Server
namespace CacheDB

open Library Library.Sql

section Fields

/--
The value of a column of `addMessages` for a message with the fields of the old row: it has
its own ID as sequence ID, and it expires after the duration of the cache.
-/
def fieldOf
    (cacheDuration : Int)
    (v : Nat)
    (r : Row ColumnName)
    (c : ColumnName) : Value :=
  if introduced c ≤ v then
    r (oldName v c)
  else
    match c with
    | .sequenceId => r (oldName v .mid)
    | .event => .text "message"
    | .expires => plus (r .time) (.int cacheDuration)
    | .published => .int 1
    | .priority | .attachmentSize | .attachmentExpires | .attachmentDeleted => .int 0
    | _ => .text ""

/-- The value after the migration: the sequence ID is empty instead. -/
def migratedField
    (cacheDuration : Int)
    (v : Nat)
    (r : Row ColumnName)
    (c : ColumnName) : Value :=
  if c = .sequenceId ∧ v < introduced c then .text "" else fieldOf cacheDuration v r c

/-- The changes of the schema in a migration. -/
def changes : Nat → List Change
  | 0 => migrate0To1AlterMessagesTableQuery ++ [createTable schemaVersionTable]
  | 1 => migrate1To2AlterMessagesTableQuery
  | 2 => migrate2To3AlterMessagesTableQuery
  | 3 => migrate3To4AlterMessagesTableQuery
  | 5 => migrate5To6AlterMessagesTableQuery
  | 6 => migrate6To7AlterMessagesTableQuery
  | 7 => migrate7To8AlterMessagesTableQuery
  | 8 => migrate8To9AlterMessagesTableQuery
  | 9 => migrate9To10AlterMessagesTableQuery
  | 10 => migrate10To11AlterMessagesTableQuery
  | 11 => migrate11To12AlterMessagesTableQuery
  | 12 => migrate12To13AlterMessagesTableQuery
  | 13 => migrate13To14AlterMessagesTableQuery
  | 14 => migrate14To15AlterMessagesTableQuery ++ migrate14To15CreateInvitesTableQuery
  | 15 => migrate15To16CreateJoinRequestsTableQuery
  | 16 => migrate16To17AlterMessagesTableQuery ++ migrate16To17CreateReactionsTableQuery
  | _ => []

/-- The copy of a row. -/
def copyRow
    (i : Nat)
    (r : Row ColumnName) : Row ColumnName :=
  setColumns (.id :: .mid :: copiedColumns) (copyValues i r) messagesNewTable.defaults

/-- What a migration makes of a row that it does not copy. -/
def stepRow
    (cacheDuration : Int)
    (v : Nat)
    (r : Row ColumnName) : Row ColumnName :=
  let r := rowChanges .messages (changes v) r
  if v = 9 then setColumns [.expires] [plus (r .time) (.int cacheDuration)] r else r

/-- What a migration makes of the rows. -/
def stepRows
    (cacheDuration : Int)
    (v : Nat)
    (rows : List (Row ColumnName)) : List (Row ColumnName) :=
  if v = 4 then rows.mapIdx copyRow else rows.map (stepRow cacheDuration v)

/-- The fields of the old row. -/
def fields
    (cacheDuration : Int)
    (v : Nat)
    (r : Row ColumnName) : List Value :=
  messageColumns.map (fieldOf cacheDuration v r)

/-- The fields after the migration. -/
def migratedFields
    (cacheDuration : Int)
    (v : Nat)
    (r : Row ColumnName) : List Value :=
  messageColumns.map (migratedField cacheDuration v r)

theorem migratedFields_copyRow
    (cacheDuration : Int)
    (i : Nat)
    (r : Row ColumnName) :
    migratedFields cacheDuration 5 (copyRow i r) = migratedFields cacheDuration 4 r :=
  rfl

/-- A migration changes none of the fields that are left in the end. -/
theorem migratedFields_stepRow
    (cacheDuration : Int)
    {v : Nat}
    (hv : v < 17)
    (hcopy : v ≠ 4)
    (r : Row ColumnName) :
    migratedFields cacheDuration (v + 1) (stepRow cacheDuration v r) =
      migratedFields cacheDuration v r := by
  interval_cases v
  case «4» =>
    exact absurd rfl hcopy
  all_goals rfl

end Fields

section Schemas

/-- Do the changes lead from one schema to another? -/
def leads
    (S : Schema TableName ColumnName IndexName)
    (cs : List Change)
    (S' : Schema TableName ColumnName IndexName) : Bool :=
  decide ((runDdl ⟨S, fun _ => []⟩ cs).toOption.map Db.schema = some S')

/-- The changes of the schema lead from one version to the next. -/
theorem leads_changes :
    ∀ v < 17, v ≠ 4 → leads (schemaAt v) (changes v) (schemaAt (v + 1)) = true := by
  decide +kernel

theorem keeps_changes :
    ∀ v < 17, ∀ c ∈ changes v, c.keeps TableName.messages = true := by
  decide +kernel

theorem schemaVersion_schemaAt :
    ∀ v < 18, v ≠ 0 → prepare false (schemaAt v) updateSchemaVersion = none ∧
      (schemaAt v).table? .schemaVersion = some schemaVersionTable := by
  decide +kernel

end Schemas

section Steps

variable {db : CacheDatabase}
variable {v : Nat}

/-- Changes of the schema, whatever the rows are. -/
theorem runDdl_of_leads
    (db : CacheDatabase) (t : TableName) {cs : List Change} {S : Schema TableName ColumnName IndexName}
    (hkeeps : ∀ c ∈ cs, c.keeps t = true)
    (hleads : leads db.schema cs S = true) :
    ∃ db', runDdl db cs = .ok db' ∧ db'.schema = S ∧
      db'.content t = (db.content t).map (rowChanges t cs) :=
  runDdl_of_schema hkeeps (of_decide_eq_true hleads)

/-- A table that is created is empty. -/
theorem createTable_run
    (db : CacheDatabase) (d : TableSchema)
    (hnew : d.name ∉ db.schema.names) :
    runDdl db [createTable d] =
      .ok ⟨db.schema ++ [d], Function.update db.content d.name []⟩ := by
  have hcreate : (Command.ddl (createTable d)).run db =
      .ok ⟨db.schema ++ [d], Function.update db.content d.name []⟩ :=
    if_neg hnew
  exact runScript_cons hcreate

/-- The stamp changes no message. -/
theorem updateSchemaVersion_run
    (db : CacheDatabase)
    (hv : v < 18)
    (hstamp : v ≠ 0)
    (hschema : db.schema = schemaAt v)
    (n : Int) :
    ∃ db', runScript db [.dml updateSchemaVersion [.int n]] = .ok db' ∧
      db'.schema = schemaAt v ∧ db'.content .messages = db.content .messages := by
  obtain ⟨hprep, htable⟩ := schemaVersion_schemaAt v hv hstamp
  rw [← hschema] at hprep htable
  have hvalues : ∀ r ∈ db.content .schemaVersion, ∀ c ∈ [ColumnName.version],
      setColumns [.version] [Value.int n] r c ≠ .null := by
    intro r _ c hc
    rw [List.mem_singleton.mp hc]
    exact fun h => by cases h
  have hne : TableName.messages ≠ .schemaVersion := by
    decide
  have hrun := run_dml_of_exec [.int n]
    (exec_update_rows hprep rfl htable rfl rfl hvalues)
  refine ⟨_, runScript_cons hrun, hschema, ?_⟩
  dsimp only
  rw [Function.update_of_ne hne]

/-- A migration that is no copy: its changes, what else it does, and the stamp. -/
theorem migrateBy_run
    {statements : Script}
    {f : Row ColumnName → Row ColumnName}
    (hv : v < 17)
    (hcopy : v ≠ 4)
    (hschema : db.schema = schemaAt v)
    (hstatements : ∀ db', runDdl db (changes v) = .ok db' → db'.schema = schemaAt (v + 1) →
      db'.content .messages = (db.content .messages).map (rowChanges .messages (changes v)) →
      ∃ db'', runScript db' statements = .ok db'' ∧ db''.schema = schemaAt (v + 1) ∧
        db''.content .messages = (db'.content .messages).map f) :
    ∃ db', runScript db (migrateBy (changes v) statements (v + 1)) = .ok db' ∧
      db'.schema = schemaAt (v + 1) ∧
      db'.content .messages =
        (db.content .messages).map fun r => f (rowChanges .messages (changes v) r) := by
  have hleads := leads_changes v hv hcopy
  rw [← hschema] at hleads
  obtain ⟨db₁, hchanges, hschema₁, hrows₁⟩ := runDdl_of_leads _ _ (keeps_changes v hv) hleads
  obtain ⟨db₂, hrun₂, hschema₂, hrows₂⟩ := hstatements db₁ hchanges hschema₁ hrows₁
  obtain ⟨db₃, hrun₃, hschema₃, hrows₃⟩ :=
    updateSchemaVersion_run _ (Nat.succ_lt_succ hv) (Nat.succ_ne_zero v) hschema₂ (v + 1)
  refine ⟨db₃, ?_, hschema₃, ?_⟩
  · rw [migrateBy, List.append_assoc, runScript_append_of_ok hchanges,
      runScript_append_of_ok hrun₂]
    exact hrun₃
  · rw [hrows₃, hrows₂, hrows₁, List.map_map]
    rfl

/-- A migration that only changes the schema. -/
theorem migrateBy_run_nil
    (hv : v < 17)
    (hcopy : v ≠ 4)
    (hschema : db.schema = schemaAt v) :
    ∃ db', runScript db (migrateBy (changes v) [] (v + 1)) = .ok db' ∧
      db'.schema = schemaAt (v + 1) ∧
      db'.content .messages = (db.content .messages).map (rowChanges .messages (changes v)) :=
  migrateBy_run (f := fun r => r) hv hcopy hschema
    fun db' _ hschema' _ => ⟨db', rfl, hschema', (List.map_id' _).symm⟩

/-- A row is inserted into an empty table. -/
theorem insertRow_run
    (db : CacheDatabase) (d : TableSchema) (args : List Value)
    {q : Query} {columns : List ColumnName}
    {values : Args → Content TableName ColumnName → List (List Value)} {vals : List Value}
    (hprep : prepare false db.schema q = none)
    (heff : q.effect = .insert d.name columns .abort values)
    (hvals : values (fun i => args.getD i .null) (view q.reads db.content) = [vals])
    (htable : db.schema.table? d.name = some d)
    (hfilled : d.unfilled columns = false)
    (hchecks : d.checks = [])
    (hnull : ∀ c ∈ columns, setColumns columns vals d.defaults c ≠ .null)
    (hempty : db.content d.name = [])
    (hne : TableName.messages ≠ d.name) :
    ∃ db', runScript db [.dml q args] = .ok db' ∧ db'.schema = db.schema ∧
      db'.content .messages = db.content .messages := by
  have hkeys : ∀ k ∈ d.keys, (db.content d.name ++
      (values (fun i => args.getD i .null) (view q.reads db.content)).map fun vals =>
        setColumns columns vals d.defaults).Pairwise fun r r' => k.same r' r = false := by
    intro k _
    rw [hempty, hvals]
    exact List.pairwise_singleton _ _
  have hrun := run_dml_of_exec args
    (exec_insert_rows hprep heff htable hfilled hchecks
      (by rw [hvals]; exact fun v hv => List.mem_singleton.mp hv ▸ hnull) hkeys)
  refine ⟨_, runScript_cons hrun, rfl, ?_⟩
  dsimp only
  rw [Function.update_of_ne hne]

/-- The first migration creates the table for the stamp. -/
theorem migrateFrom0_run
    (hschema : db.schema = schemaAt 0) :
    ∃ db', runScript db ((changes 0).map .ddl ++ [.dml insertSchemaVersion [.int 1]]) = .ok db' ∧
      db'.schema = schemaAt 1 ∧
      db'.content .messages = (db.content .messages).map (rowChanges .messages (changes 0)) := by
  have hcolumns : leads (schemaAt 0) migrate0To1AlterMessagesTableQuery
      ((schemaAt 1).filter fun d => decide (d.name ≠ .schemaVersion)) = true := by
    decide +kernel
  have hlast : (schemaAt 1).filter (fun d => decide (d.name ≠ .schemaVersion)) ++
      [schemaVersionTable] = schemaAt 1 := by
    decide +kernel
  have hprep : prepare false (schemaAt 1) insertSchemaVersion = none := by
    decide +kernel
  have htable := (schemaVersion_schemaAt 1 (by decide) (by decide)).2
  rw [← hschema] at hcolumns
  obtain ⟨db₁, hrun₁, hschema₁, hrows₁⟩ := runDdl_of_leads _ _
    (fun c hc => keeps_changes 0 (by decide) c (List.mem_append_left _ hc)) hcolumns
  have hcreate := createTable_run db₁ schemaVersionTable (by
    rw [hschema₁]
    decide +kernel)
  rw [hschema₁, hlast] at hcreate
  have hempty : Function.update db₁.content .schemaVersion [] .schemaVersion = [] :=
    Function.update_self ..
  obtain ⟨db₂, hrun₂, hschema₂, hrows₂⟩ := insertRow_run
    ⟨schemaAt 1, Function.update db₁.content .schemaVersion []⟩ schemaVersionTable [.int 1]
    hprep rfl rfl htable rfl rfl (by decide) hempty (by decide)
  have hne : TableName.messages ≠ .schemaVersion := by
    decide
  refine ⟨db₂, ?_, hschema₂, ?_⟩
  · rw [changes, List.map_append, List.append_assoc, runScript_append_of_ok hrun₁,
      runScript_append_of_ok hcreate]
    exact hrun₂
  · rw [hrows₂]
    dsimp only
    rw [Function.update_of_ne hne, hrows₁]
    rfl

theorem migrateFrom10_run
    (hschema : db.schema = schemaAt 10) :
    ∃ db', runScript db (migrateBy (changes 10) [.dml insertStatsQuery []] 11) = .ok db' ∧
      db'.schema = schemaAt 11 ∧
      db'.content .messages = (db.content .messages).map (rowChanges .messages (changes 10)) := by
  refine migrateBy_run (f := fun r => r) (by decide) (by decide) hschema
    fun db₁ hrun hschema₁ _ => ?_
  have hprep : prepare false (schemaAt 11) insertStatsQuery = none ∧
      (schemaAt 11).table? .stats = some statsTable := by
    decide +kernel
  have hcreate := createTable_run db statsTable (by
    rw [hschema]
    decide +kernel)
  have hempty : db₁.content .stats = [] := by
    have hself : Function.update db.content .stats [] .stats = [] :=
      Function.update_self ..
    cases hcreate.symm.trans hrun
    exact hself
  rw [← hschema₁] at hprep
  obtain ⟨db₂, hrun₂, hschema₂, hrows₂⟩ := insertRow_run _ statsTable []
    hprep.1 rfl rfl hprep.2 rfl rfl (by decide) hempty (by decide)
  exact ⟨db₂, hrun₂, hschema₂.trans hschema₁, hrows₂.trans (List.map_id' _).symm⟩

/-- The expiry of old messages. -/
theorem migrateFrom9_run
    (cacheDuration : Int)
    (hschema : db.schema = schemaAt 9)
    (htime : ∀ r ∈ db.content .messages, ∃ n, r .time = .int n) :
    ∃ db', runScript db (migrateBy (changes 9)
        [.dml migrate9To10UpdateMessageExpiryQuery [.int cacheDuration]] 10) = .ok db' ∧
      db'.schema = schemaAt 10 ∧
      db'.content .messages = (db.content .messages).map (stepRow cacheDuration 9) := by
  refine migrateBy_run (f := fun r => setColumns [.expires]
    [plus (r .time) (.int cacheDuration)] r) (by decide) (by decide) hschema
      fun db₁ _ hschema₁ hrows₁ => ?_
  have hprep : prepare false (schemaAt 10) migrate9To10UpdateMessageExpiryQuery = none := by
    decide +kernel
  have hfree : ((schemaAt 10).table? .messages).any (fun d =>
      decide (d.keysOn [.expires] = []) && decide (d.checks = [])) = true := by
    decide +kernel
  obtain ⟨d, htable, hd⟩ := Option.any_eq_true _ _ |>.mp hfree
  obtain ⟨hkeys, hchecks⟩ := Bool.and_eq_true_iff.mp hd
  rw [← hschema₁] at hprep htable
  have hvalues : ∀ r ∈ db₁.content .messages, ∀ c ∈ [ColumnName.expires],
      setColumns [.expires] [plus (r .time) (.int cacheDuration)] r c ≠ .null := by
    intro r hr c hc
    rw [hrows₁] at hr
    obtain ⟨r₀, hr₀, rfl⟩ := List.mem_map.mp hr
    obtain ⟨n, hn⟩ := htime r₀ hr₀
    have hsame : rowChanges .messages (changes 9) r₀ .time = .int n := hn
    rw [List.mem_singleton.mp hc, hsame]
    exact fun h => by cases h
  have hrun := run_dml_of_exec [.int cacheDuration]
    (exec_update_rows hprep rfl htable (of_decide_eq_true hkeys) (of_decide_eq_true hchecks)
      hvalues)
  refine ⟨_, runScript_cons hrun, hschema₁, ?_⟩
  dsimp only
  rw [Function.update_self]
  rfl

/-- The new table of the copy; an index on the topic is there already. -/
def copyTable : TableSchema :=
  { messagesNewTable with indexes := [⟨.mid, [.mid], false, none⟩] }

/-- The rows that are copied. -/
theorem insertMessagesNewQuery_run
    (hschema : db.schema = schemaAt 4 ++ [copyTable])
    (hempty : db.content .messagesNew = [])
    (hnull : ∀ r ∈ db.content .messages, ∀ c ∈ .id :: copiedColumns, r c ≠ .null) :
    (Command.dml insertMessagesNewQuery []).run db =
      .ok ⟨db.schema,
        Function.update db.content .messagesNew ((db.content .messages).mapIdx copyRow)⟩ := by
  have hprep : prepare false (schemaAt 4 ++ [copyTable]) insertMessagesNewQuery = none := by
    decide +kernel
  have htable : (schemaAt 4 ++ [copyTable]).table? .messagesNew = some copyTable := by
    decide +kernel
  rw [← hschema] at hprep htable
  have hread : readColumns insertMessagesNewQuery.reads .messages = .id :: copiedColumns := by
    decide
  have hseen : ∀ i r, copyValues i (restrict (.id :: copiedColumns) r) = copyValues i r := by
    intro i r
    have hcopied : copiedColumns.map (restrict (.id :: copiedColumns) r) =
        copiedColumns.map r :=
      List.map_congr_left fun c hc => if_pos (List.mem_cons_of_mem _ hc)
    rw [copyValues, hcopied]
    rfl
  have hview : view insertMessagesNewQuery.reads db.content .messages =
      (db.content .messages).map (restrict (.id :: copiedColumns)) := by
    rw [← hread]
    rfl
  have hvals : (view insertMessagesNewQuery.reads db.content .messages).mapIdx copyValues =
      (db.content .messages).mapIdx copyValues := by
    rw [hview, List.mapIdx_eq_iff]
    intro i
    simp only [List.getElem?_mapIdx, List.getElem?_map, Option.map_map]
    exact congrArg (Option.map · _) (funext fun r => (hseen i r).symm)
  have hrows : ((db.content .messages).mapIdx copyValues).map (fun vals =>
      setColumns (.id :: .mid :: copiedColumns) vals copyTable.defaults) =
        (db.content .messages).mapIdx copyRow := by
    symm
    rw [List.mapIdx_eq_iff]
    intro i
    simp only [List.getElem?_mapIdx, List.getElem?_map, Option.map_map]
    rfl
  have hkeys : ∀ k ∈ copyTable.keys, ((db.content .messages).mapIdx copyRow).Pairwise
      fun r r' => k.same r' r = false := by
    intro k hk
    have hprimary : k = ⟨[.id], none, true⟩ := by
      simpa [copyTable, TableDef.keys, messagesNewTable, table] using hk
    subst hprimary
    rw [List.pairwise_iff_getElem]
    intro i j hi hj hlt
    have hids : ∀ r r', copyRow j r .id ≠ copyRow i r' .id := by
      intro r r' h
      have hnumbers : Value.int (j + 1) = .int (i + 1) := h
      rw [Value.int.injEq] at hnumbers
      omega
    simp [Key.same, hids]
  have hfull : ∀ i, ∀ r ∈ db.content .messages, ∀ c ∈ .id :: .mid :: copiedColumns,
      setColumns (.id :: .mid :: copiedColumns) (copyValues i r) copyTable.defaults c
        ≠ .null := by
    intro i r hr c hc
    have hr := hnull r hr
    revert c
    simp only [copiedColumns, List.forall_mem_cons] at hr ⊢
    obtain ⟨h₁, h₂, h₃, h₄, h₅, h₆, h₇, h₈, h₉, h₁₀, h₁₁, h₁₂, h₁₃, h₁₄, h₁₅, h₁₆, -⟩ := hr
    exact ⟨(fun h => by cases h), h₁, h₂, h₃, h₄, h₅, h₆, h₇, h₈, h₉, h₁₀, h₁₁, h₁₂, h₁₃, h₁₄,
      h₁₅, h₁₆, by simp⟩
  have hexec := @exec_insert_rows _ _ _ _ _ db.schema db.content _ _
    (fun i => [].getD i .null) _ _ _ hprep rfl
    htable rfl rfl
    (by
      rw [hvals]
      intro vals hvals'
      obtain ⟨i, hi, rfl⟩ := List.mem_mapIdx.mp hvals'
      exact hfull i _ (List.getElem_mem hi))
    (by
      rw [hvals, hrows, hempty, List.nil_append]
      exact hkeys)
  rw [hvals, hrows, hempty, List.nil_append] at hexec
  exact run_dml_of_exec [] hexec

/-- The schema without the old table. -/
def droppedSchema : Schema TableName ColumnName IndexName :=
  (schemaAt 4 ++ [copyTable]).filter fun d => decide (d.name ≠ .messages)

/-- The copy takes the place of the table. -/
theorem replaceTable_run
    (C : Content TableName ColumnName) :
    ∃ C', runScript ⟨schemaAt 4 ++ [copyTable], C⟩
        [.ddl (.dropTable .messages), .ddl (.renameTable .messagesNew .messages)] =
          .ok ⟨schemaAt 5, C'⟩ ∧ C' .messages = C .messagesNew := by
  have hold : TableName.messages ∈ Schema.names (schemaAt 4 ++ [copyTable]) := by
    decide +kernel
  have hnames : TableName.messagesNew ∈ droppedSchema.names ∧
      TableName.messages ∉ droppedSchema.names := by
    decide +kernel
  have hlast : droppedSchema.renameTable .messagesNew .messages = schemaAt 5 := by
    decide +kernel
  have hne : TableName.messages ≠ .messagesNew := by
    decide
  have hdrop : (Command.ddl (.dropTable .messages)).run ⟨schemaAt 4 ++ [copyTable], C⟩ =
      .ok ⟨droppedSchema, Function.update C .messages []⟩ := by
    rw [Command.run, Ddl.run, if_pos hold]
    rfl
  refine ⟨Function.update (Function.update (Function.update C .messages []) .messages
    (C .messagesNew)) .messagesNew [], ?_, ?_⟩
  · rw [runScript_cons hdrop, runScript, Command.run, Ddl.run, if_neg (not_not.mpr hnames.1),
      if_neg hnames.2, hlast]
    dsimp only
    rw [Function.update_of_ne hne.symm]
    rfl
  · rw [Function.update_of_ne hne, Function.update_self]

/-- The copy gives the rows new row IDs, in their order. -/
theorem migrateFrom4_run
    (hschema : db.schema = schemaAt 4)
    (hnull : ∀ r ∈ db.content .messages, ∀ c ∈ .id :: copiedColumns, r c ≠ .null) :
    ∃ db', runScript db (migrateBy [] migrate4To5AlterMessagesTableQuery 5) = .ok db' ∧
      db'.schema = schemaAt 5 ∧
      db'.content .messages = (db.content .messages).mapIdx copyRow := by
  have hne : TableName.messages ≠ .messagesNew := by
    decide
  have hindexes : leads (schemaAt 4 ++ [messagesNewTable])
      [createIndex .messagesNew .mid .mid, createIndex .messagesNew .topic .topic]
      (schemaAt 4 ++ [copyTable]) = true := by
    decide +kernel
  have hnew : messagesNewTable.name ∉ db.schema.names := by
    rw [hschema]
    decide +kernel
  have hcreate : runDdl db [createTable messagesNewTable] =
      .ok ⟨schemaAt 4 ++ [messagesNewTable],
        Function.update db.content .messagesNew []⟩ := by
    rw [createTable_run _ _ hnew, hschema]
    rfl
  obtain ⟨db₂, hrun₂, hschema₂, hrows₂⟩ := runDdl_of_leads
    ⟨schemaAt 4 ++ [messagesNewTable], Function.update db.content .messagesNew []⟩
    .messages (by decide) hindexes
  obtain ⟨db₂', hrun₂', -, hempty⟩ := runDdl_of_leads
    ⟨schemaAt 4 ++ [messagesNewTable], Function.update db.content .messagesNew []⟩
    .messagesNew (by decide) hindexes
  cases hrun₂.symm.trans hrun₂'
  have hmessages : db₂.content .messages = db.content .messages := by
    rw [hrows₂]
    dsimp only
    rw [Function.update_of_ne hne]
    exact List.map_id' _
  have hnone : db₂.content .messagesNew = [] := by
    rw [hempty]
    dsimp only
    rw [Function.update_self]
    rfl
  have hcopy := insertMessagesNewQuery_run hschema₂ hnone (by rw [hmessages]; exact hnull)
  rw [hmessages, hschema₂] at hcopy
  obtain ⟨C', hrun₄, hcontent⟩ := replaceTable_run (Function.update db₂.content .messagesNew
    ((db.content .messages).mapIdx copyRow))
  obtain ⟨db₅, hrun₅, hschema₅, hrows₅⟩ := updateSchemaVersion_run (v := 5)
    ⟨schemaAt 5, C'⟩ (by decide) (by decide) rfl 5
  refine ⟨db₅, ?_, hschema₅, ?_⟩
  · have hscript : migrateBy [] migrate4To5AlterMessagesTableQuery 5 =
        [createTable messagesNewTable].map .ddl ++
          ([createIndex .messagesNew .mid .mid, createIndex .messagesNew .topic .topic].map .ddl
            ++ (.dml insertMessagesNewQuery [] ::
              ([.ddl (.dropTable .messages), .ddl (.renameTable .messagesNew .messages)] ++
                [.dml updateSchemaVersion [.int 5]]))) :=
      rfl
    rw [hscript, runScript_append_of_ok hcreate, runScript_append_of_ok hrun₂,
      runScript_cons hcopy, runScript_append_of_ok hrun₄]
    exact hrun₅
  · rw [hrows₅]
    dsimp only
    rw [hcontent, Function.update_self]

end Steps

section Runs

variable {cacheDuration : Int}
variable {db : CacheDatabase}
variable {v : Nat}
variable {rows : List (Row ColumnName)}

/-- No field is `NULL`, and the time is a number. -/
def ValidFields (vals : List Value) : Prop :=
  (∀ x ∈ vals, x ≠ .null) ∧ ∃ n, vals[2]? = some (.int n)

/-- The row IDs that the copy assigns. -/
def newIDs (n : Nat) : List Value :=
  (List.range n).map fun i : Nat => .int (i + 1)

theorem migratedFields_stepRows
    (cacheDuration : Int)
    (hv : v < 17)
    (rows : List (Row ColumnName)) :
    (stepRows cacheDuration v rows).map (migratedFields cacheDuration (v + 1)) =
      rows.map (migratedFields cacheDuration v) := by
  unfold stepRows
  split
  · next hcopy =>
      subst hcopy
      refine List.ext_getElem? fun i => ?_
      simp only [List.getElem?_map, List.getElem?_mapIdx, Option.map_map]
      exact congrArg (Option.map · _)
        (funext fun r => migratedFields_copyRow cacheDuration i r)
  · next hcopy =>
      rw [List.map_map]
      exact List.map_congr_left fun r _ => migratedFields_stepRow cacheDuration hv hcopy r

theorem ids_stepRows
    (cacheDuration : Int)
    (hv : v < 17)
    (rows : List (Row ColumnName)) :
    (stepRows cacheDuration v rows).map (fun r => r .id) =
      if v = 4 then newIDs rows.length else rows.map fun r => r .id := by
  unfold stepRows
  split
  · refine List.ext_getElem (by simp [newIDs]) fun i _ _ => ?_
    simp only [newIDs, List.getElem_map, List.getElem_mapIdx, List.getElem_range]
    rfl
  · next hcopy =>
      rw [List.map_map]
      refine List.map_congr_left fun r _ => ?_
      interval_cases v
      case «4» =>
        exact absurd rfl hcopy
      all_goals rfl

theorem time_eq_of_valid
    {r : Row ColumnName}
    (h : ValidFields (migratedFields cacheDuration v r)) :
    ∃ n, r .time = .int n := by
  obtain ⟨n, hn⟩ := h.2
  exact ⟨n, Option.some.inj hn⟩

theorem copied_of_valid
    {r : Row ColumnName}
    (h : ValidFields (migratedFields cacheDuration 4 r)) :
    ∀ c ∈ .id :: copiedColumns, r c ≠ .null := by
  have hnames : ∀ c ∈ ColumnName.id :: copiedColumns,
      ∃ c' ∈ messageColumns, introduced c' ≤ 4 ∧ oldName 4 c' = c := by
    decide
  intro c hc
  obtain ⟨c', hc', hle, rfl⟩ := hnames c hc
  refine h.1 _ (List.mem_map.mpr ⟨c', hc', ?_⟩)
  rw [migratedField, if_neg fun h => absurd h.2 (Nat.not_lt.mpr hle)]
  unfold fieldOf
  rw [if_pos hle]

/-- One migration. -/
theorem migrate_step
    (cacheDuration : Int)
    (hv : v < 17)
    (hschema : db.schema = schemaAt v)
    (hvalid : ∀ r ∈ db.content .messages, ValidFields (migratedFields cacheDuration v r)) :
    ∃ script db', migrations cacheDuration v = some script ∧ runScript db script = .ok db' ∧
      db'.schema = schemaAt (v + 1) ∧
      db'.content .messages = stepRows cacheDuration v (db.content .messages) := by
  have hplain : v ∉ [0, 4, 9, 10] →
      migrations cacheDuration v = some (migrateBy (changes v) [] (v + 1)) := by
    intro h
    interval_cases v
    all_goals first
      | exact absurd (by decide) h
      | rfl
  by_cases hspecial : v ∈ [0, 4, 9, 10]
  · simp only [List.mem_cons, List.not_mem_nil, or_false] at hspecial
    rcases hspecial with rfl | rfl | rfl | rfl
    · obtain ⟨db', hrun, hschema', hrows⟩ := migrateFrom0_run hschema
      exact ⟨_, db', rfl, hrun, hschema', hrows⟩
    · obtain ⟨db', hrun, hschema', hrows⟩ :=
        migrateFrom4_run hschema fun r hr => copied_of_valid (hvalid r hr)
      exact ⟨_, db', rfl, hrun, hschema', hrows⟩
    · obtain ⟨db', hrun, hschema', hrows⟩ :=
        migrateFrom9_run cacheDuration hschema fun r hr => time_eq_of_valid (hvalid r hr)
      exact ⟨_, db', rfl, hrun, hschema', hrows⟩
    · obtain ⟨db', hrun, hschema', hrows⟩ := migrateFrom10_run hschema
      exact ⟨_, db', rfl, hrun, hschema', hrows⟩
  · have hcopy : v ≠ 4 := by
      rintro rfl
      exact hspecial (by decide)
    have hexpiry : v ≠ 9 := by
      rintro rfl
      exact hspecial (by decide)
    obtain ⟨db', hrun, hschema', hrows⟩ := migrateBy_run_nil hv hcopy hschema
    refine ⟨_, db', hplain hspecial, hrun, hschema', ?_⟩
    rw [hrows, stepRows, if_neg hcopy]
    exact List.map_congr_left fun r _ => by rw [stepRow, if_neg hexpiry]

/-- The rows are migrated: their fields, and their row IDs. -/
def Migrated
    (cacheDuration : Int)
    (v : Nat)
    (rows rows' : List (Row ColumnName)) : Prop :=
  rows'.map (fun r => messageColumns.map r) = rows.map (migratedFields cacheDuration v) ∧
    rows'.map (fun r => r .id) =
      if v ≤ 4 then newIDs rows.length else rows.map fun r => r .id

/-- All migrations from a version on. -/
theorem migrate_run
    (cacheDuration : Int)
    (n : Nat)
    (hv : v + n = 17)
    (hschema : db.schema = schemaAt v)
    (hvalid : ∀ r ∈ db.content .messages, ValidFields (migratedFields cacheDuration v r)) :
    ∃ db', migrate cacheDuration n v db = .ok db' ∧ db'.schema = schemaAt 17 ∧
      Migrated cacheDuration v (db.content .messages) (db'.content .messages) := by
  induction n generalizing v db with
  | zero =>
      obtain rfl : v = 17 := hv
      exact ⟨db, rfl, hschema, rfl, rfl⟩
  | succ n ih =>
      have hlt : v < 17 := by omega
      obtain ⟨script, db₁, hscript, hrun, hschema₁, hrows₁⟩ :=
        migrate_step cacheDuration hlt hschema hvalid
      have hfields := migratedFields_stepRows cacheDuration hlt (db.content .messages)
      rw [← hrows₁] at hfields
      have hvalid₁ : ∀ r ∈ db₁.content .messages,
          ValidFields (migratedFields cacheDuration (v + 1) r) := by
        intro r hr
        have hmem := List.mem_map_of_mem (f := migratedFields cacheDuration (v + 1)) hr
        rw [hfields] at hmem
        obtain ⟨r₀, hr₀, hsame⟩ := List.mem_map.mp hmem
        rw [← hsame]
        exact hvalid r₀ hr₀
      obtain ⟨db₂, hrun₂, hschema₂, hrows₂, hids₂⟩ := ih (by omega) hschema₁ hvalid₁
      refine ⟨db₂, ?_, hschema₂, hrows₂.trans hfields, ?_⟩
      · rw [migrate, hscript]
        dsimp only
        rw [hrun]
        exact hrun₂
      · have hids := ids_stepRows cacheDuration hlt (db.content .messages)
        rw [← hrows₁] at hids
        have hlength : (db₁.content .messages).length = (db.content .messages).length := by
          simpa using congrArg List.length hfields
        rw [hids₂]
        by_cases hle : v + 1 ≤ 4
        · rw [if_pos hle, if_pos (Nat.le_of_succ_le hle), hlength]
        · rw [if_neg hle, hids]
          by_cases hcopy : v = 4
          · rw [if_pos hcopy, if_pos (Nat.le_of_eq hcopy)]
          · rw [if_neg hcopy, if_neg (by omega)]

end Runs

end CacheDB
end Server
end CoopMessenger
