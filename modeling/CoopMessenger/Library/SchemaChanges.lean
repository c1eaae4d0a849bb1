import CoopMessenger.Library.Relational

/-!
# Changes of the schema

The statements that create, rename and drop tables, columns and indexes, and
scripts of such statements and of others.  A table that is renamed takes the
foreign keys along that refer to it.  Foreign keys are not enforced meanwhile.
-/

namespace CoopMessenger
namespace Library
namespace Sql

variable {τ κ ι : Type}
variable [DecidableEq τ] [DecidableEq κ] [DecidableEq ι]

section Model

/-- A database file. -/
structure Db (τ κ ι : Type) where
  schema : Schema τ κ ι
  content : Content τ κ

def Db.empty : Db τ κ ι :=
  ⟨[], fun _ => []⟩

/-- A statement that changes the schema. -/
inductive Ddl (τ κ ι : Type) where
  | createTable (ifNotExists : Bool) (d : TableDef τ κ ι)
  | createIndex (ifNotExists : Bool) (t : τ) (i : Index κ ι)
  | dropIndexIfExists (i : ι)
  | dropTable (t : τ)
  | renameTable (t t' : τ)
  | addColumn (t : τ) (c : Column κ)
  | renameColumn (t : τ) (c c' : κ)

/-- A statement of a script. -/
inductive Command (τ κ ι : Type) where
  | ddl (c : Ddl τ κ ι)
  | dml (q : Stmt τ κ) (args : List Value)

namespace Schema

def modify
    (S : Schema τ κ ι)
    (t : τ)
    (f : TableDef τ κ ι → TableDef τ κ ι) : Schema τ κ ι :=
  S.map (fun d => if d.name = t then f d else d)

def hasIndex
    (S : Schema τ κ ι)
    (i : ι) : Bool :=
  S.any (fun d => d.indexes.any (fun j => decide (j.name = i)))

def dropIndex
    (S : Schema τ κ ι)
    (i : ι) : Schema τ κ ι :=
  S.map (fun d =>
    { d with indexes := d.indexes.filter (fun j => decide (j.name ≠ i)) })

/-- The new name in the place of the old one. -/
def rename
    {α : Type}
    [DecidableEq α]
    (a a' x : α) : α :=
  if x = a then a' else x

/-- Renames a table, also where foreign keys refer to it. -/
def renameTable
    (S : Schema τ κ ι)
    (t t' : τ) : Schema τ κ ι :=
  S.map (fun d =>
    { d with
      name := rename t t' d.name
      foreignKeys :=
        d.foreignKeys.map
          (fun fk => { fk with target := rename t t' fk.target }) })

/-- Renames a column, also in keys, checks, indexes and foreign keys. -/
def renameColumn
    (S : Schema τ κ ι)
    (t : τ)
    (c c' : κ) : Schema τ κ ι :=
  let S' := S.modify t (fun d =>
    { d with
      columns :=
        d.columns.map (fun col => { col with name := rename c c' col.name })
      primaryKey := d.primaryKey.map (rename c c')
      checks := d.checks.map (fun k => (rename c c' k.1, k.2))
      foreignKeys :=
        d.foreignKeys.map
          (fun fk => { fk with column := rename c c' fk.column })
      indexes :=
        d.indexes.map (fun i =>
          { i with
            columns := i.columns.map (rename c c')
            except := i.except.map (fun e => (rename c c' e.1, e.2)) }) })
  S'.map (fun d =>
    { d with
      foreignKeys :=
        d.foreignKeys.map (fun fk =>
          if fk.target = t then
            { fk with targetColumn := rename c c' fk.targetColumn }
          else
            fk) })

end Schema

/-- Do two of the rows have the same key? -/
def collide
    (k : Key κ) : List (Row κ) → Bool
  | [] => false
  | r :: rest => rest.any (k.same r) || collide k rest

/-- Changes the schema. -/
def Ddl.run
    (db : Db τ κ ι) :
    Ddl τ κ ι → Except (SqlError τ κ ι) (Db τ κ ι)
  | .createTable ifNotExists d =>
      if d.name ∈ db.schema.names then
        if ifNotExists then .ok db else .error (.tableExists d.name)
      else
        .ok ⟨db.schema ++ [d], Function.update db.content d.name []⟩
  | .createIndex ifNotExists t i =>
      if db.schema.hasIndex i.name then
        if ifNotExists then .ok db else .error (.indexExists i.name)
      else
        match (db.schema.missingTable [t]).or
            (db.schema.missingColumn [(t, i.columns)]) with
        | some e => .error e
        | none =>
            if i.unique && collide ⟨i.columns, i.except, false⟩
                (db.content t) then
              .error (.unique t i.columns false)
            else
              .ok
                { db with
                  schema :=
                    db.schema.modify t
                      (fun d => { d with indexes := d.indexes ++ [i] }) }
  | .dropIndexIfExists i =>
      .ok { db with schema := db.schema.dropIndex i }
  | .dropTable t =>
      if t ∈ db.schema.names then
        .ok
          ⟨db.schema.filter (fun d => decide (d.name ≠ t)),
            Function.update db.content t []⟩
      else
        .error (.noSuchTable t)
  | .renameTable t t' =>
      if t ∉ db.schema.names then
        .error (.noSuchTable t)
      else if t' ∈ db.schema.names then
        .error (.tableExists t')
      else
        .ok
          ⟨db.schema.renameTable t t',
            Function.update (Function.update db.content t' (db.content t))
              t []⟩
  | .addColumn t c =>
      if t ∉ db.schema.names then
        .error (.noSuchTable t)
      else if c.name ∈ db.schema.columns t then
        .error (.columnExists t c.name)
      else if c.notNull ∧ c.default = .null then
        .error (.defaultMissing t c.name)
      else
        .ok
          ⟨db.schema.modify t (fun d => { d with columns := d.columns ++ [c] }),
            Function.update db.content t
              ((db.content t).map (setColumns [c.name] [c.default]))⟩
  | .renameColumn t c c' =>
      if t ∉ db.schema.names then
        .error (.noSuchTable t)
      else if c ∉ db.schema.columns t then
        .error (.noSuchColumn t c)
      else if c' ∈ db.schema.columns t then
        .error (.columnExists t c')
      else
        .ok
          ⟨db.schema.renameColumn t c c',
            Function.update db.content t
              ((db.content t).map (fun r => setColumns [c, c'] [.null, r c] r))⟩

/-- The connection of scripts: foreign keys are not enforced. -/
def Connection.script : Connection :=
  ⟨false, 0⟩

/-- Executes a statement of a script. -/
def Command.run
    (db : Db τ κ ι) :
    Command τ κ ι → Except (SqlError τ κ ι) (Db τ κ ι)
  | .ddl c => c.run db
  | .dml q args =>
      (exec .script db.schema q (fun i => args.getD i .null) db.content).map
        (fun x => { db with content := x.2 })

/-- Executes a script in one transaction. -/
def runScript :
    Db τ κ ι → List (Command τ κ ι) → Except (SqlError τ κ ι) (Db τ κ ι)
  | db, [] => .ok db
  | db, c :: rest => (c.run db).bind (fun db' => runScript db' rest)

end Model

end Sql
end Library
end CoopMessenger
