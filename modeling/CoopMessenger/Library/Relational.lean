import Mathlib.Data.List.Basic
import Mathlib.Logic.Function.Basic

/-!
# A relational engine

Tables with keys, checks and foreign keys, and the statements that are prepared
against them.  Tables, columns and indexes are named by types of their own.  A
row gives every column a value, `NULL` where the table has no such column.

A statement declares the columns it reads, and its conditions and values see
nothing else.  Preparing it fails if the schema lacks a name it uses; with
enforced foreign keys also if a written table refers to a missing table.  A table
does not refer to itself, and keys that are referred to are not updated.

**Results.**
* `isSchema_of_exec`: a prepared statement reports no schema error.
* `deleteRows_of_unrestricted`: nothing forbids to delete from a table to which
  all foreign keys cascade.
* `doomed_of_child`: the rows go along that refer to one that is deleted.
-/

namespace CoopMessenger
namespace Library
namespace Sql

inductive Value where
  | null
  | int (i : Int)
  | text (s : String)
deriving DecidableEq, Repr

section Schemas

variable (τ κ ι : Type)

/-- A column; without a default it is `NULL` where an insert leaves it out. -/
structure Column where
  name : κ
  notNull : Bool
  default : Value
deriving DecidableEq, Repr

/-- `FOREIGN KEY (column) REFERENCES target (targetColumn)` -/
structure ForeignKey where
  column : κ
  target : τ
  targetColumn : κ
  cascade : Bool
deriving DecidableEq, Repr

/-- An index; rows with the excepted value are left out of it. -/
structure Index where
  name : ι
  columns : List κ
  unique : Bool
  except : Option (κ × Value)
deriving DecidableEq, Repr

/-- A table; a check lists the values that a column may have. -/
structure TableDef where
  name : τ
  columns : List (Column κ)
  primaryKey : List κ
  checks : List (κ × List Value)
  foreignKeys : List (ForeignKey τ κ)
  indexes : List (Index κ ι)
deriving DecidableEq, Repr

abbrev Schema := List (TableDef τ κ ι)

abbrev Row := κ → Value

/-- The rows of every table, in the order in which they were inserted. -/
abbrev Content := τ → List (Row κ)

/-- The arguments of a statement, by position. -/
abbrev Args := Nat → Value

/-- The rows that a statement returns. -/
abbrev Answer := List (List Value)

/--
What to do with a row that is already there: fail, skip it, or set columns of the
row with the same key to the values of the new one.
-/
inductive Conflict where
  | abort
  | ignore
  | target (columns sets : List κ)

/-- What a statement does with the rows that it sees. -/
inductive Effect where
  | select (answer : Args → Content τ κ → Answer)
  | insert
      (table : τ)
      (columns : List κ)
      (conflict : Conflict κ)
      (values : Args → Content τ κ → List (List Value))
  | update
      (table : τ)
      (sets : List κ)
      (values : Args → Content τ κ → Row κ → List Value)
      (cond : Args → Content τ κ → Row κ → Bool)
  | delete
      (table : τ)
      (cond : Args → Content τ κ → Row κ → Bool)

/-- A statement with the columns that it reads. -/
structure Stmt where
  reads : List (τ × List κ)
  effect : Effect τ κ

inductive SqlError where
  | noSuchTable (t : τ)
  | noSuchColumn (t : τ) (c : κ)
  | noSuchIndex (i : ι)
  | tableExists (t : τ)
  | columnExists (t : τ) (c : κ)
  | indexExists (i : ι)
  | defaultMissing (t : τ) (c : κ)
  | notNull (t : τ)
  | check (t : τ)
  | unique (t : τ) (columns : List κ) (primary : Bool)
  | foreignKey
deriving DecidableEq, Repr

/--
A connection: are foreign keys enforced, and to which depth are deletions
cascaded?
-/
structure Connection where
  foreignKeys : Bool
  depth : Nat

end Schemas

variable {τ κ ι : Type}
variable [DecidableEq τ] [DecidableEq κ]

section Lookup

/-- Does the error say that the schema lacks a name? -/
def SqlError.isSchema : SqlError τ κ ι → Bool
  | .noSuchTable _ => true
  | .noSuchColumn _ _ => true
  | _ => false

def Schema.table?
    (S : Schema τ κ ι)
    (t : τ) : Option (TableDef τ κ ι) :=
  S.find? (fun d => decide (d.name = t))

def Schema.names (S : Schema τ κ ι) : List τ :=
  S.map TableDef.name

/-- The columns of a table. -/
def Schema.columns
    (S : Schema τ κ ι)
    (t : τ) : List κ :=
  ((S.table? t).map (fun d => d.columns.map Column.name)).getD []

/-- The foreign keys of a table. -/
def Schema.foreignKeys
    (S : Schema τ κ ι)
    (t : τ) : List (ForeignKey τ κ) :=
  ((S.table? t).map TableDef.foreignKeys).getD []

omit [DecidableEq κ] in
theorem name_of_table?_eq_some
    {S : Schema τ κ ι} {t : τ} {d : TableDef τ κ ι}
    (h : S.table? t = some d) :
    d.name = t := by
  simpa using List.find?_some h

omit [DecidableEq κ] in
theorem mem_names_of_table?_eq_some
    {S : Schema τ κ ι} {t : τ} {d : TableDef τ κ ι}
    (h : S.table? t = some d) :
    t ∈ S.names :=
  List.mem_map.mpr
    ⟨d, List.mem_of_find?_eq_some h, name_of_table?_eq_some h⟩

/-- The row in the columns of the list. -/
def restrict
    (cols : List κ)
    (r : Row κ) : Row κ :=
  fun c => if c ∈ cols then r c else .null

/-- The columns that are read of a table. -/
def readColumns
    (reads : List (τ × List κ))
    (t : τ) : List κ :=
  reads.flatMap (fun p => if p.1 = t then p.2 else [])

/-- What a statement sees: the tables and columns that it declares. -/
def view
    (reads : List (τ × List κ))
    (C : Content τ κ) : Content τ κ :=
  fun t =>
    if t ∈ reads.map Prod.fst then
      (C t).map (restrict (readColumns reads t))
    else
      []

end Lookup

section Constraints

/-- A key of a table. -/
structure Key (κ : Type) where
  columns : List κ
  except : Option (κ × Value)
  primary : Bool
deriving DecidableEq, Repr

/-- Is the row subject to the key? -/
def Key.covers
    (k : Key κ)
    (r : Row κ) : Bool :=
  k.except.all (fun e => decide (r e.1 ≠ e.2)) &&
    k.columns.all (fun c => decide (r c ≠ .null))

/-- Do the rows collide? -/
def Key.same
    (k : Key κ)
    (r q : Row κ) : Bool :=
  k.covers r && k.covers q && k.columns.all (fun c => decide (r c = q c))

namespace TableDef

/-- The primary key and the unique indexes. -/
def keys (d : TableDef τ κ ι) : List (Key κ) :=
  ⟨d.primaryKey, none, true⟩ ::
    (d.indexes.filter Index.unique).map
      (fun i => ⟨i.columns, i.except, false⟩)

def required
    (d : TableDef τ κ ι)
    (c : κ) : Bool :=
  d.columns.any (fun col => decide (col.name = c) && col.notNull)

/-- The row of the defaults. -/
def defaults (d : TableDef τ κ ι) : Row κ :=
  fun c =>
    ((d.columns.find? (fun col => decide (col.name = c))).map
      Column.default).getD .null

/-- Does an insert have to give a column that it leaves out? -/
def unfilled
    (d : TableDef τ κ ι)
    (columns : List κ) : Bool :=
  d.columns.any (fun col =>
    col.notNull && decide (col.default = .null) &&
      !decide (col.name ∈ columns))

/-- The constraints of the row alone, after these columns were written. -/
def rowError
    (d : TableDef τ κ ι)
    (written : List κ)
    (r : Row κ) : Option (SqlError τ κ ι) :=
  if written.any (fun c => d.required c && decide (r c = .null)) then
    some (.notNull d.name)
  else if d.checks.any (fun k =>
      decide (r k.1 ≠ .null) && !decide (r k.1 ∈ k.2)) then
    some (.check d.name)
  else
    none

/-- The first of the keys in which the row collides with another one. -/
def keyError
    (d : TableDef τ κ ι)
    (keys : List (Key κ))
    (r : Row κ)
    (others : List (Row κ)) : Option (SqlError τ κ ι) :=
  (keys.find? (fun k => others.any (k.same r))).map
    (fun k => .unique d.name k.columns k.primary)

/-- The keys with a column of the list. -/
def keysOn
    (d : TableDef τ κ ι)
    (columns : List κ) : List (Key κ) :=
  d.keys.filter (fun k => k.columns.any (fun c => decide (c ∈ columns)))

/-- The foreign keys in a column of the list. -/
def foreignKeysOn
    (d : TableDef τ κ ι)
    (columns : List κ) : List (ForeignKey τ κ) :=
  d.foreignKeys.filter (fun fk => decide (fk.column ∈ columns))

end TableDef

/-- Does the row refer to a row that is not there? -/
def dangles
    (fks : List (ForeignKey τ κ))
    (C : Content τ κ)
    (r : Row κ) : Bool :=
  fks.any (fun fk =>
    decide (r fk.column ≠ .null) &&
      !(C fk.target).any (fun q => decide (q fk.targetColumn = r fk.column)))

end Constraints

section Writes

/-- The row with new values in the columns. -/
def setColumns
    (columns : List κ)
    (vals : List Value)
    (r : Row κ) : Row κ :=
  fun c => if c ∈ columns then vals.getD (columns.idxOf c) .null else r c

/-- Updates the rows one after another; the first list is done. -/
def updateRows
    (foreignKeys : Bool)
    (d : TableDef τ κ ι)
    (sets : List κ)
    (values : Row κ → List Value)
    (cond : Row κ → Bool)
    (C : Content τ κ) :
    List (Row κ) → List (Row κ) →
      Except (SqlError τ κ ι) (List (Row κ))
  | done, [] => .ok done
  | done, r :: rest =>
      if cond r then
        let r' := setColumns sets (values r) r
        match d.rowError sets r' with
        | some e => .error e
        | none =>
            match d.keyError (d.keysOn sets) r' (done ++ rest) with
            | some e => .error e
            | none =>
                if foreignKeys && dangles (d.foreignKeysOn sets) C r' then
                  .error .foreignKey
                else
                  updateRows foreignKeys d sets values cond C
                    (done ++ [r']) rest
      else
        updateRows foreignKeys d sets values cond C (done ++ [r]) rest

/-- Updates the rows of a table that meet the condition. -/
def updateTable
    (foreignKeys : Bool)
    (d : TableDef τ κ ι)
    (sets : List κ)
    (values : Row κ → List Value)
    (cond : Row κ → Bool)
    (C : Content τ κ) : Except (SqlError τ κ ι) (Content τ κ) :=
  (updateRows foreignKeys d sets values cond C [] (C d.name)).map
    (Function.update C d.name)

/-- The columns that decide whether a row is there already. -/
def Conflict.key : Conflict κ → Key κ
  | .target columns _ => ⟨columns, none, false⟩
  | _ => ⟨[], none, false⟩

/-- The columns that are set in a row that is there already. -/
def Conflict.sets : Conflict κ → List κ
  | .target _ sets => sets
  | _ => []

/-- Is a row with the key of the new one to be updated? -/
def Conflict.hits
    (conflict : Conflict κ)
    (rows : List (Row κ))
    (r : Row κ) : Bool :=
  match conflict with
  | .target columns _ => rows.any (Key.same ⟨columns, none, false⟩ r)
  | _ => false

/-- Is a row that violates a constraint left out? -/
def Conflict.recover
    (conflict : Conflict κ)
    (C : Content τ κ)
    (e : SqlError τ κ ι) : Except (SqlError τ κ ι) (Content τ κ) :=
  match conflict with
  | .ignore => .ok C
  | _ => .error e

/-- The constraints of a new row alone. -/
def TableDef.insertError
    (d : TableDef τ κ ι)
    (columns : List κ)
    (r : Row κ) : Option (SqlError τ κ ι) :=
  if d.unfilled columns then
    some (.notNull d.name)
  else
    d.rowError columns r

/-- Inserts a row. -/
def insertRow
    (foreignKeys : Bool)
    (d : TableDef τ κ ι)
    (columns : List κ)
    (conflict : Conflict κ)
    (C : Content τ κ)
    (vals : List Value) : Except (SqlError τ κ ι) (Content τ κ) :=
  let r := setColumns columns vals d.defaults
  match d.insertError columns r with
  | some e => conflict.recover C e
  | none =>
      if conflict.hits (C d.name) r then
        updateTable foreignKeys d conflict.sets
          (fun _ => conflict.sets.map r) (conflict.key.same r) C
      else
        match d.keyError d.keys r (C d.name) with
        | some e => conflict.recover C e
        | none =>
            if foreignKeys && dangles d.foreignKeys C r then
              .error .foreignKey
            else
              .ok (Function.update C d.name (C d.name ++ [r]))

/-- Inserts rows from left to right. -/
def insertRows
    (foreignKeys : Bool)
    (d : TableDef τ κ ι)
    (columns : List κ)
    (conflict : Conflict κ) :
    Content τ κ → List (List Value) →
      Except (SqlError τ κ ι) (Content τ κ)
  | C, [] => .ok C
  | C, vals :: rest =>
      (insertRow foreignKeys d columns conflict C vals).bind
        (fun C' => insertRows foreignKeys d columns conflict C' rest)

/--
Is the row deleted together with the rows of `t` that meet the condition, by a
chain of at most `n` references?
-/
def doomed
    (S : Schema τ κ ι)
    (t : τ)
    (cond : Row κ → Bool)
    (C : Content τ κ) : Nat → τ → Row κ → Bool
  | 0, c, r => decide (c = t) && cond r
  | n + 1, c, r =>
      doomed S t cond C n c r ||
        (S.foreignKeys c).any (fun fk =>
          fk.cascade && decide (r fk.column ≠ .null) &&
            (C fk.target).any (fun q =>
              doomed S t cond C n fk.target q &&
                decide (q fk.targetColumn = r fk.column)))

/-- The rows that are deleted together with those that meet the condition. -/
def gone
    (conn : Connection)
    (S : Schema τ κ ι)
    (t : τ)
    (cond : Row κ → Bool)
    (C : Content τ κ) : τ → Row κ → Bool :=
  doomed S t cond C (if conn.foreignKeys then conn.depth else 0)

/-- The foreign keys that forbid to delete. -/
def Schema.restricting
    (S : Schema τ κ ι)
    (c : τ) : List (ForeignKey τ κ) :=
  (S.foreignKeys c).filter (fun fk => !fk.cascade)

/-- Does a row of `c` that stays refer to one that goes? -/
def clings
    (C : Content τ κ)
    (goes : τ → Row κ → Bool)
    (c : τ)
    (fk : ForeignKey τ κ) : Bool :=
  (C c).any (fun r =>
    !goes c r && decide (r fk.column ≠ .null) &&
      (C fk.target).any (fun q =>
        goes fk.target q && decide (q fk.targetColumn = r fk.column)))

/-- Is a deletion forbidden? -/
def blocked
    (S : Schema τ κ ι)
    (C : Content τ κ)
    (goes : τ → Row κ → Bool) : Bool :=
  S.names.any (fun c => (S.restricting c).any (clings C goes c))

/-- Deletes the rows of a table that meet the condition. -/
def deleteRows
    (conn : Connection)
    (S : Schema τ κ ι)
    (t : τ)
    (cond : Row κ → Bool)
    (C : Content τ κ) : Except (SqlError τ κ ι) (Content τ κ) :=
  if conn.foreignKeys && blocked S C (gone conn S t cond C) then
    .error .foreignKey
  else
    .ok (fun c => (C c).filter (fun r => !gone conn S t cond C c r))

end Writes

section Statements

/-- The table and the columns that a statement writes. -/
def Effect.written : Effect τ κ → Option (τ × List κ)
  | .select _ => none
  | .insert t columns conflict _ => some (t, columns ++ conflict.key.columns)
  | .update t sets _ _ => some (t, sets)
  | .delete t _ => some (t, [])

/-- The foreign keys that the statement is compiled with. -/
def Effect.foreignKeys
    (S : Schema τ κ ι) :
    Effect τ κ → List (ForeignKey τ κ)
  | .select _ => []
  | .insert t _ _ _ => S.foreignKeys t
  | .update t sets _ _ =>
      (S.foreignKeys t).filter (fun fk => decide (fk.column ∈ sets))
  | .delete t _ => S.foreignKeys t

/-- All the tables and columns that a statement names. -/
def Stmt.names (q : Stmt τ κ) : List (τ × List κ) :=
  q.effect.written.toList ++ q.reads

/-- The first table that is missing. -/
def Schema.missingTable
    (S : Schema τ κ ι)
    (ts : List τ) : Option (SqlError τ κ ι) :=
  (ts.find? (fun t => decide (t ∉ S.names))).map .noSuchTable

/-- The first column that is missing. -/
def Schema.missingColumn
    (S : Schema τ κ ι)
    (names : List (τ × List κ)) : Option (SqlError τ κ ι) :=
  names.findSome? (fun p =>
    (p.2.find? (fun c => decide (c ∉ S.columns p.1))).map
      (.noSuchColumn p.1))

/-- Prepares a statement: the error, if it cannot be prepared. -/
def prepare
    (foreignKeys : Bool)
    (S : Schema τ κ ι)
    (q : Stmt τ κ) : Option (SqlError τ κ ι) :=
  (S.missingTable (q.names.map Prod.fst)).or
    ((S.missingColumn q.names).or
      (if foreignKeys then
        S.missingTable ((q.effect.foreignKeys S).map ForeignKey.target)
      else
        none))

/-- The number of rows as an answer. -/
def count (rows : List (Row κ)) : Answer :=
  [[.int rows.length]]

/-- Runs a prepared statement on what it sees and on the rows. -/
def Effect.run
    (conn : Connection)
    (S : Schema τ κ ι)
    (args : Args)
    (v : Content τ κ)
    (seen : τ → Row κ → Row κ)
    (C : Content τ κ) :
    Effect τ κ → Except (SqlError τ κ ι) (Answer × Content τ κ)
  | .select answer => .ok (answer args v, C)
  | .insert t columns conflict values =>
      match S.table? t with
      | none => .error (.noSuchTable t)
      | some d =>
          (insertRows conn.foreignKeys d columns conflict C
            (values args v)).map (fun C' => ([], C'))
  | .update t sets values cond =>
      match S.table? t with
      | none => .error (.noSuchTable t)
      | some d =>
          (updateTable conn.foreignKeys d sets
            (fun r => values args v (seen t r))
            (fun r => cond args v (seen t r)) C).map
              (fun C' =>
                (count ((C t).filter (fun r => cond args v (seen t r))), C'))
  | .delete t cond =>
      (deleteRows conn S t (fun r => cond args v (seen t r)) C).map
        (fun C' =>
          (count ((C t).filter (fun r => cond args v (seen t r))), C'))

/-- Executes a statement. -/
def exec
    (conn : Connection)
    (S : Schema τ κ ι)
    (q : Stmt τ κ)
    (args : Args)
    (C : Content τ κ) : Except (SqlError τ κ ι) (Answer × Content τ κ) :=
  match prepare conn.foreignKeys S q with
  | some e => .error e
  | none =>
      q.effect.run conn S args (view q.reads C)
        (fun t => restrict (readColumns q.reads t)) C

end Statements

section SchemaErrors

variable {conn : Connection}
variable {S : Schema τ κ ι}
variable {d : TableDef τ κ ι}
variable {C C' : Content τ κ}
variable {e : SqlError τ κ ι}

omit [DecidableEq τ] in
theorem isSchema_rowError
    {written : List κ} {r : Row κ}
    (h : d.rowError written r = some e) :
    e.isSchema = false := by
  unfold TableDef.rowError at h
  split at h
  · cases h
    rfl
  · split at h
    · cases h
      rfl
    · cases h

omit [DecidableEq τ] [DecidableEq κ] in
theorem isSchema_keyError
    {keys : List (Key κ)} {r : Row κ} {others : List (Row κ)}
    (h : d.keyError keys r others = some e) :
    e.isSchema = false := by
  obtain ⟨k, -, rfl⟩ := Option.map_eq_some_iff.mp h
  rfl

omit [DecidableEq τ] in
theorem isSchema_updateRows
    {fk : Bool} {sets : List κ} {values : Row κ → List Value}
    {cond : Row κ → Bool} {done rest : List (Row κ)}
    (h : updateRows fk d sets values cond C done rest = .error e) :
    e.isSchema = false := by
  induction rest generalizing done with
  | nil =>
      cases h
  | cons r rest ih =>
      simp only [updateRows] at h
      split at h
      · split at h
        case h_1 e' hrow =>
          cases h
          exact isSchema_rowError hrow
        case h_2 =>
          split at h
          case h_1 e' hkey =>
            cases h
            exact isSchema_keyError hkey
          case h_2 =>
            split at h
            · cases h
              rfl
            · exact ih h
      · exact ih h

theorem isSchema_updateTable
    {fk : Bool} {sets : List κ} {values : Row κ → List Value}
    {cond : Row κ → Bool}
    (h : updateTable fk d sets values cond C = .error e) :
    e.isSchema = false := by
  unfold updateTable at h
  cases hrows : updateRows fk d sets values cond C [] (C d.name) with
  | error e' =>
      rw [hrows] at h
      cases h
      exact isSchema_updateRows hrows
  | ok rows =>
      rw [hrows] at h
      cases h

omit [DecidableEq τ] [DecidableEq κ] in
theorem eq_of_recover_eq_error
    {conflict : Conflict κ} {e' : SqlError τ κ ι}
    (h : conflict.recover C e' = .error e) :
    e = e' := by
  cases conflict <;> cases h <;> rfl

theorem isSchema_insertRow
    {fk : Bool} {columns : List κ} {conflict : Conflict κ}
    {vals : List Value}
    (h : insertRow fk d columns conflict C vals = .error e) :
    e.isSchema = false := by
  simp only [insertRow] at h
  split at h
  case h_1 e' hins =>
    rw [eq_of_recover_eq_error h]
    unfold TableDef.insertError at hins
    split at hins
    · cases hins
      rfl
    · exact isSchema_rowError hins
  case h_2 =>
    split at h
    · exact isSchema_updateTable h
    · split at h
      case h_1 e' hkey =>
        rw [eq_of_recover_eq_error h]
        exact isSchema_keyError hkey
      case h_2 =>
        split at h
        · cases h
          rfl
        · cases h

theorem isSchema_insertRows
    {fk : Bool} {columns : List κ} {conflict : Conflict κ}
    {rows : List (List Value)}
    (h : insertRows fk d columns conflict C rows = .error e) :
    e.isSchema = false := by
  induction rows generalizing C with
  | nil =>
      cases h
  | cons vals rest ih =>
      simp only [insertRows] at h
      cases hrow : insertRow fk d columns conflict C vals with
      | error e' =>
          rw [hrow] at h
          cases h
          exact isSchema_insertRow hrow
      | ok C' =>
          rw [hrow] at h
          exact ih h

omit [DecidableEq τ] [DecidableEq κ] in
theorem eq_error_of_map_eq_error
    {α β : Type} {x : Except (SqlError τ κ ι) α} {f : α → β}
    (h : x.map f = .error e) :
    x = .error e := by
  cases x with
  | error e' =>
      exact congrArg _ (Except.error.inj h)
  | ok _ =>
      cases h

/-- The tables that a prepared statement names are there. -/
theorem mem_names_of_prepare
    {fk : Bool} {q : Stmt τ κ} {t : τ}
    (hprep : prepare fk S q = none)
    (ht : t ∈ q.names.map Prod.fst) :
    t ∈ S.names := by
  simp only [prepare, Option.or_eq_none_iff, Schema.missingTable,
    Option.map_eq_none_iff, List.find?_eq_none] at hprep
  simpa using hprep.1 t ht

omit [DecidableEq κ] in
theorem table?_isSome_iff
    {t : τ} :
    (S.table? t).isSome = true ↔ t ∈ S.names := by
  simp [Schema.table?, Schema.names]

/-- A statement that was prepared does not miss a table or a column. -/
theorem isSchema_of_exec
    {q : Stmt τ κ} {args : Args}
    (hprep : prepare conn.foreignKeys S q = none)
    (h : exec conn S q args C = .error e) :
    e.isSchema = false := by
  have htable : ∀ t columns, q.effect.written = some (t, columns) →
      S.table? t ≠ none := by
    intro t columns hwritten hnone
    have hmem : t ∈ q.names.map Prod.fst := by
      simp [Stmt.names, hwritten]
    have hsome := table?_isSome_iff.mpr (mem_names_of_prepare hprep hmem)
    rw [hnone] at hsome
    cases hsome
  simp only [exec, hprep] at h
  cases heff : q.effect with
  | select answer =>
      rw [heff] at h
      cases h
  | insert t columns conflict values =>
      rw [heff] at h
      simp only [Effect.run] at h
      split at h
      case h_1 hnone =>
        exact absurd hnone (htable t _ (by rw [heff]; rfl))
      case h_2 d hd =>
        exact isSchema_insertRows (eq_error_of_map_eq_error h)
  | update t sets values cond =>
      rw [heff] at h
      simp only [Effect.run] at h
      split at h
      case h_1 hnone =>
        exact absurd hnone (htable t _ (by rw [heff]; rfl))
      case h_2 d hd =>
        exact isSchema_updateTable (eq_error_of_map_eq_error h)
  | delete t cond =>
      rw [heff] at h
      have hdel := eq_error_of_map_eq_error h
      simp only [deleteRows] at hdel
      split at hdel
      · cases hdel
        rfl
      · cases hdel

end SchemaErrors

section Cascades

variable {conn : Connection}
variable {S : Schema τ κ ι}
variable {C : Content τ κ}
variable {t c : τ}
variable {cond : Row κ → Bool}

omit [DecidableEq κ] in
/-- From a table without cascading foreign keys only the chosen rows go. -/
theorem doomed_of_restricting
    (hc : ∀ fk ∈ S.foreignKeys c, fk.cascade = false)
    (n : Nat) (r : Row κ) :
    doomed S t cond C n c r = (decide (c = t) && cond r) := by
  induction n with
  | zero =>
      rfl
  | succ n ih =>
      have hnone : (S.foreignKeys c).any (fun fk =>
          fk.cascade && decide (r fk.column ≠ .null) &&
            (C fk.target).any (fun q =>
              doomed S t cond C n fk.target q &&
                decide (q fk.targetColumn = r fk.column))) = false := by
        rw [List.any_eq_false]
        intro fk hfk
        simp [hc fk hfk]
      rw [doomed, ih, hnone, Bool.or_false]

/-- Does the row refer to one of the chosen rows of the table? -/
def refers
    (fks : List (ForeignKey τ κ))
    (t : τ)
    (rows : List (Row κ))
    (cond : Row κ → Bool)
    (r : Row κ) : Bool :=
  fks.any (fun fk =>
    fk.cascade && decide (fk.target = t) && decide (r fk.column ≠ .null) &&
      rows.any (fun q =>
        cond q && decide (q fk.targetColumn = r fk.column)))

omit [DecidableEq κ] in
/-- Where nothing is cascaded further, the rows go that refer to the chosen ones. -/
theorem doomed_of_child
    (hne : c ≠ t)
    (hc : ∀ fk ∈ S.foreignKeys c, fk.cascade = true →
      ∀ fk' ∈ S.foreignKeys fk.target, fk'.cascade = false)
    (n : Nat) (r : Row κ) :
    doomed S t cond C (n + 1) c r =
      refers (S.foreignKeys c) t (C t) cond r := by
  have hstep : ∀ m, (S.foreignKeys c).any (fun fk =>
      fk.cascade && decide (r fk.column ≠ .null) &&
        (C fk.target).any (fun q =>
          doomed S t cond C m fk.target q &&
            decide (q fk.targetColumn = r fk.column))) =
      refers (S.foreignKeys c) t (C t) cond r := by
    intro m
    rw [refers, Bool.eq_iff_iff, List.any_eq_true, List.any_eq_true]
    refine exists_congr fun fk => and_congr_right fun hfk => ?_
    cases hcascade : fk.cascade with
    | false =>
        simp
    | true =>
        simp only [doomed_of_restricting (hc fk hfk hcascade)]
        by_cases htarget : fk.target = t
        · simp [htarget]
        · simp [htarget]
  induction n with
  | zero =>
      rw [doomed, hstep, doomed]
      simp [hne]
  | succ n ih =>
      rw [doomed, hstep, ih, Bool.or_self]

/-- The foreign keys that forbid to delete refer to other tables than `t`. -/
def Schema.Unrestricted
    (S : Schema τ κ ι)
    (t : τ) : Prop :=
  ∀ c ∈ S.names, ∀ fk ∈ S.restricting c,
    fk.target ≠ t ∧ ∀ fk' ∈ S.foreignKeys fk.target, fk'.cascade = false

instance
    (S : Schema τ κ ι)
    (t : τ) :
    Decidable (S.Unrestricted t) :=
  inferInstanceAs (Decidable
    (∀ c ∈ S.names, ∀ fk ∈ S.restricting c, fk.target ≠ t ∧ _))

omit [DecidableEq κ] in
/-- Nothing forbids to delete rows of such a table. -/
theorem deleteRows_of_unrestricted
    (hS : S.Unrestricted t) :
    deleteRows conn S t cond C =
      .ok (fun c => (C c).filter (fun r => !gone conn S t cond C c r)) := by
  have hblocked : blocked S C (gone conn S t cond C) = false := by
    rw [blocked, List.any_eq_false]
    intro c hc
    rw [Bool.not_eq_true, List.any_eq_false]
    intro fk hfk
    obtain ⟨hne, hcascade⟩ := hS c hc fk hfk
    have hstays : ∀ q, gone conn S t cond C fk.target q = false := by
      intro q
      rw [gone, doomed_of_restricting hcascade]
      simp [hne]
    simp [clings, hstays]
  simp [deleteRows, hblocked]

end Cascades

end Sql
end Library
end CoopMessenger
