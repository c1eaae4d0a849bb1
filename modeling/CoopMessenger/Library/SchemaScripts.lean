import CoopMessenger.Library.SchemaChanges

/-!
# Scripts on other rows

What a statement does to the schema does not depend on the rows, unless it creates a unique
index.  So a script that runs on a database without rows runs on every database with this
schema, and what becomes of the rows of a table is read off the statements.

**Results.**
* `runDdl_follows`: the schema and the rows of a table after changes of the schema.
* `exec_update_rows`, `exec_insert_rows`: the rows after updates and inserts that no
  constraint is against.
-/

namespace CoopMessenger
namespace Library
namespace Sql

variable {τ κ ι : Type}
variable [DecidableEq τ] [DecidableEq κ] [DecidableEq ι]

section Scripts

theorem runScript_append
    (db : Db τ κ ι)
    (cs cs' : List (Command τ κ ι)) :
    runScript db (cs ++ cs') = (runScript db cs).bind fun db' => runScript db' cs' := by
  induction cs generalizing db with
  | nil =>
      rfl
  | cons c cs ih =>
      rw [List.cons_append, runScript, runScript]
      cases c.run db with
      | error e =>
          rfl
      | ok db' =>
          exact ih db'

/-- Changes of the schema one after another. -/
def runDdl
    (db : Db τ κ ι)
    (cs : List (Ddl τ κ ι)) : Except (SqlError τ κ ι) (Db τ κ ι) :=
  runScript db (cs.map .ddl)

/-- What becomes of a row of the table. -/
def Ddl.rowChange
    (t : τ)
    (r : Row κ) :
    Ddl τ κ ι → Row κ
  | .addColumn t' c => if t' = t then setColumns [c.name] [c.default] r else r
  | .renameColumn t' c c' => if t' = t then setColumns [c, c'] [.null, r c] r else r
  | _ => r

/-- The table stays, and the statement does not depend on rows. -/
def Ddl.keeps
    (t : τ) :
    Ddl τ κ ι → Bool
  | .createTable _ d => decide (d.name ≠ t)
  | .createIndex _ _ i => !i.unique
  | .dropIndexIfExists _ => true
  | .dropTable t' => decide (t' ≠ t)
  | .renameTable t' t'' => decide (t' ≠ t) && decide (t'' ≠ t)
  | .addColumn _ _ => true
  | .renameColumn _ _ _ => true

variable {t : τ}
variable {db db₀ db₀' : Db τ κ ι}

theorem run_dml_of_exec
    {q : Stmt τ κ} (args : List Value) {C : Content τ κ}
    (h : (exec .script db.schema q (fun i => args.getD i .null) db.content).map Prod.snd =
      .ok C) :
    (Command.dml q args).run db = .ok ⟨db.schema, C⟩ := by
  rw [Command.run]
  cases hexec : exec .script db.schema q (fun i => args.getD i .null) db.content with
  | error e =>
      rw [hexec] at h
      cases h
  | ok x =>
      rw [hexec] at h
      cases h
      rfl

theorem runScript_cons
    {c : Command τ κ ι} {cs : List (Command τ κ ι)} {db' : Db τ κ ι}
    (h : c.run db = .ok db') :
    runScript db (c :: cs) = runScript db' cs := by
  rw [runScript, h]
  rfl

theorem runScript_append_of_ok
    {cs cs' : List (Command τ κ ι)} {db' : Db τ κ ι}
    (h : runScript db cs = .ok db') :
    runScript db (cs ++ cs') = runScript db' cs' := by
  rw [runScript_append, h]
  rfl

/-- The statement does to the schema what it does to that of the other database. -/
theorem Ddl.run_follows
    {c : Ddl τ κ ι}
    (hkeeps : c.keeps t = true)
    (hschema : db.schema = db₀.schema)
    (hrun : c.run db₀ = .ok db₀') :
    ∃ db', c.run db = .ok db' ∧ db'.schema = db₀'.schema ∧
      db'.content t = (db.content t).map fun r => c.rowChange t r := by
  have hnone : (db.content t).map (fun r => r) = db.content t := List.map_id' _
  obtain ⟨S, C⟩ := db
  cases hschema
  cases c with
  | createTable ifNotExists d =>
      have hname : t ≠ d.name := (of_decide_eq_true hkeeps).symm
      simp only [Ddl.run] at hrun ⊢
      split at hrun
      · next hmem =>
          split at hrun
          · next hexists =>
              cases hrun
              exact ⟨⟨db₀.schema, C⟩, by rw [if_pos hmem, if_pos hexists], rfl, hnone.symm⟩
          · cases hrun
      · next hmem =>
          cases hrun
          refine ⟨_, if_neg hmem, rfl, ?_⟩
          exact (Function.update_of_ne hname _ _).trans hnone.symm
  | createIndex ifNotExists t' i =>
      have hunique : i.unique = false := by simpa [Ddl.keeps] using hkeeps
      simp only [Ddl.run, hunique, Bool.false_and, Bool.false_eq_true, if_false] at hrun ⊢
      split at hrun
      · next hmem =>
          split at hrun
          · next hexists =>
              cases hrun
              exact ⟨⟨db₀.schema, C⟩, by rw [if_pos hmem, if_pos hexists], rfl, hnone.symm⟩
          · cases hrun
      · next hmem =>
          rw [if_neg hmem]
          split at hrun
          · cases hrun
          · next hmissing =>
              cases hrun
              exact ⟨⟨_, C⟩, by rw [hmissing], rfl, hnone.symm⟩
  | dropIndexIfExists i =>
      cases hrun
      exact ⟨_, rfl, rfl, hnone.symm⟩
  | dropTable t' =>
      have hname : t ≠ t' := (of_decide_eq_true hkeeps).symm
      simp only [Ddl.run] at hrun ⊢
      split at hrun
      · next hmem =>
          cases hrun
          refine ⟨_, if_pos hmem, rfl, ?_⟩
          exact (Function.update_of_ne hname _ _).trans hnone.symm
      · cases hrun
  | renameTable t' t'' =>
      have hnames : t' ≠ t ∧ t'' ≠ t := by simpa [Ddl.keeps] using hkeeps
      simp only [Ddl.run] at hrun ⊢
      split at hrun
      · cases hrun
      · next hmem =>
          rw [if_neg hmem]
          split at hrun
          · cases hrun
          · next hfree =>
              cases hrun
              refine ⟨_, if_neg hfree, rfl, ?_⟩
              dsimp only
              rw [Function.update_of_ne hnames.1.symm, Function.update_of_ne hnames.2.symm]
              exact hnone.symm
  | addColumn t' c =>
      simp only [Ddl.run] at hrun ⊢
      split at hrun
      · cases hrun
      · next hmem =>
          rw [if_neg hmem]
          split at hrun
          · cases hrun
          · next hfree =>
              rw [if_neg hfree]
              split at hrun
              · cases hrun
              · next hdefault =>
                  cases hrun
                  refine ⟨_, if_neg hdefault, rfl, ?_⟩
                  dsimp only
                  by_cases ht : t' = t
                  · subst ht
                    simp [Ddl.rowChange]
                  · rw [Function.update_of_ne (Ne.symm ht)]
                    simp [Ddl.rowChange, ht]
  | renameColumn t' c c' =>
      simp only [Ddl.run] at hrun ⊢
      split at hrun
      · cases hrun
      · next hmem =>
          rw [if_neg hmem]
          split at hrun
          · cases hrun
          · next hold =>
              rw [if_neg hold]
              split at hrun
              · cases hrun
              · next hfree =>
                  cases hrun
                  refine ⟨_, if_neg hfree, rfl, ?_⟩
                  dsimp only
                  by_cases ht : t' = t
                  · subst ht
                    simp [Ddl.rowChange]
                  · rw [Function.update_of_ne (Ne.symm ht)]
                    simp [Ddl.rowChange, ht]

/-- What becomes of a row of the table under changes one after another. -/
def rowChanges
    (t : τ)
    (cs : List (Ddl τ κ ι))
    (r : Row κ) : Row κ :=
  cs.foldl (fun r c => c.rowChange t r) r

/-- The schema and the rows of a table after changes of the schema. -/
theorem runDdl_follows
    {cs : List (Ddl τ κ ι)}
    (hkeeps : ∀ c ∈ cs, c.keeps t = true)
    (hschema : db.schema = db₀.schema)
    (hrun : runDdl db₀ cs = .ok db₀') :
    ∃ db', runDdl db cs = .ok db' ∧ db'.schema = db₀'.schema ∧
      db'.content t = (db.content t).map (rowChanges t cs) := by
  induction cs generalizing db db₀ with
  | nil =>
      cases hrun
      exact ⟨db, rfl, hschema, (List.map_id' _).symm⟩
  | cons c cs ih =>
      rw [runDdl, List.map_cons, runScript] at hrun
      cases hfirst : c.run db₀ with
      | error e =>
          rw [Command.run, hfirst] at hrun
          cases hrun
      | ok db₁ =>
          rw [Command.run, hfirst] at hrun
          obtain ⟨db', hrun', hschema', hrows⟩ :=
            Ddl.run_follows (hkeeps c List.mem_cons_self) hschema hfirst
          obtain ⟨db'', hrest, hschema'', hrows'⟩ :=
            ih (fun c' hc' => hkeeps c' (List.mem_cons_of_mem c hc')) hschema' hrun
          refine ⟨db'', ?_, hschema'', ?_⟩
          · rw [runDdl, List.map_cons, runScript, Command.run, hrun']
            exact hrest
          · rw [hrows', hrows, List.map_map]
            rfl

/-- Changes that lead from one schema to another do so whatever the rows are. -/
theorem runDdl_of_schema
    {cs : List (Ddl τ κ ι)} {S : Schema τ κ ι}
    (hkeeps : ∀ c ∈ cs, c.keeps t = true)
    (hempty : (runDdl ⟨db.schema, fun _ => []⟩ cs).toOption.map Db.schema = some S) :
    ∃ db', runDdl db cs = .ok db' ∧ db'.schema = S ∧
      db'.content t = (db.content t).map (rowChanges t cs) := by
  cases hrun : runDdl ⟨db.schema, fun _ => []⟩ cs with
  | error e =>
      rw [hrun] at hempty
      cases hempty
  | ok db₀' =>
      rw [hrun] at hempty
      have hsame : db.schema = (⟨db.schema, fun _ => []⟩ : Db τ κ ι).schema :=
        rfl
      obtain ⟨db', hrun', hschema, hrows⟩ := runDdl_follows hkeeps hsame hrun
      exact ⟨db', hrun', hschema.trans (Option.some.inj hempty), hrows⟩

end Scripts

section Statements

variable {S : Schema τ κ ι}
variable {C : Content τ κ}
variable {d : TableDef τ κ ι}
variable {q : Stmt τ κ}
variable {args : Args}
variable {t : τ}

omit [DecidableEq τ] [DecidableEq ι] in
/-- An update that no constraint is against. -/
theorem updateRows_free
    {sets : List κ}
    {values : Row κ → List Value}
    {cond : Row κ → Bool}
    {rest : List (Row κ)}
    (hkeys : d.keysOn sets = [])
    (hchecks : d.checks = [])
    (hvalues : ∀ r ∈ rest, cond r = true → ∀ c ∈ sets,
      setColumns sets (values r) r c ≠ .null)
    (done : List (Row κ)) :
    updateRows false d sets values cond C done rest =
      .ok (done ++ rest.map fun r => if cond r then setColumns sets (values r) r else r) := by
  induction rest generalizing done with
  | nil =>
      rw [updateRows, List.map_nil, List.append_nil]
  | cons r rest ih =>
      have hrest := ih fun q hq => hvalues q (List.mem_cons_of_mem r hq)
      rw [updateRows, List.map_cons]
      split
      · next hcond =>
          have hnull : (sets.any fun c => d.required c &&
              decide (setColumns sets (values r) r c = .null)) = false := by
            rw [List.any_eq_false]
            intro c hc
            simp [hvalues r List.mem_cons_self hcond c hc]
          have hrow : d.rowError sets (setColumns sets (values r) r) = none := by
            rw [TableDef.rowError, hnull, hchecks]
            rfl
          dsimp only
          rw [hrow, TableDef.keyError, hkeys]
          simp only [List.find?_nil, Option.map_none, Bool.false_and, Bool.false_eq_true,
            if_false]
          rw [hrest, List.append_assoc, List.singleton_append]
      · rw [hrest, List.append_assoc, List.singleton_append]

omit [DecidableEq ι] in
/-- The rows after an update that no constraint is against. -/
theorem exec_update_rows
    {sets : List κ}
    {values : Args → Content τ κ → Row κ → List Value}
    {cond : Args → Content τ κ → Row κ → Bool}
    (hprep : prepare false S q = none)
    (heff : q.effect = .update t sets values cond)
    (htable : S.table? t = some d)
    (hkeys : d.keysOn sets = [])
    (hchecks : d.checks = [])
    (hvalues : ∀ r ∈ C t, ∀ c ∈ sets,
      setColumns sets (values args (view q.reads C) (restrict (readColumns q.reads t) r)) r c
        ≠ .null) :
    (exec .script S q args C).map Prod.snd = .ok (Function.update C t ((C t).map fun r =>
      if cond args (view q.reads C) (restrict (readColumns q.reads t) r) then
        setColumns sets
          (values args (view q.reads C) (restrict (readColumns q.reads t) r)) r
      else r)) := by
  have hname : d.name = t := name_of_table?_eq_some htable
  have hrows := @updateRows_free _ _ _ _ C d sets
    (fun r => values args (view q.reads C) (restrict (readColumns q.reads t) r))
    (fun r => cond args (view q.reads C) (restrict (readColumns q.reads t) r)) (C t) hkeys hchecks
    (fun r hr _ => hvalues r hr) []
  rw [exec, Connection.script, hprep, heff]
  dsimp only
  rw [Effect.run, htable]
  dsimp only
  rw [updateTable, hname, hrows, List.nil_append]
  rfl

omit [DecidableEq ι] in
/-- Inserts that no constraint is against. -/
theorem insertRows_free
    {columns : List κ}
    {rows : List (List Value)}
    (hfilled : d.unfilled columns = false)
    (hchecks : d.checks = [])
    (hvalues : ∀ vals ∈ rows, ∀ c ∈ columns, setColumns columns vals d.defaults c ≠ .null)
    (hkeys : ∀ k ∈ d.keys, (C d.name ++
      rows.map fun vals => setColumns columns vals d.defaults).Pairwise
        fun r r' => k.same r' r = false) :
    insertRows false d columns .abort C rows =
      .ok (Function.update C d.name (C d.name ++
        rows.map fun vals => setColumns columns vals d.defaults)) := by
  induction rows generalizing C with
  | nil =>
      rw [insertRows, List.map_nil, List.append_nil, Function.update_eq_self]
  | cons vals rows ih =>
      have hnull : (columns.any fun c => d.required c &&
          decide (setColumns columns vals d.defaults c = .null)) = false := by
        rw [List.any_eq_false]
        intro c hc
        simp [hvalues vals List.mem_cons_self c hc]
      have hrow : d.insertError columns (setColumns columns vals d.defaults) = none := by
        rw [TableDef.insertError, hfilled, TableDef.rowError, hnull, hchecks]
        rfl
      have hnew : ∀ k ∈ d.keys, (C d.name).any
          (k.same (setColumns columns vals d.defaults)) = false := by
        intro k hk
        rw [List.any_eq_false]
        intro r hr
        have hpair := (List.pairwise_append.mp (hkeys k hk)).2.2 r hr
          (setColumns columns vals d.defaults) List.mem_cons_self
        simp [hpair]
      have hkey : d.keyError d.keys (setColumns columns vals d.defaults) (C d.name) = none := by
        rw [TableDef.keyError, Option.map_eq_none_iff, List.find?_eq_none]
        intro k hk
        simp [hnew k hk]
      have hinsert : insertRow false d columns .abort C vals =
          .ok (Function.update C d.name (C d.name ++ [setColumns columns vals d.defaults])) := by
        simp only [insertRow, hrow, hkey, Conflict.hits, Bool.false_eq_true, if_false,
          Bool.false_and]
      have hself : Function.update C d.name (C d.name ++ [setColumns columns vals d.defaults])
          d.name = C d.name ++ [setColumns columns vals d.defaults] :=
        Function.update_self ..
      rw [insertRows, hinsert]
      change insertRows false d columns .abort _ rows = _
      rw [ih]
      · rw [hself, Function.update_idem, List.append_assoc, List.singleton_append,
          List.map_cons]
      · exact fun v hv => hvalues v (List.mem_cons_of_mem vals hv)
      · intro k hk
        rw [hself, List.append_assoc, List.singleton_append]
        exact hkeys k hk

omit [DecidableEq ι] in
/-- The rows after inserts that no constraint is against. -/
theorem exec_insert_rows
    {columns : List κ}
    {values : Args → Content τ κ → List (List Value)}
    (hprep : prepare false S q = none)
    (heff : q.effect = .insert t columns .abort values)
    (htable : S.table? t = some d)
    (hfilled : d.unfilled columns = false)
    (hchecks : d.checks = [])
    (hvalues : ∀ vals ∈ values args (view q.reads C), ∀ c ∈ columns,
      setColumns columns vals d.defaults c ≠ .null)
    (hkeys : ∀ k ∈ d.keys, (C t ++ (values args (view q.reads C)).map fun vals =>
      setColumns columns vals d.defaults).Pairwise fun r r' => k.same r' r = false) :
    (exec .script S q args C).map Prod.snd = .ok (Function.update C t (C t ++
      (values args (view q.reads C)).map fun vals => setColumns columns vals d.defaults)) := by
  have hname : d.name = t := name_of_table?_eq_some htable
  subst hname
  have hrows := insertRows_free hfilled hchecks hvalues hkeys
  rw [exec, Connection.script, hprep, heff]
  dsimp only
  rw [Effect.run, htable]
  dsimp only
  rw [hrows]
  rfl

omit [DecidableEq ι] in
/-- What a prepared query answers. -/
theorem exec_select
    {answer : Args → Content τ κ → Answer}
    (hprep : prepare false S q = none)
    (heff : q.effect = .select answer) :
    exec .script S q args C = .ok (answer args (view q.reads C), C) := by
  rw [exec, Connection.script, hprep, heff]
  rfl

omit [DecidableEq ι] in
/-- The rows that a deletion leaves, where foreign keys are not enforced. -/
theorem exec_delete_rows
    {cond : Args → Content τ κ → Row κ → Bool}
    (hprep : prepare false S q = none)
    (heff : q.effect = .delete t cond) :
    ∃ C', (exec .script S q args C).map Prod.snd = .ok C' ∧
      C' t = (C t).filter fun r =>
        !cond args (view q.reads C) (restrict (readColumns q.reads t) r) := by
  rw [exec, Connection.script, hprep, heff]
  refine ⟨_, rfl, ?_⟩
  simp [gone, doomed]

end Statements

end Sql
end Library
end CoopMessenger
