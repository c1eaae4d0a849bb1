import CoopMessenger.Library.Runs
import CoopMessenger.Manager.UserRemoval

/-!
# New and migrated user databases

The same operations on a database that `setupNewDB` created and on one that was
migrated from an older version.  Both are stamped with the same version, but the
creation script lacks `user_contact`, `topic_meta` and the column `privacy`, and
the migration to version 6 leaves `user_phone` with a foreign key to a table that
it drops.

**Results.**
* `same_effect_iff`: a single operation has the same result and the same effect
  if and only if it avoids these differences.
* `migrated_equivalent_iff`: so does every run.
-/

namespace CoopMessenger
namespace Manager
namespace UserDB

open Library Library.Sql

section Model

variable (conf : Config)

/-- The rows of a new database and of a migrated one. -/
structure Pair where
  fresh : Records
  migrated : Records

/-- The operation is performed on both databases. -/
def stepBoth
    (o : Origin)
    (s : Pair)
    (l : Label) : Option Pair :=
  some
    ⟨(l.2.apply conf l.1 freshDB.schema s.fresh).2,
      (l.2.apply conf l.1 (migratedDB o).schema s.migrated).2⟩

/--
The same rows, as far as the creation script has tables and columns for them;
tables that it has not are empty.
-/
def SameRows (C C' : Records) : Prop :=
  Related freshDB.schema createdColumns C C'

/-- The operation has the same result on both, and leaves the same rows. -/
def SameEffect
    (o : Origin)
    (s : Pair)
    (l : Label) : Prop :=
  (l.2.apply conf l.1 freshDB.schema s.fresh).1 =
      (l.2.apply conf l.1 (migratedDB o).schema s.migrated).1 ∧
    SameRows (l.2.apply conf l.1 freshDB.schema s.fresh).2
      (l.2.apply conf l.1 (migratedDB o).schema s.migrated).2

/--
The operation uses nothing that only migrations create.  On a database from before
version 6, with enforced foreign keys, it adds and removes no phone number, and no
user that has one.
-/
def Unaffected
    (o : Origin)
    (s : Pair)
    (l : Label) : Prop :=
  l.2.needsMigration = false ∧
    (o = .first → l.1 = true →
      l.2.writesPhones = false ∧
        ∀ u ∈ s.fresh .user, l.2.removes conf s.fresh u = true →
          hasPhone s.fresh u = false)

instance
    (o : Origin)
    (s : Pair)
    (l : Label) :
    Decidable (Unaffected conf o s l) :=
  inferInstanceAs (Decidable (_ ∧ (_ → _ → _ ∧ _)))

end Model

section SchemaErrors

variable {α β : Type}
variable {enforced : Bool}
variable {S : Schema TableName ColumnName IndexName}

/-- The program never reports that a table or a column is missing. -/
def NoSchemaError
    (enforced : Bool)
    (S : Schema TableName ColumnName IndexName)
    (p : Op α) : Prop :=
  ∀ s e, (Prog.run (pooled enforced) S p.run s).1 = .error (.sql e) →
    e.isSchema = false

/-- The program always reports that a table or a column is missing. -/
def SchemaError
    (enforced : Bool)
    (S : Schema TableName ColumnName IndexName)
    (p : Op α) : Prop :=
  ∀ s, ∃ e, e.isSchema = true ∧
    (Prog.run (pooled enforced) S p.run s).1 = .error (.sql e)

theorem NoSchemaError.bind
    {p : Op α} {f : α → Op β}
    (hp : NoSchemaError enforced S p)
    (hf : ∀ a, NoSchemaError enforced S (f a)) :
    NoSchemaError enforced S (p >>= f) := by
  intro s e h
  rw [run_op_bind] at h
  split at h
  case h_1 e' s' hrun =>
    have herr : e' = .sql e := Except.error.inj h
    exact hp s e (by rw [hrun, herr])
  case h_2 a s' hrun =>
    exact hf a s' e h

theorem noSchemaError_result
    {x : Except OpError α}
    (h : ∀ e, x ≠ .error (.sql e)) :
    NoSchemaError enforced S (result x) := by
  intro s e hrun
  exact absurd hrun (h e)

theorem noSchemaError_queryOr
    {onError : Failure → OpError} {q : Query} {args : List Value}
    (hprep : prepare enforced S q = none)
    (hon : ∀ e e', onError e = .sql e' → e' = e) :
    NoSchemaError enforced S (queryOr onError q args) := by
  intro s e h
  rw [run_queryOr] at h
  split at h
  case h_1 e' hexec =>
    have herr : onError e' = .sql e := Except.error.inj h
    rw [hon e' e herr]
    exact isSchema_of_exec hprep hexec
  case h_2 =>
    cases h

theorem noSchemaError_query
    {q : Query} {args : List Value}
    (hprep : prepare enforced S q = none) :
    NoSchemaError enforced S (query q args) := by
  refine noSchemaError_queryOr hprep ?_
  intro e e' h
  cases h
  rfl

theorem SchemaError.bind
    {p : Op α} {f : α → Op β}
    (hp : SchemaError enforced S p) :
    SchemaError enforced S (p >>= f) := by
  intro s
  obtain ⟨e, he, hrun⟩ := hp s
  refine ⟨e, he, ?_⟩
  rw [run_op_bind]
  generalize Prog.run (pooled enforced) S p.run s = r at hrun ⊢
  obtain ⟨x, s'⟩ := r
  cases hrun
  rfl

theorem schemaError_queryOr
    {onError : Failure → OpError} {q : Query} {args : List Value}
    (hprep : (prepare enforced S q).any SqlError.isSchema = true)
    (hon : ∀ e, e.isSchema = true → onError e = .sql e) :
    SchemaError enforced S (queryOr onError q args) := by
  intro s
  cases hsome : prepare enforced S q with
  | none =>
      rw [hsome] at hprep
      cases hprep
  | some e =>
      rw [hsome] at hprep
      refine ⟨e, hprep, ?_⟩
      have hexec : exec (pooled enforced) S q (fun i => args.getD i .null)
          s.content = .error e := by
        simp only [exec, pooled, hsome]
      rw [run_queryOr, hexec]
      exact congrArg Except.error (hon e hprep)

end SchemaErrors

section MissingTables

variable {α β : Type}
variable {enforced : Bool}
variable {o : Origin}

/-- The statements on what only migrations create. -/
def migrationQueries : List Query :=
  [selectProfileByUsernameQuery, selectProfileByUserIDQuery,
    updateProfilePrivacyQuery, selectProfilePrivacyQuery, insertContactQuery,
    selectContactsQuery, selectContactRequestsQuery, selectContactStatusQuery,
    updateContactStatusQuery, deleteContactQuery, selectIsBlockedQuery,
    selectTopicMetaQuery, upsertTopicMetaQuery, upsertDMTopicMetaQuery,
    findDMTopicQuery, selectDMTopicsQuery]

theorem prepare_migrationQueries
    (o : Origin) (enforced : Bool) :
    ∀ q ∈ migrationQueries,
      (prepare enforced freshDB.schema q).any SqlError.isSchema = true ∧
        prepare enforced (migratedDB o).schema q = none := by
  have hall : ∀ o ∈ [Origin.first, .sixth], ∀ enforced, ∀ q ∈ migrationQueries,
      (prepare enforced freshDB.schema q).any SqlError.isSchema = true ∧
        prepare enforced (migratedDB o).schema q = none := by
    decide
  exact hall o (by cases o <;> decide) enforced

/-- The program fails on a new database for want of a table or a column. -/
structure Misses
    (enforced : Bool)
    (o : Origin)
    (p : Op α) : Prop where
  fresh : SchemaError enforced freshDB.schema p
  migrated : NoSchemaError enforced (migratedDB o).schema p

theorem misses_query
    {q : Query} {args : List Value}
    (hq : q ∈ migrationQueries) :
    Misses enforced o (query q args) := by
  obtain ⟨hfresh, hmigrated⟩ := prepare_migrationQueries o enforced q hq
  exact ⟨schemaError_queryOr hfresh fun _ _ => rfl,
    noSchemaError_query hmigrated⟩

theorem Misses.bind
    {p : Op α} {f : α → Op β}
    (hp : Misses enforced o p)
    (hf : ∀ a, NoSchemaError enforced (migratedDB o).schema (f a)) :
    Misses enforced o (p >>= f) := by
  exact ⟨hp.fresh.bind, hp.migrated.bind hf⟩

theorem noSchemaError_pure
    {S : Schema TableName ColumnName IndexName} (a : α) :
    NoSchemaError enforced S (pure a : Op α) := by
  exact noSchemaError_result (x := .ok a) (by simp)

theorem noSchemaError_fail
    {S : Schema TableName ColumnName IndexName} (e : Manager.Error) :
    NoSchemaError enforced S (fail e : Op α) := by
  exact noSchemaError_result (by simp)

theorem misses_map
    {q : Query} {args : List Value} {f : Answer → α}
    (hq : q ∈ migrationQueries) :
    Misses enforced o (query q args >>= fun rows => pure (f rows)) := by
  exact (misses_query hq).bind fun _ => noSchemaError_pure _

theorem noSchemaError_firstValue
    {S : Schema TableName ColumnName IndexName} (rows : Answer) :
    NoSchemaError enforced S (result (firstValue rows)) := by
  cases rows <;> exact noSchemaError_result (by simp [firstValue])

theorem noSchemaError_oneProfile
    {S : Schema TableName ColumnName IndexName} (rows : Answer) :
    NoSchemaError enforced S (oneProfile rows) := by
  cases rows with
  | nil =>
      exact noSchemaError_fail _
  | cons row rest =>
      exact noSchemaError_pure _

/-- The error of the first program is ignored. -/
theorem run_handle_ok
    (conn : Connection) (S : Schema TableName ColumnName IndexName)
    (p : Op α) (s : Session TableName ColumnName) :
    (Prog.run conn S (handle p (fun _ => .ok ())).run s).1 = .ok () := by
  change (Prog.run conn S (Prog.bind p.run _) s).1 = _
  rw [run_bind]
  rfl

theorem misses_blockContact
    (fromUsername toUsername : String) (now : Int) :
    Misses enforced o (blockContact fromUsername toUsername now) := by
  have hadd : Misses enforced o
      (addContact fromUsername toUsername "blocked" now) :=
    misses_map (by simp [migrationQueries])
  constructor
  · intro s
    unfold blockContact
    rw [run_op_bind]
    have hok := run_handle_ok (pooled enforced) freshDB.schema
      (deleteContact fromUsername toUsername) s
    generalize Prog.run (pooled enforced) freshDB.schema
      (handle (deleteContact fromUsername toUsername) _).run s = r at hok ⊢
    obtain ⟨x, s'⟩ := r
    cases hok
    exact hadd.fresh s'
  · refine NoSchemaError.bind ?_ fun _ => hadd.migrated
    intro s e h
    rw [run_handle_ok] at h
    cases h

theorem misses_of_needsMigration
    (conf : Config)
    {op : Operation}
    (h : op.needsMigration = true) :
    Misses enforced o (op.prog conf) := by
  cases op with
  | profile | profileByUserID =>
      exact (misses_query (by simp [migrationQueries])).bind
        noSchemaError_oneProfile
  | updateProfilePrivacy username privacy =>
      change Misses enforced o (UserDB.updateProfilePrivacy username privacy)
      have hvalid : validPrivacy privacy = true := h
      unfold updateProfilePrivacy
      rw [hvalid]
      exact misses_map (by simp [migrationQueries])
  | contacts | contactRequests =>
      exact misses_query (by simp [migrationQueries])
  | profilePrivacy | addContact | contactStatus | deleteContact | topicMeta |
      setTopicMeta | setDMTopicMeta | findDMTopic | dmTopics =>
      exact misses_map (by simp [migrationQueries])
  | updateContactStatus =>
      refine (misses_query (by simp [migrationQueries])).bind fun rows =>
        (noSchemaError_firstValue rows).bind fun n => ?_
      split
      · exact noSchemaError_pure _
      · exact noSchemaError_fail _
  | blockContact fromUsername toUsername now =>
      exact misses_blockContact fromUsername toUsername now
  | isBlocked =>
      exact (misses_query (by simp [migrationQueries])).bind fun rows =>
        (noSchemaError_firstValue rows).bind fun n => noSchemaError_pure _
  | _ =>
      cases h

end MissingTables

section Agreement

variable (conf : Config)
variable {o : Origin}
variable {s : Pair}
variable {enforced : Bool}
variable {op : Operation}

/-- An operation whose statements fit both schemas has the same effect. -/
theorem sameEffect_of_uses
    (hs : SameRows s.fresh s.migrated)
    (h : UsesOnly (Fits createdColumns enforced freshDB.schema
      (migratedDB o).schema) (op.prog conf)) :
    SameEffect conf o s (enforced, op) := by
  have hsessions : RelatedSessions freshDB.schema createdColumns
      ⟨s.fresh, none⟩ ⟨s.migrated, none⟩ := ⟨hs, .none⟩
  have h' : Prog.Uses (Fits createdColumns (pooled enforced).foreignKeys
      freshDB.schema (migratedDB o).schema) (op.prog conf).run := h
  have hrun := run_agree h' hsessions
  exact ⟨hrun.1, hrun.2.content⟩

/-- An operation that misses a table on one of the two differs. -/
theorem apply_ne
    {S S' : Schema TableName ColumnName IndexName} {C C' : Records}
    (h : SchemaError enforced S (op.prog conf))
    (h' : NoSchemaError enforced S' (op.prog conf)) :
    (op.apply conf enforced S C).1 ≠ (op.apply conf enforced S' C').1 := by
  intro heq
  obtain ⟨e, he, hrun⟩ := h ⟨C, none⟩
  have hother : (Prog.run (pooled enforced) S' (op.prog conf).run
      ⟨C', none⟩).1 = .error (.sql e) := heq.symm.trans hrun
  rw [h' _ e hother] at he
  cases he

/-- The statements that write phone numbers. -/
def phoneQueries : List Query :=
  [insertPhoneNumberQuery, deletePhoneNumberQuery]

theorem fits_phoneQueries
    (h : o = .first → enforced = true → False) :
    ∀ q ∈ phoneQueries,
      Fits createdColumns enforced freshDB.schema (migratedDB o).schema q := by
  cases o with
  | sixth =>
      cases enforced <;> decide
  | first =>
      cases enforced with
      | false =>
          decide
      | true =>
          exact (h rfl rfl).elim

theorem prepare_phoneQueries :
    ∀ q ∈ phoneQueries,
      prepare true freshDB.schema q = none ∧
        (prepare true (migratedDB .first).schema q).any SqlError.isSchema =
          true := by
  decide

theorem sameEffect_writesPhones
    (hs : SameRows s.fresh s.migrated)
    (hop : op.writesPhones = true) :
    SameEffect conf o s (enforced, op) ↔
      (o = .first → enforced = true → False) := by
  constructor
  · rintro ⟨hresult, -⟩ rfl rfl
    have hinsert := prepare_phoneQueries insertPhoneNumberQuery
      (by simp [phoneQueries])
    have hdelete := prepare_phoneQueries deletePhoneNumberQuery
      (by simp [phoneQueries])
    refine apply_ne conf ?_ ?_ hresult.symm
    · cases op with
      | addPhoneNumber userID phoneNumber =>
          refine SchemaError.bind (schemaError_queryOr hinsert.2 ?_)
          intro e he
          cases e <;> first | rfl | cases he
      | removePhoneNumber userID phoneNumber =>
          exact SchemaError.bind (schemaError_queryOr hdelete.2 fun _ _ => rfl)
      | _ =>
          cases hop
    · cases op with
      | addPhoneNumber userID phoneNumber =>
          refine NoSchemaError.bind (noSchemaError_queryOr hinsert.1 ?_)
            fun _ => noSchemaError_pure _
          intro e e' h
          cases e with
          | unique t columns primary =>
              cases primary <;> cases h
              rfl
          | _ =>
              cases h
              rfl
      | removePhoneNumber userID phoneNumber =>
          exact NoSchemaError.bind (noSchemaError_query hdelete.1)
            fun _ => noSchemaError_pure _
      | _ =>
          cases hop
  · intro h
    refine sameEffect_of_uses conf hs ?_
    cases op with
    | addPhoneNumber userID phoneNumber =>
        exact UsesOnly.bind (usesOnly_queryOr.mpr
          (fits_phoneQueries h _ (by simp [phoneQueries])))
          fun _ => usesOnly_pure _
    | removePhoneNumber userID phoneNumber =>
        exact UsesOnly.exec' (fits_phoneQueries h _ (by simp [phoneQueries]))
    | _ =>
        cases hop

end Agreement

section Deletions

variable {o : Origin}
variable {enforced : Bool}
variable {C C' : Records}
variable {cond cond' : Record → Bool}

/-- The tables from which both schemas cascade alike. -/
def comparable
    (o : Origin)
    (c : TableName) : Prop :=
  c ≠ .userContact ∧ (o = .first → c ≠ .userPhone)

theorem cascadeAlike_comparable
    (o : Origin) :
    CascadeAlike createdColumns freshDB.schema (migratedDB o).schema
      (comparable o) := by
  have hsame : ∀ c, c ≠ .userContact → (o = .first → c ≠ .userPhone) →
      (migratedDB o).schema.foreignKeys c = freshDB.schema.foreignKeys c ∧
        ForeignWithin createdColumns c (freshDB.schema.foreignKeys c) ∧
          ∀ fk ∈ freshDB.schema.foreignKeys c,
            fk.target ≠ .userContact ∧ fk.target ≠ .userPhone := by
    intro c
    have hcreated : freshDB.schema.foreignKeys c = Setup.created.foreignKeys c :=
      foreignKeys_eq .created c
    have hmigrated : (migratedDB o).schema.foreignKeys c =
        (Setup.migrated o).foreignKeys c :=
      foreignKeys_eq (.migrated o) c
    rw [hcreated, hmigrated]
    cases o <;> cases c <;> decide
  constructor
  · exact fun c hc => (hsame c hc.1 hc.2).1
  · exact fun c hc => (hsame c hc.1 hc.2).2.1
  · intro c hc fk hfk
    obtain ⟨hcontact, hphone⟩ := (hsame c hc.1 hc.2).2.2 fk hfk
    exact ⟨hcontact, fun _ => hphone⟩

/-- Phone numbers go with their users. -/
theorem gone_userPhone
    (C : Records) (cond : Record → Bool) (r : Record) :
    gone (pooled true) freshDB.schema .user cond C .userPhone r =
      (decide (r .userId ≠ .null) && (C .user).any (fun u =>
        cond u && decide (u .id = r .userId))) := by
  have hkeys : freshDB.schema.foreignKeys .userPhone = [ofUser .userId] :=
    foreignKeys_eq .created .userPhone
  have hgone : gone (pooled true) freshDB.schema .user cond C .userPhone r =
      (true && refers (freshDB.schema.foreignKeys .userPhone) .user (C .user)
        cond r) :=
    gone_child .created true (by decide)
  rw [hgone, hkeys]
  simp [refers, ofUser]

/-- In a database from before version 6 phone numbers stay. -/
theorem gone_userPhone_first
    (enforced : Bool) (r : Record) :
    gone (pooled enforced) (migratedDB .first).schema .user cond C .userPhone
      r = false := by
  have hkeys : (migratedDB .first).schema.foreignKeys .userPhone =
      [⟨.userId, .userOld, .id, true⟩] :=
    foreignKeys_eq (.migrated .first) .userPhone
  have hgone : gone (pooled enforced) (migratedDB .first).schema .user cond C
      .userPhone r = (enforced && refers
        ((migratedDB .first).schema.foreignKeys .userPhone) .user (C .user)
          cond r) :=
    gone_child (.migrated .first) enforced (by decide)
  rw [hgone, hkeys]
  simp [refers]

/-- The rows of the same users go. -/
theorem sameRows_delete_iff
    (hC : SameRows C C')
    (hcond : ∀ r r', RowsAgree (createdColumns .user) r r' →
      cond r = cond' r') :
    SameRows (withoutUsers enforced freshDB.schema cond C)
        (withoutUsers enforced (migratedDB o).schema cond' C')
      ↔
    (o = .first → enforced = true →
      ∀ u ∈ C .user, cond u = true → hasPhone C u = false) := by
  constructor
  · rintro hsame rfl rfl u hu hchosen
    have hstays : ∀ r, gone (pooled true) (migratedDB .first).schema .user
        cond' C' .userPhone r = false :=
      gone_userPhone_first true
    have hlength := (hsame.agree .userPhone).length_eq
    have hall : ((C .userPhone).filter (fun r => !gone (pooled true)
        freshDB.schema .user cond C .userPhone r)).length =
          (C .userPhone).length := by
      change (withoutUsers true freshDB.schema cond C .userPhone).length = _
      rw [hlength, (hC.agree .userPhone).length_eq]
      simp [withoutUsers, hstays]
    rw [List.length_filter_eq_length_iff] at hall
    rw [hasPhone, List.any_eq_false]
    intro r hr heq
    have hgone := hall r hr
    rw [gone_userPhone] at hgone
    have href : r .userId ≠ .null ∧ r .userId = u .id := by
      simpa [eq] using heq
    have hany : (C .user).any (fun q =>
        cond q && decide (q .id = r .userId)) = true :=
      List.any_eq_true.mpr ⟨u, hu, by simp [hchosen, href.2]⟩
    simp [href.1, hany] at hgone
  · intro h
    refine hC.filter ?_
    intro c r hr r' hr' hagree
    by_cases hcontact : c = .userContact
    · subst hcontact
      rw [hC.absent _ (by decide)] at hr
      cases hr
    by_cases hphone : o = .first ∧ enforced = true ∧ c = .userPhone
    · obtain ⟨rfl, rfl, rfl⟩ := hphone
      rw [gone_userPhone_first, gone_userPhone]
      have hnone : (C .user).any (fun u =>
          cond u && decide (u .id = r .userId)) = true → r .userId = .null := by
        intro hany
        obtain ⟨u, hu, hchosen⟩ := List.any_eq_true.mp hany
        rw [Bool.and_eq_true, decide_eq_true_eq] at hchosen
        have hno := h rfl rfl u hu hchosen.1
        rw [hasPhone, List.any_eq_false] at hno
        have hne := hno r hr
        simpa [eq, hchosen.2] using hne
      by_cases hany : (C .user).any (fun u =>
          cond u && decide (u .id = r .userId)) = true
      · simp [hnone hany]
      · simp [hany]
    · cases enforced with
      | false =>
          by_cases huser : c = .user
          · subst huser
            simp [gone, pooled, doomed, hcond r r' hagree]
          · simp [gone, pooled, doomed, huser]
      | true =>
          refine doomed_eq (cascadeAlike_comparable o) hC.agree hcond ?_ hagree
          exact ⟨hcontact, fun ho hc => hphone ⟨ho, rfl, hc⟩⟩

end Deletions

section Main

variable (conf : Config)
variable {o : Origin}
variable {s : Pair}
variable {enforced : Bool}

/-- Both databases let the same users be changed. -/
theorem canChange_eq
    (hs : SameRows s.fresh s.migrated)
    (username : String) :
    canChange conf username s.fresh = canChange conf username s.migrated := by
  have hsessions : RelatedSessions freshDB.schema createdColumns
      ⟨s.fresh, none⟩ ⟨s.migrated, none⟩ := ⟨hs, .none⟩
  have huses : Prog.Uses (Fits createdColumns (pooled true).foreignKeys
      freshDB.schema (migratedDB .sixth).schema)
      (canChangeUser conf username).run :=
    Prog.Uses.mono (fits_common .sixth true)
      (common_canChangeUser conf username)
  have hrun := (run_agree huses hsessions).1
  have hfresh : Removable true freshDB.schema := removable .created true
  have hmigrated : Removable true (migratedDB .sixth).schema :=
    removable (.migrated .sixth) true
  rw [run_canChangeUser conf hfresh.select,
    run_canChangeUser conf hmigrated.select] at hrun
  exact hrun

theorem sameEffect_deletesUsers
    {op : Operation}
    (hs : SameRows s.fresh s.migrated)
    (hop : op.deletesUsers = true) :
    SameEffect conf o s (enforced, op) ↔
      (o = .first → enforced = true →
        ∀ u ∈ s.fresh .user, op.removes conf s.fresh u = true →
          hasPhone s.fresh u = false) := by
  have hfresh : Removable enforced freshDB.schema :=
    removable .created enforced
  have hmigrated : Removable enforced (migratedDB o).schema :=
    removable (.migrated o) enforced
  have hcolumns : ∀ c ∈ [ColumnName.user, .deleted],
      c ∈ createdColumns .user := by decide
  cases op with
  | removeUser username =>
      unfold SameEffect
      dsimp only
      rw [apply_removeUser conf hfresh, apply_removeUser conf hmigrated,
        ← canChange_eq conf hs]
      have hcond : ∀ r r', RowsAgree (createdColumns .user) r r' →
          eq (r .user) (.text username) = eq (r' .user) (.text username) := by
        intro r r' h
        rw [h .user (hcolumns _ (by simp))]
      simp only [Operation.removes]
      cases canChange conf username s.fresh with
      | error e =>
          simp [Except.toBool, hs]
      | ok _ =>
          cases allowedUsername username with
          | false =>
              simp [hs]
          | true =>
              simp only [Except.toBool, Bool.true_and, if_true, true_and]
              exact sameRows_delete_iff hs hcond
  | removeDeletedUsers now =>
      unfold SameEffect
      dsimp only
      rw [apply_removeDeletedUsers conf hfresh,
        apply_removeDeletedUsers conf hmigrated]
      have hcond : ∀ r r', RowsAgree (createdColumns .user) r r' →
          lt (r .deleted) (.int now) = lt (r' .deleted) (.int now) := by
        intro r r' h
        rw [h .deleted (hcolumns _ (by simp))]
      simp only [Operation.removes, true_and]
      exact sameRows_delete_iff hs hcond
  | _ =>
      cases hop

/-- A single operation has the same effect on both, if it avoids the differences. -/
theorem same_effect_iff
    (l : Label)
    (hs : SameRows s.fresh s.migrated) :
    SameEffect conf o s l ↔ Unaffected conf o s l := by
  obtain ⟨enforced, op⟩ := l
  unfold Unaffected
  dsimp only
  cases hmigration : op.needsMigration with
  | true =>
      have hmisses : Misses enforced o (op.prog conf) :=
        misses_of_needsMigration conf hmigration
      have hne : ¬ SameEffect conf o s (enforced, op) := fun h =>
        apply_ne conf hmisses.fresh hmisses.migrated h.1
      simp [hne]
  | false =>
      cases hphones : op.writesPhones with
      | true =>
          rw [sameEffect_writesPhones conf hs hphones]
          simp
      | false =>
          cases husers : op.deletesUsers with
          | true =>
              rw [sameEffect_deletesUsers conf hs husers]
              simp
          | false =>
              have hsame : SameEffect conf o s (enforced, op) :=
                sameEffect_of_uses conf hs (Prog.Uses.mono
                  (fits_common o enforced)
                  (common_prog conf hmigration hphones husers))
              have hremoves : ∀ u, op.removes conf s.fresh u = false := by
                intro u
                cases op <;> first | rfl | cases husers
              simp [hsame, hremoves]

theorem sameRows_created
    (o : Origin) :
    SameRows freshDB.content (migratedDB o).content := by
  have hagree : ∀ o ∈ [Origin.first, .sixth], ∀ t ∈ tables,
      List.Forall₂ (RowsAgree (createdColumns t)) (freshDB.content t)
        ((migratedDB o).content t) := by
    decide
  have habsent : ∀ c ∈ tables, c ∉ freshDB.schema.names →
      freshDB.content c = [] := by
    decide
  exact ⟨fun t => hagree o (by cases o <;> decide) t (mem_tables t),
    fun c => habsent c (mem_tables c)⟩

/--
A new database and a migrated one, of any origin and version, give the same
results and the same errors along a run, and have the same rows after each step,
if and only if the run avoids what differs between them.
-/
theorem migrated_equivalent_iff
    (drawn : Drawn)
    {o : Origin} {v : Nat}
    (hle : o.version ≤ v)
    (hlt : v < 9)
    (ls : List Label) :
    setupDB drawn .empty = .ok freshDB ∧
      (emptyVersion drawn o v).bind (setupDB drawn) = .ok (migratedDB o) ∧
        (Along (stepBoth conf o) (SameEffect conf o)
            ⟨freshDB.content, (migratedDB o).content⟩ ls
          ↔
        Along (stepBoth conf o) (Unaffected conf o)
            ⟨freshDB.content, (migratedDB o).content⟩ ls) := by
  refine ⟨setupDB_empty drawn,
    setupDB_emptyVersion drawn hle (Nat.lt_succ_of_lt hlt), ?_⟩
  have hiff : ∀ (s : Pair) l, SameRows s.fresh s.migrated →
      (SameEffect conf o s l ↔ Unaffected conf o s l) :=
    fun _ l hs => same_effect_iff conf l hs
  refine Along.congr_of_invariant hiff ?_ (sameRows_created o)
  intro s l s' _ hsame hstep
  cases hstep
  exact hsame.2

/-- A user is created, writes to a topic, gets a token, and is removed. -/
def simpleRun : List Label :=
  [(true, .addUser (.replicate 16 0) "u_phil" "st_phil" 1 "phil" "secret"
      .user false),
    (false, .allowAccess "phil" "news" .readWrite),
    (true, .createToken "u_phil" "tk_phil" "" 1 "" 0 false),
    (true, .removeUser "phil")]

theorem simpleRun_unaffected :
    Along (stepBoth simpleConfig .first) (SameEffect simpleConfig .first)
      ⟨freshDB.content, (migratedDB .first).content⟩ simpleRun := by
  refine (migrated_equivalent_iff simpleConfig (fun _ => ("", ""))
    (o := .first) (v := 5) (by decide) (by decide) simpleRun).2.2.mpr ?_
  decide

/--
The privacy of a profile cannot be read in a new database; and in one from before
version 6 no phone number can be added.
-/
theorem fresh_differs_from_migrated :
    setupDB (fun _ => ("", "")) .empty = .ok freshDB ∧
      (emptyVersion (fun _ => ("", "")) .first 5).bind
          (setupDB (fun _ => ("", ""))) = .ok (migratedDB .first) ∧
      ((Operation.profilePrivacy "phil").apply simpleConfig true freshDB.schema
        freshDB.content).1 =
          .error (.sql (.noSuchColumn .userProfile .privacy)) ∧
      ((Operation.profilePrivacy "phil").apply simpleConfig true
        (migratedDB .first).schema (migratedDB .first).content).1 =
          .ok [[.text "request"]] ∧
      ((Operation.addPhoneNumber everyoneID "+12223334444").apply simpleConfig
        true freshDB.schema freshDB.content).1 = .ok [] ∧
      ((Operation.addPhoneNumber everyoneID "+12223334444").apply simpleConfig
        true (migratedDB .first).schema (migratedDB .first).content).1 =
          .error (.sql (.noSuchTable .userOld)) := by
  refine ⟨setupDB_empty _, setupDB_emptyVersion _ (by decide) (by decide), ?_⟩
  decide

end Main

end UserDB
end Manager
end CoopMessenger
