import CoopMessenger.Manager.UserOperations

/-!
# Removal of users

What `RemoveUser` and `RemoveDeletedUsers` leave of a user.  They delete the row of
the user alone and rely on foreign keys for the rest.  SQLite enforces foreign keys
for a connection only after a pragma, which the manager executes once, on one
connection of the pool.

**Results.**
* `apply_removeUser` and `apply_removeDeletedUsers`: what is deleted.
* `leaves_nothing_iff`: when nothing refers to the user any more.
-/

namespace CoopMessenger
namespace Manager
namespace UserDB

open Library Library.Sql

section Model

variable (conf : Config)

/-- May the user of this name be changed? -/
def canChange
    (username : String)
    (C : Records) : Except OpError Unit :=
  match (C .user).find? (fun u => eq (u .user) (.text username)) with
  | none => .error (.manager .userNotFound)
  | some u =>
      if !conf.unmarshalPrefs (u .prefs) then
        .error .unmarshal
      else if truth (u .provisioned) then
        .error (.manager .provisionedUserChange)
      else
        .ok ()

/-- The users that the operation deletes. -/
def Operation.removes
    (op : Operation)
    (C : Records)
    (u : Record) : Bool :=
  match op with
  | .removeUser username =>
      (canChange conf username C).toBool && allowedUsername username &&
        eq (u .user) (.text username)
  | .removeDeletedUsers now => lt (u .deleted) (.int now)
  | _ => false

/-- The rows that are left when these users are deleted. -/
def withoutUsers
    (enforced : Bool)
    (S : Schema TableName ColumnName IndexName)
    (cond : Record → Bool)
    (C : Records) : Records :=
  fun c => (C c).filter (fun r => !gone (pooled enforced) S .user cond C c r)

end Model

section Runs

variable (conf : Config)
variable {enforced : Bool}
variable {S : Schema TableName ColumnName IndexName}

/-- A user database in which nothing forbids to delete users. -/
structure Removable
    (enforced : Bool)
    (S : Schema TableName ColumnName IndexName) : Prop where
  select : prepare enforced S selectUserByNameQuery = none
  delete : prepare enforced S deleteUserQuery = none
  deleteMarked : prepare enforced S deleteUsersMarkedQuery = none
  unrestricted : S.Unrestricted .user

/-- A prepared statement that selects. -/
theorem exec_selecting
    {reads : List (TableName × List ColumnName)}
    {answer : Args → Records → Answer} {args : Args} {C : Records}
    (hprep : prepare enforced S (selecting reads answer) = none) :
    exec (pooled enforced) S (selecting reads answer) args C =
      .ok (answer args (view reads C), C) := by
  have hprep' : prepare (pooled enforced).foreignKeys S
      (selecting reads answer) = none := hprep
  rw [exec, hprep']
  rfl

/-- A prepared statement that deletes users. -/
theorem exec_deleting
    {reads : List (TableName × List ColumnName)}
    {cond : Args → Records → Record → Bool} {args : Args} {C : Records}
    (hprep : prepare enforced S (deleting .user reads cond) = none)
    (hS : S.Unrestricted .user) :
    ∃ answer, exec (pooled enforced) S (deleting .user reads cond) args C =
      .ok (answer, withoutUsers enforced S
        (fun u => cond args (view reads C)
          (restrict (readColumns reads .user) u)) C) := by
  have hprep' : prepare (pooled enforced).foreignKeys S
      (deleting .user reads cond) = none := hprep
  rw [exec, hprep']
  simp only [deleting, Effect.run, deleteRows_of_unrestricted hS]
  exact ⟨_, rfl⟩

theorem leftJoin_ne_nil
    (rows : List Record) :
    leftJoin rows ≠ [] := by
  unfold leftJoin
  split
  · simp
  · rename_i h
    simpa using h

/-- The users of a name with their tiers, as `selectUserByNameQuery` reads them. -/
def usersByName
    (args : Args)
    (v : Records) : Answer :=
  ((v .user).filter (fun u => eq (u .user) (args 0))).flatMap (fun u =>
    (leftJoin ((v .tier).filter (fun t => eq (t .id) (u .tierId)))).map
      (fun t => userFields.map u ++ tierFields.map t))

/-- The settings and the mark of the first user of this name come first. -/
theorem head?_usersByName
    (args : Args) (C : Records) :
    (usersByName args (view selectUserByNameQuery.reads C)).head?.map
        (fun row => (row.getD 4 .null, row.getD 6 .null)) =
      ((C .user).find? (fun u => eq (u .user) (args 0))).map
        (fun u => (u .prefs, u .provisioned)) := by
  let cols := readColumns selectUserByNameQuery.reads .user
  have hview : view selectUserByNameQuery.reads C .user =
      (C .user).map (restrict cols) := rfl
  have hmem : ∀ c ∈ [ColumnName.user, .prefs, .provisioned], c ∈ cols := by
    decide
  have hread : ∀ r : Record, ∀ c ∈ [ColumnName.user, .prefs, .provisioned],
      restrict cols r c = r c := by
    intro r c hc
    simp only [restrict, if_pos (hmem c hc)]
  have hcond : (fun u => eq (u .user) (args 0)) ∘ restrict cols =
      fun u => eq (u .user) (args 0) := by
    funext u
    simp [hread u .user (by simp)]
  rw [usersByName, hview, List.filter_map, List.flatMap_map,
    ← List.head?_filter, hcond]
  cases (C .user).filter (fun u => eq (u .user) (args 0)) with
  | nil =>
      rfl
  | cons u rest =>
      rw [List.flatMap_cons]
      cases hjoin : leftJoin ((view selectUserByNameQuery.reads C .tier).filter
          (fun t => eq (t .id) (restrict cols u .tierId))) with
      | nil =>
          exact absurd hjoin (leftJoin_ne_nil _)
      | cons t ts =>
          simp [userFields, hread]

theorem run_canChangeUser
    (hprep : prepare enforced S selectUserByNameQuery = none)
    (username : String) (s : Session TableName ColumnName) :
    Prog.run (pooled enforced) S (canChangeUser conf username).run s =
      (canChange conf username s.content, s) := by
  have hexec : exec (pooled enforced) S selectUserByNameQuery
      (fun i => [Value.text username].getD i .null) s.content =
        .ok (usersByName (fun i => [Value.text username].getD i .null)
          (view selectUserByNameQuery.reads s.content), s.content) :=
    exec_selecting hprep
  have hhead := head?_usersByName
    (fun i => [Value.text username].getD i .null) s.content
  unfold canChangeUser user query
  rw [run_op_bind, run_op_bind, run_queryOr, hexec]
  unfold canChange
  generalize usersByName (fun i => [Value.text username].getD i .null)
    (view selectUserByNameQuery.reads s.content) = rows at hhead ⊢
  change _ = ((s.content .user).find?
    (fun u => eq (u .user) (.text username))).map _ at hhead
  generalize (s.content .user).find?
    (fun u => eq (u .user) (.text username)) = found at hhead ⊢
  cases rows with
  | nil =>
      cases found with
      | none =>
          rfl
      | some u =>
          cases hhead
  | cons row rest =>
      cases found with
      | none =>
          cases hhead
      | some u =>
          have hpair : (row.getD 4 .null, row.getD 6 .null) =
              (u .prefs, u .provisioned) := Option.some.inj hhead
          obtain ⟨hprefs, hprovisioned⟩ := Prod.mk.inj hpair
          simp only [readUser, hprefs]
          cases hparsed : conf.unmarshalPrefs (u .prefs) with
          | false =>
              rfl
          | true =>
              have hmark : isProvisioned row = truth (u .provisioned) := by
                rw [isProvisioned, hprovisioned]
              change Prog.run (pooled enforced) S
                (if isProvisioned row then fail .provisionedUserChange
                  else pure () : Op Unit).run s = _
              rw [hmark]
              cases truth (u .provisioned) <;> simp <;> rfl

/-- What the removal of a user does. -/
theorem apply_removeUser
    (hS : Removable enforced S)
    (username : String) (C : Records) :
    (Operation.removeUser username).apply conf enforced S C =
      match canChange conf username C with
      | .error e => (.error e, C)
      | .ok () =>
          if allowedUsername username then
            (.ok [], withoutUsers enforced S
              (fun u => eq (u .user) (.text username)) C)
          else
            (.error (.manager .invalidArgument), C) := by
  have hdelete : ∃ answer, exec (pooled enforced) S deleteUserQuery
      (fun i => [Value.text username].getD i .null) C =
        .ok (answer, withoutUsers enforced S
          (fun u => eq (u .user) (.text username)) C) :=
    exec_deleting hS.delete hS.unrestricted
  obtain ⟨answer, hexec⟩ := hdelete
  have hrun : ∀ saved, Prog.run (pooled enforced) S
      (removeUser conf username).run ⟨C, saved⟩ =
        match canChange conf username C with
        | .error e => (.error e, ⟨C, saved⟩)
        | .ok () => Prog.run (pooled enforced) S
            (execTx (removeUserTx username)).run ⟨C, saved⟩ := by
    intro saved
    unfold removeUser
    rw [run_op_bind, run_canChangeUser conf hS.select]
    cases canChange conf username C <;> rfl
  have hprog : (Operation.removeUser username).prog conf =
      removeUser conf username := rfl
  simp only [Operation.apply, hprog, hrun]
  cases canChange conf username C with
  | error e =>
      rfl
  | ok _ =>
      dsimp only
      rw [run_execTx]
      unfold removeUserTx
      cases allowedUsername username with
      | false =>
          rfl
      | true =>
          simp only [Bool.not_true, Bool.false_eq_true, if_false, if_true]
          rw [run_exec', hexec]

theorem apply_removeDeletedUsers
    (hS : Removable enforced S)
    (now : Int) (C : Records) :
    (Operation.removeDeletedUsers now).apply conf enforced S C =
      (.ok [], withoutUsers enforced S
        (fun u => lt (u .deleted) (.int now)) C) := by
  have hdelete : ∃ answer, exec (pooled enforced) S deleteUsersMarkedQuery
      (fun i => [Value.int now].getD i .null) C =
        .ok (answer, withoutUsers enforced S
          (fun u => lt (u .deleted) (.int now)) C) :=
    exec_deleting hS.deleteMarked hS.unrestricted
  obtain ⟨answer, hexec⟩ := hdelete
  have hprog : (Operation.removeDeletedUsers now).prog conf =
      exec' deleteUsersMarkedQuery [.int now] := rfl
  simp only [Operation.apply, hprog, run_exec', hexec]

end Runs

section Databases

/-- How the database came about. -/
inductive Setup where
  | created
  | migrated (o : Origin)
deriving DecidableEq, Repr

/-- The database at the start. -/
def Setup.db : Setup → UserDatabase
  | .created => freshDB
  | .migrated o => migratedDB o

/-- The foreign keys of a table, after the set-up. -/
def Setup.foreignKeys : Setup → TableName → List (ForeignKey TableName ColumnName)
  | _, .user => [ofTier]
  | _, .userAccess => [ofUser .userId, ofUser .ownerUserId]
  | _, .userToken => [ofUser .userId]
  | .migrated .first, .userPhone => [⟨.userId, .userOld, .id, true⟩]
  | _, .userPhone => [ofUser .userId]
  | _, .userProfile => [ofUser .userId]
  | .migrated _, .userContact => [ofUser .userId, ofUser .contactUserId]
  | _, _ => []

def setups : List Setup :=
  [.created, .migrated .first, .migrated .sixth]

theorem mem_setups
    (d : Setup) :
    d ∈ setups := by
  cases d with
  | created =>
      decide
  | migrated o =>
      cases o <;> decide

def tables : List TableName :=
  [.tier, .user, .userAccess, .userToken, .userPhone, .userProfile, .userContact,
    .topicMeta, .schemaVersion, .access, .userOld, .userAccessOld, .userTokenOld]

theorem mem_tables
    (t : TableName) :
    t ∈ tables := by
  cases t <;> decide

theorem foreignKeys_eq
    (d : Setup) (t : TableName) :
    d.db.schema.foreignKeys t = d.foreignKeys t := by
  have hall : ∀ d ∈ setups, ∀ t ∈ tables,
      d.db.schema.foreignKeys t = d.foreignKeys t := by
    decide
  exact hall d (mem_setups d) t (mem_tables t)

theorem removable
    (d : Setup) (enforced : Bool) :
    Removable enforced d.db.schema := by
  have hall : ∀ d ∈ setups, ∀ enforced,
      prepare enforced d.db.schema selectUserByNameQuery = none ∧
        prepare enforced d.db.schema deleteUserQuery = none ∧
          prepare enforced d.db.schema deleteUsersMarkedQuery = none ∧
            d.db.schema.Unrestricted .user := by
    decide
  have h := hall d (mem_setups d) enforced
  exact ⟨h.1, h.2.1, h.2.2.1, h.2.2.2⟩

/-- Rows of other tables go with the users that they refer to. -/
theorem gone_child
    (d : Setup) (enforced : Bool)
    {c : TableName} {cond : Record → Bool} {C : Records} {r : Record}
    (hc : c ≠ .user) :
    gone (pooled enforced) d.db.schema .user cond C c r =
      (enforced &&
        refers (d.db.schema.foreignKeys c) .user (C .user) cond r) := by
  have hkeys : ∀ fk ∈ d.db.schema.foreignKeys c, fk.cascade = true →
      ∀ fk' ∈ d.db.schema.foreignKeys fk.target, fk'.cascade = false := by
    simp only [foreignKeys_eq]
    cases d with
    | created =>
        cases c <;> decide
    | migrated o =>
        cases o <;> cases c <;> decide
  cases enforced with
  | false =>
      simp [gone, pooled, doomed, hc]
  | true =>
      exact doomed_of_child hc hkeys 999 r

end Databases

section Traces

variable (conf : Config)

/-- Has the user a phone number? -/
def hasPhone
    (C : Records)
    (u : Record) : Bool :=
  (C .userPhone).any (fun p => eq (p .userId) (u .id))

/-- The columns that refer to a user by ID. -/
def userReferences : List (TableName × ColumnName) :=
  [(.userAccess, .userId), (.userAccess, .ownerUserId), (.userToken, .userId),
    (.userPhone, .userId), (.userProfile, .userId), (.userContact, .userId),
    (.userContact, .contactUserId)]

/-- Does a row refer to the user by this column? -/
def referredBy
    (C : Records)
    (u : Record)
    (p : TableName × ColumnName) : Bool :=
  (C p.1).any (fun r => eq (r p.2) (u .id))

/-- Is there a direct message with the user? -/
def inDM
    (C : Records)
    (u : Record) : Bool :=
  (C .topicMeta).any
    (fun m => eq (m .dmUserA) (u .user) || eq (m .dmUserB) (u .user))

/--
After the operation, no access row (as user or owner), token, phone number,
profile, contact or direct message refers to a user that it removed.
-/
def LeavesNothing
    (d : Setup)
    (enforced : Bool)
    (op : Operation)
    (C : Records) : Prop :=
  ∀ u ∈ C .user, op.removes conf C u = true →
    (∀ p ∈ userReferences,
        referredBy (op.apply conf enforced d.db.schema C).2 u p = false) ∧
      inDM (op.apply conf enforced d.db.schema C).2 u = false

/-- Is a row deleted with the user that it refers to by this column? -/
def cascades
    (d : Setup)
    (p : TableName × ColumnName) : Bool :=
  (d.db.schema.foreignKeys p.1).any (fun fk => decide (fk = ofUser p.2))

/--
No direct message is stored with a user that is removed, and no row refers to it,
except where foreign keys are enforced on the connection and the column has one.
-/
def Severed
    (d : Setup)
    (enforced : Bool)
    (op : Operation)
    (C : Records) : Prop :=
  ∀ u ∈ C .user, op.removes conf C u = true →
    (∀ p ∈ userReferences,
        (enforced = true ∧ cascades d p = true) ∨ referredBy C u p = false) ∧
      inDM C u = false

/-- The columns that lack a foreign key. -/
theorem cascades_eq_false_iff
    (d : Setup) :
    ∀ p ∈ userReferences,
      cascades d p = false
        ↔
      (d = .created ∧ p.1 = .userContact) ∨
        (d = .migrated .first ∧ p.1 = .userPhone) := by
  simp only [cascades, foreignKeys_eq]
  cases d with
  | created =>
      decide
  | migrated o =>
      cases o <;> decide

end Traces

section Main

variable {conf : Config}
variable {d : Setup}
variable {enforced : Bool}
variable {C : Records}
variable {cond : Record → Bool}
variable {u : Record}

/-- Where the column has no foreign key, nothing of the table goes. -/
theorem refers_of_not_cascades
    {p : TableName × ColumnName}
    (hp : p ∈ userReferences)
    (hcascades : cascades d p = false)
    (r : Record) :
    refers (d.db.schema.foreignKeys p.1) .user (C .user) cond r = false := by
  have hkeys : ∀ p ∈ userReferences, cascades d p = false →
      ∀ fk ∈ d.db.schema.foreignKeys p.1, fk.cascade = true →
        fk.target ≠ .user := by
    simp only [cascades, foreignKeys_eq]
    cases d with
    | created =>
        decide
    | migrated o =>
        cases o <;> decide
  rw [refers, List.any_eq_false]
  intro fk hfk
  cases hcascade : fk.cascade with
  | false =>
      simp
  | true =>
      simp [hkeys p hp hcascades fk hfk hcascade]

/-- Where it has one, what refers to a chosen user goes. -/
theorem refers_of_cascades
    {p : TableName × ColumnName} {r : Record}
    (hcascades : cascades d p = true)
    (hu : u ∈ C .user)
    (hchosen : cond u = true)
    (hr : eq (r p.2) (u .id) = true) :
    refers (d.db.schema.foreignKeys p.1) .user (C .user) cond r = true := by
  obtain ⟨fk, hfk, heq⟩ := List.any_eq_true.mp hcascades
  have hofUser : fk = ofUser p.2 := of_decide_eq_true heq
  subst hofUser
  have href : r p.2 ≠ .null ∧ r p.2 = u .id := by
    simpa [eq] using hr
  refine List.any_eq_true.mpr ⟨_, hfk, ?_⟩
  simp only [ofUser, decide_true, Bool.true_and, Bool.and_eq_true,
    List.any_eq_true]
  exact ⟨decide_eq_true href.1, u, hu, hchosen, decide_eq_true href.2.symm⟩

theorem referredBy_withoutUsers_iff
    {p : TableName × ColumnName}
    (hp : p ∈ userReferences)
    (hu : u ∈ C .user)
    (hchosen : cond u = true) :
    referredBy (withoutUsers enforced d.db.schema cond C) u p = false
      ↔
    (enforced = true ∧ cascades d p = true) ∨ referredBy C u p = false := by
  have hne : p.1 ≠ .user := by
    have hall : ∀ p ∈ userReferences, p.1 ≠ TableName.user := by decide
    exact hall p hp
  have hmem : ∀ r, r ∈ withoutUsers enforced d.db.schema cond C p.1 ↔
      r ∈ C p.1 ∧ (enforced &&
        refers (d.db.schema.foreignKeys p.1) .user (C .user) cond r) =
          false := by
    intro r
    rw [withoutUsers, List.mem_filter, gone_child d enforced hne,
      Bool.not_eq_true']
  simp only [referredBy, List.any_eq_false, hmem]
  constructor
  · intro h
    by_cases hgone : enforced = true ∧ cascades d p = true
    · exact Or.inl hgone
    · refine Or.inr fun r hr => h r ⟨hr, ?_⟩
      cases enforced with
      | false =>
          rfl
      | true =>
          have hcascades : cascades d p = false := by
            simpa using hgone
          exact refers_of_not_cascades hp hcascades r
  · rintro (⟨rfl, hcascades⟩ | h) r ⟨hr, hstays⟩
    · intro heq
      have hgoes := refers_of_cascades hcascades hu hchosen heq
      rw [hgoes] at hstays
      cases hstays
    · exact h r hr

/-- Direct messages stay. -/
theorem inDM_withoutUsers
    (u : Record) :
    inDM (withoutUsers enforced d.db.schema cond C) u = inDM C u := by
  have hkeys : d.db.schema.foreignKeys .topicMeta = [] := by
    rw [foreignKeys_eq]
    cases d with
    | created =>
        rfl
    | migrated o =>
        cases o <;> rfl
  have hstays : ∀ r, gone (pooled enforced) d.db.schema .user cond C .topicMeta
      r = false := by
    intro r
    rw [gone_child d enforced (by decide), hkeys]
    simp [refers]
  simp [inDM, withoutUsers, hstays]

/-- The operation removes these users and keeps the rest. -/
theorem apply_of_removes
    {op : Operation}
    (hremoves : op.removes conf C u = true) :
    (op.apply conf enforced d.db.schema C).2 =
      withoutUsers enforced d.db.schema (op.removes conf C) C := by
  have hS := removable d enforced
  cases op with
  | removeUser username =>
      have hsplit : (canChange conf username C).toBool = true ∧
          allowedUsername username = true := by
        simp only [Operation.removes, Bool.and_eq_true] at hremoves
        exact hremoves.1
      have hsame : (Operation.removeUser username).removes conf C =
          fun u => eq (u .user) (.text username) := by
        funext v
        simp [Operation.removes, hsplit.1, hsplit.2]
      rw [hsame, apply_removeUser conf hS]
      cases hchange : canChange conf username C with
      | error e =>
          rw [hchange] at hsplit
          cases hsplit.1
      | ok _ =>
          simp [hsplit.2]
  | removeDeletedUsers now =>
      rw [apply_removeDeletedUsers conf hS]
      rfl
  | _ =>
      cases hremoves

/-- Who has a direct message leaves it behind. -/
theorem not_leavesNothing_of_inDM
    {op : Operation}
    (hu : u ∈ C .user)
    (hremoves : op.removes conf C u = true)
    (hdm : inDM C u = true) :
    ¬ LeavesNothing conf d enforced op C := by
  intro h
  have hno := (h u hu hremoves).2
  rw [apply_of_removes hremoves, inDM_withoutUsers, hdm] at hno
  cases hno

/--
Whatever the state and the connection, nothing refers to a removed user any more
if and only if foreign keys see to it or nothing did before.
-/
theorem leaves_nothing_iff
    (conf : Config)
    (d : Setup)
    (enforced : Bool)
    (op : Operation)
    (C : Records) :
    LeavesNothing conf d enforced op C ↔ Severed conf d enforced op C := by
  refine forall₂_congr fun u hu => forall_congr' fun hremoves => ?_
  rw [apply_of_removes hremoves, inDM_withoutUsers]
  refine and_congr_left' (forall₂_congr fun p hp => ?_)
  exact referredBy_withoutUsers_iff hp hu hremoves

instance
    (conf : Config)
    (d : Setup)
    (enforced : Bool)
    (op : Operation)
    (C : Records) :
    Decidable (LeavesNothing conf d enforced op C) :=
  inferInstanceAs (Decidable (∀ u ∈ C .user, _ → (∀ p ∈ userReferences, _) ∧ _))

/-- A configuration with a hash that any password meets. -/
def simpleConfig : Config where
  defaultAccess := .denyAll
  bcrypt :=
    { generateFromPassword := fun _ p =>
        if p.utf8ByteSize ≤ 72 then some p else none
      compareHashAndPassword := fun h p => decide (h = p)
      cost := fun _ => some 10
      minCost := 10 }
  unmarshalPrefs := fun _ => true

/-- `phil` writes to a topic and has a direct message with `ben`. -/
def philAndBen : List Label :=
  [(true, .addUser (.replicate 16 0) "u_phil" "st_phil" 1 "phil" "secret"
      .user false),
    (true, .addUser (.replicate 16 0) "u_ben" "st_ben" 1 "ben" "secret"
      .user false),
    (true, .allowAccess "phil" "news" .readWrite),
    (true, .setDMTopicMeta "dm_1" "phil" "ben" 2)]

/--
On a connection that does not enforce foreign keys, the access rows of a removed
user stay; on any connection, direct messages do.
-/
theorem removal_leaves_rows :
    ¬ LeavesNothing simpleConfig .created false (.removeUser "phil")
        (performAll simpleConfig freshDB.schema freshDB.content philAndBen) ∧
      ¬ LeavesNothing simpleConfig (.migrated .sixth) true (.removeUser "phil")
        (performAll simpleConfig (migratedDB .sixth).schema
          (migratedDB .sixth).content philAndBen) := by
  constructor
  · decide
  · have hany : ((performAll simpleConfig (migratedDB .sixth).schema
        (migratedDB .sixth).content philAndBen) .user).any (fun u =>
          (Operation.removeUser "phil").removes simpleConfig
              (performAll simpleConfig (migratedDB .sixth).schema
                (migratedDB .sixth).content philAndBen) u &&
            inDM (performAll simpleConfig (migratedDB .sixth).schema
              (migratedDB .sixth).content philAndBen) u) = true := by
      decide
    obtain ⟨u, hu, hboth⟩ := List.any_eq_true.mp hany
    rw [Bool.and_eq_true] at hboth
    exact not_leavesNothing_of_inDM hu hboth.1 hboth.2

end Main

end UserDB
end Manager
end CoopMessenger
