import CoopMessenger.Library.Interleaving
import CoopMessenger.Library.RowChanges
import CoopMessenger.Library.Runs
import CoopMessenger.Manager.UserRemoval

/-!
# Logins of removed users

`MarkUserRemoved` next to calls that were in flight before it: `CreateToken`,
`ChangeToken`, `ChangePassword`, `Authenticate` and `AuthenticateToken`.  The calls
interleave by statements and transactions.

**Results.**
* `Gone.exec`: what keeps a removed user from logging in.
* `removed_cannot_login`: no call that starts after the removal returns the user, if
  no token is created for a user who has been removed.
-/

namespace CoopMessenger
namespace Manager
namespace UserDB

open Library Library.Sql

namespace Logins

section Model

/-- The methods that may be called. -/
def isCalled : Operation → Bool
  | .authenticate _ _ => true
  | .authenticateToken _ _ => true
  | .createToken _ _ _ _ _ _ _ => true
  | .changeToken _ _ _ _ => true
  | .changePassword _ _ _ _ => true
  | .markUserRemoved _ _ _ => true
  | _ => false

def authenticates : Operation → Bool
  | .authenticate _ _ => true
  | .authenticateToken _ _ => true
  | _ => false

/-- The user for whom a token is created. -/
def createsToken : Operation → Option String
  | .createToken userID _ _ _ _ _ _ => some userID
  | _ => none

/-- The user who is removed. -/
def marksRemoved : Operation → Option String
  | .markUserRemoved _ id _ => some id
  | _ => none

/-- A call with the rest of its program, and the users that were removed before it. -/
structure Call where
  id : Nat
  op : Operation
  prog : Program (Except OpError Answer)
  removed : List String

/-- The rows, the calls, and the users whose removal has been committed. -/
structure State where
  content : Records
  calls : Table Call.id
  removed : List String

/-- Has the call returned? -/
def Call.returned (c : Call) : Bool :=
  c.prog.result?.isSome

/-- The ID of the user that the call has returned. -/
def Call.user? (c : Call) : Option Value :=
  match c.prog.result? with
  | some (.ok (row :: _)) => some (row.getD 0 .null)
  | _ => none

/-- Has the call returned without an error? -/
def Call.succeeded (c : Call) : Bool :=
  c.prog.result?.any Except.toBool

/-- Executes the next statement or the next transaction of a call. -/
def Call.advance
    (enforced : Bool)
    (S : Schema TableName ColumnName IndexName)
    (C : Records)
    (c : Call) : Call × Records :=
  let r := c.prog.advance (pooled enforced) S C
  ({ c with prog := r.1 }, r.2)

/-- The user whose removal is committed when a call goes on to the second state. -/
def commitsRemoval (c c' : Call) : List String :=
  if !c.returned && c'.succeeded then (marksRemoved c.op).toList else []

/-- A method is called, or a call goes on. -/
inductive Label where
  | start (id : Nat) (op : Operation)
  | advance (id : Nat) (enforced : Bool)

variable (conf : Config)
variable (S : Schema TableName ColumnName IndexName)

/-- One step; `none` if it is not enabled. -/
def step
    (s : State) : Label → Option State
  | .start id op =>
      if isCalled op then
        (s.calls.insert? ⟨id, op, (op.prog conf).run, s.removed⟩).map
          (fun calls => { s with calls })
      else
        none
  | .advance id enforced =>
      (s.calls.find? id).map (fun c =>
        let r := c.advance enforced S s.content
        { content := r.2
          calls :=
            s.calls.modify
              (fun d => if d.id = id then (d.advance enforced S s.content).1 else d)
              (by intro d; split <;> rfl)
          removed := s.removed ++ commitsRemoval c r.1 })

/-- A database of which nobody has been removed yet. -/
def initial (C : Records) : State :=
  ⟨C, .empty, []⟩

/-- A token is created only for a user who has not been removed. -/
def Guarded
    (s : State) : Label → Prop
  | .start _ _ => True
  | .advance id _ =>
      ∀ c ∈ s.calls, c.id = id → c.returned = false →
        ∀ userID ∈ s.removed, createsToken c.op ≠ some userID

instance decidableGuarded
    (s : State) :
    ∀ l, Decidable (Guarded s l)
  | .start _ _ => isTrue trivial
  | .advance id _ =>
      inferInstanceAs (Decidable (∀ c ∈ s.calls, c.id = id →
        c.returned = false → ∀ userID ∈ s.removed, createsToken c.op ≠ some userID))

/-- No call that starts after the removal of a user returns the user. -/
def NoLogin (s : State) : Prop :=
  ∀ c ∈ s.calls, authenticates c.op = true →
    ∀ userID ∈ c.removed, c.user? ≠ some (.text userID)

end Model

section Rows

variable {conn : Connection}
variable {S : Schema TableName ColumnName IndexName}
variable {C C' : Records}
variable {userID : String}

/-- The user is marked as deleted, and has no token. -/
structure Gone
    (userID : String)
    (C : Records) : Prop where
  deleted : ∀ u ∈ C .user, u .id = .text userID → u .deleted ≠ .null
  tokens : ∀ tk ∈ C .userToken, tk .userId ≠ .text userID

/-- A statement that neither brings back a user nor writes a token. -/
def spares (q : Query) : Bool :=
  q.effect.spares .user [.id, .deleted] && q.effect.spares .userToken [.userId]

/-- A statement that may be executed when the user is gone. -/
inductive Allowed (userID : String) : Query → List Value → Prop where
  | spare {q : Query} {args : List Value} :
      spares q = true → Allowed userID q args
  | token {other : String} {rest : List Value} :
      other ≠ userID → Allowed userID upsertTokenQuery (.text other :: rest)
  | mark {now : Int} {rest : List Value} :
      Allowed userID updateUserDeletedQuery (.int now :: rest)

/-- A user who is gone stays gone. -/
theorem Gone.exec
    {q : Query} {args : List Value} {answer : Answer}
    (hC : Gone userID C)
    (hq : Allowed userID q args)
    (h : Sql.exec conn S q (fun i => args.getD i .null) C = .ok (answer, C')) :
    Gone userID C' := by
  have husers : q.effect.spares .user [.id, .deleted] = true →
      ∀ u ∈ C' .user, u .id = .text userID → u .deleted ≠ .null := by
    intro hspares u hu hid
    obtain ⟨v, hv, hsame⟩ := exec_spares h hspares u hu
    rw [hsame .deleted (by simp)]
    rw [hsame .id (by simp)] at hid
    exact hC.deleted v hv hid
  have htokens : q.effect.spares .userToken [.userId] = true →
      ∀ tk ∈ C' .userToken, tk .userId ≠ .text userID := by
    intro hspares tk htk
    obtain ⟨tk', htk', hsame⟩ := exec_spares h hspares tk htk
    rw [hsame .userId (by simp)]
    exact hC.tokens tk' htk'
  cases hq with
  | spare hspares =>
      have hboth := Bool.and_eq_true_iff.mp hspares
      exact ⟨husers hboth.1, htokens hboth.2⟩
  | @token other rest hne =>
      refine ⟨husers (by decide), fun tk htk => ?_⟩
      have hsets : ∀ c ∈ [ColumnName.userId], c ∉ (Conflict.target
          [ColumnName.userId, .token] [.label, .expires, .provisioned]).sets := by
        decide
      rcases exec_insert h rfl hsets tk htk with ⟨tk', htk', hsame⟩ | ⟨vals, hvals, defaults, hsame⟩
      · rw [hsame .userId (by simp)]
        exact hC.tokens tk' htk'
      · rw [hsame .userId (by simp), List.mem_singleton.mp hvals]
        change Value.text other ≠ .text userID
        exact fun heq => hne (Value.text.inj heq)
  | @mark now rest =>
      refine ⟨fun u hu hid => ?_, htokens (by decide)⟩
      obtain ⟨v, hv, rfl⟩ := exec_update h rfl u hu
      split
      case isTrue hcond =>
        change Value.int now ≠ .null
        simp
      case isFalse hcond =>
        rw [if_neg hcond] at hid
        exact hC.deleted v hv hid

end Rows

section Programs

variable (conf : Config)
variable {userID : String}

/-- The program of a method executes allowed statements only. -/
def AllowedOnly
    {α : Type}
    (userID : String)
    (p : Op α) : Prop :=
  p.run.Executes (Allowed userID)

theorem AllowedOnly.of_usesOnly
    {α : Type} {p : Op α}
    (h : UsesOnly (fun q => spares q = true) p) :
    AllowedOnly userID p :=
  Prog.Uses.executes h fun _ _ hq => .spare hq

theorem AllowedOnly.bind
    {α β : Type} {p : Op α} {f : α → Op β}
    (hp : AllowedOnly userID p)
    (hf : ∀ a, AllowedOnly userID (f a)) :
    AllowedOnly userID (p >>= f) := by
  refine Prog.Executes.bind hp fun r => ?_
  cases r with
  | error e =>
      exact trivial
  | ok a =>
      exact hf a

theorem AllowedOnly.execTx
    {α : Type} {p : Op α}
    (hp : AllowedOnly userID p) :
    AllowedOnly userID (execTx p) := by
  refine Prog.Executes.bind hp fun r => ?_
  cases r <;> exact trivial

theorem AllowedOnly.query
    {q : Query} {args : List Value}
    (h : Allowed userID q args) :
    AllowedOnly userID (query q args) :=
  ⟨h, fun _ => trivial⟩

theorem usesOnly_user
    (username : String) :
    UsesOnly (fun q => spares q = true) (user conf username) := by
  refine UsesOnly.bind (usesOnly_query.mpr (by decide)) fun rows => ?_
  unfold readUser
  split
  · exact usesOnly_fail _
  · split
    · exact usesOnly_pure _
    · exact usesOnly_result _

theorem usesOnly_canChangeUser
    (username : String) :
    UsesOnly (fun q => spares q = true) (canChangeUser conf username) := by
  refine (usesOnly_user conf username).bind fun u => ?_
  split
  · exact usesOnly_fail _
  · exact usesOnly_pure _

theorem usesOnly_token
    (userID value : String) :
    UsesOnly (fun q => spares q = true) (token userID value) := by
  refine UsesOnly.bind (usesOnly_query.mpr (by decide)) fun rows => ?_
  split
  · exact usesOnly_result _
  · exact usesOnly_pure _

/-- The methods keep a user away, if no token is created for the user. -/
theorem allowedOnly_prog
    {op : Operation}
    (hop : isCalled op = true)
    (htoken : createsToken op ≠ some userID) :
    AllowedOnly userID (op.prog conf) := by
  cases op with
  | authenticate username password =>
      refine .of_usesOnly (UsesOnly.map ?_)
      unfold authenticate
      split
      · exact usesOnly_fail _
      · exact (usesOnly_user conf username).handle
  | authenticateToken value now =>
      refine .of_usesOnly (UsesOnly.map ?_)
      unfold authenticateToken
      split
      · exact usesOnly_fail _
      · refine UsesOnly.handle ?_
        refine UsesOnly.bind (usesOnly_query.mpr (by decide)) fun rows => ?_
        unfold readUser
        split
        · exact usesOnly_fail _
        · split
          · exact usesOnly_pure _
          · exact usesOnly_result _
  | createToken other value label access origin expires provisioned =>
      have hne : other ≠ userID := fun h => htoken (congrArg some h)
      refine AllowedOnly.execTx (AllowedOnly.bind (.query (.token hne)) fun _ => ?_)
      refine .of_usesOnly ?_
      refine UsesOnly.bind (usesOnly_query.mpr (by decide)) fun rows => ?_
      refine UsesOnly.bind (usesOnly_result _) fun tokenCount => ?_
      split
      · exact UsesOnly.bind (usesOnly_query.mpr (by decide)) fun _ => usesOnly_pure _
      · exact usesOnly_pure _
  | changeToken other value label expires =>
      refine .of_usesOnly ?_
      change UsesOnly _ (single (changeToken other value label expires))
      refine UsesOnly.map ?_
      unfold changeToken
      split
      · exact usesOnly_result _
      · refine UsesOnly.bind ?_ fun _ => UsesOnly.bind (UsesOnly.execTx ?_)
          fun _ => usesOnly_token _ _
        · refine (usesOnly_token other value).bind fun t => ?_
          split
          · exact usesOnly_result _
          · exact usesOnly_pure _
        · have hexpires : ∀ e : Int, UsesOnly (fun q => spares q = true) (do
              let _ ← query updateTokenExpiryQuery
                [.int e, .text other, .text value]
              pure ()) :=
            fun e => (usesOnly_query.mpr (by decide)).bind fun _ => usesOnly_pure _
          cases label with
          | none =>
              cases expires with
              | none =>
                  exact usesOnly_pure _
              | some e =>
                  exact hexpires e
          | some l =>
              refine UsesOnly.bind (usesOnly_query.mpr (by decide)) fun _ => ?_
              cases expires with
              | none =>
                  exact usesOnly_pure _
              | some e =>
                  exact hexpires e
  | changePassword salt username password hashed =>
      refine .of_usesOnly ?_
      refine (usesOnly_canChangeUser conf username).bind fun _ => UsesOnly.execTx ?_
      refine UsesOnly.bind ?_ fun hash => UsesOnly.exec' (by decide)
      unfold passValue
      split
      · exact usesOnly_fail _
      · exact usesOnly_pure _
  | markUserRemoved name id now =>
      change AllowedOnly userID (markUserRemoved name id now)
      unfold markUserRemoved
      split
      · exact .of_usesOnly (usesOnly_fail _)
      · refine AllowedOnly.execTx ?_
        refine AllowedOnly.bind (.query (.spare (by decide))) fun _ => ?_
        refine AllowedOnly.bind (.query (.spare (by decide))) fun _ => ?_
        exact AllowedOnly.bind (.query .mark) fun _ => trivial
  | _ =>
      cases hop

end Programs

section Results

variable (conf : Config)
variable {enforced : Bool}
variable {S : Schema TableName ColumnName IndexName}
variable {C : Records}

/-- Reading a user takes one statement. -/
theorem short_readUser_bind
    {q : Query} {args : List Value} :
    (query q args >>= readUser conf).run.Short := by
  intro r
  cases r with
  | error e =>
      exact ⟨_, rfl⟩
  | ok rows =>
      change ∃ a, (readUser conf rows).run = .ret a
      unfold readUser
      split
      · exact ⟨_, rfl⟩
      · split
        · exact ⟨_, rfl⟩
        · exact ⟨_, rfl⟩

/-- An authentication reads a user and checks what it has read. -/
theorem short_single_handle
    {p : Op (List Value)} {f : Except OpError (List Value) → Except OpError (List Value)}
    (hp : p.run.Short) :
    (single (handle p f)).run.Short := by
  refine Prog.Short.bind_ret (hp.bind_ret fun a => ⟨_, rfl⟩) fun a => ?_
  cases a with
  | error e =>
      exact ⟨_, rfl⟩
  | ok row =>
      exact ⟨_, rfl⟩

theorem run_single_handle
    {p : Op (List Value)} {f : Except OpError (List Value) → Except OpError (List Value)}
    (s : Session TableName ColumnName) :
    (Prog.run (pooled enforced) S (single (handle p f)).run s).1 =
      (f (Prog.run (pooled enforced) S p.run s).1).map (fun row => [row]) := by
  unfold single
  rw [run_op_bind]
  have hhandle : Prog.run (pooled enforced) S (handle p f).run s =
      (f (Prog.run (pooled enforced) S p.run s).1,
        (Prog.run (pooled enforced) S p.run s).2) := by
    change Prog.run (pooled enforced) S (Prog.bind p.run _) s = _
    rw [run_bind]
    rfl
  rw [hhandle]
  generalize f (Prog.run (pooled enforced) S p.run s).1 = r
  cases r <;> rfl

/-- What is read is a row of the answer. -/
theorem mem_of_run_readUser
    {q : Query} {args : List Value} {s : Session TableName ColumnName}
    {row : List Value}
    (h : (Prog.run (pooled enforced) S (query q args >>= readUser conf).run s).1 =
      .ok row) :
    ∃ rows C', exec (pooled enforced) S q (fun i => args.getD i .null) s.content =
      .ok (rows, C') ∧ row ∈ rows := by
  unfold query at h
  rw [run_op_bind, run_queryOr] at h
  generalize exec (pooled enforced) S q (fun i => args.getD i .null) s.content = r
    at h ⊢
  cases r with
  | error e =>
      cases h
  | ok result =>
      obtain ⟨rows, C'⟩ := result
      refine ⟨rows, C', rfl, ?_⟩
      cases rows with
      | nil =>
          cases h
      | cons first rest =>
          simp only [readUser] at h
          split at h
          case isTrue =>
            cases h
            exact List.mem_cons_self
          case isFalse =>
            cases h

/-- A row of a query of users shows the user's ID and mark. -/
theorem exists_user_of_mem
    {reads : List (TableName × List ColumnName)}
    {users : Args → Records → List Record} {args : Args} {rows : Answer} {C' : Records}
    {row : List Value}
    (h : exec (pooled enforced) S (selectUser reads users) args C = .ok (rows, C'))
    (hrow : row ∈ rows) :
    ∃ u ∈ users args (view (selectUser reads users).reads C),
      row.getD 0 .null = u .id ∧ row.getD 16 .null = u .deleted := by
  have hrun := run_of_exec h
  cases hrun
  obtain ⟨u, hu, hmem⟩ := List.mem_flatMap.mp hrow
  obtain ⟨t, -, rfl⟩ := List.mem_map.mp hmem
  exact ⟨u, hu, rfl, rfl⟩

/-- A user whom a statement reads is a row of the table. -/
theorem exists_mem_of_mem_view
    {reads : List (TableName × List ColumnName)} {t : TableName} {r : Record}
    (h : r ∈ view reads C t) :
    ∃ q ∈ C t, r = restrict (readColumns reads t) q := by
  unfold view at h
  split at h
  · obtain ⟨q, hq, rfl⟩ := List.mem_map.mp h
    exact ⟨q, hq, rfl⟩
  · cases h

/-- The user that a finished program returns. -/
theorem exists_row_of_user?
    {c : Call} {p : Op (List Value)} {f : Except OpError (List Value) → Except OpError (List Value)}
    {v : Value}
    (hshort : p.run.Short)
    (hprog : c.prog = (single (handle p f)).run)
    (hv : (c.advance enforced S C).1.user? = some v) :
    ∃ row, f (Prog.run (pooled enforced) S p.run ⟨C, none⟩).1 = .ok row ∧
      row.getD 0 .null = v := by
  have hadvance : (c.advance enforced S C).1.prog =
      .ret ((f (Prog.run (pooled enforced) S p.run ⟨C, none⟩).1).map
        (fun row => [row])) := by
    rw [← run_single_handle]
    simp only [Call.advance, hprog, Prog.advance_of_short (short_single_handle hshort)]
  rw [Call.user?, hadvance] at hv
  generalize f (Prog.run (pooled enforced) S p.run ⟨C, none⟩).1 = r at hv ⊢
  cases r with
  | error e =>
      cases hv
  | ok row =>
      exact ⟨row, rfl, Option.some.inj hv⟩

/-- A call that gives up at once returns no user. -/
theorem user?_advance_error
    {c : Call} {e : OpError}
    (hprog : c.prog = .ret (.error e)) :
    (c.advance enforced S C).1.user? = none := by
  simp only [Call.user?, Call.advance, hprog]
  rfl

/-- A user who is gone is not authenticated by a password. -/
theorem user?_authenticate
    {c : Call} {username password userID : String}
    (hprog : c.prog = ((Operation.authenticate username password).prog conf).run)
    (hC : Gone userID C) :
    (c.advance enforced S C).1.user? ≠ some (.text userID) := by
  intro hv
  simp only [Operation.prog, authenticate] at hprog
  split at hprog
  case isTrue =>
    rw [user?_advance_error hprog] at hv
    cases hv
  case isFalse =>
    obtain ⟨row, hrow, hid⟩ := exists_row_of_user? (short_readUser_bind conf) hprog hv
    generalize hread : (Prog.run (pooled enforced) S (query selectUserByNameQuery
      [.text username] >>= readUser conf).run ⟨C, none⟩).1 = r at hrow
    cases r with
    | error e =>
        cases hrow
    | ok u =>
        dsimp only at hrow
        split at hrow
        case h_1 hash hhash =>
          split at hrow
          case isTrue =>
            cases hrow
          case isFalse hcheck =>
            cases hrow
            obtain ⟨rows, C', hexec, hmem⟩ := mem_of_run_readUser conf hread
            obtain ⟨v, hv, hshow, hmark⟩ := exists_user_of_mem hexec hmem
            obtain ⟨w, hw, rfl⟩ := exists_mem_of_mem_view (List.mem_filter.mp hv).1
            refine hC.deleted w hw (hshow.symm.trans hid) ?_
            change row.getD 16 .null = w .deleted at hmark
            rw [← hmark]
            by_contra hne
            rw [isDeleted, decide_eq_true hne] at hcheck
            exact hcheck rfl
        case h_2 =>
          cases hrow

/-- A user who is gone is not authenticated by a token. -/
theorem user?_authenticateToken
    {c : Call} {value userID : String} {now : Int}
    (hprog : c.prog = ((Operation.authenticateToken value now).prog conf).run)
    (hC : Gone userID C) :
    (c.advance enforced S C).1.user? ≠ some (.text userID) := by
  intro hv
  simp only [Operation.prog, authenticateToken] at hprog
  split at hprog
  case isTrue =>
    rw [user?_advance_error hprog] at hv
    cases hv
  case isFalse =>
    obtain ⟨row, hrow, hid⟩ := exists_row_of_user? (short_readUser_bind conf) hprog hv
    generalize hread : (Prog.run (pooled enforced) S (query selectUserByTokenQuery
      [.text value, .int now] >>= readUser conf).run ⟨C, none⟩).1 = r at hrow
    cases r with
    | error e =>
        cases hrow
    | ok u =>
        cases hrow
        obtain ⟨rows, C', hexec, hmem⟩ := mem_of_run_readUser conf hread
        obtain ⟨v, hv, hshow, -⟩ := exists_user_of_mem hexec hmem
        obtain ⟨v', -, hjoin⟩ := List.mem_flatMap.mp hv
        obtain ⟨tk, htk, rfl⟩ := List.mem_map.mp hjoin
        obtain ⟨htk, hcond⟩ := List.mem_filter.mp htk
        obtain ⟨tk', htk', rfl⟩ := exists_mem_of_mem_view htk
        have hsame := (Bool.and_eq_true_iff.mp (Bool.and_eq_true_iff.mp hcond).1).1
        obtain ⟨hnull, hsame⟩ := Bool.and_eq_true_iff.mp hsame
        have hnull := of_decide_eq_true hnull
        have hsame := of_decide_eq_true hsame
        refine hC.tokens tk' htk' (hsame.symm.trans (hshow.symm.trans ?_))
        cases u with
        | nil =>
            exact absurd hshow.symm hnull
        | cons first rest =>
            exact hid

end Results

section Removal

variable {enforced : Bool}
variable {S : Schema TableName ColumnName IndexName}
variable {C : Records}

/-- A transaction is at its end after it; it keeps what its program did if that succeeds. -/
theorem advance_execTx
    {α : Type} {p : Op α}
    (hp : p.run.Plain)
    (C : Records) :
    (execTx p).run.advance (pooled enforced) S C =
      match Prog.run (pooled enforced) S p.run ⟨C, none⟩ with
      | (.error e, _) => (.ret (.error e), C)
      | (.ok a, s) => (.ret (.ok a), s.content) := by
  change Prog.finish (pooled enforced) S C (Prog.bind p.run _) C = _
  rw [Prog.finish_bind hp C C none]
  generalize Prog.run (pooled enforced) S p.run ⟨C, none⟩ = r
  obtain ⟨x, s⟩ := r
  cases x <;> rfl

theorem plain_bind
    {α β : Type} {p : Op α} {f : α → Op β}
    (hp : p.run.Plain)
    (hf : ∀ a, (f a).run.Plain) :
    (p >>= f).run.Plain := by
  refine Prog.Plain.bind hp fun r => ?_
  cases r with
  | error e =>
      exact trivial
  | ok a =>
      exact hf a

theorem plain_query
    (q : Query) (args : List Value) :
    (query q args).run.Plain :=
  fun _ => trivial

theorem plain_marking
    (name id : String) (now : Int) :
    (do
      let _ ← query deleteUserAccessQuery [.text name, .text name]
      let _ ← query deleteAllTokenQuery [.text id]
      exec' updateUserDeletedQuery
        [.int (now + userHardDeleteAfterDuration), .text id] :
      Op Answer).run.Plain := by
  refine plain_bind (plain_query _ _) fun _ => ?_
  refine plain_bind (plain_query _ _) fun _ => ?_
  exact plain_bind (plain_query _ _) fun _ => trivial

/-- A statement that is followed by others, if they succeed. -/
theorem run_query_bind_ok
    {α : Type} {q : Query} {args : List Value} {f : Answer → Op α}
    {s : Session TableName ColumnName} {a : α}
    (h : (Prog.run (pooled enforced) S (query q args >>= f).run s).1 = .ok a) :
    ∃ rows C', exec (pooled enforced) S q (fun i => args.getD i .null) s.content =
        .ok (rows, C') ∧
      Prog.run (pooled enforced) S (query q args >>= f).run s =
        Prog.run (pooled enforced) S (f rows).run { s with content := C' } := by
  unfold query at h ⊢
  rw [run_op_bind, run_queryOr] at h ⊢
  generalize exec (pooled enforced) S q (fun i => args.getD i .null) s.content = r
    at h ⊢
  cases r with
  | error e =>
      cases h
  | ok result =>
      exact ⟨result.1, result.2, rfl, rfl⟩

/-- The user is gone when the removal has been committed. -/
theorem gone_of_markUserRemoved
    {c : Call} {name id : String} {now : Int}
    (hprog : c.prog = (markUserRemoved name id now).run)
    (hdone : (c.advance enforced S C).1.succeeded = true) :
    Gone id (c.advance enforced S C).2 := by
  unfold markUserRemoved at hprog
  split at hprog
  case isTrue =>
    have hfailed : (c.advance enforced S C).1.succeeded = false := by
      simp only [Call.succeeded, Call.advance, hprog]
      rfl
    rw [hfailed] at hdone
    cases hdone
  case isFalse =>
    have hplain := plain_marking name id now
    have hadvance : Prog.advance (pooled enforced) S _ C = _ := advance_execTx hplain C
    simp only [Call.advance, hprog] at hdone ⊢
    rw [hadvance] at hdone ⊢
    generalize hrun : Prog.run (pooled enforced) S _ _ = r at hdone ⊢
    obtain ⟨x, s⟩ := r
    cases x with
    | error e =>
        cases hdone
    | ok a =>
        have h₁ := run_query_bind_ok (congrArg Prod.fst hrun)
        obtain ⟨rows₁, C₁, -, heq₁⟩ := h₁
        rw [heq₁] at hrun
        obtain ⟨rows₂, C₂, hdelete, heq₂⟩ := run_query_bind_ok (congrArg Prod.fst hrun)
        rw [heq₂] at hrun
        unfold exec' at hrun
        obtain ⟨rows₃, C₃, hupdate, heq₃⟩ := run_query_bind_ok (congrArg Prod.fst hrun)
        rw [heq₃] at hrun
        cases hrun
        refine ⟨fun u hu hid => ?_, fun tk htk hid => ?_⟩
        · obtain ⟨v, hv, rfl⟩ := exec_update hupdate rfl u hu
          split
          case isTrue hcond =>
            change Value.int _ ≠ .null
            simp
          case isFalse hcond =>
            rw [if_neg hcond] at hid
            refine absurd ?_ hcond
            change eq (v .id) (.text id) = true
            simp [eq, hid]
        · have hspares : updateUserDeletedQuery.effect.spares .userToken
              [.userId] = true := by
            decide
          obtain ⟨tk', htk', hsame⟩ := exec_spares hupdate hspares tk htk
          have hfree := exec_delete hdelete rfl tk' htk'
          change eq (tk' .userId) (.text id) = false at hfree
          rw [← hsame .userId (by simp), hid] at hfree
          simp [eq] at hfree

end Removal

section Runs

variable {conf : Config}
variable {enforced : Bool}
variable {S : Schema TableName ColumnName IndexName}
variable {C : Records}
variable {s s' : State}

/-- An authentication or a removal has not begun yet, or it has returned. -/
def Call.Atomic
    (conf : Config)
    (c : Call) : Prop :=
  authenticates c.op = true ∨ (marksRemoved c.op).isSome = true →
    c.prog = (c.op.prog conf).run ∨ c.returned = true

structure Inv
    (conf : Config)
    (s : State) : Prop where
  gone : ∀ userID ∈ s.removed, Gone userID s.content
  allowed :
    ∀ c ∈ s.calls, ∀ userID, createsToken c.op ≠ some userID →
      c.prog.Executes (Allowed userID)
  atomic : ∀ c ∈ s.calls, c.Atomic conf
  before : ∀ c ∈ s.calls, ∀ userID ∈ c.removed, userID ∈ s.removed
  noLogin : NoLogin s

/-- A call that has returned does nothing any more. -/
theorem advance_of_returned
    {c : Call}
    (h : c.returned = true) :
    c.advance enforced S C = (c, C) := by
  obtain ⟨id, op, prog, removed⟩ := c
  cases prog with
  | ret a =>
      rfl
  | _ =>
      cases h

theorem returned_of_short
    {c : Call}
    (h : c.prog.Short) :
    (c.advance enforced S C).1.returned = true := by
  simp only [Call.returned, Call.advance, Prog.advance_of_short h]
  rfl

theorem short_fail
    (e : Manager.Error) :
    (single (fail e)).run.Short :=
  trivial

/-- A call that has only just begun has returned no user. -/
theorem user?_of_start
    (conf : Config) (id : Nat) {op : Operation}
    (hop : authenticates op = true)
    (removed : List String) :
    (Call.mk id op (op.prog conf).run removed).user? = none := by
  cases op with
  | authenticate username password =>
      simp only [Operation.prog, authenticate]
      by_cases h : username = everyone
      · rw [if_pos h]
        rfl
      · rw [if_neg h]
        rfl
  | authenticateToken value now =>
      simp only [Operation.prog, authenticateToken]
      by_cases h : value.utf8ByteSize ≠ tokenLength
      · rw [if_pos h]
        rfl
      · rw [if_neg h]
        rfl
  | _ =>
      cases hop

/-- Authentications and removals take one step. -/
theorem returned_advance
    {c : Call}
    (hop : authenticates c.op = true ∨ (marksRemoved c.op).isSome = true)
    (hprog : c.prog = (c.op.prog conf).run) :
    (c.advance enforced S C).1.returned = true := by
  cases hcall : c.op with
  | authenticate username password =>
      refine returned_of_short ?_
      simp only [hprog, hcall, Operation.prog, authenticate]
      split
      · exact short_fail _
      · exact short_single_handle (short_readUser_bind conf)
  | authenticateToken value now =>
      refine returned_of_short ?_
      simp only [hprog, hcall, Operation.prog, authenticateToken]
      split
      · exact short_fail _
      · exact short_single_handle (short_readUser_bind conf)
  | markUserRemoved name id now =>
      simp only [hcall, Operation.prog, markUserRemoved] at hprog
      split at hprog
      case isTrue =>
        simp only [Call.returned, Call.advance, hprog]
        rfl
      case isFalse =>
        have hplain := plain_marking name id now
        have hadvance : Prog.advance (pooled enforced) S _ C = _ :=
          advance_execTx hplain C
        simp only [Call.returned, Call.advance, hprog, hadvance]
        split <;> rfl
  | _ =>
      rw [hcall] at hop
      rcases hop with h | h <;> cases h

/-- A step of a call keeps removed users away. -/
theorem Inv.gone_advance
    (hs : Inv conf s)
    {c : Call}
    (hc : c ∈ s.calls)
    (hguard : c.returned = false →
      ∀ userID ∈ s.removed, createsToken c.op ≠ some userID)
    (enforced : Bool) :
    ∀ userID ∈ s.removed ++ commitsRemoval c (c.advance enforced S s.content).1,
      Gone userID (c.advance enforced S s.content).2 := by
  intro userID hmem
  rcases List.mem_append.mp hmem with hold | hnew
  · cases hreturned : c.returned with
    | true =>
        rw [advance_of_returned hreturned]
        exact hs.gone userID hold
    | false =>
        have hallowed := hs.allowed c hc userID (hguard hreturned userID hold)
        exact (Prog.advance_keeps (fun q args C answer C' hq hC h => hC.exec hq h)
          hallowed (hs.gone userID hold)).2
  · unfold commitsRemoval at hnew
    split at hnew
    case isFalse =>
      cases hnew
    case isTrue hcommit =>
      obtain ⟨hrunning, hdone⟩ := Bool.and_eq_true_iff.mp hcommit
      have hop : marksRemoved c.op = some userID := by simpa using hnew
      have hprog : c.prog = (c.op.prog conf).run := by
        rcases hs.atomic c hc (Or.inr (by rw [hop]; rfl)) with hprog | hreturned
        · exact hprog
        · rw [hreturned] at hrunning
          cases hrunning
      cases hcall : c.op with
      | markUserRemoved name id now =>
          rw [hcall] at hop hprog
          cases hop
          exact gone_of_markUserRemoved hprog hdone
      | _ =>
          rw [hcall] at hop
          cases hop

/-- The call that goes on keeps its part of the invariant. -/
theorem Inv.call_advance
    (hs : Inv conf s)
    {c : Call}
    (hc : c ∈ s.calls)
    (enforced : Bool) :
    (∀ userID, createsToken c.op ≠ some userID →
        (c.advance enforced S s.content).1.prog.Executes (Allowed userID)) ∧
      (c.advance enforced S s.content).1.Atomic conf ∧
      (authenticates c.op = true → ∀ userID ∈ c.removed,
        (c.advance enforced S s.content).1.user? ≠ some (.text userID)) := by
  refine ⟨fun userID hop => ?_, fun hop => ?_, fun hop userID hmem => ?_⟩
  · exact (Prog.advance_keeps (fun _ _ _ _ _ _ _ _ => trivial)
      (hs.allowed c hc userID hop) trivial).1
  · right
    rcases hs.atomic c hc hop with hprog | hreturned
    · exact returned_advance hop hprog
    · rw [advance_of_returned hreturned]
      exact hreturned
  · rcases hs.atomic c hc (Or.inl hop) with hprog | hreturned
    · have hC := hs.gone userID (hs.before c hc userID hmem)
      cases hcall : c.op with
      | authenticate username password =>
          exact user?_authenticate conf (hcall ▸ hprog) hC
      | authenticateToken value now =>
          exact user?_authenticateToken conf (hcall ▸ hprog) hC
      | _ =>
          rw [hcall] at hop
          cases hop
    · rw [advance_of_returned hreturned]
      exact hs.noLogin c hc hop userID hmem

theorem Inv.step
    (hs : Inv conf s)
    {l : Label}
    (hguard : Guarded s l)
    (hstep : step conf S s l = some s') :
    Inv conf s' := by
  cases l with
  | start id op =>
      simp only [Logins.step] at hstep
      split at hstep
      case isFalse =>
        cases hstep
      case isTrue hop =>
        obtain ⟨calls, hinsert, rfl⟩ := Option.map_eq_some_iff.mp hstep
        have hmem := fun c => Table.mem_insert?_iff (s := c) hinsert
        refine ⟨hs.gone, fun c hc => ?_, fun c hc => ?_, fun c hc => ?_,
          fun c hc => ?_⟩
        · rcases (hmem c).mp hc with hc | rfl
          · exact hs.allowed c hc
          · exact fun userID htoken => allowedOnly_prog conf hop htoken
        · rcases (hmem c).mp hc with hc | rfl
          · exact hs.atomic c hc
          · exact fun _ => Or.inl rfl
        · rcases (hmem c).mp hc with hc | rfl
          · exact hs.before c hc
          · exact fun userID h => h
        · rcases (hmem c).mp hc with hc | rfl
          · exact hs.noLogin c hc
          · intro hauth userID _
            rw [user?_of_start conf id hauth s.removed]
            exact fun h => Option.some_ne_none _ h.symm
  | advance id enforced =>
      obtain ⟨c, hfind, rfl⟩ := Option.map_eq_some_iff.mp hstep
      obtain ⟨hc, rfl⟩ := Table.find?_eq_some_iff.mp hfind
      have hmem := fun d => Table.mem_modify_key_iff
        (f := fun d => (d.advance enforced S s.content).1) (s := d)
        (by intro d; split <;> rfl) hc rfl
      obtain ⟨hallowed, hatomic, hnoLogin⟩ := hs.call_advance (S := S) hc enforced
      refine ⟨hs.gone_advance hc (hguard c hc rfl) enforced, fun d hd => ?_,
        fun d hd => ?_, fun d hd userID h => List.mem_append.mpr (Or.inl ?_),
        fun d hd => ?_⟩
      · rcases (hmem d).mp hd with rfl | ⟨hd, -⟩
        · exact hallowed
        · exact hs.allowed d hd
      · rcases (hmem d).mp hd with rfl | ⟨hd, -⟩
        · exact hatomic
        · exact hs.atomic d hd
      · rcases (hmem d).mp hd with rfl | ⟨hd, -⟩
        · exact hs.before c hc userID h
        · exact hs.before d hd userID h
      · rcases (hmem d).mp hd with rfl | ⟨hd, -⟩
        · exact hnoLogin
        · exact hs.noLogin d hd

/--
In every run that creates no token for a user who has been removed, no call that
starts after the removal of a user returns the user.
-/
theorem removed_cannot_login
    (conf : Config)
    (S : Schema TableName ColumnName IndexName)
    (C : Records)
    {ls : List Label} {s : State}
    (hguard : Along (step conf S) Guarded (initial C) ls)
    (hrun : run (step conf S) (initial C) ls = some s) :
    NoLogin s := by
  have hinitial : Inv conf (initial C) := by
    refine ⟨?_, ?_, ?_, ?_, ?_⟩
    all_goals
      intro _ h
      cases h
  have hs : Inv conf s := run_invariant_along
    (fun s l s' hs hguard hstep => hs.step hguard hstep) hinitial hguard hrun
  exact hs.noLogin

/-- The rows of a new database to which `phil` was added. -/
def philAlone : Records :=
  performAll simpleConfig freshDB.schema freshDB.content
    [(true, .addUser (.replicate 16 0) "u_phil" "st_phil" 1 "phil" "secret" .user
      false)]

def exampleToken : String := "tk_0123456789abcdefghijklmnopqrs"

/-- A request of `phil` creates a token while another one removes him. -/
def tokenAfterRemoval : List Label :=
  [.start 1 (.createToken "u_phil" exampleToken "" 2 "1.2.3.4" 0 false),
    .start 2 (.markUserRemoved "phil" "u_phil" 3),
    .advance 2 true, .advance 1 true,
    .start 3 (.authenticateToken exampleToken 4), .advance 3 true]

/-- The token is created before the removal. -/
def tokenBeforeRemoval : List Label :=
  [.start 1 (.createToken "u_phil" exampleToken "" 2 "1.2.3.4" 0 false),
    .start 2 (.markUserRemoved "phil" "u_phil" 3),
    .advance 1 true, .advance 2 true,
    .start 3 (.authenticateToken exampleToken 4), .advance 3 true]

theorem token_before_removal_cannot_login :
    ∃ s, run (step simpleConfig freshDB.schema) (initial philAlone)
        tokenBeforeRemoval = some s ∧
      s.removed = ["u_phil"] ∧ NoLogin s := by
  have hguard : Along (step simpleConfig freshDB.schema) Guarded
      (initial philAlone) tokenBeforeRemoval := by
    decide +kernel
  have hrun : (run (step simpleConfig freshDB.schema) (initial philAlone)
      tokenBeforeRemoval).map State.removed = some ["u_phil"] := by
    decide +kernel
  obtain ⟨s, hs, hremoved⟩ := Option.map_eq_some_iff.mp hrun
  exact ⟨s, hs, hremoved, removed_cannot_login _ _ _ hguard hs⟩

/-- The token that is created after the removal logs the removed user in. -/
theorem token_after_removal_logs_in :
    ∃ s, run (step simpleConfig freshDB.schema) (initial philAlone)
        tokenAfterRemoval = some s ∧
      (∃ c ∈ s.calls, authenticates c.op = true ∧
        "u_phil" ∈ c.removed ∧ c.user? = some (.text "u_phil")) ∧
      ¬ NoLogin s := by
  have hrun : (run (step simpleConfig freshDB.schema) (initial philAlone)
      tokenAfterRemoval).map (fun s => (s.calls.find? 3).map (fun c =>
        (authenticates c.op, c.removed, c.user?))) =
      some (some (true, ["u_phil"], some (.text "u_phil"))) := by
    decide +kernel
  obtain ⟨s, hs, hshow⟩ := Option.map_eq_some_iff.mp hrun
  obtain ⟨c, hfind, hcall⟩ := Option.map_eq_some_iff.mp hshow
  obtain ⟨hauth, hrest⟩ := Prod.mk.inj hcall
  obtain ⟨hremoved, huser⟩ := Prod.mk.inj hrest
  have hc : c ∈ s.calls := (Table.find?_eq_some_iff.mp hfind).1
  have hmem : "u_phil" ∈ c.removed := by
    rw [hremoved]
    exact List.mem_singleton.mpr rfl
  exact ⟨s, hs, ⟨c, hc, hauth, hmem, huser⟩,
    fun hsafe => hsafe c hc hauth "u_phil" hmem huser⟩

end Runs

end Logins

end UserDB
end Manager
end CoopMessenger
