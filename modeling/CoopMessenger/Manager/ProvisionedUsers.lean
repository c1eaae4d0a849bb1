import CoopMessenger.Manager.Provisioning

/-!
# Provisioned users

The first part of a run: users who are not in the configuration any more are removed,
and those of the configuration are added or updated.

**Results.**
* `exists_maybeProvisionUsers`: this part succeeds, and the users are as configured.
* `maybeProvisionUsers_of_done`: users who are as configured are left alone.
-/

namespace CoopMessenger
namespace Manager
namespace Provisioning

open Library

section Users

variable {b : Bcrypt}
variable {conf : Config}
variable {foreignKeys : Bool}
variable {draws : Draws}

/-- A removal succeeds, and removes one user. -/
theorem exists_removeUserTx
    {s : Store} {x : User}
    (hx : x ∈ s.accounts.db.users)
    (hne : x.name ≠ everyone) :
    ∃ s', removeUserTx foreignKeys s x.name = .ok s' ∧
      (∀ y, y ∈ s'.accounts.db.users ↔
        y ∈ s.accounts.db.users ∧ y.name ≠ x.name) ∧
      (∀ t ∈ s'.tokens, t ∈ s.tokens ∧ (foreignKeys = true → t.userId ≠ x.id)) ∧
      s'.accounts.pass = s.accounts.pass ∧
      s'.accounts.deleted = s.accounts.deleted := by
  have hallowed : allowedUsername x.name = true :=
    (s.accounts.db.names_allowed x hx).resolve_left hne
  have hmem : ∀ y, y ∈ (s.accounts.db.deleteUser x.name hallowed).users ↔
      y ∈ s.accounts.db.users ∧ y.name ≠ x.name := by
    intro y
    simp [Database.deleteUser]
  have hid : s.accounts.db.userID x.name = some x.id :=
    Database.userID_eq_some_iff.mpr ⟨x, hx, rfl, rfl⟩
  simp only [removeUserTx, hallowed, dif_pos, hid]
  cases foreignKeys with
  | true =>
      refine ⟨_, rfl, hmem, fun t ht => ?_, rfl, rfl⟩
      obtain ⟨ht, hother⟩ := Table.mem_delete_iff.mp ht
      exact ⟨ht, fun _ => of_decide_eq_false hother⟩
  | false =>
      exact ⟨_, rfl, hmem, fun t ht => ⟨ht, fun h => by cases h⟩, rfl, rfl⟩

theorem exists_removeStale
    {rows : List User} {s : Store}
    (hnodup : (rows.map User.name).Nodup)
    (hrows : ∀ r ∈ rows, r ∈ s.accounts.db.users) :
    ∃ s', removeStale conf foreignKeys s rows = .ok s' ∧
      (∀ y, y ∈ s'.accounts.db.users ↔ y ∈ s.accounts.db.users ∧
        ∀ r ∈ rows, isStale conf r = true → y.name ≠ r.name) ∧
      (∀ t ∈ s'.tokens, t ∈ s.tokens ∧ (foreignKeys = true →
        ∀ r ∈ rows, isStale conf r = true → t.userId ≠ r.id)) ∧
      s'.accounts.pass = s.accounts.pass ∧
      s'.accounts.deleted = s.accounts.deleted := by
  induction rows generalizing s with
  | nil =>
      exact ⟨s, rfl, fun y => by simp, fun t ht => ⟨ht, by simp⟩, rfl, rfl⟩
  | cons r rest ih =>
      rw [List.map_cons, List.nodup_cons] at hnodup
      simp only [removeStale]
      split
      case isTrue hstale =>
        have hne : r.name ≠ everyone := by
          simp only [isStale, Bool.and_eq_true, decide_eq_true_eq] at hstale
          exact hstale.1.1
        have hone : ∃ s₁, removeUserTx foreignKeys s r.name = .ok s₁ ∧ _ :=
          exists_removeUserTx (hrows r List.mem_cons_self) hne
        obtain ⟨s₁, hremove, husers, htokens, hpass, hdeleted⟩ := hone
        have hrest : ∀ q ∈ rest, q ∈ s₁.accounts.db.users := by
          intro q hq
          refine (husers q).mpr ⟨hrows q (List.mem_cons_of_mem r hq), fun h => ?_⟩
          exact hnodup.1 (List.mem_map.mpr ⟨q, hq, h⟩)
        obtain ⟨s', hs', husers', htokens', hpass', hdeleted'⟩ :=
          ih hnodup.2 hrest
        refine ⟨s', by rw [hremove]; exact hs', fun y => ?_, fun t ht => ?_,
          hpass'.trans hpass, hdeleted'.trans hdeleted⟩
        · rw [husers', husers]
          constructor
          · rintro ⟨⟨hy, hname⟩, hrest⟩
            refine ⟨hy, fun q hq hq' => ?_⟩
            rcases List.mem_cons.mp hq with rfl | hq
            · exact hname
            · exact hrest q hq hq'
          · rintro ⟨hy, hall⟩
            exact ⟨⟨hy, hall r List.mem_cons_self hstale⟩,
              fun q hq => hall q (List.mem_cons_of_mem r hq)⟩
        · obtain ⟨ht₁, hrest⟩ := htokens' t ht
          obtain ⟨ht₀, hfirst⟩ := htokens t ht₁
          refine ⟨ht₀, fun hfk q hq hq' => ?_⟩
          rcases List.mem_cons.mp hq with rfl | hq
          · exact hfirst hfk
          · exact hrest hfk q hq hq'
      case isFalse hstale =>
        obtain ⟨s', hs', husers', htokens', hframe⟩ :=
          ih hnodup.2 (fun q hq => hrows q (List.mem_cons_of_mem r hq))
        refine ⟨s', hs', fun y => ?_, fun t ht => ?_, hframe⟩
        · rw [husers']
          refine and_congr_right fun _ => ?_
          constructor
          · intro hrest q hq hq'
            rcases List.mem_cons.mp hq with rfl | hq
            · exact absurd hq' hstale
            · exact hrest q hq hq'
          · exact fun hall q hq => hall q (List.mem_cons_of_mem r hq)
        · obtain ⟨ht₀, hrest⟩ := htokens' t ht
          refine ⟨ht₀, fun hfk q hq hq' => ?_⟩
          rcases List.mem_cons.mp hq with rfl | hq
          · exact absurd hq' hstale
          · exact hrest hfk q hq hq'

/-- Nothing is removed if nothing is stale. -/
theorem removeStale_of_none
    {rows : List User} {s : Store}
    (h : ∀ r ∈ rows, isStale conf r = false) :
    removeStale conf foreignKeys s rows = .ok s := by
  induction rows with
  | nil =>
      rfl
  | cons r rest ih =>
      rw [removeStale, h r List.mem_cons_self]
      exact ih fun q hq => h q (List.mem_cons_of_mem r hq)

/-- Users are looked up among rows that were updated without a change of names. -/
theorem user_of_modify
    {db db' : Database} {f : User → User}
    (hrows : db'.users.rows = db.users.rows.map f)
    (hname : ∀ u, (f u).name = u.name)
    (username : String) :
    db'.user username = (db.user username).map f := by
  simp only [Database.user, hrows, List.find?_map]
  have hp : (fun u : User => decide (u.name = username)) ∘ f =
      fun u => decide (u.name = username) := by
    funext u
    simp [hname]
  rw [hp]

/-- An update of one user. -/
theorem user_of_modify_name
    {db db' : Database} {x : User} {f : User → User}
    (hx : db.user x.name = some x)
    (hrows : db'.users.rows =
      db.users.rows.map (fun u => if u.name = x.name then f u else u))
    (hname : ∀ u, (f u).name = u.name) :
    db'.user = Function.update db.user x.name (some (f x)) := by
  funext username
  have hkeep : ∀ u : User, (if u.name = x.name then f u else u).name = u.name := by
    intro u
    split
    · exact hname u
    · rfl
  rw [user_of_modify hrows hkeep]
  by_cases h : username = x.name
  · subst h
    simp [hx]
  · rw [Function.update_of_ne h]
    cases hu : db.user username with
    | none =>
        rfl
    | some u =>
        have hne : u.name ≠ x.name := by
          rw [(Database.user_eq_some_iff.mp hu).2]
          exact h
        simp [hne]

/-- What a user of the configuration becomes. -/
def expectedUser
    (draws : Draws)
    (s₀ : Accounts)
    (u : ConfigUser) : User :=
  match s₀.db.user u.name with
  | some x => { x with role := u.role, provisioned := true }
  | none => newUser (draws.userID u.name) u.name u.role true

/-- The account of one user was written. -/
structure Wrote
    (x : User)
    (hash : String)
    (s s' : Accounts) : Prop where
  user : s'.db.user = Function.update s.db.user x.name (some x)
  pass : s'.pass x.id = hash
  otherPass : ∀ id, id ≠ x.id → s'.pass id = s.pass id
  deleted : s.deleted x.id = false → s'.deleted x.id = false
  otherDeleted : ∀ id, id ≠ x.id → s'.deleted id = s.deleted id

theorem exists_updateExisting
    {s₀ s : Accounts} {x : User} {u : ConfigUser}
    (hvalid : allowedUsername u.name = true ∧ allowedRole u.role = true ∧
      validPasswordHash b u.hash = .ok ())
    (hname : x.name = u.name)
    (hx : s.db.user x.name = some x)
    (hpass : s.pass x.id = s₀.pass x.id) :
    ∃ s', updateExisting b s₀ x s u = .ok s' ∧
      Wrote { x with role := u.role, provisioned := true } u.hash s s' := by
  obtain ⟨hallowed, hrole, hhash⟩ := hvalid
  unfold updateExisting
  -- the flag
  generalize hs₁ :
    (if !x.provisioned then changeProvisionedTx s u.name true else s) = s₁
  have hflag : s₁.db.user = Function.update s.db.user x.name
      (some { x with provisioned := true }) ∧
        s₁.pass = s.pass ∧ s₁.deleted = s.deleted := by
    subst hs₁
    cases hflag : x.provisioned with
    | false =>
        refine ⟨?_, rfl, rfl⟩
        refine user_of_modify_name (f := fun v => { v with provisioned := true })
          hx ?_ (fun _ => rfl)
        rw [hname]
        rfl
    | true =>
        refine ⟨?_, rfl, rfl⟩
        have hsame : { x with provisioned := true } = x := by
          rw [← hflag]
        rw [hsame, ← hx, Function.update_eq_self]
        rfl
  obtain ⟨huser₁, hpass₁, hdeleted₁⟩ := hflag
  -- the password
  have hhashed : ∃ s₂, updateHash b s₀ x u s₁ = .ok s₂ ∧
      s₂.db = s₁.db ∧ s₂.pass x.id = u.hash ∧
      (∀ id, id ≠ x.id → s₂.pass id = s.pass id) ∧ s₂.deleted = s.deleted := by
    have hid : s₁.db.userID u.name = some x.id := by
      simp [Database.userID, huser₁, hname]
    unfold updateHash
    split
    case isTrue hne =>
      refine ⟨{ s₁ with pass := Function.update s₁.pass x.id u.hash }, ?_, rfl, ?_,
        fun id hne => ?_, hdeleted₁⟩
      · simp only [changePasswordTx, hhash, hid]
        rfl
      · exact Function.update_self _ _ _
      · exact (Function.update_of_ne hne _ _).trans (congrFun hpass₁ id)
    case isFalse heq =>
      refine ⟨s₁, rfl, rfl, ?_, fun id _ => congrFun hpass₁ id, hdeleted₁⟩
      rw [hpass₁, hpass]
      exact not_not.mp heq
  obtain ⟨s₂, hs₂, hdb₂, hpass₂, hother₂, hdeleted₂⟩ := hhashed
  have huser₂ : s₂.db.user = Function.update s.db.user x.name
      (some { x with provisioned := true }) := by
    rw [hdb₂, huser₁]
  have hdeleted : s.deleted x.id = false → s₂.deleted x.id = false := by
    rw [hdeleted₂]
    exact id
  change ∃ s', (updateHash b s₀ x u s₁).bind (updateRole x u) = .ok s' ∧ _
  rw [hs₂]
  change ∃ s', updateRole x u s₂ = .ok s' ∧ _
  -- the role
  unfold updateRole
  split
  case isTrue hne =>
    have hupdate : (s₂.db.updateUserRole u.name u.role).user =
        Function.update s₂.db.user x.name
          (some { x with role := u.role, provisioned := true }) := by
      have hx₂ : s₂.db.user { x with provisioned := true }.name =
          some { x with provisioned := true } := by
        rw [huser₂]
        exact Function.update_self _ _ _
      refine user_of_modify_name (f := fun v => { v with role := u.role }) hx₂ ?_
        (fun _ => rfl)
      rw [← hname]
      rfl
    have hfinal : Function.update s₂.db.user x.name
        (some { x with role := u.role, provisioned := true }) =
          Function.update s.db.user x.name
            (some { x with role := u.role, provisioned := true }) := by
      rw [huser₂, Function.update_idem]
    simp only [changeRoleTx, hallowed, hrole, Bool.not_true, Bool.or_self,
      Bool.false_eq_true, if_false]
    refine ⟨_, rfl, ?_, hpass₂, hother₂, hdeleted, fun id _ => congrFun hdeleted₂ id⟩
    refine Eq.trans ?_ (hupdate.trans hfinal)
    dsimp only
    split <;> rfl
  case isFalse heq =>
    have hsame : { x with role := u.role, provisioned := true } =
        { x with provisioned := true } := by
      rw [← not_not.mp heq]
    refine ⟨s₂, rfl, ?_⟩
    rw [hsame]
    exact ⟨huser₂, hpass₂, hother₂, hdeleted, fun id _ => congrFun hdeleted₂ id⟩

/-- A user of the configuration is written. -/
theorem exists_provisionUser
    {s₀ s : Accounts} {u : ConfigUser}
    (hvalid : allowedUsername u.name = true ∧ allowedRole u.role = true ∧
      validPasswordHash b u.hash = .ok ())
    (hsame : s.db.user u.name = s₀.db.user u.name)
    (hpass : ∀ x, s₀.db.user u.name = some x → s.pass x.id = s₀.pass x.id)
    (hfresh : s₀.db.user u.name = none →
      ∀ x ∈ s.db.users, x.id ≠ draws.userID u.name) :
    ∃ s', provisionUser b draws s₀ s u = .ok s' ∧
      Wrote (expectedUser draws s₀ u) u.hash s s' ∧
      (s₀.db.user u.name = none → s'.deleted (draws.userID u.name) = false) := by
  have hne : u.name ≠ everyone := by
    intro h
    have hallowed := hvalid.1
    rw [h, not_allowedUsername_everyone] at hallowed
    cases hallowed
  simp only [provisionUser, if_neg hne]
  cases hx : s₀.db.user u.name with
  | some x =>
      have hname := (Database.user_eq_some_iff.mp hx).2
      have hold : s.db.user x.name = some x := by
        rw [hname, hsame, hx]
      have hupdate : ∃ s', updateExisting b s₀ x s u = .ok s' ∧
          Wrote { x with role := u.role, provisioned := true } u.hash s s' :=
        exists_updateExisting hvalid hname hold (hpass x hx)
      obtain ⟨s', hs', hwrote⟩ := hupdate
      refine ⟨s', hs', ?_, fun h => by cases h⟩
      simpa only [expectedUser, hx] using hwrote
  | none =>
      have hnone : s.db.user u.name = none := hsame.trans hx
      have hfree : s.db.insertable (draws.userID u.name) u.name :=
        ⟨hnone, Table.find?_eq_none_iff.mpr (hfresh hx)⟩
      have hsome : (s.db.user u.name).isSome = false := by
        rw [hnone]
        rfl
      have hok : allowedUsername u.name = true ∧ allowedRole u.role = true :=
        ⟨hvalid.1, hvalid.2.1⟩
      simp only [addUserTx, hok, and_self, dif_pos, hvalid.2.2, hsome,
        Bool.false_eq_true, if_false, hfree]
      refine ⟨_, rfl, ?_, fun _ => Function.update_self _ _ _⟩
      have hexpected : expectedUser draws s₀ u =
          newUser (draws.userID u.name) u.name u.role true := by
        simp only [expectedUser, hx]
      rw [hexpected]
      refine ⟨?_, Function.update_self _ _ _,
        fun id hne => Function.update_of_ne hne _ _,
        fun _ => Function.update_self _ _ _,
        fun id hne => Function.update_of_ne hne _ _⟩
      funext username
      have hlookup := Database.user_insertUser
        (u := newUser (draws.userID u.name) u.name u.role true) hvalid.1 hfree
        username
      refine hlookup.trans ?_
      by_cases h : username = u.name
      · subst h
        simp [newUser]
      · simp [newUser, h]

theorem expectedUser_name
    (draws : Draws) (s₀ : Accounts) (u : ConfigUser) :
    (expectedUser draws s₀ u).name = u.name := by
  cases hx : s₀.db.user u.name with
  | some x =>
      simp only [expectedUser, hx]
      exact (Database.user_eq_some_iff.mp hx).2
  | none =>
      simp only [expectedUser, hx]
      rfl

theorem expectedUser_id_of_some
    {s₀ : Accounts} {u : ConfigUser} {x : User}
    (hx : s₀.db.user u.name = some x) :
    (expectedUser draws s₀ u).id = x.id := by
  simp only [expectedUser, hx]

theorem expectedUser_id_of_none
    {s₀ : Accounts} {u : ConfigUser}
    (hx : s₀.db.user u.name = none) :
    (expectedUser draws s₀ u).id = draws.userID u.name := by
  simp only [expectedUser, hx]
  rfl

/-- The users of the list are written, and no others. -/
theorem exists_provisionUsers
    {us : List ConfigUser} {s₀ s : Accounts}
    (hnodup : (us.map ConfigUser.name).Nodup)
    (hvalid : ∀ u ∈ us, allowedUsername u.name = true ∧
      allowedRole u.role = true ∧ validPasswordHash b u.hash = .ok ())
    (hids : ∀ u ∈ us, ∀ v ∈ us,
      (expectedUser draws s₀ u).id = (expectedUser draws s₀ v).id → u = v)
    (hsame : ∀ u ∈ us, s.db.user u.name = s₀.db.user u.name)
    (hpass : ∀ u ∈ us, ∀ x, s₀.db.user u.name = some x →
      s.pass x.id = s₀.pass x.id ∧ s.deleted x.id = false)
    (hfresh : ∀ u ∈ us, s₀.db.user u.name = none →
      ∀ x ∈ s.db.users, x.id ≠ draws.userID u.name) :
    ∃ s', provisionUsers b draws s₀ s us = .ok s' ∧
      (∀ u ∈ us, s'.db.user u.name = some (expectedUser draws s₀ u) ∧
        s'.pass (expectedUser draws s₀ u).id = u.hash ∧
        s'.deleted (expectedUser draws s₀ u).id = false) ∧
      (∀ n, n ∉ us.map ConfigUser.name → s'.db.user n = s.db.user n) ∧
      ∀ id, (∀ u ∈ us, id ≠ (expectedUser draws s₀ u).id) →
        s'.pass id = s.pass id ∧ s'.deleted id = s.deleted id := by
  induction us generalizing s with
  | nil =>
      exact ⟨s, rfl, by simp, fun _ _ => rfl, fun _ _ => ⟨rfl, rfl⟩⟩
  | cons u rest ih =>
      rw [List.map_cons, List.nodup_cons] at hnodup
      have hu : u ∈ u :: rest := List.mem_cons_self
      have hmem : ∀ v ∈ rest, v ∈ u :: rest := fun v hv => List.mem_cons_of_mem u hv
      have hne : ∀ v ∈ rest, v.name ≠ u.name := by
        intro v hv h
        exact hnodup.1 (List.mem_map.mpr ⟨v, hv, h⟩)
      have hneID : ∀ v ∈ rest,
          (expectedUser draws s₀ v).id ≠ (expectedUser draws s₀ u).id := by
        intro v hv h
        exact hne v hv (congrArg ConfigUser.name (hids v (hmem v hv) u hu h))
      obtain ⟨s₁, hs₁, hwrote, hnew⟩ := exists_provisionUser (b := b) (hvalid u hu)
        (hsame u hu) (fun x hx => (hpass u hu x hx).1) (hfresh u hu)
      have huser : ∀ n, n ≠ u.name → s₁.db.user n = s.db.user n := by
        intro n hn
        rw [hwrote.user, expectedUser_name, Function.update_of_ne hn]
      have hself : s₁.db.user u.name = some (expectedUser draws s₀ u) := by
        rw [hwrote.user, expectedUser_name, Function.update_self]
      have hdeleted : s₁.deleted (expectedUser draws s₀ u).id = false := by
        cases hx : s₀.db.user u.name with
        | some x =>
            refine hwrote.deleted ?_
            rw [expectedUser_id_of_some hx]
            exact (hpass u hu x hx).2
        | none =>
            rw [expectedUser_id_of_none hx]
            exact hnew hx
      have hrest := ih hnodup.2 (fun v hv => hvalid v (hmem v hv))
        (fun v hv w hw => hids v (hmem v hv) w (hmem w hw))
        (fun v hv => (huser v.name (hne v hv)).trans (hsame v (hmem v hv)))
        (fun v hv x hx => by
          have hother : x.id ≠ (expectedUser draws s₀ u).id := by
            have hid : (expectedUser draws s₀ v).id = x.id :=
              expectedUser_id_of_some hx
            rw [← hid]
            exact hneID v hv
          rw [hwrote.otherPass x.id hother, hwrote.otherDeleted x.id hother]
          exact hpass v (hmem v hv) x hx)
        (fun v hv hx x hmem₁ => by
          have hlookup : s₁.db.user x.name = some x :=
            Database.user_eq_some_iff.mpr ⟨hmem₁, rfl⟩
          by_cases h : x.name = u.name
          · rw [h, hself] at hlookup
            rw [← Option.some.inj hlookup, ← expectedUser_id_of_none hx]
            exact (hneID v hv).symm
          · rw [huser x.name h] at hlookup
            exact hfresh v (hmem v hv) hx x (Database.user_eq_some_iff.mp hlookup).1)
      obtain ⟨s', hs', hlisted, hothers, hframe⟩ := hrest
      refine ⟨s', ?_, ?_, fun n hn => ?_, fun id hid => ?_⟩
      · simp only [provisionUsers, hs₁]
        exact hs'
      · intro v hv
        rcases List.mem_cons.mp hv with rfl | hv
        · obtain ⟨hp, hd⟩ := hframe (expectedUser draws s₀ v).id
            (fun w hw => (hneID w hw).symm)
          exact ⟨(hothers v.name hnodup.1).trans hself, hp.trans hwrote.pass,
            hd.trans hdeleted⟩
        · exact hlisted v hv
      · rw [List.map_cons, List.mem_cons, not_or] at hn
        exact (hothers n hn.2).trans (huser n hn.1)
      · obtain ⟨hp, hd⟩ := hframe id (fun v hv => hid v (hmem v hv))
        exact ⟨hp.trans (hwrote.otherPass id (hid u hu)),
          hd.trans (hwrote.otherDeleted id (hid u hu))⟩

/-- The users after their part of a run. -/
structure UsersDone
    (conf : Config)
    (foreignKeys : Bool)
    (draws : Draws)
    (s s' : Store) : Prop where
  listed :
    ∀ u ∈ conf.users,
      s'.accounts.db.user u.name = some (expectedUser draws s.accounts u) ∧
      s'.accounts.pass (expectedUser draws s.accounts u).id = u.hash ∧
      s'.accounts.deleted (expectedUser draws s.accounts u).id = false
  others :
    ∀ x, x.name ∉ conf.users.map ConfigUser.name →
      (x ∈ s'.accounts.db.users ↔
        x ∈ s.accounts.db.users ∧ isStale conf x = false)
  tokens : ∀ t ∈ s'.tokens, t ∈ s.tokens ∧ ¬ GoesWithUser conf foreignKeys s t

theorem isStale_of_listed
    {x : User}
    (h : x.name ∈ conf.users.map ConfigUser.name) :
    isStale conf x = false := by
  simp only [isStale, h, decide_true, Bool.not_true, Bool.and_false]

theorem userID_eq_none_of_user
    {db : Database} {username : String}
    (h : db.user username = none) :
    db.userID username = none := by
  rw [Database.userID, h]
  rfl

/-- Different users of the configuration get different IDs. -/
theorem expectedUser_id_injective
    {s : Store}
    (hvalid : Valid b conf)
    (happ : Applicable conf foreignKeys draws s) :
    ∀ u ∈ conf.users, ∀ v ∈ conf.users,
      (expectedUser draws s.accounts u).id =
        (expectedUser draws s.accounts v).id → u = v := by
  intro u hu v hv hid
  have hold : ∀ w ∈ conf.users, ∀ x, s.accounts.db.user w.name = none →
      x ∈ s.accounts.db.users → x.id ≠ draws.userID w.name := by
    intro w hw x hnone hx
    exact (happ.fresh w hw (userID_eq_none_of_user hnone)).1 x hx
  cases hx : s.accounts.db.user u.name with
  | some x =>
      obtain ⟨hxmem, hxname⟩ := Database.user_eq_some_iff.mp hx
      rw [expectedUser_id_of_some hx] at hid
      cases hy : s.accounts.db.user v.name with
      | some y =>
          obtain ⟨hymem, hyname⟩ := Database.user_eq_some_iff.mp hy
          rw [expectedUser_id_of_some hy] at hid
          have hsame : x = y := Table.eq_of_key_eq hxmem hymem hid
          refine List.inj_on_of_nodup_map hvalid.names hu hv ?_
          rw [← hxname, ← hyname, hsame]
      | none =>
          rw [expectedUser_id_of_none hy] at hid
          exact absurd hid (hold v hv x hy hxmem)
  | none =>
      rw [expectedUser_id_of_none hx] at hid
      cases hy : s.accounts.db.user v.name with
      | some y =>
          obtain ⟨hymem, -⟩ := Database.user_eq_some_iff.mp hy
          rw [expectedUser_id_of_some hy] at hid
          exact absurd hid.symm (hold u hu y hx hymem)
      | none =>
          rw [expectedUser_id_of_none hy] at hid
          exact (happ.fresh v hv (userID_eq_none_of_user hy)).2 u hu
            (userID_eq_none_of_user hx) hid

theorem exists_maybeProvisionUsers
    {s : Store}
    (hvalid : Valid b conf)
    (happ : Applicable conf foreignKeys draws s) :
    ∃ s', maybeProvisionUsers b conf foreignKeys draws s = .ok s' ∧
      UsersDone conf foreignKeys draws s s' := by
  have hstale : ∃ s₁, removeStale conf foreignKeys s s.accounts.db.users.rows =
      .ok s₁ ∧ _ :=
    exists_removeStale s.accounts.db.names_nodup (fun r hr => hr)
  obtain ⟨s₁, hs₁, husers, htokens, hpass, hdeleted⟩ := hstale
  have hmem : ∀ y, y ∈ s₁.accounts.db.users ↔
      y ∈ s.accounts.db.users ∧ isStale conf y = false := by
    intro y
    rw [husers]
    refine and_congr_right fun hy => ?_
    constructor
    · intro hall
      by_contra h
      exact hall y hy (by simpa using h) rfl
    · intro hy' r hr hr' hname
      rw [Database.eq_of_name_eq hy hr hname, hr'] at hy'
      cases hy'
  have hlookup : ∀ u ∈ conf.users,
      s₁.accounts.db.user u.name = s.accounts.db.user u.name := by
    intro u hu
    apply Option.ext
    intro x
    rw [Database.user_eq_some_iff, Database.user_eq_some_iff, hmem]
    constructor
    · rintro ⟨⟨hx, -⟩, hname⟩
      exact ⟨hx, hname⟩
    · rintro ⟨hx, hname⟩
      refine ⟨⟨hx, isStale_of_listed ?_⟩, hname⟩
      exact List.mem_map.mpr ⟨u, hu, hname.symm⟩
  have hactive : ∀ u ∈ conf.users, ∀ x, s.accounts.db.user u.name = some x →
      s₁.accounts.pass x.id = s.accounts.pass x.id ∧
        s₁.accounts.deleted x.id = false := by
    intro u hu x hx
    refine ⟨congrFun hpass x.id, ?_⟩
    rw [hdeleted]
    refine happ.active u hu x.id ?_
    rw [Database.userID, hx]
    rfl
  have hfresh : ∀ u ∈ conf.users, s.accounts.db.user u.name = none →
      ∀ x ∈ s₁.accounts.db.users, x.id ≠ draws.userID u.name := by
    intro u hu hnone x hx
    exact (happ.fresh u hu (userID_eq_none_of_user hnone)).1 x ((hmem x).mp hx).1
  obtain ⟨accounts, haccounts, hlisted, hothers, -⟩ := exists_provisionUsers
    hvalid.names hvalid.users (expectedUser_id_injective hvalid happ) hlookup
    hactive hfresh
  refine ⟨{ s₁ with accounts }, ?_, hlisted, fun x hx => ?_, fun t ht => ?_⟩
  · unfold maybeProvisionUsers
    rw [hs₁]
    change (provisionUsers b draws s.accounts s₁.accounts conf.users >>= _) = _
    rw [haccounts]
    rfl
  · have hsame := hothers x.name hx
    rw [← hmem]
    constructor
    · intro h
      have hfound := Database.user_eq_some_iff.mpr ⟨h, rfl⟩
      rw [hsame] at hfound
      exact (Database.user_eq_some_iff.mp hfound).1
    · intro h
      have hfound : s₁.accounts.db.user x.name = some x :=
        Database.user_eq_some_iff.mpr ⟨h, rfl⟩
      rw [← hsame] at hfound
      exact (Database.user_eq_some_iff.mp hfound).1
  · obtain ⟨ht₀, hrest⟩ := htokens t ht
    refine ⟨ht₀, ?_⟩
    rintro ⟨hfk, x, hx, hx', hid⟩
    exact hrest hfk x hx hx' hid.symm

/-- Users who are as they should be are left alone. -/
theorem maybeProvisionUsers_of_done
    {s : Store}
    (hnames : ∀ u ∈ conf.users, u.name ≠ everyone)
    (hlisted : ∀ u ∈ conf.users, ∃ x, s.accounts.db.user u.name = some x ∧
      x.provisioned = true ∧ s.accounts.pass x.id = u.hash ∧ x.role = u.role)
    (hstale : ∀ x ∈ s.accounts.db.users, isStale conf x = false) :
    maybeProvisionUsers b conf foreignKeys draws s = .ok s := by
  have hloop : ∀ us : List ConfigUser, (∀ u ∈ us, u ∈ conf.users) →
      provisionUsers b draws s.accounts s.accounts us = .ok s.accounts := by
    intro us hus
    induction us with
    | nil =>
        rfl
    | cons u rest ih =>
        have hu := hus u List.mem_cons_self
        obtain ⟨x, hx, hflag, hpass, hrole⟩ := hlisted u hu
        have hone : provisionUser b draws s.accounts s.accounts u =
            .ok s.accounts := by
          simp only [provisionUser, if_neg (hnames u hu), hx, updateExisting,
            hflag, Bool.not_true, Bool.false_eq_true, if_false, updateHash,
            hpass, ne_eq, not_true_eq_false]
          change updateRole x u s.accounts = _
          rw [updateRole, if_neg (not_not.mpr hrole)]
        simp only [provisionUsers, hone]
        exact ih fun v hv => hus v (List.mem_cons_of_mem u hv)
  unfold maybeProvisionUsers
  rw [removeStale_of_none hstale]
  change (provisionUsers b draws s.accounts s.accounts conf.users >>= _) = _
  rw [hloop conf.users fun u hu => hu]
  rfl

end Users

end Provisioning
end Manager
end CoopMessenger
