import CoopMessenger.Manager.Database

/-!
# Accounts and passwords

`AddUser`, `ChangePassword`, `ChangeTier` and `Authenticate` of
`user/manager.go`.  The columns `pass` and `deleted` of the user table are kept
beside the database, by user ID.  The password hash is a parameter.

**Results.**
* `noEmptyPassword_addUser_iff`: when a new account cannot be entered with the
  empty password.
* `noEmptyPassword_changePassword_iff`: the same for a changed password.
-/

namespace CoopMessenger
namespace Manager

open Library

section Hashes

/--
Package `bcrypt` at the configured cost.  The first argument of
`generateFromPassword` is the random salt.
-/
structure Bcrypt where
  generateFromPassword : Vector UInt8 16 → String → Option String
  compareHashAndPassword : String → String → Bool
  cost : String → Option Nat
  minCost : Nat

/--
What is documented about the package: passwords up to 72 bytes have a hash, and
a hash is that of one password.
-/
structure Bcrypt.Lawful (b : Bcrypt) : Prop where
  isSome_generate :
    ∀ salt password,
      (b.generateFromPassword salt password).isSome
        ↔
      password.utf8ByteSize ≤ 72
  compare_generate :
    ∀ salt password hash,
      b.generateFromPassword salt password = some hash →
      ∀ other,
        b.compareHashAndPassword hash other = true ↔ other = password

/-- Checks if the given password hash is a valid bcrypt hash. -/
def validPasswordHash
    (b : Bcrypt)
    (hash : String) : Except Error Unit :=
  if !"$2a$".toList.isPrefixOf hash.toList &&
      !"$2b$".toList.isPrefixOf hash.toList &&
      !"$2y$".toList.isPrefixOf hash.toList then
    .error .passwordHashInvalid
  else
    match b.cost hash with
    | none => .error .bcrypt
    | some cost =>
        if cost < b.minCost then
          .error .passwordHashWeak
        else
          .ok ()

/-- Hashes the password. -/
def hashPassword
    (b : Bcrypt)
    (salt : Vector UInt8 16)
    (password : String) : Except Error String :=
  match b.generateFromPassword salt password with
  | none => .error .bcrypt
  | some hash => .ok hash

/-- The value of the column `pass` for a password or, if `hashed`, a hash. -/
def passColumn
    (b : Bcrypt)
    (salt : Vector UInt8 16)
    (password : String)
    (hashed : Bool) : Except Error String :=
  if hashed then
    match validPasswordHash b password with
    | .error e => .error e
    | .ok () => .ok password
  else
    hashPassword b salt password

variable {b : Bcrypt}
variable {salt : Vector UInt8 16}
variable {password hash : String}

/-- The empty password has a hash. -/
theorem passColumn_empty
    (hb : b.Lawful) :
    ∃ hash, passColumn b salt "" false = .ok hash := by
  have hsome : (b.generateFromPassword salt "").isSome = true :=
    (hb.isSome_generate salt "").mpr (by decide)
  obtain ⟨hash, hgen⟩ := Option.isSome_iff_exists.mp hsome
  exact ⟨hash, by simp [passColumn, hashPassword, hgen]⟩

/-- A plain password is accepted by its own hash only. -/
theorem compare_passColumn
    (hb : b.Lawful)
    (h : passColumn b salt password false = .ok hash)
    (other : String) :
    b.compareHashAndPassword hash other = true ↔ other = password := by
  simp only [passColumn, Bool.false_eq_true, if_false, hashPassword] at h
  cases hgen : b.generateFromPassword salt password with
  | none =>
      simp [hgen] at h
  | some hash' =>
      simp only [hgen, Except.ok.injEq] at h
      subst h
      exact hb.compare_generate salt password hash' hgen other

/-- A supplied hash is stored as it is. -/
theorem passColumn_hashed
    (h : passColumn b salt password true = .ok hash) :
    hash = password := by
  simp only [passColumn, if_true] at h
  cases hv : validPasswordHash b password with
  | error e =>
      simp [hv] at h
  | ok _ =>
      simpa [hv] using h.symm

end Hashes

section Model

/-- A row of `tier`, as far as accounts need it. -/
structure TierRow where
  code : String
  tier : Tier
deriving DecidableEq, Repr

/--
The user database with the columns `pass` and `deleted` of its users, by ID, and
the tiers.
-/
structure Accounts where
  db : Database
  pass : String → String
  deleted : String → Bool
  tiers : Table TierRow.code

namespace Database

/-- Can this user be inserted: neither the name nor the ID is taken. -/
def insertable
    (db : Database)
    (id username : String) : Prop :=
  db.user username = none ∧ db.users.find? id = none

instance decidableInsertable
    (db : Database)
    (id username : String) :
    Decidable (db.insertable id username) :=
  inferInstanceAs
    (Decidable (db.user username = none ∧ db.users.find? id = none))

/-- `INSERT INTO user ...`, with the empty profile of the user. -/
def insertUser
    (db : Database)
    (u : User)
    (hname : allowedUsername u.name = true)
    (h : db.insertable u.id u.name) : Database where
  users :=
    { rows := db.users.rows ++ [u]
      nodup := by
        rw [List.map_append, List.map_singleton]
        refine db.users.nodup.append (List.nodup_singleton _) ?_
        have hfree := Table.find?_eq_none_iff.mp h.2
        simpa [List.Disjoint, Table.mem_def] using hfree }
  names_nodup := by
    rw [List.map_append, List.map_singleton]
    refine db.names_nodup.append (List.nodup_singleton _) ?_
    have hfree := List.find?_eq_none.mp h.1
    simpa [List.Disjoint] using hfree
  names_allowed := by
    intro v hv
    rcases List.mem_append.mp hv with hv | hv
    · exact db.names_allowed v hv
    · rw [List.mem_singleton] at hv
      subst hv
      exact Or.inr hname
  everyone_row := by
    obtain ⟨v, hv, hrow⟩ := db.everyone_row
    exact ⟨v, List.mem_append_left _ hv, hrow⟩
  access := db.access
  topicMeta := db.topicMeta
  contacts := db.contacts
  profiles :=
    db.profiles.upsert ⟨u.id, .request⟩ id (fun _ => rfl)

/-- The IDs after an insert. -/
theorem userID_insertUser
    {db : Database} {u : User}
    (hname : allowedUsername u.name = true)
    (h : db.insertable u.id u.name)
    (username : String) :
    (db.insertUser u hname h).userID username =
      if username = u.name then some u.id else db.userID username := by
  simp only [userID, user, insertUser, List.find?_append]
  split
  case isTrue heq =>
    subst heq
    have hnone : db.users.rows.find?
        (fun v => decide (v.name = u.name)) = none := h.1
    simp [hnone]
  case isFalse hne =>
    simp [Ne.symm hne]

/-- The ID of the new user was no one's. -/
theorem userID_ne_of_insertable
    {db : Database} {id username name : String}
    (h : db.insertable id username) :
    db.userID name ≠ some id := by
  intro hid
  obtain ⟨u, hu, -, hid⟩ := userID_eq_some_iff.mp hid
  exact Table.find?_eq_none_iff.mp h.2 u hu hid

/-- `UPDATE user SET tier_id = ... WHERE user = ?` -/
def updateUserTier
    (db : Database)
    (username : String)
    (tier : Option Tier) : Database where
  users :=
    db.users.modify
      (fun u => if u.name = username then { u with tier } else u)
      (by intro u; split <;> rfl)
  names_nodup := by
    have hname :
        User.name ∘ (fun u : User =>
          if u.name = username then { u with tier } else u) = User.name := by
      funext u
      simp only [Function.comp_apply]
      split <;> rfl
    rw [Table.modify, List.map_map, hname]
    exact db.names_nodup
  names_allowed := by
    intro u hu
    obtain ⟨v, hv, rfl⟩ := List.mem_map.mp hu
    have hname := db.names_allowed v hv
    split <;> exact hname
  everyone_row := by
    obtain ⟨u, hu, hid, hname⟩ := db.everyone_row
    exact ⟨_, List.mem_map_of_mem hu, by split <;> exact hid,
      by split <;> exact hname⟩
  access := db.access
  topicMeta := db.topicMeta
  contacts := db.contacts
  profiles := db.profiles

/-- Names keep their IDs when rows are updated in other columns. -/
theorem userID_of_modify
    {db db' : Database} {f : User → User}
    (hrows : db'.users.rows = db.users.rows.map f)
    (hid : ∀ u, (f u).id = u.id)
    (hname : ∀ u, (f u).name = u.name) :
    db'.userID = db.userID := by
  funext username
  simp only [userID, user, hrows, List.find?_map, Option.map_map]
  have hp : (fun u : User => decide (u.name = username)) ∘ f =
      fun u => decide (u.name = username) := by
    funext u
    simp [hname]
  have hi : User.id ∘ f = User.id := funext hid
  rw [hp, hi]

/-- A tier changes no ID. -/
theorem userID_updateUserTier
    (db : Database)
    (username : String)
    (tier : Option Tier) :
    (db.updateUserTier username tier).userID = db.userID := by
  refine userID_of_modify rfl ?_ ?_
  all_goals
    intro u
    split <;> rfl

/-- A role changes no ID. -/
theorem userID_changeRole
    {db db' : Database} {username : String} {role : Role}
    (h : db.changeRole username role = .ok db') :
    db'.userID = db.userID := by
  have hrole :
      (db.updateUserRole username role).userID = db.userID := by
    refine userID_of_modify rfl ?_ ?_
    all_goals
      intro u
      split <;> rfl
  unfold changeRole at h
  split at h
  · cases h
  · split at h
    · cases h
    · split at h
      case isTrue =>
        simp only [Except.ok.injEq] at h
        subst h
        exact (userID_congr rfl).trans hrole
      case isFalse =>
        simp only [Except.ok.injEq] at h
        subst h
        exact hrole

end Database

namespace Accounts

/-- The row of a new user. -/
def newUser
    (id username : String)
    (role : Role) : User :=
  ⟨id, username, role, none, ⟨0, 0, 0⟩, false⟩

/-- Adds a user with the given username, password and role. -/
def addUser
    (b : Bcrypt)
    (s : Accounts)
    (salt : Vector UInt8 16)
    (id username password : String)
    (role : Role)
    (hashed : Bool) : Except Error Accounts :=
  if h : allowedUsername username = true ∧ allowedRole role = true then
    match passColumn b salt password hashed with
    | .error e => .error e
    | .ok hash =>
        if (s.db.user username).isSome then
          .error .userExists
        else if hfree : s.db.insertable id username then
          .ok
            { s with
              db := s.db.insertUser (newUser id username role) h.1 hfree
              pass := Function.update s.pass id hash
              deleted := Function.update s.deleted id false }
        else
          .error .database
  else
    .error .invalidArgument

/-- Changes a user's password. -/
def changePassword
    (b : Bcrypt)
    (s : Accounts)
    (salt : Vector UInt8 16)
    (username password : String)
    (hashed : Bool) : Except Error Accounts :=
  match s.db.canChangeUser username with
  | .error e => .error e
  | .ok () =>
      match passColumn b salt password hashed, s.db.userID username with
      | .error e, _ => .error e
      | .ok hash, some id =>
          .ok { s with pass := Function.update s.pass id hash }
      | .ok _, none => .ok s

/-- Checks username and password, and that the user is not deleted. -/
def authenticate
    (b : Bcrypt)
    (s : Accounts)
    (username password : String) : Except Error User :=
  if username = everyone then
    .error .unauthenticated
  else
    match s.db.user username with
    | none => .error .unauthenticated
    | some u =>
        if s.deleted u.id then
          .error .unauthenticated
        else if b.compareHashAndPassword (s.pass u.id) password then
          .ok u
        else
          .error .unauthenticated

/-- The tier with the given code. -/
def tier
    (s : Accounts)
    (code : String) : Except Error Tier :=
  match s.tiers.find? code with
  | none => .error .tierNotFound
  | some row => .ok row.tier

/-- A user may not have more reservations than a lower limit allows. -/
def checkReservationsLimit
    (s : Accounts)
    (username : String)
    (reservationsLimit : Nat) : Except Error Unit :=
  match s.db.user username with
  | none => .error .userNotFound
  | some u =>
      if u.tier.any (fun t => decide (reservationsLimit < t.reservationLimit))
          ∧ s.db.reservationsCount username > reservationsLimit then
        .error .tooManyReservations
      else
        .ok ()

/-- Changes a user's tier using the tier code. -/
def changeTier
    (s : Accounts)
    (username code : String) : Except Error Accounts :=
  if !allowedUsername username then
    .error .invalidArgument
  else
    match s.tier code with
    | .error e => .error e
    | .ok t =>
        match s.checkReservationsLimit username t.reservationLimit with
        | .error e => .error e
        | .ok () => .ok { s with db := s.db.updateUserTier username (some t) }

/-- Changes the role. -/
def changeRole
    (s : Accounts)
    (username : String)
    (role : Role) : Except Error Accounts :=
  match s.db.changeRole username role with
  | .error e => .error e
  | .ok db => .ok { s with db }

/-- Adds or updates an access entry without owner. -/
def allowAccess
    (s : Accounts)
    (username topicPattern : String)
    (permission : Permission) : Except Error Accounts :=
  match s.db.allowAccess username topicPattern permission with
  | .error e => .error e
  | .ok db => .ok { s with db }

section EmptyPassword

variable {b : Bcrypt}
variable {s s' : Accounts}

/-- No one can log in with the empty password. -/
def NoEmptyPassword
    (b : Bcrypt)
    (s : Accounts) : Prop :=
  ∀ username, ∃ e, authenticate b s username "" = .error e

/-- The stored hash of the account accepts the empty password. -/
def opensEmpty
    (b : Bcrypt)
    (s : Accounts)
    (id : String) : Bool :=
  !s.deleted id && b.compareHashAndPassword (s.pass id) ""

/-- Only `everyone` may have a row that accepts the empty password. -/
theorem noEmptyPassword_iff :
    NoEmptyPassword b s
      ↔
    ∀ username id, username ≠ everyone →
      s.db.userID username = some id → opensEmpty b s id = false := by
  constructor
  · intro h username id hne hid
    obtain ⟨u, hu, rfl⟩ := Option.map_eq_some_iff.mp hid
    obtain ⟨e, he⟩ := h username
    simp only [authenticate, hne, if_false, hu] at he
    by_cases hdel : s.deleted u.id
    · simp [opensEmpty, hdel]
    · by_cases hcmp : b.compareHashAndPassword (s.pass u.id) ""
      · simp [hdel, hcmp] at he
      · simp [opensEmpty, hcmp]
  · intro h username
    by_cases hne : username = everyone
    · exact ⟨.unauthenticated, by simp [authenticate, hne]⟩
    · cases hu : s.db.user username with
      | none =>
          exact ⟨.unauthenticated, by simp [authenticate, hne, hu]⟩
      | some u =>
          have hopen := h username u.id hne (by simp [Database.userID, hu])
          simp only [opensEmpty, Bool.and_eq_false_iff,
            Bool.not_eq_false'] at hopen
          refine ⟨.unauthenticated, ?_⟩
          rcases hopen with hdel | hcmp
          · simp [authenticate, hne, hu, hdel]
          · simp [authenticate, hne, hu, hcmp]

/-- The two states have the same names, IDs and password columns. -/
structure SameLogins (s s' : Accounts) : Prop where
  userID : s'.db.userID = s.db.userID
  pass : s'.pass = s.pass
  deleted : s'.deleted = s.deleted

theorem SameLogins.refl :
    SameLogins s s :=
  ⟨Eq.refl _, Eq.refl _, Eq.refl _⟩

theorem SameLogins.trans
    {t : Accounts}
    (h : SameLogins s s')
    (h' : SameLogins s' t) :
    SameLogins s t :=
  ⟨h'.userID.trans h.userID, h'.pass.trans h.pass,
    h'.deleted.trans h.deleted⟩

theorem SameLogins.noEmptyPassword_iff
    (h : SameLogins s s') :
    NoEmptyPassword b s' ↔ NoEmptyPassword b s := by
  simp only [Accounts.noEmptyPassword_iff, opensEmpty, h.userID, h.pass,
    h.deleted]

/-- A tier changes no login. -/
theorem sameLogins_changeTier
    {username code : String}
    (h : s.changeTier username code = .ok s') :
    SameLogins s s' := by
  unfold changeTier at h
  split at h
  · cases h
  · split at h
    · cases h
    · split at h
      · cases h
      · simp only [Except.ok.injEq] at h
        subst h
        exact ⟨Database.userID_updateUserTier s.db username _, rfl, rfl⟩

/-- A role changes no login. -/
theorem sameLogins_changeRole
    {username : String} {role : Role}
    (h : s.changeRole username role = .ok s') :
    SameLogins s s' := by
  unfold changeRole at h
  split at h
  case h_1 =>
    cases h
  case h_2 db hdb =>
    simp only [Except.ok.injEq] at h
    subst h
    exact ⟨Database.userID_changeRole hdb, rfl, rfl⟩

/-- A grant changes no login. -/
theorem sameLogins_allowAccess
    {username topicPattern : String} {permission : Permission}
    (h : s.allowAccess username topicPattern permission = .ok s') :
    SameLogins s s' := by
  unfold allowAccess at h
  split at h
  case h_1 =>
    cases h
  case h_2 db hdb =>
    simp only [Except.ok.injEq] at h
    subst h
    obtain ⟨_, _, _, husers, -⟩ := Database.allowAccess_eq_ok hdb
    exact ⟨Database.userID_congr husers, rfl, rfl⟩

/-- What a successful `addUser` has written. -/
theorem addUser_eq_ok
    {salt : Vector UInt8 16} {id username password : String}
    {role : Role} {hashed : Bool}
    (h : addUser b s salt id username password role hashed = .ok s') :
    ∃ hash,
      passColumn b salt password hashed = .ok hash ∧
      allowedUsername username = true ∧
      s.db.insertable id username ∧
      (∀ name, s'.db.userID name =
        if name = username then some id else s.db.userID name) ∧
      s'.pass = Function.update s.pass id hash ∧
      s'.deleted = Function.update s.deleted id false := by
  unfold addUser at h
  split at h
  case isFalse =>
    cases h
  case isTrue hok =>
    cases hp : passColumn b salt password hashed with
    | error e =>
        simp [hp] at h
    | ok hash =>
        simp only [hp] at h
        split at h
        · cases h
        · split at h
          case isFalse =>
            cases h
          case isTrue hfree =>
            simp only [Except.ok.injEq] at h
            subst h
            have hid :=
              Database.userID_insertUser (u := newUser id username role)
                hok.1 hfree
            exact ⟨hash, rfl, hok.1, hfree, hid, rfl, rfl⟩

/-- A new user has no access entries. -/
theorem access_addUser
    {salt : Vector UInt8 16} {id username password : String}
    {role : Role} {hashed : Bool}
    (h : addUser b s salt id username password role hashed = .ok s') :
    s'.db.access = s.db.access := by
  unfold addUser at h
  split at h
  case isFalse =>
    cases h
  case isTrue hok =>
    split at h
    · cases h
    · split at h
      · cases h
      · split at h
        · cases h
          rfl
        · cases h

/-- A plain password is enough for a new account whose name and ID are free. -/
theorem addUser_isOk
    {salt : Vector UInt8 16} {id username password hash : String}
    {role : Role}
    (hname : allowedUsername username = true)
    (hrole : allowedRole role = true)
    (hfree : s.db.insertable id username)
    (hp : passColumn b salt password false = .ok hash) :
    ∃ s', addUser b s salt id username password role false = .ok s' := by
  have hnone : (s.db.user username).isSome = false := by
    simp [hfree.1]
  simp only [addUser, hname, hrole, and_self, dif_pos, hp, hnone,
    Bool.false_eq_true, if_false, hfree]
  exact ⟨_, rfl⟩

/-- A new account lets no one in with the empty password if its hash does not. -/
theorem noEmptyPassword_addUser_iff
    {salt : Vector UInt8 16} {id username password : String}
    {role : Role} {hashed : Bool} {hash : String}
    (hs : NoEmptyPassword b s)
    (hp : passColumn b salt password hashed = .ok hash)
    (h : addUser b s salt id username password role hashed = .ok s') :
    NoEmptyPassword b s'
      ↔
    b.compareHashAndPassword hash "" = false := by
  obtain ⟨hash', hp', hname, hfree, hid, hpass, hdel⟩ := addUser_eq_ok h
  have heq : hash' = hash := by
    rw [hp] at hp'
    exact (Except.ok.inj hp').symm
  subst heq
  have hnew : opensEmpty b s' id = b.compareHashAndPassword hash' "" := by
    simp [opensEmpty, hpass, hdel]
  have hold : ∀ id', id' ≠ id → opensEmpty b s' id' = opensEmpty b s id' := by
    intro id' hne
    simp [opensEmpty, hpass, hdel, Function.update_of_ne hne]
  have hne : username ≠ everyone := by
    rintro rfl
    rw [not_allowedUsername_everyone] at hname
    cases hname
  rw [noEmptyPassword_iff] at hs ⊢
  constructor
  · intro hs'
    rw [← hnew]
    exact hs' username id hne (by simp [hid])
  · intro hcmp name id' hname' hid'
    rw [hid] at hid'
    split at hid'
    · simp only [Option.some.injEq] at hid'
      subst hid'
      rw [hnew, hcmp]
    · have hother : id' ≠ id := by
        rintro rfl
        exact Database.userID_ne_of_insertable hfree hid'
      rw [hold id' hother]
      exact hs name id' hname' hid'

/-- What a successful `changePassword` has written. -/
theorem changePassword_eq_ok
    {salt : Vector UInt8 16} {username password : String} {hashed : Bool}
    (h : changePassword b s salt username password hashed = .ok s') :
    ∃ u hash,
      s.db.user username = some u ∧ u.provisioned = false ∧
      passColumn b salt password hashed = .ok hash ∧
      s' = { s with pass := Function.update s.pass u.id hash } := by
  unfold changePassword at h
  split at h
  case h_1 =>
    cases h
  case h_2 hcan =>
    cases hu : s.db.user username with
    | none =>
        simp [Database.canChangeUser, hu] at hcan
    | some u =>
        have hprov : u.provisioned = false := by
          simpa [Database.canChangeUser, hu] using hcan
        simp only [Database.userID, hu, Option.map_some] at h
        split at h
        case h_1 =>
          cases h
        case h_2 hash id hp hid =>
          simp only [Except.ok.injEq] at h
          simp only [Option.some.injEq] at hid
          subst h hid
          exact ⟨u, hash, rfl, hprov, hp, rfl⟩
        case h_3 hid =>
          cases hid

/-- The password of an existing account that is not provisioned can be changed. -/
theorem changePassword_isOk
    {salt : Vector UInt8 16} {username password hash : String} {u : User}
    (hu : s.db.user username = some u)
    (hprov : u.provisioned = false)
    (hp : passColumn b salt password false = .ok hash) :
    ∃ s', changePassword b s salt username password false = .ok s' := by
  simp [changePassword, Database.canChangeUser, Database.userID, hu, hprov, hp]

/--
A changed password lets no one in with the empty password if its hash does not,
or if the account is deleted or the one of `everyone`.
-/
theorem noEmptyPassword_changePassword_iff
    {salt : Vector UInt8 16} {username password : String} {hashed : Bool}
    {hash : String} {u : User}
    (hs : NoEmptyPassword b s)
    (hu : s.db.user username = some u)
    (hp : passColumn b salt password hashed = .ok hash)
    (h : changePassword b s salt username password hashed = .ok s') :
    NoEmptyPassword b s'
      ↔
    username = everyone ∨ s.deleted u.id = true ∨
      b.compareHashAndPassword hash "" = false := by
  obtain ⟨u', hash', hu', -, hp', rfl⟩ := changePassword_eq_ok h
  have heq : hash' = hash := by
    rw [hp] at hp'
    exact (Except.ok.inj hp').symm
  have hueq : u' = u := by
    rw [hu] at hu'
    exact (Option.some.inj hu').symm
  subst heq hueq
  have hid : s.db.userID username = some u'.id := by
    simp [Database.userID, hu]
  rw [noEmptyPassword_iff] at hs ⊢
  constructor
  · intro hs'
    by_cases hne : username = everyone
    · exact Or.inl hne
    · have hopen := hs' username u'.id hne hid
      simp only [opensEmpty, Function.update_self, Bool.and_eq_false_iff,
        Bool.not_eq_false'] at hopen
      exact Or.inr hopen
  · intro hok name id' hname hid'
    by_cases hsame : id' = u'.id
    · subst hsame
      obtain rfl := Database.userID_injective hid' hid
      rcases hok with rfl | hdel | hcmp
      · exact absurd rfl hname
      · simp [opensEmpty, hdel]
      · simp [opensEmpty, hcmp]
    · have hold := hs name id' hname hid'
      simpa [opensEmpty, Function.update_of_ne hsame] using hold

/-- A plain password that is not empty is all that a new account needs. -/
theorem noEmptyPassword_addUser_plain_iff
    (hb : b.Lawful)
    {salt : Vector UInt8 16} {id username password : String} {role : Role}
    (hs : NoEmptyPassword b s)
    (h : addUser b s salt id username password role false = .ok s') :
    NoEmptyPassword b s' ↔ password ≠ "" := by
  obtain ⟨hash, hp, -⟩ := addUser_eq_ok h
  rw [noEmptyPassword_addUser_iff hs hp h, ← Bool.not_eq_true,
    compare_passColumn hb hp, eq_comm]

/-- The same for a changed password. -/
theorem noEmptyPassword_changePassword_plain_iff
    (hb : b.Lawful)
    {salt : Vector UInt8 16} {username password : String} {u : User}
    (hs : NoEmptyPassword b s)
    (hu : s.db.user username = some u)
    (h : changePassword b s salt username password false = .ok s') :
    NoEmptyPassword b s'
      ↔
    username = everyone ∨ s.deleted u.id = true ∨ password ≠ "" := by
  obtain ⟨_, hash, -, -, hp, -⟩ := changePassword_eq_ok h
  have hcmp :
      b.compareHashAndPassword hash "" = false ↔ password ≠ "" := by
    rw [← Bool.not_eq_true, compare_passColumn hb hp, eq_comm]
  rw [noEmptyPassword_changePassword_iff hs hu hp h, hcmp]

end EmptyPassword

end Accounts

end Model

end Manager
end CoopMessenger
