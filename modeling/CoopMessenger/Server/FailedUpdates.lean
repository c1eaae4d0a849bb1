import CoopMessenger.Library.PartialWrites
import CoopMessenger.Manager.Profiles
import CoopMessenger.Manager.Provisioning
import CoopMessenger.Server.Accounts

/-!
# Failing updates

The requests that write several fields of a user or a profile: `handleProfileUpdate`,
`handleAdminUserUpdate`, `handleUsersUpdate` and `handleUsersAdd`.  Each field is written by
a call of the manager with a transaction of its own, and checks stand between the writes.
Any database call may fail.

**Results.**
* `handleAdminUserUpdate_agrees`, `handleUsersUpdate_agrees`, `handleUsersAdd_agrees`: when
  no call fails, these are the handlers as they are modelled elsewhere.
* `keepsOnError_iff`: which requests leave everything as it was when they fail.
-/

namespace CoopMessenger
namespace Server

open Library Manager Manager.Accounts

namespace FailedUpdates

open Accounts (ApiAdminUserResponse ApiAdminUserUpdateRequest ApiUserAddOrUpdateRequest Body
  Random adminUsername parseRole readJSONWithLimit)

section Model

/-- The database calls of the requests. -/
inductive Call where
  | profile
  | updateProfile
  | updatePrivacy
  | updatedProfile
  | canChangePassword
  | changePassword
  | canChangeRole
  | changeRole
  | updatedUser
  | user
  | tier
  | addUser
  | tierToChange
  | userToChange
  | reservations
  | changeTier
deriving DecidableEq, Repr

/-- The accounts, and the texts of the profiles. -/
structure State where
  accounts : Manager.Accounts
  texts : Table ProfileText.userId

structure ApiProfileUpdateRequest where
  displayName : Option String
  bio : Option String
  privacy : Option String

/-- What a call comes to, unless the database fails. -/
def call
    {β : Type}
    (fails : Call → Bool)
    (c : Call)
    (r : Except Manager.Error β) : Except HandlerError β :=
  if fails c then .error (.manager .database) else r.mapError .manager

/-- The privacy settings. -/
def parsePrivacy : String → Option Privacy
  | "open" => some .open
  | "request" => some .request
  | "invite_only" => some .inviteOnly
  | _ => none

/-- `ProfileByUserID` -/
def profileByUserID
    (s : State)
    (userID : String) : Except Manager.Error ProfileText :=
  match s.texts.find? userID with
  | none => .error .userNotFound
  | some t => .ok t

/-- `Profile` -/
def profile
    (s : State)
    (username : String) : Except Manager.Error Profile :=
  match s.accounts.db.user username with
  | none => .error .userNotFound
  | some u => (profileByUserID s u.id).map fun t => profileOf u (some t)

/-- The texts of the request, or else those of the profile. -/
def newTexts
    (t : ProfileText)
    (req : ApiProfileUpdateRequest) : Except HandlerError (String × String) :=
  if req.displayName.any (fun name => decide (50 < name.utf8ByteSize)) then
    .error (.http (errHTTPBadRequest.wrap "display_name too long (max 50)"))
  else if req.bio.any (fun bio => decide (200 < bio.utf8ByteSize)) then
    .error (.http (errHTTPBadRequest.wrap "bio too long (max 200)"))
  else
    .ok (req.displayName.getD t.displayName, req.bio.getD t.bio)

/-- `UPDATE user_profile SET display_name = ?, bio = ? WHERE user_id = ?` -/
def State.updateProfile
    (s : State)
    (userID displayName bio : String) : State :=
  { s with
    texts :=
      s.texts.modify
        (fun t => if t.userId = userID then { t with displayName, bio } else t)
        (by intro t; split <;> rfl) }

/-- `UPDATE user_profile SET privacy = ? WHERE user_id = (SELECT id ...)` -/
def State.updatePrivacy
    (s : State)
    (username : String)
    (privacy : Privacy) : State :=
  { s with
    accounts :=
      { s.accounts with
        db :=
          { s.accounts.db with
            profiles :=
              s.accounts.db.profiles.modify
                (fun p =>
                  if s.accounts.db.userID username = some p.userId then
                    { p with privacy }
                  else
                    p)
                (by intro p; split <;> rfl) } } }

/-- `UpdateProfilePrivacy` -/
def updateProfilePrivacy
    (s : State)
    (username privacy : String) : Except Manager.Error State :=
  match parsePrivacy privacy with
  | none => .error .invalidArgument
  | some privacy => .ok (s.updatePrivacy username privacy)

/-- The checks of an argument come before the call. -/
def changePrivacy
    (fails : Call → Bool)
    (s : State)
    (username privacy : String) : Except HandlerError State :=
  match updateProfilePrivacy s username privacy with
  | .error e => .error (.manager e)
  | .ok s' => call fails .updatePrivacy (.ok s')

/-- The updated profile is read for the answer. -/
def profileAnswer
    (fails : Call → Bool)
    (username : String)
    (s : State) : Attempt State HandlerError Profile :=
  check s (call fails .updatedProfile (profile s username)) fun p => (s, .ok p)

/-- The second half of an update of a profile: the privacy setting, and the answer. -/
def writePrivacy
    (fails : Call → Bool)
    (username : String)
    (s : State) :
    Option String → Attempt State HandlerError Profile
  | none => profileAnswer fails username s
  | some privacy =>
      commit s (changePrivacy fails s username privacy) (profileAnswer fails username)

def handleProfileUpdate
    (fails : Call → Bool)
    (s : State)
    (u : User)
    (body : Body ApiProfileUpdateRequest) : Attempt State HandlerError Profile :=
  check s (readJSONWithLimit body) fun req =>
  check s (call fails .profile (profileByUserID s u.id)) fun t =>
  check s (newTexts t req) fun texts =>
  commit s (call fails .updateProfile (.ok (s.updateProfile u.id texts.1 texts.2))) fun s =>
  writePrivacy fails u.name s req.privacy

variable {b : Bcrypt}

/-- `ChangePassword`; the hash is computed in the transaction. -/
def changePassword
    (b : Bcrypt)
    (fails : Call → Bool)
    (s : State)
    (salt : Vector UInt8 16)
    (username password : String)
    (hashed : Bool) : Except HandlerError State :=
  match call fails .canChangePassword (s.accounts.db.canChangeUser username) with
  | .error e => .error e
  | .ok () =>
      call fails .changePassword
        ((Manager.Accounts.changePassword b s.accounts salt username password hashed).map
          fun accounts => { s with accounts })

/-- `ChangeRole` -/
def changeRole
    (fails : Call → Bool)
    (s : State)
    (username : String)
    (role : Role) : Except HandlerError State :=
  match call fails .canChangeRole (s.accounts.db.canChangeUser username) with
  | .error e => .error e
  | .ok () =>
      call fails .changeRole
        ((s.accounts.changeRole username role).map fun accounts => { s with accounts })

/-- `INSERT INTO user_profile ... ON CONFLICT DO UPDATE`, the texts of a new profile. -/
def addTexts
    (texts : Table ProfileText.userId)
    (userID : String) : Table ProfileText.userId :=
  texts.upsert ⟨userID, "", "", "", 0⟩
    (fun t => { t with displayName := "", bio := "", avatarId := "", lastSeen := 0 })
    (fun _ => rfl)

/-- `AddUser`, with the empty profile. -/
def addUser
    (fails : Call → Bool)
    (s : State)
    (rnd : Random)
    (req : ApiUserAddOrUpdateRequest b) : Except HandlerError State :=
  call fails .addUser
    ((Manager.Accounts.addUser b s.accounts rnd.salt rnd.id req.username req.secret.1 .user
        req.secret.2).map fun accounts => ⟨accounts, addTexts s.texts rnd.id⟩)

/-- `checkReservationsLimit`; the reservations are read only for a lower limit. -/
def checkReservationsLimit
    (fails : Call → Bool)
    (s : State)
    (username : String)
    (reservationsLimit : Nat) : Except HandlerError Unit :=
  match call fails .userToChange
      (match s.accounts.db.user username with
      | none => .error .userNotFound
      | some u => .ok u) with
  | .error e => .error e
  | .ok u =>
      if u.tier.any (fun t => decide (reservationsLimit < t.reservationLimit)) then
        call fails .reservations
          (if s.accounts.db.reservationsCount username > reservationsLimit then
            .error .tooManyReservations
          else
            .ok ())
      else
        .ok ()

/-- `ChangeTier` -/
def changeTier
    (fails : Call → Bool)
    (s : State)
    (username code : String) : Except HandlerError State :=
  if !allowedUsername username then
    .error (.manager .invalidArgument)
  else
    match call fails .tierToChange (s.accounts.tier code) with
    | .error e => .error e
    | .ok t =>
        match checkReservationsLimit fails s username t.reservationLimit with
        | .error e => .error e
        | .ok () =>
            call fails .changeTier
              (.ok { s with
                accounts :=
                  { s.accounts with db := s.accounts.db.updateUserTier username (some t) } })

/-- The admin endpoint answers every failure of the manager with the same error. -/
def internal
    {β : Type}
    (r : Except HandlerError β) : Except HandlerError β :=
  r.mapError fun _ => .http errHTTPInternalError

/-- The answer of an update by an admin. -/
def adminAnswer
    (fails : Call → Bool)
    (username : String)
    (s : State) : Attempt State HandlerError ApiAdminUserResponse :=
  check s (internal (call fails .updatedUser
    (match s.accounts.db.user username with
    | none => .error .userNotFound
    | some u => .ok u))) fun u => (s, .ok ⟨u.name, u.role⟩)

/-- The second half of an update by an admin: the role, and the answer. -/
def updateRole
    (fails : Call → Bool)
    (username : String)
    (s : State) :
    Option String → Attempt State HandlerError ApiAdminUserResponse
  | none => adminAnswer fails username s
  | some role =>
      match parseRole role with
      | none => (s, .error (.http (errHTTPBadRequest.wrap "invalid role")))
      | some role =>
          commit s (internal (changeRole fails s username role)) (adminAnswer fails username)

def handleAdminUserUpdate
    (b : Bcrypt)
    (fails : Call → Bool)
    (s : State)
    (rnd : Random)
    (path : String)
    (body : Option ApiAdminUserUpdateRequest) :
    Attempt State HandlerError ApiAdminUserResponse :=
  let username := adminUsername path
  if username = "" ∨ '/' ∈ username.toList then
    (s, .error (.http errHTTPNotFound))
  else
    match body with
    | none => (s, .error (.http (errHTTPBadRequest.wrap "invalid JSON body")))
    | some ⟨none, none⟩ =>
        (s, .error (.http (errHTTPBadRequest.wrap
          "at least one of password or role must be provided")))
    | some ⟨none, role⟩ => updateRole fails username s role
    | some ⟨some password, role⟩ =>
        commit s (internal (changePassword b fails s rnd.salt username password false)) fun s =>
        updateRole fails username s role

/-- `Tier`, where a tier that is not found has an error of its own. -/
def findTier
    (fails : Call → Bool)
    (s : State)
    (code : String) : Except HandlerError Unit :=
  if fails .tier then
    .error (.manager .database)
  else if (s.accounts.tiers.find? code).isNone then
    .error (.http errHTTPBadRequestTierInvalid)
  else
    .ok ()

def handleUsersAdd
    (fails : Call → Bool)
    (s : State)
    (rnd : Random)
    (body : Body (ApiUserAddOrUpdateRequest b)) : Attempt State HandlerError Unit :=
  check s (readJSONWithLimit body) fun req =>
  if !allowedUsername req.username ||
      (decide (req.password = "") && decide (req.hash = "")) then
    (s, .error (.http (errHTTPBadRequest.wrap
      "username invalid, or password/password_hash missing")))
  else
    check s (call fails .user (.ok (s.accounts.db.user req.username))) fun u =>
    if u.isSome then
      (s, .error (.http errHTTPConflictUserExists))
    else
      check s (if req.tier = "" then .ok () else findTier fails s req.tier) fun _ =>
      commit s (addUser fails s rnd req) fun s =>
      if req.tier = "" then
        (s, .ok ())
      else
        commit s (changeTier fails s req.username req.tier) fun s => (s, .ok ())

/-- The password of the user, or a new user. -/
def updateOrAdd
    (fails : Call → Bool)
    (s : State)
    (rnd : Random)
    (req : ApiUserAddOrUpdateRequest b) :
    Option User → Except HandlerError State
  | some u =>
      if isAdmin (some u) then
        .error (.http errHTTPForbidden)
      else if req.hash ≠ "" ∨ req.password ≠ "" then
        changePassword b fails s rnd.salt req.username req.secret.1 req.secret.2
      else
        .ok s
  | none => addUser fails s rnd req

def handleUsersUpdate
    (fails : Call → Bool)
    (s : State)
    (rnd : Random)
    (body : Body (ApiUserAddOrUpdateRequest b)) : Attempt State HandlerError Unit :=
  check s (readJSONWithLimit body) fun req =>
  if !allowedUsername req.username then
    (s, .error (.http (errHTTPBadRequest.wrap "username invalid")))
  else if req.password = "" ∧ req.hash = "" ∧ req.tier = "" then
    (s, .error (.http (errHTTPBadRequest.wrap ("need to provide at " ++
      "least one of \"password\", \"password_hash\" or \"tier\""))))
  else
    check s (call fails .user (.ok (s.accounts.db.user req.username))) fun u =>
    commit s (updateOrAdd fails s rnd req u) fun s =>
    if req.tier = "" then
      (s, .ok ())
    else
      check s (findTier fails s req.tier) fun _ =>
      commit s (changeTier fails s req.username req.tier) fun s => (s, .ok ())

end Model

section Agreement

variable {b : Bcrypt}

@[simp] theorem call_of_not_fails
    {β : Type} {fails : Call → Bool} {c : Call}
    (h : fails c = false)
    (r : Except Manager.Error β) :
    call fails c r = r.mapError .manager := by
  simp [call, h]

/-- The same accounts and the same answer. -/
def Agrees
    {α : Type}
    (r : Attempt State HandlerError α)
    (r' : Accounts.Outcome α) : Prop :=
  r.1.accounts = r'.1.accounts ∧ r.2 = r'.2

variable (s : Accounts.State)
variable (texts : Table ProfileText.userId)
variable (rnd : Random)

theorem changePassword_agrees
    (username password : String)
    (hashed : Bool) :
    changePassword b (fun _ => false) ⟨s.accounts, texts⟩ rnd.salt username password hashed =
      ((Manager.Accounts.changePassword b s.accounts rnd.salt username password hashed).map
        fun accounts => (⟨accounts, texts⟩ : State)).mapError .manager := by
  unfold changePassword
  simp only [call_of_not_fails]
  cases h : s.accounts.db.canChangeUser username with
  | error e =>
      simp [Manager.Accounts.changePassword, h, Except.mapError, Except.map]
  | ok _ =>
      rfl

theorem changeRole_agrees
    (username : String)
    (role : Role) :
    changeRole (fun _ => false) ⟨s.accounts, texts⟩ username role =
      ((s.accounts.changeRole username role).map
        fun accounts => (⟨accounts, texts⟩ : State)).mapError .manager := by
  unfold changeRole
  simp only [call_of_not_fails]
  cases h : s.accounts.db.canChangeUser username with
  | error e =>
      simp [Manager.Accounts.changeRole, Database.changeRole, h, Except.mapError, Except.map]
  | ok _ =>
      rfl

theorem updateRole_agrees
    (username : String)
    (role : Option String) :
    Agrees
      (updateRole (fun _ => false) username ⟨s.accounts, texts⟩ role)
      (Accounts.updateRole s username role) := by
  have hanswer : ∀ a : Manager.Accounts,
      Agrees (adminAnswer (fun _ => false) username ⟨a, texts⟩)
        (Accounts.updateRole { s with accounts := a } username none) := by
    intro a
    simp only [adminAnswer, call_of_not_fails, Accounts.updateRole]
    cases a.db.user username with
    | none =>
        exact ⟨rfl, rfl⟩
    | some u =>
        exact ⟨rfl, rfl⟩
  cases role with
  | none =>
      exact hanswer s.accounts
  | some role =>
      simp only [updateRole, Accounts.updateRole, changeRole_agrees]
      cases parseRole role with
      | none =>
          exact ⟨rfl, rfl⟩
      | some role =>
          dsimp only
          cases s.accounts.changeRole username role with
          | error e =>
              exact ⟨rfl, rfl⟩
          | ok a =>
              exact hanswer a

/-- Where no call fails, this is the handler for the requests of an admin. -/
theorem handleAdminUserUpdate_agrees
    {v : Accounts.Visitor}
    (hadmin : isAdmin v.user = true)
    (path : String)
    (body : Option ApiAdminUserUpdateRequest) :
    Agrees
      (handleAdminUserUpdate b (fun _ => false) ⟨s.accounts, texts⟩ rnd path body)
      (Accounts.handleAdminUserUpdate b s v rnd path body) := by
  unfold Accounts.handleAdminUserUpdate
  rw [Accounts.ensureAdmin_of_isAdmin hadmin]
  simp only [handleAdminUserUpdate, changePassword_agrees]
  split
  · exact ⟨rfl, rfl⟩
  · rcases body with _ | ⟨_ | password, role⟩
    · exact ⟨rfl, rfl⟩
    · cases role with
      | none =>
          exact ⟨rfl, rfl⟩
      | some role =>
          exact updateRole_agrees s texts (adminUsername path) (some role)
    · dsimp only
      cases Manager.Accounts.changePassword b s.accounts rnd.salt (adminUsername path)
          password false with
      | error e =>
          exact ⟨rfl, rfl⟩
      | ok a =>
          exact updateRole_agrees { s with accounts := a } texts (adminUsername path) role

theorem checkReservationsLimit_agrees
    (username : String)
    (limit : Nat) :
    checkReservationsLimit (fun _ => false) ⟨s.accounts, texts⟩ username limit =
      (s.accounts.checkReservationsLimit username limit).mapError .manager := by
  simp only [checkReservationsLimit, Manager.Accounts.checkReservationsLimit,
    call_of_not_fails]
  cases s.accounts.db.user username with
  | none =>
      rfl
  | some u =>
      dsimp only [Except.mapError]
      by_cases hlimit : u.tier.any (fun t => decide (limit < t.reservationLimit)) = true
      · simp only [hlimit, if_true, true_and]
      · simp only [hlimit, Bool.false_eq_true, if_false, false_and]

theorem changeTier_agrees
    (username code : String) :
    changeTier (fun _ => false) ⟨s.accounts, texts⟩ username code =
      ((s.accounts.changeTier username code).map
        fun accounts => (⟨accounts, texts⟩ : State)).mapError .manager := by
  simp only [changeTier, Manager.Accounts.changeTier, call_of_not_fails,
    checkReservationsLimit_agrees]
  split
  · rfl
  · cases s.accounts.tier code with
    | error e =>
        rfl
    | ok t =>
        dsimp only [Except.mapError]
        cases s.accounts.checkReservationsLimit username t.reservationLimit with
        | error e =>
            rfl
        | ok _ =>
            rfl

/-- `Tier` and `ChangeTier`. -/
theorem setTier_agrees
    (req : ApiUserAddOrUpdateRequest b) :
    Agrees
      (commit ⟨s.accounts, texts⟩
        (changeTier (fun _ => false) ⟨s.accounts, texts⟩ req.username req.tier)
        fun s => (s, .ok ()))
      (Accounts.setTier s req) := by
  simp only [changeTier_agrees, Accounts.setTier]
  cases s.accounts.changeTier req.username req.tier with
  | error e =>
      exact ⟨rfl, rfl⟩
  | ok a =>
      exact ⟨rfl, rfl⟩

theorem addUser_agrees
    (req : ApiUserAddOrUpdateRequest b) :
    addUser (fun _ => false) ⟨s.accounts, texts⟩ rnd req =
      ((Accounts.addWithSecret s rnd req).map
        fun s => (⟨s.accounts, addTexts texts rnd.id⟩ : State)).mapError .manager := by
  simp only [addUser, call_of_not_fails, Accounts.addWithSecret]
  cases Manager.Accounts.addUser b s.accounts rnd.salt rnd.id req.username req.secret.1 .user
      req.secret.2 with
  | error e =>
      rfl
  | ok a =>
      rfl

/-- Where no call fails, this is the handler for the requests of an admin. -/
theorem handleUsersAdd_agrees
    {v : Accounts.Visitor}
    (hadmin : isAdmin v.user = true)
    (body : Body (ApiUserAddOrUpdateRequest b)) :
    Agrees
      (handleUsersAdd (fun _ => false) ⟨s.accounts, texts⟩ rnd body)
      (Accounts.handleUsersAdd s v rnd body) := by
  unfold Accounts.handleUsersAdd
  rw [Accounts.ensureAdmin_of_isAdmin hadmin]
  cases body with
  | invalid =>
      exact ⟨rfl, rfl⟩
  | tooLarge =>
      exact ⟨rfl, rfl⟩
  | json req =>
      simp only [handleUsersAdd, readJSONWithLimit, check, call_of_not_fails, Except.mapError,
        addUser_agrees]
      split
      · exact ⟨rfl, rfl⟩
      · split
        · exact ⟨rfl, rfl⟩
        · by_cases htier : req.tier = ""
          · simp only [htier, ne_eq, not_true_eq_false, false_and, if_false, if_true]
            cases Accounts.addWithSecret s rnd req with
            | error e =>
                exact ⟨rfl, rfl⟩
            | ok s' =>
                exact ⟨rfl, rfl⟩
          · simp only [htier, ne_eq, not_false_eq_true, true_and, if_false, if_true, findTier,
              Bool.false_eq_true]
            by_cases hfound : (s.accounts.tiers.find? req.tier).isNone = true
            · simp only [hfound, if_true]
              exact ⟨rfl, rfl⟩
            · simp only [hfound]
              cases Accounts.addWithSecret s rnd req with
              | error e =>
                  exact ⟨rfl, rfl⟩
              | ok s' =>
                  exact setTier_agrees s' (addTexts texts rnd.id) req

theorem updateOrAdd_agrees
    (req : ApiUserAddOrUpdateRequest b) :
    ∃ texts', 
      updateOrAdd (fun _ => false) ⟨s.accounts, texts⟩ rnd req
          (s.accounts.db.user req.username) =
        (Accounts.updateOrAdd s rnd req).map fun s => (⟨s.accounts, texts'⟩ : State) := by
  unfold Accounts.updateOrAdd
  cases s.accounts.db.user req.username with
  | none =>
      refine ⟨addTexts texts rnd.id, ?_⟩
      simp only [updateOrAdd, addUser_agrees]
      cases Accounts.addWithSecret s rnd req with
      | error e =>
          rfl
      | ok s' =>
          rfl
  | some u =>
      refine ⟨texts, ?_⟩
      simp only [updateOrAdd, changePassword_agrees]
      split
      · rfl
      · split
        · cases Manager.Accounts.changePassword b s.accounts rnd.salt req.username
              req.secret.1 req.secret.2 with
          | error e =>
              rfl
          | ok a =>
              rfl
        · rfl

/-- Where no call fails, this is the handler for the requests of an admin. -/
theorem handleUsersUpdate_agrees
    {v : Accounts.Visitor}
    (hadmin : isAdmin v.user = true)
    (body : Body (ApiUserAddOrUpdateRequest b)) :
    Agrees
      (handleUsersUpdate (fun _ => false) ⟨s.accounts, texts⟩ rnd body)
      (Accounts.handleUsersUpdate s v rnd body) := by
  unfold Accounts.handleUsersUpdate
  rw [Accounts.ensureAdmin_of_isAdmin hadmin]
  cases body with
  | invalid =>
      exact ⟨rfl, rfl⟩
  | tooLarge =>
      exact ⟨rfl, rfl⟩
  | json req =>
      obtain ⟨texts', hwrite⟩ := updateOrAdd_agrees s texts rnd req
      simp only [handleUsersUpdate, readJSONWithLimit, check, call_of_not_fails,
        Except.mapError, hwrite]
      split
      · exact ⟨rfl, rfl⟩
      · split
        · exact ⟨rfl, rfl⟩
        · cases Accounts.updateOrAdd s rnd req with
          | error e =>
              exact ⟨rfl, rfl⟩
          | ok s' =>
              simp only [Except.map, commit, check, findTier, Bool.false_eq_true, if_false]
              split
              · exact ⟨rfl, rfl⟩
              · by_cases hfound : (s'.accounts.tiers.find? req.tier).isNone = true
                · simp only [hfound, if_true]
                  exact ⟨rfl, rfl⟩
                · simp only [hfound]
                  exact setTier_agrees s' texts' req

end Agreement

section Conditions

variable {b : Bcrypt}

/-- Users, passwords, privacy settings and texts are the same; users have their tier and role. -/
structure Same (s s' : State) : Prop where
  users : s'.accounts.db.users = s.accounts.db.users
  pass : s'.accounts.pass = s.accounts.pass
  profiles : s'.accounts.db.profiles = s.accounts.db.profiles
  texts : s'.texts = s.texts

theorem Same.refl
    (s : State) :
    Same s s :=
  ⟨Eq.refl _, Eq.refl _, Eq.refl _, Eq.refl _⟩

/-- The texts are not too long. -/
def fits (req : ApiProfileUpdateRequest) : Prop :=
  (∀ name ∈ req.displayName, name.utf8ByteSize ≤ 50) ∧
    ∀ bio ∈ req.bio, bio.utf8ByteSize ≤ 200

/-- The request brings no texts but those of the profile. -/
def keepsTexts
    (t : ProfileText)
    (req : ApiProfileUpdateRequest) : Prop :=
  (∀ name ∈ req.displayName, name = t.displayName) ∧ ∀ bio ∈ req.bio, bio = t.bio

/-- The user has this privacy setting, if any. -/
def hasPrivacy
    (s : State)
    (username : String)
    (privacy : Privacy) : Prop :=
  ∀ p ∈ s.accounts.db.profiles, s.accounts.db.userID username = some p.userId →
    p.privacy = privacy

/-- The profile cannot be read again for the answer. -/
def answerFails
    (fails : Call → Bool)
    (s : State)
    (username : String) : Prop :=
  fails .updatedProfile = true ∨ Refuses (profile s username)

/--
When the texts are written and differ, the privacy setting is a valid one that is written, and
the answer is given; when only the setting differs, the answer is given.
-/
def ProfileWhole
    (fails : Call → Bool)
    (s : State)
    (u : User) :
    Body ApiProfileUpdateRequest → Prop
  | .json req =>
      ∀ t, s.texts.find? u.id = some t → fits req →
        fails .profile = false → fails .updateProfile = false →
        match req.privacy with
        | none => answerFails fails s u.name → keepsTexts t req
        | some privacy =>
            (parsePrivacy privacy = none ∨ fails .updatePrivacy = true → keepsTexts t req) ∧
              ∀ p, parsePrivacy privacy = some p → fails .updatePrivacy = false →
                answerFails fails s u.name → keepsTexts t req ∧ hasPrivacy s u.name p
  | _ => True

/-- The state with other passwords. -/
def State.withPass
    (s : State)
    (pass : String → String) : State :=
  { s with accounts := { s.accounts with pass } }

/-- The password of the user can be set to this hash. -/
structure PasswordSet
    (b : Bcrypt)
    (fails : Call → Bool)
    (s : State)
    (salt : Vector UInt8 16)
    (username password : String)
    (hashed : Bool)
    (u : User)
    (hash : String) : Prop where
  canChange : fails .canChangePassword = false
  change : fails .changePassword = false
  user : s.accounts.db.user username = some u
  provisioned : u.provisioned = false
  hash : passColumn b salt password hashed = .ok hash

/-- The role is not one, or cannot be written. -/
def roleFails
    (fails : Call → Bool)
    (username role : String) : Prop :=
  parseRole role = none ∨ allowedUsername username = false ∨
    fails .canChangeRole = true ∨ fails .changeRole = true

/--
A password that differs is followed by a role, if any, that is one and can be written, and
by the answer; so is a role that differs.
-/
def AdminWhole
    (b : Bcrypt)
    (fails : Call → Bool)
    (s : State)
    (rnd : Random)
    (username : String) :
    Option ApiAdminUserUpdateRequest → Prop
  | some ⟨none, some role⟩ =>
      ∀ u r, s.accounts.db.user username = some u → u.provisioned = false →
        parseRole role = some r → ¬ roleFails fails username role →
        fails .updatedUser = true → r = u.role
  | some ⟨some password, role⟩ =>
      ∀ u hash, PasswordSet b fails s rnd.salt username password false u hash →
        match role with
        | none => fails .updatedUser = true → hash = s.accounts.pass u.id
        | some role =>
            (roleFails fails username role → hash = s.accounts.pass u.id) ∧
              ∀ r, parseRole role = some r → ¬ roleFails fails username role →
                fails .updatedUser = true → hash = s.accounts.pass u.id ∧ r = u.role
  | _ => True

/-- The user of the request can be added. -/
structure CanAdd
    (fails : Call → Bool)
    (s : State)
    (rnd : Random)
    (req : ApiUserAddOrUpdateRequest b) : Prop where
  call : fails .addUser = false
  free : s.accounts.db.insertable rnd.id req.username
  hash : ∃ hash, passColumn b rnd.salt req.secret.1 req.secret.2 = .ok hash

/--
The tier cannot be given to a user who has the tier `now`: it is unknown, a call fails, or its
limit is lower and exceeded.
-/
def tierFails
    (fails : Call → Bool)
    (s : State)
    (username code : String)
    (now : Option Tier) : Prop :=
  fails .tierToChange = true ∨ fails .userToChange = true ∨ fails .changeTier = true ∨
    ∀ row, s.accounts.tiers.find? code = some row →
      now.any (fun t => decide (row.tier.reservationLimit < t.reservationLimit)) = true ∧
        (fails .reservations = true ∨
          row.tier.reservationLimit < s.accounts.db.reservationsCount username)

/-- A user who is added with a tier is given it. -/
def AddWhole
    (fails : Call → Bool)
    (s : State)
    (rnd : Random) :
    Body (ApiUserAddOrUpdateRequest b) → Prop
  | .json req =>
      allowedUsername req.username = true → ¬ (req.password = "" ∧ req.hash = "") →
        req.tier ≠ "" → fails .user = false → fails .tier = false →
        (s.accounts.tiers.find? req.tier).isSome → CanAdd fails s rnd req →
        ¬ tierFails fails s req.username req.tier none
  | _ => True

/-- A password that differs, or a new user, is followed by a tier that can be given. -/
def UpdateWhole
    (fails : Call → Bool)
    (s : State)
    (rnd : Random) :
    Body (ApiUserAddOrUpdateRequest b) → Prop
  | .json req =>
      allowedUsername req.username = true → req.tier ≠ "" → fails .user = false →
        (∀ u hash, isAdmin (some u) = false → req.hash ≠ "" ∨ req.password ≠ "" →
          PasswordSet b fails s rnd.salt req.username req.secret.1 req.secret.2 u hash →
          fails .tier = true ∨ tierFails fails s req.username req.tier u.tier →
          hash = s.accounts.pass u.id) ∧
        (CanAdd fails s rnd req →
          ¬ (fails .tier = true ∨ tierFails fails s req.username req.tier none))
  | _ => True

end Conditions

section Profiles

variable {fails : Call → Bool}
variable {s : State}

theorem refuses_call_iff
    {β : Type} {c : Call} {r : Except Manager.Error β} :
    Refuses (call fails c r) ↔ fails c = true ∨ Refuses r := by
  cases hc : fails c with
  | true =>
      simp [call, hc, Refuses]
  | false =>
      cases r <;> simp [call, hc, Refuses, Except.mapError]

theorem call_eq_ok_iff
    {β : Type} {c : Call} {r : Except Manager.Error β} {a : β} :
    call fails c r = .ok a ↔ fails c = false ∧ r = .ok a := by
  cases hc : fails c with
  | true =>
      simp [call, hc]
  | false =>
      cases r <;> simp [call, hc, Except.mapError]

theorem newTexts_eq_ok_iff
    {t : ProfileText} {req : ApiProfileUpdateRequest} {texts : String × String} :
    newTexts t req = .ok texts
      ↔
    fits req ∧ texts = (req.displayName.getD t.displayName, req.bio.getD t.bio) := by
  have hany : ∀ (o : Option String) (n : Nat),
      o.any (fun text => decide (n < text.utf8ByteSize)) = true ↔
        ¬ ∀ text ∈ o, text.utf8ByteSize ≤ n := by
    intro o n
    cases o <;> simp
  unfold newTexts fits
  split
  case isTrue h =>
    exact iff_of_false (fun h' => by cases h') (fun h' => (hany _ _).mp h h'.1.1)
  case isFalse h =>
    split
    case isTrue h' =>
      exact iff_of_false (fun h' => by cases h') (fun hok => (hany _ _).mp h' hok.1.2)
    case isFalse h' =>
      rw [hany, not_not] at h h'
      rw [Except.ok.injEq, eq_comm]
      exact (and_iff_right ⟨h, h'⟩).symm

theorem keepsTexts_iff
    {t : ProfileText} {req : ApiProfileUpdateRequest} :
    keepsTexts t req
      ↔
    req.displayName.getD t.displayName = t.displayName ∧ req.bio.getD t.bio = t.bio := by
  unfold keepsTexts
  cases req.displayName <;> cases req.bio <;> simp

/-- A table is left alone by an update that changes none of its rows. -/
theorem modify_eq_self_iff
    {ρ κ : Type} {key : ρ → κ} {T : Table key} {f : ρ → ρ} {hf : ∀ r, key (f r) = key r} :
    T.modify f hf = T ↔ ∀ r ∈ T, f r = r := by
  have hmap : T.rows.map f = T.rows ↔ ∀ r ∈ T.rows, f r = id r := by
    rw [← List.map_inj_left, List.map_id]
  rw [Table.ext_iff]
  exact hmap

theorem updateProfile_eq_iff
    {userID name bio : String} {t : ProfileText}
    (ht : s.texts.find? userID = some t) :
    (s.updateProfile userID name bio).texts = s.texts
      ↔
    name = t.displayName ∧ bio = t.bio := by
  obtain ⟨hmem, rfl⟩ := Table.find?_eq_some_iff.mp ht
  rw [State.updateProfile, modify_eq_self_iff]
  constructor
  · intro h
    have heq := h t hmem
    rw [if_pos rfl] at heq
    exact ⟨congrArg ProfileText.displayName heq, congrArg ProfileText.bio heq⟩
  · rintro ⟨rfl, rfl⟩ r hr
    split
    case isTrue hkey =>
      rw [Table.eq_of_key_eq hr hmem hkey]
    case isFalse =>
      rfl

theorem updatePrivacy_eq_iff
    {username : String} {privacy : Privacy} :
    (s.updatePrivacy username privacy).accounts.db.profiles = s.accounts.db.profiles
      ↔
    hasPrivacy s username privacy := by
  unfold State.updatePrivacy
  rw [modify_eq_self_iff]
  refine ⟨fun h p hp hid => ?_, fun h p hp => ?_⟩
  · have heq := h p hp
    rw [if_pos hid] at heq
    rw [← heq]
  · split
    case isTrue hid =>
      rw [← h p hp hid]
    case isFalse =>
      rfl

theorem refuses_profile_iff
    {username : String} :
    Refuses (profile s username)
      ↔
    ∀ u, s.accounts.db.user username = some u → s.texts.find? u.id = none := by
  unfold profile profileByUserID
  cases s.accounts.db.user username with
  | none =>
      simp
  | some u =>
      cases h : s.texts.find? u.id <;> simp [h, Except.map]

/-- Neither write decides whether there is a profile to answer with. -/
theorem answerFails_updateProfile_iff
    {username userID name bio : String} :
    answerFails fails (s.updateProfile userID name bio) username
      ↔
    answerFails fails s username := by
  simp [answerFails, refuses_profile_iff, State.updateProfile, Table.find?_modify]

theorem answerFails_updatePrivacy_iff
    {username name : String} {privacy : Privacy} :
    answerFails fails (s.updatePrivacy name privacy) username
      ↔
    answerFails fails s username := by
  simp only [answerFails, refuses_profile_iff]
  rfl

theorem same_updateProfile_iff
    {userID name bio : String} {t : ProfileText}
    (ht : s.texts.find? userID = some t) :
    Same s (s.updateProfile userID name bio) ↔ name = t.displayName ∧ bio = t.bio := by
  rw [← updateProfile_eq_iff ht]
  exact ⟨Same.texts, fun h => ⟨rfl, rfl, rfl, h⟩⟩

theorem same_updatePrivacy_iff
    {userID name bio username : String} {t : ProfileText} {privacy : Privacy}
    (ht : s.texts.find? userID = some t) :
    Same s ((s.updateProfile userID name bio).updatePrivacy username privacy)
      ↔
    (name = t.displayName ∧ bio = t.bio) ∧ hasPrivacy s username privacy := by
  rw [← updateProfile_eq_iff ht, ← updatePrivacy_eq_iff]
  exact ⟨fun h => ⟨h.texts, h.profiles⟩, fun h => ⟨rfl, rfl, h.2, h.1⟩⟩

theorem refuses_changePrivacy_iff
    {username privacy : String} :
    Refuses (changePrivacy fails s username privacy)
      ↔
    parsePrivacy privacy = none ∨ fails .updatePrivacy = true := by
  unfold changePrivacy updateProfilePrivacy
  cases parsePrivacy privacy with
  | none =>
      simp
  | some p =>
      simp [refuses_call_iff]

theorem changePrivacy_eq_ok_iff
    {username privacy : String} {s' : State} :
    changePrivacy fails s username privacy = .ok s'
      ↔
    ∃ p, parsePrivacy privacy = some p ∧ fails .updatePrivacy = false ∧
      s' = s.updatePrivacy username p := by
  unfold changePrivacy updateProfilePrivacy
  cases parsePrivacy privacy with
  | none =>
      simp
  | some p =>
      simp [call_eq_ok_iff, @eq_comm _ s']

/-- The answer comes last. -/
theorem allOrNothing_profileAnswer_iff
    {s' : State} {username : String} :
    AllOrNothing Same s (profileAnswer fails username s')
      ↔
    (answerFails fails s' username → Same s s') := by
  rw [profileAnswer, allOrNothing_check_iff, refuses_call_iff]
  exact and_iff_left fun _ _ => allOrNothing_ok _

/-- What happens when the texts have been written. -/
theorem allOrNothing_writePrivacy_iff
    {u : User} {t : ProfileText} {req : ApiProfileUpdateRequest} {texts : String × String}
    (ht : s.texts.find? u.id = some t)
    (htexts : newTexts t req = .ok texts) :
    AllOrNothing Same s
        (writePrivacy fails u.name (s.updateProfile u.id texts.1 texts.2) req.privacy)
      ↔
    match req.privacy with
    | none => answerFails fails s u.name → keepsTexts t req
    | some privacy =>
        (parsePrivacy privacy = none ∨ fails .updatePrivacy = true → keepsTexts t req) ∧
          ∀ p, parsePrivacy privacy = some p → fails .updatePrivacy = false →
            answerFails fails s u.name → keepsTexts t req ∧ hasPrivacy s u.name p := by
  have hkeeps : keepsTexts t req ↔ texts.1 = t.displayName ∧ texts.2 = t.bio := by
    rw [keepsTexts_iff, (newTexts_eq_ok_iff.mp htexts).2]
  cases req.privacy with
  | none =>
      simp only [writePrivacy, allOrNothing_profileAnswer_iff, answerFails_updateProfile_iff,
        same_updateProfile_iff ht, hkeeps]
  | some privacy =>
      simp only [writePrivacy, allOrNothing_commit_iff, refuses_changePrivacy_iff,
        same_updateProfile_iff ht, changePrivacy_eq_ok_iff, allOrNothing_profileAnswer_iff,
        hkeeps]
      refine and_congr_right fun _ => ⟨fun h p hp hok => ?_, fun h s' => ?_⟩
      · have hnext := h _ ⟨p, hp, hok, rfl⟩
        rwa [answerFails_updatePrivacy_iff, answerFails_updateProfile_iff,
          same_updatePrivacy_iff ht] at hnext
      · rintro ⟨p, hp, hok, rfl⟩
        rw [answerFails_updatePrivacy_iff, answerFails_updateProfile_iff,
          same_updatePrivacy_iff ht]
        exact h p hp hok

theorem profileByUserID_eq_ok_iff
    {userID : String} {t : ProfileText} :
    profileByUserID s userID = .ok t ↔ s.texts.find? userID = some t := by
  unfold profileByUserID
  cases s.texts.find? userID <;> simp

theorem allOrNothing_profileUpdate_iff
    (fails : Call → Bool)
    (s : State)
    (u : User)
    (body : Body ApiProfileUpdateRequest) :
    AllOrNothing Same s (handleProfileUpdate fails s u body) ↔ ProfileWhole fails s u body := by
  cases body with
  | invalid =>
      exact iff_of_true (fun _ _ => Same.refl s) trivial
  | tooLarge =>
      exact iff_of_true (fun _ _ => Same.refl s) trivial
  | json req =>
      simp only [handleProfileUpdate, readJSONWithLimit, allOrNothing_check_first (Same.refl s),
        allOrNothing_commit_first (Same.refl s), Except.ok.injEq, forall_eq', call_eq_ok_iff,
        profileByUserID_eq_ok_iff, ProfileWhole, and_imp]
      constructor
      · intro h t ht hok hread hwrite
        have htexts := newTexts_eq_ok_iff (t := t).mpr ⟨hok, rfl⟩
        exact (allOrNothing_writePrivacy_iff ht htexts).mp
          (h t hread ht _ htexts _ hwrite rfl)
      · rintro h t hread ht texts htexts _ hwrite rfl
        exact (allOrNothing_writePrivacy_iff ht htexts).mpr
          (h t ht (newTexts_eq_ok_iff.mp htexts).1 hread hwrite)

end Profiles

section AdminUpdates

variable {b : Bcrypt}
variable {fails : Call → Bool}
variable {s s' : State}
variable {u : User}
variable {username : String}

theorem canChangeUser_eq_ok_iff :
    s.accounts.db.canChangeUser username = .ok ()
      ↔
    ∃ u, s.accounts.db.user username = some u ∧ u.provisioned = false := by
  unfold Database.canChangeUser
  cases s.accounts.db.user username with
  | none =>
      simp
  | some u =>
      cases hprov : u.provisioned <;> simp [hprov]

theorem changePassword_eq_ok_iff
    {salt : Vector UInt8 16} {password : String} {hashed : Bool} :
    changePassword b fails s salt username password hashed = .ok s'
      ↔
    ∃ u hash, PasswordSet b fails s salt username password hashed u hash ∧
      s' = s.withPass (Function.update s.accounts.pass u.id hash) := by
  constructor
  · intro h
    unfold changePassword at h
    split at h
    · cases h
    case h_2 hcan =>
      obtain ⟨hcall, h⟩ := call_eq_ok_iff.mp h
      obtain ⟨hcanCall, -⟩ := call_eq_ok_iff.mp hcan
      cases ha : Manager.Accounts.changePassword b s.accounts salt username password hashed with
      | error e =>
          simp [ha, Except.map] at h
      | ok a =>
          obtain ⟨u, hash, hu, hprov, hhash, rfl⟩ := changePassword_eq_ok ha
          simp only [ha, Except.map, Except.ok.injEq] at h
          exact ⟨u, hash, ⟨hcanCall, hcall, hu, hprov, hhash⟩, h.symm⟩
  · rintro ⟨u, hash, hset, rfl⟩
    have hcan := canChangeUser_eq_ok_iff.mpr ⟨u, hset.user, hset.provisioned⟩
    simp [changePassword, hset.canChange, hset.change, hcan, Except.mapError, Except.map,
      Manager.Accounts.changePassword, hset.hash, Database.userID, hset.user, State.withPass]

theorem same_changePassword_iff
    {hash : String} :
    Same s (s.withPass (Function.update s.accounts.pass u.id hash))
      ↔
    hash = s.accounts.pass u.id := by
  have hpass : Function.update s.accounts.pass u.id hash = s.accounts.pass ↔
      hash = s.accounts.pass u.id :=
    Function.update_eq_self_iff
  rw [← hpass]
  exact ⟨Same.pass, fun h => ⟨rfl, h, rfl, rfl⟩⟩

/-- `ChangeRole` of a user whose role may be changed writes the user table only. -/
theorem accounts_changeRole_eq_ok
    {role : Role} {a : Manager.Accounts}
    (h : s.accounts.changeRole username role = .ok a) :
    a.db.users = (s.accounts.db.updateUserRole username role).users ∧
      a.db.profiles = s.accounts.db.profiles ∧ a.pass = s.accounts.pass ∧
      a.db.userID = s.accounts.db.userID := by
  unfold Manager.Accounts.changeRole at h
  split at h
  · cases h
  case h_2 db hdb =>
    obtain rfl := Except.ok.inj h
    have hid := Database.userID_changeRole hdb
    unfold Database.changeRole at hdb
    split at hdb
    · cases hdb
    · split at hdb
      · cases hdb
      · split at hdb
        all_goals
          obtain rfl := Except.ok.inj hdb
          exact ⟨rfl, rfl, rfl, hid⟩

theorem refuses_accounts_changeRole_iff
    {role : Role}
    (hu : s.accounts.db.user username = some u)
    (hprov : u.provisioned = false)
    (hrole : allowedRole role = true) :
    Refuses (s.accounts.changeRole username role) ↔ allowedUsername username = false := by
  unfold Manager.Accounts.changeRole Database.changeRole
  rw [canChangeUser_eq_ok_iff.mpr ⟨u, hu, hprov⟩]
  cases hname : allowedUsername username with
  | false =>
      simp
  | true =>
      simp only [hrole, Bool.not_true, Bool.or_self, Bool.false_eq_true, if_false]
      by_cases hadmin : role = .admin <;> simp [hadmin]

theorem refuses_changeRole_iff
    {role : Role}
    (hu : s.accounts.db.user username = some u)
    (hprov : u.provisioned = false)
    (hrole : allowedRole role = true) :
    Refuses (changeRole fails s username role)
      ↔
    allowedUsername username = false ∨ fails .canChangeRole = true ∨
      fails .changeRole = true := by
  have hwrite :
      Refuses ((s.accounts.changeRole username role).map
        fun accounts => ({ s with accounts } : State)) ↔ allowedUsername username = false := by
    rw [← refuses_accounts_changeRole_iff hu hprov hrole]
    cases s.accounts.changeRole username role <;> simp [Except.map]
  unfold changeRole
  rw [canChangeUser_eq_ok_iff.mpr ⟨u, hu, hprov⟩]
  cases hcan : fails .canChangeRole with
  | true =>
      simp [call, hcan]
  | false =>
      simp only [call_of_not_fails hcan, Except.mapError, refuses_call_iff, hwrite]
      simp [or_comm]

theorem accounts_of_changeRole
    {role : Role}
    (h : changeRole fails s username role = .ok s') :
    s'.texts = s.texts ∧ s.accounts.changeRole username role = .ok s'.accounts := by
  unfold changeRole at h
  split at h
  · cases h
  · obtain ⟨-, h⟩ := call_eq_ok_iff.mp h
    cases ha : s.accounts.changeRole username role with
    | error e =>
        simp [ha, Except.map] at h
    | ok a =>
        simp only [ha, Except.map, Except.ok.injEq] at h
        subst h
        exact ⟨rfl, rfl⟩

theorem same_updateUserRole_iff
    {role : Role}
    (hu : s.accounts.db.user username = some u) :
    (s.accounts.db.updateUserRole username role).users = s.accounts.db.users
      ↔
    role = u.role := by
  obtain ⟨hmem, hname⟩ := Database.user_eq_some_iff.mp hu
  unfold Database.updateUserRole
  rw [modify_eq_self_iff]
  constructor
  · intro h
    have heq := h u hmem
    rw [if_pos hname] at heq
    exact congrArg User.role heq
  · rintro rfl v hv
    split
    case isTrue hv' =>
      rw [Database.eq_of_name_eq hv hmem (hv'.trans hname.symm)]
    case isFalse =>
      rfl

theorem allowedRole_of_parseRole
    {text : String} {role : Role}
    (h : parseRole text = some role) :
    allowedRole role = true := by
  unfold parseRole at h
  split at h
  all_goals
    cases h
    try rfl

/-- The answer comes last, and names a user who is still there. -/
theorem allOrNothing_adminAnswer_iff
    {t : State}
    (hu : (t.accounts.db.userID username).isSome) :
    AllOrNothing Same s (adminAnswer fails username t)
      ↔
    (fails .updatedUser = true → Same s t) := by
  obtain ⟨v, hv⟩ : ∃ v, t.accounts.db.user username = some v := by
    simpa [Database.userID, Option.isSome_iff_exists] using hu
  rw [adminAnswer, allOrNothing_check_iff, hv]
  have hrefuses :
      Refuses (internal (call fails .updatedUser (.ok v))) ↔ fails .updatedUser = true := by
    cases h : fails .updatedUser <;> simp [internal, call, h, Except.mapError]
  rw [hrefuses]
  exact and_iff_left fun _ _ => allOrNothing_ok _

theorem refuses_internal_iff
    {β : Type} {r : Except HandlerError β} :
    Refuses (internal r) ↔ Refuses r := by
  cases r <;> simp [internal, Except.mapError]

theorem internal_eq_ok_iff
    {β : Type} {r : Except HandlerError β} {a : β} :
    internal r = .ok a ↔ r = .ok a := by
  cases r <;> simp [internal, Except.mapError]

/-- What happens when the password has been written. -/
theorem allOrNothing_updateRole_iff
    {pass : String → String} {role : Option String}
    (hu : s.accounts.db.user username = some u)
    (hprov : u.provisioned = false) :
    AllOrNothing Same s
        (updateRole fails username (s.withPass pass) role)
      ↔
    match role with
    | none => fails .updatedUser = true → pass = s.accounts.pass
    | some role =>
        (roleFails fails username role → pass = s.accounts.pass) ∧
          ∀ r, parseRole role = some r → ¬ roleFails fails username role →
            fails .updatedUser = true → pass = s.accounts.pass ∧ r = u.role := by
  let t := s.withPass pass
  have hpass : Same s t ↔ pass = s.accounts.pass :=
    ⟨Same.pass, fun h => ⟨rfl, h, rfl, rfl⟩⟩
  have hut : t.accounts.db.user username = some u := hu
  have hsome : (t.accounts.db.userID username).isSome := by
    simp [Database.userID, hut]
  cases role with
  | none =>
      rw [updateRole, allOrNothing_adminAnswer_iff hsome, hpass]
  | some text =>
      simp only [updateRole]
      cases hrole : parseRole text with
      | none =>
          simp only [allOrNothing_error_iff]
          simpa [roleFails, hrole] using hpass
      | some role =>
          have hallowed := allowedRole_of_parseRole hrole
          have hfails : roleFails fails username text ↔
              Refuses (internal (changeRole fails t username role)) := by
            rw [refuses_internal_iff, refuses_changeRole_iff hut hprov hallowed]
            simp [roleFails, hrole]
          have hanswer : ∀ t', internal (changeRole fails t username role) = .ok t' →
              (AllOrNothing Same s (adminAnswer fails username t')
                ↔
              (fails .updatedUser = true → pass = s.accounts.pass ∧ role = u.role)) := by
            intro t' ht'
            obtain ⟨htexts, ha⟩ := accounts_of_changeRole (internal_eq_ok_iff.mp ht')
            obtain ⟨husers, hprofiles, hpass', hid⟩ := accounts_changeRole_eq_ok ha
            rw [allOrNothing_adminAnswer_iff (by rw [hid]; exact hsome),
              ← same_updateUserRole_iff hu]
            exact forall_congr' fun _ =>
              ⟨fun h => ⟨hpass'.symm.trans h.pass, husers.symm.trans h.users⟩,
                fun h => ⟨husers.trans h.2, hpass'.trans h.1, hprofiles, htexts⟩⟩
          refine (allOrNothing_commit_iff _ _).trans (and_congr ?_ ?_)
          · rw [hfails]
            exact imp_congr_right fun _ => hpass
          · simp only [Option.some.injEq, forall_eq', hfails, not_refuses_iff]
            constructor
            · rintro h ⟨t', ht'⟩
              exact (hanswer t' ht').mp (h t' ht')
            · intro h t' ht'
              exact (hanswer t' ht').mpr (h ⟨t', ht'⟩)

/-- Without a password the role is the only write. -/
theorem allOrNothing_role_iff
    {role : String} :
    AllOrNothing Same s (updateRole fails username s (some role))
      ↔
    ∀ u r, s.accounts.db.user username = some u → u.provisioned = false →
      parseRole role = some r → ¬ roleFails fails username role →
      fails .updatedUser = true → r = u.role := by
  by_cases hcan : ∃ u, s.accounts.db.user username = some u ∧ u.provisioned = false
  · obtain ⟨u, hu, hprov⟩ := hcan
    have hrole := @allOrNothing_updateRole_iff fails s u username s.accounts.pass (some role)
      hu hprov
    have hself : s.withPass s.accounts.pass = s := rfl
    rw [hself] at hrole
    rw [hrole]
    simp only [hu, true_and, imp_true_iff]
    constructor
    · rintro h v r hv -
      obtain rfl := Option.some.inj hv
      exact h r
    · intro h r
      exact h u r rfl hprov
  · refine iff_of_true ?_ fun u _ hu hprov => absurd ⟨u, hu, hprov⟩ hcan
    simp only [updateRole]
    cases parseRole role with
    | none =>
        exact fun _ _ => Same.refl s
    | some r =>
        refine (allOrNothing_commit_first (Same.refl s) _ _).mpr fun t ht => ?_
        have hok := internal_eq_ok_iff.mp ht
        unfold changeRole at hok
        split at hok
        · cases hok
        case h_2 hok' =>
          exact absurd (canChangeUser_eq_ok_iff.mp (call_eq_ok_iff.mp hok').2) hcan

theorem allOrNothing_adminUserUpdate_iff
    (b : Bcrypt)
    (fails : Call → Bool)
    (s : State)
    (rnd : Random)
    (path : String)
    (body : Option ApiAdminUserUpdateRequest) :
    AllOrNothing Same s (handleAdminUserUpdate b fails s rnd path body)
      ↔
    (adminUsername path ≠ "" → '/' ∉ (adminUsername path).toList →
      AdminWhole b fails s rnd (adminUsername path) body) := by
  simp only [handleAdminUserUpdate]
  split
  case isTrue hpath =>
    exact iff_of_true (fun _ _ => Same.refl s) fun hname hslash =>
      absurd hpath (not_or.mpr ⟨hname, hslash⟩)
  case isFalse hpath =>
    obtain ⟨hname, hslash⟩ := not_or.mp hpath
    simp only [ne_eq, hname, not_false_eq_true, hslash, true_imp_iff]
    rcases body with _ | ⟨_ | password, role⟩
    · exact iff_of_true (fun _ _ => Same.refl s) trivial
    · cases role with
      | none =>
          exact iff_of_true (fun _ _ => Same.refl s) trivial
      | some role =>
          exact allOrNothing_role_iff
    · refine (allOrNothing_commit_first (Same.refl s) _ _).trans ?_
      simp only [internal_eq_ok_iff, changePassword_eq_ok_iff]
      have hwritten : ∀ u hash, PasswordSet b fails s rnd.salt (adminUsername path) password
          false u hash →
          (AllOrNothing Same s (updateRole fails (adminUsername path)
              (s.withPass (Function.update s.accounts.pass u.id hash)) role)
            ↔
          match role with
          | none => fails .updatedUser = true → hash = s.accounts.pass u.id
          | some role =>
              (roleFails fails (adminUsername path) role → hash = s.accounts.pass u.id) ∧
                ∀ r, parseRole role = some r → ¬ roleFails fails (adminUsername path) role →
                  fails .updatedUser = true → hash = s.accounts.pass u.id ∧ r = u.role) := by
        intro u hash hset
        rw [allOrNothing_updateRole_iff hset.user hset.provisioned]
        cases role <;> simp only [Function.update_eq_self_iff]
      constructor
      · intro h u hash hset
        exact (hwritten u hash hset).mp (h _ ⟨u, hash, hset, rfl⟩)
      · rintro h _ ⟨u, hash, hset, rfl⟩
        exact (hwritten u hash hset).mpr (h u hash hset)

end AdminUpdates

section UserUpdates

variable {b : Bcrypt}
variable {fails : Call → Bool}
variable {s s' : State}
variable {rnd : Random}
variable {u : User}
variable {username code : String}

theorem refuses_checkReservationsLimit_iff
    {limit : Nat}
    (hu : s.accounts.db.user username = some u) :
    Refuses (checkReservationsLimit fails s username limit)
      ↔
    fails .userToChange = true ∨
      u.tier.any (fun t => decide (limit < t.reservationLimit)) = true ∧
        (fails .reservations = true ∨ limit < s.accounts.db.reservationsCount username) := by
  unfold checkReservationsLimit
  rw [hu]
  cases hcall : fails .userToChange with
  | true =>
      simp [call, hcall]
  | false =>
      simp only [call_of_not_fails hcall, Except.mapError, Bool.false_eq_true, false_or]
      split
      case isTrue hlimit =>
        rw [refuses_call_iff, and_iff_right hlimit]
        split <;> simp_all
      case isFalse hlimit =>
        simp [hlimit]

/-- `ChangeTier` of a user. -/
theorem refuses_changeTier_iff
    (hname : allowedUsername username = true)
    (hu : s.accounts.db.user username = some u) :
    Refuses (changeTier fails s username code) ↔ tierFails fails s username code u.tier := by
  unfold changeTier tierFails
  simp only [hname, Bool.not_true, Bool.false_eq_true, if_false]
  cases htier : fails .tierToChange with
  | true =>
      simp [call, htier]
  | false =>
      simp only [call_of_not_fails htier, Manager.Accounts.tier]
      cases s.accounts.tiers.find? code with
      | none =>
          simp [Except.mapError]
      | some row =>
          have hcheck := @refuses_checkReservationsLimit_iff fails s u username
            row.tier.reservationLimit hu
          simp only [Except.mapError, Option.some.injEq, forall_eq', Bool.false_eq_true,
            false_or]
          cases hlimit : checkReservationsLimit fails s username row.tier.reservationLimit with
          | error e =>
              rw [hlimit] at hcheck
              have hfails := hcheck.mp (refuses_error e)
              simp only [refuses_error, true_iff]
              tauto
          | ok _ =>
              rw [hlimit] at hcheck
              have hfails := hcheck.not.mp (not_refuses_ok _)
              simp only [refuses_call_iff, not_refuses_ok, or_false]
              tauto

theorem refuses_findTier_iff :
    Refuses (findTier fails s code)
      ↔
    fails .tier = true ∨ s.accounts.tiers.find? code = none := by
  unfold findTier
  cases hcall : fails .tier with
  | true =>
      simp
  | false =>
      cases s.accounts.tiers.find? code <;> simp

/-- The row that a successful `AddUser` has inserted. -/
theorem accounts_addUser_eq_ok_iff
    {salt : Vector UInt8 16} {id password : String} {hashed : Bool} {a : Manager.Accounts}
    (hname : allowedUsername username = true) :
    Manager.Accounts.addUser b s.accounts salt id username password .user hashed = .ok a
      ↔
    ∃ (hash : String) (hfree : s.accounts.db.insertable id username),
      passColumn b salt password hashed = .ok hash ∧
        a = { s.accounts with
          db := s.accounts.db.insertUser (newUser id username .user) hname hfree
          pass := Function.update s.accounts.pass id hash
          deleted := Function.update s.accounts.deleted id false } := by
  unfold Manager.Accounts.addUser
  rw [dif_pos ⟨hname, rfl⟩]
  cases passColumn b salt password hashed with
  | error e =>
      simp
  | ok hash =>
      by_cases hfree : s.accounts.db.insertable id username
      · simp [hfree, hfree.1, eq_comm]
      · simp only [hfree, dif_neg, not_false_eq_true]
        split <;> simp

theorem exists_addUser_eq_ok_iff
    {req : ApiUserAddOrUpdateRequest b}
    (hname : allowedUsername req.username = true) :
    (∃ s', addUser fails s rnd req = .ok s') ↔ CanAdd fails s rnd req := by
  unfold addUser
  simp only [call_eq_ok_iff]
  constructor
  · rintro ⟨s', hcall, h⟩
    cases ha : Manager.Accounts.addUser b s.accounts rnd.salt rnd.id req.username
        req.secret.1 .user req.secret.2 with
    | error e =>
        simp [ha, Except.map] at h
    | ok a =>
        obtain ⟨hash, hfree, hhash, -⟩ := (accounts_addUser_eq_ok_iff hname).mp ha
        exact ⟨hcall, hfree, hash, hhash⟩
  · rintro ⟨hcall, hfree, hash, hhash⟩
    have hadd := (accounts_addUser_eq_ok_iff hname).mpr ⟨hash, hfree, hhash, rfl⟩
    rw [hadd]
    exact ⟨_, hcall, rfl⟩

/-- What is there when the user has been added. -/
theorem addUser_facts
    {req : ApiUserAddOrUpdateRequest b}
    (hname : allowedUsername req.username = true)
    (h : addUser fails s rnd req = .ok s') :
    s'.accounts.db.user req.username = some (newUser rnd.id req.username .user) ∧
      s'.accounts.tiers = s.accounts.tiers ∧
      ¬ Same s s' := by
  unfold addUser at h
  cases ha : Manager.Accounts.addUser b s.accounts rnd.salt rnd.id req.username req.secret.1
      .user req.secret.2 with
  | error e =>
      simp [ha, call_eq_ok_iff, Except.map] at h
  | ok a =>
      obtain ⟨hash, hfree, hhash, rfl⟩ := (accounts_addUser_eq_ok_iff hname).mp ha
      simp only [ha, call_eq_ok_iff, Except.map, Except.ok.injEq] at h
      obtain ⟨-, rfl⟩ := h
      refine ⟨?_, rfl, fun hsame => ?_⟩
      · exact (Database.user_insertUser (u := newUser rnd.id req.username .user) hname hfree
          req.username).trans (if_pos rfl)
      · have hlength := congrArg (fun T => T.rows.length) hsame.users
        simp [Database.insertUser] at hlength

/-- The tier of a user who has just been written. -/
theorem allOrNothing_changeTier_iff
    (hname : allowedUsername username = true)
    (hu : s'.accounts.db.user username = some u) :
    AllOrNothing Same s
        (commit s' (changeTier fails s' username code) fun t =>
          ((t, .ok ()) : Attempt State HandlerError Unit))
      ↔
    (tierFails fails s' username code u.tier → Same s s') := by
  rw [allOrNothing_commit_last, refuses_changeTier_iff hname hu]

/-- For a user without a tier there is no lower limit. -/
theorem tierFails_none_iff
    (htiers : s'.accounts.tiers = s.accounts.tiers) :
    tierFails fails s' username code none ↔ tierFails fails s username code none := by
  simp [tierFails, htiers]

/-- A user who has been added is there whatever comes after. -/
theorem allOrNothing_addUser_iff
    {req : ApiUserAddOrUpdateRequest b}
    {next : State → Attempt State HandlerError Unit}
    {q : Prop}
    (hname : allowedUsername req.username = true)
    (hnext : ∀ t, t.accounts.db.user req.username =
        some (newUser rnd.id req.username .user) →
      t.accounts.tiers = s.accounts.tiers → ¬ Same s t →
      (AllOrNothing Same s (next t) ↔ q)) :
    AllOrNothing Same s (commit s (addUser fails s rnd req) next)
      ↔
    (CanAdd fails s rnd req → q) := by
  rw [allOrNothing_commit_first (Same.refl s), ← exists_addUser_eq_ok_iff hname]
  constructor
  · rintro h ⟨t, ht⟩
    obtain ⟨hu, htiers, hdiff⟩ := addUser_facts hname ht
    exact (hnext t hu htiers hdiff).mp (h t ht)
  · intro h t ht
    obtain ⟨hu, htiers, hdiff⟩ := addUser_facts hname ht
    exact (hnext t hu htiers hdiff).mpr (h ⟨t, ht⟩)

/-- A lookup before anything is written. -/
theorem allOrNothing_read_iff
    {α β : Type} {c : Call} {o : β} {next : β → Attempt State HandlerError α} :
    AllOrNothing Same s (check s (call fails c (.ok o)) next)
      ↔
    (fails c = false → AllOrNothing Same s (next o)) := by
  rw [allOrNothing_check_first (Same.refl s)]
  simp only [call_eq_ok_iff, Except.ok.injEq]
  exact ⟨fun h hc => h o ⟨hc, rfl⟩, fun h _ hb => hb.2 ▸ h hb.1⟩

theorem allOrNothing_usersAdd_iff
    (fails : Call → Bool)
    (s : State)
    (rnd : Random)
    (body : Body (ApiUserAddOrUpdateRequest b)) :
    AllOrNothing Same s (handleUsersAdd fails s rnd body) ↔ AddWhole fails s rnd body := by
  cases body with
  | invalid =>
      exact iff_of_true (fun _ _ => Same.refl s) trivial
  | tooLarge =>
      exact iff_of_true (fun _ _ => Same.refl s) trivial
  | json req =>
      simp only [handleUsersAdd, readJSONWithLimit, allOrNothing_check_first (Same.refl s),
        Except.ok.injEq, forall_eq', AddWhole]
      split
      case isTrue hreq =>
        refine iff_of_true (fun _ _ => Same.refl s) fun hname hsecret => ?_
        simp [hname, hsecret] at hreq
      case isFalse hreq =>
        simp only [Bool.or_eq_true, Bool.not_eq_true', Bool.and_eq_true, decide_eq_true_eq,
          not_or, Bool.not_eq_false] at hreq
        rw [allOrNothing_read_iff]
        simp only [hreq.1, hreq.2, not_false_eq_true, true_imp_iff]
        cases hu : s.accounts.db.user req.username with
        | some v =>
            refine iff_of_true (fun _ _ _ => Same.refl s) fun _ _ _ _ hadd => ?_
            exact absurd hadd.free.1 (by simp [hu])
        | none =>
            simp only [Option.isSome_none, Bool.false_eq_true, if_false,
              allOrNothing_check_first (Same.refl s)]
            by_cases htier : req.tier = ""
            · refine iff_of_true (fun _ _ _ => ?_) fun hne => absurd htier hne
              simp only [htier, if_true]
              exact (allOrNothing_addUser_iff hreq.1 fun _ _ _ _ =>
                iff_of_true (allOrNothing_ok _) trivial).mpr fun _ => trivial
            · have hadded := @allOrNothing_addUser_iff b fails s rnd req
                (fun t => commit t (changeTier fails t req.username req.tier) fun t => (t, .ok ()))
                (¬ tierFails fails s req.username req.tier none) hreq.1
                fun t hu htiers hdiff => by
                  rw [allOrNothing_changeTier_iff hreq.1 hu, ← tierFails_none_iff htiers]
                  exact imp_congr_right fun _ => iff_of_false hdiff id
              simp only [htier, if_false, hadded, ne_eq, not_false_eq_true, true_imp_iff]
              have hfound : (∃ x, findTier fails s req.tier = .ok x) ↔
                  fails .tier = false ∧ (s.accounts.tiers.find? req.tier).isSome = true := by
                rw [← not_refuses_iff, refuses_findTier_iff, not_or, Bool.not_eq_true,
                  Option.isSome_iff_ne_none]
              rw [← exists_imp, hfound, and_imp]

/-- The tier comes after everything else. -/
theorem allOrNothing_setTier_iff
    {req : ApiUserAddOrUpdateRequest b}
    (hname : allowedUsername req.username = true)
    (hu : s'.accounts.db.user req.username = some u) :
    AllOrNothing Same s
        (if req.tier = "" then
          (s', .ok ())
        else
          check s' (findTier fails s' req.tier) fun _ =>
          commit s' (changeTier fails s' req.username req.tier) fun t =>
            ((t, .ok ()) : Attempt State HandlerError Unit))
      ↔
    (req.tier ≠ "" →
      fails .tier = true ∨ tierFails fails s' req.username req.tier u.tier → Same s s') := by
  by_cases htier : req.tier = ""
  · simp [htier]
  · simp only [htier, if_false, allOrNothing_check_iff, refuses_findTier_iff,
      allOrNothing_changeTier_iff hname hu, ne_eq, not_false_eq_true, true_imp_iff]
    constructor
    · rintro ⟨hfind, hchange⟩ (htier | htier)
      · exact hfind (Or.inl htier)
      · by_cases hrefuses : Refuses (findTier fails s' req.tier)
        · exact hfind (refuses_findTier_iff.mp hrefuses)
        · obtain ⟨x, hx⟩ := not_refuses_iff.mp hrefuses
          exact hchange x hx htier
    · refine fun h => ⟨fun hfind => h (hfind.imp_right fun hnone => ?_),
        fun _ _ htier => h (Or.inr htier)⟩
      refine Or.inr (Or.inr (Or.inr fun row hrow => ?_))
      rw [hnone] at hrow
      cases hrow

theorem allOrNothing_usersUpdate_iff
    (fails : Call → Bool)
    (s : State)
    (rnd : Random)
    (body : Body (ApiUserAddOrUpdateRequest b)) :
    AllOrNothing Same s (handleUsersUpdate fails s rnd body)
      ↔
    UpdateWhole fails s rnd body := by
  cases body with
  | invalid =>
      exact iff_of_true (fun _ _ => Same.refl s) trivial
  | tooLarge =>
      exact iff_of_true (fun _ _ => Same.refl s) trivial
  | json req =>
      simp only [handleUsersUpdate, readJSONWithLimit, allOrNothing_check_first (Same.refl s),
        Except.ok.injEq, forall_eq', UpdateWhole]
      split
      case isTrue hname =>
        refine iff_of_true (fun _ _ => Same.refl s) fun hname' => ?_
        simp [hname'] at hname
      case isFalse hname =>
        have hname : allowedUsername req.username = true := by simpa using hname
        split
        case isTrue hreq =>
          exact iff_of_true (fun _ _ => Same.refl s) fun _ htier => absurd hreq.2.2 htier
        case isFalse hreq =>
          rw [allOrNothing_read_iff]
          simp only [hname, true_imp_iff]
          cases hu : s.accounts.db.user req.username with
          | none =>
              have hadded := @allOrNothing_addUser_iff b fails s rnd req
                (fun t => if req.tier = "" then (t, .ok ()) else
                  check t (findTier fails t req.tier) fun _ =>
                  commit t (changeTier fails t req.username req.tier) fun t => (t, .ok ()))
                (req.tier ≠ "" →
                  ¬ (fails .tier = true ∨ tierFails fails s req.username req.tier none)) hname
                fun t hu htiers hdiff => by
                  rw [allOrNothing_setTier_iff hname hu, ← tierFails_none_iff htiers]
                  exact imp_congr_right fun _ => imp_congr_right fun _ => iff_of_false hdiff id
              simp only [updateOrAdd, hadded]
              constructor
              · intro h htier hcall
                refine ⟨fun u hash _ _ hset => ?_, fun hadd => h hcall hadd htier⟩
                exact absurd hset.user (by simp [hu])
              · intro h hcall hadd htier
                exact (h htier hcall).2 hadd
          | some v =>
              have hfree : ¬ CanAdd fails s rnd req := fun hadd =>
                absurd hadd.free.1 (by simp [hu])
              simp only [updateOrAdd, hfree, false_imp_iff, and_true]
              split
              case isTrue hadmin =>
                refine iff_of_true (fun _ _ _ => Same.refl s) fun _ _ u hash huser _ hset => ?_
                obtain rfl := Option.some.inj (hu.symm.trans hset.user)
                rw [hadmin] at huser
                cases huser
              case isFalse hadmin =>
                have huser : isAdmin (some v) = false := by simpa using hadmin
                split
                case isTrue hgiven =>
                  constructor
                  · intro h htier hcall u hash _ _ hset hstops
                    have hnext := (allOrNothing_commit_first (Same.refl s) _ _).mp (h hcall) _
                      (changePassword_eq_ok_iff.mpr ⟨u, hash, hset, rfl⟩)
                    have huser' : (s.withPass (Function.update s.accounts.pass u.id hash)
                        ).accounts.db.user req.username = some u := hset.user
                    exact same_changePassword_iff.mp
                      ((allOrNothing_setTier_iff hname huser').mp hnext htier hstops)
                  · intro h hcall
                    refine (allOrNothing_commit_first (Same.refl s) _ _).mpr fun t ht => ?_
                    obtain ⟨u, hash, hset, rfl⟩ := changePassword_eq_ok_iff.mp ht
                    obtain rfl := Option.some.inj (hu.symm.trans hset.user)
                    have huser' : (s.withPass (Function.update s.accounts.pass v.id hash)
                        ).accounts.db.user req.username = some v := hu
                    refine (allOrNothing_setTier_iff hname huser').mpr fun htier hstops => ?_
                    exact same_changePassword_iff.mpr
                      (h htier hcall v hash huser hgiven hset hstops)
                case isFalse hgiven =>
                  refine iff_of_true (fun _ => ?_) fun _ _ _ _ _ hgiven' => absurd hgiven' hgiven
                  refine (allOrNothing_commit_first (Same.refl s) _ _).mpr fun t ht => ?_
                  obtain rfl := Except.ok.inj ht
                  exact (allOrNothing_setTier_iff hname hu).mpr fun _ _ => Same.refl s

end UserUpdates

section Requests

variable {b : Bcrypt}

/-- A request to one of the four endpoints; the last three are for admins. -/
inductive Request (b : Bcrypt) where
  | profileUpdate
      (u : User)
      (body : Body ApiProfileUpdateRequest)
  | adminUserUpdate
      (rnd : Random)
      (path : String)
      (body : Option ApiAdminUserUpdateRequest)
  | usersAdd
      (rnd : Random)
      (body : Body (ApiUserAddOrUpdateRequest b))
  | usersUpdate
      (rnd : Random)
      (body : Body (ApiUserAddOrUpdateRequest b))

/-- If the request fails, users, profiles, tiers, passwords and roles are as before. -/
def KeepsOnError
    (fails : Call → Bool)
    (s : State) :
    Request b → Prop
  | .profileUpdate u body => AllOrNothing Same s (handleProfileUpdate fails s u body)
  | .adminUserUpdate rnd path body =>
      AllOrNothing Same s (handleAdminUserUpdate b fails s rnd path body)
  | .usersAdd rnd body => AllOrNothing Same s (handleUsersAdd fails s rnd body)
  | .usersUpdate rnd body => AllOrNothing Same s (handleUsersUpdate fails s rnd body)

/-- Nothing that was written is followed by a check or a write that fails. -/
def Whole
    (fails : Call → Bool)
    (s : State) :
    Request b → Prop
  | .profileUpdate u body => ProfileWhole fails s u body
  | .adminUserUpdate rnd path body =>
      adminUsername path ≠ "" → '/' ∉ (adminUsername path).toList →
        AdminWhole b fails s rnd (adminUsername path) body
  | .usersAdd rnd body => AddWhole fails s rnd body
  | .usersUpdate rnd body => UpdateWhole fails s rnd body

theorem keepsOnError_iff
    (fails : Call → Bool)
    (s : State)
    (r : Request b) :
    KeepsOnError fails s r ↔ Whole fails s r := by
  cases r with
  | profileUpdate u body =>
      exact allOrNothing_profileUpdate_iff fails s u body
  | adminUserUpdate rnd path body =>
      exact allOrNothing_adminUserUpdate_iff b fails s rnd path body
  | usersAdd rnd body =>
      exact allOrNothing_usersAdd_iff fails s rnd body
  | usersUpdate rnd body =>
      exact allOrNothing_usersUpdate_iff fails s rnd body

section Values

open Accounts (exampleBcrypt exampleRandom)

/-- A regular user with a password, an empty profile and no tier. -/
def exampleUser : User :=
  ⟨"u_phil", "phil", .user, none, ⟨0, 0, 0⟩, false⟩

theorem exampleUser_allowed :
    allowedUsername exampleUser.name = true := by
  decide

theorem exampleUser_insertable :
    Database.initial.insertable exampleUser.id exampleUser.name := by
  decide

def exampleState : State where
  accounts :=
    { db := Database.initial.insertUser exampleUser exampleUser_allowed exampleUser_insertable
      pass := fun _ => "$2a$10$secret"
      deleted := fun _ => false
      tiers := ⟨[⟨"pro", ⟨"ti_1", 3⟩⟩], List.nodup_singleton _⟩ }
  texts := addTexts .empty "u_phil"

/-- A display name with a privacy setting that does not exist. -/
def secretProfile : Request exampleBcrypt :=
  .profileUpdate exampleUser (.json ⟨some "Phil", none, some "secret"⟩)

/-- A password with a role that does not exist. -/
def rootRole : Request exampleBcrypt :=
  .adminUserUpdate exampleRandom "/api/admin/users/phil" (some ⟨some "changed", some "root"⟩)

theorem no_hash :
    exampleBcrypt.compareHashAndPassword "" "" = false := by
  decide

/-- A password with a tier that does not exist. -/
def unknownTier : Request exampleBcrypt :=
  .usersUpdate exampleRandom (.json ⟨"phil", "changed", "", "gold", no_hash⟩)

/-- A new user with a tier. -/
def newUserWithTier : Request exampleBcrypt :=
  .usersAdd ⟨Vector.replicate 16 0, "u_ben"⟩ (.json ⟨"ben", "secret", "", "pro", no_hash⟩)

/--
The display name, the password, the password and the new user stay although the request fails;
the last one only if the write of the tier does.
-/
theorem half_applied_updates :
    ¬ KeepsOnError (fun _ => false) exampleState secretProfile ∧
      ¬ KeepsOnError (fun _ => false) exampleState rootRole ∧
      ¬ KeepsOnError (fun _ => false) exampleState unknownTier ∧
      ¬ KeepsOnError (fun c => decide (c = .changeTier)) exampleState newUserWithTier := by
  refine ⟨fun h => ?_, fun h => ?_, fun h => ?_, fun h => ?_⟩
  · have htexts := congrArg Table.rows (h _ rfl).texts
    revert htexts
    decide
  · have hpass := congrFun (h _ rfl).pass "u_phil"
    revert hpass
    decide
  · have hpass := congrFun (h _ rfl).pass "u_phil"
    revert hpass
    decide
  · have husers := congrArg Table.rows (h _ rfl).users
    revert husers
    decide

end Values

end Requests

end FailedUpdates

end Server
end CoopMessenger
