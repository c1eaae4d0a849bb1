import CoopMessenger.Library.Runs
import CoopMessenger.Manager.Accounts
import CoopMessenger.Server.Errors

/-!
# Accounts

The seven endpoints that create accounts or set passwords: signup, invites, the
two admin endpoints for users, each with a way to add and to update, and the
change of one's own password.

**Results.**
* `noEmptyPassword_handle_iff`: when one request leaves no account that opens
  with the empty password.
* `no_empty_password_iff`: the same for every sequence of requests.
-/

namespace CoopMessenger
namespace Server

open Library Manager Manager.Accounts

namespace Accounts

section Model

/-- A row of `invites`. -/
structure Invite where
  token : String
  createdBy : String
  topics : String
  maxUses : Int
  usedCount : Int
  expiresAt : Int
  createdAt : Int
deriving DecidableEq, Repr

/-- A subscription in the settings of a user. -/
structure Subscription where
  baseURL : String
  topic : String
deriving DecidableEq, Repr

/-- The accounts, the invites, and the subscriptions by user ID. -/
structure State where
  accounts : Manager.Accounts
  invites : Table Invite.token
  subscriptions : String → List Subscription

/-- The settings that the endpoints read. -/
structure Config where
  enableSignup : Bool
  baseURL : String

/-- Who sends the request. -/
structure Visitor where
  user : Option User
  accountCreationAllowed : Bool

/-- What `AddUser` draws: the salt and the ID. -/
structure Random where
  salt : Vector UInt8 16
  id : String

/-- A body as `readJSONWithLimit` sees it. -/
inductive Body (α : Type) where
  | json (a : α)
  | invalid
  | tooLarge

/-- Reads the body as JSON. -/
def readJSONWithLimit
    {α : Type} :
    Body α → Except HandlerError α
  | .json a => .ok a
  | .invalid => .error (.http errHTTPBadRequestJSONInvalid)
  | .tooLarge => .error (.http errHTTPEntityTooLargeJSONBody)

structure ApiAccountCreateRequest where
  username : String
  password : String

structure ApiInviteRedeemRequest where
  username : String
  password : String

/-- The supplied hash is not one of the empty password. -/
structure ApiUserAddOrUpdateRequest (b : Bcrypt) where
  username : String
  password : String
  hash : String
  tier : String
  hash_notEmpty : b.compareHashAndPassword hash "" = false

structure ApiAdminUserCreateRequest where
  username : String
  password : String
  role : String

structure ApiAdminUserUpdateRequest where
  password : Option String
  role : Option String

structure ApiAdminUserResponse where
  username : String
  role : Role
deriving DecidableEq, Repr

structure ApiAccountPasswordChangeRequest where
  password : String
  newPassword : String

end Model

section Handlers

/-- The state after the request, and its result. -/
abbrev Outcome (α : Type) : Type :=
  State × Except HandlerError α

/-- Only admins get through. -/
def ensureAdmin
    {α : Type}
    (s : State)
    (v : Visitor)
    (next : Outcome α) : Outcome α :=
  if isAdmin v.user then
    next
  else
    (s, .error (.http errHTTPUnauthorized))

/-- The checks of a signup before its body is read. -/
def signupAllowed
    (conf : Config)
    (v : Visitor) : Except HandlerError Unit :=
  if isAdmin v.user then
    .ok ()
  else if !conf.enableSignup then
    .error (.http errHTTPBadRequestSignupNotEnabled)
  else if v.user.isSome then
    .error (.http errHTTPUnauthorized)
  else if !v.accountCreationAllowed then
    .error (.http errHTTPTooManyRequestsLimitAccountCreation)
  else
    .ok ()

def handleAccountCreate
    (b : Bcrypt)
    (conf : Config)
    (s : State)
    (v : Visitor)
    (rnd : Random)
    (body : Body ApiAccountCreateRequest) : Outcome Unit :=
  match signupAllowed conf v with
  | .error e => (s, .error e)
  | .ok () =>
      match readJSONWithLimit body with
      | .error e => (s, .error e)
      | .ok newAccount =>
          if (s.accounts.db.user newAccount.username).isSome then
            (s, .error (.http errHTTPConflictUserExists))
          else
            match addUser b s.accounts rnd.salt rnd.id newAccount.username
                newAccount.password .user false with
            | .error .invalidArgument =>
                (s, .error (.http errHTTPBadRequestInvalidUsername))
            | .error e => (s, .error (.manager e))
            | .ok accounts => ({ s with accounts }, .ok ())

/-- Retrieves an invite by token and validates it is still usable. -/
def lookupInvite
    (s : State)
    (now : Int)
    (token : String) : Except HandlerError Invite :=
  match s.invites.find? token with
  | none => .error (.http errHTTPBadRequestInviteNotFound)
  | some inv =>
      if inv.expiresAt > 0 ∧ inv.expiresAt < now then
        .error (.http errHTTPBadRequestInviteExpired)
      else if inv.usedCount ≥ inv.maxUses then
        .error (.http errHTTPBadRequestInviteMaxUsed)
      else
        .ok inv

/-- Counts a use of the invite, if there is one left. -/
def useInvite
    (s : State)
    (token : String) : Option State :=
  if s.invites.rows.any (fun inv =>
      decide (inv.token = token ∧ inv.usedCount < inv.maxUses)) then
    some
      { s with
        invites :=
          s.invites.modify
            (fun inv =>
              if inv.token = token ∧ inv.usedCount < inv.maxUses then
                { inv with usedCount := inv.usedCount + 1 }
              else
                inv)
            (by intro inv; split <;> rfl) }
  else
    none

/-- The topics of an invite. -/
def inviteTopics (topics : String) : List String :=
  ((topics.toList.splitOn ',').map
    (fun topic => String.ofList (Util.trimSpace topic))).filter
      (fun topic => decide (topic ≠ ""))

/-- Grants access to the topics, up to the first one that fails. -/
def grantTopics
    (a : Manager.Accounts)
    (username : String) :
    List String → Manager.Accounts × Except HandlerError Unit
  | [] => (a, .ok ())
  | topic :: topics =>
      match a.allowAccess username topic .readWrite with
      | .error e => (a, .error (.manager e))
      | .ok a' => grantTopics a' username topics

/-- Adds the topics to the subscriptions of the user. -/
def addSubscriptions
    (conf : Config)
    (s : State)
    (username : String)
    (topics : List String) : Outcome Unit :=
  if topics.isEmpty then
    (s, .ok ())
  else
    match s.accounts.db.user username with
    | none => (s, .error (.manager .userNotFound))
    | some u =>
        ({ s with
          subscriptions :=
            Function.update s.subscriptions u.id
              (s.subscriptions u.id ++
                topics.map (fun topic => ⟨conf.baseURL, topic⟩)) },
          .ok ())

/-- The account of a redeemed invite. -/
def createInvited
    (b : Bcrypt)
    (conf : Config)
    (s : State)
    (rnd : Random)
    (inv : Invite)
    (req : ApiInviteRedeemRequest) : Outcome Unit :=
  if (s.accounts.db.user req.username).isSome then
    (s, .error (.http errHTTPConflictUserExists))
  else
    match addUser b s.accounts rnd.salt rnd.id req.username req.password
        .user false with
    | .error e => (s, .error (.manager e))
    | .ok a =>
        match grantTopics a req.username (inviteTopics inv.topics) with
        | (accounts, .error e) => ({ s with accounts }, .error e)
        | (accounts, .ok ()) =>
            addSubscriptions conf { s with accounts } req.username
              (inviteTopics inv.topics)

/-- The token in `/v1/invite/{token}/redeem`. -/
def redeemToken (path : String) : String :=
  String.ofList (Util.trimSuffix "/redeem".toList
    (Util.trimPrefix "/v1/invite/".toList path.toList))

def handleInviteRedeem
    (b : Bcrypt)
    (conf : Config)
    (s : State)
    (now : Int)
    (rnd : Random)
    (path : String)
    (body : Body ApiInviteRedeemRequest) : Outcome Unit :=
  if redeemToken path = "" then
    (s, .error (.http errHTTPBadRequestInviteInvalid))
  else
    match lookupInvite s now (redeemToken path) with
    | .error e => (s, .error e)
    | .ok inv =>
        match readJSONWithLimit body with
        | .error e => (s, .error e)
        | .ok req =>
            if !allowedUsername req.username || decide (req.password = "") then
              (s, .error (.http (errHTTPBadRequest.wrap
                "username invalid or password missing")))
            else
              match useInvite s (redeemToken path) with
              | none => (s, .error (.http errHTTPBadRequestInviteMaxUsed))
              | some s' => createInvited b conf s' rnd inv req

variable {b : Bcrypt}

/-- The password or the hash, and which of the two; the hash comes first. -/
def ApiUserAddOrUpdateRequest.secret
    (req : ApiUserAddOrUpdateRequest b) : String × Bool :=
  if req.hash ≠ "" then
    (req.hash, true)
  else
    (req.password, false)

/-- `AddUser` for a request that may bring a hash. -/
def addWithSecret
    (s : State)
    (rnd : Random)
    (req : ApiUserAddOrUpdateRequest b) : Except Manager.Error State :=
  match addUser b s.accounts rnd.salt rnd.id req.username req.secret.1 .user
      req.secret.2 with
  | .error e => .error e
  | .ok accounts => .ok { s with accounts }

/-- `ChangeTier`, after the user has been written. -/
def setTier
    (s : State)
    (req : ApiUserAddOrUpdateRequest b) : Outcome Unit :=
  match s.accounts.changeTier req.username req.tier with
  | .error e => (s, .error (.manager e))
  | .ok accounts => ({ s with accounts }, .ok ())

def handleUsersAdd
    (s : State)
    (v : Visitor)
    (rnd : Random)
    (body : Body (ApiUserAddOrUpdateRequest b)) : Outcome Unit :=
  ensureAdmin s v
    (match readJSONWithLimit body with
    | .error e => (s, .error e)
    | .ok req =>
        if !allowedUsername req.username ||
            (decide (req.password = "") && decide (req.hash = "")) then
          (s, .error (.http (errHTTPBadRequest.wrap
            "username invalid, or password/password_hash missing")))
        else if (s.accounts.db.user req.username).isSome then
          (s, .error (.http errHTTPConflictUserExists))
        else if req.tier ≠ "" ∧ (s.accounts.tiers.find? req.tier).isNone then
          (s, .error (.http errHTTPBadRequestTierInvalid))
        else
          match addWithSecret s rnd req with
          | .error e => (s, .error (.manager e))
          | .ok s' =>
              if req.tier ≠ "" then
                setTier s' req
              else
                (s', .ok ()))

/-- The first half of an update: the password, or a new account. -/
def updateOrAdd
    (s : State)
    (rnd : Random)
    (req : ApiUserAddOrUpdateRequest b) : Except HandlerError State :=
  match s.accounts.db.user req.username with
  | some u =>
      if isAdmin (some u) then
        .error (.http errHTTPForbidden)
      else if req.hash ≠ "" ∨ req.password ≠ "" then
        match changePassword b s.accounts rnd.salt req.username req.secret.1
            req.secret.2 with
        | .error e => .error (.manager e)
        | .ok accounts => .ok { s with accounts }
      else
        .ok s
  | none =>
      match addWithSecret s rnd req with
      | .error e => .error (.manager e)
      | .ok s' => .ok s'

def handleUsersUpdate
    (s : State)
    (v : Visitor)
    (rnd : Random)
    (body : Body (ApiUserAddOrUpdateRequest b)) : Outcome Unit :=
  ensureAdmin s v
    (match readJSONWithLimit body with
    | .error e => (s, .error e)
    | .ok req =>
        if !allowedUsername req.username then
          (s, .error (.http (errHTTPBadRequest.wrap "username invalid")))
        else if req.password = "" ∧ req.hash = "" ∧ req.tier = "" then
          (s, .error (.http (errHTTPBadRequest.wrap ("need to provide at " ++
            "least one of \"password\", \"password_hash\" or \"tier\""))))
        else
          match updateOrAdd s rnd req with
          | .error e => (s, .error e)
          | .ok s' =>
              if req.tier = "" then
                (s', .ok ())
              else if (s'.accounts.tiers.find? req.tier).isNone then
                (s', .error (.http errHTTPBadRequestTierInvalid))
              else
                setTier s' req)

/-- The roles that an admin can give. -/
def parseRole : String → Option Role
  | "user" => some .user
  | "admin" => some .admin
  | _ => none

/-- `none` is a body that is no valid JSON. -/
def handleAdminUserCreate
    (b : Bcrypt)
    (s : State)
    (v : Visitor)
    (rnd : Random)
    (body : Option ApiAdminUserCreateRequest) : Outcome ApiAdminUserResponse :=
  ensureAdmin s v
    (match body with
    | none => (s, .error (.http (errHTTPBadRequest.wrap "invalid JSON body")))
    | some req =>
        if req.username = "" ∨ req.password = "" ∨ req.role = "" then
          (s, .error (.http (errHTTPBadRequest.wrap
            "username, password, and role are required")))
        else
          match parseRole req.role with
          | none => (s, .error (.http (errHTTPBadRequest.wrap "invalid role")))
          | some role =>
              match addUser b s.accounts rnd.salt rnd.id req.username
                  req.password role false with
              | .error _ => (s, .error (.http errHTTPInternalError))
              | .ok accounts =>
                  ({ s with accounts }, .ok ⟨req.username, role⟩))

/-- The second half of an update: the role, and the answer. -/
def updateRole
    (s : State)
    (username : String)
    (role : Option String) : Outcome ApiAdminUserResponse :=
  let answer (s : State) : Outcome ApiAdminUserResponse :=
    match s.accounts.db.user username with
    | none => (s, .error (.http errHTTPInternalError))
    | some u => (s, .ok ⟨u.name, u.role⟩)
  match role with
  | none => answer s
  | some role =>
      match parseRole role with
      | none => (s, .error (.http (errHTTPBadRequest.wrap "invalid role")))
      | some role =>
          match s.accounts.changeRole username role with
          | .error _ => (s, .error (.http errHTTPInternalError))
          | .ok accounts => answer { s with accounts }

/-- The name in `/api/admin/users/{username}`. -/
def adminUsername (path : String) : String :=
  String.ofList (Util.trimPrefix "/api/admin/users/".toList path.toList)

def handleAdminUserUpdate
    (b : Bcrypt)
    (s : State)
    (v : Visitor)
    (rnd : Random)
    (path : String)
    (body : Option ApiAdminUserUpdateRequest) : Outcome ApiAdminUserResponse :=
  ensureAdmin s v
    (if adminUsername path = "" ∨ '/' ∈ (adminUsername path).toList then
      (s, .error (.http errHTTPNotFound))
    else
      match body with
      | none => (s, .error (.http (errHTTPBadRequest.wrap "invalid JSON body")))
      | some ⟨none, none⟩ =>
          (s, .error (.http (errHTTPBadRequest.wrap
            "at least one of password or role must be provided")))
      | some ⟨none, role⟩ => updateRole s (adminUsername path) role
      | some ⟨some password, role⟩ =>
          match changePassword b s.accounts rnd.salt (adminUsername path)
              password false with
          | .error _ => (s, .error (.http errHTTPInternalError))
          | .ok accounts =>
              updateRole { s with accounts } (adminUsername path) role)

def handleAccountPasswordChange
    (b : Bcrypt)
    (s : State)
    (v : Visitor)
    (rnd : Random)
    (body : Body ApiAccountPasswordChangeRequest) : Outcome Unit :=
  match v.user with
  | none => (s, .error (.http errHTTPUnauthorized))
  | some u =>
      match readJSONWithLimit body with
      | .error e => (s, .error e)
      | .ok req =>
          if req.password = "" ∨ req.newPassword = "" then
            (s, .error (.http errHTTPBadRequest))
          else
            match authenticate b s.accounts u.name req.password with
            | .error _ =>
                (s, .error (.http
                  errHTTPBadRequestIncorrectPasswordConfirmation))
            | .ok _ =>
                match changePassword b s.accounts rnd.salt u.name
                    req.newPassword false with
                | .error .provisionedUserChange =>
                    (s, .error (.http errHTTPConflictProvisionedUserChange))
                | .error e => (s, .error (.manager e))
                | .ok accounts => ({ s with accounts }, .ok ())

end Handlers

section Requests

/-- A request to one of the endpoints, with what the server draws for it. -/
inductive Request (b : Bcrypt) where
  | accountCreate
      (v : Visitor)
      (rnd : Random)
      (body : Body ApiAccountCreateRequest)
  | inviteRedeem
      (now : Int)
      (rnd : Random)
      (path : String)
      (body : Body ApiInviteRedeemRequest)
  | usersAdd
      (v : Visitor)
      (rnd : Random)
      (body : Body (ApiUserAddOrUpdateRequest b))
  | usersUpdate
      (v : Visitor)
      (rnd : Random)
      (body : Body (ApiUserAddOrUpdateRequest b))
  | adminUserCreate
      (v : Visitor)
      (rnd : Random)
      (body : Option ApiAdminUserCreateRequest)
  | adminUserUpdate
      (v : Visitor)
      (rnd : Random)
      (path : String)
      (body : Option ApiAdminUserUpdateRequest)
  | accountPasswordChange
      (v : Visitor)
      (rnd : Random)
      (body : Body ApiAccountPasswordChangeRequest)

/-- The state after a request. -/
def handle
    (b : Bcrypt)
    (conf : Config)
    (s : State) :
    Request b → State
  | .accountCreate v rnd body => (handleAccountCreate b conf s v rnd body).1
  | .inviteRedeem now rnd path body =>
      (handleInviteRedeem b conf s now rnd path body).1
  | .usersAdd v rnd body => (handleUsersAdd s v rnd body).1
  | .usersUpdate v rnd body => (handleUsersUpdate s v rnd body).1
  | .adminUserCreate v rnd body => (handleAdminUserCreate b s v rnd body).1
  | .adminUserUpdate v rnd path body =>
      (handleAdminUserUpdate b s v rnd path body).1
  | .accountPasswordChange v rnd body =>
      (handleAccountPasswordChange b s v rnd body).1

/-- Every request is answered. -/
def step
    (b : Bcrypt)
    (conf : Config)
    (s : State)
    (r : Request b) : Option State :=
  some (handle b conf s r)

end Requests

section Conditions

variable {b : Bcrypt}

/-- A request of this kind can add the account. -/
def mayAdd
    (s : State)
    (rnd : Random)
    (username : String) : Prop :=
  allowedUsername username = true ∧
    s.accounts.db.insertable rnd.id username

/-- The password of this account decides who can log in. -/
def mayChange
    (s : State)
    (username : String) : Prop :=
  ∃ u, s.accounts.db.user username = some u ∧ u.provisioned = false ∧
    username ≠ everyone ∧ s.accounts.deleted u.id = false

/--
A signup that goes through, an update that adds the account and a change by an
admin bring a password that is not empty.
-/
def Guarded
    (conf : Config)
    (s : State) :
    Request b → Prop
  | .accountCreate v rnd (.json req) =>
      signupAllowed conf v = .ok () → mayAdd s rnd req.username →
        req.password ≠ ""
  | .usersUpdate v rnd (.json req) =>
      isAdmin v.user = true → mayAdd s rnd req.username → req.tier ≠ "" →
        req.hash ≠ "" ∨ req.password ≠ ""
  | .adminUserUpdate v _ path (some req) =>
      isAdmin v.user = true → adminUsername path ≠ "" →
        '/' ∉ (adminUsername path).toList →
        mayChange s (adminUsername path) → req.password ≠ some ""
  | _ => True

end Conditions

section Steps

variable {b : Bcrypt}
variable {conf : Config}
variable {s s' : State}
variable {rnd : Random}

/-- A request that only admins may send leaves the state to all others. -/
theorem ensureAdmin_of_not
    {α : Type} {v : Visitor} {next : Outcome α}
    (h : isAdmin v.user = false) :
    ensureAdmin s v next = (s, .error (.http errHTTPUnauthorized)) := by
  simp [ensureAdmin, h]

theorem ensureAdmin_of_isAdmin
    {α : Type} {v : Visitor} {next : Outcome α}
    (h : isAdmin v.user = true) :
    ensureAdmin s v next = next := by
  simp [ensureAdmin, h]

/-- `AddUser` of a name and an ID that are free succeeds. -/
theorem addUser_of_mayAdd
    (hb : b.Lawful)
    {username : String} {role : Role}
    (hrole : allowedRole role = true)
    (h : mayAdd s rnd username) :
    ∃ a, addUser b s.accounts rnd.salt rnd.id username "" role false =
      .ok a := by
  obtain ⟨hash, hp⟩ := passColumn_empty hb
  exact addUser_isOk h.1 hrole h.2 hp

/-- A name and an ID that `AddUser` has taken were free. -/
theorem mayAdd_of_addUser
    {a : Manager.Accounts} {username password : String} {role : Role}
    {hashed : Bool}
    (h : addUser b s.accounts rnd.salt rnd.id username password role hashed =
      .ok a) :
    mayAdd s rnd username := by
  obtain ⟨_, -, hname, hfree, -⟩ := addUser_eq_ok h
  exact ⟨hname, hfree⟩

/-- Grants change no login. -/
theorem sameLogins_grantTopics
    (a : Manager.Accounts)
    (username : String)
    (topics : List String) :
    SameLogins a (grantTopics a username topics).1 := by
  induction topics generalizing a with
  | nil =>
      exact .refl
  | cons topic topics ih =>
      simp only [grantTopics]
      split
      case h_1 =>
        exact .refl
      case h_2 a' ha' =>
        exact (sameLogins_allowAccess ha').trans (ih a')

theorem accounts_addSubscriptions
    (username : String)
    (topics : List String) :
    (addSubscriptions conf s username topics).1.accounts = s.accounts := by
  unfold addSubscriptions
  split
  · rfl
  · split <;> rfl

/-- A tier changes no login. -/
theorem sameLogins_setTier
    (req : ApiUserAddOrUpdateRequest b) :
    SameLogins s.accounts (setTier s req).1.accounts := by
  unfold setTier
  split
  case h_1 =>
    exact .refl
  case h_2 a ha =>
    exact sameLogins_changeTier ha

/-- A role changes no login. -/
theorem sameLogins_updateRole
    (username : String)
    (role : Option String) :
    SameLogins s.accounts (updateRole s username role).1.accounts := by
  have hanswer : ∀ s : State,
      (match s.accounts.db.user username with
        | none => ((s, .error (.http errHTTPInternalError)) :
            Outcome ApiAdminUserResponse)
        | some u => (s, .ok ⟨u.name, u.role⟩)).1 = s := by
    intro s
    split <;> rfl
  unfold updateRole
  extract_lets answer
  split
  case h_1 =>
    rw [hanswer]
    exact .refl
  case h_2 =>
    split
    case h_1 =>
      exact .refl
    case h_2 =>
      split
      case h_1 =>
        exact .refl
      case h_2 a ha =>
        rw [hanswer]
        exact sameLogins_changeRole ha

end Steps

section Endpoints

variable {b : Bcrypt}
variable {conf : Config}
variable {s s' : State}
variable {rnd : Random}

/-- A signup. -/
theorem noEmptyPassword_accountCreate_iff
    (hb : b.Lawful)
    {v : Visitor} {body : Body ApiAccountCreateRequest}
    (hs : NoEmptyPassword b s.accounts) :
    NoEmptyPassword b (handleAccountCreate b conf s v rnd body).1.accounts
      ↔
    Guarded conf s (.accountCreate v rnd body : Request b) := by
  unfold handleAccountCreate
  cases hallow : signupAllowed conf v with
  | error e =>
      cases body <;> simp [Guarded, hallow, hs]
  | ok _ =>
      cases body with
      | invalid =>
          simp [readJSONWithLimit, Guarded, hs]
      | tooLarge =>
          simp [readJSONWithLimit, Guarded, hs]
      | json req =>
          simp only [readJSONWithLimit, Guarded, hallow, true_imp_iff]
          split
          case isTrue hsome =>
            refine iff_of_true hs (fun hadd => ?_)
            rw [hadd.2.1] at hsome
            cases hsome
          case isFalse =>
            -- an account that may be added is refused for its password only
            have hfails : ∀ e,
                addUser b s.accounts rnd.salt rnd.id req.username
                  req.password .user false = .error e →
                mayAdd s rnd req.username → req.password ≠ "" := by
              intro e he hadd hempty
              have hrole : allowedRole .user = true := rfl
              obtain ⟨a, ha⟩ := addUser_of_mayAdd hb hrole hadd
              rw [hempty, ha] at he
              cases he
            split
            case h_1 he =>
              exact iff_of_true hs (hfails _ he)
            case h_2 e _ he =>
              exact iff_of_true hs (hfails e he)
            case h_3 a ha =>
              rw [noEmptyPassword_addUser_plain_iff hb hs ha]
              exact ⟨fun h _ => h, fun h => h (mayAdd_of_addUser ha)⟩

/-- The account of a redeemed invite has a password. -/
theorem noEmptyPassword_createInvited
    (hb : b.Lawful)
    {inv : Invite} {req : ApiInviteRedeemRequest}
    (hs : NoEmptyPassword b s.accounts)
    (hpw : req.password ≠ "") :
    NoEmptyPassword b (createInvited b conf s rnd inv req).1.accounts := by
  unfold createInvited
  split
  · exact hs
  · split
    case h_1 =>
      exact hs
    case h_2 a ha =>
      have ha' : NoEmptyPassword b a :=
        (noEmptyPassword_addUser_plain_iff hb hs ha).mpr hpw
      have hgrant :=
        (sameLogins_grantTopics a req.username
          (inviteTopics inv.topics)).noEmptyPassword_iff.mpr ha'
      split
      case h_1 heq =>
        rw [heq] at hgrant
        exact hgrant
      case h_2 heq =>
        rw [accounts_addSubscriptions]
        rw [heq] at hgrant
        exact hgrant

theorem accounts_useInvite
    {token : String}
    (h : useInvite s token = some s') :
    s'.accounts = s.accounts := by
  unfold useInvite at h
  split at h
  · simp only [Option.some.injEq] at h
    rw [← h]
  · cases h

/-- An invite is redeemed. -/
theorem noEmptyPassword_inviteRedeem
    (hb : b.Lawful)
    {now : Int} {path : String} {body : Body ApiInviteRedeemRequest}
    (hs : NoEmptyPassword b s.accounts) :
    NoEmptyPassword b
      (handleInviteRedeem b conf s now rnd path body).1.accounts := by
  unfold handleInviteRedeem
  split
  · exact hs
  · split
    · exact hs
    · split
      · exact hs
      · split
        case isTrue =>
          exact hs
        case isFalse hreq =>
          simp only [Bool.or_eq_true, Bool.not_eq_true', decide_eq_true_eq,
            not_or] at hreq
          split
          case h_1 =>
            exact hs
          case h_2 huse =>
            rw [← accounts_useInvite huse] at hs
            exact noEmptyPassword_createInvited hb hs hreq.2

/-- What a request with a hash or a password has added. -/
theorem addWithSecret_eq_ok
    {req : ApiUserAddOrUpdateRequest b}
    (h : addWithSecret s rnd req = .ok s') :
    ∃ a, addUser b s.accounts rnd.salt rnd.id req.username req.secret.1 .user
        req.secret.2 = .ok a ∧
      s' = { s with accounts := a } := by
  unfold addWithSecret at h
  split at h
  case h_1 =>
    cases h
  case h_2 a ha =>
    exact ⟨a, ha, (Except.ok.inj h).symm⟩

/-- A new account of the admin API needs a hash or a password. -/
theorem noEmptyPassword_addWithSecret_iff
    (hb : b.Lawful)
    {req : ApiUserAddOrUpdateRequest b}
    (hs : NoEmptyPassword b s.accounts)
    (h : addWithSecret s rnd req = .ok s') :
    NoEmptyPassword b s'.accounts ↔ req.hash ≠ "" ∨ req.password ≠ "" := by
  obtain ⟨a, ha, rfl⟩ := addWithSecret_eq_ok h
  by_cases hhash : req.hash = ""
  · simp only [ApiUserAddOrUpdateRequest.secret, hhash, ne_eq,
      not_true_eq_false, if_false] at ha
    rw [noEmptyPassword_addUser_plain_iff hb hs ha]
    simp [hhash]
  · simp only [ApiUserAddOrUpdateRequest.secret, hhash, ne_eq,
      not_false_eq_true, if_true] at ha
    obtain ⟨hash, hp, -⟩ := addUser_eq_ok ha
    refine iff_of_true ?_ (Or.inl hhash)
    refine (noEmptyPassword_addUser_iff hs hp ha).mpr ?_
    rw [passColumn_hashed hp]
    exact req.hash_notEmpty

/-- A changed password of the admin API is a hash or a password. -/
theorem noEmptyPassword_changeSecret
    (hb : b.Lawful)
    {req : ApiUserAddOrUpdateRequest b} {a : Manager.Accounts}
    (hs : NoEmptyPassword b s.accounts)
    (hgiven : req.hash ≠ "" ∨ req.password ≠ "")
    (h : changePassword b s.accounts rnd.salt req.username req.secret.1
      req.secret.2 = .ok a) :
    NoEmptyPassword b a := by
  obtain ⟨u, hash, hu, -, hp, -⟩ := changePassword_eq_ok h
  refine (noEmptyPassword_changePassword_iff hs hu hp h).mpr
    (Or.inr (Or.inr ?_))
  by_cases hhash : req.hash = ""
  · have hpw : req.password ≠ "" :=
      hgiven.resolve_left (fun hne => hne hhash)
    simp only [ApiUserAddOrUpdateRequest.secret, hhash, ne_eq,
      not_true_eq_false, if_false] at hp
    rw [← Bool.not_eq_true, compare_passColumn hb hp]
    exact hpw.symm
  · simp only [ApiUserAddOrUpdateRequest.secret, hhash, ne_eq,
      not_false_eq_true, if_true] at hp
    rw [passColumn_hashed hp]
    exact req.hash_notEmpty

/-- The tier does not matter for the logins. -/
theorem noEmptyPassword_setTier_iff
    (req : ApiUserAddOrUpdateRequest b) :
    NoEmptyPassword b (setTier s req).1.accounts
      ↔
    NoEmptyPassword b s.accounts :=
  (sameLogins_setTier req).noEmptyPassword_iff

/-- An account that is added by the admin API. -/
theorem noEmptyPassword_usersAdd
    (hb : b.Lawful)
    {v : Visitor} {body : Body (ApiUserAddOrUpdateRequest b)}
    (hs : NoEmptyPassword b s.accounts) :
    NoEmptyPassword b (handleUsersAdd s v rnd body).1.accounts := by
  unfold handleUsersAdd
  cases hadmin : isAdmin v.user with
  | false =>
      rw [ensureAdmin_of_not hadmin]
      exact hs
  | true =>
      rw [ensureAdmin_of_isAdmin hadmin]
      split
      · exact hs
      · split
        case isTrue =>
          exact hs
        case isFalse req _ hreq =>
          simp only [Bool.or_eq_true, Bool.not_eq_true', Bool.and_eq_true,
            decide_eq_true_eq, not_or, not_and_or] at hreq
          split
          · exact hs
          · split
            · exact hs
            · split
              case h_1 =>
                exact hs
              case h_2 s' hadd =>
                have hs' : NoEmptyPassword b s'.accounts :=
                  (noEmptyPassword_addWithSecret_iff hb hs hadd).mpr
                    hreq.2.symm
                split
                · exact (noEmptyPassword_setTier_iff _).mpr hs'
                · exact hs'

/-- The first half of an update. -/
theorem noEmptyPassword_updateOrAdd_iff
    (hb : b.Lawful)
    {req : ApiUserAddOrUpdateRequest b}
    (hs : NoEmptyPassword b s.accounts)
    (h : updateOrAdd s rnd req = .ok s') :
    NoEmptyPassword b s'.accounts
      ↔
    (mayAdd s rnd req.username → req.hash ≠ "" ∨ req.password ≠ "") := by
  unfold updateOrAdd at h
  split at h
  case h_1 u hu =>
    refine iff_of_true ?_ (fun hadd => ?_)
    · split at h
      · cases h
      · split at h
        case isTrue hgiven =>
          split at h
          case h_1 =>
            cases h
          case h_2 a ha =>
            rw [← Except.ok.inj h]
            exact noEmptyPassword_changeSecret hb hs hgiven ha
        case isFalse =>
          rw [← Except.ok.inj h]
          exact hs
    · rw [hadd.2.1] at hu
      cases hu
  case h_2 =>
    split at h
    case h_1 =>
      cases h
    case h_2 s₁ hadd =>
      rw [← Except.ok.inj h, noEmptyPassword_addWithSecret_iff hb hs hadd]
      obtain ⟨a, ha, -⟩ := addWithSecret_eq_ok hadd
      exact ⟨fun h _ => h, fun h => h (mayAdd_of_addUser ha)⟩

/-- An update that is refused would not have added an account without password. -/
theorem given_of_updateOrAdd_error
    (hb : b.Lawful)
    {req : ApiUserAddOrUpdateRequest b} {e : HandlerError}
    (h : updateOrAdd s rnd req = .error e)
    (hadd : mayAdd s rnd req.username) :
    req.hash ≠ "" ∨ req.password ≠ "" := by
  by_contra hnone
  simp only [not_or, not_not] at hnone
  have hrole : allowedRole .user = true := rfl
  obtain ⟨a, ha⟩ := addUser_of_mayAdd hb hrole hadd
  have hsecret : req.secret = ("", false) := by
    simp [ApiUserAddOrUpdateRequest.secret, hnone.1, hnone.2]
  simp [updateOrAdd, hadd.2.1, addWithSecret, hsecret, ha] at h

/-- An update by the admin API. -/
theorem noEmptyPassword_usersUpdate_iff
    (hb : b.Lawful)
    {v : Visitor} {body : Body (ApiUserAddOrUpdateRequest b)}
    (hs : NoEmptyPassword b s.accounts) :
    NoEmptyPassword b (handleUsersUpdate s v rnd body).1.accounts
      ↔
    Guarded conf s (.usersUpdate v rnd body) := by
  unfold handleUsersUpdate
  cases hadmin : isAdmin v.user with
  | false =>
      rw [ensureAdmin_of_not hadmin]
      cases body <;> simp [Guarded, hadmin, hs]
  | true =>
      rw [ensureAdmin_of_isAdmin hadmin]
      cases body with
      | invalid =>
          simp [readJSONWithLimit, Guarded, hs]
      | tooLarge =>
          simp [readJSONWithLimit, Guarded, hs]
      | json req =>
          simp only [readJSONWithLimit, Guarded, hadmin, true_imp_iff]
          split
          case isTrue hname =>
            refine iff_of_true hs (fun hadd => ?_)
            simp [hadd.1] at hname
          case isFalse =>
            split
            case isTrue hnone =>
              exact iff_of_true hs (fun _ htier => absurd hnone.2.2 htier)
            case isFalse hsome =>
              -- without a tier the request brings a hash or a password
              have hgiven : ∀ {p : Prop},
                  (p → req.tier ≠ "" → req.hash ≠ "" ∨ req.password ≠ "") ↔
                    (p → req.hash ≠ "" ∨ req.password ≠ "") := by
                intro p
                refine ⟨fun h hp => ?_, fun h hp _ => h hp⟩
                by_contra hnone
                simp only [not_or, not_not] at hnone
                refine absurd (h hp ?_) ?_
                · exact fun htier => hsome ⟨hnone.2, hnone.1, htier⟩
                · simp [hnone]
              rw [hgiven]
              split
              case h_1 e he =>
                exact iff_of_true hs (given_of_updateOrAdd_error hb he)
              case h_2 s' hok =>
                rw [← noEmptyPassword_updateOrAdd_iff hb hs hok]
                split
                · exact Iff.rfl
                · split
                  · exact Iff.rfl
                  · exact noEmptyPassword_setTier_iff req

/-- An account that is created by an admin has a password. -/
theorem noEmptyPassword_adminUserCreate
    (hb : b.Lawful)
    {v : Visitor} {body : Option ApiAdminUserCreateRequest}
    (hs : NoEmptyPassword b s.accounts) :
    NoEmptyPassword b (handleAdminUserCreate b s v rnd body).1.accounts := by
  unfold handleAdminUserCreate
  cases hadmin : isAdmin v.user with
  | false =>
      rw [ensureAdmin_of_not hadmin]
      exact hs
  | true =>
      rw [ensureAdmin_of_isAdmin hadmin]
      split
      · exact hs
      · split
        case isTrue =>
          exact hs
        case isFalse hreq =>
          simp only [not_or] at hreq
          split
          · exact hs
          · split
            case h_1 =>
              exact hs
            case h_2 a ha =>
              exact (noEmptyPassword_addUser_plain_iff hb hs ha).mpr hreq.2.1

/-- A change by an admin, when the request has got through. -/
theorem noEmptyPassword_adminPassword_iff
    (hb : b.Lawful)
    {username password : String} {role : Option String}
    (hs : NoEmptyPassword b s.accounts) :
    NoEmptyPassword b
        (match changePassword b s.accounts rnd.salt username password
            false with
          | .error _ => ((s, .error (.http errHTTPInternalError)) :
              Outcome ApiAdminUserResponse)
          | .ok accounts =>
              updateRole { s with accounts } username role).1.accounts
      ↔
    (mayChange s username → password ≠ "") := by
  split
  case h_1 e he =>
    refine iff_of_true hs ?_
    rintro ⟨u, hu, hprov, -, -⟩ rfl
    obtain ⟨hash, hp⟩ := @passColumn_empty b rnd.salt hb
    obtain ⟨a, ha⟩ := changePassword_isOk hu hprov hp
    rw [ha] at he
    cases he
  case h_2 a ha =>
    obtain ⟨u, _, hu, hprov, -⟩ := changePassword_eq_ok ha
    rw [(sameLogins_updateRole username role).noEmptyPassword_iff,
      noEmptyPassword_changePassword_plain_iff hb hs hu ha]
    constructor
    · rintro h ⟨u', hu', -, hne, hdel⟩
      rw [hu] at hu'
      obtain rfl := Option.some.inj hu'
      rcases h with heq | hdel' | hpw
      · exact absurd heq hne
      · rw [hdel] at hdel'
        cases hdel'
      · exact hpw
    · intro h
      by_cases hne : username = everyone
      · exact Or.inl hne
      · cases hdel : s.accounts.deleted u.id with
        | true =>
            exact Or.inr (Or.inl rfl)
        | false =>
            exact Or.inr (Or.inr (h ⟨u, hu, hprov, hne, hdel⟩))

/-- A change of password or role by an admin. -/
theorem noEmptyPassword_adminUserUpdate_iff
    (hb : b.Lawful)
    {v : Visitor} {path : String} {body : Option ApiAdminUserUpdateRequest}
    (hs : NoEmptyPassword b s.accounts) :
    NoEmptyPassword b (handleAdminUserUpdate b s v rnd path body).1.accounts
      ↔
    Guarded conf s (.adminUserUpdate v rnd path body : Request b) := by
  unfold handleAdminUserUpdate
  cases hadmin : isAdmin v.user with
  | false =>
      rw [ensureAdmin_of_not hadmin]
      cases body <;> simp [Guarded, hadmin, hs]
  | true =>
      rw [ensureAdmin_of_isAdmin hadmin]
      split
      case isTrue hpath =>
        refine iff_of_true hs ?_
        cases body with
        | none =>
            exact trivial
        | some req =>
            rintro - hempty hslash
            exact absurd hpath (not_or.mpr ⟨hempty, hslash⟩)
      case isFalse hpath =>
        simp only [not_or] at hpath
        split
        case h_1 =>
          exact iff_of_true hs trivial
        case h_2 =>
          exact iff_of_true hs (fun _ _ _ _ => nofun)
        case h_3 =>
          refine iff_of_true ?_ (fun _ _ _ _ => nofun)
          exact (sameLogins_updateRole _ _).noEmptyPassword_iff.mpr hs
        case h_4 password role =>
          rw [noEmptyPassword_adminPassword_iff hb hs]
          simp [Guarded, hadmin, hpath]

/-- Users replace their password by another one. -/
theorem noEmptyPassword_accountPasswordChange
    (hb : b.Lawful)
    {v : Visitor} {body : Body ApiAccountPasswordChangeRequest}
    (hs : NoEmptyPassword b s.accounts) :
    NoEmptyPassword b
      (handleAccountPasswordChange b s v rnd body).1.accounts := by
  unfold handleAccountPasswordChange
  split
  · exact hs
  · split
    · exact hs
    · split
      case isTrue =>
        exact hs
      case isFalse hreq =>
        simp only [not_or] at hreq
        split
        · exact hs
        · split
          case h_1 =>
            exact hs
          case h_2 =>
            exact hs
          case h_3 a ha =>
            obtain ⟨u, _, hu, -⟩ := changePassword_eq_ok ha
            refine (noEmptyPassword_changePassword_plain_iff hb hs hu ha).mpr ?_
            exact Or.inr (Or.inr hreq.2)

end Endpoints

section Runs

variable {b : Bcrypt}
variable {conf : Config}

/-- One request. -/
theorem noEmptyPassword_handle_iff
    (hb : b.Lawful)
    {s : State} {r : Request b}
    (hs : NoEmptyPassword b s.accounts) :
    NoEmptyPassword b (handle b conf s r).accounts ↔ Guarded conf s r := by
  cases r with
  | accountCreate v rnd body =>
      exact noEmptyPassword_accountCreate_iff hb hs
  | inviteRedeem now rnd path body =>
      exact iff_of_true (noEmptyPassword_inviteRedeem hb hs) trivial
  | usersAdd v rnd body =>
      exact iff_of_true (noEmptyPassword_usersAdd hb hs) trivial
  | usersUpdate v rnd body =>
      exact noEmptyPassword_usersUpdate_iff hb hs
  | adminUserCreate v rnd body =>
      exact iff_of_true (noEmptyPassword_adminUserCreate hb hs) trivial
  | adminUserUpdate v rnd path body =>
      exact noEmptyPassword_adminUserUpdate_iff hb hs
  | accountPasswordChange v rnd body =>
      exact iff_of_true (noEmptyPassword_accountPasswordChange hb hs) trivial

/--
No state of the run has an account that opens with the empty password exactly
when every request of the run is guarded.
-/
theorem no_empty_password_iff
    (hb : b.Lawful)
    {s : State} {rs : List (Request b)}
    (hs : NoEmptyPassword b s.accounts) :
    Along (step b conf)
        (fun s r => ∀ s', step b conf s r = some s' →
          NoEmptyPassword b s'.accounts) s rs
      ↔
    Along (step b conf) (Guarded conf) s rs := by
  have hiff :
      ∀ (s : State) (r : Request b), NoEmptyPassword b s.accounts →
        ((∀ s', step b conf s r = some s' → NoEmptyPassword b s'.accounts) ↔
          Guarded conf s r) := by
    intro s r hs
    rw [← noEmptyPassword_handle_iff hb hs]
    exact ⟨fun h => h _ rfl, fun h s' hstep => Option.some.inj hstep ▸ h⟩
  exact Along.congr_of_invariant hiff
    (fun s r s' _ hafter hstep => hafter s' hstep) hs

/-- A hash function that can be evaluated: a prefix with the cost. -/
def exampleBcrypt : Bcrypt where
  generateFromPassword _ password :=
    if password.utf8ByteSize ≤ 72 then some ("$2a$10$" ++ password) else none
  compareHashAndPassword hash password :=
    decide (hash = "$2a$10$" ++ password)
  cost hash := if "$2a$10$".toList.isPrefixOf hash.toList then some 10 else none
  minCost := 10

theorem lawful_exampleBcrypt :
    exampleBcrypt.Lawful := by
  constructor
  · intro salt password
    simp only [exampleBcrypt]
    split <;> simp_all
  · intro salt password hash h other
    simp only [exampleBcrypt] at h ⊢
    split at h
    · rw [← Option.some.inj h, decide_eq_true_eq, String.append_right_inj]
      exact eq_comm
    · cases h

def exampleState : State where
  accounts :=
    { db := .initial
      pass := fun _ => ""
      deleted := fun _ => false
      tiers := ⟨[⟨"pro", ⟨"ti_1", 3⟩⟩], by decide⟩ }
  invites := .empty
  subscriptions := fun _ => []

theorem noEmptyPassword_exampleState :
    NoEmptyPassword exampleBcrypt exampleState.accounts := by
  rw [noEmptyPassword_iff]
  intro username id hne hid
  obtain ⟨u, hu, rfl, -⟩ := Database.userID_eq_some_iff.mp hid
  rw [Table.mem_def] at hu
  exact absurd (congrArg User.name (List.mem_singleton.mp hu)) hne

def exampleConfig : Config :=
  ⟨true, "https://example.com"⟩

def exampleRandom : Random :=
  ⟨Vector.replicate 16 0, "u_phil"⟩

def exampleAdmin : Visitor :=
  ⟨some ⟨"u_admin", "root", .admin, none, ⟨0, 0, 0⟩, false⟩, true⟩

/-- Someone signs up. -/
def exampleSignup
    (password : String) : Request exampleBcrypt :=
  .accountCreate ⟨none, true⟩ exampleRandom (.json ⟨"phil", password⟩)

/-- A signup with a password. -/
theorem signup_with_password :
    Along (step exampleBcrypt exampleConfig)
      (fun s r => ∀ s', step exampleBcrypt exampleConfig s r = some s' →
        NoEmptyPassword exampleBcrypt s'.accounts)
      exampleState [exampleSignup "secret"] := by
  refine (no_empty_password_iff lawful_exampleBcrypt
    noEmptyPassword_exampleState).mpr ⟨fun _ _ => ?_, fun _ _ => trivial⟩
  decide

/-- An admin gives a tier to a user that does not exist. -/
def exampleTier : Request exampleBcrypt :=
  .usersUpdate exampleAdmin exampleRandom
    (.json ⟨"phil", "", "", "pro", by decide⟩)

/-- An admin sets an empty password. -/
def exampleReset : Request exampleBcrypt :=
  .adminUserUpdate exampleAdmin exampleRandom "/api/admin/users/phil"
    (some ⟨some "", none⟩)

/-- After these requests everyone can log in to some account. -/
def opensAccount (rs : List (Request exampleBcrypt)) : Prop :=
  ∃ s, run (step exampleBcrypt exampleConfig) exampleState rs = some s ∧
    ¬ NoEmptyPassword exampleBcrypt s.accounts

theorem opensAccount_of_authenticate
    {rs : List (Request exampleBcrypt)} {s : State}
    (hrun : run (step exampleBcrypt exampleConfig) exampleState rs = some s)
    (hok : (authenticate exampleBcrypt s.accounts "phil" "").isOk = true) :
    opensAccount rs := by
  refine ⟨s, hrun, fun hnone => ?_⟩
  obtain ⟨e, he⟩ := hnone "phil"
  rw [he] at hok
  cases hok

/--
A signup without a password, a tier for an unknown user and an empty password
set by an admin each let everyone log in as `phil`.
-/
theorem accounts_without_password :
    opensAccount [exampleSignup ""] ∧
      opensAccount [exampleTier] ∧
      opensAccount [exampleSignup "secret", exampleReset] := by
  refine ⟨?_, ?_, ?_⟩
  all_goals
    refine opensAccount_of_authenticate rfl ?_
    decide

end Runs

end Accounts

end Server
end CoopMessenger
