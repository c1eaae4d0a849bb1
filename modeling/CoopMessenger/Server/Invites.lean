import CoopMessenger.Server.Accounts

/-!
# Invites

`handleInviteCreate`, `handleInviteRedeem` and `handleInviteJoin` of
`server/server_invite.go`.  A redemption or a join counts a use of the invite and
then writes to the user database, call by call.  Every database call is a step of
its own, so requests interleave, and any call may fail.

**Results.**
* `advance_move`: what one database call of a request does.
* `accounting_iff`: when the counter of every invite agrees with the requests that
  succeeded, and requests that fail leave nothing behind.
-/

namespace CoopMessenger
namespace Server

open Library Manager Manager.Accounts

namespace Invites

open Accounts (Invite Subscription Body ApiInviteRedeemRequest
  readJSONWithLimit lookupInvite useInvite inviteTopics redeemToken)

section Model

/-- The accounts, the invites and the subscriptions. -/
abbrev Store := Accounts.State

/-- A new account, or a user who is logged in. -/
inductive Kind where
  | redeem (body : Body ApiInviteRedeemRequest)
  | join (u : User) (prefs : List Subscription)

/-- Where a request is; the phases before the last two name the next call. -/
inductive Phase where
  | lookup
  | count
  | checkUser
  | addUser
  | grant (topic : String) (rest : List String)
  | readUser
  | changeSettings (userID : String) (prefs : List Subscription)
  | succeeded
  | failed (e : HandlerError)

/--
A request in flight or finished.  `counted`, `created` and `granted` keep what its
own calls have written.
-/
structure Request where
  id : Nat
  kind : Kind
  token : String
  topics : List String
  phase : Phase
  counted : Bool
  created : Bool
  granted : List String

structure State where
  store : Store
  requests : Table Request.id

/-- The body of a request for an invite. -/
structure ApiInviteCreateRequest where
  topics : String
  maxUses : Int
  expires : Int

structure ApiInviteResponse where
  token : String
  createdBy : String
  topics : String
  maxUses : Int
  usedCount : Int
  expiresAt : Int
  createdAt : Int
  url : String
deriving DecidableEq, Repr

/-- The new invite; the token is drawn. -/
def newInvite
    (createdBy token : String)
    (now : Int)
    (req : ApiInviteCreateRequest) : Invite where
  token := token
  createdBy := createdBy
  topics := req.topics
  maxUses := if req.maxUses ≤ 0 then 1 else req.maxUses
  usedCount := 0
  expiresAt := if req.expires = 0 then now + 7 * 24 * 60 * 60 else req.expires
  createdAt := now

def inviteResponse
    (conf : Accounts.Config)
    (inv : Invite) : ApiInviteResponse where
  token := inv.token
  createdBy := inv.createdBy
  topics := inv.topics
  maxUses := inv.maxUses
  usedCount := 0
  expiresAt := inv.expiresAt
  createdAt := inv.createdAt
  url :=
    if conf.baseURL ≠ "" then
      conf.baseURL ++ "/v1/invite/" ++ inv.token
    else
      ""

/-- Creates an invite, unless the database rejects it or knows the token. -/
def handleInviteCreate
    (conf : Accounts.Config)
    (s : Store)
    (u : Option User)
    (now : Int)
    (token : String)
    (fails : Bool)
    (body : Body ApiInviteCreateRequest) :
    Store × Except HandlerError ApiInviteResponse :=
  if !isAdmin u then
    (s, .error (.http errHTTPUnauthorized))
  else
    match readJSONWithLimit body with
    | .error e => (s, .error e)
    | .ok req =>
        let inv := newInvite ((u.map User.name).getD "") token now req
        match s.invites.insert? inv, fails with
        | some invites, false =>
            ({ s with invites }, .ok (inviteResponse conf inv))
        | _, _ => (s, .error (.manager .database))

/-- The token in `/v1/invite/{token}/join`. -/
def joinToken (path : String) : String :=
  String.ofList (Util.trimSuffix "/join".toList
    (Util.trimPrefix "/v1/invite/".toList path.toList))

def Kind.username : Kind → String
  | .redeem (.json req) => req.username
  | .redeem _ => ""
  | .join u _ => u.name

def Kind.password : Kind → String
  | .redeem (.json req) => req.password
  | _ => ""

/-- The checks of the body of a redemption. -/
def Kind.check : Kind → Except HandlerError Unit
  | .redeem body =>
      match readJSONWithLimit body with
      | .error e => .error e
      | .ok req =>
          if !allowedUsername req.username || decide (req.password = "") then
            .error (.http (errHTTPBadRequest.wrap
              "username invalid or password missing"))
          else
            .ok ()
  | .join _ _ => .ok ()

/-- A new request; `ensureUser` has checked that a join has a user. -/
def newRequest
    (id : Nat)
    (kind : Kind)
    (token : String) : Request where
  id := id
  kind := kind
  token := token
  topics := []
  phase :=
    if token = "" then
      .failed (.http errHTTPBadRequestInviteInvalid)
    else
      .lookup
  counted := false
  created := false
  granted := []

def Request.fail
    (r : Request)
    (e : HandlerError) : Request :=
  { r with phase := .failed e }

/-- The settings of a user who joins: topics are added that are not there yet. -/
def joinTopics
    (baseURL : String)
    (prefs : List Subscription)
    (topics : List String) : List Subscription :=
  topics.foldl
    (fun subs topic =>
      if ⟨baseURL, topic⟩ ∈ subs then subs else subs ++ [⟨baseURL, topic⟩])
    prefs

/-- The call after the grants. -/
def afterGrants
    (conf : Accounts.Config)
    (r : Request) : Phase :=
  if r.topics.isEmpty then
    .succeeded
  else
    match r.kind with
    | .redeem _ => .readUser
    | .join u prefs =>
        .changeSettings u.id (joinTopics conf.baseURL prefs r.topics)

/-- The grant of the next topic. -/
def nextGrant
    (conf : Accounts.Config)
    (r : Request) :
    List String → Phase
  | [] => afterGrants conf r
  | topic :: rest => .grant topic rest

/-- The call after the use was counted. -/
def afterCount
    (conf : Accounts.Config)
    (r : Request) : Phase :=
  match r.kind with
  | .redeem _ => .checkUser
  | .join _ _ => nextGrant conf r r.topics

/-- The next database call of a request. -/
def advance
    (b : Bcrypt)
    (conf : Accounts.Config)
    (s : Store)
    (now : Int)
    (rnd : Accounts.Random)
    (fails : Bool)
    (r : Request) : Store × Request :=
  if fails then
    match r.phase with
    | .succeeded | .failed _ => (s, r)
    | _ => (s, r.fail (.manager .database))
  else
    match r.phase with
    | .lookup =>
        match lookupInvite s now r.token with
        | .error e => (s, r.fail e)
        | .ok inv =>
            match r.kind.check with
            | .error e => (s, r.fail e)
            | .ok () =>
                (s, { r with phase := .count, topics := inviteTopics inv.topics })
    | .count =>
        match useInvite s r.token with
        | none => (s, r.fail (.http errHTTPBadRequestInviteMaxUsed))
        | some s' => (s', { r with phase := afterCount conf r, counted := true })
    | .checkUser =>
        if (s.accounts.db.user r.kind.username).isSome then
          (s, r.fail (.http errHTTPConflictUserExists))
        else
          (s, { r with phase := .addUser })
    | .addUser =>
        match Accounts.addUser b s.accounts rnd.salt rnd.id r.kind.username
            r.kind.password .user false with
        | .error e => (s, r.fail (.manager e))
        | .ok accounts =>
            ({ s with accounts },
              { r with phase := nextGrant conf r r.topics, created := true })
    | .grant topic rest =>
        match s.accounts.allowAccess r.kind.username topic .readWrite with
        | .error e => (s, r.fail (.manager e))
        | .ok accounts =>
            ({ s with accounts },
              { r with
                phase := nextGrant conf r rest
                granted := r.granted ++ [topic] })
    | .readUser =>
        match s.accounts.db.user r.kind.username with
        | none => (s, r.fail (.manager .userNotFound))
        | some u =>
            (s,
              { r with
                phase :=
                  .changeSettings u.id
                    (s.subscriptions u.id ++
                      r.topics.map (fun topic => ⟨conf.baseURL, topic⟩)) })
    | .changeSettings userID prefs =>
        ({ s with
          subscriptions := Function.update s.subscriptions userID prefs },
          { r with phase := .succeeded })
    | .succeeded | .failed _ => (s, r)

theorem advance_id
    (b : Bcrypt) (conf : Accounts.Config) (s : Store) (now : Int)
    (rnd : Accounts.Random) (fails : Bool) (r : Request) :
    (advance b conf s now rnd fails r).2.id = r.id := by
  unfold advance
  repeat' split
  all_goals rfl

/--
An invite is created, a request arrives, a request makes its next database call,
or somebody else writes to the user database.
-/
inductive Label where
  | create
      (u : Option User)
      (now : Int)
      (token : String)
      (fails : Bool)
      (body : Body ApiInviteCreateRequest)
  | redeem (id : Nat) (path : String) (body : Body ApiInviteRedeemRequest)
  | join (id : Nat) (path : String) (u : User) (prefs : List Subscription)
  | call (id : Nat) (now : Int) (rnd : Accounts.Random) (fails : Bool)
  | others
      (accounts : Manager.Accounts)
      (subscriptions : String → List Subscription)

/-- A request arrives. -/
def State.arrive
    (s : State)
    (r : Request) : Option State :=
  (s.requests.insert? r).map (fun requests => { s with requests })

/-- One step; `none` if it is not enabled. -/
def step
    (b : Bcrypt)
    (conf : Accounts.Config)
    (s : State) : Label → Option State
  | .create u now token fails body =>
      some
        { s with
          store := (handleInviteCreate conf s.store u now token fails body).1 }
  | .redeem id path body =>
      s.arrive (newRequest id (.redeem body) (redeemToken path))
  | .join id path u prefs =>
      s.arrive (newRequest id (.join u prefs) (joinToken path))
  | .call id now rnd fails =>
      match s.requests.find? id with
      | none => none
      | some r =>
          some
            { store := (advance b conf s.store now rnd fails r).1
              requests :=
                s.requests.modify
                  (fun q =>
                    if q.id = id then
                      (advance b conf s.store now rnd fails q).2
                    else
                      q)
                  (by intro q; split <;> simp [advance_id]) }
  | .others accounts subscriptions =>
      some { s with store := { s.store with accounts, subscriptions } }

/-- A server without invites and requests. -/
def initial
    (accounts : Manager.Accounts)
    (subscriptions : String → List Subscription) : State :=
  ⟨⟨accounts, .empty, subscriptions⟩, .empty⟩

end Model

section Spec

variable (b : Bcrypt)

/-- Has the request been answered? -/
def Phase.finished : Phase → Bool
  | .succeeded | .failed _ => true
  | _ => false

/-- Has the request been answered with success? -/
def Phase.isSuccess : Phase → Bool
  | .succeeded => true
  | _ => false

/-- Has the request been answered with an error? -/
def Phase.isFailure : Phase → Bool
  | .failed _ => true
  | _ => false

/-- How many redemptions and joins of the invite have succeeded? -/
def State.successes
    (s : State)
    (token : String) : Nat :=
  s.requests.rows.countP
    (fun r => decide (r.token = token) && r.phase.isSuccess)

/--
No counter exceeds its maximum; when all requests for an invite are answered, the
counter is the number of those that succeeded; and a request that was answered
with an error has taken no use, created no user and granted no access.
-/
structure Accurate (s : State) : Prop where
  bounded : ∀ inv ∈ s.store.invites, inv.usedCount ≤ inv.maxUses
  exact :
    ∀ inv ∈ s.store.invites,
      (∀ r ∈ s.requests, r.token = inv.token → r.phase.finished = true) →
        inv.usedCount = s.successes inv.token
  clean :
    ∀ r ∈ s.requests, r.phase.isFailure = true →
      r.counted = false ∧ r.created = false ∧ r.granted = []

/--
The next call of the request goes through: the database does not fail; the name is
free, and the password can be hashed; the topics are valid and the user is there.
-/
def Proceeds
    (s : Store)
    (rnd : Accounts.Random)
    (fails : Bool)
    (r : Request) : Prop :=
  fails = false ∧
    match r.phase with
    | .checkUser => s.accounts.db.user r.kind.username = none
    | .addUser =>
        (b.generateFromPassword rnd.salt r.kind.password).isSome = true ∧
          s.accounts.db.insertable rnd.id r.kind.username
    | .grant topic _ =>
        (s.accounts.db.userID r.kind.username).isSome = true ∧
          allowedTopicPattern topic = true
    | .readUser => (s.accounts.db.user r.kind.username).isSome = true
    | _ => True

/-- Calls of a request that has taken a use and is not answered go through. -/
def Guarded
    (s : State) :
    Label → Prop
  | .call id _ rnd fails =>
      ∀ r ∈ s.requests.find? id, r.counted = true → r.phase.finished = false →
        Proceeds b s.store rnd fails r
  | _ => True

end Spec

section Moves

variable {b : Bcrypt}
variable {conf : Accounts.Config}
variable {s s' : Store}
variable {now : Int}
variable {rnd : Accounts.Random}
variable {fails : Bool}
variable {r r' : Request}

/-- Is the phase one after the use was counted? -/
def Phase.paid : Phase → Bool
  | .lookup | .count | .failed _ => false
  | _ => true

/-- What a database call of a request can do. -/
inductive Move
    (conf : Accounts.Config)
    (s : Store)
    (r : Request) : Store → Request → Prop
  | idle
      (h : r.phase.finished = true) :
      Move conf s r s r
  | fail
      (e : HandlerError) :
      Move conf s r s (r.fail e)
  | enter
      {topics : List String}
      (hphase : r.phase = .lookup)
      (hcheck : r.kind.check = .ok ()) :
      Move conf s r s { r with phase := .count, topics }
  | count
      {s' : Store}
      (hphase : r.phase = .count)
      (huse : useInvite s r.token = some s') :
      Move conf s r s' { r with phase := afterCount conf r, counted := true }
  | work
      {s' : Store} {phase : Phase} {created : Bool} {granted : List String}
      (hpaid : r.phase.paid = true)
      (hnext : phase.paid = true)
      (hcheck :
        phase = .checkUser ∨ phase = .addUser → r.phase = .checkUser)
      (hinvites : s'.invites = s.invites) :
      Move conf s r s' { r with phase, created, granted }

/-- After a grant a request is not about to create a user. -/
theorem nextGrant_spec
    (conf : Accounts.Config) (r : Request) (topics : List String) :
    (nextGrant conf r topics).paid = true ∧
      ¬ (nextGrant conf r topics = .checkUser ∨
        nextGrant conf r topics = .addUser) := by
  have hafter : (afterGrants conf r).paid = true ∧
      ¬ (afterGrants conf r = .checkUser ∨ afterGrants conf r = .addUser) := by
    unfold afterGrants
    split
    · simp [Phase.paid]
    · split <;> simp [Phase.paid]
  cases topics with
  | cons topic rest =>
      simp [nextGrant, Phase.paid]
  | nil =>
      exact hafter

/-- Every database call is one of these moves. -/
theorem advance_move :
    Move conf s r (advance b conf s now rnd fails r).1
      (advance b conf s now rnd fails r).2 := by
  unfold advance
  split
  · split
    case h_1 hphase =>
      exact Move.idle (by rw [hphase]; rfl)
    case h_2 hphase =>
      exact Move.idle (by rw [hphase]; rfl)
    case h_3 =>
      exact Move.fail _
  · split
    case h_1 hphase =>
      split
      · exact Move.fail _
      · split
        · exact Move.fail _
        · rename_i hcheck
          exact Move.enter hphase hcheck
    case h_2 hphase =>
      split
      · exact Move.fail _
      · rename_i huse
        exact Move.count hphase huse
    case h_3 hphase =>
      split
      · exact Move.fail _
      · exact Move.work (by rw [hphase]; rfl) rfl (fun _ => hphase) rfl
    case h_4 hphase =>
      split
      · exact Move.fail _
      · exact Move.work (by rw [hphase]; rfl) (nextGrant_spec conf r _).1
          (fun h => absurd h (nextGrant_spec conf r _).2) rfl
    case h_5 hphase =>
      split
      · exact Move.fail _
      · exact Move.work (by rw [hphase]; rfl) (nextGrant_spec conf r _).1
          (fun h => absurd h (nextGrant_spec conf r _).2) rfl
    case h_6 hphase =>
      split
      · exact Move.fail _
      · exact Move.work (by rw [hphase]; rfl) rfl (by simp) rfl
    case h_7 hphase =>
      exact Move.work (by rw [hphase]; rfl) rfl (by simp) rfl
    case h_8 hphase =>
      exact Move.idle (by rw [hphase]; rfl)
    case h_9 hphase =>
      exact Move.idle (by rw [hphase]; rfl)

end Moves

section Invariant

variable {b : Bcrypt}
variable {conf : Accounts.Config}

/-- A request has taken a use if its phase says so, and writes only after that. -/
structure Request.WellFormed (r : Request) : Prop where
  paid : r.phase.isFailure = false → r.counted = r.phase.paid
  unpaid : r.counted = false → r.created = false ∧ r.granted = []
  allowed :
    r.phase = .checkUser ∨ r.phase = .addUser ∨
        (r.phase = .count ∧ ∃ body, r.kind = .redeem body) →
      allowedUsername r.kind.username = true

/-- The counters agree with the uses that were taken. -/
structure Inv (s : State) : Prop where
  bounded : ∀ inv ∈ s.store.invites, inv.usedCount ≤ inv.maxUses
  counts :
    ∀ inv ∈ s.store.invites,
      inv.usedCount =
        (s.requests.rows.countP
          (fun r => decide (r.token = inv.token) && r.counted) : Nat)
  known :
    ∀ r ∈ s.requests, r.counted = true →
      ∃ inv ∈ s.store.invites, inv.token = r.token
  wellFormed : ∀ r ∈ s.requests, r.WellFormed

/-- No request that failed has written anything. -/
def Clean (s : State) : Prop :=
  ∀ r ∈ s.requests, r.phase.isFailure = true →
    r.counted = false ∧ r.created = false ∧ r.granted = []

variable {s s' : State}

/-- Once all requests for an invite are answered, a use is a success. -/
theorem accurate_iff
    (h : Inv s) :
    Accurate s ↔ Clean s := by
  constructor
  · exact fun hs => hs.clean
  · intro hclean
    refine ⟨h.bounded, fun inv hinv hall => ?_, hclean⟩
    rw [h.counts inv hinv, State.successes]
    congr 1
    refine List.countP_congr fun r hr => ?_
    by_cases htoken : r.token = inv.token
    · have hfinished := hall r hr htoken
      have hpaid := (h.wellFormed r hr).paid
      cases hphase : r.phase with
      | succeeded =>
          rw [hphase] at hpaid
          simp [htoken, hpaid rfl, Phase.paid, Phase.isSuccess]
      | failed e =>
          have hno := (hclean r hr (by rw [hphase]; rfl)).1
          simp [hno, Phase.isSuccess]
      | _ =>
          rw [hphase] at hfinished
          cases hfinished
    · simp [htoken]

theorem wellFormed_newRequest
    (id : Nat) (kind : Kind) (token : String) :
    (newRequest id kind token).WellFormed := by
  constructor
  · intro h
    unfold newRequest at h ⊢
    dsimp only at h ⊢
    split at h
    · cases h
    · rename_i hne
      rw [if_neg hne]
      rfl
  · exact fun _ => ⟨rfl, rfl⟩
  · intro h
    unfold newRequest at h
    dsimp only at h
    split at h <;> simp at h

/-- The name of a new account was checked. -/
theorem allowed_of_check
    {k : Kind} {body : Body ApiInviteRedeemRequest}
    (hk : k = .redeem body)
    (hcheck : k.check = .ok ()) :
    allowedUsername k.username = true := by
  subst hk
  cases body with
  | json req =>
      simp only [Kind.check, readJSONWithLimit] at hcheck
      split at hcheck
      · cases hcheck
      · rename_i h
        simp only [Bool.or_eq_true, Bool.not_eq_true', not_or,
          Bool.not_eq_false] at h
        exact h.1
  | invalid =>
      cases hcheck
  | tooLarge =>
      cases hcheck

theorem afterCount_spec
    (conf : Accounts.Config) (r : Request) :
    (afterCount conf r).paid = true ∧ afterCount conf r ≠ .addUser ∧
      (afterCount conf r = .checkUser → ∃ body, r.kind = .redeem body) := by
  unfold afterCount
  split
  · rename_i body hkind
    exact ⟨rfl, by simp, fun _ => ⟨body, hkind⟩⟩
  · obtain ⟨hpaid, hnot⟩ := nextGrant_spec conf r r.topics
    rw [not_or] at hnot
    exact ⟨hpaid, hnot.2, fun h => absurd h hnot.1⟩

theorem Request.WellFormed.counted_of_paid
    {r : Request}
    (h : r.WellFormed)
    (hpaid : r.phase.paid = true) :
    r.counted = true := by
  rw [h.paid, hpaid]
  cases hphase : r.phase with
  | failed e =>
      rw [hphase] at hpaid
      cases hpaid
  | _ =>
      rfl

/-- The moves keep a request well formed. -/
theorem Move.wellFormed
    {st st' : Store} {r r' : Request}
    (hmove : Move conf st r st' r')
    (h : r.WellFormed) :
    r'.WellFormed := by
  cases hmove with
  | idle =>
      exact h
  | fail e =>
      refine ⟨fun hno => ?_, h.unpaid, fun hphase => ?_⟩
      · cases hno
      · simp [Request.fail] at hphase
  | enter hphase hcheck =>
      have hcounted : r.counted = false := by
        rw [h.paid (by rw [hphase]; rfl), hphase]
        rfl
      refine ⟨fun _ => hcounted, h.unpaid, ?_⟩
      rintro (hno | hno | ⟨-, body, hbody⟩)
      · cases hno
      · cases hno
      · exact allowed_of_check hbody hcheck
  | count hphase huse =>
      obtain ⟨hpaid, hadd, hcheck⟩ := afterCount_spec conf r
      refine ⟨fun _ => hpaid.symm, ?_, ?_⟩
      · rintro ⟨⟩
      rintro (hnext | hnext | ⟨hnext, -⟩)
      · exact h.allowed (Or.inr (Or.inr ⟨hphase, hcheck hnext⟩))
      · exact absurd hnext hadd
      · change afterCount conf r = .count at hnext
        rw [hnext] at hpaid
        cases hpaid
  | @work st' phase created granted hpaid hnext hkeep hinvites =>
      have hcounted := h.counted_of_paid hpaid
      refine ⟨fun _ => hcounted.trans hnext.symm, fun hno => ?_, ?_⟩
      · change r.counted = false at hno
        rw [hcounted] at hno
        cases hno
      · rintro (hphase | hphase | ⟨hphase, -⟩)
        · exact h.allowed (Or.inl (hkeep (Or.inl hphase)))
        · exact h.allowed (Or.inl (hkeep (Or.inr hphase)))
        · change phase = .count at hphase
          rw [hphase] at hnext
          cases hnext

/-- A use is taken from the invite, which has one left. -/
theorem useInvite_eq_some
    {st st' : Store} {token : String}
    (h : useInvite st token = some st') :
    (∃ inv ∈ st.invites, inv.token = token) ∧
      (∀ inv' ∈ st'.invites, ∃ inv ∈ st.invites,
        (inv.token = token → inv.usedCount < inv.maxUses) ∧
          inv' =
            if inv.token = token then
              { inv with usedCount := inv.usedCount + 1 }
            else
              inv) ∧
        ∀ inv ∈ st.invites, ∃ inv' ∈ st'.invites, inv'.token = inv.token := by
  unfold useInvite at h
  split at h
  case isFalse =>
    cases h
  case isTrue hany =>
    cases h
    simp only [List.any_eq_true, decide_eq_true_eq] at hany
    obtain ⟨hit, hhit, htoken, hleft⟩ := hany
    have hunique : ∀ inv ∈ st.invites, inv.token = token →
        inv.usedCount < inv.maxUses := by
      intro inv hinv heq
      rw [Table.eq_of_key_eq hinv hhit (heq.trans htoken.symm)]
      exact hleft
    refine ⟨⟨hit, hhit, htoken⟩, ?_, ?_⟩
    · intro inv' hinv'
      obtain ⟨inv, hinv, rfl⟩ := List.mem_map.mp hinv'
      refine ⟨inv, hinv, hunique inv hinv, ?_⟩
      by_cases heq : inv.token = token
      · simp [heq, hunique inv hinv heq]
      · simp [heq]
    · intro inv hinv
      refine ⟨_, List.mem_map_of_mem hinv, ?_⟩
      split <;> rfl

/-- A database call of a request keeps the invariant. -/
theorem Inv.call
    (hs : Inv s)
    {id : Nat} {now : Int} {rnd : Accounts.Random} {fails : Bool} {r : Request}
    (hr : r ∈ s.requests)
    {requests : Table Request.id}
    (hmem : ∀ q, q ∈ requests ↔
      q = (advance b conf s.store now rnd fails r).2 ∨
        (q ∈ s.requests ∧ q.id ≠ id))
    (hcount : ∀ p : Request → Bool,
      requests.rows.countP p + (if p r then 1 else 0) =
        s.requests.rows.countP p +
          (if p (advance b conf s.store now rnd fails r).2 then 1 else 0)) :
    Inv ⟨(advance b conf s.store now rnd fails r).1, requests⟩ := by
  have hwf := hs.wellFormed r hr
  have hmove : Move conf s.store r (advance b conf s.store now rnd fails r).1
      (advance b conf s.store now rnd fails r).2 := advance_move
  generalize (advance b conf s.store now rnd fails r).1 = st' at *
  generalize (advance b conf s.store now rnd fails r).2 = r' at *
  have hwf' := hmove.wellFormed hwf
  have hall : ∀ q ∈ requests, q.WellFormed := by
    intro q hq
    rcases (hmem q).mp hq with rfl | ⟨hq, -⟩
    · exact hwf'
    · exact hs.wellFormed q hq
  -- all moves but the count leave the invites and the mark alone
  have hkeep : st'.invites = s.store.invites → r'.token = r.token →
      r'.counted = r.counted → Inv ⟨st', requests⟩ := by
    intro hinvites htoken hcounted
    refine ⟨?_, ?_, ?_, hall⟩
    · rw [hinvites]
      exact hs.bounded
    · intro inv hinv
      rw [hinvites] at hinv
      have h := hcount
        (fun q => decide (q.token = inv.token) && q.counted)
      simp only [htoken, hcounted] at h
      rw [hs.counts inv hinv]
      congr 1
      exact (Nat.add_right_cancel h).symm
    · intro q hq hpaid
      rw [hinvites]
      rcases (hmem q).mp hq with rfl | ⟨hq, -⟩
      · rw [hcounted] at hpaid
        rw [htoken]
        exact hs.known r hr hpaid
      · exact hs.known q hq hpaid
  cases hmove with
  | idle =>
      exact hkeep rfl rfl rfl
  | fail e =>
      exact hkeep rfl rfl rfl
  | enter =>
      exact hkeep rfl rfl rfl
  | work hpaid hnext hcheck hinvites =>
      exact hkeep hinvites rfl rfl
  | count hphase huse =>
      have hnot : r.counted = false := by
        rw [hwf.paid (by rw [hphase]; rfl), hphase]
        rfl
      obtain ⟨hknown, hmod, hkept⟩ := useInvite_eq_some huse
      refine ⟨?_, ?_, ?_, hall⟩
      · intro inv' hinv'
        obtain ⟨inv, hinv, hleft, rfl⟩ := hmod inv' hinv'
        have hbound := hs.bounded inv hinv
        split
        · rename_i htoken
          exact Int.add_one_le_of_lt (hleft htoken)
        · exact hbound
      · intro inv' hinv'
        obtain ⟨inv, hinv, -, rfl⟩ := hmod inv' hinv'
        have hold := hs.counts inv hinv
        have h := hcount
          (fun q => decide (q.token = inv.token) && q.counted)
        simp only [hnot, Bool.and_false, Bool.and_true, decide_eq_true_eq,
          Bool.false_eq_true, if_false, Nat.add_zero] at h
        by_cases htoken : inv.token = r.token
        · rw [if_pos htoken.symm] at h
          simp only [if_pos htoken, h, hold]
          omega
        · rw [if_neg (fun heq => htoken heq.symm), Nat.add_zero] at h
          simp only [if_neg htoken, h, hold]
      · intro q hq hpaid
        rcases (hmem q).mp hq with rfl | ⟨hq, -⟩
        · obtain ⟨inv, hinv, htoken⟩ := hknown
          obtain ⟨inv', hinv', heq⟩ := hkept inv hinv
          exact ⟨inv', hinv', heq.trans htoken⟩
        · obtain ⟨inv, hinv, htoken⟩ := hs.known q hq hpaid
          obtain ⟨inv', hinv', heq⟩ := hkept inv hinv
          exact ⟨inv', hinv', heq.trans htoken⟩

/-- A new invite has not been used. -/
theorem Inv.create
    (hs : Inv s)
    (u : Option User) (now : Int) (token : String) (fails : Bool)
    (body : Body ApiInviteCreateRequest) :
    Inv { s with
      store := (handleInviteCreate conf s.store u now token fails body).1 } := by
  unfold handleInviteCreate
  split
  · exact hs
  · split
    · exact hs
    · rename_i req _
      dsimp only
      split
      case h_2 =>
        exact hs
      case h_1 invites hinsert =>
        let inv := newInvite ((u.map User.name).getD "") token now req
        have hmem : ∀ i, i ∈ invites ↔ i ∈ s.store.invites ∨ i = inv :=
          fun i => Table.mem_insert?_iff hinsert
        have hfree := (Table.insert?_eq_some_iff.mp hinsert).1
        have hunused : ∀ r ∈ s.requests, r.token = token →
            r.counted = false := by
          intro r hr htoken
          by_contra hne
          obtain ⟨i, hi, heq⟩ := hs.known r hr (by simpa using hne)
          exact Table.find?_eq_none_iff.mp hfree i hi (heq.trans htoken)
        refine ⟨?_, ?_, ?_, hs.wellFormed⟩
        · intro i hi
          rcases (hmem i).mp hi with hi | rfl
          · exact hs.bounded i hi
          · change (0 : Int) ≤ if req.maxUses ≤ 0 then 1 else req.maxUses
            split <;> omega
        · intro i hi
          rcases (hmem i).mp hi with hi | rfl
          · exact hs.counts i hi
          · have hzero : s.requests.rows.countP (fun r =>
                decide (r.token = token) && r.counted) = 0 := by
              rw [List.countP_eq_zero]
              intro r hr
              by_cases htoken : r.token = token
              · simp [hunused r hr htoken]
              · simp [htoken]
            exact (congrArg Int.ofNat hzero).symm
        · intro r hr hcounted
          obtain ⟨i, hi, heq⟩ := hs.known r hr hcounted
          exact ⟨i, (hmem i).mpr (Or.inl hi), heq⟩

/-- A new request has taken no use. -/
theorem Inv.arrive
    (hs : Inv s)
    {r : Request}
    (hwf : r.WellFormed)
    (hnot : r.counted = false)
    (h : s.arrive r = some s') :
    Inv s' := by
  unfold State.arrive at h
  obtain ⟨requests, hinsert, rfl⟩ := Option.map_eq_some_iff.mp h
  have hmem : ∀ q, q ∈ requests ↔ q ∈ s.requests ∨ q = r :=
    fun q => Table.mem_insert?_iff hinsert
  have hrows := (Table.insert?_eq_some_iff.mp hinsert).2
  refine ⟨hs.bounded, ?_, ?_, ?_⟩
  · intro inv hinv
    rw [hs.counts inv hinv, hrows]
    simp [hnot]
  · intro q hq hcounted
    rcases (hmem q).mp hq with hq | rfl
    · exact hs.known q hq hcounted
    · rw [hnot] at hcounted
      cases hcounted
  · intro q hq
    rcases (hmem q).mp hq with hq | rfl
    · exact hs.wellFormed q hq
    · exact hwf

/-- Every step keeps the invariant. -/
theorem Inv.step
    (hs : Inv s)
    {l : Label}
    (hstep : step b conf s l = some s') :
    Inv s' := by
  cases l with
  | create u now token fails body =>
      cases hstep
      exact hs.create u now token fails body
  | redeem id path body =>
      exact hs.arrive (wellFormed_newRequest _ _ _) rfl hstep
  | join id path u prefs =>
      exact hs.arrive (wellFormed_newRequest _ _ _) rfl hstep
  | call id now rnd fails =>
      simp only [Invites.step] at hstep
      split at hstep
      case h_1 =>
        cases hstep
      case h_2 r hfind =>
        cases hstep
        obtain ⟨hr, hid⟩ := Table.find?_eq_some_iff.mp hfind
        exact hs.call hr (fun q => Table.mem_modify_key_iff _ hr hid)
          (fun p => Table.countP_modify_key _ hr hid p)
  | others accounts subscriptions =>
      cases hstep
      exact ⟨hs.bounded, hs.counts, hs.known, hs.wellFormed⟩

end Invariant

section Failures

variable {b : Bcrypt}
variable {conf : Accounts.Config}
variable {st : Store}
variable {now : Int}
variable {rnd : Accounts.Random}
variable {fails : Bool}
variable {r : Request}

theorem addUser_isOk_iff
    (b : Bcrypt) (rnd : Accounts.Random) (a : Manager.Accounts) (username password : String)
    (hallowed : allowedUsername username = true) :
    (∃ a', Accounts.addUser b a rnd.salt rnd.id username password .user false =
      .ok a')
      ↔
    (b.generateFromPassword rnd.salt password).isSome = true ∧
      a.db.insertable rnd.id username := by
  constructor
  · rintro ⟨a', h⟩
    obtain ⟨hash, hpass, -, hfree, -⟩ := addUser_eq_ok h
    refine ⟨?_, hfree⟩
    cases hgen : b.generateFromPassword rnd.salt password with
    | none =>
        simp [passColumn, hashPassword, hgen] at hpass
    | some hash' =>
        rfl
  · rintro ⟨hgen, hfree⟩
    obtain ⟨hash, hhash⟩ := Option.isSome_iff_exists.mp hgen
    have hpass : passColumn b rnd.salt password false = .ok hash := by
      simp [passColumn, hashPassword, hhash]
    exact addUser_isOk hallowed rfl hfree hpass

theorem nextGrant_not_failure
    (conf : Accounts.Config) (r : Request) (topics : List String) :
    (nextGrant conf r topics).isFailure = false := by
  have hpaid := (nextGrant_spec conf r topics).1
  cases hphase : nextGrant conf r topics with
  | failed e =>
      rw [hphase] at hpaid
      cases hpaid
  | _ =>
      rfl

/-- A request that has taken a use goes on exactly under this condition. -/
theorem advance_proceeds_iff
    (b : Bcrypt) (conf : Accounts.Config) (st : Store) (now : Int)
    (rnd : Accounts.Random) (fails : Bool)
    (hwf : r.WellFormed)
    (hpaid : r.phase.paid = true)
    (hopen : r.phase.finished = false) :
    (advance b conf st now rnd fails r).2.phase.isFailure = false
      ↔
    Proceeds b st rnd fails r := by
  cases fails with
  | true =>
      cases hphase : r.phase with
      | succeeded =>
          rw [hphase] at hopen
          cases hopen
      | failed e =>
          rw [hphase] at hopen
          cases hopen
      | _ =>
          simp [advance, Proceeds, hphase, Request.fail, Phase.isFailure]
  | false =>
      cases hphase : r.phase with
      | lookup =>
          rw [hphase] at hpaid
          cases hpaid
      | count =>
          rw [hphase] at hpaid
          cases hpaid
      | checkUser =>
          cases huser : st.accounts.db.user r.kind.username with
          | none =>
              simp [advance, Proceeds, hphase, huser, Phase.isFailure]
          | some u =>
              simp [advance, Proceeds, hphase, huser, Request.fail,
                Phase.isFailure]
      | addUser =>
          have hiff := addUser_isOk_iff b rnd st.accounts r.kind.username
            r.kind.password
            (hwf.allowed (Or.inr (Or.inl hphase)))
          simp only [advance, Proceeds, hphase, Bool.false_eq_true, if_false,
            true_and]
          rw [← hiff]
          cases hadd : Accounts.addUser b st.accounts rnd.salt rnd.id
              r.kind.username r.kind.password .user false with
          | error e =>
              simp [Request.fail, Phase.isFailure]
          | ok a =>
              simp [nextGrant_not_failure]
      | grant topic rest =>
          have hiff : (∃ db, st.accounts.db.allowAccess r.kind.username topic
              .readWrite = .ok db) ↔ _ := Database.allowAccess_isOk_iff
          simp only [advance, Proceeds, hphase, Bool.false_eq_true, if_false,
            true_and, Accounts.allowAccess]
          rw [← hiff]
          cases hallow : st.accounts.db.allowAccess r.kind.username topic
              .readWrite with
          | error e =>
              simp [Request.fail, Phase.isFailure]
          | ok db =>
              simp [nextGrant_not_failure]
      | readUser =>
          cases huser : st.accounts.db.user r.kind.username with
          | none =>
              simp [advance, Proceeds, hphase, huser, Request.fail,
                Phase.isFailure]
          | some u =>
              simp [advance, Proceeds, hphase, huser, Phase.isFailure]
      | changeSettings userID prefs =>
          simp [advance, Proceeds, hphase, Phase.isFailure]
      | succeeded =>
          rw [hphase] at hopen
          cases hopen
      | failed e =>
          rw [hphase] at hopen
          cases hopen

end Failures

section Main

variable {b : Bcrypt}
variable {conf : Accounts.Config}
variable {s s' : State}

/-- A request that is answered makes no call. -/
theorem advance_finished
    {st : Store} {now : Int} {rnd : Accounts.Random} {fails : Bool}
    {r : Request}
    (h : r.phase.finished = true) :
    (advance b conf st now rnd fails r) = (st, r) := by
  cases hphase : r.phase with
  | succeeded =>
      simp [advance, hphase]
  | failed e =>
      simp [advance, hphase]
  | _ =>
      rw [hphase] at h
      cases h

theorem Request.WellFormed.paid_of_counted
    {r : Request}
    (h : r.WellFormed)
    (hcounted : r.counted = true)
    (hopen : r.phase.finished = false) :
    r.phase.paid = true := by
  rw [← h.paid, hcounted]
  cases hphase : r.phase with
  | failed e =>
      rw [hphase] at hopen
      cases hopen
  | _ =>
      rfl

/-- A move that fails the request writes nothing. -/
theorem Move.same_of_failure
    {st st' : Store} {r r' : Request}
    (hmove : Move conf st r st' r')
    (hfailure : r'.phase.isFailure = true) :
    r'.counted = r.counted ∧ r'.created = r.created ∧
      r'.granted = r.granted := by
  cases hmove with
  | idle =>
      exact ⟨rfl, rfl, rfl⟩
  | fail e =>
      exact ⟨rfl, rfl, rfl⟩
  | enter =>
      cases hfailure
  | count hphase huse =>
      have hpaid := (afterCount_spec conf r).1
      change (afterCount conf r).isFailure = true at hfailure
      cases hnext : afterCount conf r with
      | failed e =>
          rw [hnext] at hpaid
          cases hpaid
      | _ =>
          rw [hnext] at hfailure
          cases hfailure
  | @work st' phase created granted hpaid hnext hcheck hinvites =>
      cases phase with
      | failed e =>
          cases hnext
      | _ =>
          cases hfailure

/-- The request that makes a call stays clean, if it goes on. -/
theorem clean_advance_iff
    {st : Store} {now : Int} {rnd : Accounts.Random} {fails : Bool}
    {r r' : Request}
    (hr' : r' = (advance b conf st now rnd fails r).2)
    (hwf : r.WellFormed)
    (hclean : r.phase.isFailure = true →
      r.counted = false ∧ r.created = false ∧ r.granted = []) :
    (r'.phase.isFailure = true →
        r'.counted = false ∧ r'.created = false ∧ r'.granted = [])
      ↔
    (r.counted = true → r.phase.finished = false →
      Proceeds b st rnd fails r) := by
  have hmove : Move conf st r (advance b conf st now rnd fails r).1 r' :=
    hr' ▸ advance_move
  constructor
  · intro h hcounted hopen
    have hpaid := hwf.paid_of_counted hcounted hopen
    rw [← advance_proceeds_iff b conf st now rnd fails hwf hpaid hopen, ← hr']
    by_contra hne
    have hfailure : r'.phase.isFailure = true := by simpa using hne
    have hno := (h hfailure).1
    rw [(hmove.same_of_failure hfailure).1, hcounted] at hno
    cases hno
  · intro h hfailure
    obtain ⟨hcounted, hcreated, hgranted⟩ := hmove.same_of_failure hfailure
    rw [hcounted, hcreated, hgranted]
    cases hmark : r.counted with
    | false =>
        exact ⟨rfl, hwf.unpaid hmark⟩
    | true =>
        cases hopen : r.phase.finished with
        | false =>
            have hpaid := hwf.paid_of_counted hmark hopen
            have hgoes := (advance_proceeds_iff b conf st now rnd fails hwf
              hpaid hopen).mpr (h hmark hopen)
            rw [← hr', hfailure] at hgoes
            cases hgoes
        | true =>
            have hsame : r' = r := by
              rw [hr', advance_finished hopen]
            subst hsame
            rw [(hclean hfailure).1] at hmark
            cases hmark

/-- The request under the ID makes its next call. -/
theorem exists_step_call
    (b : Bcrypt) (conf : Accounts.Config) (now : Int) (rnd : Accounts.Random)
    (fails : Bool) {id : Nat} {r : Request}
    (hfind : s.requests.find? id = some r) :
    ∃ s', step b conf s (.call id now rnd fails) = some s' ∧
      ∀ q, q ∈ s'.requests ↔
        q = (advance b conf s.store now rnd fails r).2 ∨
          (q ∈ s.requests ∧ q.id ≠ id) := by
  obtain ⟨hr, hid⟩ := Table.find?_eq_some_iff.mp hfind
  simp only [step, hfind]
  refine ⟨_, rfl, fun q => ?_⟩
  exact Table.mem_modify_key_iff
    (by intro q; split <;> simp [advance_id]) hr hid

/-- A step keeps the accounting exact, if the calls after the count go through. -/
theorem accurate_step_iff
    (hs : Inv s)
    (hclean : Clean s)
    (l : Label) :
    (∀ s', step b conf s l = some s' → Accurate s') ↔ Guarded b s l := by
  have hafter : ∀ s', step b conf s l = some s' → (Accurate s' ↔ Clean s') :=
    fun s' hstep => accurate_iff (hs.step hstep)
  have harrive : ∀ {r : Request} {s' : State}, r.counted = false →
      r.created = false → r.granted = [] → s.arrive r = some s' → Clean s' := by
    intro r s' hcounted hcreated hgranted h q hq hfailure
    obtain ⟨requests, hinsert, rfl⟩ := Option.map_eq_some_iff.mp h
    rcases (Table.mem_insert?_iff hinsert).mp hq with hq | rfl
    · exact hclean q hq hfailure
    · exact ⟨hcounted, hcreated, hgranted⟩
  cases l with
  | create u now token fails body =>
      refine iff_of_true (fun s' hstep => (hafter s' hstep).mpr ?_) trivial
      cases hstep
      exact hclean
  | redeem id path body =>
      exact iff_of_true (fun s' hstep => (hafter s' hstep).mpr
        (harrive rfl rfl rfl hstep)) trivial
  | join id path u prefs =>
      exact iff_of_true (fun s' hstep => (hafter s' hstep).mpr
        (harrive rfl rfl rfl hstep)) trivial
  | others accounts subscriptions =>
      refine iff_of_true (fun s' hstep => (hafter s' hstep).mpr ?_) trivial
      cases hstep
      exact hclean
  | call id now rnd fails =>
      cases hfind : s.requests.find? id with
      | none =>
          have hnone : step b conf s (.call id now rnd fails) = none := by
            simp [step, hfind]
          simp [hnone, Guarded, hfind]
      | some r =>
          obtain ⟨hr, hid⟩ := Table.find?_eq_some_iff.mp hfind
          obtain ⟨s', hstep, hmem⟩ := exists_step_call b conf now rnd fails
            hfind
          have hall : (∀ t, step b conf s (.call id now rnd fails) = some t →
              Accurate t) ↔ Accurate s' := by
            rw [hstep]
            exact ⟨fun h => h s' rfl, fun h t ht => Option.some.inj ht ▸ h⟩
          have hiff : (_ ↔ _) := clean_advance_iff
            (Eq.refl (advance b conf s.store now rnd fails r).2)
            (hs.wellFormed r hr) (hclean r hr)
          rw [hall, hafter s' hstep, Guarded, hfind]
          constructor
          · intro h q hq
            cases hq
            exact hiff.mp (h _ ((hmem _).mpr (Or.inl rfl)))
          · intro h q hq
            rcases (hmem q).mp hq with rfl | ⟨hq, -⟩
            · exact hiff.mpr (h r rfl)
            · exact hclean q hq

/--
Along a run from a server without invites, the counters are exact and failed
requests leave nothing behind, if and only if a request that has taken a use never
fails.
-/
theorem accounting_iff
    (b : Bcrypt)
    (conf : Accounts.Config)
    (accounts : Manager.Accounts)
    (subscriptions : String → List Subscription)
    (ls : List Label) :
    Along (step b conf)
        (fun s l => ∀ s', step b conf s l = some s' → Accurate s')
        (initial accounts subscriptions) ls
      ↔
    Along (step b conf) (Guarded b) (initial accounts subscriptions) ls := by
  have hinitial : Inv (initial accounts subscriptions) ∧
      Clean (initial accounts subscriptions) := by
    refine ⟨⟨?_, ?_, ?_, ?_⟩, ?_⟩
    all_goals
      intro _ h
      cases h
  have hiff : ∀ (s : State) l, Inv s ∧ Clean s →
      ((∀ s', step b conf s l = some s' → Accurate s') ↔ Guarded b s l) :=
    fun s l hs => accurate_step_iff hs.1 hs.2 l
  refine Along.congr_of_invariant hiff ?_ hinitial
  intro s l s' hs hafter hstep
  exact ⟨hs.1.step hstep, (hafter s' hstep).clean⟩

def exampleAdmin : User :=
  ⟨"u_admin", "admin", .admin, none, ⟨0, 0, 0⟩, false⟩

def exampleInvite : Body ApiInviteCreateRequest :=
  .json ⟨"news", 5, 0⟩

def examplePath : String :=
  "/v1/invite/aabb/redeem"

def exampleCall
    (id : Nat)
    (userID : String) : Label :=
  .call id 2 ⟨.replicate 16 0, userID⟩ false

/-- Two requests redeem one invite for the same name, one after the other. -/
def sameNameTwice : List Label :=
  [.create (some exampleAdmin) 1 "aabb" false exampleInvite,
    .redeem 1 examplePath (.json ⟨"phil", "secret"⟩)] ++
  List.replicate 7 (exampleCall 1 "u_1") ++
  [.redeem 2 examplePath (.json ⟨"phil", "secret"⟩)] ++
  List.replicate 3 (exampleCall 2 "u_2")

/--
The second request fails, because the name is taken, after it has taken a use: the
counter is two, and one redemption has succeeded.
-/
theorem failed_redemption_counted :
    ∃ s, run (step Accounts.exampleBcrypt Accounts.exampleConfig)
        (initial Accounts.exampleState.accounts (fun _ => [])) sameNameTwice =
          some s ∧
      (s.store.invites.find? "aabb").map Invite.usedCount = some 2 ∧
      s.successes "aabb" = 1 ∧ ¬ Accurate s := by
  have hrun : (run (step Accounts.exampleBcrypt Accounts.exampleConfig)
      (initial Accounts.exampleState.accounts (fun _ => []))
        sameNameTwice).map (fun s =>
          ((s.store.invites.find? "aabb").map Invite.usedCount,
            s.successes "aabb",
            (s.requests.find? 2).map
              (fun r => (r.phase.isFailure, r.counted)))) =
      some (some 2, 1, some (true, true)) := by
    decide
  obtain ⟨s, hs, hshow⟩ := Option.map_eq_some_iff.mp hrun
  simp only [Prod.mk.injEq] at hshow
  obtain ⟨hused, hsuccesses, hsecond⟩ := hshow
  obtain ⟨r, hfind, hmarks⟩ := Option.map_eq_some_iff.mp hsecond
  obtain ⟨hr, -⟩ := Table.find?_eq_some_iff.mp hfind
  obtain ⟨hfailure, hcounted⟩ := Prod.mk.inj hmarks
  refine ⟨s, hs, hused, hsuccesses, fun haccurate => ?_⟩
  rw [(haccurate.clean r hr hfailure).1] at hcounted
  cases hcounted

end Main

end Invites
end Server
end CoopMessenger
