import CoopMessenger.Library.Runs
import CoopMessenger.Manager.Database
import CoopMessenger.Server.Errors

/-!
# Join requests

`handleJoinRequestCreate` and `handleJoinRequestResolve` of
`server/server_join_request.go`.  A resolution reads the status of the request,
overwrites it, and, if it approves, grants access; if the grant fails, it sets the
status back.  Every database call is a step of its own, so several administrators
may resolve one request at once, and any call may fail.

**Results.**
* `advance_move`: every database call is one of nine moves.
* `resolved_once`: a request is resolved once and consistently, as long as nobody
  resolves it between the check and the update of another resolution, and no
  status is left that should have been set back.
-/

namespace CoopMessenger
namespace Server

open Library Manager

namespace JoinRequests

section Model

inductive Status where
  | pending
  | approved
  | denied
deriving DecidableEq, Repr

/-- A row of `join_requests`. -/
structure JoinRequest where
  id : Int
  username : String
  topic : String
  status : Status
  createdAt : Int
  resolvedAt : Int
  resolvedBy : String
deriving DecidableEq, Repr

/-- A subscription in the settings of a user. -/
structure Subscription where
  baseURL : String
  topic : String
deriving DecidableEq, Repr

/-- Where a resolution is; the phases but the last two name the next call. -/
inductive Phase where
  | lookup
  | update
  | grant
  | revert (e : Manager.Error)
  | readUser
  | changeSettings (userID : String) (prefs : List Subscription)
  | succeeded
  | failed (e : HandlerError)
deriving DecidableEq, Repr

/-- A resolution in flight or finished. -/
structure Resolution where
  id : Nat
  requestID : Int
  approve : Bool
  resolvedBy : String
  username : String
  topic : String
  phase : Phase
deriving DecidableEq, Repr

/--
The user database with the subscriptions by user ID, the join requests, and the
resolutions.  `grants` keeps the requests whose topic was granted.
-/
structure State where
  db : Database
  subscriptions : String → List Subscription
  joinRequests : Table JoinRequest.id
  resolutions : Table Resolution.id
  grants : List Int

/-- The status that a resolution sets. -/
def Resolution.status (r : Resolution) : Status :=
  if r.approve then .approved else .denied

/-- The body of a resolution. -/
structure ApiJoinRequestResolveRequest where
  status : String
deriving DecidableEq, Repr

/-- A resolution before its first database call. -/
def newResolution
    (id : Nat)
    (admin : Option User)
    (requestID : Option Int)
    (body : Option ApiJoinRequestResolveRequest) : Resolution :=
  let fail (e : ErrHTTP) : Resolution :=
    ⟨id, requestID.getD 0, false, "", "", "", .failed (.http e)⟩
  if !isAdmin admin then
    fail errHTTPUnauthorized
  else
    match requestID, body with
    | none, _ => fail (errHTTPBadRequest.wrap "invalid join request ID")
    | some _, none => fail errHTTPBadRequestJSONInvalid
    | some requestID, some req =>
        if req.status ≠ "approved" ∧ req.status ≠ "denied" then
          fail (errHTTPBadRequest.wrap
            "status must be 'approved' or 'denied'")
        else
          ⟨id, requestID, decide (req.status = "approved"),
            (admin.map User.name).getD "", "", "", .lookup⟩

/-- Overwrites the status of a request. -/
def setStatus
    (T : Table JoinRequest.id)
    (id : Int)
    (status : Status)
    (resolvedAt : Int)
    (resolvedBy : String) : Table JoinRequest.id :=
  T.modify
    (fun j => if j.id = id then { j with status, resolvedAt, resolvedBy } else j)
    (by intro j; split <;> rfl)

/-- Grants read-write access, unless the database rejects the write. -/
def grant
    (db : Database)
    (fails : Bool)
    (username topic : String) : Except Manager.Error Database :=
  if fails then
    .error .database
  else
    db.allowAccess username topic .readWrite

/-- The next database call of a resolution. -/
def advance
    (baseURL : String)
    (s : State)
    (now : Int)
    (fails : Bool)
    (r : Resolution) : State × Resolution :=
  match r.phase with
  | .lookup =>
      if fails then
        (s, { r with phase := .failed (.manager .database) })
      else
        match s.joinRequests.find? r.requestID with
        | none => (s, { r with phase := .failed (.http errHTTPNotFound) })
        | some j =>
            if j.status ≠ .pending then
              (s, { r with phase := .failed (.http (errHTTPBadRequest.wrap
                "join request is already resolved")) })
            else
              (s, { r with
                username := j.username, topic := j.topic, phase := .update })
  | .update =>
      if fails then
        (s, { r with phase := .failed (.manager .database) })
      else
        ({ s with
          joinRequests :=
            setStatus s.joinRequests r.requestID r.status now r.resolvedBy },
          { r with phase := if r.approve then .grant else .succeeded })
  | .grant =>
      match grant s.db fails r.username r.topic with
      | .error e => (s, { r with phase := .revert e })
      | .ok db =>
          ({ s with db, grants := s.grants ++ [r.requestID] },
            { r with phase := .readUser })
  | .revert e =>
      -- a failure is only logged
      (if fails then
        s
      else
        { s with
          joinRequests := setStatus s.joinRequests r.requestID .pending 0 "" },
        { r with phase := .failed (.manager e) })
  | .readUser =>
      match s.db.user r.username, fails with
      | some u, false =>
          if ⟨baseURL, r.topic⟩ ∈ s.subscriptions u.id then
            (s, { r with phase := .succeeded })
          else
            (s, { r with
              phase :=
                .changeSettings u.id
                  (s.subscriptions u.id ++ [⟨baseURL, r.topic⟩]) })
      | _, _ => (s, { r with phase := .succeeded })
  | .changeSettings userID prefs =>
      -- a failure is only logged
      (if fails then
        s
      else
        { s with
          subscriptions := Function.update s.subscriptions userID prefs },
        { r with phase := .succeeded })
  | .succeeded | .failed _ => (s, r)

theorem advance_id
    (baseURL : String) (s : State) (now : Int) (fails : Bool)
    (r : Resolution) :
    (advance baseURL s now fails r).2.id = r.id := by
  unfold advance
  repeat' split
  all_goals rfl

/--
A user asks to join, an administrator resolves a request, or a resolution makes
its next database call.
-/
inductive Label where
  | create (id : Int) (username topic : String) (now : Int)
  | resolve
      (id : Nat)
      (admin : Option User)
      (requestID : Option Int)
      (body : Option ApiJoinRequestResolveRequest)
  | call (id : Nat) (now : Int) (fails : Bool)
deriving Repr

/-- One step; `none` if it is not enabled. -/
def step
    (baseURL : String)
    (s : State) : Label → Option State
  | .create id username topic now =>
      -- `UNIQUE (username, topic)`
      if topic = "" ∨ s.joinRequests.rows.any (fun j =>
          decide (j.username = username ∧ j.topic = topic)) then
        none
      else
        (s.joinRequests.insert?
          ⟨id, username, topic, .pending, now, 0, ""⟩).map
            (fun joinRequests => { s with joinRequests })
  | .resolve id admin requestID body =>
      (s.resolutions.insert? (newResolution id admin requestID body)).map
        (fun resolutions => { s with resolutions })
  | .call id now fails =>
      match s.resolutions.find? id with
      | none => none
      | some r =>
          some
            { (advance baseURL s now fails r).1 with
              resolutions :=
                s.resolutions.modify
                  (fun q =>
                    if q.id = id then
                      (advance baseURL s now fails q).2
                    else
                      q)
                  (by intro q; split <;> simp [advance_id]) }

/-- A server without join requests. -/
def initial
    (db : Database)
    (subscriptions : String → List Subscription) : State :=
  ⟨db, subscriptions, .empty, .empty, []⟩

end Model

section Spec

/-- Has the resolution been answered? -/
def Phase.finished : Phase → Bool
  | .succeeded | .failed _ => true
  | _ => false

/-- The requester has the access that the request asks for. -/
def HasAccess
    (db : Database)
    (j : JoinRequest) : Prop :=
  ∃ id, ∃ hp : allowedTopicPattern j.topic = true,
    db.userID j.username = some id ∧
      ⟨id, .ofPattern j.topic hp, true, true, none, false⟩ ∈ db.access

/--
A request is resolved at most once; the status stays as the resolution that
succeeded has set it; and when all resolutions are answered, the requester has
been granted access, and has it, if and only if the status is approved.
-/
structure Consistent (s : State) : Prop where
  once :
    ∀ r ∈ s.resolutions, ∀ r' ∈ s.resolutions,
      r.phase = .succeeded → r'.phase = .succeeded →
        r.requestID = r'.requestID → r = r'
  lasting :
    ∀ r ∈ s.resolutions, r.phase = .succeeded →
      ∃ j ∈ s.joinRequests, j.id = r.requestID ∧ j.status = r.status
  granted :
    ∀ j ∈ s.joinRequests,
      (∀ r ∈ s.resolutions, r.requestID = j.id → r.phase.finished = true) →
        (j.id ∈ s.grants ↔ j.status = .approved)
  held : ∀ j ∈ s.joinRequests, j.id ∈ s.grants → HasAccess s.db j

/-- Is the resolution about to set the status back? -/
def Phase.reverts : Phase → Bool
  | .revert _ => true
  | _ => false

/--
An update finds the request still pending, and a status that is to be set back is
set back.
-/
def Guarded
    (s : State) :
    Label → Prop
  | .create _ _ _ _ | .resolve _ _ _ _ => True
  | .call id _ fails =>
      ∀ r ∈ s.resolutions, r.id = id →
        (r.phase = .update → fails = false →
          ∀ j ∈ s.joinRequests, j.id = r.requestID → j.status = .pending) ∧
        (r.phase.reverts = true → fails = false)

instance decidableGuarded
    (s : State) :
    ∀ l, Decidable (Guarded s l)
  | .create _ _ _ _ | .resolve _ _ _ _ => isTrue trivial
  | .call id _ fails =>
      inferInstanceAs (Decidable (∀ r ∈ s.resolutions, r.id = id →
        (r.phase = .update → fails = false →
          ∀ j ∈ s.joinRequests, j.id = r.requestID → j.status = .pending) ∧
        (r.phase.reverts = true → fails = false)))

end Spec

section Moves

/-- Is the status of the request the one that the resolution has set? -/
def Phase.holds : Phase → Bool
  | .grant | .revert _ | .readUser | .changeSettings _ _ | .succeeded => true
  | .lookup | .update | .failed _ => false

/-- Has the resolution read the request? -/
def Phase.knows (p : Phase) : Bool :=
  p.holds || decide (p = .update)

/-- Is the resolution going on after its grant? -/
def Phase.afterGrant : Phase → Bool
  | .readUser | .changeSettings _ _ => true
  | _ => false

/-- Has the resolution granted access? -/
def Resolution.granted (r : Resolution) : Bool :=
  r.phase.afterGrant || (r.approve && decide (r.phase = .succeeded))

/-- What one database call of a resolution can do. -/
inductive Move
    (s : State) (fails : Bool) (r : Resolution) : State → Resolution → Prop where
  | idle : Move s fails r s r
  | fail (e : HandlerError) :
      r.phase.holds = false →
      Move s fails r s { r with phase := .failed e }
  | read {j : JoinRequest} :
      r.phase = .lookup →
      j ∈ s.joinRequests → j.id = r.requestID → j.status = .pending →
      Move s fails r s
        { r with username := j.username, topic := j.topic, phase := .update }
  | update (now : Int) :
      r.phase = .update → fails = false →
      Move s fails r
        { s with
          joinRequests :=
            setStatus s.joinRequests r.requestID r.status now r.resolvedBy }
        { r with phase := if r.approve then .grant else .succeeded }
  | grant {db : Database} :
      r.phase = .grant →
      s.db.allowAccess r.username r.topic .readWrite = .ok db →
      Move s fails r { s with db, grants := s.grants ++ [r.requestID] }
        { r with phase := .readUser }
  | reject (e : Manager.Error) :
      r.phase = .grant →
      Move s fails r s { r with phase := .revert e }
  | revert (e : Manager.Error) :
      r.phase = .revert e →
      Move s fails r
        { s with
          joinRequests := setStatus s.joinRequests r.requestID .pending 0 "" }
        { r with phase := .failed (.manager e) }
  | lose (e : Manager.Error) :
      r.phase = .revert e → fails = true →
      Move s fails r s { r with phase := .failed (.manager e) }
  | finish {subscriptions : String → List Subscription} {phase : Phase} :
      r.phase.afterGrant = true →
      phase.afterGrant = true ∨ phase = .succeeded →
      Move s fails r { s with subscriptions } { r with phase }

variable {baseURL : String}
variable {s s' : State}
variable {now : Int}
variable {fails : Bool}
variable {r : Resolution}

theorem advance_move :
    Move s fails r (advance baseURL s now fails r).1
      (advance baseURL s now fails r).2 := by
  cases hphase : r.phase with
  | lookup =>
      have hnot : r.phase.holds = false := by rw [hphase]; rfl
      simp only [advance, hphase]
      split
      case isTrue =>
        exact .fail _ hnot
      case isFalse =>
        split
        case h_1 =>
          exact .fail _ hnot
        case h_2 j hfind =>
          obtain ⟨hj, hid⟩ := Table.find?_eq_some_iff.mp hfind
          split
          case isTrue =>
            exact .fail _ hnot
          case isFalse hpending =>
            exact .read hphase hj hid (not_not.mp hpending)
  | update =>
      simp only [advance, hphase]
      split
      case isTrue =>
        exact .fail _ (by rw [hphase]; rfl)
      case isFalse hfails =>
        exact .update now hphase (by simpa using hfails)
  | grant =>
      simp only [advance, hphase]
      split
      case h_1 e hgrant =>
        exact .reject e hphase
      case h_2 db hgrant =>
        refine .grant hphase ?_
        rw [← hgrant, JoinRequests.grant]
        split
        case isTrue hfails =>
          simp [JoinRequests.grant, hfails] at hgrant
        case isFalse =>
          rfl
  | revert e =>
      cases fails with
      | true =>
          simp only [advance, hphase]
          exact .lose e hphase rfl
      | false =>
          simp only [advance, hphase]
          exact .revert e hphase
  | readUser =>
      have hafter : r.phase.afterGrant = true := by rw [hphase]; rfl
      simp only [advance, hphase]
      split
      case h_1 =>
        split
        case isTrue =>
          exact .finish hafter (Or.inr rfl)
        case isFalse =>
          exact .finish hafter (Or.inl rfl)
      case h_2 =>
        exact .finish hafter (Or.inr rfl)
  | changeSettings userID prefs =>
      have hafter : r.phase.afterGrant = true := by rw [hphase]; rfl
      simp only [advance, hphase]
      cases fails with
      | true =>
          exact .finish hafter (Or.inr rfl)
      | false =>
          exact .finish hafter (Or.inr rfl)
  | succeeded =>
      simp only [advance, hphase]
      exact .idle
  | failed e =>
      simp only [advance, hphase]
      exact .idle

theorem mem_setStatus_iff
    {T : Table JoinRequest.id} {id : Int} {status : Status}
    {resolvedAt : Int} {resolvedBy : String} {j : JoinRequest} :
    j ∈ setStatus T id status resolvedAt resolvedBy
      ↔
    (j ∈ T ∧ j.id ≠ id) ∨
      ∃ i ∈ T, i.id = id ∧ j = { i with status, resolvedAt, resolvedBy } := by
  rw [setStatus, Table.mem_modify_iff]
  constructor
  · rintro ⟨i, hi, rfl⟩
    by_cases hid : i.id = id
    · rw [if_pos hid]
      exact Or.inr ⟨i, hi, hid, rfl⟩
    · rw [if_neg hid]
      exact Or.inl ⟨hi, hid⟩
  · rintro (⟨hj, hid⟩ | ⟨i, hi, hid, rfl⟩)
    · exact ⟨j, hj, if_neg hid⟩
    · exact ⟨i, hi, if_pos hid⟩

end Moves

section Locks

/--
The requests are locked by the resolutions that hold them: one holder at most, the
status is the one the holder has set, and only a request without holder is pending.
-/
structure Locked
    (T : Table JoinRequest.id)
    (H : Nat → Int → Status → Prop) : Prop where
  unique : ∀ i i' id st st', H i id st → H i' id st' → i = i'
  lasting : ∀ i id st, H i id st → ∃ j ∈ T, j.id = id ∧ j.status = st
  settled : ∀ j ∈ T, j.status ≠ .pending → ∃ i st, H i j.id st

variable {T : Table JoinRequest.id}
variable {H H' : Nat → Int → Status → Prop}

theorem Locked.congr
    (h : Locked T H)
    (hH : ∀ i id st, H' i id st ↔ H i id st) :
    Locked T H' := by
  have heq : H' = H := by
    funext i id st
    exact propext (hH i id st)
  exact heq ▸ h

/-- A pending request has no holder. -/
theorem Locked.free
    (h : Locked T H)
    (hset : ∀ i id st, H i id st → st ≠ .pending)
    {j : JoinRequest}
    (hj : j ∈ T)
    (hpending : j.status = .pending)
    (i : Nat) (st : Status) :
    ¬ H i j.id st := by
  intro hH
  obtain ⟨k, hk, hid, hstatus⟩ := h.lasting i j.id st hH
  have heq : k = j := Table.eq_of_key_eq hk hj hid
  subst heq
  exact hset i k.id st hH (hstatus ▸ hpending)

/-- A pending request is taken. -/
theorem Locked.acquire
    (h : Locked T H)
    {i₀ : Nat} {status : Status} {j : JoinRequest}
    {resolvedAt : Int} {resolvedBy : String}
    (hj : j ∈ T)
    (hfree : ∀ i st, ¬ H i j.id st)
    (hH : ∀ i id st, H' i id st ↔
      H i id st ∨ (i = i₀ ∧ id = j.id ∧ st = status)) :
    Locked (setStatus T j.id status resolvedAt resolvedBy) H' := by
  refine ⟨fun i i' id st st' hi hi' => ?_, fun i id st hi => ?_,
    fun k hk hset => ?_⟩
  · rcases (hH _ _ _).mp hi with hi | ⟨rfl, rfl, rfl⟩
    · rcases (hH _ _ _).mp hi' with hi' | ⟨rfl, rfl, rfl⟩
      · exact h.unique _ _ _ _ _ hi hi'
      · exact absurd hi (hfree _ _)
    · rcases (hH _ _ _).mp hi' with hi' | ⟨rfl, -, -⟩
      · exact absurd hi' (hfree _ _)
      · rfl
  · rcases (hH _ _ _).mp hi with hi | ⟨rfl, rfl, rfl⟩
    · obtain ⟨k, hk, rfl, hstatus⟩ := h.lasting _ _ _ hi
      refine ⟨k, mem_setStatus_iff.mpr (Or.inl ⟨hk, ?_⟩), rfl, hstatus⟩
      intro hid
      exact hfree i st (hid ▸ hi)
    · exact ⟨_, mem_setStatus_iff.mpr (Or.inr ⟨j, hj, rfl, rfl⟩), rfl, rfl⟩
  · rcases mem_setStatus_iff.mp hk with ⟨hk, -⟩ | ⟨k', -, hid, rfl⟩
    · obtain ⟨i, st, hi⟩ := h.settled k hk hset
      exact ⟨i, st, (hH _ _ _).mpr (Or.inl hi)⟩
    · exact ⟨i₀, status, (hH _ _ _).mpr (Or.inr ⟨rfl, hid, rfl⟩)⟩

/-- The holder sets the status back. -/
theorem Locked.release
    (h : Locked T H)
    {i₀ : Nat} {id₀ : Int} {st₀ : Status}
    (hholds : H i₀ id₀ st₀)
    (hfun : ∀ id st, H i₀ id st → id = id₀)
    (hH : ∀ i id st, H' i id st ↔ H i id st ∧ i ≠ i₀) :
    Locked (setStatus T id₀ .pending 0 "") H' := by
  refine ⟨fun i i' id st st' hi hi' => ?_, fun i id st hi => ?_,
    fun k hk hset => ?_⟩
  · exact h.unique _ _ _ _ _ ((hH _ _ _).mp hi).1 ((hH _ _ _).mp hi').1
  · obtain ⟨hi, hne⟩ := (hH _ _ _).mp hi
    obtain ⟨k, hk, rfl, hstatus⟩ := h.lasting _ _ _ hi
    refine ⟨k, mem_setStatus_iff.mpr (Or.inl ⟨hk, ?_⟩), rfl, hstatus⟩
    intro hid
    exact hne (h.unique _ _ _ _ _ hi (hid ▸ hholds))
  · rcases mem_setStatus_iff.mp hk with ⟨hk, hid⟩ | ⟨k', -, -, rfl⟩
    · obtain ⟨i, st, hi⟩ := h.settled k hk hset
      refine ⟨i, st, (hH _ _ _).mpr ⟨hi, ?_⟩⟩
      rintro rfl
      exact hid (hfun _ _ hi)
    · exact absurd rfl hset

/-- A new request is pending. -/
theorem Locked.insert
    (h : Locked T H)
    {U : Table JoinRequest.id} {j : JoinRequest}
    (hinsert : T.insert? j = some U)
    (hpending : j.status = .pending) :
    Locked U H := by
  refine ⟨h.unique, fun i id st hi => ?_, fun k hk hset => ?_⟩
  · obtain ⟨k, hk, hid⟩ := h.lasting i id st hi
    exact ⟨k, (Table.mem_insert?_iff hinsert).mpr (Or.inl hk), hid⟩
  · rcases (Table.mem_insert?_iff hinsert).mp hk with hk | rfl
    · exact h.settled k hk hset
    · exact absurd hpending hset

end Locks

section Invariant

/-- The resolution has set the status of the request, and keeps it. -/
def Holds
    (T : Table Resolution.id)
    (i : Nat)
    (id : Int)
    (status : Status) : Prop :=
  ∃ r ∈ T, (r.id = i ∧ r.requestID = id ∧ r.status = status) ∧
    r.phase.holds = true

/-- There is a request under the ID, by the user for the topic. -/
def IsRequest
    (T : Table JoinRequest.id)
    (id : Int)
    (username topic : String) : Prop :=
  ∃ j ∈ T, j.id = id ∧ j.username = username ∧ j.topic = topic

/-- Does the resolution approve for sure? -/
def Phase.approves : Phase → Bool
  | .grant | .revert _ | .readUser | .changeSettings _ _ => true
  | .lookup | .update | .succeeded | .failed _ => false

/-- A resolution that has read the request works for it; a grant is an approval. -/
structure Resolution.WellFormed
    (T : Table JoinRequest.id)
    (r : Resolution) : Prop where
  request : r.phase.knows = true → IsRequest T r.requestID r.username r.topic
  approve : r.phase.approves = true → r.approve = true

structure Inv (s : State) : Prop where
  locked : Locked s.joinRequests (Holds s.resolutions)
  wellFormed : ∀ r ∈ s.resolutions, r.WellFormed s.joinRequests
  grants :
    ∀ id, id ∈ s.grants ↔
      ∃ r ∈ s.resolutions, r.requestID = id ∧ r.granted = true
  held : ∀ j ∈ s.joinRequests, j.id ∈ s.grants → HasAccess s.db j

theorem Resolution.status_ne_pending
    (r : Resolution) :
    r.status ≠ .pending := by
  unfold Resolution.status
  split <;> decide

theorem Holds.ne_pending
    {T : Table Resolution.id} {i : Nat} {id : Int} {st : Status}
    (h : Holds T i id st) :
    st ≠ .pending := by
  obtain ⟨r, -, ⟨-, -, rfl⟩, -⟩ := h
  exact r.status_ne_pending

/-- A resolution that has granted access holds the request and approves. -/
theorem Resolution.WellFormed.holds_of_granted
    {T : Table JoinRequest.id} {r : Resolution}
    (h : r.WellFormed T)
    (hgranted : r.granted = true) :
    r.phase.holds = true ∧ r.approve = true := by
  rcases Bool.or_eq_true_iff.mp hgranted with hafter | hdone
  · cases hphase : r.phase with
    | readUser =>
        exact ⟨rfl, h.approve (by rw [hphase]; rfl)⟩
    | changeSettings userID prefs =>
        exact ⟨rfl, h.approve (by rw [hphase]; rfl)⟩
    | _ =>
        rw [hphase] at hafter
        cases hafter
  · obtain ⟨happrove, hphase⟩ := Bool.and_eq_true_iff.mp hdone
    rw [of_decide_eq_true hphase]
    exact ⟨rfl, happrove⟩

theorem isRequest_setStatus_iff
    {T : Table JoinRequest.id} {id id' : Int} {status : Status}
    {resolvedAt : Int} {resolvedBy username topic : String} :
    IsRequest (setStatus T id' status resolvedAt resolvedBy) id username topic
      ↔
    IsRequest T id username topic := by
  constructor
  · rintro ⟨j, hj, hrequest⟩
    rcases mem_setStatus_iff.mp hj with ⟨hj, -⟩ | ⟨i, hi, -, rfl⟩
    · exact ⟨j, hj, hrequest⟩
    · exact ⟨i, hi, hrequest⟩
  · rintro ⟨j, hj, hrequest⟩
    by_cases hid : j.id = id'
    · exact ⟨_, mem_setStatus_iff.mpr (Or.inr ⟨j, hj, hid, rfl⟩), hrequest⟩
    · exact ⟨j, mem_setStatus_iff.mpr (Or.inl ⟨hj, hid⟩), hrequest⟩

/-- What is granted by request stays granted. -/
theorem hasAccess_allowAccess
    {db db' : Database} {username topic : String} {j : JoinRequest}
    (hallow : db.allowAccess username topic .readWrite = .ok db')
    (h : HasAccess db j ∨ (j.username = username ∧ j.topic = topic)) :
    HasAccess db' j := by
  obtain ⟨uid, hpattern, huid, husers, -, hmem⟩ :=
    Database.allowAccess_eq_ok hallow
  have hids : db'.userID = db.userID := Database.userID_congr husers
  rcases h with ⟨id, hp, hid, hrow⟩ | ⟨rfl, rfl⟩
  · refine ⟨id, hp, hids ▸ hid, (hmem _).mpr ?_⟩
    by_cases hkey : (id, StoredPattern.ofPattern j.topic hp) =
        (uid, .ofPattern topic hpattern)
    · obtain ⟨rfl, hsame⟩ := Prod.mk.inj hkey
      rw [hsame]
      exact Or.inl rfl
    · exact Or.inr ⟨hrow, hkey⟩
  · exact ⟨uid, hpattern, hids ▸ huid, (hmem _).mpr (Or.inl rfl)⟩

section Replacement

variable {T U : Table Resolution.id}
variable {r r' : Resolution}
variable {p : Resolution → Prop}

/-- What is said of some resolution after one of them has moved. -/
theorem exists_replaced_iff
    (hU : ∀ q, q ∈ U ↔ q = r' ∨ (q ∈ T ∧ q.id ≠ r.id)) :
    (∃ q ∈ U, p q) ↔ p r' ∨ ∃ q ∈ T, q.id ≠ r.id ∧ p q := by
  constructor
  · rintro ⟨q, hq, hp⟩
    rcases (hU q).mp hq with rfl | ⟨hq, hne⟩
    · exact Or.inl hp
    · exact Or.inr ⟨q, hq, hne, hp⟩
  · rintro (hp | ⟨q, hq, hne, hp⟩)
    · exact ⟨r', (hU r').mpr (Or.inl rfl), hp⟩
    · exact ⟨q, (hU q).mpr (Or.inr ⟨hq, hne⟩), hp⟩

theorem exists_moving_iff
    (hr : r ∈ T) :
    (∃ q ∈ T, p q) ↔ p r ∨ ∃ q ∈ T, q.id ≠ r.id ∧ p q := by
  constructor
  · rintro ⟨q, hq, hp⟩
    by_cases hid : q.id = r.id
    · rw [Table.eq_of_key_eq hq hr hid] at hp
      exact Or.inl hp
    · exact Or.inr ⟨q, hq, hid, hp⟩
  · rintro (hp | ⟨q, hq, -, hp⟩)
    · exact ⟨r, hr, hp⟩
    · exact ⟨q, hq, hp⟩

theorem exists_replaced_congr
    (hr : r ∈ T)
    (hU : ∀ q, q ∈ U ↔ q = r' ∨ (q ∈ T ∧ q.id ≠ r.id))
    (hp : p r' ↔ p r) :
    (∃ q ∈ U, p q) ↔ ∃ q ∈ T, p q := by
  exact (exists_replaced_iff hU).trans
    ((or_congr_left hp).trans (exists_moving_iff hr).symm)

end Replacement

end Invariant

section Steps

variable {s s₁ s' : State}
variable {fails : Bool}
variable {r r' : Resolution}
variable {U : Table Resolution.id}

theorem Resolution.WellFormed.setStatus
    {T : Table JoinRequest.id} {id : Int} {status : Status}
    {resolvedAt : Int} {resolvedBy : String}
    (h : r.WellFormed T) :
    r.WellFormed (setStatus T id status resolvedAt resolvedBy) :=
  ⟨fun hknows => isRequest_setStatus_iff.mpr (h.request hknows), h.approve⟩

theorem wellFormed_replaced
    {T : Table JoinRequest.id}
    (hU : ∀ q, q ∈ U ↔ q = r' ∨ (q ∈ s.resolutions ∧ q.id ≠ r.id))
    (hs : ∀ q ∈ s.resolutions, q.WellFormed T)
    (hr' : r'.WellFormed T) :
    ∀ q ∈ U, q.WellFormed T := by
  intro q hq
  rcases (hU q).mp hq with rfl | ⟨hq, -⟩
  · exact hr'
  · exact hs q hq

/-- A resolution that goes on holding a request holds it as before. -/
theorem holds_replaced_congr
    (hr : r ∈ s.resolutions)
    (hU : ∀ q, q ∈ U ↔ q = r' ∨ (q ∈ s.resolutions ∧ q.id ≠ r.id))
    (hsame : r'.id = r.id ∧ r'.requestID = r.requestID ∧ r'.approve = r.approve)
    (hholds : r'.phase.holds = r.phase.holds)
    (i : Nat) (id : Int) (st : Status) :
    Holds U i id st ↔ Holds s.resolutions i id st := by
  refine exists_replaced_congr hr hU ?_
  rw [Resolution.status, hsame.1, hsame.2.1, hsame.2.2, hholds, Resolution.status]

theorem granted_replaced_congr
    (hr : r ∈ s.resolutions)
    (hU : ∀ q, q ∈ U ↔ q = r' ∨ (q ∈ s.resolutions ∧ q.id ≠ r.id))
    (hrequest : r'.requestID = r.requestID)
    (hgranted : r'.granted = r.granted)
    (id : Int) :
    (∃ q ∈ U, q.requestID = id ∧ q.granted = true)
      ↔
    ∃ q ∈ s.resolutions, q.requestID = id ∧ q.granted = true := by
  refine exists_replaced_congr hr hU ?_
  rw [hrequest, hgranted]

/-- A move that changes neither the status nor the access entries. -/
theorem Inv.quiet
    (hs : Inv s)
    (hr : r ∈ s.resolutions)
    (hU : ∀ q, q ∈ U ↔ q = r' ∨ (q ∈ s.resolutions ∧ q.id ≠ r.id))
    (hsame : r'.id = r.id ∧ r'.requestID = r.requestID ∧ r'.approve = r.approve)
    (hholds : r'.phase.holds = r.phase.holds)
    (hgranted : r'.granted = r.granted)
    (hr' : r'.WellFormed s.joinRequests)
    (subscriptions : String → List Subscription) :
    Inv { s with subscriptions, resolutions := U } where
  locked := hs.locked.congr (holds_replaced_congr hr hU hsame hholds)
  wellFormed := wellFormed_replaced hU hs.wellFormed hr'
  grants := fun id =>
    (hs.grants id).trans (granted_replaced_congr hr hU hsame.2.1 hgranted id).symm
  held := hs.held

/-- A resolution takes a request that is pending. -/
theorem Inv.update
    (hs : Inv s)
    (hr : r ∈ s.resolutions)
    (hphase : r.phase = .update)
    (hpending : ∀ j ∈ s.joinRequests, j.id = r.requestID → j.status = .pending)
    (hU : ∀ q, q ∈ U ↔
      q = { r with phase := if r.approve then .grant else .succeeded } ∨
        (q ∈ s.resolutions ∧ q.id ≠ r.id))
    (now : Int) :
    Inv
      { s with
        joinRequests :=
          setStatus s.joinRequests r.requestID r.status now r.resolvedBy,
        resolutions := U } := by
  have hwf := hs.wellFormed r hr
  obtain ⟨j, hj, hid, hname⟩ := hwf.request (by rw [hphase]; rfl)
  have hnot : r.phase.holds = false := by rw [hphase]; rfl
  refine ⟨?_, ?_, fun id => ?_, ?_⟩
  · have hfree := hs.locked.free (fun _ _ _ h => h.ne_pending) hj
      (hpending j hj hid)
    have hH : ∀ i id st, Holds U i id st ↔
        Holds s.resolutions i id st ∨
          (i = r.id ∧ id = j.id ∧ st = r.status) := by
      intro i id st
      have hothers : Holds s.resolutions i id st ↔ _ :=
        (exists_moving_iff hr).trans
          (or_iff_right (fun h => by simp [hnot] at h))
      rw [hothers, hid]
      refine (exists_replaced_iff hU).trans (or_comm.trans (or_congr_right ?_))
      constructor
      · rintro ⟨⟨rfl, rfl, rfl⟩, -⟩
        exact ⟨rfl, rfl, rfl⟩
      · rintro ⟨rfl, rfl, rfl⟩
        refine ⟨⟨rfl, rfl, rfl⟩, ?_⟩
        cases happrove : r.approve with
        | true => simp [Phase.holds]
        | false => simp [Phase.holds]
    rw [← hid]
    exact hs.locked.acquire hj hfree hH
  · refine wellFormed_replaced hU (fun q hq => (hs.wellFormed q hq).setStatus) ?_
    refine ⟨fun _ => ?_, fun happroves => ?_⟩
    · exact isRequest_setStatus_iff.mpr ⟨j, hj, hid, hname⟩
    · cases happrove : r.approve with
      | true =>
          rfl
      | false =>
          simp [happrove, Phase.approves] at happroves
  · refine (hs.grants id).trans (granted_replaced_congr hr hU rfl ?_ id).symm
    cases happrove : r.approve with
    | true =>
        simp [Resolution.granted, hphase, Phase.afterGrant]
    | false =>
        simp [Resolution.granted, hphase, happrove, Phase.afterGrant]
  · intro k hk hgranted
    rcases mem_setStatus_iff.mp hk with ⟨hk, -⟩ | ⟨k', hk', -, rfl⟩
    · exact hs.held k hk hgranted
    · exact hs.held k' hk' hgranted

/-- A resolution grants what it was asked for. -/
theorem Inv.grant
    (hs : Inv s)
    (hr : r ∈ s.resolutions)
    (hphase : r.phase = .grant)
    {db : Database}
    (hallow : s.db.allowAccess r.username r.topic .readWrite = .ok db)
    (hU : ∀ q, q ∈ U ↔
      q = { r with phase := .readUser } ∨ (q ∈ s.resolutions ∧ q.id ≠ r.id)) :
    Inv
      { s with
        db, grants := s.grants ++ [r.requestID], resolutions := U } := by
  have hwf := hs.wellFormed r hr
  have happrove : r.approve = true := hwf.approve (by rw [hphase]; rfl)
  have hrequest := hwf.request (by rw [hphase]; rfl)
  refine ⟨?_, ?_, fun id => ?_, ?_⟩
  · exact hs.locked.congr
      (holds_replaced_congr hr hU ⟨rfl, rfl, rfl⟩ (by rw [hphase]; rfl))
  · exact wellFormed_replaced hU hs.wellFormed
      ⟨fun _ => hrequest, fun _ => happrove⟩
  · rw [List.mem_append, hs.grants id, exists_moving_iff hr,
      exists_replaced_iff hU]
    have hbefore : r.granted = false := by
      simp [Resolution.granted, hphase, Phase.afterGrant]
    rw [hbefore, List.mem_singleton]
    constructor
    · rintro ((⟨-, hnot⟩ | hothers) | rfl)
      · cases hnot
      · exact Or.inr hothers
      · exact Or.inl ⟨rfl, rfl⟩
    · rintro (⟨rfl, -⟩ | hothers)
      · exact Or.inr rfl
      · exact Or.inl (Or.inr hothers)
  · intro k hk hgranted
    refine hasAccess_allowAccess hallow ?_
    rcases List.mem_append.mp hgranted with hgranted | hnew
    · exact Or.inl (hs.held k hk hgranted)
    · obtain ⟨j, hj, hid, hname⟩ := hrequest
      have hsame : k = j :=
        Table.eq_of_key_eq hk hj ((List.mem_singleton.mp hnew).trans hid.symm)
      exact Or.inr (hsame ▸ hname)

/-- A resolution whose grant is rejected sets the status back. -/
theorem Inv.revert
    (hs : Inv s)
    (hr : r ∈ s.resolutions)
    {e : Manager.Error}
    (hphase : r.phase = .revert e)
    (hU : ∀ q, q ∈ U ↔
      q = { r with phase := .failed (.manager e) } ∨
        (q ∈ s.resolutions ∧ q.id ≠ r.id)) :
    Inv
      { s with
        joinRequests := setStatus s.joinRequests r.requestID .pending 0 "",
        resolutions := U } := by
  have hholds : r.phase.holds = true := by rw [hphase]; rfl
  refine ⟨?_, ?_, fun id => ?_, ?_⟩
  · refine hs.locked.release ⟨r, hr, ⟨rfl, rfl, rfl⟩, hholds⟩ ?_
      (fun i id st => ?_)
    · rintro id st ⟨q, hq, ⟨hid, rfl, -⟩, -⟩
      rw [Table.eq_of_key_eq hq hr hid]
    · refine (exists_replaced_iff hU).trans ?_
      constructor
      · rintro (⟨-, hfailed⟩ | ⟨q, hq, hne, ⟨rfl, hrest⟩, hq'⟩)
        · cases hfailed
        · exact ⟨⟨q, hq, ⟨rfl, hrest⟩, hq'⟩, hne⟩
      · rintro ⟨⟨q, hq, ⟨rfl, hrest⟩, hq'⟩, hne⟩
        exact Or.inr ⟨q, hq, hne, ⟨rfl, hrest⟩, hq'⟩
  · refine wellFormed_replaced hU (fun q hq => (hs.wellFormed q hq).setStatus) ?_
    exact ⟨(by intro h; cases h), (by intro h; cases h)⟩
  · refine (hs.grants id).trans (granted_replaced_congr hr hU rfl ?_ id).symm
    simp [Resolution.granted, hphase, Phase.afterGrant]
  · intro k hk hgranted
    rcases mem_setStatus_iff.mp hk with ⟨hk, -⟩ | ⟨k', hk', -, rfl⟩
    · exact hs.held k hk hgranted
    · exact hs.held k' hk' hgranted

end Steps

section Runs

variable {baseURL : String}
variable {s s' : State}

/-- A new resolution has done nothing yet. -/
theorem newResolution_phase
    (id : Nat) (admin : Option User) (requestID : Option Int)
    (body : Option ApiJoinRequestResolveRequest) :
    (newResolution id admin requestID body).phase = .lookup ∨
      ∃ e, (newResolution id admin requestID body).phase = .failed e := by
  unfold newResolution
  repeat' split
  all_goals
    first
      | exact Or.inl rfl
      | exact Or.inr ⟨_, rfl⟩

theorem Inv.resolve
    (hs : Inv s)
    {r : Resolution} {U : Table Resolution.id}
    (hinsert : s.resolutions.insert? r = some U)
    (hphase : r.phase = .lookup ∨ ∃ e, r.phase = .failed e) :
    Inv { s with resolutions := U } := by
  have hmem := fun q => Table.mem_insert?_iff (s := q) hinsert
  have hkeep : ∀ p : Resolution → Prop, ¬ p r →
      ((∃ q ∈ U, p q) ↔ ∃ q ∈ s.resolutions, p q) := by
    intro p hp
    constructor
    · rintro ⟨q, hq, hpq⟩
      rcases (hmem q).mp hq with hq | rfl
      · exact ⟨q, hq, hpq⟩
      · exact absurd hpq hp
    · rintro ⟨q, hq, hpq⟩
      exact ⟨q, (hmem q).mpr (Or.inl hq), hpq⟩
  have hidle : r.phase.knows = false ∧ r.phase.holds = false ∧
      r.phase.approves = false ∧ r.granted = false := by
    rcases hphase with hphase | ⟨e, hphase⟩
    · simp [Resolution.granted, hphase, Phase.knows, Phase.holds,
        Phase.approves, Phase.afterGrant]
    · simp [Resolution.granted, hphase, Phase.knows, Phase.holds,
        Phase.approves, Phase.afterGrant]
  obtain ⟨hknows, hholds, happroves, hgranted⟩ := hidle
  refine ⟨?_, fun q hq => ?_, fun id => ?_, hs.held⟩
  · refine hs.locked.congr (fun i id st => hkeep _ ?_)
    rw [hholds]
    exact fun h => Bool.false_ne_true h.2
  · rcases (hmem q).mp hq with hq | rfl
    · exact hs.wellFormed q hq
    · refine ⟨fun h => ?_, fun h => ?_⟩
      · rw [hknows] at h
        cases h
      · rw [happroves] at h
        cases h
  · refine (hs.grants id).trans (hkeep _ ?_).symm
    rw [hgranted]
    exact fun h => Bool.false_ne_true h.2

theorem Inv.create
    (hs : Inv s)
    {j : JoinRequest} {T : Table JoinRequest.id}
    (hinsert : s.joinRequests.insert? j = some T)
    (hpending : j.status = .pending) :
    Inv { s with joinRequests := T } := by
  have hmem := fun k => Table.mem_insert?_iff (s := k) hinsert
  refine ⟨hs.locked.insert hinsert hpending, fun q hq => ?_, hs.grants,
    fun k hk hgranted => ?_⟩
  · obtain ⟨hrequest, happrove⟩ := hs.wellFormed q hq
    refine ⟨fun hknows => ?_, happrove⟩
    obtain ⟨k, hk, hname⟩ := hrequest hknows
    exact ⟨k, (hmem k).mpr (Or.inl hk), hname⟩
  · rcases (hmem k).mp hk with hk | rfl
    · exact hs.held k hk hgranted
    · -- a request that was granted is not new
      obtain ⟨r, hr, hid, hr'⟩ := (hs.grants k.id).mp hgranted
      have hholds := ((hs.wellFormed r hr).holds_of_granted hr').1
      obtain ⟨i, hi, hkey, -⟩ := hs.locked.lasting r.id r.requestID r.status
        ⟨r, hr, ⟨rfl, rfl, rfl⟩, hholds⟩
      have hfresh := Table.find?_eq_none_iff.mp
        (Table.insert?_eq_some_iff.mp hinsert).1
      exact absurd (hkey.trans hid) (hfresh i hi)

theorem Inv.call
    (hs : Inv s)
    {id : Nat} {now : Int} {fails : Bool}
    (hguard : Guarded s (.call id now fails))
    (hstep : step baseURL s (.call id now fails) = some s') :
    Inv s' := by
  simp only [step] at hstep
  split at hstep
  case h_1 =>
    cases hstep
  case h_2 r hfind =>
    cases hstep
    obtain ⟨hr, rfl⟩ := Table.find?_eq_some_iff.mp hfind
    obtain ⟨hfree, hreverts⟩ := hguard r hr rfl
    have hU := fun q => Table.mem_modify_key_iff
      (f := fun q => (advance baseURL s now fails q).2) (s := q)
      (by intro q; split <;> simp [advance_id]) hr rfl
    have hmove : Move s fails r (advance baseURL s now fails r).1
        (advance baseURL s now fails r).2 := advance_move
    have hwf := hs.wellFormed r hr
    generalize Table.modify _ _ _ = U at hU ⊢
    generalize (advance baseURL s now fails r).2 = r' at hU hmove
    generalize (advance baseURL s now fails r).1 = s₁ at hmove ⊢
    cases hmove with
    | idle =>
        exact hs.quiet hr hU ⟨rfl, rfl, rfl⟩ rfl rfl hwf _
    | fail e hnot =>
        refine hs.quiet hr hU ⟨rfl, rfl, rfl⟩ hnot.symm ?_ ⟨(by intro h; cases h), (by intro h; cases h)⟩ _
        cases hgranted : r.granted with
        | false =>
            simp [Resolution.granted, Phase.afterGrant]
        | true =>
            rw [(hwf.holds_of_granted hgranted).1] at hnot
            cases hnot
    | read hphase hj hid hpending =>
        refine hs.quiet hr hU ⟨rfl, rfl, rfl⟩ (by rw [hphase]; rfl) ?_ ?_ _
        · simp [Resolution.granted, hphase, Phase.afterGrant]
        · exact ⟨fun _ => ⟨_, hj, hid, rfl, rfl⟩, (by intro h; cases h)⟩
    | update now hphase hfails =>
        exact hs.update hr hphase (hfree hphase hfails) hU now
    | grant hphase hallow =>
        exact hs.grant hr hphase hallow hU
    | reject e hphase =>
        refine hs.quiet hr hU ⟨rfl, rfl, rfl⟩ (by rw [hphase]; rfl) ?_ ?_ _
        · simp [Resolution.granted, hphase, Phase.afterGrant]
        · exact ⟨fun _ => hwf.request (by rw [hphase]; rfl),
            fun _ => hwf.approve (by rw [hphase]; rfl)⟩
    | revert e hphase =>
        exact hs.revert hr hphase hU
    | lose e hphase hfails =>
        exact absurd (hreverts (by rw [hphase]; rfl)) (by simp [hfails])
    | @finish subscriptions phase hafter hnext =>
        have hgranted : r.granted = true := by
          simp [Resolution.granted, hafter]
        obtain ⟨hholds, happrove⟩ := hwf.holds_of_granted hgranted
        have hphase : phase.holds = true := by
          rcases hnext with hnext | rfl
          · cases phase with
            | readUser => rfl
            | changeSettings userID prefs => rfl
            | _ => cases hnext
          · rfl
        refine hs.quiet hr hU ⟨rfl, rfl, rfl⟩ (hphase.trans hholds.symm) ?_ ?_ _
        · rw [hgranted]
          rcases hnext with hnext | rfl
          · simp [Resolution.granted, hnext]
          · simp [Resolution.granted, happrove]
        · exact ⟨fun _ => hwf.request (by simp [Phase.knows, hholds]),
            fun _ => happrove⟩

theorem Inv.step
    (hs : Inv s)
    {l : Label}
    (hguard : Guarded s l)
    (hstep : JoinRequests.step baseURL s l = some s') :
    Inv s' := by
  cases l with
  | create id username topic now =>
      simp only [JoinRequests.step] at hstep
      split at hstep
      case isTrue =>
        cases hstep
      case isFalse =>
        obtain ⟨T, hinsert, rfl⟩ := Option.map_eq_some_iff.mp hstep
        exact hs.create hinsert rfl
  | resolve id admin requestID body =>
      obtain ⟨U, hinsert, rfl⟩ := Option.map_eq_some_iff.mp hstep
      exact hs.resolve hinsert (newResolution_phase id admin requestID body)
  | call id now fails =>
      exact hs.call hguard hstep

theorem Inv.consistent
    (hs : Inv s) :
    Consistent s where
  once := by
    intro r hr r' hr' hdone hdone' hid
    have hholds : ∀ q ∈ s.resolutions, q.phase = .succeeded →
        Holds s.resolutions q.id q.requestID q.status :=
      fun q hq h => ⟨q, hq, ⟨rfl, rfl, rfl⟩, by rw [h]; rfl⟩
    exact Table.eq_of_key_eq hr hr'
      (hs.locked.unique _ _ _ _ _ (hholds r hr hdone) (hid ▸ hholds r' hr' hdone'))
  lasting := by
    intro r hr hdone
    exact hs.locked.lasting r.id r.requestID r.status
      ⟨r, hr, ⟨rfl, rfl, rfl⟩, by rw [hdone]; rfl⟩
  granted := by
    intro j hj hrest
    rw [hs.grants]
    constructor
    · rintro ⟨r, hr, hid, hgranted⟩
      obtain ⟨hholds, happrove⟩ := (hs.wellFormed r hr).holds_of_granted hgranted
      obtain ⟨k, hk, hkey, hstatus⟩ := hs.locked.lasting r.id r.requestID
        r.status ⟨r, hr, ⟨rfl, rfl, rfl⟩, hholds⟩
      rw [Table.eq_of_key_eq hj hk (hid.symm.trans hkey.symm), hstatus,
        Resolution.status, if_pos happrove]
    · intro hstatus
      obtain ⟨i, st, r, hr, ⟨-, hid, rfl⟩, hholds⟩ := hs.locked.settled j hj
        (by rw [hstatus]; decide)
      obtain ⟨k, hk, hkey, hset⟩ := hs.locked.lasting r.id r.requestID
        r.status ⟨r, hr, ⟨rfl, rfl, rfl⟩, hholds⟩
      have hsame : k = j := Table.eq_of_key_eq hk hj (hkey.trans hid)
      subst hsame
      have happrove : r.approve = true := by
        cases happrove : r.approve with
        | true => rfl
        | false => simp [Resolution.status, happrove, hstatus] at hset
      have hdone : r.phase = .succeeded := by
        have hfinished := hrest r hr hid
        cases hphase : r.phase with
        | succeeded =>
            rfl
        | failed e =>
            rw [hphase] at hholds
            cases hholds
        | _ =>
            rw [hphase] at hfinished
            cases hfinished
      exact ⟨r, hr, hid, by simp [Resolution.granted, happrove, hdone]⟩
  held := hs.held

theorem inv_initial
    (db : Database)
    (subscriptions : String → List Subscription) :
    Inv (initial db subscriptions) := by
  refine ⟨⟨?_, ?_, ?_⟩, ?_, fun id => ?_, ?_⟩
  · rintro i i' id st st' ⟨r, hr, -⟩
    cases hr
  · rintro i id st ⟨r, hr, -⟩
    cases hr
  · rintro j ⟨⟩
  · rintro r ⟨⟩
  · constructor
    · rintro ⟨⟩
    · rintro ⟨r, hr, -⟩
      cases hr
  · rintro j ⟨⟩

/--
Along every run in which each update finds the request still pending, and no status
is left that should have been set back, requests are resolved once and
consistently.
-/
theorem resolved_once
    (baseURL : String)
    (db : Database)
    (subscriptions : String → List Subscription)
    {ls : List Label} {s : State}
    (hguard : Along (step baseURL) Guarded (initial db subscriptions) ls)
    (hrun : run (step baseURL) (initial db subscriptions) ls = some s) :
    Consistent s := by
  have hs : Inv s := run_invariant_along
    (fun s l s' hs hguard hstep => hs.step hguard hstep)
    (inv_initial db subscriptions) hguard hrun
  exact hs.consistent

def exampleAdmin (name : String) : User :=
  ⟨"u_" ++ name, name, .admin, none, ⟨0, 0, 0⟩, false⟩

def exampleDatabase : Database where
  users :=
    { rows :=
        [⟨everyoneID, everyone, .anonymous, none, ⟨0, 0, 0⟩, false⟩,
          ⟨"u_phil", "phil", .user, none, ⟨0, 0, 0⟩, false⟩]
      nodup := by decide }
  names_nodup := by decide
  names_allowed := by decide
  everyone_row := by decide
  access := .empty
  topicMeta := .empty
  contacts := .empty
  profiles := .empty

/-- Two administrators look at one request; the first approves it, the second denies it. -/
def oppositeResolutions : List Label :=
  [.create 1 "phil" "news" 1,
    .resolve 1 (some (exampleAdmin "ann")) (some 1) (some ⟨"approved"⟩),
    .resolve 2 (some (exampleAdmin "ben")) (some 1) (some ⟨"denied"⟩),
    .call 1 2 false, .call 2 2 false, .call 1 3 false, .call 1 3 false,
    .call 1 3 false, .call 1 3 false, .call 2 4 false]

/-- One administrator approves the request, then another tries to deny it. -/
def oneResolution : List Label :=
  [.create 1 "phil" "news" 1,
    .resolve 1 (some (exampleAdmin "ann")) (some 1) (some ⟨"approved"⟩),
    .call 1 2 false, .call 1 3 false, .call 1 3 false, .call 1 3 false,
    .call 1 3 false,
    .resolve 2 (some (exampleAdmin "ben")) (some 1) (some ⟨"denied"⟩),
    .call 2 4 false]

theorem resolved_once_example :
    ∃ s, run (step "https://ntfy.sh") (initial exampleDatabase (fun _ => []))
        oneResolution = some s ∧
      Consistent s ∧
      ∃ j ∈ s.joinRequests, j.status = .approved ∧ j.id ∈ s.grants := by
  have hguard : Along (step "https://ntfy.sh") Guarded
      (initial exampleDatabase (fun _ => [])) oneResolution := by
    decide
  have hrun : (run (step "https://ntfy.sh")
      (initial exampleDatabase (fun _ => [])) oneResolution).map (fun s =>
        (s.joinRequests.rows.map
          (fun j => (j.status, decide (j.id ∈ s.grants))))) =
      some [(.approved, true)] := by
    decide
  obtain ⟨s, hs, hshow⟩ := Option.map_eq_some_iff.mp hrun
  obtain ⟨j, hj, hstatus⟩ := List.mem_map.mp
    (hshow ▸ List.mem_singleton.mpr rfl :
      (Status.approved, true) ∈ s.joinRequests.rows.map
        (fun j => (j.status, decide (j.id ∈ s.grants))))
  refine ⟨s, hs, resolved_once _ _ _ hguard hs, j, hj, ?_⟩
  exact ⟨(Prod.mk.inj hstatus).1, of_decide_eq_true (Prod.mk.inj hstatus).2⟩

/--
Both administrators pass the check; the request ends up denied, although it was
approved and granted.
-/
theorem opposite_resolutions_inconsistent :
    ∃ s, run (step "https://ntfy.sh") (initial exampleDatabase (fun _ => []))
        oppositeResolutions = some s ∧
      (∀ r ∈ s.resolutions, r.phase = .succeeded) ∧
      (∃ j ∈ s.joinRequests, j.status = .denied ∧ j.id ∈ s.grants) ∧
      ¬ Consistent s := by
  have hrun : (run (step "https://ntfy.sh")
      (initial exampleDatabase (fun _ => [])) oppositeResolutions).map (fun s =>
        (s.resolutions.rows.all (fun r => decide (r.phase = .succeeded)),
          s.joinRequests.rows.map
            (fun j => (j.status, decide (j.id ∈ s.grants))))) =
      some (true, [(.denied, true)]) := by
    decide
  obtain ⟨s, hs, hshow⟩ := Option.map_eq_some_iff.mp hrun
  obtain ⟨hall, hrequests⟩ := Prod.mk.inj hshow
  obtain ⟨j, hj, hstatus⟩ := List.mem_map.mp
    (hrequests ▸ List.mem_singleton.mpr rfl :
      (Status.denied, true) ∈ s.joinRequests.rows.map
        (fun j => (j.status, decide (j.id ∈ s.grants))))
  have hdone : ∀ r ∈ s.resolutions, r.phase = .succeeded := fun r hr =>
    of_decide_eq_true (List.all_eq_true.mp hall r hr)
  have hdenied : j.status = .denied := (Prod.mk.inj hstatus).1
  have hgranted : j.id ∈ s.grants := of_decide_eq_true (Prod.mk.inj hstatus).2
  refine ⟨s, hs, hdone, ⟨j, hj, hdenied, hgranted⟩, fun hconsistent => ?_⟩
  have hrest : ∀ r ∈ s.resolutions, r.requestID = j.id →
      r.phase.finished = true := by
    intro r hr _
    rw [hdone r hr]
    rfl
  rw [(hconsistent.granted j hj hrest).mp hgranted] at hdenied
  cases hdenied

end Runs

end JoinRequests
end Server
end CoopMessenger
