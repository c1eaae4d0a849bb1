import CoopMessenger.Manager.Ownership
import CoopMessenger.Server.Accounts
import CoopMessenger.Server.DirectMessages
import CoopMessenger.Server.Reserving

/-!
# Ownership of reserved topics

Everything that writes the access table, as one system: the operations of the
manager, redeemed and joined invites, and the database calls of group creations
and direct messages, in any interleaving.

**Results.**
* `keepsSafe_iff`: when one step keeps the two rows of every reservation together
  and takes no topic from somebody else.
* `ownership_kept_iff`: the same for every run.
-/

namespace CoopMessenger
namespace Server

open Library Manager Manager.Database

namespace Ownership

section Invites

/-- The token in `/v1/invite/{token}/join`. -/
def joinToken (path : String) : String :=
  String.ofList (Util.trimSuffix "/join".toList
    (Util.trimPrefix "/v1/invite/".toList path.toList))

/-- Adds the subscriptions that are missing. -/
def addMissing
    (conf : Accounts.Config)
    (prefs : List Accounts.Subscription)
    (topics : List String) : List Accounts.Subscription :=
  topics.foldl
    (fun subs topic =>
      if ⟨conf.baseURL, topic⟩ ∈ subs then
        subs
      else
        subs ++ [⟨conf.baseURL, topic⟩])
    prefs

/--
Lets a user join the topics of an invite; the settings are those that the
visitor has of the user.
-/
def handleInviteJoin
    (conf : Accounts.Config)
    (s : Accounts.State)
    (now : Int)
    (u : User)
    (prefs : List Accounts.Subscription)
    (path : String) : Accounts.Outcome (List String) :=
  if joinToken path = "" then
    (s, .error (.http errHTTPBadRequestInviteInvalid))
  else
    match Accounts.lookupInvite s now (joinToken path) with
    | .error e => (s, .error e)
    | .ok inv =>
        match Accounts.useInvite s (joinToken path) with
        | none => (s, .error (.http errHTTPBadRequestInviteMaxUsed))
        | some s' =>
            let topics := Accounts.inviteTopics inv.topics
            match Accounts.grantTopics s'.accounts u.name topics with
            | (accounts, .error e) => ({ s' with accounts }, .error e)
            | (accounts, .ok ()) =>
                ({ s' with
                  accounts
                  subscriptions :=
                    if topics.isEmpty then
                      s'.subscriptions
                    else
                      Function.update s'.subscriptions u.id
                        (addMissing conf prefs topics) },
                  .ok topics)

end Invites

section Model

/--
The accounts with the user database, the group creations, the other tables of
direct messages, and the requests for direct messages.
-/
structure State where
  accounts : Accounts.State
  creations : Table Groups.Creation.id
  texts : Table ProfileText.userId
  dms : Table DirectMessages.DMRow.topic
  chats : Table DirectMessages.Request.id

/-- The user database. -/
def State.db (s : State) : Database :=
  s.accounts.accounts.db

def State.setDb
    (s : State)
    (db : Database) : State :=
  { s with
    accounts :=
      { s.accounts with accounts := { s.accounts.accounts with db } } }

@[simp] theorem db_setDb
    (s : State)
    (db : Database) :
    (s.setDb db).db = db := by
  rfl

/-- A write that fails changes nothing. -/
def State.after
    (s : State) :
    Except Manager.Error Database → State
  | .error _ => s
  | .ok db => s.setDb db

/-- The group creations, with the database they work on. -/
def State.groups (s : State) : Groups.State :=
  ⟨s.db, s.creations⟩

/-- The requests for direct messages, with the tables they work on. -/
def State.messages (s : State) : DirectMessages.State :=
  ⟨⟨s.db, s.texts, s.dms⟩, s.chats⟩

inductive Label where
  | allowAccess
      (caller : User)
      (username topicPattern : String)
      (permission : Permission)
  | resetAccess (username topicPattern : String)
  | reserve (username topic : String) (perm : Permission)
  | removeReservations (username : String) (topics : List String)
  | changeRole (username : String) (role : Role)
  | removeUser (foreignKeys : Bool) (username : String)
  | redeem
      (now : Int)
      (rnd : Accounts.Random)
      (path : String)
      (body : Accounts.Body Accounts.ApiInviteRedeemRequest)
  | join
      (now : Int)
      (u : User)
      (prefs : List Accounts.Subscription)
      (path : String)
  | group (l : Groups.Label)
  | dm (l : DirectMessages.Label)

/-- One step; only admins grant access directly. -/
def step
    (b : Bcrypt)
    (conf : Accounts.Config)
    (s : State) : Label → Option State
  | .allowAccess caller username topicPattern permission =>
      if isAdmin (some caller) then
        some (s.after (s.db.allowAccess username topicPattern permission))
      else
        some s
  | .resetAccess username topicPattern =>
      some (s.after (s.db.resetAccess username topicPattern))
  | .reserve username topic perm =>
      match s.db.allowReservation username topic with
      | .error _ => some s
      | .ok () => some (s.after (s.db.addReservation username topic perm))
  | .removeReservations username topics =>
      some (s.after (s.db.removeReservations username topics))
  | .changeRole username role =>
      some (s.after (s.db.changeRole username role))
  | .removeUser foreignKeys username =>
      some (s.after (s.db.removeUser foreignKeys username))
  | .redeem now rnd path body =>
      some
        { s with
          accounts :=
            (Accounts.handleInviteRedeem b conf s.accounts now rnd path
              body).1 }
  | .join now u prefs path =>
      some
        { s with
          accounts :=
            (handleInviteJoin conf s.accounts now u prefs path).1 }
  | .group l =>
      (Groups.step s.groups l).map (fun g =>
        { s.setDb g.db with creations := g.creations })
  | .dm l =>
      (DirectMessages.step s.messages l).map (fun d =>
        { s.setDb d.store.db with
          texts := d.store.texts
          dms := d.store.dms
          chats := d.requests })

end Model

section Conditions

/-- Whom a group creation grants access next. -/
def groupGrant (c : Groups.Creation) : Option String :=
  match c.phase with
  | .grantCreator => some c.creator
  | .grantMember member _ => some member
  | _ => none

/-- Whom a request for a direct message grants access next, and to what. -/
def dmGrant
    (fails : DirectMessages.Call → Bool)
    (c : DirectMessages.Request) : Option (String × String) :=
  match c.phase with
  | .grantCreator _ topic =>
      if fails .allowCreator then none else some (c.user.name, topic)
  | .grantPartner username topic =>
      if fails .allowPartner then none else some (username, topic)
  | _ => none

/-- Who asks for this step. -/
def requester
    (s : State) :
    Label → Requester
  | .allowAccess caller _ _ _ => .ofUser caller
  | .join _ u _ _ => .ofUser u
  | .group (.call id _) =>
      (((s.creations.find? id).bind (fun c => s.db.user c.creator)).map
        Requester.ofUser).getD .anonymous
  | .dm (.call id _ _) =>
      ((s.chats.find? id).map
        (fun c => Requester.ofUser c.user)).getD .anonymous
  | _ => .anonymous

/-- A grant to this user is harmless, if it goes through. -/
def HarmlessGrant
    (r : Requester)
    (db : Database)
    (username topicPattern : String) : Prop :=
  ∀ id, db.userID username = some id →
    ∀ hp : allowedTopicPattern topicPattern = true,
      Harmless r db id (.ofPattern topicPattern hp)

/-- The stored patterns of the topics, up to the first that is not allowed. -/
def allowedPatterns :
    List String → List StoredPattern
  | [] => []
  | topic :: topics =>
      if h : allowedTopicPattern topic = true then
        .ofPattern topic h :: allowedPatterns topics
      else
        []

/-- The invite is redeemed for a new account. -/
structure Redeems
    (b : Bcrypt)
    (s : Accounts.State)
    (now : Int)
    (rnd : Accounts.Random)
    (path : String)
    (inv : Accounts.Invite)
    (req : Accounts.ApiInviteRedeemRequest) : Prop where
  token : Accounts.redeemToken path ≠ ""
  invite : Accounts.lookupInvite s now (Accounts.redeemToken path) = .ok inv
  password : req.password ≠ ""
  hash : ∃ hash, passColumn b rnd.salt req.password false = .ok hash
  free : Accounts.mayAdd s rnd req.username

/-- Every grant of the step that goes through is harmless. -/
def Guarded
    (b : Bcrypt)
    (s : State)
    (l : Label) : Prop :=
  match l with
  | .allowAccess caller username topicPattern _ =>
      isAdmin (some caller) = true →
        HarmlessGrant (requester s l) s.db username topicPattern
  | .redeem now rnd path (.json req) =>
      ∀ inv, Redeems b s.accounts now rnd path inv req →
        ∀ t ∈ allowedPatterns (Accounts.inviteTopics inv.topics),
          Harmless (requester s l) s.db rnd.id t
  | .join now u _ path =>
      joinToken path ≠ "" →
        ∀ inv, Accounts.lookupInvite s.accounts now (joinToken path) =
            .ok inv →
          ∀ id, s.db.userID u.name = some id →
            ∀ t ∈ allowedPatterns (Accounts.inviteTopics inv.topics),
              Harmless (requester s l) s.db id t
  | .group (.call id false) =>
      ∀ c ∈ s.creations, c.id = id → ∀ name ∈ groupGrant c,
        HarmlessGrant (requester s l) s.db name c.topic
  | .dm (.call id fails random) =>
      (DirectMessages.step s.messages (.call id fails random)).isSome →
        ∀ c ∈ s.chats, c.id = id → ∀ g ∈ dmGrant fails c,
          HarmlessGrant (requester s l) s.db g.1 g.2
  | _ => True

end Conditions

section Grants

variable {r : Requester}
variable {db db' : Database}

/-- The step has kept the pairs, and nobody has lost a topic to somebody else. -/
structure Safe
    (r : Requester)
    (db db' : Database) : Prop where
  owned : Owned db'
  keeps : KeepsOwners r db db'

theorem Safe.of_dropped
    (hdb : Owned db)
    (h : Dropped db db') :
    Safe r db db' :=
  ⟨h.owned hdb, h.keepsOwners⟩

theorem Safe.of_access_eq
    (hdb : Owned db)
    (h : db'.access = db.access) :
    Safe r db db' :=
  .of_dropped hdb (dropped_of_access_eq h)

theorem safe_iff_of_granted
    {id : String} {ts : List StoredPattern}
    (hdb : Owned db)
    (h : Granted db db' id ts) :
    Safe r db db' ↔ ∀ t ∈ ts, Harmless r db id t := by
  rw [← h.owned_iff hdb]
  exact ⟨fun hsafe => ⟨hsafe.owned, hsafe.keeps⟩,
    fun hsafe => ⟨hsafe.1, hsafe.2⟩⟩

/-- One grant that goes through. -/
theorem safe_allowAccess_iff
    {username topicPattern : String} {permission : Permission}
    (hdb : Owned db)
    (h : db.allowAccess username topicPattern permission = .ok db') :
    Safe r db db' ↔ HarmlessGrant r db username topicPattern := by
  obtain ⟨id, hp, hid, hgranted⟩ := granted_allowAccess h
  rw [safe_iff_of_granted hdb hgranted]
  constructor
  · intro hharmless id' hid' hp'
    obtain rfl := Option.some.inj (hid.symm.trans hid')
    exact hharmless _ (List.mem_singleton_self _)
  · intro hharmless t ht
    rw [List.mem_singleton] at ht
    subst ht
    exact hharmless id hid hp

/-- A grant to an existing user fails for the pattern only. -/
theorem not_allowedTopicPattern_of_error
    {username topicPattern id : String} {permission : Permission}
    {e : Manager.Error}
    (hid : db.userID username = some id)
    (h : db.allowAccess username topicPattern permission = .error e) :
    ¬ allowedTopicPattern topicPattern = true := by
  intro hp
  have hsome : (db.userID username).isSome := by
    rw [hid]
    rfl
  obtain ⟨db', hok⟩ :
      ∃ db', db.allowAccess username topicPattern permission = .ok db' :=
    allowAccess_isOk_iff.mpr ⟨hsome, hp⟩
  rw [h] at hok
  cases hok

/-- A grant that does not go through has no effect to guard against. -/
theorem harmlessGrant_of_error
    {username topicPattern : String} {permission : Permission}
    {e : Manager.Error}
    (h : db.allowAccess username topicPattern permission = .error e) :
    HarmlessGrant r db username topicPattern :=
  fun _ hid hp => absurd hp (not_allowedTopicPattern_of_error hid h)

/-- The topics of an invite, granted to one user. -/
theorem granted_grantTopics
    {username id : String}
    (a : Manager.Accounts)
    (hid : a.db.userID username = some id)
    (topics : List String) :
    Granted a.db (Accounts.grantTopics a username topics).1.db id
      (allowedPatterns topics) := by
  induction topics generalizing a with
  | nil =>
      exact Granted.nil a.db id
  | cons topic topics ih =>
      simp only [Accounts.grantTopics, allowedPatterns]
      cases hgrant : a.db.allowAccess username topic .readWrite with
      | error e =>
          rw [dif_neg (not_allowedTopicPattern_of_error hid hgrant)]
          simp only [Manager.Accounts.allowAccess, hgrant]
          exact Granted.nil a.db id
      | ok db' =>
          obtain ⟨id', hp, hid', hgranted⟩ := granted_allowAccess hgrant
          obtain rfl := Option.some.inj (hid.symm.trans hid')
          obtain ⟨_, _, _, husers, -⟩ := allowAccess_eq_ok hgrant
          rw [dif_pos hp]
          simp only [Manager.Accounts.allowAccess, hgrant]
          refine hgranted.append (ih { a with db := db' } ?_)
          rw [← hid]
          exact congrFun (userID_congr husers) username

end Grants

section Steps

variable {b : Bcrypt}
variable {conf : Accounts.Config}
variable {s s' : State}
variable {r : Requester}

/-- An operation that deletes, if it succeeds. -/
theorem safe_after_of_dropped
    {x : Except Manager.Error Database}
    (hs : Owned s.db)
    (h : ∀ db, x = .ok db → Dropped s.db db) :
    Safe r s.db (s.after x).db := by
  cases x with
  | error e =>
      exact .of_access_eq hs rfl
  | ok db =>
      exact .of_dropped hs (h db rfl)

/-- A single grant. -/
theorem safe_after_allowAccess_iff
    {username topicPattern : String} {permission : Permission}
    (hs : Owned s.db) :
    Safe r s.db
        (s.after (s.db.allowAccess username topicPattern permission)).db
      ↔
    HarmlessGrant r s.db username topicPattern := by
  cases h : s.db.allowAccess username topicPattern permission with
  | error e =>
      exact iff_of_true (.of_access_eq hs rfl) (harmlessGrant_of_error h)
  | ok db =>
      exact safe_allowAccess_iff hs h

/-- A reservation that is allowed. -/
theorem safe_after_addReservation
    {username topic : String} {perm : Permission}
    (hs : Owned s.db)
    (hallow : s.db.allowReservation username topic = .ok ()) :
    Safe r s.db (s.after (s.db.addReservation username topic perm)).db := by
  cases h : s.db.addReservation username topic perm with
  | error e =>
      exact .of_access_eq hs rfl
  | ok db =>
      obtain ⟨id, _, hid, -⟩ := mem_access_addReservation h
      have hfree := Reserving.freeOfOthers_of_allowReservation hid hallow
      refine ⟨⟨?_, paired_addReservation hs.paired h⟩,
        keepsOwners_addReservation h⟩
      exact (exclusive_addReservation_iff hs.exclusive h).mpr hfree

/-- An invite that was looked up can be used. -/
theorem exists_useInvite
    {a : Accounts.State} {now : Int} {token : String} {inv : Accounts.Invite}
    (h : Accounts.lookupInvite a now token = .ok inv) :
    ∃ a', Accounts.useInvite a token = some a' := by
  unfold Accounts.lookupInvite at h
  cases hfind : a.invites.find? token with
  | none =>
      simp [hfind] at h
  | some inv' =>
      obtain ⟨hmem, htoken⟩ := Table.find?_eq_some_iff.mp hfind
      have hleft : inv'.usedCount < inv'.maxUses := by
        simp only [hfind] at h
        split at h
        · cases h
        · split at h
          · cases h
          · omega
      unfold Accounts.useInvite
      rw [if_pos]
      · exact ⟨_, rfl⟩
      · rw [List.any_eq_true]
        exact ⟨inv', hmem, by simp [htoken, hleft]⟩

/-- What is left of a joined invite: the grants. -/
theorem accounts_handleInviteJoin
    {a : Accounts.State} {now : Int} {u : User}
    {prefs : List Accounts.Subscription} {path : String}
    {inv : Accounts.Invite}
    (htoken : joinToken path ≠ "")
    (hinv : Accounts.lookupInvite a now (joinToken path) = .ok inv) :
    (handleInviteJoin conf a now u prefs path).1.accounts =
      (Accounts.grantTopics a.accounts u.name
        (Accounts.inviteTopics inv.topics)).1 := by
  obtain ⟨a', huse⟩ := exists_useInvite hinv
  simp only [handleInviteJoin, htoken, if_false, hinv, huse,
    Accounts.accounts_useInvite huse]
  split
  case h_1 heq =>
    rw [heq]
  case h_2 heq =>
    rw [heq]

/-- Without a token or a valid invite nothing is granted. -/
theorem accounts_handleInviteJoin_of_refused
    {a : Accounts.State} {now : Int} {u : User}
    {prefs : List Accounts.Subscription} {path : String}
    (h : joinToken path ≠ "" →
      ∃ e, Accounts.lookupInvite a now (joinToken path) = .error e) :
    (handleInviteJoin conf a now u prefs path).1 = a := by
  unfold handleInviteJoin
  split
  · rfl
  · rename_i htoken
    obtain ⟨e, he⟩ := h htoken
    rw [he]

/-- A user who does not exist is granted nothing. -/
theorem grantTopics_of_unknown
    {username : String}
    (a : Manager.Accounts)
    (hid : a.db.userID username = none)
    (topics : List String) :
    (Accounts.grantTopics a username topics).1 = a := by
  cases topics with
  | nil =>
      rfl
  | cons topic topics =>
      cases hgrant : a.db.allowAccess username topic .readWrite with
      | error e =>
          simp [Accounts.grantTopics, Manager.Accounts.allowAccess, hgrant]
      | ok db' =>
          obtain ⟨id, -, hid', -⟩ := allowAccess_eq_ok hgrant
          rw [hid] at hid'
          cases hid'

/-- A joined invite. -/
theorem safe_join_iff
    {now : Int} {u : User} {prefs : List Accounts.Subscription}
    {path : String}
    (hs : Owned s.db) :
    Safe r s.db
        (handleInviteJoin conf s.accounts now u prefs path).1.accounts.db
      ↔
    (joinToken path ≠ "" →
      ∀ inv, Accounts.lookupInvite s.accounts now (joinToken path) = .ok inv →
        ∀ id, s.db.userID u.name = some id →
          ∀ t ∈ allowedPatterns (Accounts.inviteTopics inv.topics),
            Harmless r s.db id t) := by
  by_cases htoken : joinToken path = ""
  · rw [accounts_handleInviteJoin_of_refused
      (fun hne => absurd htoken hne)]
    exact iff_of_true (.of_access_eq hs rfl) (fun hne => absurd htoken hne)
  · cases hinv : Accounts.lookupInvite s.accounts now (joinToken path) with
    | error e =>
        rw [accounts_handleInviteJoin_of_refused (fun _ => ⟨e, hinv⟩)]
        exact iff_of_true (.of_access_eq hs rfl) (by simp)
    | ok inv =>
        rw [accounts_handleInviteJoin htoken hinv]
        cases hid : s.db.userID u.name with
        | none =>
            rw [grantTopics_of_unknown s.accounts.accounts hid]
            exact iff_of_true (.of_access_eq hs rfl) (by simp)
        | some id =>
            have hgranted := granted_grantTopics s.accounts.accounts hid
              (Accounts.inviteTopics inv.topics)
            refine (safe_iff_of_granted hs hgranted).trans ?_
            simp [htoken, State.db]

/-- A redeemed invite grants its topics to the new account. -/
theorem accounts_handleInviteRedeem
    {a : Accounts.State} {now : Int} {rnd : Accounts.Random} {path : String}
    {inv : Accounts.Invite} {req : Accounts.ApiInviteRedeemRequest}
    (h : Redeems b a now rnd path inv req) :
    ∃ a', Manager.Accounts.addUser b a.accounts rnd.salt rnd.id req.username
        req.password .user false = .ok a' ∧
      (Accounts.handleInviteRedeem b conf a now rnd path (.json req)).1.accounts =
        (Accounts.grantTopics a' req.username
          (Accounts.inviteTopics inv.topics)).1 := by
  obtain ⟨hash, hhash⟩ := h.hash
  have hrole : allowedRole .user = true := rfl
  obtain ⟨a', hadd⟩ :=
    Manager.Accounts.addUser_isOk h.free.1 hrole h.free.2 hhash
  obtain ⟨a₁, huse⟩ := exists_useInvite h.invite
  have hacc := Accounts.accounts_useInvite huse
  have hnone : (a₁.accounts.db.user req.username).isSome = false := by
    rw [hacc, h.free.2.1]
    rfl
  rw [← hacc] at hadd
  refine ⟨a', by rw [← hacc]; exact hadd, ?_⟩
  simp only [Accounts.handleInviteRedeem, h.token, if_false, h.invite,
    Accounts.readJSONWithLimit, h.free.1, h.password, Bool.not_true,
    decide_false, Bool.or_self, Bool.false_eq_true, huse,
    Accounts.createInvited, hnone, hadd]
  split
  case h_1 heq =>
    rw [heq]
  case h_2 heq =>
    rw [Accounts.accounts_addSubscriptions, heq]

/-- Otherwise there is no new account, and nothing is granted. -/
theorem accounts_handleInviteRedeem_of_refused
    {a : Accounts.State} {now : Int} {rnd : Accounts.Random} {path : String}
    {body : Accounts.Body Accounts.ApiInviteRedeemRequest}
    (h : ∀ inv req, body = .json req → ¬ Redeems b a now rnd path inv req) :
    (Accounts.handleInviteRedeem b conf a now rnd path body).1.accounts =
      a.accounts := by
  unfold Accounts.handleInviteRedeem
  split
  · rfl
  · rename_i htoken
    split
    · rfl
    · rename_i inv hinv
      cases body with
      | invalid =>
          rfl
      | tooLarge =>
          rfl
      | json req =>
          simp only [Accounts.readJSONWithLimit]
          split
          · rfl
          · rename_i hreq
            simp only [Bool.or_eq_true, decide_eq_true_eq, not_or] at hreq
            split
            · rfl
            · rename_i a₁ huse
              have hacc := Accounts.accounts_useInvite huse
              unfold Accounts.createInvited
              split
              · exact hacc
              · split
                · exact hacc
                · rename_i a' hadd
                  rw [hacc] at hadd
                  obtain ⟨hash, hhash, -⟩ := Manager.Accounts.addUser_eq_ok hadd
                  refine absurd ?_ (h inv req rfl)
                  exact ⟨htoken, hinv, hreq.2, ⟨hash, hhash⟩,
                    Accounts.mayAdd_of_addUser hadd⟩

/-- A redeemed invite. -/
theorem safe_redeem_iff
    {now : Int} {rnd : Accounts.Random} {path : String}
    {req : Accounts.ApiInviteRedeemRequest}
    (hs : Owned s.db) :
    Safe r s.db
        (Accounts.handleInviteRedeem b conf s.accounts now rnd path
          (.json req)).1.accounts.db
      ↔
    ∀ inv, Redeems b s.accounts now rnd path inv req →
      ∀ t ∈ allowedPatterns (Accounts.inviteTopics inv.topics),
        Harmless r s.db rnd.id t := by
  by_cases hredeems : ∃ inv, Redeems b s.accounts now rnd path inv req
  · obtain ⟨inv, hinv⟩ := hredeems
    have hunique : ∀ inv', Redeems b s.accounts now rnd path inv' req →
        inv' = inv :=
      fun inv' hinv' =>
        Except.ok.inj (hinv'.invite.symm.trans hinv.invite)
    obtain ⟨a', hadd, hresult⟩ := 
      @accounts_handleInviteRedeem b conf _ _ _ _ _ _ hinv
    obtain ⟨_, -, -, -, hid, -⟩ := Manager.Accounts.addUser_eq_ok hadd
    have hgranted := granted_grantTopics a' ((hid req.username).trans (if_pos rfl))
      (Accounts.inviteTopics inv.topics)
    rw [hresult]
    refine (safe_iff_of_granted hs
      (hgranted.of_access_eq (Manager.Accounts.access_addUser hadd))).trans ?_
    constructor
    · intro hall inv' hinv'
      rw [hunique inv' hinv']
      exact hall
    · exact fun hall => hall inv hinv
  · have hnone : ∀ inv req', (Accounts.Body.json req : Accounts.Body
        Accounts.ApiInviteRedeemRequest) = .json req' →
        ¬ Redeems b s.accounts now rnd path inv req' := by
      rintro inv req' ⟨⟩ hinv
      exact hredeems ⟨inv, hinv⟩
    rw [accounts_handleInviteRedeem_of_refused hnone]
    exact iff_of_true (.of_access_eq hs rfl)
      (fun inv hinv => absurd ⟨inv, hinv⟩ hredeems)

/-- A grant of a creation or of a request for a direct message. -/
theorem safe_grant_iff
    {db db' : Database} {fails : Bool} {username topic : String}
    (hdb : Owned db)
    (h : Groups.grant db fails username topic = .ok db') :
    fails = false ∧
      (Safe r db db' ↔ HarmlessGrant r db username topic) := by
  cases fails with
  | true =>
      simp [Groups.grant] at h
  | false =>
      simp only [Groups.grant, Bool.false_eq_true, if_false] at h
      exact ⟨rfl, safe_allowAccess_iff hdb h⟩

/-- A grant that the database or the manager refuses. -/
theorem harmlessGrant_of_grant_error
    {db : Database} {username topic : String} {e : Manager.Error}
    (h : Groups.grant db false username topic = .error e) :
    HarmlessGrant r db username topic := by
  simp only [Groups.grant, Bool.false_eq_true, if_false] at h
  exact harmlessGrant_of_error h

/-- The next database call of a group creation. -/
theorem safe_advance_group_iff
    {db : Database} {c : Groups.Creation} {fails : Bool}
    (hdb : Owned db) :
    Safe r db (Groups.advance db fails c).1
      ↔
    (fails = false → ∀ name ∈ groupGrant c,
      HarmlessGrant r db name c.topic) := by
  cases hphase : c.phase with
  | grantCreator =>
      simp only [Groups.advance, groupGrant, hphase, Option.mem_def,
        Option.some.injEq, forall_eq']
      cases h : Groups.grant db fails c.creator c.topic with
      | error e =>
          refine iff_of_true (.of_access_eq hdb rfl) ?_
          rintro rfl
          exact harmlessGrant_of_grant_error h
      | ok db' =>
          obtain ⟨rfl, hiff⟩ := safe_grant_iff (r := r) hdb h
          simpa using hiff
  | grantMember member rest =>
      simp only [Groups.advance, groupGrant, hphase, Option.mem_def,
        Option.some.injEq, forall_eq']
      cases h : Groups.grant db fails member c.topic with
      | error e =>
          refine iff_of_true (.of_access_eq hdb rfl) ?_
          rintro rfl
          exact harmlessGrant_of_grant_error h
      | ok db' =>
          obtain ⟨rfl, hiff⟩ := safe_grant_iff (r := r) hdb h
          simpa using hiff
  | check =>
      refine iff_of_true (.of_access_eq hdb ?_) (by simp [groupGrant, hphase])
      simp only [Groups.advance, hphase]
      split
      · rfl
      · split <;> rfl
  | verify member rest =>
      refine iff_of_true (.of_access_eq hdb ?_) (by simp [groupGrant, hphase])
      simp only [Groups.advance, hphase]
      split <;> rfl
  | setMeta =>
      refine iff_of_true (.of_access_eq hdb ?_) (by simp [groupGrant, hphase])
      simp only [Groups.advance, hphase]
      split <;> rfl
  | created =>
      refine iff_of_true (.of_access_eq hdb ?_) (by simp [groupGrant, hphase])
      simp only [Groups.advance, hphase]
  | failed e =>
      refine iff_of_true (.of_access_eq hdb ?_) (by simp [groupGrant, hphase])
      simp only [Groups.advance, hphase]

/-- The next database call of a request for a direct message. -/
theorem safe_advance_dm_iff
    (store : DirectMessages.Store)
    {c : DirectMessages.Request}
    {fails : DirectMessages.Call → Bool}
    {random : Option (Vector UInt8 16)}
    (hdb : Owned store.db) :
    Safe r store.db
        (DirectMessages.advance store fails random c.user c.body c.phase).1.db
      ↔
    ∀ g ∈ dmGrant fails c, HarmlessGrant r store.db g.1 g.2 := by
  cases hphase : c.phase with
  | grantCreator username topic =>
      simp only [DirectMessages.advance, DirectMessages.grantAccess]
      cases h : Groups.grant store.db (fails .allowCreator) c.user.name
          topic with
      | error e =>
          refine iff_of_true (.of_access_eq hdb rfl) ?_
          cases hfails : fails .allowCreator with
          | true =>
              simp [dmGrant, hphase, hfails]
          | false =>
              rw [hfails] at h
              simpa [dmGrant, hphase, hfails] using
                harmlessGrant_of_grant_error h
      | ok db' =>
          obtain ⟨hfails, hiff⟩ := safe_grant_iff (r := r) hdb h
          simpa [dmGrant, hphase, hfails] using hiff
  | grantPartner username topic =>
      simp only [DirectMessages.advance, DirectMessages.grantAccess]
      cases h : Groups.grant store.db (fails .allowPartner) username
          topic with
      | error e =>
          refine iff_of_true (.of_access_eq hdb rfl) ?_
          cases hfails : fails .allowPartner with
          | true =>
              simp [dmGrant, hphase, hfails]
          | false =>
              rw [hfails] at h
              simpa [dmGrant, hphase, hfails] using
                harmlessGrant_of_grant_error h
      | ok db' =>
          obtain ⟨hfails, hiff⟩ := safe_grant_iff (r := r) hdb h
          simpa [dmGrant, hphase, hfails] using hiff
  | insert username topic =>
      refine iff_of_true (.of_access_eq hdb ?_) (by simp [dmGrant, hphase])
      simp only [DirectMessages.advance]
      cases h : DirectMessages.setDMTopicMeta store (fails .setDMTopicMeta)
          topic c.user.name username with
      | error e =>
          rfl
      | ok s' =>
          unfold DirectMessages.setDMTopicMeta at h
          split at h
          · cases h
          · cases h
            rfl
  | check =>
      refine iff_of_true (.of_access_eq hdb ?_) (by simp [dmGrant, hphase])
      simp only [DirectMessages.advance]
      split <;> rfl
  | find username =>
      refine iff_of_true (.of_access_eq hdb ?_) (by simp [dmGrant, hphase])
      simp only [DirectMessages.advance]
      split
      · rfl
      · split
        · split <;> rfl
        · rfl
  | answer username topic =>
      exact iff_of_true (.of_access_eq hdb rfl) (by simp [dmGrant, hphase])
  | done username result =>
      exact iff_of_true (.of_access_eq hdb rfl) (by simp [dmGrant, hphase])
  | failed e =>
      exact iff_of_true (.of_access_eq hdb rfl) (by simp [dmGrant, hphase])

end Steps

section Runs

variable {b : Bcrypt}
variable {conf : Accounts.Config}
variable {s : State}

/-- What has to hold after a step. -/
def KeepsSafe
    (b : Bcrypt)
    (conf : Accounts.Config)
    (s : State)
    (l : Label) : Prop :=
  ∀ s', step b conf s l = some s' → Safe (requester s l) s.db s'.db

theorem keepsSafe_iff_of_eq_some
    {l : Label} {s' : State}
    (h : step b conf s l = some s') :
    KeepsSafe b conf s l ↔ Safe (requester s l) s.db s'.db := by
  constructor
  · exact fun hkeeps => hkeeps s' h
  · intro hsafe s₁ hstep
    rw [h] at hstep
    exact Option.some.inj hstep ▸ hsafe

/-- A database call of a group creation. -/
theorem keepsSafe_group_iff
    {id : Nat} {fails : Bool}
    (hs : Owned s.db) :
    KeepsSafe b conf s (.group (.call id fails))
      ↔
    (fails = false → ∀ c ∈ s.creations, c.id = id → ∀ name ∈ groupGrant c,
      HarmlessGrant (requester s (.group (.call id fails))) s.db name
        c.topic) := by
  cases hfind : s.creations.find? id with
  | none =>
      have hnone := Table.find?_eq_none_iff.mp hfind
      refine iff_of_true ?_ (fun _ c hc hid => absurd hid (hnone c hc))
      intro s' hstep
      simp [step, State.groups, Groups.step, hfind] at hstep
  | some c =>
      obtain ⟨hc, hid⟩ := Table.find?_eq_some_iff.mp hfind
      have hone : ∀ c' ∈ s.creations, c'.id = id → c' = c :=
        fun c' hc' hid' => Table.eq_of_key_eq hc' hc (hid'.trans hid.symm)
      by_cases hactive : c.phase = .check ∨ c.active = true
      · have hstep : ∃ s', step b conf s (.group (.call id fails)) = some s' ∧
            s'.db = (Groups.advance s.db fails c).1 := by
          simp only [step, State.groups, Groups.step, hfind, hactive, if_true,
            Option.map_some]
          exact ⟨_, rfl, rfl⟩
        obtain ⟨s', hstep, hdb⟩ := hstep
        rw [keepsSafe_iff_of_eq_some hstep, hdb, safe_advance_group_iff hs]
        constructor
        · intro hgrant hfails c' hc' hid'
          rw [hone c' hc' hid']
          exact hgrant hfails
        · exact fun hgrant hfails => hgrant hfails c hc hid
      · refine iff_of_true ?_ ?_
        · intro s' hstep
          simp [step, State.groups, Groups.step, hfind, hactive] at hstep
        · intro _ c' hc' hid' name hname
          rw [hone c' hc' hid'] at hname
          refine absurd ?_ hactive
          unfold groupGrant at hname
          split at hname
          case h_1 hphase =>
            exact Or.inr (by simp [Groups.Creation.active, hphase])
          case h_2 hphase =>
            exact Or.inr (by simp [Groups.Creation.active, hphase])
          case h_3 =>
            cases hname

/-- A database call of a request for a direct message. -/
theorem keepsSafe_dm_iff
    {id : Nat} {fails : DirectMessages.Call → Bool}
    {random : Option (Vector UInt8 16)}
    (hs : Owned s.db) :
    KeepsSafe b conf s (.dm (.call id fails random))
      ↔
    ((DirectMessages.step s.messages (.call id fails random)).isSome →
      ∀ c ∈ s.chats, c.id = id → ∀ g ∈ dmGrant fails c,
        HarmlessGrant (requester s (.dm (.call id fails random))) s.db g.1
          g.2) := by
  cases hstep : DirectMessages.step s.messages (.call id fails random) with
  | none =>
      refine iff_of_true ?_ (by simp)
      intro s' hnone
      simp [step, hstep] at hnone
  | some d =>
      obtain ⟨c, hc, hid, -, -, hstore, -⟩ := DirectMessages.step_call hstep
      have hone : ∀ c' ∈ s.chats, c'.id = id → c' = c :=
        fun c' hc' hid' => Table.eq_of_key_eq hc' hc (hid'.trans hid.symm)
      have hsome : ∃ s', step b conf s (.dm (.call id fails random)) =
          some s' ∧ s'.db = d.store.db := by
        simp only [step, hstep, Option.map_some]
        exact ⟨_, rfl, rfl⟩
      obtain ⟨s', hsome, hdb⟩ := hsome
      rw [keepsSafe_iff_of_eq_some hsome, hdb, hstore]
      refine (safe_advance_dm_iff s.messages.store hs).trans ?_
      constructor
      · intro hgrant _ c' hc' hid'
        rw [hone c' hc' hid']
        exact hgrant
      · exact fun hgrant => hgrant rfl c hc hid

theorem keepsSafe_redeem_iff
    {now : Int} {rnd : Accounts.Random} {path : String}
    {body : Accounts.Body Accounts.ApiInviteRedeemRequest}
    (hs : Owned s.db) :
    KeepsSafe b conf s (.redeem now rnd path body)
      ↔
    Guarded b s (.redeem now rnd path body) := by
  obtain ⟨s', hstep, hdb⟩ :
      ∃ s', step b conf s (.redeem now rnd path body) = some s' ∧
        s'.db = (Accounts.handleInviteRedeem b conf s.accounts now rnd path
          body).1.accounts.db := by
    simp only [step, Option.some.injEq, exists_eq_left', State.db]
  rw [keepsSafe_iff_of_eq_some hstep, hdb]
  cases body with
  | invalid =>
      rw [accounts_handleInviteRedeem_of_refused (by simp)]
      exact iff_of_true (.of_access_eq hs rfl) trivial
  | tooLarge =>
      rw [accounts_handleInviteRedeem_of_refused (by simp)]
      exact iff_of_true (.of_access_eq hs rfl) trivial
  | json req =>
      rw [safe_redeem_iff hs]
      exact Iff.rfl

theorem keepsSafe_join_iff
    {now : Int} {u : User} {prefs : List Accounts.Subscription}
    {path : String}
    (hs : Owned s.db) :
    KeepsSafe b conf s (.join now u prefs path)
      ↔
    Guarded b s (.join now u prefs path) := by
  obtain ⟨s', hstep, hdb⟩ :
      ∃ s', step b conf s (.join now u prefs path) = some s' ∧
        s'.db = (handleInviteJoin conf s.accounts now u prefs
          path).1.accounts.db := by
    simp only [step, Option.some.injEq, exists_eq_left', State.db]
  rw [keepsSafe_iff_of_eq_some hstep, hdb, safe_join_iff hs]
  exact Iff.rfl

/-- One step. -/
theorem keepsSafe_iff
    (hs : Owned s.db)
    (l : Label) :
    KeepsSafe b conf s l ↔ Guarded b s l := by
  cases l with
  | allowAccess caller username topicPattern permission =>
      cases hadmin : isAdmin (some caller) with
      | false =>
          have hstep : step b conf s (.allowAccess caller username
              topicPattern permission) = some s := by
            simp [step, hadmin]
          rw [keepsSafe_iff_of_eq_some hstep]
          exact iff_of_true (.of_access_eq hs rfl) (by simp [Guarded, hadmin])
      | true =>
          have hstep : step b conf s (.allowAccess caller username
              topicPattern permission) = some (s.after
                (s.db.allowAccess username topicPattern permission)) := by
            simp [step, hadmin]
          rw [keepsSafe_iff_of_eq_some hstep, safe_after_allowAccess_iff hs]
          simp [Guarded, hadmin]
  | resetAccess username topicPattern =>
      rw [keepsSafe_iff_of_eq_some rfl]
      exact iff_of_true
        (safe_after_of_dropped hs (fun db h => dropped_resetAccess h)) trivial
  | reserve username topic perm =>
      refine iff_of_true ?_ trivial
      intro s' hstep
      simp only [step] at hstep
      split at hstep
      case h_1 =>
        cases hstep
        exact .of_access_eq hs rfl
      case h_2 hallow =>
        cases hstep
        exact safe_after_addReservation hs hallow
  | removeReservations username topics =>
      rw [keepsSafe_iff_of_eq_some rfl]
      exact iff_of_true
        (safe_after_of_dropped hs (fun db h => dropped_removeReservations h))
        trivial
  | changeRole username role =>
      rw [keepsSafe_iff_of_eq_some rfl]
      exact iff_of_true
        (safe_after_of_dropped hs (fun db h => dropped_changeRole h)) trivial
  | removeUser foreignKeys username =>
      rw [keepsSafe_iff_of_eq_some rfl]
      exact iff_of_true
        (safe_after_of_dropped hs (fun db h => dropped_removeUser h)) trivial
  | redeem now rnd path body =>
      exact keepsSafe_redeem_iff hs
  | join now u prefs path =>
      exact keepsSafe_join_iff hs
  | group l =>
      cases l with
      | start id creator body =>
          refine iff_of_true ?_ trivial
          intro s' hstep
          simp only [step, Groups.step, Option.map_map,
            Option.map_eq_some_iff] at hstep
          obtain ⟨creations, -, rfl⟩ := hstep
          exact .of_access_eq hs rfl
      | call id fails =>
          rw [keepsSafe_group_iff hs]
          cases fails <;> simp [Guarded]
  | dm l =>
      cases l with
      | start id username body =>
          refine iff_of_true ?_ trivial
          intro s' hstep
          obtain ⟨d, hd, rfl⟩ := Option.map_eq_some_iff.mp hstep
          simp only [DirectMessages.step] at hd
          split at hd
          · cases hd
          · obtain ⟨requests, -, rfl⟩ := Option.map_eq_some_iff.mp hd
            exact .of_access_eq hs rfl
      | call id fails random =>
          exact keepsSafe_dm_iff hs

/--
In every state of a run the reservations are pairs with one owner, and no step
takes a topic from somebody else, exactly when every grant of the run is
harmless.
-/
theorem ownership_kept_iff
    {ls : List Label}
    (hs : Owned s.db) :
    Along (step b conf) (KeepsSafe b conf) s ls
      ↔
    Along (step b conf) (Guarded b) s ls := by
  have hiff : ∀ (s : State) (l : Label), Owned s.db →
      (KeepsSafe b conf s l ↔ Guarded b s l) :=
    fun s l hs => keepsSafe_iff hs l
  exact Along.congr_of_invariant hiff
    (fun s l s' _ hkeeps hstep => (hkeeps s' hstep).owned) hs

/-- Alice and bob, without access entries. -/
def exampleState : State where
  accounts :=
    { accounts :=
        { db := twoUsers .empty
          pass := fun _ => ""
          deleted := fun _ => false
          tiers := .empty }
      invites := .empty
      subscriptions := fun _ => [] }
  creations := .empty
  texts := .empty
  dms := .empty
  chats := .empty

theorem owned_exampleState :
    Owned exampleState.db := by
  constructor
  · exact fun a ha => absurd ha (Table.not_mem_empty a)
  · exact fun e he => absurd he (Table.not_mem_empty e)

def exampleAdmin : User :=
  ⟨"u_r", "root", .admin, none, ⟨0, 0, 0⟩, false⟩

/-- Alice reserves a topic and gives it up, while bob gets access to another one. -/
theorem reservation_kept :
    Along (step Accounts.exampleBcrypt Accounts.exampleConfig)
      (KeepsSafe Accounts.exampleBcrypt Accounts.exampleConfig) exampleState
      [.allowAccess exampleAdmin "bob" "news" .read,
        .reserve "alice" "mytopic" .denyAll,
        .removeReservations "alice" ["mytopic"]] := by
  refine (ownership_kept_iff owned_exampleState).mpr
    ⟨?_, fun _ _ => ⟨trivial, fun _ _ => ⟨trivial, fun _ _ => trivial⟩⟩⟩
  intro _ id _ hp a ha
  exact absurd ha (Table.not_mem_empty a)

/-- Alice reserves a topic, and an admin restricts her own access to it. -/
def exampleOverwrite : List Label :=
  [.reserve "alice" "mytopic" .denyAll,
    .allowAccess exampleAdmin "alice" "mytopic" .read]

/-- Bob reserves the topic of the group that alice is about to create with him. -/
def exampleGroup : List Label :=
  .reserve "bob" "grp_friends" .denyAll ::
    .group (.start 1 "alice" (some ⟨"Friends", ["bob"]⟩)) ::
      List.replicate 3 (.group (.call 1 false))

/-- The stored forms of topics with the users and owners of their entries. -/
def owners (s : State) : List (String × String × Option String) :=
  s.db.access.rows.map (fun a => (a.userId, a.topic.1, a.ownerUserId))

/-- Without an owner's own entry for the entry of `everyone` a pair is torn. -/
theorem not_paired_of_owners
    {s : State} {x t : String}
    (he : (everyoneID, t, some x) ∈ owners s)
    (hx : (x, t, some x) ∉ owners s) :
    ¬ Paired s.db := by
  intro hpaired
  obtain ⟨e, he, heq⟩ := List.mem_map.mp he
  obtain ⟨hev, htopic, hown⟩ : e.userId = everyoneID ∧ e.topic.1 = t ∧
      e.ownerUserId = some x := by simpa using heq
  obtain ⟨a, ha, hax, hat, haown⟩ := hpaired e he hev x hown
  refine hx (List.mem_map.mpr ⟨a, ha, ?_⟩)
  simp [hax, hat, haown, htopic]

/-- An entry that had an owner and has none takes the topic from the owner. -/
theorem not_keepsOwners_of_owners
    {s s' : State} {r : Requester} {u t x : String}
    (hbefore : (u, t, some x) ∈ owners s)
    (hafter : (u, t, none) ∈ owners s')
    (hr : ¬ r.owns x) :
    ¬ KeepsOwners r s.db s'.db := by
  intro hkeeps
  obtain ⟨a, ha, heq⟩ := List.mem_map.mp hbefore
  obtain ⟨hau, hat, haown⟩ : a.userId = u ∧ a.topic.1 = t ∧
      a.ownerUserId = some x := by simpa using heq
  obtain ⟨b, hb, heq⟩ := List.mem_map.mp hafter
  obtain ⟨hbu, hbt, hbown⟩ : b.userId = u ∧ b.topic.1 = t ∧
      b.ownerUserId = none := by simpa using heq
  have hkey : b.key = a.key :=
    Prod.ext (hbu.trans hau.symm) (Subtype.ext (hbt.trans hat.symm))
  exact hr (hkeeps a ha x haown b hb hkey hbown)

/--
The admin leaves an entry of `everyone` whose owner holds nothing, and the group
of alice takes the topic from bob.
-/
theorem reservation_torn :
    (∃ s, run (step Accounts.exampleBcrypt Accounts.exampleConfig) exampleState
        exampleOverwrite = some s ∧
      owners s = [("u_a", "mytopic", none), (everyoneID, "mytopic", some "u_a")] ∧
      ¬ Owned s.db) ∧
    ∃ s s', run (step Accounts.exampleBcrypt Accounts.exampleConfig)
        exampleState exampleGroup = some s ∧
      step Accounts.exampleBcrypt Accounts.exampleConfig s
        (.group (.call 1 false)) = some s' ∧
      requester s (.group (.call 1 false)) = .user "u_a" ∧
      ("u_b", "grp\\_friends", some "u_b") ∈ owners s ∧
      ("u_b", "grp\\_friends", none) ∈ owners s' ∧
      ¬ KeepsOwners (.user "u_a") s.db s'.db := by
  constructor
  · have hrun : (run (step Accounts.exampleBcrypt Accounts.exampleConfig)
        exampleState exampleOverwrite).map owners =
          some [("u_a", "mytopic", none),
            (everyoneID, "mytopic", some "u_a")] := by decide
    obtain ⟨s, hs, howners⟩ := Option.map_eq_some_iff.mp hrun
    refine ⟨s, hs, howners, fun howned => ?_⟩
    have he : (everyoneID, "mytopic", some "u_a") ∈ owners s := by
      simp [howners]
    refine not_paired_of_owners he ?_ howned.paired
    have hne : "u_a" ≠ everyoneID := by decide
    simp [howners, hne]
  · have hrun : (run (step Accounts.exampleBcrypt Accounts.exampleConfig)
        exampleState exampleGroup).map (fun s =>
          (requester s (.group (.call 1 false)), owners s)) =
        some (.user "u_a",
          [("u_b", "grp\\_friends", some "u_b"),
            (everyoneID, "grp\\_friends", some "u_b"),
            ("u_a", "grp\\_friends", none)]) := by decide
    have hnext : ((run (step Accounts.exampleBcrypt Accounts.exampleConfig)
        exampleState exampleGroup).bind (fun s =>
          step Accounts.exampleBcrypt Accounts.exampleConfig s
            (.group (.call 1 false)))).map owners =
        some
          [("u_b", "grp\\_friends", none),
            (everyoneID, "grp\\_friends", some "u_b"),
            ("u_a", "grp\\_friends", none)] := by decide
    obtain ⟨s, hs, hbefore⟩ := Option.map_eq_some_iff.mp hrun
    obtain ⟨hreq, hbefore⟩ := Prod.mk.inj hbefore
    rw [hs, Option.bind_some] at hnext
    obtain ⟨s', hs', hafter⟩ := Option.map_eq_some_iff.mp hnext
    have hmem : ("u_b", "grp\\_friends", some "u_b") ∈ owners s := by
      simp [hbefore]
    have hmem' : ("u_b", "grp\\_friends", none) ∈ owners s' := by
      simp [hafter]
    refine ⟨s, s', hs, hs', hreq, hmem, hmem', ?_⟩
    exact not_keepsOwners_of_owners hmem hmem' (by simp [Requester.owns])

end Runs

end Ownership

end Server
end CoopMessenger
