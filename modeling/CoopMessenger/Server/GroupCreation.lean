import CoopMessenger.Server.Groups
import CoopMessenger.Server.JoinRequests

/-!
# Failing group creations

`handleGroupCreate` from its request to its answer, with the call that fails, if any.  The
topic is `grp_` and up to 64 characters of the name, but no access entry is accepted for
more than 64 characters; and access is granted before the metadata is written, each in a
transaction of its own.

**Results.**
* `allowed_groupTopic_iff`: which names give a topic.
* `complete_of_early`, `complete_of_late`: what a creation leaves behind.
* `sound_iff`: when a creation is total and atomic.
-/

namespace CoopMessenger
namespace Server

open Library Manager Manager.Database Util

namespace GroupCreation

open Groups
open JoinRequests (Subscription)

section Model

/-- The database calls of a request; those for a member by how many members are left. -/
inductive Call where
  | check
  | grantCreator
  | verify (left : Nat)
  | grantMember (left : Nat)
  | setMeta
  | readUser (left : Nat)
  | changeSettings (left : Nat)
deriving DecidableEq, Repr

/-- The call that is next in a phase. -/
def nextCall : Phase → Call
  | .check => .check
  | .grantCreator => .grantCreator
  | .verify _ rest => .verify rest.length
  | .grantMember _ rest => .grantMember rest.length
  | .setMeta | .created | .failed _ => .setMeta

/-- At most this many calls are left. -/
def callsLeft (c : Creation) : Nat :=
  match c.phase with
  | .check => 2 * c.members.length + 3
  | .grantCreator => 2 * c.members.length + 2
  | .verify _ rest => 2 * rest.length + 3
  | .grantMember _ rest => 2 * rest.length + 2
  | .setMeta => 1
  | .created | .failed _ => 0

/-- Makes the next calls, or fewer if there are not so many. -/
def runCalls
    (fails : Call → Bool) :
    Nat → Database → Creation → Database × Creation
  | 0, db, c => (db, c)
  | n + 1, db, c =>
      runCalls fails n (advance db (fails (nextCall c.phase)) c).1
        (advance db (fails (nextCall c.phase)) c).2

/-- The user database with the subscriptions by user ID. -/
structure State where
  db : Database
  subscriptions : String → List Subscription

/-- `addSubscriptionsForUser`, whose errors are only logged. -/
def addSubscriptionsForUser
    (baseURL : String)
    (fails : Call → Bool)
    (s : State)
    (left : Nat)
    (username topic : String) : State :=
  match s.db.user username, fails (.readUser left) with
  | some u, false =>
      if ⟨baseURL, topic⟩ ∈ s.subscriptions u.id ∨ fails (.changeSettings left) then
        s
      else
        { s with
          subscriptions :=
            Function.update s.subscriptions u.id
              (s.subscriptions u.id ++ [⟨baseURL, topic⟩]) }
  | _, _ => s

/-- The subscriptions of the members. -/
def subscribeMembers
    (baseURL : String)
    (fails : Call → Bool)
    (creator topic : String) :
    State → List String → State
  | s, [] => s
  | s, member :: rest =>
      if member = creator then
        subscribeMembers baseURL fails creator topic s rest
      else
        subscribeMembers baseURL fails creator topic
          (addSubscriptionsForUser baseURL fails s rest.length member topic) rest

/-- The calls of a creation, and after the last one the subscriptions. -/
def complete
    (baseURL : String)
    (fails : Call → Bool)
    (s : State)
    (c : Creation) : State × Except HandlerError String :=
  let r := runCalls fails (callsLeft c) s.db c
  match r.2.phase with
  | .failed e => ({ s with db := r.1 }, .error e)
  | _ =>
      let s' := addSubscriptionsForUser baseURL fails { s with db := r.1 }
        c.members.length c.creator c.topic
      (subscribeMembers baseURL fails c.creator c.topic s' c.members, .ok c.topic)

def handleGroupCreate
    (baseURL : String)
    (fails : Call → Bool)
    (s : State)
    (creator : String)
    (body : Option CreateRequest) : State × Except HandlerError String :=
  complete baseURL fails s (newCreation 0 creator body)

end Model

section Spec

/-- An entry as it is granted for the topic. -/
structure Granted
    (topic : String)
    (a : AccessRow) : Prop where
  topic : a.topic.visible = topic
  read : a.read = true
  write : a.write = true
  owner : a.ownerUserId = none
  provisioned : a.provisioned = false

/-- There is metadata, an access entry or a subscription for the topic. -/
def InUse
    (s : State)
    (topic : String) : Prop :=
  (s.db.meta? topic).isSome ∨ (∃ a ∈ s.db.access, a.topic.visible = topic) ∨
    ∃ id, ∃ sub ∈ s.subscriptions id, sub.topic = topic

/-- What was added for the topic was there before. -/
def NothingAdded
    (topic : String)
    (s s' : State) : Prop :=
  (∀ a ∈ s'.db.access, a.topic.visible = topic → a ∈ s.db.access) ∧
    ((s'.db.meta? topic).isSome → (s.db.meta? topic).isSome) ∧
    ∀ id, ∀ sub ∈ s'.subscriptions id, sub.topic = topic → sub ∈ s.subscriptions id

/-- The creator and the members that exist may read and write. -/
def AllGranted
    (db : Database)
    (creator topic : String)
    (members : List String) : Prop :=
  ∀ username ∈ creator :: members, ∀ id, db.userID username = some id →
    ∃ a ∈ db.access, a.userId = id ∧ Granted topic a

/--
In a working database the creation of a group whose topic is free goes through, and a
creation that fails adds nothing.
-/
def Sound
    (baseURL : String)
    (failing : Option Call)
    (s : State)
    (creator : String)
    (body : Option CreateRequest) : Prop :=
  let c := newCreation 0 creator body
  let r := handleGroupCreate baseURL (fun call => decide (failing = some call)) s creator body
  (failing = none → c.phase = .check → ¬ InUse s c.topic →
    allowedTopic c.topic = true ∧ r.2 = .ok c.topic ∧
      AllGranted r.1.db creator c.topic c.members) ∧
    ∀ e, r.2 = .error e → NothingAdded c.topic s r.1

end Spec

section Names

/-- The topic is valid when the name leaves at most 60 characters. -/
theorem allowed_groupTopic_iff
    (name : String) :
    (allowedTopic (groupTopic name) = true ↔ (topicSlug name).toList.length ≤ 60) ∧
      (allowedTopicPattern (groupTopic name) = true ↔
        (topicSlug name).toList.length ≤ 60) := by
  have hchars : ∀ c ∈ (topicSlug name).toList, topicChar c = true := by
    intro c hc
    simp only [topicSlug, String.toList_ofList] at hc
    exact List.of_mem_filter (List.mem_of_mem_take hc)
  have hprefix : "grp_".toList = ['g', 'r', 'p', '_'] := by decide
  have hlist : (groupTopic name).toList = ['g', 'r', 'p', '_'] ++ (topicSlug name).toList := by
    rw [groupTopic, String.toList_append, hprefix]
  have hall : (groupTopic name).toList.all topicChar = true := by
    rw [hlist, List.all_append, Bool.and_eq_true]
    exact ⟨by decide, List.all_eq_true.mpr hchars⟩
  have hall' : (groupTopic name).toList.all (fun c => topicChar c || c == '*') = true :=
    List.all_eq_true.mpr fun c hc => by
      rw [List.all_eq_true.mp hall c hc, Bool.true_or]
  have hlength : (groupTopic name).toList.length = (topicSlug name).toList.length + 4 := by
    rw [hlist, List.length_append]
    exact Nat.add_comm _ _
  constructor
  · simp only [allowedTopic, hall, hlength, Bool.and_true, Bool.and_eq_true, decide_eq_true_eq]
    omega
  · simp only [allowedTopicPattern, hall', hlength, Bool.and_true, Bool.and_eq_true,
      decide_eq_true_eq]
    omega

end Names

section Grants

variable {fails : Call → Bool} {db db' : Database} {creator topic : String} {a : AccessRow}

/-- The grants to the members, one after another. -/
def grantMembers
    (fails : Call → Bool)
    (creator topic : String) :
    Database → List String → Database
  | db, [] => db
  | db, member :: rest =>
      if member = creator ∨ fails (.verify rest.length) ∨ (db.user member).isNone then
        grantMembers fails creator topic db rest
      else
        match grant db (fails (.grantMember rest.length)) member topic with
        | .error _ => grantMembers fails creator topic db rest
        | .ok db' => grantMembers fails creator topic db' rest

/-- The users with these IDs were granted access to the topic, and nothing else was done. -/
structure GrantsTo
    (topic : String)
    (ids : String → Prop)
    (db db' : Database) : Prop where
  users : db'.users = db.users
  topicMeta : db'.topicMeta = db.topicMeta
  access : ∀ a, a ∈ db'.access ↔
    (ids a.userId ∧ Granted topic a) ∨
      (a ∈ db.access ∧ ¬ (ids a.userId ∧ a.topic.visible = topic))

theorem GrantsTo.refl
    (topic : String) (db : Database) :
    GrantsTo topic (fun _ => False) db db :=
  ⟨rfl, rfl, fun a => by simp⟩

theorem GrantsTo.trans
    {ids ids' : String → Prop} {db'' : Database}
    (h : GrantsTo topic ids db db')
    (h' : GrantsTo topic ids' db' db'') :
    GrantsTo topic (fun id => ids id ∨ ids' id) db db'' := by
  refine ⟨h'.users.trans h.users, h'.topicMeta.trans h.topicMeta, fun a => ?_⟩
  have htopic : Granted topic a → a.topic.visible = topic := Granted.topic
  rw [h'.access, h.access]
  by_cases hnew : ids' a.userId ∧ a.topic.visible = topic
  · -- written by the later grants, if at all
    simp only [hnew.1, hnew.2, or_true, true_and, not_true_eq_false, and_false, or_false]
  · have hgranted : ¬ (ids' a.userId ∧ Granted topic a) :=
      fun h => hnew ⟨h.1, htopic h.2⟩
    simp only [hgranted, hnew, false_or, or_false, not_false_eq_true, and_true, or_and_right]

theorem GrantsTo.congr
    {ids ids' : String → Prop}
    (h : GrantsTo topic ids db db')
    (hids : ∀ id, ids id ↔ ids' id) :
    GrantsTo topic ids' db db' := by
  rwa [← funext fun id => propext (hids id)]

/-- A grant that goes through writes one entry. -/
theorem grantsTo_grant
    {username : String}
    (h : grant db false username topic = .ok db') :
    GrantsTo topic (fun id => db.userID username = some id) db db' := by
  obtain ⟨id, hp, hid, husers, hmeta, haccess⟩ := allowAccess_eq_ok h
  refine ⟨husers, hmeta, fun a => ?_⟩
  have hvisible : ∀ p : StoredPattern, p = .ofPattern topic hp ↔ p.visible = topic := by
    intro p
    constructor
    · rintro rfl
      exact StoredPattern.visible_ofPattern hp
    · rintro rfl
      exact (StoredPattern.ofPattern_visible p).symm
  have howner : db.userID username = some a.userId ↔ a.userId = id := by
    rw [hid, Option.some.injEq, eq_comm]
  have hkey : a.key ≠ (id, .ofPattern topic hp) ↔
      ¬ (a.userId = id ∧ a.topic.visible = topic) := by
    rw [AccessRow.key, ne_eq, Prod.mk.injEq, hvisible]
  rw [haccess, hkey, howner]
  refine or_congr_left ⟨?_, ?_⟩
  · rintro rfl
    exact ⟨rfl, StoredPattern.visible_ofPattern hp, rfl, rfl, rfl, rfl⟩
  · rintro ⟨rfl, htopic, hread, hwrite, howner, hprovisioned⟩
    rcases a with ⟨userId, p, read, write, owner, provisioned⟩
    simp only at htopic hread hwrite howner hprovisioned
    rw [(hvisible p).mpr htopic, hread, hwrite, howner, hprovisioned]
    rfl

/-- Who exists is granted access to a valid topic. -/
theorem grant_isOk
    {username : String}
    (hname : allowedTopicPattern topic = true)
    (hid : (db.userID username).isSome) :
    ∃ db', grant db false username topic = .ok db' :=
  allowAccess_isOk_iff.mpr ⟨hid, hname⟩

/-- The members are granted access when none of their calls fails. -/
theorem grantsTo_grantMembers
    (hname : allowedTopicPattern topic = true)
    (hfails : ∀ left, fails (.verify left) = false ∧ fails (.grantMember left) = false)
    (db : Database) (members : List String) :
    GrantsTo topic
      (fun id => ∃ member ∈ members, member ≠ creator ∧ db.userID member = some id) db
      (grantMembers fails creator topic db members) := by
  induction members generalizing db with
  | nil =>
      exact (GrantsTo.refl topic db).congr fun id => by simp
  | cons member rest ih =>
      unfold grantMembers
      rw [(hfails rest.length).1, (hfails rest.length).2]
      split
      case isTrue hskip =>
        refine (ih db).congr fun id => ?_
        have hnone : member = creator ∨ db.userID member = none := by
          rcases hskip with hcreator | hfalse | hmissing
          · exact Or.inl hcreator
          · cases hfalse
          · exact Or.inr (by rw [userID, Option.isNone_iff_eq_none.mp hmissing]; rfl)
        rw [List.exists_mem_cons_iff]
        rcases hnone with rfl | hnone
        · simp
        · simp [hnone]
      case isFalse hgo =>
        simp only [not_or] at hgo
        have hsome : (db.userID member).isSome := by
          rw [userID, Option.isSome_map]
          exact Option.ne_none_iff_isSome.mp (by simpa using hgo.2.2)
        obtain ⟨db', hgrant⟩ := grant_isOk hname hsome
        rw [hgrant]
        have hfirst := grantsTo_grant hgrant
        refine (hfirst.trans (ih db')).congr fun id => ?_
        rw [List.exists_mem_cons_iff, userID_congr hfirst.users]
        simp [hgo.1]

end Grants

section Runs

variable {fails : Call → Bool} {db : Database} {c : Creation}

/-- After its end a creation makes no calls. -/
theorem runCalls_finished
    (h : c.phase = .created ∨ ∃ e, c.phase = .failed e)
    (n : Nat) :
    runCalls fails n db c = (db, c) := by
  have hadvance : ∀ f, advance db f c = (db, c) := by
    intro f
    rcases h with h | ⟨e, h⟩
    · simp [advance, h]
    · simp [advance, h]
  induction n with
  | zero =>
      rfl
  | succ n ih =>
      rw [runCalls, hadvance]
      exact ih

/-- The metadata is written, or the creation fails. -/
theorem runCalls_setMeta
    (hphase : c.phase = .setMeta)
    {n : Nat}
    (hn : 1 ≤ n) :
    runCalls fails n db c =
      if fails .setMeta then
        (db, { c with phase := .failed (.manager .database) })
      else
        (db.setTopicMeta ⟨c.topic, c.name, "", "", c.creator⟩, { c with phase := .created }) := by
  obtain ⟨n, rfl⟩ := Nat.exists_eq_add_of_le' hn
  rw [runCalls]
  simp only [nextCall, hphase, advance]
  split
  · exact runCalls_finished (Or.inr ⟨_, rfl⟩) n
  · exact runCalls_finished (Or.inl rfl) n

/-- The members are granted access, and then the metadata is written. -/
theorem runCalls_members
    (rest : List String)
    (hphase : c.phase = nextMember c.creator rest)
    {n : Nat}
    (hn : 2 * rest.length + 1 ≤ n) :
    ∃ granted,
      runCalls fails n db c =
        if fails .setMeta then
          (grantMembers fails c.creator c.topic db rest,
            { c with phase := .failed (.manager .database), granted })
        else
          ((grantMembers fails c.creator c.topic db rest).setTopicMeta
              ⟨c.topic, c.name, "", "", c.creator⟩,
            { c with phase := .created, granted }) := by
  induction rest generalizing db c n with
  | nil =>
      exact ⟨c.granted, runCalls_setMeta hphase (by omega)⟩
  | cons member rest ih =>
      rw [List.length_cons] at hn
      unfold nextMember at hphase
      unfold grantMembers
      split at hphase
      case isTrue hcreator =>
        rw [if_pos (Or.inl hcreator)]
        exact ih hphase (by omega)
      case isFalse hcreator =>
        obtain ⟨n, rfl⟩ : ∃ k, n = k + 2 := ⟨n - 2, by omega⟩
        rw [runCalls]
        simp only [nextCall, hphase, advance]
        by_cases hskip : fails (.verify rest.length) = true ∨ (db.user member).isNone = true
        · rw [if_pos (by simpa using hskip), if_pos (Or.inr hskip)]
          exact ih rfl (by omega)
        · rw [if_neg (by simpa using hskip), if_neg (not_or.mpr ⟨hcreator, hskip⟩), runCalls]
          simp only [nextCall, advance]
          cases grant db (fails (.grantMember rest.length)) member c.topic with
          | error e =>
              exact ih rfl (by omega)
          | ok db' =>
              exact ih rfl (by omega)

variable {baseURL creator : String} {s : State} {body : Option CreateRequest}

theorem newCreation_creator :
    (newCreation 0 creator body).creator = creator := by
  cases body <;> rfl

/-- A request that its checks refuse has failed. -/
theorem newCreation_failed
    (h : (newCreation 0 creator body).phase ≠ .check) :
    ∃ e, (newCreation 0 creator body).phase = .failed e := by
  cases body with
  | none =>
      exact ⟨_, rfl⟩
  | some req =>
      simp only [newCreation] at h ⊢
      split_ifs at h ⊢ with h₁ h₂ h₃ h₄
      · exact ⟨_, rfl⟩
      · exact ⟨_, rfl⟩
      · exact ⟨_, rfl⟩
      · exact ⟨_, rfl⟩
      · exact absurd rfl h

/-- A creation that has failed changes nothing. -/
theorem complete_of_failed
    {e : HandlerError}
    (h : c.phase = .failed e) :
    complete baseURL fails s c = (s, .error e) := by
  simp only [complete, runCalls_finished (Or.inr ⟨e, h⟩), h]

/-- A creation that fails before the grants to the members changes nothing. -/
theorem complete_of_early
    (hphase : c.phase = .check)
    (hearly : fails .check = true ∨ (s.db.meta? c.topic).isSome ∨
      ∃ e, grant s.db (fails .grantCreator) c.creator c.topic = .error e) :
    ∃ e, complete baseURL fails s c = (s, .error e) := by
  have hcalls : callsLeft c = 2 * c.members.length + 1 + 2 := by
    simp only [callsLeft, hphase]
  have hdone : ∀ (e : HandlerError) (n : Nat),
      runCalls fails n s.db { c with phase := .failed e } = (s.db, { c with phase := .failed e }) :=
    fun e n => runCalls_finished (Or.inr ⟨e, rfl⟩) n
  by_cases hcheck : fails .check = true
  · refine ⟨.manager .database, ?_⟩
    simp only [complete, hcalls, runCalls, nextCall, advance, hphase, hcheck, if_true, hdone]
  · by_cases hmeta : (s.db.meta? c.topic).isSome = true
    · refine ⟨.http (errHTTPConflict.wrap "group name conflicts with existing topic"), ?_⟩
      simp only [complete, hcalls, runCalls, nextCall, advance, hphase, hcheck, hmeta, if_true,
        Bool.false_eq_true, if_false, hdone]
    · obtain ⟨e, hgrant⟩ : ∃ e, grant s.db (fails .grantCreator) c.creator c.topic = .error e :=
        (hearly.resolve_left hcheck).resolve_left hmeta
      refine ⟨.manager e, ?_⟩
      simp only [complete, hcalls, runCalls, nextCall, advance, hphase, hcheck, hmeta, hgrant,
        Bool.false_eq_true, if_false, hdone]

section Subscriptions

theorem addSubscriptionsForUser_db
    (s : State) (left : Nat) (username topic : String) :
    (addSubscriptionsForUser baseURL fails s left username topic).db = s.db := by
  unfold addSubscriptionsForUser
  split
  · split <;> rfl
  · rfl

theorem subscribeMembers_db
    (topic : String) (s : State) (members : List String) :
    (subscribeMembers baseURL fails creator topic s members).db = s.db := by
  induction members generalizing s with
  | nil =>
      rfl
  | cons member rest ih =>
      unfold subscribeMembers
      split
      · exact ih s
      · rw [ih, addSubscriptionsForUser_db]

end Subscriptions

/-- After the grants to the members the creation fails only with the metadata. -/
theorem complete_of_late
    {db' : Database}
    (hphase : c.phase = .check)
    (hcheck : fails .check = false)
    (hmeta : (s.db.meta? c.topic).isSome = false)
    (hgrant : grant s.db (fails .grantCreator) c.creator c.topic = .ok db') :
    if fails .setMeta then
      complete baseURL fails s c =
        ({ s with db := grantMembers fails c.creator c.topic db' c.members },
          .error (.manager .database))
    else
      (complete baseURL fails s c).2 = .ok c.topic ∧
        (complete baseURL fails s c).1.db =
          (grantMembers fails c.creator c.topic db' c.members).setTopicMeta
            ⟨c.topic, c.name, "", "", c.creator⟩ := by
  have hcalls : callsLeft c = 2 * c.members.length + 1 + 2 := by
    simp only [callsLeft, hphase]
  obtain ⟨granted, hrun⟩ := @runCalls_members fails db'
    (c.note s.db c.creator (nextMember c.creator c.members)) c.members rfl _ (le_refl _)
  have hfirst : advance s.db (fails (nextCall c.phase)) c =
      (s.db, { c with phase := .grantCreator }) := by
    simp only [advance, nextCall, hphase, hcheck, hmeta, Bool.false_eq_true, if_false]
  have hsecond : advance s.db (fails .grantCreator) { c with phase := .grantCreator } =
      (db', c.note s.db c.creator (nextMember c.creator c.members)) := by
    simp only [advance, hgrant]
    rfl
  have hall : runCalls fails (callsLeft c) s.db c = runCalls fails (2 * c.members.length + 1) db'
      (c.note s.db c.creator (nextMember c.creator c.members)) := by
    rw [hcalls, runCalls, hfirst, runCalls]
    simp only [nextCall, hsecond]
  unfold complete
  rw [hall, hrun]
  cases fails .setMeta with
  | true =>
      rfl
  | false =>
      refine ⟨rfl, ?_⟩
      rw [if_neg Bool.false_ne_true]
      exact (subscribeMembers_db _ _ _).trans (addSubscriptionsForUser_db _ _ _ _)

end Runs

section Soundness

variable {baseURL creator topic : String} {s : State} {failing : Option Call}
variable {body : Option CreateRequest} {c : Creation} {members : List String}

theorem NothingAdded.refl
    (topic : String) (s : State) :
    NothingAdded topic s s :=
  ⟨fun _ ha _ => ha, fun h => h, fun _ _ hsub _ => hsub⟩

/-- An entry as it is granted is determined by the user and the topic. -/
theorem Granted.eq
    {a b : AccessRow}
    (ha : Granted topic a)
    (hb : Granted topic b)
    (hid : a.userId = b.userId) :
    a = b := by
  have htopic : a.topic = b.topic := by
    rw [← StoredPattern.ofPattern_visible a.topic, ← StoredPattern.ofPattern_visible b.topic]
    simp only [ha.topic, hb.topic]
  rcases a with ⟨userId, p, read, write, owner, provisioned⟩
  rcases b with ⟨userId', p', read', write', owner', provisioned'⟩
  have hread := ha.read.trans hb.read.symm
  have hwrite := ha.write.trans hb.write.symm
  have howner := ha.owner.trans hb.owner.symm
  have hprovisioned := ha.provisioned.trans hb.provisioned.symm
  simp only at hid htopic hread hwrite howner hprovisioned
  rw [hid, htopic, hread, hwrite, howner, hprovisioned]

/-- The creator and the members. -/
def ofGroup
    (db : Database)
    (creator : String)
    (members : List String)
    (id : String) : Prop :=
  ∃ username ∈ creator :: members, db.userID username = some id

/-- After the grants everybody has an entry. -/
theorem allGranted_of_grantsTo
    {db db' : Database}
    (hname : allowedTopicPattern topic = true)
    (h : GrantsTo topic (ofGroup db creator members) db db') :
    AllGranted db' creator topic members := by
  intro username hmem id hid
  rw [userID_congr h.users] at hid
  have hgranted : Granted topic ⟨id, .ofPattern topic hname, true, true, none, false⟩ :=
    ⟨StoredPattern.visible_ofPattern hname, rfl, rfl, rfl, rfl⟩
  exact ⟨_, (h.access _).mpr (Or.inl ⟨⟨username, hmem, hid⟩, hgranted⟩), rfl, hgranted⟩

/-- Grants add nothing to a database in which everybody has an entry, and only to it. -/
theorem nothingAdded_grantsTo_iff
    {db' : Database}
    (hname : allowedTopicPattern topic = true)
    (h : GrantsTo topic (ofGroup s.db creator members) s.db db') :
    NothingAdded topic s { s with db := db' } ↔ AllGranted s.db creator topic members := by
  constructor
  · rintro ⟨haccess, -, -⟩ username hmem id hid
    obtain ⟨a, ha, hid', hgranted⟩ := allGranted_of_grantsTo hname h username hmem id
      (by rw [userID_congr h.users]; exact hid)
    exact ⟨a, haccess a ha hgranted.topic, hid', hgranted⟩
  · intro hall
    refine ⟨fun a ha htopic => ?_, fun hmeta => ?_, fun _ _ hsub _ => hsub⟩
    · rcases (h.access a).mp ha with ⟨⟨username, hmem, hid⟩, hgranted⟩ | ⟨hold, -⟩
      · obtain ⟨b, hb, hid', hgranted'⟩ := hall username hmem a.userId hid
        exact hgranted.eq hgranted' hid'.symm ▸ hb
      · exact hold
    · rw [Database.meta?, h.topicMeta] at hmeta
      exact hmeta

/-- The creator first, then the members. -/
theorem grantsTo_group
    {fails : Call → Bool} {db db' : Database}
    (hname : allowedTopicPattern topic = true)
    (hfails : ∀ left, fails (.verify left) = false ∧ fails (.grantMember left) = false)
    (hgrant : grant db false creator topic = .ok db') :
    GrantsTo topic (ofGroup db creator members) db
      (grantMembers fails creator topic db' members) := by
  have hfirst := grantsTo_grant hgrant
  refine (hfirst.trans (grantsTo_grantMembers hname hfails db' members)).congr fun id => ?_
  rw [ofGroup, List.exists_mem_cons_iff, userID_congr hfirst.users]
  constructor
  · rintro (hid | ⟨member, hmem, -, hid⟩)
    · exact Or.inl hid
    · exact Or.inr ⟨member, hmem, hid⟩
  · rintro (hid | ⟨member, hmem, hid⟩)
    · exact Or.inl hid
    · by_cases hcreator : member = creator
      · exact Or.inl (hcreator ▸ hid)
      · exact Or.inr ⟨member, hmem, hcreator, hid⟩

/-- A request that passes its checks has a name, members, and the topic of the name. -/
theorem newCreation_of_check
    (h : (newCreation 0 creator body).phase = .check) :
    (newCreation 0 creator body).topic = groupTopic (newCreation 0 creator body).name := by
  cases body with
  | none =>
      cases h
  | some req =>
      rfl

/-- A creation that changes nothing is sound if it need not go through. -/
theorem sound_of_unchanged
    {e : HandlerError}
    (h : handleGroupCreate baseURL (fun call => decide (failing = some call)) s creator body =
      (s, .error e))
    (hmay : failing = none → (newCreation 0 creator body).phase = .check →
      InUse s (newCreation 0 creator body).topic) :
    Sound baseURL failing s creator body := by
  refine ⟨fun hworks hphase hfree => absurd (hmay hworks hphase) hfree, fun e' _ => ?_⟩
  rw [h]
  exact NothingAdded.refl _ s

/--
A creation is total and atomic when it is refused by its checks or by existing metadata;
when the name leaves at most 60 characters and the metadata can be written, or everybody has
access already; or when it leaves more, and a call fails or the topic is in use.
-/
theorem sound_iff
    (hcreator : (s.db.userID creator).isSome) :
    Sound baseURL failing s creator body
      ↔
    (newCreation 0 creator body).phase ≠ .check ∨
      (s.db.meta? (newCreation 0 creator body).topic).isSome ∨
      ((topicSlug (newCreation 0 creator body).name).toList.length ≤ 60 ∧
        (failing = some .setMeta → AllGranted s.db creator (newCreation 0 creator body).topic
          (newCreation 0 creator body).members)) ∨
      (60 < (topicSlug (newCreation 0 creator body).name).toList.length ∧
        (failing ≠ none ∨ InUse s (newCreation 0 creator body).topic)) := by
  by_cases hphase : (newCreation 0 creator body).phase = .check
  case neg =>
    obtain ⟨e, he⟩ := newCreation_failed hphase
    exact iff_of_true
      (sound_of_unchanged (complete_of_failed he) fun _ hcheck => absurd hcheck hphase)
      (Or.inl hphase)
  have htopic := newCreation_of_check hphase
  by_cases hmeta : (s.db.meta? (newCreation 0 creator body).topic).isSome = true
  case pos =>
    obtain ⟨e, he⟩ : ∃ e, handleGroupCreate baseURL (fun call => decide (failing = some call))
        s creator body = (s, .error e) :=
      complete_of_early hphase (Or.inr (Or.inl hmeta))
    exact iff_of_true (sound_of_unchanged he fun _ _ => Or.inl hmeta) (Or.inr (Or.inl hmeta))
  have hrefl : ¬ (newCreation 0 creator body).phase ≠ .check := not_not_intro hphase
  rw [or_iff_right hrefl, or_iff_right hmeta]
  obtain ⟨hvalid, hpattern⟩ := allowed_groupTopic_iff (newCreation 0 creator body).name
  rw [← htopic] at hvalid hpattern
  by_cases hname : (topicSlug (newCreation 0 creator body).name).toList.length ≤ 60
  case neg =>
    have herr : ∃ e, grant s.db (decide (failing = some .grantCreator)) creator
        (newCreation 0 creator body).topic = .error e := by
      cases hgrant : grant s.db (decide (failing = some .grantCreator)) creator
          (newCreation 0 creator body).topic with
      | error e =>
          exact ⟨e, rfl⟩
      | ok db' =>
          unfold grant at hgrant
          split at hgrant
          · cases hgrant
          · obtain ⟨-, hp, -⟩ := allowAccess_eq_ok hgrant
            exact absurd (hpattern.mp hp) hname
    obtain ⟨e, he⟩ : ∃ e, handleGroupCreate baseURL (fun call => decide (failing = some call))
        s creator body = (s, .error e) :=
      complete_of_early hphase (Or.inr (Or.inr (by rw [newCreation_creator]; exact herr)))
    rw [or_iff_right (fun h => hname h.1), and_iff_right (Nat.lt_of_not_le hname)]
    constructor
    · intro hsound
      by_contra hno
      rw [not_or, not_not] at hno
      exact hname (hvalid.mp (hsound.1 hno.1 hphase hno.2).1)
    · intro hmay
      exact sound_of_unchanged he fun hnone _ => hmay.resolve_left (not_not_intro hnone)
  case pos =>
    rw [or_iff_left (fun h => Nat.lt_irrefl _ (Nat.lt_of_lt_of_le h.1 hname)), and_iff_right hname]
    by_cases hearly : failing = some .check ∨ failing = some .grantCreator
    · obtain ⟨e, he⟩ : ∃ e, handleGroupCreate baseURL (fun call => decide (failing = some call))
          s creator body = (s, .error e) := by
        refine complete_of_early hphase (hearly.imp (fun h => by simp [h]) fun h => Or.inr ?_)
        exact ⟨.database, by simp [h, grant]⟩
      refine iff_of_true (sound_of_unchanged he fun hnone _ => ?_) fun hset => ?_
      · rcases hearly with h | h <;> rw [hnone] at h <;> cases h
      · rcases hearly with h | h <;> rw [hset] at h <;> cases h
    · rw [not_or] at hearly
      obtain ⟨db', hgrant⟩ := grant_isOk (hpattern.mpr hname) hcreator
      have hlate := @complete_of_late (fun call => decide (failing = some call)) _ baseURL s db'
        hphase (by simpa using hearly.1) (by simpa using hmeta)
        (by rw [newCreation_creator]; simpa [hearly.2] using hgrant)
      rw [newCreation_creator] at hlate
      by_cases hset : failing = some .setMeta
      · rw [if_pos (by simp [hset])] at hlate
        have hgroup : GrantsTo _ (ofGroup s.db creator (newCreation 0 creator body).members) s.db
            (grantMembers (fun call => decide (failing = some call)) creator _ db' _) :=
          grantsTo_group (hpattern.mpr hname) (fun left => by simp [hset]) hgrant
        have hiff := nothingAdded_grantsTo_iff (hpattern.mpr hname) hgroup
        constructor
        · intro hsound _
          have hadded := hsound.2 _ (congrArg Prod.snd hlate)
          rw [handleGroupCreate, hlate] at hadded
          exact hiff.mp hadded
        · intro hall
          refine ⟨fun hnone => absurd (hset.symm.trans hnone) (by simp), fun e _ => ?_⟩
          rw [handleGroupCreate, hlate]
          exact hiff.mpr (hall hset)
      · rw [if_neg (by simpa using hset)] at hlate
        refine iff_of_true ⟨fun hnone _ _ => ?_, fun e he => ?_⟩ fun h => absurd h hset
        · have hgroup : GrantsTo _ (ofGroup s.db creator (newCreation 0 creator body).members)
              s.db (grantMembers (fun call => decide (failing = some call)) creator _ db' _) :=
            grantsTo_group (hpattern.mpr hname) (fun left => by simp [hnone]) hgrant
          have hall := allGranted_of_grantsTo (hpattern.mpr hname) hgroup
          refine ⟨hvalid.mpr hname, hlate.1, ?_⟩
          rw [handleGroupCreate, hlate.2]
          exact hall
        · cases hlate.1.symm.trans he

/-- Alice and bob, and no groups. -/
def noGroups : State where
  db := exampleDatabase .empty .empty
  subscriptions _ := []

theorem noGroups_unused
    (topic : String) :
    ¬ InUse noGroups topic := by
  rintro (hmeta | ⟨a, ha, -⟩ | ⟨id, sub, hsub, -⟩)
  · cases hmeta
  · cases ha
  · cases hsub

/-- The request of alice to create a group with bob. -/
def withBob (name : String) : Option CreateRequest :=
  some ⟨name, ["bob"]⟩

/-- A group can be created. -/
theorem friends_sound :
    Sound "https://ntfy.sh" none noGroups "alice" (withBob "Friends") := by
  refine (sound_iff (by decide)).mpr (Or.inr (Or.inr (Or.inl ⟨by decide +kernel, ?_⟩)))
  intro h
  cases h

/--
A name of 61 letters cannot be a group, and a group whose metadata cannot be written leaves
its access entries behind.
-/
theorem long_name_and_failed_metadata :
    ¬ Sound "https://ntfy.sh" none noGroups "alice"
        (withBob (String.ofList (List.replicate 61 'a'))) ∧
      ¬ Sound "https://ntfy.sh" (some .setMeta) noGroups "alice" (withBob "Friends") ∧
      (handleGroupCreate "https://ntfy.sh" (fun call => decide (some Call.setMeta = some call))
          noGroups "alice" (withBob "Friends")).1.db.access.rows =
        [⟨"u_a", exampleTopic, true, true, none, false⟩,
          ⟨"u_b", exampleTopic, true, true, none, false⟩] := by
  refine ⟨fun hsound => ?_, fun hsound => ?_, by decide +kernel⟩
  · have hallowed := (hsound.1 rfl (by decide +kernel) (noGroups_unused _)).1
    exact absurd hallowed (by decide +kernel)
  · have hadded := (hsound.2 (.manager .database) (by decide +kernel)).1
      ⟨"u_a", exampleTopic, true, true, none, false⟩ (by decide +kernel) (by decide +kernel)
    exact absurd hadded (by decide +kernel)

end Soundness

end GroupCreation

end Server
end CoopMessenger
