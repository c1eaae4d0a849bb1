import CoopMessenger.Library.Histories
import CoopMessenger.Server.Topics

/-!
# Rate visitors

A subscriber of a UnifiedPush topic becomes its rate visitor: what others publish to the
topic is charged to it (`limitRequestsWithTopic` of `server/server_middleware.go`).
Without a rate visitor nothing is published, and the Matrix gateway rejects the push key
of a topic that has not been used for long (`handlePublishMatrix` of `server/server.go`).
The steps are those of the topic map, and those of requests to publish, which hold their
topic from the lookup on.

**Results.**
* `get_of_change`: what a step does to a topic.
* `inv_step`: what a step preserves if no stale topic is held and keepalives are on time.
* `vrate_permitted`: who pays for what others publish.
* `rejected_deserted`, `rejected_of_detached`: whose push keys are rejected.
-/

namespace CoopMessenger
namespace Server

open Library

namespace RateVisitors

open Topics

section Model

/-- The settings; `topicFromKey` is the topic in the path of a push key. -/
structure Config extends TopicConfig where
  visitorSubscriberRateLimiting : Bool
  userManager : Bool
  baseURL : String
  keepaliveInterval : Nat
  topicFromKey : String → Option String

def unifiedPushTopicPrefix : String := "up"

def unifiedPushTopicLength : Nat := 14

/-- `matrixRejectPushKeyForUnifiedPushTopicWithoutRateVisitorAfter`, in seconds. -/
def matrixRejectAfter : Nat := 12 * 3600

/-- What the user manager answers about a visitor. -/
structure Access where
  reservationOwner : String → Except Unit String
  authorizeWrite : String → Bool

/-- A reserved topic is for its owner, any other for who may write to it. -/
def Access.permits
    (a : Access)
    (userID id : String) : Except Unit Bool :=
  (a.reservationOwner id).map
    (fun owner => if owner = "" then a.authorizeWrite id else decide (owner = userID))

def eligibleRateTopic (id : String) : Bool :=
  unifiedPushTopicPrefix.toList.isPrefixOf id.toList &&
    decide (id.utf8ByteSize = unifiedPushTopicLength)

def writableRateTopics
    (a : Access)
    (userID : String) : List (Nat × String) → Except Unit (List Nat)
  | [] => .ok []
  | (o, id) :: topics =>
      if eligibleRateTopic id then do
        let permitted ← a.permits userID id
        let rest ← writableRateTopics a userID topics
        return if permitted then o :: rest else rest
      else
        writableRateTopics a userID topics

/-- The topics whose rate visitor a subscribe request sets. -/
def maybeSetRateVisitors
    (cfg : Config)
    (a : Access)
    (userID : String)
    (topics : List (Nat × String)) : Except Unit (List Nat) :=
  if cfg.visitorSubscriberRateLimiting then
    if cfg.userManager then
      writableRateTopics a userID topics
    else
      .ok ((topics.filter (fun t => eligibleRateTopic t.2)).map Prod.fst)
  else
    .ok []

/-- A call of `SetRateVisitor` that a subscribe request still has to do. -/
structure Rate where
  conn : Nat
  topic : Nat
  visitor : Nat
deriving DecidableEq, Repr

/--
A request to publish: who pays, once that is known, the push key it came with, and
whether the topic had no rate visitor.
-/
structure Publish where
  conn : Nat
  visitor : Nat
  topic : Nat
  pushKey : Option String
  vrate : Option Nat
  refused : Bool
deriving DecidableEq, Repr

structure State where
  server : Topics.State
  rates : List Rate
  publishes : Table Publish.conn
  rejected : List String

/-- The rate visitor, unless it is stale. -/
def activeRateVisitor
    (s : Topics.State)
    (t : Topic) : Option Nat :=
  t.rateVisitor.filter (fun v => !s.visitorStale v)

/-- `RateVisitor` lets go of a stale visitor. -/
def rateVisitor
    (s : Topics.State)
    (o : Nat) : Option Nat × Topics.State :=
  ((s.topics.get o).bind (activeRateVisitor s),
    { s with
      topics :=
        s.topics.update o (fun t => { t with rateVisitor := activeRateVisitor s t })
          (fun _ => rfl) })

/-- The steps of the system, with the choices of its environment. -/
inductive Label where
  | server (l : Topics.Label)
  | maybeSetRateVisitors (conn visitor : Nat) (userID : String) (access : Access)
  | setRateVisitor (r : Rate)
  | publish (conn visitor : Nat) (id : String)
  | publishMatrix (conn visitor : Nat) (pushKey : String)
  | limit (conn : Nat)
  | handlePublish (conn : Nat) (unifiedpush : Bool) (message : Nat)
  | answer (conn : Nat)
  | fail (conn : Nat)

/-- A subscribe request sets its rate visitors before it subscribes. -/
def State.allows
    (s : State) : Topics.Label → Bool
  | .setRateVisitor _ _ => false
  | .subscribe conn _ => s.rates.all (fun r => decide (r.conn ≠ conn))
  | _ => true

/-- The beginning of `limitRequestsWithTopic`. -/
def State.lookup
    (cfg : Config)
    (s : State)
    (conn visitor : Nat)
    (pushKey : Option String)
    (id : String) : Option State :=
  if s.server.manager.isSome then
    none
  else
    match topicsFromIDs cfg.toTopicConfig s.server.now s.server.topics [id] with
    | (topics, .ok [o]) =>
        (s.publishes.insert? ⟨conn, visitor, o, pushKey, none, false⟩).map
          (fun publishes => { s with server := { s.server with topics }, publishes })
    | (topics, _) => some { s with server := { s.server with topics } }

/-- A change of one request to publish. -/
def State.modify
    (s : State)
    (conn : Nat)
    (f : Publish → Publish)
    (hf : ∀ p, (f p).conn = p.conn) : Table Publish.conn :=
  s.publishes.modify (fun p => if p.conn = conn then f p else p)
    (by intro p; split; exact hf p; rfl)

def State.finish
    (s : State)
    (conn : Nat) : Table Publish.conn :=
  s.publishes.delete (fun p => decide (p.conn = conn))

/-- Has nobody used the topic for long? -/
def State.idle
    (s : State)
    (o : Nat) : Bool :=
  (s.server.topics.get o).any
    (fun t => decide (matrixRejectAfter < s.server.now - t.lastAccess))

/-- One step; `none` if it is not enabled. -/
def step
    (cfg : Config)
    (s : State) : Label → Option State
  | .server l =>
      if s.allows l then
        (Topics.step cfg.toTopicConfig s.server l).map (fun server => { s with server })
      else
        none
  | .maybeSetRateVisitors conn visitor userID access =>
      match s.server.requests.find? conn with
      | some ⟨_, pending, []⟩ =>
          match maybeSetRateVisitors cfg access userID
              (pending.filterMap (fun o => (s.server.topics.get o).map (o, ·.id))) with
          | .ok os => some { s with rates := s.rates ++ os.map (⟨conn, ·, visitor⟩) }
          | .error _ =>
              (Topics.step cfg.toTopicConfig s.server (.close conn)).map
                (fun server => { s with server })
      | _ => none
  | .setRateVisitor r =>
      if r ∈ s.rates then
        (Topics.step cfg.toTopicConfig s.server (.setRateVisitor r.topic r.visitor)).map
          (fun server => { s with server, rates := s.rates.erase r })
      else
        none
  | .publish conn visitor id => s.lookup cfg conn visitor none id
  | .publishMatrix conn visitor pushKey =>
      if cfg.baseURL = "" ∨ pushKey = "" then
        some s
      else if (cfg.baseURL ++ "/").toList.isPrefixOf pushKey.toList then
        match cfg.topicFromKey pushKey with
        | some id => s.lookup cfg conn visitor (some pushKey) id
        | none => some s
      else
        some { s with rejected := s.rejected ++ [pushKey] }
  | .limit conn =>
      match s.publishes.find? conn with
      | some p =>
          if p.vrate.isSome then
            none
          else
            let r := rateVisitor s.server p.topic
            some
              { s with
                server := r.2
                publishes :=
                  s.modify conn (fun q => { q with vrate := some (r.1.getD q.visitor) })
                    (fun _ => rfl) }
      | none => none
  | .handlePublish conn unifiedpush message =>
      match s.publishes.find? conn with
      | some p =>
          if p.vrate.isNone || p.refused then
            none
          else if unifiedpush && cfg.visitorSubscriberRateLimiting then
            let r := rateVisitor s.server p.topic
            match r.1 with
            | none =>
                some
                  { s with
                    server := r.2
                    publishes :=
                      s.modify conn (fun q => { q with refused := true }) (fun _ => rfl) }
            | some _ =>
                some
                  { s with
                    server :=
                      { r.2 with publications := s.server.publications ++ [⟨message, p.topic⟩] }
                    publishes := s.finish conn }
          else
            some
              { s with
                server :=
                  { s.server with
                    publications := s.server.publications ++ [⟨message, p.topic⟩] }
                publishes := s.finish conn }
      | none => none
  | .answer conn =>
      match s.publishes.find? conn with
      | some p =>
          if p.refused then
            some
              { s with
                publishes := s.finish conn
                rejected :=
                  s.rejected ++ if s.idle p.topic then p.pushKey.toList else [] }
          else
            none
      | none => none
  | .fail conn =>
      if (s.publishes.find? conn).isSome then
        some { s with publishes := s.finish conn }
      else
        none

/-- The server as it starts, at a given time. -/
def initial (now : Nat) : State where
  server := Topics.initial now
  rates := []
  publishes := .empty
  rejected := []

end Model

section Changes

/-- What a step of the server leaves of a topic. -/
structure Follows
    (now : Nat)
    (set : Nat → Prop)
    (t t' : Topic) : Prop where
  id : t'.id = t.id
  rateVisitor : ∀ v, t'.rateVisitor = some v → t.rateVisitor = some v ∨ set v
  used : t'.lastAccess = now ∨
    t'.lastAccess = t.lastAccess ∧ (t.subscribers = [] → t'.subscribers = [])

theorem Follows.refl
    (now : Nat)
    (set : Nat → Prop)
    (t : Topic) :
    Follows now set t t :=
  ⟨rfl, fun _ hv => Or.inl hv, Or.inr ⟨rfl, fun h => h⟩⟩

/-- What the steps of the topic map, and those of requests to publish, do to it. -/
inductive Change
    (cfg : TopicConfig)
    (s s' : Topics.State) : Label → Prop where
  | lookup
      {l : Label}
      (ids : List String)
      (hfree : s.manager = none)
      (hmanager : s'.manager = none)
      (htopics : s'.topics = (topicsFromIDs cfg s.now s.topics ids).1)
      (hnow : s'.now = s.now) :
      Change cfg s s' l
  | update
      {l : Label}
      (o : Nat)
      (f : Topic → Topic)
      (hf : ∀ t, (f t).id = t.id)
      (hmanager : s'.manager = s.manager)
      (htopics : s'.topics = s.topics.update o f hf)
      (hnow : s'.now = s.now)
      (hfollows : ∀ t, Follows s.now
        (fun v => ∃ conn, l = .setRateVisitor ⟨conn, o, v⟩) t (f t)) :
      Change cfg s s' l
  | wait
      {l : Label}
      (hmanager : s'.manager = s.manager)
      (htopics : s'.topics = s.topics)
      (hnow : s'.now = s.now ∨
        ∃ seconds, l = .server (.tick seconds) ∧ s'.now = s.now + seconds) :
      Change cfg s s' l
  | pass
      {l : Label}
      (htopics : s'.topics = s.topics)
      (hnow : s'.now = s.now)
      (hdoomed : ∀ m id, s'.manager = some m → m.doomed = some id →
        l = .server (.managerCheck id) ∧ s.stale id = true) :
      Change cfg s s' l
  | remove
      {l : Label}
      (m : Manager)
      (id : String)
      (hm : s.manager = some m)
      (hid : m.doomed = some id)
      (hmanager : ∀ m', s'.manager = some m' → m'.doomed = none)
      (htopics : s'.topics = s.topics.remove id)
      (hnow : s'.now = s.now) :
      Change cfg s s' l

variable {cfg : Config}
variable {s s' : State}
variable {l : Label}

/-- The steps of the topic map but for the calls of `SetRateVisitor`. -/
theorem change_of_topics
    {c : TopicConfig} {s s' : Topics.State} {l : Topics.Label}
    (hset : ∀ o v, l ≠ .setRateVisitor o v)
    (h : Topics.step c s l = some s') :
    Change c s s' (.server l) := by
  cases l with
  | tick seconds =>
      cases h
      exact .wait rfl rfl (Or.inr ⟨seconds, rfl, rfl⟩)
  | seen visitor =>
      cases h
      exact .wait rfl rfl (Or.inl rfl)
  | lookup conn ids =>
      simp only [Topics.step] at h
      split at h
      · cases h
      · rename_i hfree
        rw [Option.not_isSome_iff_eq_none] at hfree
        split at h
        · rename_i topics e heq
          cases h
          exact .lookup ids hfree hfree (by rw [heq]) rfl
        · rename_i topics pending heq
          obtain ⟨requests, -, rfl⟩ := Option.map_eq_some_iff.mp h
          exact .lookup ids hfree hfree (by rw [heq]) rfl
  | subscribe conn subscriberID =>
      simp only [Topics.step] at h
      split at h
      · cases h
        exact .update _ _ (Topic.subscribe_id s.now subscriberID conn) rfl rfl rfl
          (fun t => ⟨rfl, fun _ hv => Or.inl hv, Or.inl rfl⟩)
      · cases h
  | unsubscribe conn =>
      simp only [Topics.step] at h
      split at h
      · cases h
        refine .update _ _ (Topic.unsubscribe_id _) rfl rfl rfl
          (fun t => ⟨rfl, fun _ hv => Or.inl hv, Or.inr ⟨rfl, fun ht => ?_⟩⟩)
        simp [Topic.unsubscribe, ht]
      · cases h
  | close conn =>
      simp only [Topics.step] at h
      split at h
      · cases h
        exact .wait rfl rfl (Or.inl rfl)
      · cases h
  | publish message id =>
      simp only [Topics.step] at h
      split at h
      · cases h
      · rename_i hfree
        rw [Option.not_isSome_iff_eq_none] at hfree
        cases h
        exact .lookup [id] hfree hfree rfl rfl
  | fanOut message =>
      simp only [Topics.step] at h
      split at h
      · cases h
      · cases h
        exact .wait rfl rfl (Or.inl rfl)
  | keepalive o =>
      cases h
      exact .update o _ (Topic.keepalive_id s.now) rfl rfl rfl
        (fun t => ⟨rfl, fun _ hv => Or.inl hv, Or.inl rfl⟩)
  | setRateVisitor o visitor =>
      exact absurd rfl (hset o visitor)
  | managerStart =>
      simp only [Topics.step] at h
      split at h
      · cases h
      · cases h
        refine .pass rfl rfl fun m id hm hid => ?_
        cases hm
        cases hid
  | managerCheck id =>
      simp only [Topics.step] at h
      split at h
      · split at h
        · cases h
          refine .pass rfl rfl fun m id' hm hid => ?_
          cases hm
          dsimp only at hid
          split at hid
          case isTrue hstale =>
            cases hid
            exact ⟨rfl, hstale⟩
          case isFalse =>
            cases hid
        · cases h
      · cases h
  | managerRemove =>
      simp only [Topics.step] at h
      split at h
      · rename_i remaining id hm
        cases h
        refine .remove _ id hm rfl (fun m' hm' => ?_) rfl rfl
        cases hm'
        rfl
      · cases h
  | managerEnd =>
      simp only [Topics.step] at h
      split at h
      · cases h
        exact .pass rfl rfl (fun m id hm => by cases hm)
      · cases h

theorem change_rateVisitor
    {c : TopicConfig} {s s' : Topics.State} {l : Label} {o : Nat}
    (htopics : s'.topics = (rateVisitor s o).2.topics)
    (hmanager : s'.manager = s.manager)
    (hnow : s'.now = s.now) :
    Change c s s' l :=
  .update o (fun t => { t with rateVisitor := activeRateVisitor s t }) (fun _ => rfl)
    hmanager htopics hnow
    (fun _ => ⟨rfl, fun _ hv => Or.inl (Option.filter_eq_some_iff.mp hv).1,
      Or.inr ⟨rfl, fun h => h⟩⟩)

/-- What a lookup does to an object. -/
theorem get_topicsFromIDs
    (c : TopicConfig) (now : Nat) (ids : List String) (topics : Registry Topic.id) (o : Nat) :
    (topicsFromIDs c now topics ids).1.get o = topics.get o ∨
      topics.get o = none ∧
        ∃ id, (topicsFromIDs c now topics ids).1.get o = some (newTopic id now) := by
  induction ids generalizing topics with
  | nil =>
      exact Or.inl rfl
  | cons id ids ih =>
      unfold topicsFromIDs
      split
      · exact Or.inl rfl
      · split
        · exact ih topics
        · rename_i hfree
          split
          · exact Or.inl rfl
          · have hget := Registry.get_create (r := newTopic id now) hfree o
            split at hget
            case isTrue ho =>
              have hnone : topics.get o = none := by
                rw [ho]
                exact List.getElem?_eq_none (Nat.le_refl _)
              rcases ih (topics.create (newTopic id now)) with h | h
              · exact Or.inr ⟨hnone, id, h.trans hget⟩
              · exact absurd (hget.symm.trans h.1) (by simp)
            case isFalse =>
              rw [← hget]
              exact ih _

/-- A step keeps every topic, follows it, or has made it. -/
theorem get_of_change
    {c : TopicConfig} {s s' : Topics.State}
    (h : Change c s s' l)
    (o : Nat) :
    s.topics.get o = none ∧ s'.topics.get o = none ∨
    (s.topics.get o = none ∧ ∃ id, s'.topics.get o = some (newTopic id s.now)) ∨
    ∃ t t', s.topics.get o = some t ∧ s'.topics.get o = some t' ∧
      Follows s.now (fun v => ∃ conn, l = .setRateVisitor ⟨conn, o, v⟩) t t' := by
  have hsame : s'.topics.get o = s.topics.get o →
      s.topics.get o = none ∧ s'.topics.get o = none ∨
      (s.topics.get o = none ∧ ∃ id, s'.topics.get o = some (newTopic id s.now)) ∨
      ∃ t t', s.topics.get o = some t ∧ s'.topics.get o = some t' ∧
        Follows s.now (fun v => ∃ conn, l = .setRateVisitor ⟨conn, o, v⟩) t t' := by
    intro heq
    cases hget : s.topics.get o with
    | none =>
        exact Or.inl ⟨rfl, heq.trans hget⟩
    | some t =>
        exact Or.inr (Or.inr ⟨t, t, rfl, heq.trans hget, .refl _ _ t⟩)
  cases h with
  | lookup ids hfree hmanager htopics hnow =>
      rcases get_topicsFromIDs c s.now ids s.topics o with heq | ⟨hnone, id, hnew⟩
      · exact hsame (htopics ▸ heq)
      · exact Or.inr (Or.inl ⟨hnone, id, htopics ▸ hnew⟩)
  | update p f hf hmanager htopics hnow hfollows =>
      rw [htopics, Registry.get_update] at hsame ⊢
      split at hsame
      case isTrue hp =>
        subst hp
        rw [if_pos rfl]
        cases hget : s.topics.get p with
        | none =>
            exact Or.inl ⟨rfl, rfl⟩
        | some t =>
            exact Or.inr (Or.inr ⟨t, f t, rfl, rfl, hfollows t⟩)
      case isFalse hp =>
        rw [if_neg hp]
        exact hsame rfl
  | wait hmanager htopics hnow =>
      exact hsame (by rw [htopics])
  | pass htopics hnow hdoomed =>
      exact hsame (by rw [htopics])
  | remove m id hm hid hmanager htopics hnow =>
      exact hsame (by rw [htopics, Registry.get_remove])

/-- A current object stays current, unless the manager removes its topic. -/
theorem current_of_change
    {c : TopicConfig} {s s' : Topics.State} {o : Nat}
    (h : Change c s s' l)
    (hattached : Attached s.topics)
    (hcur : Current s.topics o)
    (hkept : ∀ m id, s.manager = some m → m.doomed = some id → s.topics.lookup id ≠ some o) :
    Current s'.topics o := by
  cases h with
  | lookup ids hfree hmanager htopics hnow =>
      rw [htopics]
      exact (topicsFromIDs_inv c s.now ids hattached).2.1 o hcur
  | update p f hf hmanager htopics hnow hfollows =>
      rw [htopics]
      exact hcur
  | wait hmanager htopics hnow =>
      rwa [htopics]
  | pass htopics hnow hdoomed =>
      rwa [htopics]
  | remove m id hm hid hmanager htopics hnow =>
      obtain ⟨id', hid'⟩ := hcur
      refine ⟨id', ?_⟩
      rw [htopics, Registry.lookup_remove, if_neg]
      · exact hid'
      · rintro rfl
        exact hkept m id' hm hid hid'

/-- Only a tick of the clock takes time. -/
theorem now_of_change
    {c : TopicConfig} {s s' : Topics.State}
    (h : Change c s s' l) :
    s'.now = s.now ∨
      ∃ seconds, l = .server (.tick seconds) ∧ s'.now = s.now + seconds ∧
        s'.topics = s.topics := by
  cases h with
  | lookup ids hfree hmanager htopics hnow =>
      exact Or.inl hnow
  | update p f hf hmanager htopics hnow hfollows =>
      exact Or.inl hnow
  | wait hmanager htopics hnow =>
      exact hnow.imp_right fun ⟨seconds, hl, hnow⟩ => ⟨seconds, hl, hnow, htopics⟩
  | pass htopics hnow hdoomed =>
      exact Or.inl hnow
  | remove m id hm hid hmanager htopics hnow =>
      exact Or.inl hnow

/-- Who may become the rate visitor of a topic. -/
def MayPay
    (cfg : Config)
    (a : Access)
    (userID id : String) : Prop :=
  cfg.visitorSubscriberRateLimiting = true ∧ eligibleRateTopic id = true ∧
    (cfg.userManager = true → a.permits userID id = .ok true)

theorem permits_of_mem
    {a : Access} {userID : String} {topics : List (Nat × String)} {os : List Nat} {o : Nat}
    (h : writableRateTopics a userID topics = .ok os)
    (ho : o ∈ os) :
    ∃ id, (o, id) ∈ topics ∧ eligibleRateTopic id = true ∧ a.permits userID id = .ok true := by
  induction topics generalizing os with
  | nil =>
      cases h
      cases ho
  | cons t topics ih =>
      obtain ⟨p, id⟩ := t
      have hlater : ∀ rest, writableRateTopics a userID topics = .ok rest → o ∈ rest →
          ∃ id', (o, id') ∈ (p, id) :: topics ∧ eligibleRateTopic id' = true ∧
            a.permits userID id' = .ok true := by
        intro rest hrest hmem
        obtain ⟨id', hid', hspec⟩ := ih hrest hmem
        exact ⟨id', List.mem_cons_of_mem _ hid', hspec⟩
      rw [writableRateTopics] at h
      split at h
      case isTrue heligible =>
        cases hpermits : a.permits userID id with
        | error e =>
            rw [hpermits] at h
            cases h
        | ok permitted =>
            cases hrest : writableRateTopics a userID topics with
            | error e =>
                rw [hpermits, hrest] at h
                cases h
            | ok rest =>
                rw [hpermits, hrest] at h
                cases permitted with
                | false =>
                    cases h
                    exact hlater rest hrest ho
                | true =>
                    cases h
                    rcases List.mem_cons.mp ho with rfl | ho
                    · exact ⟨id, List.mem_cons_self, heligible, hpermits⟩
                    · exact hlater rest hrest ho
      case isFalse =>
        exact hlater os h ho

theorem mayPay_of_mem
    {a : Access} {userID : String} {topics : List (Nat × String)} {os : List Nat} {o : Nat}
    (h : maybeSetRateVisitors cfg a userID topics = .ok os)
    (ho : o ∈ os) :
    ∃ id, (o, id) ∈ topics ∧ MayPay cfg a userID id := by
  unfold maybeSetRateVisitors at h
  split at h
  case isTrue hlimiting =>
    split at h
    case isTrue =>
      obtain ⟨id, hid, heligible, hpermits⟩ := permits_of_mem h ho
      exact ⟨id, hid, hlimiting, heligible, fun _ => hpermits⟩
    case isFalse hmanager =>
      cases h
      obtain ⟨⟨p, id⟩, ht, rfl⟩ := List.mem_map.mp ho
      obtain ⟨ht, heligible⟩ := List.mem_filter.mp ht
      exact ⟨id, ht, hlimiting, heligible, fun h => absurd h hmanager⟩
  case isFalse =>
    cases h
    cases ho

/-- What the steps do to the topic map, to the calls to come and to requests to publish. -/
structure Effect
    (cfg : Config)
    (s s' : State)
    (l : Label) : Prop where
  change : Change cfg.toTopicConfig s.server s'.server l
  inv : Topics.Inv s.server → (∀ l', l = .server l' → NotHeld s.server l') →
    Topics.Inv s'.server
  set : ∀ r, l = .setRateVisitor r → r ∈ s.rates
  rates : ∀ r ∈ s'.rates, r ∈ s.rates ∨
    ∃ userID access t, l = .maybeSetRateVisitors r.conn r.visitor userID access ∧
      s.server.topics.get r.topic = some t ∧ MayPay cfg access userID t.id
  publishes : ∀ p' ∈ s'.publishes,
    (∃ p ∈ s.publishes, p'.topic = p.topic ∧ p'.pushKey = p.pushKey) ∨
      s'.server.manager = none ∧ ∃ id, s'.server.topics.lookup id = some p'.topic ∧
        ∀ key, p'.pushKey = some key → cfg.topicFromKey key = some id

/-- A lookup finds or makes the current object. -/
theorem lookup_of_topicsFromIDs
    {c : TopicConfig} {now o : Nat} {id : String} {topics topics' : Registry Topic.id}
    (h : topicsFromIDs c now topics [id] = (topics', .ok [o])) :
    topics'.lookup id = some o := by
  unfold topicsFromIDs at h
  split at h
  · cases h
  · split at h
    · rename_i o' hlookup
      cases h
      exact hlookup
    · rename_i hfree
      split at h
      · cases h
      · cases h
        rw [Registry.lookup_create hfree]
        exact if_pos rfl

/-- A request to publish changes, and lets go of a stale rate visitor at most. -/
theorem effect_of_change
    (hchange : Change cfg.toTopicConfig s.server s'.server l)
    (hinv : Topics.Inv s.server → Topics.Inv s'.server)
    (hl : ∀ r, l ≠ .setRateVisitor r)
    (hrates : s'.rates = s.rates)
    (hpublishes : ∀ p' ∈ s'.publishes,
      ∃ p ∈ s.publishes, p'.topic = p.topic ∧ p'.pushKey = p.pushKey) :
    Effect cfg s s' l :=
  ⟨hchange, fun h _ => hinv h, fun r hr => absurd hr (hl r),
    fun _ hr => Or.inl (hrates ▸ hr), fun p' hp' => Or.inl (hpublishes p' hp')⟩

theorem effect_lookup
    {conn visitor : Nat} {pushKey : Option String} {id : String}
    (hkey : ∀ key, pushKey = some key → cfg.topicFromKey key = some id)
    (hl : ∀ r, l ≠ .setRateVisitor r)
    (h : s.lookup cfg conn visitor pushKey id = some s') :
    Effect cfg s s' l := by
  unfold State.lookup at h
  split at h
  · cases h
  · rename_i hfree
    rw [Option.not_isSome_iff_eq_none] at hfree
    split at h
    · rename_i topics o heq
      obtain ⟨publishes, hins, rfl⟩ := Option.map_eq_some_iff.mp h
      refine
        { change := .lookup [id] hfree hfree (by rw [heq]) rfl
          inv := fun hinv _ => hinv.lookup (by rw [heq]) hfree (fun r hr => Or.inl hr)
          set := fun r hr => absurd hr (hl r)
          rates := fun r hr => Or.inl hr
          publishes := fun p' hp' => ?_ }
      rcases (Table.mem_insert?_iff hins).mp hp' with hp' | rfl
      · exact Or.inl ⟨p', hp', rfl, rfl⟩
      · exact Or.inr ⟨hfree, id, lookup_of_topicsFromIDs heq, hkey⟩
    · rename_i topics r hother heq
      cases h
      exact effect_of_change (.lookup [id] hfree hfree (by rw [heq]) rfl)
        (fun hinv => hinv.lookup (by rw [heq]) hfree (fun r hr => Or.inl hr)) hl rfl
        (fun p' hp' => ⟨p', hp', rfl, rfl⟩)

theorem inv_rateVisitor
    {s s' : Topics.State} {o : Nat}
    (h : Topics.Inv s)
    (htopics : s'.topics = (rateVisitor s o).2.topics)
    (hmanager : s'.manager = s.manager)
    (hrequests : s'.requests = s.requests) :
    Topics.Inv s' :=
  h.update (f := fun t => { t with rateVisitor := activeRateVisitor s t }) (fun _ => rfl) htopics
    hmanager (fun r hr => ⟨r, hrequests ▸ hr, List.Subset.refl _⟩) (Or.inr fun _ ht => ht)

theorem mem_modify
    {conn : Nat}
    (f : Publish → Publish)
    (hf : ∀ p, (f p).conn = p.conn)
    {p' : Publish}
    (h : p' ∈ s.modify conn f hf)
    (hsame : ∀ p, (f p).topic = p.topic ∧ (f p).pushKey = p.pushKey) :
    ∃ p ∈ s.publishes, p'.topic = p.topic ∧ p'.pushKey = p.pushKey := by
  obtain ⟨p, hp, rfl⟩ := (Table.mem_modify_iff _).mp h
  refine ⟨p, hp, ?_⟩
  split
  · exact hsame p
  · exact ⟨rfl, rfl⟩

theorem mem_finish
    {conn : Nat} {p' : Publish}
    (h : p' ∈ s.finish conn) :
    ∃ p ∈ s.publishes, p'.topic = p.topic ∧ p'.pushKey = p.pushKey :=
  ⟨p', (Table.mem_delete_iff.mp h).1, rfl, rfl⟩

/-- What a step does. -/
theorem effect_of_step
    (h : step cfg s l = some s') :
    Effect cfg s s' l := by
  cases l with
  | server l =>
      simp only [step] at h
      split at h
      · rename_i hallows
        obtain ⟨server, hserver, rfl⟩ := Option.map_eq_some_iff.mp h
        refine ⟨change_of_topics ?_ hserver,
          fun hinv hcond => Topics.inv_step hinv (hcond l rfl) hserver,
          (fun r hr => by cases hr), fun r hr => Or.inl hr,
          fun p' hp' => Or.inl ⟨p', hp', rfl, rfl⟩⟩
        rintro o v rfl
        cases hallows
      · cases h
  | maybeSetRateVisitors conn visitor userID access =>
      simp only [step] at h
      split at h
      · rename_i c pending hfind
        split at h
        · rename_i os hos
          cases h
          refine ⟨.wait rfl rfl (Or.inl rfl), fun hinv _ => hinv,
            (fun r hr => by cases hr), fun r hr => ?_, fun p' hp' => Or.inl ⟨p', hp', rfl, rfl⟩⟩
          rcases List.mem_append.mp hr with hr | hr
          · exact Or.inl hr
          · obtain ⟨o, ho, rfl⟩ := List.mem_map.mp hr
            obtain ⟨id, hid, hmay⟩ := mayPay_of_mem hos ho
            obtain ⟨o', -, hmap⟩ := List.mem_filterMap.mp hid
            obtain ⟨t, ht, heq⟩ := Option.map_eq_some_iff.mp hmap
            cases heq
            exact Or.inr ⟨userID, access, t, rfl, ht, hmay⟩
        · obtain ⟨server, hserver, rfl⟩ := Option.map_eq_some_iff.mp h
          have hinv := fun hinv => Topics.inv_step (l := .close conn) hinv trivial hserver
          simp only [Topics.step] at hserver
          split at hserver
          · cases hserver
            exact effect_of_change (.wait rfl rfl (Or.inl rfl)) hinv
              (fun r hr => by cases hr) rfl fun p' hp' => ⟨p', hp', rfl, rfl⟩
          · cases hserver
      · cases h
  | setRateVisitor r =>
      simp only [step] at h
      split at h
      · rename_i hr
        obtain ⟨server, hserver, rfl⟩ := Option.map_eq_some_iff.mp h
        refine ⟨?_, fun hinv _ => Topics.inv_step (l := .setRateVisitor r.topic r.visitor) hinv
            trivial hserver,
          fun r' hr' => ?_, fun r' hr' => Or.inl (List.mem_of_mem_erase hr'),
          fun p' hp' => Or.inl ⟨p', hp', rfl, rfl⟩⟩
        · cases hserver
          refine .update r.topic _ (Topic.setRateVisitor_id _ r.visitor) rfl rfl rfl
            (fun t => ⟨rfl, fun v hv => Or.inr ⟨r.conn, ?_⟩, Or.inl rfl⟩)
          cases hv
          rfl
        · cases hr'
          exact hr
      · cases h
  | publish conn visitor id =>
      exact effect_lookup (fun key hkey => by cases hkey) (fun r hr => by cases hr) h
  | publishMatrix conn visitor pushKey =>
      have hwait : ∀ s', s'.server = s.server → s'.rates = s.rates →
          s'.publishes = s.publishes →
          Effect cfg s s' (.publishMatrix conn visitor pushKey) := by
        intro s' hserver hrates hpublishes
        refine effect_of_change (hserver ▸ .wait rfl rfl (Or.inl rfl)) (hserver ▸ id)
          (fun r hr => by cases hr) hrates
          (fun p' hp' => ⟨p', hpublishes ▸ hp', rfl, rfl⟩)
      simp only [step] at h
      split at h
      · cases h
        exact hwait s rfl rfl rfl
      · split at h
        · split at h
          · rename_i id hid
            refine effect_lookup (fun key hkey => ?_) (fun r hr => by cases hr) h
            cases hkey
            exact hid
          · cases h
            exact hwait s rfl rfl rfl
        · cases h
          exact hwait _ rfl rfl rfl
  | limit conn =>
      simp only [step] at h
      split at h
      · rename_i p hp
        split at h
        · cases h
        · cases h
          exact effect_of_change (change_rateVisitor rfl rfl rfl)
            (fun hinv => inv_rateVisitor hinv rfl rfl rfl) (fun r hr => by cases hr) rfl
            (fun p' hp' => mem_modify
              (fun q => { q with vrate := some ((rateVisitor s.server p.topic).1.getD q.visitor) })
              (fun _ => rfl) hp' (fun _ => ⟨rfl, rfl⟩))
      · cases h
  | handlePublish conn unifiedpush message =>
      simp only [step] at h
      split at h
      · split at h
        · cases h
        · split at h
          · split at h
            · cases h
              exact effect_of_change (change_rateVisitor rfl rfl rfl)
                (fun hinv => inv_rateVisitor hinv rfl rfl rfl) (fun r hr => by cases hr) rfl
                (fun p' hp' => mem_modify (fun q => { q with refused := true })
                  (fun _ => rfl) hp' (fun _ => ⟨rfl, rfl⟩))
            · cases h
              exact effect_of_change (change_rateVisitor rfl rfl rfl)
                (fun hinv => inv_rateVisitor hinv rfl rfl rfl) (fun r hr => by cases hr) rfl
                (fun p' hp' => mem_finish hp')
          · cases h
            exact effect_of_change (.wait rfl rfl (Or.inl rfl)) (fun hinv => hinv.congr rfl rfl rfl)
              (fun r hr => by cases hr) rfl (fun p' hp' => mem_finish hp')
      · cases h
  | answer conn =>
      simp only [step] at h
      split at h
      · split at h
        · cases h
          exact effect_of_change (.wait rfl rfl (Or.inl rfl)) id
            (fun r hr => by cases hr) rfl (fun p' hp' => mem_finish hp')
        · cases h
      · cases h
  | fail conn =>
      simp only [step] at h
      split at h
      · cases h
        exact effect_of_change (.wait rfl rfl (Or.inl rfl)) id
          (fun r hr => by cases hr) rfl (fun p' hp' => mem_finish hp')
      · cases h

end Changes

section Payers

variable {cfg : Config}
variable {s s' : State}
variable {l : Label}
variable {ls : List Label}

/-- A subscribe request of the visitor was allowed to make it the rate visitor. -/
def Permitted
    (cfg : Config)
    (ls : List Label)
    (visitor : Nat)
    (id : String) : Prop :=
  ∃ conn userID access,
    .maybeSetRateVisitors conn visitor userID access ∈ ls ∧ MayPay cfg access userID id

theorem Permitted.concat
    {visitor : Nat} {id : String}
    (h : Permitted cfg ls visitor id)
    (l : Label) :
    Permitted cfg (ls ++ [l]) visitor id := by
  obtain ⟨conn, userID, access, hmem, hmay⟩ := h
  exact ⟨conn, userID, access, List.mem_append_left _ hmem, hmay⟩

/-- Rate visitors are permitted, also those that are still to be set. -/
structure Payers
    (cfg : Config)
    (ls : List Label)
    (s : State) : Prop where
  rateVisitor : ∀ o t v, s.server.topics.get o = some t → t.rateVisitor = some v →
    Permitted cfg ls v t.id
  rates : ∀ r ∈ s.rates, ∃ t, s.server.topics.get r.topic = some t ∧
    Permitted cfg ls r.visitor t.id

/-- One step makes no rate visitor without permission. -/
theorem payers_step
    (h : Payers cfg ls s)
    (hstep : step cfg s l = some s') :
    Payers cfg (ls ++ [l]) s' := by
  have heffect := effect_of_step hstep
  have hget := get_of_change heffect.change
  refine ⟨fun o t' v ht' hv => ?_, fun r hr => ?_⟩
  · rcases hget o with ⟨-, hnone⟩ | ⟨-, id, hnew⟩ | ⟨t, t'', ht, ht'', hfollows⟩
    · exact absurd (hnone.symm.trans ht') (by simp)
    · cases hnew.symm.trans ht'
      cases hv
    · cases ht''.symm.trans ht'
      rw [hfollows.id]
      rcases hfollows.rateVisitor v hv with hold | ⟨conn, rfl⟩
      · exact (h.rateVisitor o t v ht hold).concat l
      · obtain ⟨t₀, ht₀, hpermitted⟩ := h.rates _ (heffect.set _ rfl)
        cases ht₀.symm.trans ht
        exact hpermitted.concat _
  · have hpermitted : ∃ t, s.server.topics.get r.topic = some t ∧
        Permitted cfg (ls ++ [l]) r.visitor t.id := by
      rcases heffect.rates r hr with hold | ⟨userID, access, t, rfl, ht, hmay⟩
      · obtain ⟨t, ht, hold⟩ := h.rates r hold
        exact ⟨t, ht, hold.concat l⟩
      · exact ⟨t, ht, r.conn, userID, access, List.mem_concat_self, hmay⟩
    obtain ⟨t, ht, hpermitted⟩ := hpermitted
    rcases hget r.topic with ⟨hnone, -⟩ | ⟨hnone, -⟩ | ⟨t₀, t', ht₀, ht', hfollows⟩
    · exact absurd (hnone.symm.trans ht) (by simp)
    · exact absurd (hnone.symm.trans ht) (by simp)
    · cases ht₀.symm.trans ht
      exact ⟨t', ht', hfollows.id ▸ hpermitted⟩

theorem payers_initial
    (now : Nat) :
    Payers cfg [] (initial now) := by
  refine ⟨fun o t v ht => ?_, fun r hr => ?_⟩
  · cases ht
  · cases hr

/--
In every run, who pays for a request to publish is its visitor, or a visitor that was seen
within a day, for a UnifiedPush topic that it was allowed to pay for when it subscribed.
-/
theorem vrate_permitted
    {now conn v : Nat} {p : Publish}
    (hrun : run (step cfg) (initial now) ls = some s)
    (hstep : step cfg s (.limit conn) = some s')
    (hp : s'.publishes.find? conn = some p)
    (hv : p.vrate = some v) :
    v = p.visitor ∨
      s.server.now - s.server.seen v ≤ visitorExpungeAfter ∧
      ∃ t, s.server.topics.get p.topic = some t ∧ Permitted cfg ls v t.id := by
  have hpayers : Payers cfg ls s :=
    run_history (fun _ _ _ _ hinv hstep => payers_step hinv hstep) (payers_initial now) hrun
  simp only [step] at hstep
  split at hstep
  · rename_i q hq
    split at hstep
    · cases hstep
    · cases hstep
      rw [State.modify, Table.find?_modify, hq, Option.map_some, Option.some.injEq,
        if_pos (Table.find?_eq_some_iff.mp hq).2] at hp
      subst hp
      dsimp only at hv ⊢
      rw [Option.some.injEq] at hv
      cases hrate : (rateVisitor s.server q.topic).1 with
      | none =>
          rw [hrate] at hv
          exact Or.inl hv.symm
      | some w =>
          rw [hrate, Option.getD_some] at hv
          subst hv
          obtain ⟨t, ht, hactive⟩ := Option.bind_eq_some_iff.mp hrate
          obtain ⟨hset, hfresh⟩ := Option.filter_eq_some_iff.mp hactive
          refine Or.inr ⟨?_, t, ht, hpayers.rateVisitor _ t w ht hset⟩
          simpa [State.visitorStale] using hfresh
  · cases hstep

/-- Anybody may write to topics that are not reserved, and subscribers pay. -/
def exampleConfig : Config where
  disallowedTopics := []
  totalTopicLimit := 100
  visitorSubscriberRateLimiting := true
  userManager := true
  baseURL := "https://ntfy.sh"
  keepaliveInterval := 45
  topicFromKey := fun key => some (String.ofList (key.toList.drop 16))

def openAccess : Access :=
  ⟨fun _ => .ok "", fun _ => true⟩

/-- A device subscribes, and an application server publishes. -/
def examplePublish : List Label :=
  [.server (.lookup 1 ["upAbCdEfGhIjKl"]), .maybeSetRateVisitors 1 7 "" openAccess,
    .setRateVisitor ⟨1, 0, 7⟩, .server (.subscribe 1 42), .publish 2 9 "upAbCdEfGhIjKl"]

/-- The device pays for what the application server publishes. -/
theorem vrate_permitted_device :
    ∃ s s' p, run (step exampleConfig) (initial 0) examplePublish = some s ∧
      step exampleConfig s (.limit 2) = some s' ∧ s'.publishes.find? 2 = some p ∧
      p.visitor = 9 ∧ p.vrate = some 7 ∧
      Permitted exampleConfig examplePublish 7 "upAbCdEfGhIjKl" := by
  obtain ⟨s, hrun⟩ : ∃ s, run (step exampleConfig) (initial 0) examplePublish = some s :=
    ⟨_, rfl⟩
  obtain ⟨s', hstep⟩ : ∃ s', step exampleConfig s (.limit 2) = some s' := by
    cases hrun
    exact ⟨_, rfl⟩
  have hp : s'.publishes.find? 2 = some ⟨2, 9, 0, none, some 7, false⟩ := by
    cases hrun
    cases hstep
    rfl
  refine ⟨s, s', _, hrun, hstep, hp, rfl, rfl, ?_⟩
  rcases vrate_permitted hrun hstep hp rfl with h | ⟨-, t, ht, hpermitted⟩
  · cases h
  · cases hrun
    cases ht
    exact hpermitted

end Payers

section Rejections

variable {cfg : Config}
variable {s s' : State}
variable {l : Label}

/-- The manager finds no topic stale that a request holds, and no keepalive is late. -/
def Orderly
    (cfg : Config)
    (s : State) : Label → Prop
  | .server (.managerCheck id) =>
      s.server.stale id = true → ∀ o, s.server.topics.lookup id = some o →
        (∀ r ∈ s.server.requests, o ∉ r.pending) ∧ ∀ p ∈ s.publishes, p.topic ≠ o
  | .server (.tick seconds) =>
      ∀ o t, s.server.topics.get o = some t → t.subscribers ≠ [] →
        s.server.now + seconds ≤ t.lastAccess + cfg.keepaliveInterval
  | _ => True

theorem notHeld_of_orderly
    (h : Orderly cfg s l)
    (l' : Topics.Label)
    (hl : l = .server l') :
    NotHeld s.server l' := by
  subst hl
  cases l' with
  | managerCheck id =>
      exact fun hstale o ho => (h hstale o ho).1
  | _ =>
      exact trivial

structure Inv
    (cfg : Config)
    (s : State) : Prop where
  topics : Topics.Inv s.server
  held : ∀ p ∈ s.publishes, Current s.server.topics p.topic
  doomed : ∀ m id o, s.server.manager = some m → m.doomed = some id →
    s.server.topics.lookup id = some o → ∀ p ∈ s.publishes, p.topic ≠ o
  served : ∀ o t, s.server.topics.get o = some t → t.subscribers ≠ [] →
    s.server.now ≤ t.lastAccess + cfg.keepaliveInterval
  key : ∀ p ∈ s.publishes, ∀ key, p.pushKey = some key →
    ∃ t, s.server.topics.get p.topic = some t ∧ cfg.topicFromKey key = some t.id

/-- One step keeps the invariant, if it is orderly. -/
theorem inv_step
    (h : Inv cfg s)
    (hcond : Orderly cfg s l)
    (hstep : step cfg s l = some s') :
    Inv cfg s' := by
  have heffect := effect_of_step hstep
  have hget := get_of_change heffect.change
  refine ⟨heffect.inv h.topics (notHeld_of_orderly hcond), fun p' hp' => ?_,
    fun m id o hm hid ho p' hp' => ?_, fun o t' ht' hne => ?_, fun p' hp' key hkey => ?_⟩
  · rcases heffect.publishes p' hp' with ⟨p, hp, htopic, -⟩ | ⟨-, id, hlookup, -⟩
    · rw [htopic]
      refine current_of_change heffect.change h.topics.attached (h.held p hp) ?_
      exact fun m id hm hid ho => h.doomed m id _ hm hid ho p hp rfl
    · exact ⟨id, hlookup⟩
  · rcases heffect.publishes p' hp' with ⟨p, hp, htopic, -⟩ | ⟨hnone, -⟩
    · rw [htopic]
      cases heffect.change with
      | lookup ids hfree hmanager htopics hnow =>
          cases hmanager.symm.trans hm
      | update q f hf hmanager htopics hnow hfollows =>
          rw [htopics, Registry.lookup_update] at ho
          exact h.doomed m id o (hmanager ▸ hm) hid ho p hp
      | wait hmanager htopics hnow =>
          exact h.doomed m id o (hmanager ▸ hm) hid (htopics ▸ ho) p hp
      | pass htopics hnow hdoomed =>
          obtain ⟨rfl, hstale⟩ := hdoomed m id hm hid
          exact (hcond hstale o (htopics ▸ ho)).2 p hp
      | remove m' id' hm' hid' hmanager htopics hnow =>
          cases (hmanager m hm).symm.trans hid
    · cases hnone.symm.trans hm
  · rcases now_of_change heffect.change with hnow | ⟨seconds, rfl, hnow, htopics⟩
    · rw [hnow]
      rcases hget o with ⟨-, hnone⟩ | ⟨-, id, hnew⟩ | ⟨t, t'', ht, ht'', hfollows⟩
      · cases hnone.symm.trans ht'
      · cases hnew.symm.trans ht'
        exact absurd rfl hne
      · cases ht''.symm.trans ht'
        rcases hfollows.used with hused | ⟨hused, hempty⟩
        · omega
        · have hserved := h.served o t ht (fun ht => hne (hempty ht))
          omega
    · rw [hnow]
      exact hcond o t' (htopics ▸ ht') hne
  · rcases heffect.publishes p' hp' with ⟨p, hp, htopic, hpushKey⟩ | ⟨-, id, hlookup, hnew⟩
    · obtain ⟨t, ht, hid⟩ := h.key p hp key (hpushKey ▸ hkey)
      rw [htopic]
      rcases hget p.topic with ⟨hnone, -⟩ | ⟨hnone, -⟩ | ⟨t₀, t', ht₀, ht', hfollows⟩
      · cases hnone.symm.trans ht
      · cases hnone.symm.trans ht
      · cases ht₀.symm.trans ht
        exact ⟨t', ht', hfollows.id ▸ hid⟩
    · obtain ⟨t, ht, hid⟩ := Registry.get_of_lookup hlookup
      exact ⟨t, ht, hid ▸ hnew key hkey⟩

theorem inv_initial
    (now : Nat) :
    Inv cfg (initial now) := by
  refine ⟨Topics.inv_initial now, ?_, ?_, ?_, ?_⟩
  · exact fun p hp => absurd hp (Table.not_mem_empty p)
  · exact fun m id o hm => by cases hm
  · exact fun o t ht => by cases ht
  · exact fun p hp => absurd hp (Table.not_mem_empty p)

/--
In every orderly run, with keepalives at least every twelve hours, nobody is subscribed to
the topic of a push key of this server that is rejected.
-/
theorem rejected_deserted
    {now conn o : Nat} {ls : List Label} {key : String} {t : Topic}
    (hkeepalive : cfg.keepaliveInterval ≤ matrixRejectAfter)
    (hcond : Along (step cfg) (Orderly cfg) (initial now) ls)
    (hrun : run (step cfg) (initial now) ls = some s)
    (hstep : step cfg s (.answer conn) = some s')
    (hrejected : s'.rejected = s.rejected ++ [key])
    (ht : s.server.topics.get o = some t)
    (hid : cfg.topicFromKey key = some t.id) :
    t.subscribers = [] := by
  have hinv : Inv cfg s :=
    run_invariant_along (fun _ _ _ hinv hl hstep => inv_step hinv hl hstep) (inv_initial now)
      hcond hrun
  simp only [step] at hstep
  split at hstep
  · rename_i p hp
    split at hstep
    · cases hstep
      rw [List.append_cancel_left_eq] at hrejected
      split at hrejected
      · rename_i hidle
        have hmem := (Table.find?_eq_some_iff.mp hp).1
        have hkey : p.pushKey = some key := by
          cases hpushKey : p.pushKey with
          | none =>
              rw [hpushKey] at hrejected
              cases hrejected
          | some key' =>
              rw [hpushKey] at hrejected
              cases hrejected
              rfl
        obtain ⟨t₀, ht₀, hid₀⟩ := hinv.key p hmem key hkey
        obtain ⟨id, hcur⟩ := hinv.held p hmem
        by_contra hne
        have hlookup := hinv.topics.attached o t ht hne
        rw [Option.some.inj (hid.symm.trans hid₀), Registry.key_eq_of_lookup hcur ht₀,
          hcur, Option.some.injEq] at hlookup
        subst hlookup
        rw [State.idle, ht, Option.any_some, decide_eq_true_eq] at hidle
        have hserved := hinv.served _ t ht hne
        omega
      · cases hrejected
    · cases hstep
  · cases hstep

/-- A device leaves its topic, and the application server goes on for half a day. -/
def exampleRejection : List Label :=
  [.server (.lookup 1 ["upAbCdEfGhIjKl"]), .server (.subscribe 1 42), .server (.unsubscribe 1),
    .server (.close 1), .server (.tick (13 * 3600)),
    .publishMatrix 2 9 "https://ntfy.sh/upAbCdEfGhIjKl", .limit 2, .handlePublish 2 true 1]

theorem rejected_deserted_device :
    ∃ s s' t, run (step exampleConfig) (initial 0) exampleRejection = some s ∧
      step exampleConfig s (.answer 2) = some s' ∧
      s'.rejected = ["https://ntfy.sh/upAbCdEfGhIjKl"] ∧
      s.server.topics.get 0 = some t ∧ t.subscribers = [] := by
  have hcond : Along (step exampleConfig) (Orderly exampleConfig) (initial 0)
      exampleRejection := by
    refine ⟨trivial, fun s₁ h₁ => ⟨trivial, fun s₂ h₂ => ⟨trivial, fun s₃ h₃ =>
      ⟨trivial, fun s₄ h₄ => ⟨?_, fun _ _ => ⟨trivial, fun _ _ => ⟨trivial, fun _ _ =>
        ⟨trivial, fun _ _ => trivial⟩⟩⟩⟩⟩⟩⟩⟩
    cases h₁
    cases h₂
    cases h₃
    cases h₄
    intro o t ht hne
    cases o with
    | zero =>
        cases ht
        exact absurd rfl hne
    | succ o =>
        cases ht
  obtain ⟨s, hrun⟩ : ∃ s, run (step exampleConfig) (initial 0) exampleRejection = some s :=
    ⟨_, rfl⟩
  obtain ⟨s', hstep⟩ : ∃ s', step exampleConfig s (.answer 2) = some s' := by
    cases hrun
    exact ⟨_, rfl⟩
  obtain ⟨t, ht, hid⟩ : ∃ t, s.server.topics.get 0 = some t ∧ t.id = "upAbCdEfGhIjKl" := by
    cases hrun
    exact ⟨_, rfl, rfl⟩
  have hrejected : s'.rejected = s.rejected ++ ["https://ntfy.sh/upAbCdEfGhIjKl"] := by
    cases hrun
    cases hstep
    rfl
  refine ⟨s, s', t, hrun, hstep, ?_, ht,
    rejected_deserted (by decide) hcond hrun hstep hrejected ht (by rw [hid]; rfl)⟩
  cases hrun
  exact hrejected

/--
A device that looks up its topic before a manager pass removes it, and subscribes after it,
loses its push key although it is subscribed and its keepalives are on time.
-/
theorem rejected_of_detached :
    ∃ s t, run (step { exampleConfig with keepaliveInterval := 7 * 3600 }) (initial 0)
        [.publish 2 9 "upAbCdEfGhIjKl", .fail 2, .server (.tick (17 * 3600)),
          .server (.lookup 1 ["upAbCdEfGhIjKl"]), .server .managerStart,
          .server (.managerCheck "upAbCdEfGhIjKl"), .server .managerRemove,
          .server .managerEnd, .server (.subscribe 1 42),
          .publish 3 9 "upAbCdEfGhIjKl", .fail 3, .server (.tick (7 * 3600)),
          .server (.keepalive 0), .server (.tick (6 * 3600)),
          .publishMatrix 4 9 "https://ntfy.sh/upAbCdEfGhIjKl", .limit 4,
          .handlePublish 4 true 1, .answer 4] = some s ∧
      s.rejected = ["https://ntfy.sh/upAbCdEfGhIjKl"] ∧
      s.server.topics.get 0 = some t ∧ t.id = "upAbCdEfGhIjKl" ∧
      t.subscribers = [(42, 1)] := by
  exact ⟨_, _, rfl, rfl, rfl, rfl, rfl⟩

end Rejections

end RateVisitors
end Server
end CoopMessenger
