import CoopMessenger.Library.Registry
import CoopMessenger.Library.Runs
import CoopMessenger.Server.Errors

/-!
# Topics and their subscribers

The topic map of the server: lookups that create topics, subscriptions, the
asynchronous fan-out of a publish, and the manager pass that removes stale
topics.  A topic is an object that requests hold by reference; the map says
which object is current for an ID.  Each step is one critical section: a lookup
and the whole manager pass hold the server mutex, everything else holds the
mutex of one topic only.  Within a manager pass the check whether a topic is
stale and its removal are two steps.

**Results.**
* `topicsFromIDs_inv`: lookups return current objects and disturb nobody.
* `inv_step`: what a step preserves if no stale topic is held by a request.
* `subscribers_attached`: along such runs every subscriber is on the current
  object of its topic.
-/

namespace CoopMessenger
namespace Server

open Library

/-- The settings that a topic lookup reads. -/
structure TopicConfig where
  disallowedTopics : List String
  totalTopicLimit : Nat

namespace Topics

/-- `topicExpungeAfter`, in seconds. -/
def topicExpungeAfter : Nat := 16 * 3600

/-- `visitorExpungeAfter`, in seconds. -/
def visitorExpungeAfter : Nat := 24 * 3600

/-- A topic object; `subscribers` maps subscriber IDs to connections. -/
structure Topic where
  id : String
  subscribers : List (Nat × Nat)
  rateVisitor : Option Nat
  lastAccess : Nat
deriving DecidableEq, Repr

/-- A new topic without subscribers. -/
def newTopic
    (id : String)
    (now : Nat) : Topic :=
  ⟨id, [], none, now⟩

/--
A subscribe request: the topics it has looked up and not yet subscribed to, and
its subscriptions as pairs of topic object and subscriber ID.
-/
structure Request where
  conn : Nat
  pending : List Nat
  registered : List (Nat × Nat)
deriving DecidableEq, Repr

/-- A publish that has looked up its topic and not yet fanned out. -/
structure Publication where
  message : Nat
  topic : Nat
deriving DecidableEq, Repr

/-- The manager pass: topics still to check, and the one found stale. -/
structure Manager where
  remaining : List String
  doomed : Option String
deriving DecidableEq, Repr

structure State where
  now : Nat
  topics : Registry Topic.id
  seen : Nat → Nat
  requests : Table Request.conn
  publications : List Publication
  delivered : List (Nat × Nat)
  manager : Option Manager

section Operations

/-- Adds a subscriber. -/
def Topic.subscribe
    (now subscriberID conn : Nat)
    (t : Topic) : Topic :=
  { t with
    subscribers :=
      t.subscribers.filter (fun s => decide (s.1 ≠ subscriberID)) ++
        [(subscriberID, conn)]
    lastAccess := now }

/-- Removes a subscriber. -/
def Topic.unsubscribe
    (subscriberID : Nat)
    (t : Topic) : Topic :=
  { t with
    subscribers := t.subscribers.filter (fun s => decide (s.1 ≠ subscriberID)) }

/-- Sets the last access time. -/
def Topic.keepalive
    (now : Nat)
    (t : Topic) : Topic :=
  { t with lastAccess := now }

/-- Sets the rate visitor. -/
def Topic.setRateVisitor
    (now visitor : Nat)
    (t : Topic) : Topic :=
  { t with rateVisitor := some visitor, lastAccess := now }

@[simp] theorem Topic.subscribe_id
    (now subscriberID conn : Nat) (t : Topic) :
    (t.subscribe now subscriberID conn).id = t.id := by
  rfl

@[simp] theorem Topic.unsubscribe_id
    (subscriberID : Nat) (t : Topic) :
    (t.unsubscribe subscriberID).id = t.id := by
  rfl

@[simp] theorem Topic.keepalive_id
    (now : Nat) (t : Topic) :
    (t.keepalive now).id = t.id := by
  rfl

@[simp] theorem Topic.setRateVisitor_id
    (now visitor : Nat) (t : Topic) :
    (t.setRateVisitor now visitor).id = t.id := by
  rfl

/-- Has the visitor not been seen for long? -/
def State.visitorStale
    (s : State)
    (v : Nat) : Bool :=
  decide (visitorExpungeAfter < s.now - s.seen v)

/-- Is the topic without subscribers, unused, and without an active rate visitor? -/
def State.topicStale
    (s : State)
    (t : Topic) : Bool :=
  !(t.rateVisitor.any (fun v => !s.visitorStale v)) &&
    (t.subscribers.isEmpty &&
      decide (topicExpungeAfter < s.now - t.lastAccess))

/-- Is the current object of the ID stale? -/
def State.stale
    (s : State)
    (id : String) : Bool :=
  ((s.topics.lookup id).bind s.topics.get).any s.topicStale

/-- Looks up topics, creating those that do not exist. -/
def topicsFromIDs
    (cfg : TopicConfig)
    (now : Nat)
    (topics : Registry Topic.id) :
    List String → Registry Topic.id × Except ErrHTTP (List Nat)
  | [] => (topics, .ok [])
  | id :: ids =>
      if id ∈ cfg.disallowedTopics then
        (topics, .error errHTTPBadRequestTopicDisallowed)
      else
        match topics.lookup id with
        | some o =>
            let (topics', r) := topicsFromIDs cfg now topics ids
            (topics', r.map (o :: ·))
        | none =>
            if cfg.totalTopicLimit ≤ topics.addresses.rows.length then
              (topics, .error errHTTPTooManyRequestsLimitTotalTopics)
            else
              let (topics', r) :=
                topicsFromIDs cfg now (topics.create (newTopic id now)) ids
              (topics', r.map (topics.heap.length :: ·))

/-- The steps of the system, with the choices of its environment. -/
inductive Label where
  | tick (seconds : Nat)
  | seen (visitor : Nat)
  | lookup (conn : Nat) (ids : List String)
  | subscribe (conn subscriberID : Nat)
  | unsubscribe (conn : Nat)
  | close (conn : Nat)
  | publish (message : Nat) (id : String)
  | fanOut (message : Nat)
  | keepalive (topic : Nat)
  | setRateVisitor (topic visitor : Nat)
  | managerStart
  | managerCheck (id : String)
  | managerRemove
  | managerEnd
deriving DecidableEq, Repr

/-- One step; `none` if it is not enabled. -/
def step
    (cfg : TopicConfig)
    (s : State) : Label → Option State
  | .tick seconds => some { s with now := s.now + seconds }
  | .seen visitor =>
      some { s with seen := Function.update s.seen visitor s.now }
  | .lookup conn ids =>
      if s.manager.isSome then
        none
      else
        match topicsFromIDs cfg s.now s.topics ids with
        | (topics, .error _) => some { s with topics }
        | (topics, .ok pending) =>
            (s.requests.insert? ⟨conn, pending, []⟩).map
              (fun requests => { s with topics, requests })
  | .subscribe conn subscriberID =>
      match s.requests.find? conn with
      | some ⟨_, o :: pending, registered⟩ =>
          some
            { s with
              topics :=
                s.topics.update o (Topic.subscribe s.now subscriberID conn)
                  (Topic.subscribe_id s.now subscriberID conn)
              requests :=
                s.requests.modify
                  (fun r => if r.conn = conn then
                    ⟨r.conn, pending, registered ++ [(o, subscriberID)]⟩
                    else r)
                  (by intro r; split <;> rfl) }
      | _ => none
  | .unsubscribe conn =>
      match s.requests.find? conn with
      | some ⟨_, [], (o, subscriberID) :: registered⟩ =>
          some
            { s with
              topics :=
                s.topics.update o (Topic.unsubscribe subscriberID)
                  (Topic.unsubscribe_id subscriberID)
              requests :=
                s.requests.modify
                  (fun r => if r.conn = conn then
                    ⟨r.conn, [], registered⟩ else r)
                  (by intro r; split <;> rfl) }
      | _ => none
  | .close conn =>
      match s.requests.find? conn with
      | some ⟨_, _, []⟩ =>
          some
            { s with
              requests := s.requests.delete (fun r => decide (r.conn = conn)) }
      | _ => none
  | .publish message id =>
      if s.manager.isSome then
        none
      else
        let r := topicsFromIDs cfg s.now s.topics [id]
        some
          { s with
            topics := r.1
            publications :=
              match r.2 with
              | .ok [o] => s.publications ++ [⟨message, o⟩]
              | _ => s.publications }
  | .fanOut message =>
      match s.publications.find? (fun p => decide (p.message = message)) with
      | none => none
      | some p =>
          let subscribers := ((s.topics.get p.topic).map Topic.subscribers).getD []
          some
            { s with
              publications := s.publications.erase p
              delivered :=
                s.delivered ++ subscribers.map (fun sub => (message, sub.2)) }
  | .keepalive o =>
      some
        { s with
          topics :=
            s.topics.update o (Topic.keepalive s.now)
              (Topic.keepalive_id s.now) }
  | .setRateVisitor o visitor =>
      some
        { s with
          topics :=
            s.topics.update o (Topic.setRateVisitor s.now visitor)
              (Topic.setRateVisitor_id s.now visitor) }
  | .managerStart =>
      match s.manager with
      | some _ => none
      | none =>
          some
            { s with
              manager := some ⟨s.topics.addresses.rows.map Prod.fst, none⟩ }
  | .managerCheck id =>
      match s.manager with
      | some ⟨remaining, none⟩ =>
          if id ∈ remaining then
            some
              { s with
                manager :=
                  some ⟨remaining.erase id, if s.stale id then some id else none⟩ }
          else
            none
      | _ => none
  | .managerRemove =>
      match s.manager with
      | some ⟨remaining, some id⟩ =>
          some
            { s with
              topics := s.topics.remove id
              manager := some ⟨remaining, none⟩ }
      | _ => none
  | .managerEnd =>
      match s.manager with
      | some ⟨[], none⟩ => some { s with manager := none }
      | _ => none

end Operations

section Invariant

/-- Every subscriber is registered on the current object of its topic. -/
def Attached (topics : Registry Topic.id) : Prop :=
  ∀ o t, topics.get o = some t → t.subscribers ≠ [] →
    topics.lookup t.id = some o

/-- The object is the current one of its ID. -/
def Current
    (topics : Registry Topic.id)
    (o : Nat) : Prop :=
  ∃ id, topics.lookup id = some o

/-- No subscriber is registered on the object. -/
def Deserted
    (topics : Registry Topic.id)
    (o : Nat) : Prop :=
  ∀ t, topics.get o = some t → t.subscribers = []

structure Inv (s : State) : Prop where
  attached : Attached s.topics
  held : ∀ r ∈ s.requests, ∀ o ∈ r.pending, Current s.topics o
  doomed : ∀ m id o, s.manager = some m → m.doomed = some id →
    s.topics.lookup id = some o →
    Deserted s.topics o ∧ ∀ r ∈ s.requests, o ∉ r.pending

/--
The manager finds no topic stale that a subscribe request has looked up and not
yet subscribed to.
-/
def NotHeld
    (s : State) : Label → Prop
  | .managerCheck id =>
      s.stale id = true → ∀ o, s.topics.lookup id = some o →
        ∀ r ∈ s.requests, o ∉ r.pending
  | _ => True

variable {topics : Registry Topic.id}

/-- An attached object without its key being current has no subscribers. -/
theorem Attached.deserted
    (h : Attached topics)
    {o : Nat}
    (hcur : ¬ Current topics o) :
    Deserted topics o := by
  intro t ht
  by_contra hne
  exact hcur ⟨t.id, h o t ht hne⟩

/-- Creating a topic for a free ID keeps subscribers attached. -/
theorem Attached.create
    (h : Attached topics)
    {id : String}
    (now : Nat)
    (hfree : topics.lookup id = none) :
    Attached (topics.create (newTopic id now)) := by
  intro o t ht hne
  rw [Registry.get_create hfree] at ht
  split at ht
  · cases ht
    exact absurd rfl hne
  · have hold := h o t ht hne
    rw [Registry.lookup_create hfree]
    split
    case isTrue hid =>
      rw [hid] at hold
      exact absurd (hold.symm.trans hfree) (by simp)
    case isFalse =>
      exact hold

theorem Current.create
    {id : String} {now o : Nat}
    (hfree : topics.lookup id = none)
    (h : Current topics o) :
    Current (topics.create (newTopic id now)) o := by
  obtain ⟨id', hid'⟩ := h
  refine ⟨id', ?_⟩
  rw [Registry.lookup_create hfree]
  split
  case isTrue hid =>
    subst hid
    exact absurd (hid'.symm.trans hfree) (by simp)
  case isFalse =>
    exact hid'

theorem except_map_eq_ok
    {ε α β : Type} {r : Except ε α} {f : α → β} {b : β}
    (h : r.map f = .ok b) :
    ∃ a, r = .ok a ∧ f a = b := by
  cases r with
  | error e =>
      cases h
  | ok a =>
      cases h
      exact ⟨a, rfl, rfl⟩

/-- What a lookup of topics guarantees. -/
theorem topicsFromIDs_inv
    (cfg : TopicConfig) (now : Nat) (ids : List String)
    (h : Attached topics) :
    Attached (topicsFromIDs cfg now topics ids).1 ∧
    (∀ o, Current topics o →
      Current (topicsFromIDs cfg now topics ids).1 o) ∧
    ∀ os, (topicsFromIDs cfg now topics ids).2 = .ok os →
      ∀ o ∈ os, Current (topicsFromIDs cfg now topics ids).1 o := by
  induction ids generalizing topics with
  | nil =>
      refine ⟨h, fun o ho => ho, ?_⟩
      intro os hos o ho
      cases hos
      cases ho
  | cons id ids ih =>
      unfold topicsFromIDs
      split
      · refine ⟨h, fun o ho => ho, ?_⟩
        intro os hos
        cases hos
      · split
        case h_1 o₁ ho₁ =>
          obtain ⟨hatt, hcur, hres⟩ := ih h
          refine ⟨hatt, hcur, ?_⟩
          intro os hos o ho
          obtain ⟨rest, hrest, rfl⟩ := except_map_eq_ok hos
          rcases List.mem_cons.mp ho with rfl | ho
          · exact hcur o ⟨id, ho₁⟩
          · exact hres rest hrest o ho
        case h_2 hfree =>
          split
          · refine ⟨h, fun o ho => ho, ?_⟩
            intro os hos
            cases hos
          · obtain ⟨hatt, hcur, hres⟩ := ih (h.create now hfree)
            refine ⟨hatt, fun o ho => hcur o (ho.create hfree), ?_⟩
            intro os hos o ho
            obtain ⟨rest, hrest, rfl⟩ := except_map_eq_ok hos
            rcases List.mem_cons.mp ho with rfl | ho
            · refine hcur _ ⟨id, ?_⟩
              rw [Registry.lookup_create hfree]
              exact if_pos rfl
            · exact hres rest hrest o ho

/-- A change of one object keeps subscribers attached if the object is current or
the change adds no first subscriber. -/
theorem Attached.update
    (h : Attached topics)
    {o : Nat} {f : Topic → Topic}
    (hf : ∀ t, (f t).id = t.id)
    (hsub : Current topics o ∨
      ∀ t, t.subscribers = [] → (f t).subscribers = []) :
    Attached (topics.update o f hf) := by
  intro p t ht hne
  rw [Registry.get_update] at ht
  rw [Registry.lookup_update]
  split at ht
  case isTrue hop =>
    subst hop
    obtain ⟨t₀, ht₀, rfl⟩ := Option.map_eq_some_iff.mp ht
    rw [hf]
    rcases hsub with ⟨id, hid⟩ | hsub
    · rw [Registry.key_eq_of_lookup hid ht₀]
      exact hid
    · exact h o t₀ ht₀ (fun hempty => hne (hsub t₀ hempty))
  case isFalse =>
    exact h p t ht hne

theorem Deserted.update
    {o p : Nat} {f : Topic → Topic}
    (hf : ∀ t, (f t).id = t.id)
    (h : Deserted topics p)
    (hsub : o ≠ p ∨ ∀ t, t.subscribers = [] → (f t).subscribers = []) :
    Deserted (topics.update o f hf) p := by
  intro t ht
  rw [Registry.get_update] at ht
  split at ht
  case isTrue hop =>
    obtain ⟨t₀, ht₀, rfl⟩ := Option.map_eq_some_iff.mp ht
    exact hsub.resolve_left (fun hne => hne hop) t₀ (h t₀ ht₀)
  case isFalse =>
    exact h t ht

variable {s s' : State}

/-- The invariant reads the topics, the requests and the manager pass only. -/
theorem Inv.congr
    (h : Inv s)
    (htopics : s'.topics = s.topics)
    (hrequests : s'.requests = s.requests)
    (hmanager : s'.manager = s.manager) :
    Inv s' := by
  refine ⟨?_, ?_, ?_⟩
  · rw [htopics]
    exact h.attached
  · rw [htopics, hrequests]
    exact h.held
  · rw [htopics, hrequests, hmanager]
    exact h.doomed

/--
A change of one topic object, by a request that holds it or without adding a
first subscriber, while requests at most let go of topics.
-/
theorem Inv.update
    (h : Inv s)
    {o : Nat} {f : Topic → Topic}
    (hf : ∀ t, (f t).id = t.id)
    (htopics : s'.topics = s.topics.update o f hf)
    (hmanager : s'.manager = s.manager)
    (hrequests : ∀ r' ∈ s'.requests, ∃ r ∈ s.requests, r'.pending ⊆ r.pending)
    (hsub : (∃ r ∈ s.requests, o ∈ r.pending) ∨
      ∀ t, t.subscribers = [] → (f t).subscribers = []) :
    Inv s' := by
  refine ⟨?_, ?_, ?_⟩
  · rw [htopics]
    refine h.attached.update hf ?_
    rcases hsub with ⟨r, hr, ho⟩ | hsub
    · exact Or.inl (h.held r hr o ho)
    · exact Or.inr hsub
  · rw [htopics]
    intro r' hr' p hp
    obtain ⟨r, hr, hle⟩ := hrequests r' hr'
    exact h.held r hr p (hle hp)
  · rw [htopics, hmanager]
    intro m id p hm hid hp
    obtain ⟨hdes, hfree⟩ := h.doomed m id p hm hid hp
    refine ⟨hdes.update hf ?_, ?_⟩
    · rcases hsub with ⟨r, hr, ho⟩ | hsub
      · left
        rintro rfl
        exact hfree r hr ho
      · exact Or.inr hsub
    · intro r' hr' hp'
      obtain ⟨r, hr, hle⟩ := hrequests r' hr'
      exact hfree r hr (hle hp')

/-- A lookup, by a request that is added or by none. -/
theorem Inv.lookup
    (h : Inv s)
    {cfg : TopicConfig} {ids : List String}
    (htopics : s'.topics = (topicsFromIDs cfg s.now s.topics ids).1)
    (hmanager : s'.manager = none)
    (hrequests : ∀ r ∈ s'.requests, r ∈ s.requests ∨
      (topicsFromIDs cfg s.now s.topics ids).2 = .ok r.pending) :
    Inv s' := by
  obtain ⟨hatt, hcur, hres⟩ :=
    topicsFromIDs_inv cfg s.now ids h.attached
  refine ⟨htopics ▸ hatt, ?_, ?_⟩
  · rw [htopics]
    intro r hr o ho
    rcases hrequests r hr with hold | hnew
    · exact hcur o (h.held r hold o ho)
    · exact hres r.pending hnew o ho
  · intro m id o hm
    rw [hmanager] at hm
    cases hm

/-- One step keeps the invariant, unless the manager removes a held topic. -/
theorem inv_step
    {cfg : TopicConfig} {l : Label}
    (h : Inv s)
    (hcond : NotHeld s l)
    (hstep : step cfg s l = some s') :
    Inv s' := by
  cases l with
  | tick seconds =>
      cases hstep
      exact h.congr rfl rfl rfl
  | seen visitor =>
      cases hstep
      exact h.congr rfl rfl rfl
  | lookup conn ids =>
      simp only [step] at hstep
      split at hstep
      · cases hstep
      · rename_i hfree
        rw [Option.not_isSome_iff_eq_none] at hfree
        split at hstep
        · rename_i topics e heq
          cases hstep
          exact h.lookup (by rw [heq]) hfree (fun r hr => Or.inl hr)
        · rename_i topics pending heq
          obtain ⟨requests, hins, rfl⟩ := Option.map_eq_some_iff.mp hstep
          refine h.lookup (by rw [heq]) hfree ?_
          intro r hr
          rw [Table.mem_def, (Table.insert?_eq_some_iff.mp hins).2,
            List.mem_append, List.mem_singleton] at hr
          rcases hr with hr | rfl
          · exact Or.inl hr
          · exact Or.inr (by rw [heq])
  | subscribe conn subscriberID =>
      simp only [step] at hstep
      split at hstep
      · rename_i _ o pending registered hfind
        obtain ⟨hmem, hconn⟩ := Table.find?_eq_some_iff.mp hfind
        cases hstep
        refine h.update (Topic.subscribe_id s.now subscriberID conn) rfl rfl ?_
          (Or.inl ⟨_, hmem, List.mem_cons_self⟩)
        intro r' hr'
        rw [Table.mem_modify_iff] at hr'
        obtain ⟨r, hr, rfl⟩ := hr'
        split
        · exact ⟨_, hmem, List.subset_cons_self _ _⟩
        · exact ⟨r, hr, List.Subset.refl _⟩
      · cases hstep
  | unsubscribe conn =>
      simp only [step] at hstep
      split at hstep
      · rename_i _ o subscriberID registered hfind
        cases hstep
        refine h.update (Topic.unsubscribe_id subscriberID) rfl rfl ?_
          (Or.inr ?_)
        · intro r' hr'
          rw [Table.mem_modify_iff] at hr'
          obtain ⟨r, hr, rfl⟩ := hr'
          split
          · exact ⟨r, hr, List.nil_subset _⟩
          · exact ⟨r, hr, List.Subset.refl _⟩
        · intro t ht
          simp [Topic.unsubscribe, ht]
      · cases hstep
  | close conn =>
      simp only [step] at hstep
      split at hstep
      · cases hstep
        refine ⟨h.attached, ?_, ?_⟩
        · intro r hr
          exact h.held r (Table.mem_delete_iff.mp hr).1
        · intro m id o hm hid ho
          obtain ⟨hdes, hfree⟩ := h.doomed m id o hm hid ho
          exact ⟨hdes, fun r hr => hfree r (Table.mem_delete_iff.mp hr).1⟩
      · cases hstep
  | publish message id =>
      simp only [step] at hstep
      split at hstep
      · cases hstep
      · rename_i hfree
        rw [Option.not_isSome_iff_eq_none] at hfree
        cases hstep
        exact h.lookup rfl hfree (fun r hr => Or.inl hr)
  | fanOut message =>
      simp only [step] at hstep
      split at hstep
      · cases hstep
      · cases hstep
        exact h.congr rfl rfl rfl
  | keepalive o =>
      cases hstep
      exact h.update (Topic.keepalive_id s.now) rfl rfl
        (fun r hr => ⟨r, hr, List.Subset.refl _⟩) (Or.inr fun t ht => ht)
  | setRateVisitor o visitor =>
      cases hstep
      exact h.update (Topic.setRateVisitor_id s.now visitor) rfl rfl
        (fun r hr => ⟨r, hr, List.Subset.refl _⟩) (Or.inr fun t ht => ht)
  | managerStart =>
      simp only [step] at hstep
      split at hstep
      · cases hstep
      · cases hstep
        refine ⟨h.attached, h.held, ?_⟩
        intro m id o hm hid
        cases hm
        cases hid
  | managerCheck id =>
      simp only [step] at hstep
      split at hstep
      · split at hstep
        · cases hstep
          refine ⟨h.attached, h.held, ?_⟩
          intro m id' o hm hid ho
          cases hm
          dsimp only at hid
          split at hid
          case isTrue hstale =>
            cases hid
            refine ⟨?_, hcond hstale o ho⟩
            intro t ht
            have hlook : s.topics.lookup id = some o := ho
            have hget : s.topics.get o = some t := ht
            simp only [State.stale, hlook, Option.bind_some, hget,
              Option.any_some, State.topicStale, Bool.and_eq_true,
              List.isEmpty_iff] at hstale
            exact hstale.2.1
          case isFalse =>
            cases hid
        · cases hstep
      · cases hstep
  | managerRemove =>
      simp only [step] at hstep
      split at hstep
      · rename_i remaining id hm
        cases hstep
        refine ⟨?_, ?_, ?_⟩
        · intro o t ht hne
          rw [Registry.get_remove] at ht
          have hold := h.attached o t ht hne
          rw [Registry.lookup_remove, if_neg]
          · exact hold
          · intro hid
            rw [hid] at hold
            exact hne ((h.doomed _ id o hm rfl hold).1 t ht)
        · intro r hr o ho
          obtain ⟨id', hid'⟩ := h.held r hr o ho
          refine ⟨id', ?_⟩
          rw [Registry.lookup_remove, if_neg]
          · exact hid'
          · rintro rfl
            exact (h.doomed _ id' o hm rfl hid').2 r hr ho
        · intro m id' o hm' hid'
          cases hm'
          cases hid'
      · cases hstep
  | managerEnd =>
      simp only [step] at hstep
      split at hstep
      · cases hstep
        refine ⟨h.attached, h.held, ?_⟩
        intro m id o hm
        cases hm
      · cases hstep

/-- The server as it starts, at a given time. -/
def initial (now : Nat) : State where
  now
  topics := .empty
  seen := fun _ => now
  requests := .empty
  publications := []
  delivered := []
  manager := none

theorem inv_initial
    (now : Nat) :
    Inv (initial now) := by
  refine ⟨?_, ?_, ?_⟩
  · intro o t ht
    cases ht
  · intro r hr
    exact absurd hr (Table.not_mem_empty r)
  · intro m id o hm
    cases hm

/--
In every run in which the manager finds no topic stale that a subscribe request
has looked up and not yet subscribed to, every subscriber is registered on the
current object of its topic, in every state reached.
-/
theorem subscribers_attached
    {cfg : TopicConfig} {now : Nat} {ls : List Label}
    (hcond : Along (step cfg) NotHeld (initial now) ls)
    (hrun : run (step cfg) (initial now) ls = some s) :
    Attached s.topics :=
  (run_invariant_along (fun _ _ _ hinv hl hstep => inv_step hinv hl hstep)
    (inv_initial now) hcond hrun).attached

/-- No topic is disallowed, and a hundred may exist. -/
def exampleConfig : TopicConfig :=
  ⟨[], 100⟩

/-- A subscription, and a manager pass over its topic much later. -/
def examplePass : List Label :=
  [.lookup 7 ["t"], .subscribe 7 42, .tick (17 * 3600), .managerStart,
    .managerCheck "t", .managerEnd]

/-- A subscriber who comes before the manager pass is attached. -/
theorem attached_after_pass :
    ∃ s, run (step exampleConfig) (initial 0) examplePass = some s ∧
      Attached s.topics := by
  have hfree : Along (step exampleConfig) NotHeld (initial 0) examplePass := by
    refine ⟨trivial, fun s₁ h₁ => ⟨trivial, fun s₂ h₂ => ⟨trivial, fun s₃ h₃ =>
      ⟨trivial, fun s₄ h₄ =>
        ⟨?_, fun _ _ => ⟨trivial, fun _ _ => trivial⟩⟩⟩⟩⟩⟩
    cases h₁
    cases h₂
    cases h₃
    cases h₄
    intro hstale
    exact absurd hstale (by decide)
  obtain ⟨s, hrun⟩ : ∃ s, run (step exampleConfig) (initial 0) examplePass =
      some s := ⟨_, rfl⟩
  exact ⟨s, hrun, subscribers_attached hfree hrun⟩

/--
A manager pass between lookup and subscription leaves the subscriber on an
object that is not current, and the next message does not reach it.
-/
theorem subscriber_detached :
    ∃ s, run (step exampleConfig) (initial 0)
        [.publish 1 "t", .fanOut 1, .tick (17 * 3600), .lookup 7 ["t"],
          .managerStart, .managerCheck "t", .managerRemove, .managerEnd,
          .subscribe 7 42, .publish 2 "t", .fanOut 2] = some s ∧
      ¬ Attached s.topics ∧ (2, 7) ∉ s.delivered := by
  refine ⟨_, rfl, ?_, by decide⟩
  intro h
  have hlookup := h 0 _ rfl (by decide)
  exact absurd hlookup (by decide)

/-- The next publish reaches every attached subscriber. -/
theorem publish_reaches
    {cfg : TopicConfig} {o subscriberID conn message : Nat} {t : Topic}
    (h : Attached s.topics)
    (hget : s.topics.get o = some t)
    (hsub : (subscriberID, conn) ∈ t.subscribers)
    (hallowed : t.id ∉ cfg.disallowedTopics)
    (hmanager : s.manager = none)
    (hnew : s.publications = []) :
    ∃ s', run (step cfg) s [.publish message t.id, .fanOut message] = some s' ∧
      (message, conn) ∈ s'.delivered := by
  have hlookup : s.topics.lookup t.id = some o :=
    h o t hget (List.ne_nil_of_mem hsub)
  have hids : topicsFromIDs cfg s.now s.topics [t.id] =
      (s.topics, .ok [o]) := by
    simp [topicsFromIDs, hallowed, hlookup, Except.map]
  refine ⟨_, run_cons_eq_some.mpr ⟨_, by simp [step, hmanager, hids]; rfl,
    run_cons_eq_some.mpr ⟨_, by simp [step, hnew]; rfl, rfl⟩⟩, ?_⟩
  simp only [List.mem_append, List.mem_map]
  right
  refine ⟨(subscriberID, conn), ?_, rfl⟩
  simp [hget, hsub]

end Invariant

end Topics

end Server
end CoopMessenger
