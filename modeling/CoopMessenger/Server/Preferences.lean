import CoopMessenger.Library.Runs
import CoopMessenger.Library.Table
import Mathlib.Data.List.Nodup
import Mathlib.Logic.Function.Basic

/-!
# Preferences

The stored preferences of users, and the requests that change them: settings and
subscriptions in `server_account.go`, `addSubscriptionsForUser`, and the handlers of
invites and join requests.  Each of them reads the whole preferences into an object,
changes this object, and writes all of it back.  The first kind of handler takes the
object from its visitor, where another request may have put it.

**Results.**
* `Change.apply_of_check`: what a handler does to its copy is the effect of its
  change.
* `Serialized.step`: the stored preferences are what the successful changes make of
  them, one after the other.
* `no_lost_preferences`: this holds in every run in which no request changes a copy that
  is out of date or that another request is changing.
-/

namespace CoopMessenger
namespace Server

open Library

namespace Preferences

section Model

structure Subscription where
  baseURL : String
  topic : String
  displayName : Option String
deriving DecidableEq, Repr

structure NotificationPrefs where
  sound : Option String
  minPriority : Option Int
  deleteAfter : Option Int
deriving DecidableEq, Repr

structure Prefs where
  language : Option String
  notification : Option NotificationPrefs
  subscriptions : List Subscription
deriving DecidableEq, Repr

def Subscription.key (sub : Subscription) : String × String :=
  (sub.baseURL, sub.topic)

def Prefs.keys (p : Prefs) : List (String × String) :=
  p.subscriptions.map Subscription.key

/--
What a request changes.  `addSubscriptions` is one call of `addSubscriptionsForUser`, or
the same for the topic of an approved join request.
-/
inductive Change where
  | settings (language : Option String) (notification : Option NotificationPrefs)
  | addSubscription (sub : Subscription)
  | changeSubscription (sub : Subscription)
  | deleteSubscription (baseURL topic : String)
  | join (topics : List String)
  | addSubscriptions (topics : List String)
  | redeem (topics : List String)
deriving DecidableEq, Repr

/-- What a handler does to its copy. -/
inductive Edit where
  | set (language : Option String) (notification : Option NotificationPrefs)
  | append (subs : List Subscription)
  | rename (sub : Subscription)
  | replace (subs : List Subscription)
deriving DecidableEq, Repr

inductive Outcome where
  | failed
  | done
  | edit (e : Edit)
deriving DecidableEq, Repr

/-- The fields that are given replace the old ones. -/
def mergeNotification
    (new old : Option NotificationPrefs) : Option NotificationPrefs :=
  match new with
  | none => old
  | some n =>
      let o := old.getD ⟨none, none, none⟩
      some ⟨n.sound.or o.sound, n.minPriority.or o.minPriority,
        n.deleteAfter.or o.deleteAfter⟩

/-- The first subscription of that key gets another name. -/
def renameFirst
    (sub : Subscription) :
    List Subscription → List Subscription
  | [] => []
  | q :: rest =>
      if q.key = sub.key then
        { q with displayName := sub.displayName } :: rest
      else
        q :: renameFirst sub rest

def Edit.apply
    (e : Edit)
    (p : Prefs) : Prefs :=
  match e with
  | .set language notification =>
      { p with
        language := language.or p.language
        notification := mergeNotification notification p.notification }
  | .append subs => { p with subscriptions := p.subscriptions ++ subs }
  | .rename sub => { p with subscriptions := renameFirst sub p.subscriptions }
  | .replace subs => { p with subscriptions := subs }

/-- The subscriptions of the topics that are not there yet. -/
def missing
    (baseURL : String) :
    List Subscription → List String → List Subscription
  | _, [] => []
  | subs, topic :: rest =>
      if (baseURL, topic) ∈ subs.map Subscription.key then
        missing baseURL subs rest
      else
        ⟨baseURL, topic, none⟩ ::
          missing baseURL (subs ++ [⟨baseURL, topic, none⟩]) rest

/-- How the handlers look at their copy. -/
def Change.check
    (baseURL : String)
    (c : Change)
    (p : Prefs) : Outcome :=
  match c with
  | .settings language notification => .edit (.set language notification)
  | .addSubscription sub =>
      if sub.key ∈ p.keys then .failed else .edit (.append [sub])
  | .changeSubscription sub =>
      if sub.key ∈ p.keys then .edit (.rename sub) else .failed
  | .deleteSubscription baseURL topic =>
      let subs := p.subscriptions.filter (fun q => !decide (q.key = (baseURL, topic)))
      if subs.length < p.subscriptions.length then .edit (.replace subs) else .done
  | .join topics =>
      if topics.isEmpty then
        .done
      else
        .edit (.append (missing baseURL p.subscriptions topics))
  | .addSubscriptions topics =>
      let added := missing baseURL p.subscriptions topics
      if added.isEmpty then .done else .edit (.append added)
  | .redeem topics =>
      if topics.isEmpty then
        .done
      else
        .edit (.append (topics.map (fun topic => ⟨baseURL, topic, none⟩)))

/-- Does the handler read the user itself? -/
def Change.readsUser : Change → Bool
  | .addSubscriptions _ | .redeem _ => true
  | _ => false

/-- A user in memory. -/
structure UserObject where
  user : String
  prefs : Prefs
deriving DecidableEq, Repr

/--
How far a request is: it has read its user, has set it in its visitor, has taken an
object, has looked at it, has changed it, or has turned it into what it will write.
-/
inductive Phase where
  | authenticated (object : Nat)
  | visiting
  | loaded (object : Nat)
  | checked (object : Nat) (edit : Edit)
  | changed (object : Nat)
  | marshalled (user : String) (prefs : Prefs)
deriving DecidableEq, Repr

structure Request where
  id : Nat
  user : String
  visitor : String
  change : Change
  phase : Phase
deriving DecidableEq, Repr

/--
What is stored for each user, the objects, the object of each visitor, and the requests
in flight.  The changes that have returned success are only recorded.
-/
structure State where
  stored : String → Prefs
  objects : Nat → UserObject
  next : Nat
  visitors : String → Option Nat
  requests : Table Request.id
  log : List (String × Change)

def State.setPhase
    (s : State)
    (id : Nat)
    (phase : Phase) : State :=
  { s with
    requests :=
      s.requests.modify (fun r => if r.id = id then { r with phase } else r)
        (by intro r; split <;> rfl) }

def State.endRequest
    (s : State)
    (id : Nat) : State :=
  { s with requests := s.requests.delete (fun r => decide (r.id = id)) }

/-- The request has returned success. -/
def State.succeed
    (s : State)
    (r : Request) : State :=
  { s.endRequest r.id with log := s.log ++ [(r.user, r.change)] }

/-- The user is read. -/
def State.readUser
    (s : State)
    (user : String) : State :=
  { s with
    objects := Function.update s.objects s.next ⟨user, s.stored user⟩
    next := s.next + 1 }

def State.setVisitor
    (s : State)
    (visitor : String)
    (object : Option Nat) : State :=
  { s with visitors := Function.update s.visitors visitor object }

/-- `visit` is any other request of the visitor, with a user or without. -/
inductive Label where
  | authenticate (id : Nat) (user visitor : String) (change : Change)
  | setUser (id : Nat)
  | visit (visitor : String) (user : Option String)
  | load (id : Nat)
  | read (id : Nat) (user : String) (change : Change)
  | check (id : Nat)
  | assign (id : Nat)
  | marshal (id : Nat)
  | write (id : Nat) (fails : Bool)
deriving Repr

/-- A step of a request in flight. -/
def stepRequest
    (baseURL : String)
    (s : State)
    (r : Request) : Label → Option State
  | .setUser _ =>
      match r.phase with
      | .authenticated o =>
          some ((s.setVisitor r.visitor (some o)).setPhase r.id .visiting)
      | _ => none
  | .load _ =>
      match r.phase with
      | .visiting =>
          match s.visitors r.visitor with
          | none => some (s.endRequest r.id)
          | some o => some (s.setPhase r.id (.loaded o))
      | _ => none
  | .check _ =>
      match r.phase with
      | .loaded o =>
          match r.change.check baseURL (s.objects o).prefs with
          | .failed => some (s.endRequest r.id)
          | .done => some (s.succeed r)
          | .edit e => some (s.setPhase r.id (.checked o e))
      | _ => none
  | .assign _ =>
      match r.phase with
      | .checked o e =>
          some
            ({ s with
                objects :=
                  Function.update s.objects o
                    { s.objects o with prefs := e.apply (s.objects o).prefs } }.setPhase
              r.id (.changed o))
      | _ => none
  | .marshal _ =>
      match r.phase with
      | .changed o =>
          some (s.setPhase r.id (.marshalled (s.objects o).user (s.objects o).prefs))
      | _ => none
  | .write _ fails =>
      match r.phase with
      | .marshalled user prefs =>
          if fails then
            some (s.endRequest r.id)
          else
            some ({ s with stored := Function.update s.stored user prefs }.succeed r)
      | _ => none
  | _ => none

/-- One step; `none` if it is not enabled. -/
def step
    (baseURL : String)
    (s : State)
    (l : Label) : Option State :=
  match l with
  | .authenticate id user visitor change =>
      if change.readsUser then
        none
      else
        (s.requests.insert? ⟨id, user, visitor, change, .authenticated s.next⟩).map
          (fun requests => { s.readUser user with requests })
  | .visit visitor none => some (s.setVisitor visitor none)
  | .visit visitor (some user) =>
      some ((s.readUser user).setVisitor visitor (some s.next))
  | .read id user change =>
      if change.readsUser then
        (s.requests.insert? ⟨id, user, "", change, .loaded s.next⟩).map
          (fun requests => { s.readUser user with requests })
      else
        none
  | .setUser id | .load id | .check id | .assign id | .marshal id | .write id _ =>
      (s.requests.find? id).bind (fun r => stepRequest baseURL s r l)

/-- A server that has just started. -/
def initial (stored : String → Prefs) : State where
  stored
  objects := fun _ => ⟨"", ⟨none, none, []⟩⟩
  next := 0
  visitors := fun _ => none
  requests := .empty
  log := []

end Model

section Spec

/-- The subscriptions with those of the topics that are missing. -/
def withTopics
    (baseURL : String)
    (topics : List String)
    (subs : List Subscription) : List Subscription :=
  topics.foldl
    (fun subs topic =>
      if (baseURL, topic) ∈ subs.map Subscription.key then
        subs
      else
        subs ++ [⟨baseURL, topic, none⟩])
    subs

/-- What a change is meant to do. -/
def Change.effect
    (baseURL : String)
    (c : Change)
    (p : Prefs) : Prefs :=
  match c with
  | .settings language notification =>
      { p with
        language := language.or p.language
        notification := mergeNotification notification p.notification }
  | .addSubscription sub => { p with subscriptions := p.subscriptions ++ [sub] }
  | .changeSubscription sub =>
      { p with
        subscriptions :=
          p.subscriptions.map (fun q =>
            if q.key = sub.key then { q with displayName := sub.displayName } else q) }
  | .deleteSubscription baseURL topic =>
      { p with
        subscriptions :=
          p.subscriptions.filter (fun q => !decide (q.key = (baseURL, topic))) }
  | .join topics | .addSubscriptions topics | .redeem topics =>
      { p with subscriptions := withTopics baseURL topics p.subscriptions }

/-- The successful changes of a user, one after the other. -/
def replay
    (baseURL : String)
    (log : List (String × Change))
    (user : String)
    (p : Prefs) : Prefs :=
  log.foldl (fun p e => if e.1 = user then e.2.effect baseURL p else p) p

/-- A redeemed invite lists no topic twice, and none that the user has. -/
def Change.Fits
    (baseURL : String)
    (c : Change)
    (p : Prefs) : Prop :=
  match c with
  | .redeem topics => topics.Nodup ∧ ∀ topic ∈ topics, (baseURL, topic) ∉ p.keys
  | _ => True

instance Change.decidableFits
    (baseURL : String) (c : Change) (p : Prefs) :
    Decidable (c.Fits baseURL p) := by
  unfold Change.Fits
  split <;> infer_instance

/-- Is the request between its look at the copy and its end? -/
def Request.isChanging (r : Request) : Bool :=
  match r.phase with
  | .checked _ _ | .changed _ | .marshalled _ _ => true
  | _ => false

/--
The copy is of the right user and up to date, and no other request is changing the
preferences of this user.
-/
def MayChange
    (baseURL : String)
    (s : State)
    (r : Request)
    (o : Nat) : Prop :=
  s.objects o = ⟨r.user, s.stored r.user⟩ ∧
    (∀ q ∈ s.requests, q.isChanging = true → q.user ≠ r.user) ∧
    r.change.Fits baseURL (s.stored r.user)

instance decidableMayChange
    (baseURL : String) (s : State) (r : Request) (o : Nat) :
    Decidable (MayChange baseURL s r o) := by
  unfold MayChange
  infer_instance

/-- If the copy of the request is going to be changed, it may be. -/
def HasOwnCopy
    (baseURL : String)
    (s : State)
    (r : Request) : Prop :=
  match r.phase with
  | .loaded o =>
      r.change.check baseURL (s.objects o).prefs ≠ .failed → MayChange baseURL s r o
  | _ => True

instance decidableHasOwnCopy
    (baseURL : String) (s : State) (r : Request) :
    Decidable (HasOwnCopy baseURL s r) := by
  unfold HasOwnCopy
  split <;> infer_instance

def Serial
    (baseURL : String)
    (s : State) : Label → Prop
  | .check id => ∀ r ∈ s.requests, r.id = id → HasOwnCopy baseURL s r
  | _ => True

instance decidableSerial
    (baseURL : String) (s : State) (l : Label) :
    Decidable (Serial baseURL s l) := by
  unfold Serial
  split <;> infer_instance

end Spec

section Effects

variable {baseURL : String}
variable {p : Prefs}

/-- With distinct keys, the first subscription of a key is the only one. -/
theorem renameFirst_eq_map
    {sub : Subscription} {subs : List Subscription}
    (h : (subs.map Subscription.key).Nodup) :
    renameFirst sub subs =
      subs.map (fun q =>
        if q.key = sub.key then { q with displayName := sub.displayName } else q) := by
  induction subs with
  | nil =>
      rfl
  | cons q rest ih =>
      rw [List.map_cons, List.nodup_cons] at h
      rw [renameFirst, List.map_cons]
      split
      case isTrue hkey =>
        have hothers : ∀ q' ∈ rest, q'.key ≠ sub.key := by
          intro q' hq' heq
          exact h.1 (List.mem_map.mpr ⟨q', hq', heq.trans hkey.symm⟩)
        refine congrArg _ ?_
        refine (List.map_id rest).symm.trans (List.map_congr_left fun q' hq' => ?_)
        rw [if_neg (hothers q' hq'), id]
      case isFalse =>
        rw [ih h.2]

theorem withTopics_eq_append
    (topics : List String) (subs : List Subscription) :
    withTopics baseURL topics subs = subs ++ missing baseURL subs topics := by
  induction topics generalizing subs with
  | nil =>
      simp [withTopics, missing]
  | cons topic rest ih =>
      rw [withTopics, List.foldl_cons, ← withTopics, missing]
      split
      case isTrue =>
        exact ih subs
      case isFalse =>
        rw [ih, List.append_assoc, List.singleton_append]

/-- Distinct topics that are not there are all missing. -/
theorem missing_eq_map
    {topics : List String} {subs : List Subscription}
    (hnodup : topics.Nodup)
    (hnew : ∀ topic ∈ topics, (baseURL, topic) ∉ subs.map Subscription.key) :
    missing baseURL subs topics = topics.map (fun topic => ⟨baseURL, topic, none⟩) := by
  induction topics generalizing subs with
  | nil =>
      rfl
  | cons topic rest ih =>
      rw [List.nodup_cons] at hnodup
      rw [missing, if_neg (hnew topic List.mem_cons_self), List.map_cons]
      refine congrArg _ (ih hnodup.2 fun other hother hmem => ?_)
      rw [List.map_append, List.mem_append] at hmem
      rcases hmem with hmem | hmem
      · exact hnew other (List.mem_cons_of_mem topic hother) hmem
      · have heq : other = topic := by simpa [Subscription.key] using hmem
        exact hnodup.1 (heq ▸ hother)

theorem nodup_withTopics
    {topics : List String} {subs : List Subscription}
    (h : (subs.map Subscription.key).Nodup) :
    ((withTopics baseURL topics subs).map Subscription.key).Nodup := by
  induction topics generalizing subs with
  | nil =>
      exact h
  | cons topic rest ih =>
      rw [withTopics, List.foldl_cons, ← withTopics]
      refine ih ?_
      split
      case isTrue =>
        exact h
      case isFalse hnew =>
        rw [List.map_append]
        exact h.append (List.nodup_singleton _) (by simpa [Subscription.key] using hnew)

/-- What a handler does to its copy is the effect of its change. -/
theorem Change.apply_of_check
    {c : Change} {e : Edit}
    (hcheck : c.check baseURL p = .edit e)
    (hnodup : p.keys.Nodup)
    (hfits : c.Fits baseURL p) :
    e.apply p = c.effect baseURL p := by
  cases c with
  | settings language notification =>
      cases hcheck
      rfl
  | addSubscription sub =>
      simp only [check] at hcheck
      split at hcheck <;> cases hcheck
      rfl
  | changeSubscription sub =>
      simp only [check] at hcheck
      split at hcheck <;> cases hcheck
      simp only [Edit.apply, effect, renameFirst_eq_map hnodup]
  | deleteSubscription baseURL' topic =>
      simp only [check] at hcheck
      split at hcheck <;> cases hcheck
      rfl
  | join topics =>
      simp only [check] at hcheck
      split at hcheck <;> cases hcheck
      simp only [Edit.apply, effect, withTopics_eq_append]
  | addSubscriptions topics =>
      simp only [check] at hcheck
      split at hcheck <;> cases hcheck
      simp only [Edit.apply, effect, withTopics_eq_append]
  | redeem topics =>
      simp only [check] at hcheck
      split at hcheck <;> cases hcheck
      simp only [Edit.apply, effect, withTopics_eq_append, missing_eq_map hfits.1 hfits.2]

/-- A handler that has nothing to do finds the effect of its change. -/
theorem Change.effect_of_done
    {c : Change}
    (hcheck : c.check baseURL p = .done) :
    c.effect baseURL p = p := by
  have htopics : ∀ topics, missing baseURL p.subscriptions topics = [] →
      { p with subscriptions := withTopics baseURL topics p.subscriptions } = p := by
    intro topics hnone
    rw [withTopics_eq_append, hnone, List.append_nil]
  cases c with
  | settings language notification =>
      cases hcheck
  | addSubscription sub =>
      simp only [check] at hcheck
      split at hcheck <;> cases hcheck
  | changeSubscription sub =>
      simp only [check] at hcheck
      split at hcheck <;> cases hcheck
  | deleteSubscription baseURL' topic =>
      simp only [check] at hcheck
      split at hcheck
      case isTrue =>
        cases hcheck
      case isFalse hlength =>
        have hall : p.subscriptions.filter
            (fun q => !decide (q.key = (baseURL', topic))) = p.subscriptions :=
          List.filter_sublist.eq_of_length_le (Nat.le_of_not_lt hlength)
        simp only [effect, hall]
  | join topics =>
      simp only [check] at hcheck
      split at hcheck
      case isTrue hempty =>
        rw [List.isEmpty_iff.mp hempty]
        rfl
      case isFalse =>
        cases hcheck
  | addSubscriptions topics =>
      simp only [check] at hcheck
      split at hcheck
      case isTrue hempty =>
        exact htopics topics (List.isEmpty_iff.mp hempty)
      case isFalse =>
        cases hcheck
  | redeem topics =>
      simp only [check] at hcheck
      split at hcheck
      case isTrue hempty =>
        rw [List.isEmpty_iff.mp hempty]
        rfl
      case isFalse =>
        cases hcheck

/-- A change that does not fail keeps the keys distinct. -/
theorem Change.nodup_effect
    {c : Change}
    (hcheck : c.check baseURL p ≠ .failed)
    (hnodup : p.keys.Nodup) :
    (c.effect baseURL p).keys.Nodup := by
  cases c with
  | settings language notification =>
      exact hnodup
  | addSubscription sub =>
      simp only [check] at hcheck
      split at hcheck
      case isTrue =>
        exact absurd rfl hcheck
      case isFalse hnew =>
        simp only [Prefs.keys, effect, List.map_append]
        exact hnodup.append (List.nodup_singleton _) (by simpa using hnew)
  | changeSubscription sub =>
      simp only [Prefs.keys, effect, List.map_map]
      refine (List.map_congr_left fun q _ => ?_) ▸ hnodup
      simp only [Function.comp_apply]
      split <;> rfl
  | deleteSubscription baseURL' topic =>
      exact hnodup.sublist (List.filter_sublist.map _)
  | join topics =>
      exact nodup_withTopics hnodup
  | addSubscriptions topics =>
      exact nodup_withTopics hnodup
  | redeem topics =>
      exact nodup_withTopics hnodup

theorem replay_append
    (log : List (String × Change)) (user : String) (c : Change) (u : String) (p : Prefs) :
    replay baseURL (log ++ [(user, c)]) u p =
      if user = u then
        c.effect baseURL (replay baseURL log u p)
      else
        replay baseURL log u p := by
  simp [replay]

end Effects

section Runs

variable {baseURL : String}
variable {start : String → Prefs}
variable {s s' : State}
variable {r : Request}

/-- The object that a request has or is going to set in its visitor. -/
def Phase.object : Phase → Option Nat
  | .authenticated o | .loaded o | .checked o _ | .changed o => some o
  | .visiting | .marshalled _ _ => none

/-- What a request has in hand, while the preferences of its user stay as they are. -/
def Request.Agrees
    (baseURL : String)
    (s : State)
    (r : Request) : Prop :=
  match r.phase with
  | .checked o e =>
      s.objects o = ⟨r.user, s.stored r.user⟩ ∧
        e.apply (s.stored r.user) = r.change.effect baseURL (s.stored r.user) ∧
        (r.change.effect baseURL (s.stored r.user)).keys.Nodup
  | .changed o =>
      s.objects o = ⟨r.user, r.change.effect baseURL (s.stored r.user)⟩ ∧
        (r.change.effect baseURL (s.stored r.user)).keys.Nodup
  | .marshalled user prefs =>
      user = r.user ∧ prefs = r.change.effect baseURL (s.stored r.user) ∧
        prefs.keys.Nodup
  | _ => True

/-- The stored preferences are those that the successful changes lead to. -/
structure Serialized
    (baseURL : String)
    (start : String → Prefs)
    (s : State) : Prop where
  replayed : ∀ u, s.stored u = replay baseURL s.log u (start u)
  nodup : ∀ u, (s.stored u).keys.Nodup
  known : ∀ r ∈ s.requests, ∀ o, r.phase.object = some o → o < s.next
  visitors : ∀ v o, s.visitors v = some o → o < s.next
  agrees : ∀ r ∈ s.requests, r.Agrees baseURL s
  alone : ∀ r ∈ s.requests, ∀ q ∈ s.requests, r.isChanging = true →
    q.isChanging = true → q.user = r.user → q.id = r.id

theorem mem_setPhase_iff
    {phase : Phase} {q : Request}
    (hr : r ∈ s.requests) :
    q ∈ (s.setPhase r.id phase).requests ↔
      q = { r with phase } ∨ (q ∈ s.requests ∧ q.id ≠ r.id) :=
  Table.mem_modify_key_iff (by intro q; split <;> rfl) hr rfl

theorem mem_endRequest_iff
    {q : Request} :
    q ∈ (s.endRequest r.id).requests ↔ q ∈ s.requests ∧ q.id ≠ r.id := by
  simp [State.endRequest]

/-- What other requests do with their objects and users does not matter. -/
theorem Request.Agrees.congr
    (h : r.Agrees baseURL s)
    (hobjects : ∀ o, r.isChanging = true → r.phase.object = some o →
      s'.objects o = s.objects o)
    (hstored : r.isChanging = true → s'.stored r.user = s.stored r.user) :
    r.Agrees baseURL s' := by
  unfold Request.Agrees at h ⊢
  cases hphase : r.phase with
  | checked o e =>
      simp only [hphase] at h ⊢
      have hchanging : r.isChanging = true := by simp [isChanging, hphase]
      rw [hobjects o hchanging (by rw [hphase]; rfl), hstored hchanging]
      exact h
  | changed o =>
      simp only [hphase] at h ⊢
      have hchanging : r.isChanging = true := by simp [isChanging, hphase]
      rw [hobjects o hchanging (by rw [hphase]; rfl), hstored hchanging]
      exact h
  | marshalled user prefs =>
      simp only [hphase] at h ⊢
      have hchanging : r.isChanging = true := by simp [isChanging, hphase]
      rw [hstored hchanging]
      exact h
  | authenticated o =>
      trivial
  | visiting =>
      trivial
  | loaded o =>
      trivial

/-- A request goes on, and may change an object that no other one is changing. -/
theorem Serialized.advance
    (h : Serialized baseURL start s)
    (hr : r ∈ s.requests)
    {objects : Nat → UserObject} {phase : Phase}
    (hobjects : ∀ q ∈ s.requests, q.id ≠ r.id → q.isChanging = true → ∀ o,
      q.phase.object = some o → objects o = s.objects o)
    (hknown : ∀ o, phase.object = some o → o < s.next)
    (hagrees : Request.Agrees baseURL { s with objects } { r with phase })
    (halone : Request.isChanging { r with phase } = true →
      r.isChanging = true ∨ ∀ q ∈ s.requests, q.isChanging = true → q.user ≠ r.user) :
    Serialized baseURL start ({ s with objects }.setPhase r.id phase) := by
  have hr' : r ∈ State.requests { s with objects } := hr
  have hmem : ∀ q, q ∈ ({ s with objects }.setPhase r.id phase).requests ↔
      q = { r with phase } ∨ (q ∈ s.requests ∧ q.id ≠ r.id) :=
    fun q => mem_setPhase_iff hr'
  have hother : ∀ q ∈ s.requests, q.id ≠ r.id → q.isChanging = true →
      Request.isChanging { r with phase } = true → q.user ≠ r.user := by
    intro q hq hne hchanging hnew huser
    rcases halone hnew with hold | hnone
    · exact hne (h.alone r hr q hq hold hchanging huser)
    · exact hnone q hq hchanging huser
  refine ⟨h.replayed, h.nodup, fun q hq o ho => ?_, h.visitors, fun q hq => ?_,
    fun q hq q' hq' hchanging hchanging' huser => ?_⟩
  · rcases (hmem q).mp hq with rfl | ⟨hq, -⟩
    · exact hknown o ho
    · exact h.known q hq o ho
  · rcases (hmem q).mp hq with rfl | ⟨hq, hne⟩
    · exact hagrees
    · exact (h.agrees q hq).congr (fun o hchanging ho => hobjects q hq hne hchanging o ho)
        (fun _ => rfl)
  · rcases (hmem q).mp hq with rfl | ⟨hq, hne⟩
    · rcases (hmem q').mp hq' with rfl | ⟨hq', hne'⟩
      · rfl
      · exact absurd huser (hother q' hq' hne' hchanging' hchanging)
    · rcases (hmem q').mp hq' with rfl | ⟨hq', hne'⟩
      · exact absurd huser.symm (hother q hq hne hchanging hchanging')
      · exact h.alone q hq q' hq' hchanging hchanging' huser

/-- A request ends; if it has changed what is stored, then only for its user. -/
theorem Serialized.finish
    (h : Serialized baseURL start s)
    {stored : String → Prefs} {log : List (String × Change)}
    (hreplayed : ∀ u, stored u = replay baseURL log u (start u))
    (hnodup : ∀ u, (stored u).keys.Nodup)
    (hstored : ∀ q ∈ s.requests, q.id ≠ r.id → q.isChanging = true →
      stored q.user = s.stored q.user) :
    Serialized baseURL start { s.endRequest r.id with stored, log } := by
  have hmem : ∀ q, q ∈ (s.endRequest r.id).requests ↔ q ∈ s.requests ∧ q.id ≠ r.id :=
    fun q => mem_endRequest_iff
  refine ⟨hreplayed, hnodup, fun q hq => ?_, h.visitors, fun q hq => ?_,
    fun q hq q' hq' => ?_⟩
  · exact h.known q ((hmem q).mp hq).1
  · obtain ⟨hq, hne⟩ := (hmem q).mp hq
    exact (h.agrees q hq).congr (fun _ _ _ => rfl) (hstored q hq hne)
  · exact h.alone q ((hmem q).mp hq).1 q' ((hmem q').mp hq').1

/-- A user is read into a new object. -/
theorem Serialized.readUser
    (h : Serialized baseURL start s)
    (user : String) :
    Serialized baseURL start (s.readUser user) := by
  refine ⟨h.replayed, h.nodup, fun q hq o ho => ?_, fun v o ho => ?_, fun q hq => ?_,
    h.alone⟩
  · exact Nat.lt_succ_of_lt (h.known q hq o ho)
  · exact Nat.lt_succ_of_lt (h.visitors v o ho)
  · refine (h.agrees q hq).congr (fun o _ ho => ?_) (fun _ => rfl)
    exact Function.update_of_ne (Nat.ne_of_lt (h.known q hq o ho)) _ _

theorem Serialized.setVisitor
    (h : Serialized baseURL start s)
    {visitor : String} {object : Option Nat}
    (hobject : ∀ o, object = some o → o < s.next) :
    Serialized baseURL start (s.setVisitor visitor object) := by
  refine ⟨h.replayed, h.nodup, h.known, fun v o ho => ?_, h.agrees, h.alone⟩
  by_cases hv : v = visitor
  · subst hv
    simp only [State.setVisitor, Function.update_self] at ho
    exact hobject o ho
  · simp only [State.setVisitor, Function.update_of_ne hv] at ho
    exact h.visitors v o ho

/-- A request arrives that is not changing anything yet. -/
theorem Serialized.insert
    (h : Serialized baseURL start s)
    {requests : Table Request.id}
    (hinsert : s.requests.insert? r = some requests)
    (hknown : ∀ o, r.phase.object = some o → o < s.next)
    (hidle : r.isChanging = false) :
    Serialized baseURL start { s with requests } := by
  have hmem : ∀ q, q ∈ requests ↔ q ∈ s.requests ∨ q = r :=
    fun q => Table.mem_insert?_iff hinsert
  have hagrees : r.Agrees baseURL s := by
    unfold Request.Agrees
    unfold Request.isChanging at hidle
    split at hidle <;> simp_all
  refine ⟨h.replayed, h.nodup, fun q hq => ?_, h.visitors, fun q hq => ?_,
    fun q hq q' hq' hchanging hchanging' => ?_⟩
  · rcases (hmem q).mp hq with hq | rfl
    · exact h.known q hq
    · exact hknown
  · rcases (hmem q).mp hq with hq | rfl
    · exact (h.agrees q hq).congr (fun _ _ _ => rfl) (fun _ => rfl)
    · exact hagrees.congr (fun _ _ _ => rfl) (fun _ => rfl)
  · rcases (hmem q).mp hq with hq | rfl
    · rcases (hmem q').mp hq' with hq' | rfl
      · exact h.alone q hq q' hq' hchanging hchanging'
      · rw [hidle] at hchanging'
        cases hchanging'
    · rw [hidle] at hchanging
      cases hchanging

/-- The object that a request is changing is one of its user. -/
theorem Serialized.user_of_object
    (h : Serialized baseURL start s)
    (hr : r ∈ s.requests)
    (hchanging : r.isChanging = true)
    {o : Nat}
    (ho : r.phase.object = some o) :
    (s.objects o).user = r.user := by
  have hagrees := h.agrees r hr
  unfold Request.Agrees at hagrees
  cases hphase : r.phase with
  | checked o' e =>
      rw [hphase] at ho
      cases ho
      simp only [hphase] at hagrees
      rw [hagrees.1]
  | changed o' =>
      rw [hphase] at ho
      cases ho
      simp only [hphase] at hagrees
      rw [hagrees.1]
  | marshalled user prefs =>
      rw [hphase] at ho
      cases ho
  | authenticated o' =>
      simp [Request.isChanging, hphase] at hchanging
  | visiting =>
      simp [Request.isChanging, hphase] at hchanging
  | loaded o' =>
      simp [Request.isChanging, hphase] at hchanging

/-- A change that was made to a fresh copy gets into the stored preferences. -/
theorem Serialized.store
    (h : Serialized baseURL start s)
    {prefs : Prefs}
    (hprefs : prefs = r.change.effect baseURL (s.stored r.user))
    (hnodup : prefs.keys.Nodup)
    (hothers : ∀ q ∈ s.requests, q.id ≠ r.id → q.isChanging = true → q.user ≠ r.user) :
    Serialized baseURL start
      (State.succeed { s with stored := Function.update s.stored r.user prefs } r) := by
  have hnext : State.succeed { s with stored := Function.update s.stored r.user prefs } r =
      { s.endRequest r.id with
        stored := Function.update s.stored r.user prefs
        log := s.log ++ [(r.user, r.change)] } := rfl
  rw [hnext]
  refine h.finish (fun u => ?_) (fun u => ?_) (fun q hq hne hchanging => ?_)
  · rw [replay_append, ← h.replayed u]
    by_cases hu : u = r.user
    · subst hu
      rw [if_pos rfl, Function.update_self, hprefs]
    · rw [if_neg (Ne.symm hu), Function.update_of_ne hu]
  · by_cases hu : u = r.user
    · subst hu
      rw [Function.update_self]
      exact hnodup
    · rw [Function.update_of_ne hu]
      exact h.nodup u
  · exact Function.update_of_ne (hothers q hq hne hchanging) _ _

/-- A request looks at its copy. -/
theorem Serialized.check
    (h : Serialized baseURL start s)
    (hr : r ∈ s.requests)
    {o : Nat}
    (hphase : r.phase = .loaded o)
    (hcopy : r.change.check baseURL (s.objects o).prefs ≠ .failed →
      MayChange baseURL s r o)
    (hstep : stepRequest baseURL s r (.check r.id) = some s') :
    Serialized baseURL start s' := by
  simp only [stepRequest, hphase] at hstep
  split at hstep
  case h_1 hcheck =>
    cases hstep
    exact h.finish h.replayed h.nodup (fun _ _ _ _ => rfl)
  case h_2 hcheck =>
    cases hstep
    obtain ⟨hobject, -, -⟩ := hcopy (by rw [hcheck]; exact nofun)
    rw [hobject] at hcheck
    have hsame : r.change.effect baseURL (s.stored r.user) = s.stored r.user :=
      Change.effect_of_done hcheck
    refine h.finish (fun u => ?_) h.nodup (fun _ _ _ _ => rfl)
    rw [replay_append, ← h.replayed u]
    split
    case isTrue hu =>
      rw [← hu, hsame]
      rfl
    case isFalse =>
      rfl
  case h_3 e hcheck =>
    cases hstep
    have hsuccess : r.change.check baseURL (s.objects o).prefs ≠ .failed := by
      rw [hcheck]
      exact nofun
    obtain ⟨hobject, halone, hfits⟩ := hcopy hsuccess
    rw [hobject] at hcheck hsuccess
    have hnodup := h.nodup r.user
    refine h.advance hr (fun _ _ _ _ _ _ => rfl) (fun o' ho' => ?_) ?_
      (fun _ => Or.inr halone)
    · cases ho'
      exact h.known r hr o (by rw [hphase]; rfl)
    · exact ⟨hobject, Change.apply_of_check hcheck hnodup hfits,
        Change.nodup_effect hsuccess hnodup⟩

/-- Every step in which only fresh copies are changed keeps the order of the changes. -/
theorem Serialized.step
    (h : Serialized baseURL start s)
    {l : Label}
    (hserial : Serial baseURL s l)
    (hstep : Preferences.step baseURL s l = some s') :
    Serialized baseURL start s' := by
  cases l with
  | authenticate id user visitor change =>
      simp only [Preferences.step, Option.ite_none_left_eq_some] at hstep
      obtain ⟨-, hstep⟩ := hstep
      obtain ⟨requests, hinsert, rfl⟩ := Option.map_eq_some_iff.mp hstep
      refine (h.readUser user).insert hinsert (fun o ho => ?_) rfl
      cases ho
      exact Nat.lt_succ_self s.next
  | setUser id =>
      obtain ⟨r, hfind, hstep⟩ := Option.bind_eq_some_iff.mp hstep
      obtain ⟨hr, rfl⟩ := Table.find?_eq_some_iff.mp hfind
      simp only [stepRequest] at hstep
      split at hstep
      case h_1 o hphase =>
        cases hstep
        have hknown : o < s.next := h.known r hr o (by rw [hphase]; rfl)
        have hvisitor : Serialized baseURL start (s.setVisitor r.visitor (some o)) := by
          refine h.setVisitor fun o' ho' => ?_
          cases ho'
          exact hknown
        exact hvisitor.advance hr
          (fun _ _ _ _ _ _ => rfl) (fun o' ho' => by cases ho') trivial
          (fun hchanging => by cases hchanging)
      case h_2 =>
        cases hstep
  | visit visitor user =>
      cases user with
      | none =>
          cases hstep
          exact h.setVisitor (fun o ho => by cases ho)
      | some user =>
          cases hstep
          refine (h.readUser user).setVisitor fun o ho => ?_
          cases ho
          exact Nat.lt_succ_self s.next
  | load id =>
      obtain ⟨r, hfind, hstep⟩ := Option.bind_eq_some_iff.mp hstep
      obtain ⟨hr, rfl⟩ := Table.find?_eq_some_iff.mp hfind
      simp only [stepRequest] at hstep
      split at hstep
      case h_1 =>
        split at hstep
        case h_1 =>
          cases hstep
          exact h.finish h.replayed h.nodup (fun _ _ _ _ => rfl)
        case h_2 o hvisitor =>
          cases hstep
          refine h.advance hr (fun _ _ _ _ _ _ => rfl) (fun o' ho' => ?_) trivial
            (fun hchanging => by cases hchanging)
          cases ho'
          exact h.visitors r.visitor o hvisitor
      case h_2 =>
        cases hstep
  | read id user change =>
      simp only [Preferences.step, Option.ite_none_right_eq_some] at hstep
      obtain ⟨-, hstep⟩ := hstep
      obtain ⟨requests, hinsert, rfl⟩ := Option.map_eq_some_iff.mp hstep
      refine (h.readUser user).insert hinsert (fun o ho => ?_) rfl
      cases ho
      exact Nat.lt_succ_self s.next
  | check id =>
      obtain ⟨r, hfind, hstep⟩ := Option.bind_eq_some_iff.mp hstep
      obtain ⟨hr, rfl⟩ := Table.find?_eq_some_iff.mp hfind
      have hcopy := hserial r hr rfl
      cases hphase : r.phase with
      | loaded o =>
          simp only [HasOwnCopy, hphase] at hcopy
          exact h.check hr hphase hcopy hstep
      | _ =>
          simp only [stepRequest, hphase] at hstep
          cases hstep
  | assign id =>
      obtain ⟨r, hfind, hstep⟩ := Option.bind_eq_some_iff.mp hstep
      obtain ⟨hr, rfl⟩ := Table.find?_eq_some_iff.mp hfind
      simp only [stepRequest] at hstep
      split at hstep
      case h_1 o e hphase =>
        cases hstep
        have hchanging : r.isChanging = true := by simp [Request.isChanging, hphase]
        have hagrees := h.agrees r hr
        simp only [Request.Agrees, hphase] at hagrees
        obtain ⟨hobject, heffect, hnodup⟩ := hagrees
        refine h.advance hr (fun q hq hne hother o' ho' => ?_) (fun o' ho' => ?_) ?_
          (fun _ => Or.inl hchanging)
        · refine Function.update_of_ne (fun heq => hne ?_) _ _
          subst heq
          refine h.alone r hr q hq hchanging hother ?_
          rw [← h.user_of_object hq hother ho', hobject]
        · cases ho'
          exact h.known r hr o (by rw [hphase]; rfl)
        · refine ⟨(Function.update_self ..).trans ?_, hnodup⟩
          rw [hobject, heffect]
      case h_2 =>
        cases hstep
  | marshal id =>
      obtain ⟨r, hfind, hstep⟩ := Option.bind_eq_some_iff.mp hstep
      obtain ⟨hr, rfl⟩ := Table.find?_eq_some_iff.mp hfind
      simp only [stepRequest] at hstep
      split at hstep
      case h_1 o hphase =>
        cases hstep
        have hagrees := h.agrees r hr
        simp only [Request.Agrees, hphase] at hagrees
        obtain ⟨hobject, hnodup⟩ := hagrees
        refine h.advance hr (fun _ _ _ _ _ _ => rfl) (fun o' ho' => by cases ho') ?_
          (fun _ => Or.inl (by simp [Request.isChanging, hphase]))
        rw [hobject]
        exact ⟨rfl, rfl, hnodup⟩
      case h_2 =>
        cases hstep
  | write id fails =>
      obtain ⟨r, hfind, hstep⟩ := Option.bind_eq_some_iff.mp hstep
      obtain ⟨hr, rfl⟩ := Table.find?_eq_some_iff.mp hfind
      simp only [stepRequest] at hstep
      split at hstep
      case h_1 user prefs hphase =>
        cases fails with
        | true =>
            cases hstep
            exact h.finish h.replayed h.nodup (fun _ _ _ _ => rfl)
        | false =>
            cases hstep
            have hagrees := h.agrees r hr
            simp only [Request.Agrees, hphase] at hagrees
            obtain ⟨rfl, hprefs, hnodup⟩ := hagrees
            refine h.store hprefs hnodup fun q hq hne hchanging huser => hne ?_
            exact h.alone r hr q hq (by simp [Request.isChanging, hphase]) hchanging huser
      case h_2 =>
        cases hstep

theorem serialized_initial
    (hstart : ∀ u, (start u).keys.Nodup) :
    Serialized baseURL start (initial start) where
  replayed := fun _ => rfl
  nodup := hstart
  known := fun r hr => (Table.not_mem_empty r hr).elim
  visitors := fun _ _ ho => by cases ho
  agrees := fun r hr => (Table.not_mem_empty r hr).elim
  alone := fun r hr => (Table.not_mem_empty r hr).elim

/--
In every run whose steps change only fresh copies, the preferences of each user are what
all successful changes make of them one after the other, and list no key twice.
-/
theorem no_lost_preferences
    {ls : List Label}
    (hstart : ∀ u, (start u).keys.Nodup)
    (hserial : Along (Preferences.step baseURL) (Serial baseURL) (initial start) ls)
    (hrun : run (Preferences.step baseURL) (initial start) ls = some s)
    (user : String) :
    s.stored user = replay baseURL s.log user (start user) ∧
      (s.stored user).keys.Nodup := by
  have h : Serialized baseURL start s :=
    run_invariant_along (fun _ _ _ hs hserial hstep => hs.step hserial hstep)
      (serialized_initial hstart) hserial hrun
  exact ⟨h.replayed user, h.nodup user⟩

end Runs

section Examples

def noPrefs : Prefs :=
  ⟨none, none, []⟩

def newSubscription (topic : String) : Subscription :=
  ⟨"https://push.example.com", topic, none⟩

/-- A request of `phil`, without anything in between. -/
def requestRun
    (id : Nat)
    (change : Change) : List Label :=
  [.authenticate id "phil" "ip:10.0.0.1" change, .setUser id, .load id, .check id,
    .assign id, .marshal id, .write id false]

/-- A handler that reads the user itself. -/
def readRun
    (id : Nat)
    (change : Change) : List Label :=
  [.read id "phil" change, .check id, .assign id, .marshal id, .write id false]

/-- Three requests, one after the other. -/
theorem serial_example :
    ∃ s, run (step "https://push.example.com") (initial (fun _ => noPrefs))
        (requestRun 1 (.settings (some "de") none) ++
          readRun 2 (.addSubscriptions ["news", "news", "alerts"]) ++
          requestRun 3 (.addSubscription (newSubscription "misc"))) = some s ∧
      s.stored "phil" =
          replay "https://push.example.com" s.log "phil" noPrefs ∧
        (s.stored "phil").keys.Nodup := by
  have hserial : Along (step "https://push.example.com")
      (Serial "https://push.example.com") (initial (fun _ => noPrefs))
      (requestRun 1 (.settings (some "de") none) ++
        readRun 2 (.addSubscriptions ["news", "news", "alerts"]) ++
        requestRun 3 (.addSubscription (newSubscription "misc"))) := by
    decide
  have hrun : (run (step "https://push.example.com") (initial (fun _ => noPrefs))
      (requestRun 1 (.settings (some "de") none) ++
        readRun 2 (.addSubscriptions ["news", "news", "alerts"]) ++
        requestRun 3 (.addSubscription (newSubscription "misc")))).isSome = true := by
    decide
  obtain ⟨s, hs⟩ := Option.isSome_iff_exists.mp hrun
  refine ⟨s, hs, no_lost_preferences ?_ hserial hs "phil"⟩
  exact fun _ => List.nodup_nil

/-- Both requests have read the user before one of them writes. -/
def addedAtOnce : List Label :=
  [.authenticate 1 "phil" "ip:10.0.0.1" (.addSubscription (newSubscription "news")),
    .setUser 1, .load 1, .read 2 "phil" (.addSubscriptions ["dm-1"]),
    .check 1, .assign 1, .marshal 1, .write 1 false,
    .check 2, .assign 2, .marshal 2, .write 2 false]

/-- Another user of the same visitor logs in between. -/
def visitedBetween : List Label :=
  [.authenticate 1 "phil" "ip:10.0.0.1" (.addSubscription (newSubscription "news")),
    .setUser 1, .visit "ip:10.0.0.1" (some "ben"), .load 1, .check 1, .assign 1,
    .marshal 1, .write 1 false]

/-- How many changes have returned success, and the topics of `phil`. -/
def summary (s : State) : Nat × List String :=
  (s.log.length, (s.stored "phil").subscriptions.map Subscription.topic)

/--
Two successful changes of which one is lost, one that another user gets, and an invite
that lists a topic twice.
-/
theorem preferences_lost :
    (run (step "https://push.example.com") (initial (fun _ => noPrefs))
        addedAtOnce).map summary = some (2, ["dm-1"]) ∧
      (run (step "https://push.example.com") (initial (fun _ => noPrefs))
        visitedBetween).map summary = some (1, []) ∧
      (run (step "https://push.example.com") (initial (fun _ => noPrefs))
        (readRun 1 (.redeem ["news", "news"]))).map summary =
        some (1, ["news", "news"]) := by
  refine ⟨?_, ?_, ?_⟩ <;> decide

end Examples

end Preferences

end Server
end CoopMessenger
