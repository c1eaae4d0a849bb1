import CoopMessenger.Library.Histories
import CoopMessenger.Library.Table
import CoopMessenger.Web.Utils

/-!
# Synchronized subscriptions

`syncFromRemote` of `web/src/app/SubscriptionManager.js` adds the subscriptions of the
account to the local ones, and then removes those that the account does not have.  It waits
for the database at every access, where other parts of the application get their turn.

**Results.**
* `inv_step`: what holds between two accesses to the database.
* `sync_spec`: what a sync that has ended leaves, whatever came in between.
-/

namespace CoopMessenger
namespace Web

open Library

namespace SubscriptionSync

section Model

structure Reservation where
  topic : JSString
  everyone : JSString
deriving DecidableEq

structure Subscription where
  id : JSString
  baseUrl : JSString
  topic : JSString
  mutedUntil : Nat
  last : Option JSString
  displayName : Option JSString
  reservation : Option Reservation
  internal : Bool
deriving DecidableEq

/-- A notification, with the subscription that it belongs to. -/
structure Notification where
  id : JSString
  subscriptionId : JSString
deriving DecidableEq

/-- A subscription of the account. -/
structure Remote where
  baseUrl : JSString
  topic : JSString
  displayName : Option JSString
deriving DecidableEq

def topicUrl (baseUrl topic : JSString) : JSString :=
  baseUrl ++ JSString.ofString "/" ++ topic

def Remote.id (remote : Remote) : JSString :=
  topicUrl remote.baseUrl remote.topic

structure Config where
  baseUrl : JSString
  remoteReservations : List Reservation

/-- What `add` puts for a subscription of the account. -/
def Remote.subscription
    (remote : Remote)
    (config : Config) : Subscription where
  id := remote.id
  baseUrl := remote.baseUrl
  topic := remote.topic
  mutedUntil := 0
  last := none
  displayName := remote.displayName
  reservation :=
    config.remoteReservations.find? fun r =>
      decide (remote.baseUrl = config.baseUrl) && decide (remote.topic = r.topic)
  internal := false

structure Database where
  subscriptions : Table Subscription.id
  notifications : Table Notification.id

def putSubscription
    (T : Table Subscription.id)
    (subscription : Subscription) : Table Subscription.id :=
  T.upsert subscription (fun old => if old.id = subscription.id then subscription else old)
    (by intro s; split <;> simp_all)

/-- How far `add` has got with a subscription of the account. -/
inductive AddTask where
  | get (remote : Remote)
  | put (remote : Remote)
  | done (remote : Remote)
deriving DecidableEq

def AddTask.remote : AddTask → Remote
  | .get remote | .put remote | .done remote => remote

/-- How far `remove` has got with a local subscription. -/
inductive RemoveTask where
  | delete (id : JSString)
  | deleteNotifications (id : JSString)
  | done
deriving DecidableEq

inductive Phase where
  | adding (tasks : List AddTask)
  | removing (tasks : List RemoveTask)
deriving DecidableEq

structure State where
  db : Database
  phase : Phase

/-- What is changed in a subscription. -/
inductive Change where
  | mutedUntil (t : Nat)
  | last (id : JSString)
  | displayName (name : JSString)
  | reservation (r : Option Reservation)
deriving DecidableEq

def Change.apply
    (s : Subscription) : Change → Subscription
  | .mutedUntil t => { s with mutedUntil := t }
  | .last id => { s with last := some id }
  | .displayName name => { s with displayName := some name }
  | .reservation r => { s with reservation := r }

/-- The accesses of the other parts of the application. -/
inductive Access where
  | put (subscription : Subscription)
  | update (id : JSString) (change : Change)
  | delete (id : JSString)
  | addNotification (notification : Notification)
  | deleteNotification (id : JSString)
  | deleteNotifications (subscriptionId : JSString)
deriving DecidableEq

inductive Label where
  | get (task : Nat)
  | put (task : Nat)
  | list
  | delete (task : Nat)
  | deleteNotifications (task : Nat)
  | other (access : Access)
deriving DecidableEq

@[simp] theorem id_apply
    (s : Subscription)
    (change : Change) :
    (change.apply s).id = s.id := by
  cases change <;> rfl

@[simp] theorem internal_apply
    (s : Subscription)
    (change : Change) :
    (change.apply s).internal = s.internal := by
  cases change <;> rfl

def updateSubscription
    (T : Table Subscription.id)
    (id : JSString)
    (change : Change) : Table Subscription.id :=
  T.modify (fun s => if s.id = id then change.apply s else s) (by intro s; split <;> simp)

def removeSubscription
    (T : Table Subscription.id)
    (id : JSString) : Table Subscription.id :=
  T.delete fun s => decide (s.id = id)

def removeNotifications
    (T : Table Notification.id)
    (subscriptionId : JSString) : Table Notification.id :=
  T.delete fun n => decide (n.subscriptionId = subscriptionId)

/-- A notification that is there already is not added. -/
def Access.run
    (db : Database) : Access → Database
  | .put subscription =>
      { db with subscriptions := putSubscription db.subscriptions subscription }
  | .update id change =>
      { db with subscriptions := updateSubscription db.subscriptions id change }
  | .delete id => { db with subscriptions := removeSubscription db.subscriptions id }
  | .addNotification notification =>
      { db with notifications :=
          (db.notifications.insert? notification).getD db.notifications }
  | .deleteNotification id =>
      { db with notifications := db.notifications.delete fun n => decide (n.id = id) }
  | .deleteNotifications subscriptionId =>
      { db with notifications := removeNotifications db.notifications subscriptionId }

variable (config : Config)

/-- The next access of a task, or of somebody else. -/
def step (s : State) : Label → Option State
  | .get i =>
      match s.phase with
      | .adding tasks =>
          match tasks[i]? with
          | some (.get remote) =>
              let task :=
                if (s.db.subscriptions.find? remote.id).isSome then
                  AddTask.done remote
                else
                  AddTask.put remote
              some { s with phase := .adding (tasks.set i task) }
          | _ => none
      | .removing _ => none
  | .put i =>
      match s.phase with
      | .adding tasks =>
          match tasks[i]? with
          | some (.put remote) =>
              some ⟨{ s.db with
                  subscriptions :=
                    putSubscription s.db.subscriptions (remote.subscription config) },
                .adding (tasks.set i (.done remote))⟩
          | _ => none
      | .removing _ => none
  | .list =>
      match s.phase with
      | .adding tasks =>
          if tasks.all fun task => decide (task = .done task.remote) then
            let remoteIds := tasks.map fun task => task.remote.id
            let gone := s.db.subscriptions.rows.filter fun s =>
              !s.internal && decide (s.id ∉ remoteIds)
            some { s with phase := .removing (gone.map fun s => .delete s.id) }
          else
            none
      | .removing _ => none
  | .delete i =>
      match s.phase with
      | .removing tasks =>
          match tasks[i]? with
          | some (.delete id) =>
              some ⟨{ s.db with
                  subscriptions := removeSubscription s.db.subscriptions id },
                .removing (tasks.set i (.deleteNotifications id))⟩
          | _ => none
      | .adding _ => none
  | .deleteNotifications i =>
      match s.phase with
      | .removing tasks =>
          match tasks[i]? with
          | some (.deleteNotifications id) =>
              some ⟨{ s.db with
                  notifications := removeNotifications s.db.notifications id },
                .removing (tasks.set i .done)⟩
          | _ => none
      | .adding _ => none
  | .other access => some { s with db := access.run s.db }

/-- The start of `syncFromRemote`. -/
def start
    (remotes : List Remote)
    (db : Database) : State :=
  ⟨db, .adding (remotes.map .get)⟩

/-- The call has returned. -/
def State.ended (s : State) : Prop :=
  ∃ tasks, s.phase = .removing tasks ∧ ∀ task ∈ tasks, task = .done

end Model

section Tables

variable {T : Table Subscription.id}

theorem mem_putSubscription_iff
    {subscription s : Subscription} :
    s ∈ putSubscription T subscription ↔
      s = subscription ∨ s ∈ T ∧ s.id ≠ subscription.id :=
  Table.mem_upsert_iff _ fun _ hs => if_pos hs

theorem mem_updateSubscription_iff
    {id : JSString} {change : Change} {s : Subscription} :
    s ∈ updateSubscription T id change ↔
      ∃ old ∈ T, (if old.id = id then change.apply old else old) = s :=
  Table.mem_modify_iff _

theorem find?_putSubscription
    (subscription : Subscription)
    (id : JSString) :
    (putSubscription T subscription).find? id =
      if id = subscription.id then some subscription else T.find? id := by
  split
  · next hid =>
      rw [Table.find?_eq_some_iff, mem_putSubscription_iff]
      exact ⟨.inl rfl, hid.symm⟩
  · next hid =>
      apply Option.ext
      intro s
      rw [Table.find?_eq_some_iff, Table.find?_eq_some_iff, mem_putSubscription_iff]
      constructor
      · rintro ⟨rfl | ⟨hs, -⟩, rfl⟩
        · exact absurd rfl hid
        · exact ⟨hs, rfl⟩
      · rintro ⟨hs, rfl⟩
        exact ⟨.inr ⟨hs, hid⟩, rfl⟩

theorem find?_updateSubscription
    (id other : JSString)
    (change : Change) :
    (updateSubscription T id change).find? other =
      (T.find? other).map fun s => if s.id = id then change.apply s else s :=
  Table.find?_modify _ _

theorem find?_removeSubscription
    (id other : JSString) :
    (removeSubscription T id).find? other =
      if other = id then none else T.find? other := by
  rw [removeSubscription, Table.find?_delete (q := fun k => decide (k = id)) fun _ => rfl]
  simp

end Tables

section Invariant

variable {config : Config}
variable {remotes : List Remote}
variable {db : Database}
variable {ls : List Label}
variable {l : Label}
variable {s s' : State}

/-- Nobody else has removed the subscription. -/
def Undeleted
    (ls : List Label)
    (id : JSString) : Prop :=
  Label.other (.delete id) ∉ ls

instance
    (ls : List Label)
    (id : JSString) :
    Decidable (Undeleted ls id) :=
  inferInstanceAs (Decidable (Label.other (.delete id) ∉ ls))

/-- Nobody else has put or removed a subscription under this ID. -/
structure Untouched
    (ls : List Label)
    (id : JSString) : Prop where
  put : ∀ subscription, Label.other (.put subscription) ∈ ls → subscription.id ≠ id
  undeleted : Undeleted ls id

/-- Somebody else has put it after the local subscriptions were listed. -/
def PutLate
    (ls : List Label)
    (id : JSString) : Prop :=
  ∃ before after subscription, ls = before ++ .list :: after ∧
    Label.other (.put subscription) ∈ after ∧ subscription.id = id

/-- The account has the subscription, or it is an internal one. -/
def Kept
    (remotes : List Remote)
    (db : Database)
    (ls : List Label)
    (id : JSString) : Prop :=
  (∃ remote ∈ remotes, remote.id = id) ∨
    ∃ s ∈ db.subscriptions, s.id = id ∧ s.internal = true ∧ Untouched ls id

/-- What the step of somebody else changes in a subscription. -/
def Label.change
    (s : Subscription) : Label → Subscription
  | .other (.update id change) => if s.id = id then change.apply s else s
  | _ => s

/-- The subscription with the changes of all steps. -/
def changed
    (ls : List Label)
    (s : Subscription) : Subscription :=
  ls.foldl Label.change s

theorem Undeleted.of_append
    {ms : List Label} {id : JSString}
    (h : Undeleted (ls ++ ms) id) :
    Undeleted ls id :=
  fun hmem => h (List.mem_append_left ms hmem)

theorem Untouched.of_append
    {ms : List Label} {id : JSString}
    (h : Untouched (ls ++ ms) id) :
    Untouched ls id :=
  ⟨fun subscription hmem => h.put subscription (List.mem_append_left ms hmem),
    h.undeleted.of_append⟩

theorem Kept.of_append
    {ms : List Label} {id : JSString}
    (h : Kept remotes db (ls ++ ms) id) :
    Kept remotes db ls id := by
  rcases h with h | ⟨s, hs, hid, hinternal, huntouched⟩
  · exact .inl h
  · exact .inr ⟨s, hs, hid, hinternal, huntouched.of_append⟩

theorem PutLate.append
    {id : JSString}
    (h : PutLate ls id)
    (ms : List Label) :
    PutLate (ls ++ ms) id := by
  obtain ⟨before, after, subscription, rfl, hmem, hid⟩ := h
  exact ⟨before, after ++ ms, subscription, by simp, List.mem_append_left ms hmem, hid⟩

@[simp] theorem id_change
    (s : Subscription)
    (l : Label) :
    (l.change s).id = s.id := by
  unfold Label.change
  split
  · split <;> simp
  · rfl

@[simp] theorem internal_change
    (s : Subscription)
    (l : Label) :
    (l.change s).internal = s.internal := by
  unfold Label.change
  split
  · split <;> simp
  · rfl

theorem changed_concat
    (s : Subscription) :
    changed (ls ++ [l]) s = l.change (changed ls s) :=
  List.foldl_concat ..

theorem changed_frame
    (s : Subscription) :
    (changed ls s).id = s.id ∧ (changed ls s).internal = s.internal := by
  induction ls using List.reverseRecOn with
  | nil =>
      exact ⟨rfl, rfl⟩
  | append_singleton ls l ih =>
      rw [changed_concat, id_change, internal_change]
      exact ih

/-- What is there at the start is there, with the changes of the others. -/
def HasRow
    (db : Database)
    (ls : List Label)
    (T : Table Subscription.id)
    (s : Subscription) : Prop :=
  s ∈ db.subscriptions → Untouched ls s.id → T.find? s.id = some (changed ls s)

/-- What holds while the subscriptions of the account are added. -/
structure Adding
    (remotes : List Remote)
    (db : Database)
    (ls : List Label)
    (T : Table Subscription.id)
    (tasks : List AddTask) : Prop where
  remotes_eq : tasks.map AddTask.remote = remotes
  done : ∀ remote, AddTask.done remote ∈ tasks → Undeleted ls remote.id →
    (T.find? remote.id).isSome = true
  put : ∀ remote, AddTask.put remote ∈ tasks → Untouched ls remote.id →
    db.subscriptions.find? remote.id = none
  row : ∀ s, HasRow db ls T s

/-- What holds while the others are removed. -/
structure Removing
    (remotes : List Remote)
    (db : Database)
    (ls : List Label)
    (T : Table Subscription.id)
    (tasks : List RemoveTask) : Prop where
  listed : ∃ before after, ls = before ++ .list :: after
  remote : ∀ remote ∈ remotes, Undeleted ls remote.id →
    (T.find? remote.id).isSome = true
  gone : ∀ id, RemoveTask.delete id ∈ tasks ∨ RemoveTask.deleteNotifications id ∈ tasks →
    ¬ Kept remotes db ls id
  rest : ∀ s ∈ T, (∃ remote ∈ remotes, remote.id = s.id) ∨ s.internal = true ∨
    RemoveTask.delete s.id ∈ tasks ∨ PutLate ls s.id
  row : ∀ s, Kept remotes db ls s.id → HasRow db ls T s

/-- The notifications of a subscription that is kept. -/
def KeepsNotifications
    (remotes : List Remote)
    (db : Database)
    (ls : List Label)
    (T : Table Notification.id) : Prop :=
  ∀ n ∈ db.notifications, Label.other (.deleteNotification n.id) ∉ ls →
    Label.other (.deleteNotifications n.subscriptionId) ∉ ls →
    Kept remotes db ls n.subscriptionId → n ∈ T

def Inv
    (remotes : List Remote)
    (db : Database)
    (ls : List Label)
    (s : State) : Prop :=
  (match s.phase with
    | .adding tasks => Adding remotes db ls s.db.subscriptions tasks
    | .removing tasks => Removing remotes db ls s.db.subscriptions tasks) ∧
    KeepsNotifications remotes db ls s.db.notifications

theorem inv_start :
    Inv remotes db [] (start remotes db) := by
  refine ⟨⟨?_, ?_, ?_, ?_⟩, fun n hn _ _ _ => hn⟩
  · rw [List.map_map]
    exact List.map_id remotes
  · intro remote hmem
    simp at hmem
  · intro remote hmem
    simp at hmem
  · intro s hs _
    exact Table.find?_eq_some_iff.mpr ⟨hs, rfl⟩

theorem KeepsNotifications.concat
    {T : Table Notification.id}
    (h : KeepsNotifications remotes db ls T)
    (l : Label) :
    KeepsNotifications remotes db (ls ++ [l]) T := by
  intro n hn hdeleted hall hkept
  exact h n hn (fun hmem => hdeleted (List.mem_append_left _ hmem))
    (fun hmem => hall (List.mem_append_left _ hmem)) hkept.of_append

/-- A step that changes nothing in the subscriptions. -/
theorem HasRow.concat
    {T : Table Subscription.id} {sub : Subscription}
    (h : HasRow db ls T sub)
    (hl : ∀ sub : Subscription, l.change sub = sub) :
    HasRow db (ls ++ [l]) T sub := by
  intro hs huntouched
  rw [changed_concat, hl]
  exact h hs huntouched.of_append

theorem mem_set_of_ne
    {τ : Type} {tasks : List τ} {i : Nat} {task other new : τ}
    (hget : tasks[i]? = some task)
    (hmem : other ∈ tasks)
    (hne : other ≠ task) :
    other ∈ tasks.set i new := by
  obtain ⟨j, hj, rfl⟩ := List.mem_iff_getElem.mp hmem
  have hij : i ≠ j := by
    rintro rfl
    rw [List.getElem?_eq_getElem hj, Option.some.injEq] at hget
    exact hne hget
  exact List.mem_iff_getElem.mpr ⟨j, by simpa using hj, by simp [hij]⟩

/-- A task stays with its subscription. -/
theorem map_remote_set
    {tasks : List AddTask} {i : Nat} {task new : AddTask}
    (hget : tasks[i]? = some task)
    (hremote : new.remote = task.remote) :
    (tasks.set i new).map AddTask.remote = tasks.map AddTask.remote := by
  rw [List.map_set, hremote]
  refine List.ext_getElem? fun j => ?_
  rw [List.getElem?_set]
  split
  · next hij =>
      subst hij
      rw [List.getElem?_map, hget, List.length_map,
        if_pos (List.getElem?_eq_some_iff.mp hget).1]
      rfl
  · rfl

theorem inv_get
    {i : Nat}
    (hs : Inv remotes db ls s)
    (h : step config s (.get i) = some s') :
    Inv remotes db (ls ++ [.get i]) s' := by
  obtain ⟨hphase, hnotes⟩ := hs
  simp only [step] at h
  split at h
  · next tasks hadding =>
      rw [hadding] at hphase
      split at h
      · next remote hget =>
          cases h
          refine ⟨?_, hnotes.concat _⟩
          have hmem := List.mem_of_getElem? hget
          refine ⟨?_, ?_, ?_, fun sub => (hphase.row sub).concat fun _ => rfl⟩
          · rw [← hphase.remotes_eq]
            exact map_remote_set hget (by split <;> rfl)
          · intro other hother hundeleted
            rcases List.mem_or_eq_of_mem_set hother with hother | hother
            · exact hphase.done other hother hundeleted.of_append
            · split at hother
              · next hfound =>
                  cases hother
                  exact hfound
              · cases hother
          · intro other hother huntouched
            rcases List.mem_or_eq_of_mem_set hother with hother | hother
            · exact hphase.put other hother huntouched.of_append
            · split at hother
              · cases hother
              · next hfound =>
                  cases hother
                  rw [Table.find?_eq_none_iff]
                  intro sub hsub hid
                  have hrow := hphase.row sub hsub (by rw [hid]; exact huntouched.of_append)
                  rw [hid] at hrow
                  rw [hrow] at hfound
                  exact hfound rfl
      · cases h
  · cases h

theorem inv_put
    {i : Nat}
    (hs : Inv remotes db ls s)
    (h : step config s (.put i) = some s') :
    Inv remotes db (ls ++ [.put i]) s' := by
  obtain ⟨hphase, hnotes⟩ := hs
  simp only [step] at h
  split at h
  · next tasks hadding =>
      rw [hadding] at hphase
      split at h
      · next remote hget =>
          cases h
          refine ⟨?_, hnotes.concat _⟩
          have hmem := List.mem_of_getElem? hget
          refine ⟨?_, ?_, ?_, ?_⟩
          · rw [← hphase.remotes_eq]
            exact map_remote_set hget rfl
          · intro other hother hundeleted
            rw [find?_putSubscription]
            split
            · rfl
            · next hne =>
                rcases List.mem_or_eq_of_mem_set hother with hother | hother
                · exact hphase.done other hother hundeleted.of_append
                · cases hother
                  exact absurd rfl hne
          · intro other hother huntouched
            rcases List.mem_or_eq_of_mem_set hother with hother | hother
            · exact hphase.put other hother huntouched.of_append
            · cases hother
          · intro sub hsub huntouched
            rw [changed_concat, find?_putSubscription, if_neg]
            · exact hphase.row sub hsub huntouched.of_append
            · -- what is put was not there, and is not put by anybody else
              intro hid
              change sub.id = remote.id at hid
              have hnone := hphase.put remote hmem (by rw [← hid]; exact huntouched.of_append)
              exact Table.find?_eq_none_iff.mp hnone sub hsub hid
      · cases h
  · cases h

theorem inv_list
    (hs : Inv remotes db ls s)
    (h : step config s .list = some s') :
    Inv remotes db (ls ++ [.list]) s' := by
  obtain ⟨hphase, hnotes⟩ := hs
  simp only [step] at h
  split at h
  · next tasks hadding =>
      rw [hadding] at hphase
      split at h
      · next hall =>
          cases h
          refine ⟨?_, hnotes.concat _⟩
          have hids : tasks.map (fun task => task.remote.id) = remotes.map Remote.id := by
            rw [← hphase.remotes_eq, List.map_map]
            rfl
          have hlisted : ∀ sub ∈ s.db.subscriptions,
              (∃ remote ∈ remotes, remote.id = sub.id) ∨ sub.internal = true ∨
                RemoveTask.delete sub.id ∈ (s.db.subscriptions.rows.filter fun s =>
                  !s.internal && decide (s.id ∉ tasks.map fun task => task.remote.id)).map
                    fun s => .delete s.id := by
            intro sub hsub
            by_cases hremote : sub.id ∈ remotes.map Remote.id
            · exact .inl (List.mem_map.mp hremote)
            · cases hinternal : sub.internal with
              | true =>
                  exact .inr (.inl rfl)
              | false =>
                  refine .inr (.inr (List.mem_map.mpr ⟨sub, List.mem_filter.mpr ⟨hsub, ?_⟩, rfl⟩))
                  rw [hids, hinternal]
                  simp only [Bool.not_false, Bool.true_and, decide_eq_true_eq]
                  exact hremote
          refine ⟨⟨ls, [], rfl⟩, ?_, ?_, ?_, fun sub _ => (hphase.row sub).concat fun _ => rfl⟩
          · intro remote hremote hundeleted
            rw [← hphase.remotes_eq] at hremote
            obtain ⟨task, htask, rfl⟩ := List.mem_map.mp hremote
            have hdone := List.all_eq_true.mp hall task htask
            rw [decide_eq_true_eq] at hdone
            refine hphase.done task.remote ?_ hundeleted.of_append
            rwa [← hdone]
          · intro id hid hkept
            obtain ⟨sub, ⟨hsub, hinternal, hremote⟩, rfl⟩ : ∃ sub : Subscription,
                (sub ∈ s.db.subscriptions ∧ sub.internal = false ∧
                  sub.id ∉ remotes.map Remote.id) ∧ sub.id = id := by
              rcases hid with hid | hid
              · obtain ⟨sub, hsub, heq⟩ := List.mem_map.mp hid
                cases heq
                rw [List.mem_filter, hids, Bool.and_eq_true, Bool.not_eq_true',
                  decide_eq_true_eq] at hsub
                exact ⟨sub, hsub, rfl⟩
              · obtain ⟨sub, -, heq⟩ := List.mem_map.mp hid
                cases heq
            rcases hkept.of_append with ⟨remote, hmem, heq⟩ | ⟨sub₀, hsub₀, heq, hint, huntouched⟩
            · exact hremote (List.mem_map.mpr ⟨remote, hmem, heq⟩)
            · -- an internal subscription is still the row that was listed
              have hrow := hphase.row sub₀ hsub₀ (by rw [heq]; exact huntouched)
              rw [heq, Table.find?_eq_some_iff.mpr ⟨hsub, rfl⟩, Option.some.injEq] at hrow
              rw [hrow, (changed_frame sub₀).2, hint] at hinternal
              cases hinternal
          · intro sub hsub
            rcases hlisted sub hsub with h | h | h
            · exact .inl h
            · exact .inr (.inl h)
            · exact .inr (.inr (.inl h))
      · cases h
  · cases h

theorem Removing.concat
    {T : Table Subscription.id} {tasks tasks' : List RemoveTask}
    (h : Removing remotes db ls T tasks)
    (hl : ∀ sub : Subscription, l.change sub = sub)
    (hgone : ∀ id, RemoveTask.delete id ∈ tasks' ∨ RemoveTask.deleteNotifications id ∈ tasks' →
      RemoveTask.delete id ∈ tasks ∨ RemoveTask.deleteNotifications id ∈ tasks)
    (hrest : ∀ id, RemoveTask.delete id ∈ tasks → RemoveTask.delete id ∈ tasks') :
    Removing remotes db (ls ++ [l]) T tasks' := by
  obtain ⟨before, after, hsplit⟩ := h.listed
  refine ⟨⟨before, after ++ [l], by simp [hsplit]⟩, ?_, ?_, ?_, ?_⟩
  · exact fun remote hremote hundeleted => h.remote remote hremote hundeleted.of_append
  · exact fun id hid hkept => h.gone id (hgone id hid) hkept.of_append
  · intro sub hsub
    rcases h.rest sub hsub with hsub | hsub | hsub | hsub
    · exact .inl hsub
    · exact .inr (.inl hsub)
    · exact .inr (.inr (.inl (hrest _ hsub)))
    · exact .inr (.inr (.inr (hsub.append _)))
  · exact fun sub hkept => (h.row sub hkept.of_append).concat hl

theorem inv_delete
    {i : Nat}
    (hs : Inv remotes db ls s)
    (h : step config s (.delete i) = some s') :
    Inv remotes db (ls ++ [.delete i]) s' := by
  obtain ⟨hphase, hnotes⟩ := hs
  simp only [step] at h
  split at h
  · next tasks hremoving =>
      rw [hremoving] at hphase
      split at h
      · next id hget =>
          cases h
          refine ⟨?_, hnotes.concat _⟩
          have hmem := List.mem_of_getElem? hget
          have hgone := hphase.gone id (.inl hmem)
          obtain ⟨before, after, hsplit⟩ := hphase.listed
          refine ⟨⟨before, after ++ [.delete i], by simp [hsplit]⟩, ?_, ?_, ?_, ?_⟩
          · intro remote hremote hundeleted
            rw [find?_removeSubscription, if_neg]
            · exact hphase.remote remote hremote hundeleted.of_append
            · exact fun hid => hgone (.inl ⟨remote, hremote, hid⟩)
          · intro other hother hkept
            refine hphase.gone other ?_ hkept.of_append
            rcases hother with hother | hother
            · rcases List.mem_or_eq_of_mem_set hother with hother | hother
              · exact .inl hother
              · cases hother
            · rcases List.mem_or_eq_of_mem_set hother with hother | hother
              · exact .inr hother
              · cases hother
                exact .inl hmem
          · intro sub hsub
            rw [removeSubscription, Table.mem_delete_iff, decide_eq_false_iff_not] at hsub
            rcases hphase.rest sub hsub.1 with h | h | h | h
            · exact .inl h
            · exact .inr (.inl h)
            · refine .inr (.inr (.inl (mem_set_of_ne hget h ?_)))
              rintro ⟨⟩
              exact hsub.2 rfl
            · exact .inr (.inr (.inr (h.append _)))
          · intro sub hkept hsub huntouched
            rw [changed_concat, find?_removeSubscription, if_neg]
            · exact hphase.row sub hkept.of_append hsub huntouched.of_append
            · rintro rfl
              exact hgone hkept.of_append
      · cases h
  · cases h

theorem inv_deleteNotifications
    {i : Nat}
    (hs : Inv remotes db ls s)
    (h : step config s (.deleteNotifications i) = some s') :
    Inv remotes db (ls ++ [.deleteNotifications i]) s' := by
  obtain ⟨hphase, hnotes⟩ := hs
  simp only [step] at h
  split at h
  · next tasks hremoving =>
      rw [hremoving] at hphase
      split at h
      · next id hget =>
          cases h
          have hmem := List.mem_of_getElem? hget
          refine ⟨?_, ?_⟩
          · refine hphase.concat (fun _ => rfl) ?_ ?_
            · intro other hother
              rcases hother with hother | hother
              · rcases List.mem_or_eq_of_mem_set hother with hother | hother
                · exact .inl hother
                · cases hother
              · rcases List.mem_or_eq_of_mem_set hother with hother | hother
                · exact .inr hother
                · cases hother
            · exact fun other hother => mem_set_of_ne hget hother nofun
          · intro n hn hdeleted hall hkept
            rw [removeNotifications, Table.mem_delete_iff, decide_eq_false_iff_not]
            refine ⟨hnotes.concat _ n hn hdeleted hall hkept, ?_⟩
            rintro rfl
            exact hphase.gone _ (.inr hmem) hkept.of_append
      · cases h
  · cases h

/-- What an access of somebody else leaves under an ID. -/
theorem find?_run
    {access : Access} {id : JSString}
    (h : Untouched (ls ++ [.other access]) id) :
    (access.run db).subscriptions.find? id =
      (db.subscriptions.find? id).map (Label.other access).change := by
  have hmem : Label.other access ∈ ls ++ [.other access] :=
    List.mem_append_right ls (List.mem_singleton.mpr rfl)
  have hid : ∀ found : Option Subscription, (found.map fun sub => sub) = found :=
    fun found => by simp
  cases access with
  | put subscription =>
      have hne : id ≠ subscription.id := fun heq => h.put subscription hmem heq.symm
      exact (find?_putSubscription subscription id).trans ((if_neg hne).trans (hid _).symm)
  | delete other =>
      have hne : id ≠ other := fun heq => h.undeleted (by rwa [heq])
      exact (find?_removeSubscription other id).trans ((if_neg hne).trans (hid _).symm)
  | update other change =>
      exact find?_updateSubscription other id change
  | addNotification n => exact (hid _).symm
  | deleteNotification other => exact (hid _).symm
  | deleteNotifications other => exact (hid _).symm

theorem isSome_run
    {access : Access} {id : JSString}
    (h : Undeleted (ls ++ [.other access]) id)
    (hfound : (db.subscriptions.find? id).isSome = true) :
    ((access.run db).subscriptions.find? id).isSome = true := by
  cases access with
  | put subscription =>
      simp only [Access.run, find?_putSubscription]
      split
      · rfl
      · exact hfound
  | delete other =>
      have hne : id ≠ other := by
        rintro rfl
        exact h (List.mem_append_right ls (List.mem_singleton.mpr rfl))
      simpa only [Access.run, find?_removeSubscription, if_neg hne] using hfound
  | update other change =>
      simpa only [Access.run, find?_updateSubscription, Option.isSome_map] using hfound
  | addNotification n => exact hfound
  | deleteNotification other => exact hfound
  | deleteNotifications other => exact hfound

/-- A row after an access was there, or is the one that was put. -/
theorem row_of_mem_run
    {access : Access} {sub : Subscription}
    (h : sub ∈ (access.run db).subscriptions) :
    (∃ old ∈ db.subscriptions, old.id = sub.id ∧ old.internal = sub.internal) ∨
      access = .put sub := by
  cases access with
  | put subscription =>
      rcases mem_putSubscription_iff.mp h with rfl | ⟨h, -⟩
      · exact .inr rfl
      · exact .inl ⟨sub, h, rfl, rfl⟩
  | delete other =>
      exact .inl ⟨sub, (Table.mem_delete_iff.mp h).1, rfl, rfl⟩
  | update other change =>
      obtain ⟨old, hold, rfl⟩ := mem_updateSubscription_iff.mp h
      refine .inl ⟨old, hold, ?_⟩
      split <;> simp
  | addNotification n => exact .inl ⟨sub, h, rfl, rfl⟩
  | deleteNotification other => exact .inl ⟨sub, h, rfl, rfl⟩
  | deleteNotifications other => exact .inl ⟨sub, h, rfl, rfl⟩

theorem mem_notifications_run
    {access : Access} {n : Notification}
    (hn : n ∈ db.notifications)
    (hdeleted : access ≠ .deleteNotification n.id)
    (hall : access ≠ .deleteNotifications n.subscriptionId) :
    n ∈ (access.run db).notifications := by
  cases access with
  | put subscription => exact hn
  | delete other => exact hn
  | update other change => exact hn
  | addNotification m =>
      simp only [Access.run]
      cases hinsert : db.notifications.insert? m with
      | none => exact hn
      | some T => exact (Table.mem_insert?_iff hinsert).mpr (.inl hn)
  | deleteNotification other =>
      refine Table.mem_delete_iff.mpr ⟨hn, decide_eq_false ?_⟩
      rintro rfl
      exact hdeleted rfl
  | deleteNotifications other =>
      refine Table.mem_delete_iff.mpr ⟨hn, decide_eq_false ?_⟩
      rintro rfl
      exact hall rfl

theorem HasRow.run
    {access : Access} {sub : Subscription} {db' : Database}
    (h : HasRow db ls db'.subscriptions sub) :
    HasRow db (ls ++ [.other access]) (access.run db').subscriptions sub := by
  intro hs huntouched
  rw [find?_run huntouched, h hs huntouched.of_append, changed_concat]
  rfl

theorem inv_other
    {access : Access}
    (hs : Inv remotes db ls s)
    (h : step config s (.other access) = some s') :
    Inv remotes db (ls ++ [.other access]) s' := by
  obtain ⟨hphase, hnotes⟩ := hs
  cases h
  have hlast : Label.other access ∈ ls ++ [.other access] :=
    List.mem_append_right ls (List.mem_singleton.mpr rfl)
  refine ⟨?_, ?_⟩
  · change match s.phase with
      | .adding tasks => Adding _ _ _ _ tasks
      | .removing tasks => Removing _ _ _ _ tasks
    split at hphase
    · next tasks heq =>
        exact ⟨hphase.remotes_eq,
          fun remote hmem hundeleted =>
            isSome_run hundeleted (hphase.done remote hmem hundeleted.of_append),
          fun remote hmem huntouched => hphase.put remote hmem huntouched.of_append,
          fun sub => (hphase.row sub).run⟩
    · next tasks heq =>
        obtain ⟨before, after, hsplit⟩ := hphase.listed
        refine ⟨⟨before, after ++ [.other access], by simp [hsplit]⟩, ?_, ?_, ?_, ?_⟩
        · exact fun remote hmem hundeleted =>
            isSome_run hundeleted (hphase.remote remote hmem hundeleted.of_append)
        · exact fun id hid hkept => hphase.gone id hid hkept.of_append
        · intro sub hsub
          rcases row_of_mem_run hsub with ⟨old, hold, hid, hinternal⟩ | hput
          · rw [← hid, ← hinternal]
            rcases hphase.rest old hold with h | h | h | h
            · exact .inl h
            · exact .inr (.inl h)
            · exact .inr (.inr (.inl h))
            · exact .inr (.inr (.inr (h.append _)))
          · -- the subscriptions are listed already
            refine .inr (.inr (.inr ⟨before, after ++ [.other access], sub, ?_, ?_, rfl⟩))
            · simp [hsplit]
            · rw [← hput]
              exact List.mem_append_right after (List.mem_singleton.mpr rfl)
        · exact fun sub hkept => (hphase.row sub hkept.of_append).run
  · intro n hn hdeleted hall hkept
    refine mem_notifications_run (hnotes.concat _ n hn hdeleted hall hkept) ?_ ?_
    · rintro rfl
      exact hdeleted hlast
    · rintro rfl
      exact hall hlast

/-- What holds between two accesses. -/
theorem inv_step
    (hs : Inv remotes db ls s)
    (h : step config s l = some s') :
    Inv remotes db (ls ++ [l]) s' := by
  cases l with
  | get i => exact inv_get hs h
  | put i => exact inv_put hs h
  | list => exact inv_list hs h
  | delete i => exact inv_delete hs h
  | deleteNotifications i => exact inv_deleteNotifications hs h
  | other access => exact inv_other hs h

end Invariant

section Syncs

variable {config : Config}
variable {remotes : List Remote}
variable {db : Database}
variable {ls : List Label}
variable {s : State}

/-- What a sync leaves, whatever the other parts of the application do in between: the
subscriptions of the account are there, every other one is internal or was put after the
local ones were listed, and what was there and is kept has lost neither its changes nor its
notifications. -/
theorem sync_spec
    (hrun : run (step config) (start remotes db) ls = some s)
    (hended : s.ended) :
    (∀ remote ∈ remotes, Undeleted ls remote.id →
      ∃ sub ∈ s.db.subscriptions, sub.id = remote.id) ∧
    (∀ sub ∈ s.db.subscriptions, (∃ remote ∈ remotes, remote.id = sub.id) ∨
      sub.internal = true ∨ PutLate ls sub.id) ∧
    (∀ sub ∈ db.subscriptions, Untouched ls sub.id →
      (∃ remote ∈ remotes, remote.id = sub.id) ∨ sub.internal = true →
        changed ls sub ∈ s.db.subscriptions) ∧
    ∀ n ∈ db.notifications, Label.other (.deleteNotification n.id) ∉ ls →
      Label.other (.deleteNotifications n.subscriptionId) ∉ ls →
      Kept remotes db ls n.subscriptionId → n ∈ s.db.notifications := by
  obtain ⟨hphase, hnotes⟩ := run_history (fun _ _ _ _ => inv_step) inv_start hrun
  rw [List.nil_append] at hphase hnotes
  obtain ⟨tasks, hremoving, hdone⟩ := hended
  rw [hremoving] at hphase
  refine ⟨?_, ?_, ?_, hnotes⟩
  · intro remote hremote hundeleted
    exact Table.find?_isSome_iff.mp (hphase.remote remote hremote hundeleted)
  · intro sub hsub
    rcases hphase.rest sub hsub with h | h | h | h
    · exact .inl h
    · exact .inr (.inl h)
    · cases hdone _ h
    · exact .inr (.inr h)
  · intro sub hsub huntouched hkept
    have hrow := hphase.row sub ?_ hsub huntouched
    · exact (Table.find?_eq_some_iff.mp hrow).1
    · rcases hkept with hremote | hinternal
      · exact .inl hremote
      · exact .inr ⟨sub, hsub, rfl, hinternal, huntouched⟩

/-- The account has `news`.  Somebody mutes the internal subscription, and subscribes to
`late` after the local subscriptions are listed; `old` is removed. -/
theorem sync_spec_news :
    let text := JSString.ofString
    let stored := fun topic internal =>
      (⟨topicUrl (text "h") (text topic), text "h", text topic, 0, none, none, none, internal⟩ :
        Subscription)
    let internal := stored "i" true
    let late := stored "late" false
    let remote := (⟨text "h", text "news", none⟩ : Remote)
    let notification := fun id (sub : Subscription) => (⟨text id, sub.id⟩ : Notification)
    let db : Database := ⟨⟨[stored "old" false, internal], by decide⟩,
      ⟨[notification "1" (stored "old" false), notification "2" internal], by decide⟩⟩
    let muted := { internal with mutedUntil := 1 }
    let labels := [.get 0, .other (.update internal.id (.mutedUntil 1)), .put 0, .list,
      .other (.put late), .delete 0, .deleteNotifications 0]
    let synced : State := ⟨⟨⟨[muted, stored "news" false, late], by decide⟩,
      ⟨[notification "2" internal], by decide⟩⟩, .removing [.done]⟩
    run (step ⟨text "h", []⟩) (start [remote] db) labels = some synced ∧
      (∃ sub ∈ synced.db.subscriptions, sub.id = remote.id) ∧
      changed labels internal ∈ synced.db.subscriptions ∧
      notification "2" internal ∈ synced.db.notifications ∧ PutLate labels late.id := by
  intro text stored internal late remote notification db muted labels synced
  have hrun : run (step ⟨text "h", []⟩) (start [remote] db) labels = some synced := rfl
  have hended : synced.ended := ⟨[.done], rfl, by decide⟩
  have huntouched : Untouched labels internal.id := by
    refine ⟨fun subscription hmem => ?_, by decide⟩
    simp only [labels, List.mem_cons, Label.other.injEq, Access.put.injEq, reduceCtorEq,
      List.not_mem_nil, false_or, or_false] at hmem
    subst hmem
    decide
  obtain ⟨hremote, -, hkept, hnotes⟩ := sync_spec hrun hended
  refine ⟨hrun, ?_, ?_, ?_, ?_⟩
  · exact hremote remote (by decide) (by decide)
  · exact hkept internal (by decide) huntouched (.inr rfl)
  · exact hnotes _ (by decide) (by decide) (by decide)
      (.inr ⟨internal, by decide, rfl, rfl, huntouched⟩)
  · exact ⟨labels.take 3, labels.drop 4, late, rfl, by decide, rfl⟩

end Syncs

end SubscriptionSync
end Web
end CoopMessenger
