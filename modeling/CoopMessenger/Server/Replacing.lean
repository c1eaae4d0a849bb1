import CoopMessenger.Server.Scheduling

/-!
# Replaced messages

A message with a sequence ID replaces the scheduled message of its sequence: the request
deletes that message and then adds its own.  Between the two, and as long as its message
is in the batching queue, the `DELETE` of another request does not see it.

**Results.**
* `one_pending_per_sequence`: at most one message of a sequence is pending, as long as
  no request for a later time executes its `DELETE` while another message of the
  sequence is on its way.
-/

namespace CoopMessenger
namespace Server

open Library Util

namespace Scheduling

section Spec

/-- At most one message of each sequence is pending. -/
def OnePending (c : MessageCache) : Prop :=
  ∀ r ∈ c.rows, ∀ r' ∈ c.rows, r.published = false → r'.published = false →
    r.message.topic = r'.message.topic →
      r.message.sequenceID = r'.message.sequenceID → r = r'

instance decidableOnePending
    (c : MessageCache) :
    Decidable (OnePending c) := by
  unfold OnePending
  infer_instance

/-- No scheduled message that is covered is on its way to the cache. -/
def NoneOnTheWay
    (s : State)
    (c : Cancellation) : Prop :=
  (∀ m ∈ s.queued, s.now < m.time → ¬ c.Covers (keyOf m)) ∧
    ∀ p ∈ s.publishing, p.cleared = true → s.now < p.message.time →
      ¬ c.Covers (keyOf p.message)

/--
A request for a later time executes its `DELETE` when no other scheduled message of its
sequence is on its way.
-/
def Alone
    (s : State) : Label → Prop
  | .clear id =>
      ∀ p ∈ s.publishing, p.id = id → p.cleared = false → s.now < p.message.time →
        NoneOnTheWay s (.sequence p.message.topic p.message.sequenceID)
  | _ => True

instance decidableNoneOnTheWay
    (s : State) (c : Cancellation) :
    Decidable (NoneOnTheWay s c) := by
  unfold NoneOnTheWay
  infer_instance

instance decidableAlone
    (s : State) (l : Label) :
    Decidable (Alone s l) :=
  match l with
  | .clear id =>
      inferInstanceAs (Decidable (∀ p ∈ s.publishing, p.id = id → p.cleared = false →
        s.now < p.message.time →
          NoneOnTheWay s (.sequence p.message.topic p.message.sequenceID)))
  | .tick _ | .publish _ _ | .act _ _ | .add _ | .abort _ | .tickQueue | .commit _ _
  | .deleteMessagesByTopic _ | .expireMessages _ | .messagesExpired | .deleteMessages
  | .messagesDue | .send _ _ | .setTopics _ | .setUsers _ => isTrue trivial

end Spec

section Preservation

variable {s s' : State}
variable {k : Key}

/-- The message is pending, or will be when it gets to the cache in time. -/
inductive Carried (s : State) (k : Key) : Prop
  | row
      {r : StoredMessage}
      (hr : r ∈ s.cache.rows)
      (hpending : r.published = false)
      (hkey : keyOf r.message = k) :
      Carried s k
  | queued
      {m : Message}
      (hm : m ∈ s.queued)
      (htime : s.now < m.time)
      (hkey : keyOf m = k) :
      Carried s k
  | publishing
      {p : Publishing}
      (hp : p ∈ s.publishing)
      (hcleared : p.cleared = true)
      (htime : s.now < p.message.time)
      (hkey : keyOf p.message = k) :
      Carried s k

/-- At most one message of each sequence is pending or on its way. -/
structure OneCarried (s : State) : Prop where
  distinct : Distinct s
  one :
    ∀ k k', Carried s k → Carried s k' → k.topic = k'.topic →
      k.sequenceID = k'.sequenceID → k.id = k'.id

theorem OneCarried.onePending
    (h : OneCarried s) :
    OnePending s.cache := by
  intro r hr r' hr' hpending hpending' htopic hsequence
  refine h.distinct.eq_of_id_eq hr hr' ?_
  exact h.one (keyOf r.message) (keyOf r'.message) (.row hr hpending rfl)
    (.row hr' hpending' rfl) htopic hsequence

theorem Carried.of_shrinks
    {c : MessageCache}
    (hcache : Shrinks s.cache c)
    (hk : ∃ r ∈ c.rows, r.published = false ∧ keyOf r.message = k) :
    Carried s k := by
  obtain ⟨r', hr', hpending, rfl⟩ := hk
  obtain ⟨r, hr, -, hkey, hold⟩ := hcache.rows r' hr'
  exact .row hr (hold hpending) hkey

/-- A row that is stored as pending has carried its message before. -/
theorem Carried.of_addMessages
    {c : MessageCache} {ms : List Message}
    (hadd : s.cache.addMessages s.now ms = .ok c)
    (hms : ∀ m ∈ ms, s.now < m.time → Carried s (keyOf m))
    {r : StoredMessage}
    (hr : r ∈ c.rows)
    (hpending : r.published = false) :
    Carried s (keyOf r.message) := by
  rcases MessageCache.mem_addMessages hadd hr with hold | ⟨hm, hdecide⟩
  · exact .row hold hpending rfl
  · rw [hpending] at hdecide
    exact hms r.message hm (Nat.lt_of_not_le (of_decide_eq_false hdecide.symm))

/-- No step but a `DELETE` lets a message be carried that was not before. -/
theorem Carried.of_move
    {l : Label}
    (hmove : Move s l s')
    (hl : ∀ id, l ≠ .clear id)
    (hk : Carried s' k) :
    Carried s k := by
  cases hmove with
  | quiet hquiet =>
      cases hk with
      | row hr hpending hkey =>
          exact .of_shrinks hquiet.cache ⟨_, hr, hpending, hkey⟩
      | queued hm htime hkey =>
          exact .queued (hquiet.queued.subset hm)
            (Nat.lt_of_le_of_lt hquiet.now htime) hkey
      | publishing hp hcleared htime hkey =>
          exact .publishing (hquiet.publishing.subset hp) hcleared
            (Nat.lt_of_le_of_lt hquiet.now htime) hkey
  | @start l p publishing hfresh hact hrows =>
      cases hk with
      | row hr hpending hkey =>
          exact .row hr hpending hkey
      | queued hm htime hkey =>
          exact .queued hm htime hkey
      | @publishing q hq hcleared htime hkey =>
          rw [Table.mem_def, hrows, List.mem_append, List.mem_singleton] at hq
          rcases hq with hq | rfl
          · exact .publishing hq hcleared htime hkey
          · exact absurd htime (Nat.not_lt_of_le (hact hcleared))
  | @clear p hp hfirst =>
      exact absurd rfl (hl p.id)
  | @write p cache hp hcleared hqueue hadd =>
      cases hk with
      | row hr hpending hkey =>
          rw [← hkey]
          refine Carried.of_addMessages hadd (fun m hm htime => ?_) hr hpending
          rw [List.mem_singleton.mp hm] at htime ⊢
          exact .publishing hp hcleared htime rfl
      | queued hm htime hkey =>
          exact .queued hm htime hkey
      | publishing hq hcleared htime hkey =>
          exact .publishing (Table.mem_delete_iff.mp hq).1 hcleared htime hkey
  | @enqueue p q hp hcleared hqueue =>
      cases hk with
      | row hr hpending hkey =>
          exact .row hr hpending hkey
      | @queued m hm htime hkey =>
          have hqueued : s.queued = q.contents := by simp [State.queued, hqueue]
          have hm : m ∈ s.queued ∨ m = p.message := by
            rw [hqueued]
            simpa [State.queued] using hm
          rcases hm with hm | rfl
          · exact .queued hm htime hkey
          · exact .publishing hp hcleared htime hkey
      | publishing hq hcleared htime hkey =>
          exact .publishing (Table.mem_delete_iff.mp hq).1 hcleared htime hkey
  | @commit j q q' batch cache hqueue hbatch hadd =>
      have hqueued : s.queued = q.contents := by simp [State.queued, hqueue]
      obtain ⟨hperm, hsub⟩ := BatchingQueue.perm_dequeue hbatch
      cases hk with
      | row hr hpending hkey =>
          rw [← hkey]
          refine Carried.of_addMessages hadd (fun m hm htime => ?_) hr hpending
          refine .queued ?_ htime rfl
          rw [hqueued]
          exact hperm.subset (List.mem_append.mpr (Or.inl hm))
      | queued hm htime hkey =>
          refine .queued ?_ htime hkey
          rw [hqueued]
          exact hsub.subset hm
      | publishing hp hcleared htime hkey =>
          exact .publishing hp hcleared htime hkey
  | deleteTopic topic =>
      cases hk with
      | row hr hpending hkey =>
          exact .of_shrinks (shrinks_filter _ _) ⟨_, hr, hpending, hkey⟩
      | queued hm htime hkey =>
          exact .queued hm htime hkey
      | publishing hp hcleared htime hkey =>
          exact .publishing hp hcleared htime hkey
  | expire topics =>
      cases hk with
      | row hr hpending hkey =>
          exact .of_shrinks (shrinks_expireMessages _ _ _) ⟨_, hr, hpending, hkey⟩
      | queued hm htime hkey =>
          exact .queued hm htime hkey
      | publishing hp hcleared htime hkey =>
          exact .publishing hp hcleared htime hkey
  | due =>
      cases hk with
      | row hr hpending hkey =>
          exact .row hr hpending hkey
      | queued hm htime hkey =>
          exact .queued hm htime hkey
      | publishing hp hcleared htime hkey =>
          exact .publishing hp hcleared htime hkey

/-- After a `DELETE` a message is that of the request, or of another sequence. -/
theorem carried_clear
    {p : Publishing}
    (hp : p ∈ s.publishing)
    (hk : Carried
      { s with
        cache :=
          s.cache.deleteScheduledBySequenceID p.message.topic p.message.sequenceID
        publishing :=
          s.publishing.modify
            (fun q => if q.id = p.id then { q with cleared := true } else q)
            (by intro q; split <;> rfl)
        history :=
          .cancelled (.sequence p.message.topic p.message.sequenceID) :: s.history }
      k) :
    (k = keyOf p.message ∧ s.now < p.message.time) ∨
      (Carried s k ∧
        (NoneOnTheWay s (.sequence p.message.topic p.message.sequenceID) →
          ¬ (Cancellation.sequence p.message.topic p.message.sequenceID).Covers k)) := by
  cases hk with
  | @row r hr hpending hkey =>
      obtain ⟨hr, hkept⟩ := List.mem_filter.mp hr
      refine Or.inr ⟨.row hr hpending hkey, fun _ hcovers => ?_⟩
      rw [← hkey] at hcovers
      have htopic : r.message.topic = p.message.topic := hcovers.1
      have hsequence : r.message.sequenceID = p.message.sequenceID := hcovers.2
      simp [htopic, hsequence, hpending] at hkept
  | queued hm htime hkey =>
      refine Or.inr ⟨.queued hm htime hkey, fun hnone => ?_⟩
      rw [← hkey]
      exact hnone.1 _ hm htime
  | @publishing q' hq' hcleared htime hkey =>
      obtain ⟨q, hq, rfl⟩ := List.mem_map.mp hq'
      by_cases hid : q.id = p.id
      · left
        have hsame : q = p := Table.eq_of_key_eq hq hp hid
        subst hsame
        simp only [if_true] at hkey htime
        exact ⟨hkey.symm, htime⟩
      · simp only [if_neg hid] at hcleared htime hkey
        refine Or.inr ⟨.publishing hq hcleared htime hkey, fun hnone => ?_⟩
        rw [← hkey]
        exact hnone.2 _ hq hcleared htime

/-- The step of a request that executes its `DELETE`. -/
theorem clear_cases
    {id : Nat}
    (hstep : step s (.clear id) = some s') :
    ∃ p ∈ s.publishing, p.id = id ∧ p.cleared = false ∧
      s' =
        { s with
          cache :=
            s.cache.deleteScheduledBySequenceID p.message.topic p.message.sequenceID
          publishing :=
            s.publishing.modify
              (fun q => if q.id = p.id then { q with cleared := true } else q)
              (by intro q; split <;> rfl)
          history :=
            .cancelled (.sequence p.message.topic p.message.sequenceID) :: s.history } := by
  simp only [step] at hstep
  split at hstep
  case h_1 id' m hfind =>
    obtain ⟨hp, rfl⟩ := Table.find?_eq_some_iff.mp hfind
    cases hstep
    exact ⟨_, hp, rfl, rfl, rfl⟩
  case h_2 =>
    cases hstep

theorem OneCarried.clear
    (h : OneCarried s)
    {id : Nat}
    (halone : Alone s (.clear id))
    (hstep : step s (.clear id) = some s') :
    OneCarried s' := by
  refine ⟨h.distinct.move (step_move hstep), ?_⟩
  obtain ⟨p, hp, rfl, hfirst, rfl⟩ := clear_cases hstep
  have hnone : s.now < p.message.time →
      NoneOnTheWay s (.sequence p.message.topic p.message.sequenceID) :=
    halone p hp rfl hfirst
  intro k k' hk hk' htopic hsequence
  rcases carried_clear hp hk with ⟨rfl, htime⟩ | ⟨hold, hother⟩
  · rcases carried_clear hp hk' with ⟨rfl, -⟩ | ⟨-, hother'⟩
    · rfl
    · exact absurd ⟨htopic.symm, hsequence.symm⟩ (hother' (hnone htime))
  · rcases carried_clear hp hk' with ⟨rfl, htime⟩ | ⟨hold', -⟩
    · exact absurd ⟨htopic, hsequence⟩ (hother (hnone htime))
    · exact h.one k k' hold hold' htopic hsequence

theorem OneCarried.step
    (h : OneCarried s)
    {l : Label}
    (halone : Alone s l)
    (hstep : step s l = some s') :
    OneCarried s' := by
  by_cases hclear : ∃ id, l = .clear id
  · obtain ⟨id, rfl⟩ := hclear
    exact h.clear halone hstep
  · have hother : ∀ id, l ≠ .clear id := fun id heq => hclear ⟨id, heq⟩
    have hmove := step_move hstep
    exact ⟨h.distinct.move hmove, fun k k' hk hk' =>
      h.one k k' (hk.of_move hmove hother) (hk'.of_move hmove hother)⟩

/--
In every run in which a request for a later time executes its `DELETE` only when no other
scheduled message of its sequence is on its way, at most one message of each sequence is
pending.
-/
theorem one_pending_per_sequence
    {now : Nat} {queue : Option Nat} {users : Option (List String)}
    {ls : List Label}
    (halone : Along step Alone (initial now queue users) ls)
    (hrun : run step (initial now queue users) ls = some s) :
    OnePending s.cache := by
  have hstart : OneCarried (initial now queue users) := by
    refine ⟨distinct_initial now queue users, fun k k' hk => ?_⟩
    cases hk with
    | row hr =>
        cases hr
    | queued hm =>
        cases queue <;> cases hm
    | publishing hp =>
        cases hp
  have hs : OneCarried s := run_invariant_along
    (fun _ _ _ hs halone hstep => hs.step halone hstep) hstart halone hrun
  exact hs.onePending

end Preservation

section Examples

/-- Another request for the same sequence. -/
def rescheduleMessage : List Label :=
  [.publish 2 (exampleMessage "bbbbbbbbbbbb" "hello" 6000), .clear 2, .add 2]

theorem rescheduled_example :
    ∃ s, run step (initial 1000 none (some ["u_phil"]))
        (scheduleMessage ++ rescheduleMessage) = some s ∧ OnePending s.cache := by
  have halone : Along step Alone (initial 1000 none (some ["u_phil"]))
      (scheduleMessage ++ rescheduleMessage) := by
    decide
  have hrun : (run step (initial 1000 none (some ["u_phil"]))
      (scheduleMessage ++ rescheduleMessage)).isSome = true := by
    decide
  obtain ⟨s, hs⟩ := Option.isSome_iff_exists.mp hrun
  exact ⟨s, hs, one_pending_per_sequence halone hs⟩

/-- Both requests execute their `DELETE` before one of them has added its message. -/
def rescheduledAtOnce : List Label :=
  [.publish 1 (exampleMessage "aaaaaaaaaaaa" "hello" 5000),
    .publish 2 (exampleMessage "bbbbbbbbbbbb" "hello" 6000),
    .clear 1, .clear 2, .add 1, .add 2]

/-- The first message is in the batching queue when the second request comes. -/
def rescheduledInQueue : List Label :=
  scheduleMessage ++ rescheduleMessage ++ [.tickQueue, .commit 0 false]

/-- Two ways to two pending messages of a sequence. -/
theorem two_pending_in_sequence :
    (run step (initial 1000 none (some ["u_phil"])) rescheduledAtOnce).map
        (fun s => decide (OnePending s.cache)) = some false ∧
      (run step (initial 1000 (some 10) (some ["u_phil"])) rescheduledInQueue).map
        (fun s => decide (OnePending s.cache)) = some false := by
  constructor
  · decide
  · decide

end Examples

end Scheduling

end Server
end CoopMessenger
