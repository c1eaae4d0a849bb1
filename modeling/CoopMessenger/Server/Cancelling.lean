import CoopMessenger.Server.Scheduling

/-!
# Cancelled messages

A scheduled message is cancelled by the deletion of its sequence, by another message
with its sequence ID, by an administrator who deletes the messages of its topic, or when
the messages of its topic are made to expire.  The delayed sender works from a list that
it has read before, a message in the batching queue is out of reach of a `DELETE`, and
expiry does not matter to it.

**Results.**
* `cancelled_stays_cancelled`: a cancelled message is not delivered any more, as long as
  no message is cancelled that is in the list or in the queue, and no scheduled message
  is made to expire.
-/

namespace CoopMessenger
namespace Server

open Library Util

namespace Scheduling

section Spec

/-- Was the message added, and then cancelled? -/
def Cancelled
    (h : List Event)
    (k : Key) : Prop :=
  ∃ later c earlier, h = later ++ .cancelled c :: earlier ∧ c.Covers k ∧
    .added k ∈ earlier

/-- No message is delivered after it was cancelled. -/
def StaysCancelled
    (h : List Event) : Prop :=
  ∀ later k earlier, h = later ++ .delivered k :: earlier → ¬ Cancelled earlier k

/-- No scheduled message that waits in the list or in the queue is covered. -/
def NoneWaiting
    (s : State)
    (c : Cancellation) : Prop :=
  (∀ m ∈ s.due, ¬ c.Covers (keyOf m)) ∧
    ∀ m ∈ s.queued, s.now < m.time → ¬ c.Covers (keyOf m)

/--
What the step cancels is neither in the list of the sender nor in the queue, and what
it makes expire is not scheduled.
-/
def InReach
    (s : State) : Label → Prop
  | .clear id =>
      ∀ p ∈ s.publishing, p.id = id → p.cleared = false →
        NoneWaiting s (.sequence p.message.topic p.message.sequenceID)
  | .deleteMessagesByTopic topic => NoneWaiting s (.topics [topic])
  | .expireMessages topics =>
      NoneWaiting s (.topics topics) ∧
        ∀ r ∈ s.cache.rows, r.published = false → r.message.topic ∉ topics
  | _ => True

instance decidableNoneWaiting
    (s : State) (c : Cancellation) :
    Decidable (NoneWaiting s c) := by
  unfold NoneWaiting
  infer_instance

instance decidableInReach
    (s : State) (l : Label) :
    Decidable (InReach s l) := by
  cases l <;> unfold InReach <;> infer_instance

end Spec

section Histories

variable {h : List Event}
variable {k : Key}

theorem cancelled_cons_iff
    {e : Event} :
    Cancelled (e :: h) k ↔
      (∃ c, e = .cancelled c ∧ c.Covers k ∧ .added k ∈ h) ∨ Cancelled h k := by
  constructor
  · rintro ⟨later, c, earlier, heq, hcovers, hadded⟩
    cases later with
    | nil =>
        obtain ⟨rfl, rfl⟩ := List.cons.inj heq
        exact Or.inl ⟨c, rfl, hcovers, hadded⟩
    | cons d later =>
        exact Or.inr ⟨later, c, earlier, (List.cons.inj heq).2, hcovers, hadded⟩
  · rintro (⟨c, rfl, hcovers, hadded⟩ | ⟨later, c, earlier, rfl, hcovers, hadded⟩)
    · exact ⟨[], c, h, rfl, hcovers, hadded⟩
    · exact ⟨e :: later, c, earlier, rfl, hcovers, hadded⟩

theorem cancelled_cons_added_iff
    {k' : Key} :
    Cancelled (.added k' :: h) k ↔ Cancelled h k := by
  rw [cancelled_cons_iff]
  refine or_iff_right ?_
  rintro ⟨c, heq, -⟩
  cases heq

theorem cancelled_cons_delivered_iff
    {k' : Key} :
    Cancelled (.delivered k' :: h) k ↔ Cancelled h k := by
  rw [cancelled_cons_iff]
  refine or_iff_right ?_
  rintro ⟨c, heq, -⟩
  cases heq

/-- A cancellation cancels only what it covers. -/
theorem not_cancelled_cons
    {c : Cancellation}
    (hnot : ¬ Cancelled h k)
    (hcovers : ¬ c.Covers k) :
    ¬ Cancelled (.cancelled c :: h) k := by
  rw [cancelled_cons_iff, not_or]
  refine ⟨?_, hnot⟩
  rintro ⟨c', heq, hcovers', -⟩
  cases heq
  exact hcovers hcovers'

/-- What was never added is not cancelled. -/
theorem not_cancelled_of_not_added
    (hnot : .added k ∉ h) :
    ¬ Cancelled h k := by
  rintro ⟨later, c, earlier, rfl, -, hadded⟩
  exact hnot (List.mem_append.mpr (Or.inr (List.mem_cons_of_mem _ hadded)))

theorem StaysCancelled.cons
    (hh : StaysCancelled h)
    {e : Event}
    (he : ∀ k, e = .delivered k → ¬ Cancelled h k) :
    StaysCancelled (e :: h) := by
  intro later k earlier heq
  cases later with
  | nil =>
      obtain ⟨rfl, rfl⟩ := List.cons.inj heq
      exact he k rfl
  | cons d later =>
      exact hh later k earlier (List.cons.inj heq).2

end Histories

section Preservation

variable {s s' : State}

/-- Whatever may still be delivered has not been cancelled. -/
structure Pending (s : State) : Prop where
  distinct : Distinct s
  due : ∀ m ∈ s.due, ¬ Cancelled s.history (keyOf m)
  rows :
    ∀ r ∈ s.cache.rows, r.published = false → ¬ Cancelled s.history (keyOf r.message)
  queued : ∀ m ∈ s.queued, s.now < m.time → ¬ Cancelled s.history (keyOf m)
  publishing : ∀ p ∈ s.publishing, .added (keyOf p.message) ∉ s.history
  used : ∀ k, .added k ∈ s.history → k.id ∈ s.used
  stays : StaysCancelled s.history

theorem Pending.quiet
    (h : Pending s)
    (hquiet : Quiet s s')
    (hdistinct : Distinct s') :
    Pending s' := by
  have hcancelled : ∀ k, Cancelled s'.history k → Cancelled s.history k := by
    intro k hk
    rcases hquiet.history with heq | ⟨m, -, heq⟩
    · rwa [heq] at hk
    · rwa [heq, cancelled_cons_delivered_iff] at hk
  have hadded : ∀ k, .added k ∈ s'.history → .added k ∈ s.history := by
    intro k hk
    rcases hquiet.history with heq | ⟨m, -, heq⟩
    · rwa [heq] at hk
    · rw [heq] at hk
      rcases List.mem_cons.mp hk with hk | hk
      · cases hk
      · exact hk
  refine ⟨hdistinct, fun m hm hk => ?_, fun r' hr' hpublished hk => ?_,
    fun m hm htime hk => ?_, fun p hp hk => ?_, fun k hk => ?_, ?_⟩
  · exact h.due m (hquiet.due m hm) (hcancelled _ hk)
  · obtain ⟨r, hr, -, hkey, hold⟩ := hquiet.cache.rows r' hr'
    refine h.rows r hr (hold hpublished) ?_
    rw [hkey]
    exact hcancelled _ hk
  · exact h.queued m (hquiet.queued.subset hm) (Nat.lt_of_le_of_lt hquiet.now htime)
      (hcancelled _ hk)
  · exact h.publishing p (hquiet.publishing.subset hp) (hadded _ hk)
  · rw [hquiet.used]
    exact h.used k (hadded k hk)
  · rcases hquiet.history with heq | ⟨m, hm, heq⟩
    · rw [heq]
      exact h.stays
    · rw [heq]
      refine h.stays.cons fun k hk => ?_
      cases hk
      exact h.due m hm

/-- A cancellation that covers nothing that waits. -/
theorem Pending.cancel
    (h : Pending s)
    {c : Cancellation} {cache : MessageCache} {publishing : Table Publishing.id}
    (hwaiting : NoneWaiting s c)
    (hcache : Shrinks s.cache cache)
    (hrows : ∀ r ∈ cache.rows, r.published = false → ¬ c.Covers (keyOf r.message))
    (hpublishing : ∀ p ∈ publishing, ∃ q ∈ s.publishing, q.message = p.message)
    (hdistinct : Distinct
      { s with cache, publishing, history := .cancelled c :: s.history }) :
    Pending { s with cache, publishing, history := .cancelled c :: s.history } where
  distinct := hdistinct
  due := fun m hm => not_cancelled_cons (h.due m hm) (hwaiting.1 m hm)
  rows := by
    intro r' hr' hpublished
    obtain ⟨r, hr, -, hkey, hold⟩ := hcache.rows r' hr'
    refine not_cancelled_cons ?_ (hrows r' hr' hpublished)
    rw [← hkey]
    exact h.rows r hr (hold hpublished)
  queued := fun m hm htime =>
    not_cancelled_cons (h.queued m hm htime) (hwaiting.2 m hm htime)
  publishing := by
    intro p hp hk
    obtain ⟨q, hq, hsame⟩ := hpublishing p hp
    rcases List.mem_cons.mp hk with hk | hk
    · cases hk
    · rw [← hsame] at hk
      exact h.publishing q hq hk
  used := by
    intro k hk
    rcases List.mem_cons.mp hk with hk | hk
    · cases hk
    · exact h.used k hk
  stays := h.stays.cons (by intro k hk; cases hk)

/-- A request adds its message, to the cache or to the queue. -/
theorem Pending.add
    (h : Pending s)
    {p : Publishing} {cache : MessageCache} {queue : Option (BatchingQueue Message)}
    (hp : p ∈ s.publishing)
    (hcache : ∀ r ∈ cache.rows, r ∈ s.cache.rows ∨ r.message = p.message)
    (hqueue : ∀ m ∈ (queue.map BatchingQueue.contents).getD [],
      m ∈ s.queued ∨ m = p.message)
    (hdistinct : Distinct
      { s with
        cache
        queue
        publishing := s.publishing.delete (fun q => decide (q.id = p.id))
        history := .added (keyOf p.message) :: s.history }) :
    Pending
      { s with
        cache
        queue
        publishing := s.publishing.delete (fun q => decide (q.id = p.id))
        history := .added (keyOf p.message) :: s.history } := by
  have hnew : ¬ Cancelled s.history (keyOf p.message) :=
    not_cancelled_of_not_added (h.publishing p hp)
  refine ⟨hdistinct, fun m hm => ?_, fun r hr hpublished => ?_, fun m hm htime => ?_,
    fun q hq hk => ?_, fun k hk => ?_, ?_⟩
  · rw [cancelled_cons_added_iff]
    exact h.due m hm
  · rw [cancelled_cons_added_iff]
    rcases hcache r hr with hold | hsame
    · exact h.rows r hold hpublished
    · rw [hsame]
      exact hnew
  · rw [cancelled_cons_added_iff]
    rcases hqueue m hm with hold | rfl
    · exact h.queued m hold htime
    · exact hnew
  · obtain ⟨hq, hne⟩ := Table.mem_delete_iff.mp hq
    rcases List.mem_cons.mp hk with hk | hk
    · have hid : q.message.id = p.message.id := congrArg Key.id (Event.added.inj hk)
      have hsame : q = p := h.distinct.publishing_eq_of_id_eq hq hp hid
      simp [hsame] at hne
    · exact h.publishing q hq hk
  · rcases List.mem_cons.mp hk with hk | hk
    · cases hk
      refine h.distinct.used _ ?_
      exact List.mem_append.mpr (Or.inr (List.mem_append.mpr
        (Or.inr (List.mem_map.mpr ⟨p, hp, rfl⟩))))
    · exact h.used k hk
  · exact h.stays.cons (by intro k hk; cases hk)

theorem Pending.step
    (h : Pending s)
    {l : Label}
    (hreach : InReach s l)
    (hstep : step s l = some s') :
    Pending s' := by
  have hmove := step_move hstep
  have hdistinct := h.distinct.move hmove
  cases hmove with
  | quiet hquiet =>
      exact h.quiet hquiet hdistinct
  | @start l p publishing hfresh hact hrows =>
      refine ⟨hdistinct, h.due, h.rows, h.queued, fun q hq hk => ?_, fun k hk => ?_,
        h.stays⟩
      · rw [Table.mem_def, hrows, List.mem_append, List.mem_singleton] at hq
        rcases hq with hq | rfl
        · exact h.publishing q hq hk
        · exact hfresh (h.used _ hk)
      · exact List.mem_cons_of_mem _ (h.used k hk)
  | @clear p hp hfirst =>
      refine h.cancel (hreach p hp rfl hfirst) (shrinks_filter _ _) ?_ ?_ hdistinct
      · intro r hr hpublished hcovers
        have hkept := (List.mem_filter.mp hr).2
        have htopic : r.message.topic = p.message.topic := hcovers.1
        have hsequence : r.message.sequenceID = p.message.sequenceID := hcovers.2
        simp [htopic, hsequence, hpublished] at hkept
      · intro q hq
        obtain ⟨q', hq', rfl⟩ := (Table.mem_modify_iff _).mp hq
        refine ⟨q', hq', ?_⟩
        split <;> rfl
  | @write p cache hp hcleared hqueue hadd =>
      refine h.add hp (fun r hr => ?_) (fun m hm => Or.inl hm) hdistinct
      refine (MessageCache.mem_addMessages hadd hr).imp_right fun hnew => ?_
      exact List.mem_singleton.mp hnew.1
  | @enqueue p q hp hcleared hqueue =>
      refine h.add hp (fun r hr => Or.inl hr) (fun m hm => ?_) hdistinct
      have hqueued : s.queued = q.contents := by simp [State.queued, hqueue]
      rw [hqueued]
      simpa using hm
  | @commit k q q' batch cache hqueue hbatch hadd =>
      have hqueued : s.queued = q.contents := by simp [State.queued, hqueue]
      obtain ⟨hperm, hsub⟩ := BatchingQueue.perm_dequeue hbatch
      refine { h with distinct := hdistinct, rows := ?_, queued := ?_ }
      · intro r hr hpublished
        rcases MessageCache.mem_addMessages hadd hr with hold | ⟨hm, hdecide⟩
        · exact h.rows r hold hpublished
        · rw [hpublished] at hdecide
          refine h.queued r.message ?_ (Nat.lt_of_not_le (of_decide_eq_false hdecide.symm))
          rw [hqueued]
          exact hperm.subset (List.mem_append.mpr (Or.inl hm))
      · intro m hm htime
        refine h.queued m ?_ htime
        rw [hqueued]
        exact hsub.subset hm
  | deleteTopic topic =>
      refine h.cancel hreach (shrinks_filter _ _) ?_ (fun q hq => ⟨q, hq, rfl⟩) hdistinct
      intro r hr _ hcovers
      have hkept := (List.mem_filter.mp hr).2
      have htopic : r.message.topic = topic := List.mem_singleton.mp hcovers
      simp [htopic] at hkept
  | expire topics =>
      refine h.cancel hreach.1 (shrinks_expireMessages _ _ _) ?_
        (fun q hq => ⟨q, hq, rfl⟩) hdistinct
      intro r' hr' hpublished hcovers
      obtain ⟨r, hr, -, hkey, hold⟩ :=
        (shrinks_expireMessages s.cache s.now topics).rows r' hr'
      refine hreach.2 r hr (hold hpublished) ?_
      have htopic : r.message.topic = r'.message.topic := congrArg Key.topic hkey
      rw [htopic]
      exact hcovers
  | due =>
      refine { h with distinct := hdistinct, due := ?_ }
      intro m hm
      obtain ⟨r, hr, hdue, rfl⟩ := MessageCache.mem_select_iff.mp hm
      exact h.rows r hr (by simpa using (Bool.and_eq_true_iff.mp hdue).2)

/--
In every run in which no message is cancelled that waits in the list of the sender or in
the queue, and no scheduled message is made to expire, what is cancelled is not
delivered any more.
-/
theorem cancelled_stays_cancelled
    {now : Nat} {queue : Option Nat} {users : Option (List String)}
    {ls : List Label}
    (hreach : Along step InReach (initial now queue users) ls)
    (hrun : run step (initial now queue users) ls = some s) :
    StaysCancelled s.history := by
  have hstart : Pending (initial now queue users) := by
    refine ⟨distinct_initial now queue users, ?_, ?_, ?_, ?_, ?_, ?_⟩
    · intro m hm
      cases hm
    · intro r hr
      cases hr
    · intro m hm
      cases queue <;> cases hm
    · intro p hp
      cases hp
    · intro k hk
      cases hk
    · intro later k earlier heq
      cases later <;> cases heq
  have hs : Pending s := run_invariant_along
    (fun _ _ _ hs hreach hstep => hs.step hreach hstep) hstart hreach hrun
  exact hs.stays

end Preservation

section Examples

/-- The sequence is deleted before the sender reads its list, and the sender goes on. -/
def deletedInTime : List Label :=
  scheduleMessage ++ deleteSequence 1000 ++ messageDue

theorem deleted_in_time_example :
    ∃ s, run step (initial 1000 none (some ["u_phil"])) deletedInTime = some s ∧
      StaysCancelled s.history := by
  have hreach : Along step InReach (initial 1000 none (some ["u_phil"]))
      deletedInTime := by
    decide
  have hrun : (run step (initial 1000 none (some ["u_phil"]))
      deletedInTime).isSome = true := by
    decide
  obtain ⟨s, hs⟩ := Option.isSome_iff_exists.mp hrun
  exact ⟨s, hs, cancelled_stays_cancelled hreach hs⟩

/-- The sequence is deleted after the sender has read its list. -/
def deletedTooLate : List Label :=
  scheduleMessage ++ messageDue ++ deleteSequence 5000 ++ [.send false false]

/-- The sequence is deleted while the message is in the batching queue. -/
def deletedInQueue : List Label :=
  scheduleMessage ++ deleteSequence 1000 ++ [.tickQueue, .commit 0 false] ++
    messageDue ++ [.send false false]

/-- The reservation of the topic is removed, with its messages. -/
def expiredBefore : List Label :=
  scheduleMessage ++ [.expireMessages ["news"], .messagesExpired, .deleteMessages] ++
    messageDue ++ [.send false false]

theorem not_staysCancelled
    {later : List Event} {k : Key} {c : Cancellation} {earlier : List Event}
    (hcovers : c.Covers k)
    (hadded : .added k ∈ earlier) :
    ¬ StaysCancelled (.delivered k :: (later ++ .cancelled c :: earlier)) :=
  fun h => h [] k _ rfl ⟨later, c, earlier, rfl, hcovers, hadded⟩

/-- Three ways in which a cancelled message is delivered. -/
theorem cancelled_messages_delivered :
    (∃ s, run step (initial 1000 none (some ["u_phil"])) deletedTooLate = some s ∧
      ¬ StaysCancelled s.history) ∧
    (∃ s, run step (initial 1000 (some 10) (some ["u_phil"])) deletedInQueue =
      some s ∧ ¬ StaysCancelled s.history) ∧
    ∃ s, run step (initial 1000 none (some ["u_phil"])) expiredBefore = some s ∧
      ¬ StaysCancelled s.history := by
  refine ⟨?_, ?_, ?_⟩
  · have hrun : (run step (initial 1000 none (some ["u_phil"]))
        deletedTooLate).map State.history =
          some (.delivered ⟨"aaaaaaaaaaaa", "news", "hello"⟩ ::
            ([.added ⟨"bbbbbbbbbbbb", "news", "hello"⟩] ++
              .cancelled (.sequence "news" "hello") ::
                [.added ⟨"aaaaaaaaaaaa", "news", "hello"⟩,
                  .cancelled (.sequence "news" "hello")])) := by
      decide
    obtain ⟨s, hs, hhistory⟩ := Option.map_eq_some_iff.mp hrun
    exact ⟨s, hs, hhistory ▸ not_staysCancelled (by decide) (by decide)⟩
  · have hrun : (run step (initial 1000 (some 10) (some ["u_phil"]))
        deletedInQueue).map State.history =
          some (.delivered ⟨"aaaaaaaaaaaa", "news", "hello"⟩ ::
            ([.added ⟨"bbbbbbbbbbbb", "news", "hello"⟩] ++
              .cancelled (.sequence "news" "hello") ::
                [.added ⟨"aaaaaaaaaaaa", "news", "hello"⟩,
                  .cancelled (.sequence "news" "hello")])) := by
      decide
    obtain ⟨s, hs, hhistory⟩ := Option.map_eq_some_iff.mp hrun
    exact ⟨s, hs, hhistory ▸ not_staysCancelled (by decide) (by decide)⟩
  · have hrun : (run step (initial 1000 none (some ["u_phil"]))
        expiredBefore).map State.history =
          some (.delivered ⟨"aaaaaaaaaaaa", "news", "hello"⟩ ::
            ([] ++ .cancelled (.topics ["news"]) ::
                [.added ⟨"aaaaaaaaaaaa", "news", "hello"⟩,
                  .cancelled (.sequence "news" "hello")])) := by
      decide
    obtain ⟨s, hs, hhistory⟩ := Option.map_eq_some_iff.mp hrun
    exact ⟨s, hs, hhistory ▸ not_staysCancelled (by decide) (by decide)⟩

end Examples

end Scheduling

end Server
end CoopMessenger
