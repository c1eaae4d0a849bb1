import CoopMessenger.Server.Scheduling

/-!
# Passes of the delayed sender

`sendDelayedMessages` of `server/server.go` and `pruneMessages` of
`server/server_manager.go`, each as a whole.  A message whose user cannot be looked up
is skipped by every pass, and only published messages are pruned.

**Results.**
* `run_pass`, `run_prune`: the passes are runs of the single statements.
* `mem_sendDelayedMessages_iff`: the rows after a pass.
* `scheduled_resolved_iff`: when a pass leaves no message that is due, and every
  message is pruned at some time.
-/

namespace CoopMessenger
namespace Server

open Library

namespace Scheduling

section Model

/-- A pass of the delayed sender in which no statement fails. -/
def State.sendDelayedMessages (s : State) : State :=
  (s.cache.messagesDue s.now).foldl (fun s m => s.sendDelayedMessage m false) s

def State.pruneMessages (s : State) : State :=
  { s with cache := s.cache.deleteMessages (s.cache.messagesExpired s.now) }

/-- The same messages and users at another time. -/
def State.at
    (s : State)
    (t : Nat) : State :=
  { s with now := t }

end Model

section Spec

/--
A pass leaves no scheduled message that is due, and for every message there is a time
at which a pass and a pruning remove it.
-/
def Resolved (s : State) : Prop :=
  (∀ r ∈ s.sendDelayedMessages.cache.rows,
    r.published = false → s.now < r.message.time) ∧
  ∀ r ∈ s.cache.rows, ∃ t, s.now ≤ t ∧
    ∀ r' ∈ (s.at t).sendDelayedMessages.pruneMessages.cache.rows,
      r'.rowID ≠ r.rowID

end Spec

section Passes

variable {s : State}

theorem sendDelayedMessage_due
    (s : State) (due : List Message) (m : Message) (fails : Bool) :
    { s with due }.sendDelayedMessage m fails =
      { s.sendDelayedMessage m fails with due } := by
  unfold State.sendDelayedMessage
  have hknows : { s with due }.knows m.user = s.knows m.user := rfl
  rw [hknows]
  split <;> rfl

/-- A pass is a run of the sender's statements. -/
theorem run_pass
    (hidle : s.due = []) :
    run step s (.messagesDue ::
        List.replicate (s.cache.messagesDue s.now).length (.send false false)) =
      some s.sendDelayedMessages := by
  have hloop : ∀ (ms : List Message) (s : State), s.due = [] →
      run step { s with due := ms }
          (List.replicate ms.length (.send false false)) =
        some (ms.foldl (fun s m => s.sendDelayedMessage m false) s) := by
    intro ms
    induction ms with
    | nil =>
        intro s hs
        change some { s with due := [] } = some s
        rw [← hs]
    | cons m ms ih =>
        intro s hs
        have hnext : (s.sendDelayedMessage m false).due = [] := by
          unfold State.sendDelayedMessage
          split <;> exact hs
        rw [List.foldl_cons, ← ih _ hnext, ← sendDelayedMessage_due]
        rfl
  rw [run, step, if_pos hidle]
  exact hloop _ s hidle

/-- A pruning is a run of its two statements. -/
theorem run_prune
    (hidle : s.expired = []) :
    run step s [.messagesExpired, .deleteMessages] = some s.pruneMessages := by
  simp only [run, step, Option.bind_some, State.pruneMessages]
  rw [← hidle]

/-- Is the row marked by a pass over these messages? -/
def isSent
    (s : State)
    (ms : List Message)
    (r : StoredMessage) : Bool :=
  ms.any (fun m => s.knows m.user && decide (r.message.id = m.id))

/-- The row after a pass over these messages. -/
def afterPass
    (s : State)
    (ms : List Message)
    (r : StoredMessage) : StoredMessage :=
  if isSent s ms r then { r with published := true } else r

theorem rows_foldl_sendDelayedMessage
    (ms : List Message) (s : State) :
    (ms.foldl (fun s m => s.sendDelayedMessage m false) s).cache.rows =
      s.cache.rows.map (afterPass s ms) := by
  induction ms generalizing s with
  | nil =>
      exact (List.map_id _).symm
  | cons m ms ih =>
      have hone : (s.sendDelayedMessage m false).cache.rows =
          s.cache.rows.map (afterPass s [m]) := by
        unfold State.sendDelayedMessage
        split
        case isTrue hknows =>
          refine List.map_congr_left fun r _ => ?_
          simp [afterPass, isSent, hknows]
        case isFalse hknows =>
          refine (List.map_id _).symm.trans (List.map_congr_left fun r _ => ?_)
          simp [afterPass, isSent, hknows]
      have hknows : (s.sendDelayedMessage m false).knows = s.knows := by
        unfold State.sendDelayedMessage
        split <;> rfl
      rw [List.foldl_cons, ih, hone, List.map_map]
      refine List.map_congr_left fun r _ => ?_
      simp only [Function.comp_apply, afterPass, isSent, hknows, List.any_cons,
        List.any_nil, Bool.or_false]
      by_cases hm : (s.knows m.user && decide (r.message.id = m.id)) = true
      · simp [hm]
      · simp [hm]

/-- The rows after a pass. -/
theorem mem_sendDelayedMessages_iff
    {r' : StoredMessage} :
    r' ∈ s.sendDelayedMessages.cache.rows ↔
      ∃ r ∈ s.cache.rows, afterPass s (s.cache.messagesDue s.now) r = r' := by
  rw [State.sendDelayedMessages, rows_foldl_sendDelayedMessage, List.mem_map]

theorem now_sendDelayedMessages
    (s : State) :
    s.sendDelayedMessages.now = s.now := by
  have hloop : ∀ (ms : List Message) (s : State),
      (ms.foldl (fun s m => s.sendDelayedMessage m false) s).now = s.now := by
    intro ms
    induction ms with
    | nil =>
        exact fun _ => rfl
    | cons m ms ih =>
        intro s
        rw [List.foldl_cons, ih]
        unfold State.sendDelayedMessage
        split <;> rfl
  exact hloop _ s

/-- The rows after a pruning. -/
theorem mem_pruneMessages_iff
    {r : StoredMessage} :
    r ∈ s.pruneMessages.cache.rows ↔
      r ∈ s.cache.rows ∧
        ∀ r' ∈ s.cache.rows, r'.message.expires ≤ s.now → r'.published = true →
          r'.message.id ≠ r.message.id := by
  have hexpired : ∀ id, id ∈ s.cache.messagesExpired s.now ↔
      ∃ r' ∈ s.cache.rows, r'.message.expires ≤ s.now ∧ r'.published = true ∧
        r'.message.id = id := by
    intro id
    simp [MessageCache.messagesExpired, and_assoc]
  change r ∈ s.cache.rows.filter
    (fun r => !decide (r.message.id ∈ s.cache.messagesExpired s.now)) ↔ _
  rw [List.mem_filter, Bool.not_eq_true', decide_eq_false_iff_not, hexpired]
  refine and_congr_right fun _ => ?_
  constructor
  · rintro hnot r' hr' hexpires hpublished hid
    exact hnot ⟨r', hr', hexpires, hpublished, hid⟩
  · rintro hall ⟨r', hr', hexpires, hpublished, hid⟩
    exact hall r' hr' hexpires hpublished hid

theorem afterPass_rowID
    (s : State) (ms : List Message) (r : StoredMessage) :
    (afterPass s ms r).rowID = r.rowID := by
  unfold afterPass
  split <;> rfl

theorem afterPass_message
    (s : State) (ms : List Message) (r : StoredMessage) :
    (afterPass s ms r).message = r.message := by
  unfold afterPass
  split <;> rfl

/-- A pass marks the due messages whose users it can look up. -/
theorem afterPass_published_of_knows
    {r : StoredMessage}
    (hr : r ∈ s.cache.rows)
    (hdue : r.message.time ≤ s.now)
    (hknows : r.published = false → s.knows r.message.user = true) :
    (afterPass s (s.cache.messagesDue s.now) r).published = true := by
  unfold afterPass
  split
  case isTrue =>
    rfl
  case isFalse hnot =>
    by_contra hpublished
    rw [Bool.not_eq_true] at hpublished
    refine hnot (List.any_eq_true.mpr ⟨r.message, ?_, ?_⟩)
    · exact MessageCache.mem_select_iff.mpr ⟨r, hr, by simp [hdue, hpublished], rfl⟩
    · simp [hknows hpublished]

/-- It marks no message whose user it cannot look up. -/
theorem afterPass_of_not_knows
    (h : Distinct s)
    {r : StoredMessage}
    (hr : r ∈ s.cache.rows)
    (hknows : s.knows r.message.user = false) :
    afterPass s (s.cache.messagesDue s.now) r = r := by
  unfold afterPass
  rw [if_neg]
  intro hsent
  obtain ⟨m, hm, hsent⟩ := List.any_eq_true.mp hsent
  obtain ⟨r', hr', -, rfl⟩ := MessageCache.mem_select_iff.mp hm
  rw [Bool.and_eq_true, decide_eq_true_eq] at hsent
  rw [← h.eq_of_id_eq hr hr' hsent.2, hknows] at hsent
  cases hsent.1

/--
Every due message is resolved, and every message is pruned at some time, exactly when
the users of all scheduled messages can be looked up.
-/
theorem resolved_iff
    (h : Distinct s) :
    Resolved s ↔
      ∀ r ∈ s.cache.rows, r.published = false → s.knows r.message.user = true := by
  constructor
  · rintro ⟨-, hpruned⟩ r hr hpublished
    by_contra hknows
    rw [Bool.not_eq_true] at hknows
    obtain ⟨t, -, hgone⟩ := hpruned r hr
    have hsame : afterPass (s.at t) ((s.at t).cache.messagesDue t) r = r :=
      afterPass_of_not_knows (s := s.at t) ⟨h.nodup, h.used⟩ hr hknows
    refine hgone r (mem_pruneMessages_iff.mpr ⟨?_, ?_⟩) rfl
    · exact mem_sendDelayedMessages_iff.mpr ⟨r, hr, hsame⟩
    · intro r' hr' _ hpublished' hid
      obtain ⟨r₁, hr₁, rfl⟩ := mem_sendDelayedMessages_iff.mp hr'
      rw [afterPass_message] at hid
      have heq : r₁ = r := h.eq_of_id_eq hr₁ hr hid
      subst heq
      have hsame' : afterPass (s.at t) ((s.at t).cache.messagesDue (s.at t).now) r₁ =
          r₁ := hsame
      rw [hsame', hpublished] at hpublished'
      cases hpublished'
  · intro hknows
    refine ⟨fun r' hr' hpublished => ?_, fun r hr => ?_⟩
    · obtain ⟨r, hr, rfl⟩ := mem_sendDelayedMessages_iff.mp hr'
      rw [afterPass_message]
      by_contra hdue
      rw [afterPass_published_of_knows hr (Nat.le_of_not_lt hdue) (hknows r hr)]
        at hpublished
      cases hpublished
    · refine ⟨max s.now (max r.message.time r.message.expires), le_max_left _ _, ?_⟩
      generalize ht : max s.now (max r.message.time r.message.expires) = t
      have htime : r.message.time ≤ t ∧ r.message.expires ≤ t := by
        rw [← ht]
        exact ⟨le_trans (le_max_left _ _) (le_max_right _ _),
          le_trans (le_max_right _ _) (le_max_right _ _)⟩
      intro r' hr' hrow
      obtain ⟨hr', hkept⟩ := mem_pruneMessages_iff.mp hr'
      obtain ⟨r₁, hr₁, rfl⟩ := mem_sendDelayedMessages_iff.mp hr'
      rw [afterPass_rowID] at hrow
      have heq : r₁ = r := MessageCache.eq_of_rowID_eq (c := s.cache) hr₁ hr hrow
      subst heq
      refine hkept _ hr' ?_ ?_ rfl
      · rw [afterPass_message, now_sendDelayedMessages]
        exact htime.2
      · exact afterPass_published_of_knows (s := s.at t) hr₁ htime.1 (hknows r₁ hr₁)

/-- The same in every state of a run. -/
theorem scheduled_resolved_iff
    {now : Nat} {queue : Option Nat} {users : Option (List String)}
    {ls : List Label}
    (hrun : run step (initial now queue users) ls = some s) :
    Resolved s ↔
      ∀ r ∈ s.cache.rows, r.published = false → s.knows r.message.user = true :=
  resolved_iff (distinct_of_run hrun)

end Passes

section Examples

/-- Are the users of all scheduled messages known? -/
def knowsAll (s : State) : Bool :=
  s.cache.rows.all (fun r => r.published || s.knows r.message.user)

theorem knowsAll_iff
    {s : State} :
    knowsAll s = true ↔
      ∀ r ∈ s.cache.rows, r.published = false → s.knows r.message.user = true := by
  simp only [knowsAll, List.all_eq_true, Bool.or_eq_true]
  refine forall₂_congr fun r _ => ?_
  cases r.published <;> simp

theorem scheduled_resolved_example :
    ∃ s, run step (initial 1000 none (some ["u_phil"])) scheduleMessage = some s ∧
      Resolved s := by
  have hrun : (run step (initial 1000 none (some ["u_phil"])) scheduleMessage).map
      knowsAll = some true := by
    decide
  obtain ⟨s, hs, hknows⟩ := Option.map_eq_some_iff.mp hrun
  exact ⟨s, hs, (scheduled_resolved_iff hs).mpr (knowsAll_iff.mp hknows)⟩

/-- The user is removed before the message is due. -/
theorem message_of_removed_user :
    ∃ s, run step (initial 1000 none (some ["u_phil"]))
        (scheduleMessage ++ [.setUsers []]) = some s ∧
      ¬ Resolved s := by
  have hrun : (run step (initial 1000 none (some ["u_phil"]))
      (scheduleMessage ++ [.setUsers []])).map knowsAll = some false := by
    decide
  obtain ⟨s, hs, hknows⟩ := Option.map_eq_some_iff.mp hrun
  refine ⟨s, hs, ?_⟩
  rw [resolved_iff (distinct_of_run hs), ← knowsAll_iff, hknows]
  exact Bool.false_ne_true

end Examples

end Scheduling

end Server
end CoopMessenger
