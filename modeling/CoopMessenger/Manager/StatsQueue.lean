import CoopMessenger.Library.Runs
import CoopMessenger.Library.Table

/-!
# The queue of user statistics

`EnqueueUserStats`, `ResetStats` and `writeUserStatsQueue` of `user/manager.go`.  The
writer swaps the queue under a mutex and writes it in a transaction after it has
released the mutex; a reset holds the mutex while it updates the table.  Each statement
is a step of its own and may fail.

**Results.**
* `users_eq_recorded`: the table is what the history of writes and resets says.
* `reset_stays_and_nothing_lost`: no reset is undone and no value is lost, as long as
  no transaction commits that a reset has overtaken, and none fails that holds the last
  value of a user.
-/

namespace CoopMessenger
namespace Manager

open Library

namespace StatsQueue

section Model

structure Stats where
  messages : Int
  emails : Int
  calls : Int
deriving DecidableEq, Repr

/-- Statistics in the queue, with the number of the call that has added them. -/
structure Update where
  userID : String
  stats : Stats
  call : Nat
deriving DecidableEq, Repr

/-- The columns of a row of `user` that hold the statistics. -/
structure UserRow where
  id : String
  stats : Stats
deriving DecidableEq, Repr

/-- Where the writer is: between passes, or before or in its transaction. -/
inductive Writer where
  | idle
  | swapped (batch : List Update)
  | writing (done todo : List Update)
deriving DecidableEq, Repr

/-- The updates that the writer has taken out of the queue. -/
def Writer.batch : Writer → List Update
  | .idle => []
  | .swapped batch => batch
  | .writing done todo => done ++ todo

/-- Has the transaction of the writer written anything, so that no one else can? -/
def Writer.locks : Writer → Bool
  | .writing (_ :: _) _ => true
  | _ => false

/-- What has happened; a pass that has succeeded comes with what it has written. -/
inductive Event where
  | enqueued (u : Update)
  | reset
  | began
  | failed
  | passed (batch : List Update)
deriving DecidableEq, Repr

/--
The table, the queue and the writer; the mutex is held between the statements of a
reset.  The history, the last event first, is only recorded.
-/
structure State where
  users : Table UserRow.id
  queue : Table Update.userID
  writer : Writer
  resetting : Bool
  calls : Nat
  history : List Event

/-- `EnqueueUserStats` -/
def State.enqueueUserStats
    (s : State)
    (userID : String)
    (stats : Stats) : State :=
  let u : Update := ⟨userID, stats, s.calls⟩
  { s with
    queue :=
      s.queue.upsert u (fun old => { old with stats, call := s.calls })
        (fun _ => rfl)
    calls := s.calls + 1
    history := .enqueued u :: s.history }

/-- `updateUserStatsResetAllQuery` -/
def resetAll
    (users : Table UserRow.id) : Table UserRow.id :=
  users.modify (fun r => { r with stats := ⟨0, 0, 0⟩ }) (fun _ => rfl)

/-- `updateUserStatsQuery` -/
def updateStats
    (users : Table UserRow.id)
    (u : Update) : Table UserRow.id :=
  users.modify (fun r => if r.id = u.userID then { r with stats := u.stats } else r)
    (by intro r; split <;> rfl)

/-- The transaction of the writer is given up, and with it what it has taken. -/
def State.fail
    (s : State) : State :=
  { s with writer := .idle, history := .failed :: s.history }

/-- The pass has succeeded. -/
def State.pass
    (s : State)
    (batch : List Update) : State :=
  { s with
    users := batch.foldl updateStats s.users
    writer := .idle
    history := .passed batch :: s.history }

/-- The statements of the three functions; `order` is that of a map. -/
inductive Label where
  | enqueue (userID : String) (stats : Stats)
  | resetTable (fails : Bool)
  | resetQueue
  | swap
  | begin (fails : Bool) (order : List Update)
  | exec (fails : Bool)
  | commit (fails : Bool)
deriving Repr

/-- One step; `none` if it is not enabled. -/
def step
    (s : State) : Label → Option State
  | .enqueue userID stats =>
      if s.resetting then none else some (s.enqueueUserStats userID stats)
  | .resetTable fails =>
      if s.resetting then
        none
      else if fails then
        some s
      else if s.writer.locks then
        none
      else
        some
          { s with
            users := resetAll s.users
            resetting := true
            history := .reset :: s.history }
  | .resetQueue =>
      if s.resetting then
        some { s with queue := .empty, resetting := false }
      else
        none
  | .swap =>
      if s.resetting ∨ s.writer ≠ .idle then
        none
      else if s.queue.rows = [] then
        some ({ s with history := .began :: s.history }.pass [])
      else
        some
          { s with
            queue := .empty
            writer := .swapped s.queue.rows
            history := .began :: s.history }
  | .begin fails order =>
      match s.writer with
      | .swapped batch =>
          if fails then
            some s.fail
          else if order.Perm batch then
            some { s with writer := .writing [] order }
          else
            none
      | _ => none
  | .exec fails =>
      match s.writer with
      | .writing done (u :: todo) =>
          if fails then
            some s.fail
          else
            some { s with writer := .writing (done ++ [u]) todo }
      | _ => none
  | .commit fails =>
      match s.writer with
      | .writing done [] =>
          if fails then some s.fail else some (s.pass done)
      | _ => none

/-- The manager after it has been created. -/
def initial
    (users : Table UserRow.id) : State :=
  ⟨users, .empty, .idle, false, 0, []⟩

end Model

section Spec

/-- The last value enqueued for a user, unless there was a reset since. -/
def latest
    (userID : String) : List Event → Option Update
  | [] => none
  | .enqueued u :: h => if u.userID = userID then some u else latest userID h
  | .reset :: _ => none
  | .began :: h | .failed :: h | .passed _ :: h => latest userID h

/-- Was the update written by a pass? -/
def Written
    (h : List Event)
    (u : Update) : Prop :=
  ∃ batch, .passed batch ∈ h ∧ u ∈ batch

/-- What was enqueued before a reset is not written after it. -/
def NotUndone
    (h : List Event) : Prop :=
  ∀ later earlier, h = later ++ .reset :: earlier →
    ∀ u, Written later u → .enqueued u ∉ earlier

/--
A pass that succeeds leaves nothing unwritten: what was the last value of a user when
it began has been written when it is over.
-/
def NothingLost
    (h : List Event) : Prop :=
  ∀ later batch during earlier,
    h = later ++ .passed batch :: (during ++ .began :: earlier) →
      .began ∉ during → .reset ∉ during →
        ∀ userID u, latest userID earlier = some u →
          Written (.passed batch :: (during ++ .began :: earlier)) u

/-- Was there no reset since the pass began? -/
def notOvertaken : List Event → Bool
  | [] => true
  | .began :: _ => true
  | .reset :: _ => false
  | .enqueued _ :: h | .failed :: h | .passed _ :: h => notOvertaken h

/-- No pass commits that a reset has overtaken, and none fails with a last value. -/
def Undisturbed
    (s : State) : Label → Prop
  | .begin fails _ | .exec fails =>
      fails = true → ∀ u ∈ s.writer.batch, latest u.userID s.history ≠ some u
  | .commit fails =>
      if fails then
        ∀ u ∈ s.writer.batch, latest u.userID s.history ≠ some u
      else
        notOvertaken s.history = true
  | _ => True

instance decidableUndisturbed
    (s : State) (l : Label) :
    Decidable (Undisturbed s l) := by
  unfold Undisturbed
  cases l <;> infer_instance

end Spec

section Histories

variable {h : List Event}
variable {u : Update}

/-- The events since the last reset. -/
def since : List Event → List Event
  | [] => []
  | .reset :: _ => []
  | e :: h => e :: since h

theorem since_cons
    {e : Event}
    (he : e ≠ .reset)
    (h : List Event) :
    since (e :: h) = e :: since h := by
  cases e with
  | reset => exact absurd rfl he
  | _ => rfl

/-- Everything since the last reset is before any earlier one. -/
theorem mem_later_of_mem_since
    {e : Event} {later earlier : List Event}
    (heq : h = later ++ .reset :: earlier)
    (he : e ∈ since h) :
    e ∈ later := by
  subst heq
  induction later with
  | nil =>
      cases he
  | cons d later ih =>
      by_cases hd : d = .reset
      · subst hd
        cases he
      · rw [List.cons_append, since_cons hd] at he
        rcases List.mem_cons.mp he with rfl | he
        · exact List.mem_cons_self
        · exact List.mem_cons_of_mem d (ih he)

theorem userID_of_latest
    {userID : String}
    (hu : latest userID h = some u) :
    u.userID = userID := by
  induction h with
  | nil =>
      cases hu
  | cons e h ih =>
      cases e with
      | enqueued v =>
          rw [latest] at hu
          split at hu
          case isTrue heq =>
            rw [← Option.some.inj hu, heq]
          case isFalse =>
            exact ih hu
      | reset =>
          cases hu
      | _ =>
          exact ih hu

/-- The last value of a user was enqueued since the last reset. -/
theorem mem_since_of_latest
    {userID : String}
    (hu : latest userID h = some u) :
    .enqueued u ∈ since h := by
  induction h with
  | nil =>
      cases hu
  | cons e h ih =>
      cases e with
      | enqueued v =>
          rw [since_cons (by intro h; cases h)]
          rw [latest] at hu
          split at hu
          case isTrue =>
            rw [Option.some.inj hu]
            exact List.mem_cons_self
          case isFalse =>
            exact List.mem_cons_of_mem _ (ih hu)
      | reset =>
          cases hu
      | _ =>
          exact List.mem_cons_of_mem _ (ih hu)

theorem Written.cons
    (hu : Written h u)
    (e : Event) :
    Written (e :: h) u := by
  obtain ⟨batch, hbatch, hu⟩ := hu
  exact ⟨batch, List.mem_cons_of_mem e hbatch, hu⟩

theorem Written.append
    (hu : Written h u)
    (later : List Event) :
    Written (later ++ h) u := by
  obtain ⟨batch, hbatch, hu⟩ := hu
  exact ⟨batch, List.mem_append.mpr (Or.inr hbatch), hu⟩

/-- A history is split at its last `e` in one way. -/
theorem split_unique
    {e : Event} {l l' m m' : List Event}
    (hl : e ∉ l)
    (hl' : e ∉ l')
    (heq : l ++ e :: m = l' ++ e :: m') :
    l = l' ∧ m = m' := by
  induction l generalizing l' with
  | nil =>
      cases l' with
      | nil =>
          exact ⟨rfl, (List.cons.inj heq).2⟩
      | cons d l' =>
          exact absurd ((List.cons.inj heq).1 ▸ List.mem_cons_self) hl'
  | cons d l ih =>
      cases l' with
      | nil =>
          exact absurd ((List.cons.inj heq).1 ▸ List.mem_cons_self) hl
      | cons d' l' =>
          obtain ⟨rfl, htail⟩ := List.cons.inj heq
          obtain ⟨rfl, rfl⟩ := ih (fun he => hl (List.mem_cons_of_mem d he))
            (fun he => hl' (List.mem_cons_of_mem d he)) htail
          exact ⟨rfl, rfl⟩

/-- An event other than the end of a pass undoes no reset. -/
theorem NotUndone.cons
    (hh : NotUndone h)
    {e : Event}
    (he : ∀ batch, e ≠ .passed batch) :
    NotUndone (e :: h) := by
  intro later earlier heq v hv
  cases later with
  | nil =>
      obtain ⟨batch, hbatch, -⟩ := hv
      cases hbatch
  | cons d later =>
      obtain ⟨rfl, htail⟩ := List.cons.inj heq
      obtain ⟨batch, hbatch, hv⟩ := hv
      rcases List.mem_cons.mp hbatch with hbatch | hbatch
      · exact absurd hbatch.symm (he batch)
      · exact hh later earlier htail v ⟨batch, hbatch, hv⟩

theorem NothingLost.cons
    (hh : NothingLost h)
    {e : Event}
    (he : ∀ batch, e ≠ .passed batch) :
    NothingLost (e :: h) := by
  intro later batch during earlier heq
  cases later with
  | nil =>
      exact absurd (List.cons.inj heq).1 (he batch)
  | cons d later =>
      exact hh later batch during earlier (List.cons.inj heq).2

end Histories

section Preservation

variable {s s' : State}

/-- The update that an event has added. -/
def Event.update? : Event → Option Update
  | .enqueued u => some u
  | _ => none

/--
The queue holds the last values of users; the writer holds values enqueued since the
last reset, unless one has overtaken it; and what has not been written is in either.
-/
structure Inv (s : State) : Prop where
  calls : ∀ u, .enqueued u ∈ s.history → u.call < s.calls
  once : (s.history.filterMap Event.update?).Nodup
  queued :
    s.resetting = false → ∀ u ∈ s.queue, latest u.userID s.history = some u
  resetting : s.resetting = true → ∀ userID, latest userID s.history = none
  held :
    notOvertaken s.history = true →
      ∀ u ∈ s.writer.batch, .enqueued u ∈ since s.history
  kept :
    ∀ userID u, latest userID s.history = some u →
      u ∈ s.queue ∨ u ∈ s.writer.batch ∨ Written s.history u
  began :
    s.writer ≠ .idle →
      ∃ during earlier, s.history = during ++ .began :: earlier ∧
        .began ∉ during ∧
        ∀ userID u, latest userID earlier = some u →
          u ∈ s.writer.batch ∨ Written earlier u
  notUndone : NotUndone s.history
  nothingLost : NothingLost s.history

theorem inv_initial
    (users : Table UserRow.id) :
    Inv (initial users) where
  calls := by
    intro u hu
    cases hu
  once := List.nodup_nil
  queued := by
    intro _ u hu
    exact absurd hu (Table.not_mem_empty u)
  resetting := fun h => by cases h
  held := by
    intro _ u hu
    cases hu
  kept := by
    intro userID u hu
    cases hu
  began := fun h => absurd rfl h
  notUndone := by
    intro later earlier heq
    cases later <;> cases heq
  nothingLost := by
    intro later batch during earlier heq
    cases later <;> cases heq

theorem mem_queue_enqueueUserStats
    (s : State) (userID : String) (stats : Stats) (u : Update) :
    u ∈ (s.enqueueUserStats userID stats).queue ↔
      u = ⟨userID, stats, s.calls⟩ ∨ (u ∈ s.queue ∧ u.userID ≠ userID) := by
  have hall : ∀ old : Update, old.userID = userID →
      { old with stats, call := s.calls } = (⟨userID, stats, s.calls⟩ : Update) := by
    rintro old rfl
    rfl
  change u ∈ s.queue.upsert ⟨userID, stats, s.calls⟩
    (fun old => { old with stats, call := s.calls }) (fun _ => rfl) ↔ _
  exact Table.mem_upsert_iff _ hall

/-- An event that enqueues nothing. -/
theorem Inv.calls_cons
    (hs : Inv s)
    {e : Event}
    (he : e.update? = none) :
    ∀ u, .enqueued u ∈ e :: s.history → u.call < s.calls := by
  intro u hu
  rcases List.mem_cons.mp hu with rfl | hu
  · cases he
  · exact hs.calls u hu

/-- The pass that goes on began before the event. -/
theorem Inv.began_cons
    (hs : Inv s)
    {e : Event}
    (he : .began ≠ e)
    (hwriter : s.writer ≠ .idle) :
    ∃ during earlier, e :: s.history = during ++ .began :: earlier ∧
      .began ∉ during ∧
      ∀ userID u, latest userID earlier = some u →
        u ∈ s.writer.batch ∨ Written earlier u := by
  obtain ⟨during, earlier, heq, hnot, hkept⟩ := hs.began hwriter
  refine ⟨e :: during, earlier, congrArg (e :: ·) heq, ?_, hkept⟩
  rw [List.mem_cons, not_or]
  exact ⟨he, hnot⟩

theorem Inv.enqueue
    (hs : Inv s)
    (hfree : s.resetting = false)
    (userID : String)
    (stats : Stats) :
    Inv (s.enqueueUserStats userID stats) where
  calls := by
    intro u hu
    rcases List.mem_cons.mp hu with hu | hu
    · cases hu
      exact Nat.lt_succ_self _
    · exact Nat.lt_succ_of_lt (hs.calls u hu)
  once := by
    change (_ :: s.history.filterMap Event.update?).Nodup
    refine List.nodup_cons.mpr ⟨fun hmem => ?_, hs.once⟩
    obtain ⟨e, he, hu⟩ := List.mem_filterMap.mp hmem
    cases e with
    | enqueued v =>
        cases hu
        exact absurd (hs.calls _ he) (Nat.lt_irrefl _)
    | _ =>
        cases hu
  queued := by
    intro _ u hu
    change (if userID = u.userID then _ else _) = some u
    rcases (mem_queue_enqueueUserStats s userID stats u).mp hu with rfl | ⟨hu, hne⟩
    · rw [if_pos rfl]
    · rw [if_neg (Ne.symm hne)]
      exact hs.queued hfree u hu
  resetting := by
    intro h
    change s.resetting = true at h
    rw [hfree] at h
    cases h
  held := by
    intro h u hu
    exact List.mem_cons_of_mem _ (hs.held h u hu)
  kept := by
    intro id u hu
    change (if userID = id then _ else _) = some u at hu
    rw [mem_queue_enqueueUserStats]
    split at hu
    case isTrue =>
      exact Or.inl (Or.inl (Option.some.inj hu).symm)
    case isFalse hne =>
      rcases hs.kept id u hu with hmem | hmem | hmem
      · refine Or.inl (Or.inr ⟨hmem, fun heq => hne ?_⟩)
        rw [← heq, userID_of_latest hu]
      · exact Or.inr (Or.inl hmem)
      · exact Or.inr (Or.inr (hmem.cons _))
  began := hs.began_cons nofun
  notUndone := hs.notUndone.cons (by intro batch h; cases h)
  nothingLost := hs.nothingLost.cons (by intro batch h; cases h)

theorem Inv.reset
    (hs : Inv s) :
    Inv
      { s with
        users := resetAll s.users
        resetting := true
        history := .reset :: s.history } where
  calls := hs.calls_cons rfl
  once := hs.once
  queued := fun h => by cases h
  resetting := fun _ _ => rfl
  held := fun h => by cases h
  kept := by
    intro userID u hu
    cases hu
  began := hs.began_cons nofun
  notUndone := hs.notUndone.cons (by intro batch h; cases h)
  nothingLost := hs.nothingLost.cons (by intro batch h; cases h)

theorem Inv.resetQueue
    (hs : Inv s)
    (hresetting : s.resetting = true) :
    Inv { s with queue := .empty, resetting := false } :=
  { hs with
    queued := by
      intro _ u hu
      exact absurd hu (Table.not_mem_empty u)
    resetting := fun h => by cases h
    kept := by
      intro userID u hu
      rw [hs.resetting hresetting userID] at hu
      cases hu }

/-- A pass begins with all that is in the queue. -/
theorem Inv.swap
    (hs : Inv s)
    (hfree : s.resetting = false)
    (hidle : s.writer = .idle) :
    Inv
      { s with
        queue := .empty
        writer := .swapped s.queue.rows
        history := .began :: s.history } := by
  have hkept : ∀ userID u, latest userID s.history = some u →
      u ∈ s.queue.rows ∨ Written s.history u := by
    intro userID u hu
    rcases hs.kept userID u hu with hmem | hmem | hmem
    · exact Or.inl hmem
    · rw [hidle] at hmem
      cases hmem
    · exact Or.inr hmem
  exact
    { calls := hs.calls_cons rfl
      once := hs.once
      queued := by
        intro _ u hu
        exact absurd hu (Table.not_mem_empty u)
      resetting := hs.resetting
      held := by
        intro _ u hu
        exact List.mem_cons_of_mem _ (mem_since_of_latest (hs.queued hfree u hu))
      kept := by
        intro userID u hu
        exact Or.inr ((hkept userID u hu).imp_right fun h => h.cons _)
      began := fun _ => ⟨[], s.history, rfl, List.not_mem_nil, hkept⟩
      notUndone := hs.notUndone.cons (by intro batch h; cases h)
      nothingLost := hs.nothingLost.cons (by intro batch h; cases h) }

/-- The transaction goes on with the same updates. -/
theorem Inv.goOn
    (hs : Inv s)
    {w : Writer}
    (hw : s.writer ≠ .idle)
    (hbatch : ∀ u, u ∈ w.batch ↔ u ∈ s.writer.batch) :
    Inv { s with writer := w } :=
  { hs with
    held := fun h u hu => hs.held h u ((hbatch u).mp hu)
    kept := by
      intro userID u hu
      rw [hbatch]
      exact hs.kept userID u hu
    began := by
      intro _
      simp only [hbatch]
      exact hs.began hw }

/-- A transaction fails that holds no last value. -/
theorem Inv.fail
    (hs : Inv s)
    (hnone : ∀ u ∈ s.writer.batch, latest u.userID s.history ≠ some u) :
    Inv s.fail where
  calls := hs.calls_cons rfl
  once := hs.once
  queued := hs.queued
  resetting := hs.resetting
  held := by
    intro _ u hu
    cases hu
  kept := by
    intro userID u hu
    rcases hs.kept userID u hu with hmem | hmem | hmem
    · exact Or.inl hmem
    · refine absurd hu ?_
      rw [← userID_of_latest hu]
      exact hnone u hmem
    · exact Or.inr (Or.inr (hmem.cons _))
  began := fun h => absurd rfl h
  notUndone := hs.notUndone.cons (by intro batch h; cases h)
  nothingLost := hs.nothingLost.cons (by intro batch h; cases h)

/-- An update is enqueued once. -/
theorem Inv.not_mem_earlier
    (hs : Inv s)
    {later earlier : List Event} {e : Event} {u : Update}
    (heq : s.history = later ++ e :: earlier)
    (hu : .enqueued u ∈ later) :
    .enqueued u ∉ earlier := by
  intro hu'
  have honce := hs.once
  rw [heq, List.filterMap_append, List.nodup_append] at honce
  have hlater : u ∈ later.filterMap Event.update? :=
    List.mem_filterMap.mpr ⟨_, hu, rfl⟩
  have hearlier : u ∈ (e :: earlier).filterMap Event.update? :=
    List.mem_filterMap.mpr ⟨_, List.mem_cons_of_mem e hu', rfl⟩
  exact honce.2.2 u hlater u hearlier rfl

/-- A pass succeeds that no reset has overtaken. -/
theorem Inv.pass
    (hs : Inv s)
    {batch : List Update}
    (hbatch : s.writer.batch = batch)
    (hbusy : s.writer ≠ .idle)
    (hnot : notOvertaken s.history = true) :
    Inv (s.pass batch) where
  calls := hs.calls_cons rfl
  once := hs.once
  queued := hs.queued
  resetting := hs.resetting
  held := by
    intro _ u hu
    cases hu
  kept := by
    intro userID u hu
    rcases hs.kept userID u hu with hmem | hmem | hmem
    · exact Or.inl hmem
    · exact Or.inr (Or.inr ⟨batch, List.mem_cons_self, hbatch ▸ hmem⟩)
    · exact Or.inr (Or.inr (hmem.cons _))
  began := fun h => absurd rfl h
  notUndone := by
    intro later earlier heq u hu
    cases later with
    | nil =>
        cases heq
    | cons d later =>
        obtain ⟨rfl, htail⟩ := List.cons.inj heq
        obtain ⟨written, hwritten, hu⟩ := hu
        rcases List.mem_cons.mp hwritten with hwritten | hwritten
        · cases hwritten
          refine hs.not_mem_earlier htail (mem_later_of_mem_since htail ?_)
          exact hs.held hnot u (hbatch ▸ hu)
        · exact hs.notUndone later earlier htail u ⟨written, hwritten, hu⟩
  nothingLost := by
    intro later written during earlier heq hbegan hreset userID u hu
    cases later with
    | nil =>
        obtain ⟨hhead, htail⟩ := List.cons.inj heq
        cases hhead
        obtain ⟨during', earlier', heq', hbegan', hkept⟩ := hs.began hbusy
        obtain ⟨rfl, rfl⟩ := split_unique hbegan hbegan' (htail.symm.trans heq')
        rcases hkept userID u hu with hmem | hmem
        · exact ⟨batch, List.mem_cons_self, hbatch ▸ hmem⟩
        · exact ((hmem.cons _).append during).cons _
    | cons d later =>
        exact hs.nothingLost later written during earlier (List.cons.inj heq).2 hbegan
          hreset userID u hu

theorem Inv.step
    (hs : Inv s)
    {l : Label}
    (hguard : Undisturbed s l)
    (hstep : step s l = some s') :
    Inv s' := by
  cases l with
  | enqueue userID stats =>
      simp only [StatsQueue.step] at hstep
      split at hstep
      case isTrue =>
        cases hstep
      case isFalse hfree =>
        cases hstep
        exact hs.enqueue (by simpa using hfree) userID stats
  | resetTable fails =>
      simp only [StatsQueue.step] at hstep
      split at hstep
      case isTrue =>
        cases hstep
      case isFalse =>
        split at hstep
        case isTrue =>
          cases hstep
          exact hs
        case isFalse =>
          split at hstep
          case isTrue =>
            cases hstep
          case isFalse =>
            cases hstep
            exact hs.reset
  | resetQueue =>
      simp only [StatsQueue.step] at hstep
      split at hstep
      case isTrue hresetting =>
        cases hstep
        exact hs.resetQueue hresetting
      case isFalse =>
        cases hstep
  | swap =>
      simp only [StatsQueue.step] at hstep
      split at hstep
      case isTrue =>
        cases hstep
      case isFalse hnot =>
        rw [not_or, Bool.not_eq_true, not_not] at hnot
        have hswap := hs.swap hnot.1 hnot.2
        split at hstep
        case isTrue hempty =>
          cases hstep
          have hqueue : s.queue = .empty := Table.ext hempty
          have hbatch : (Writer.swapped s.queue.rows).batch = [] := hempty
          have hpass := hswap.pass hbatch (by intro h; cases h) rfl
          rw [State.pass] at hpass ⊢
          rw [hqueue]
          exact hpass
        case isFalse =>
          cases hstep
          exact hswap
  | begin fails order =>
      simp only [StatsQueue.step] at hstep
      split at hstep
      case h_1 batch hwriter =>
        split at hstep
        case isTrue hfails =>
          cases hstep
          exact hs.fail (hguard hfails)
        case isFalse =>
          split at hstep
          case isTrue hperm =>
            cases hstep
            refine hs.goOn (by rw [hwriter]; intro h; cases h) fun u => ?_
            rw [hwriter]
            exact hperm.mem_iff
          case isFalse =>
            cases hstep
      case h_2 =>
        cases hstep
  | exec fails =>
      simp only [StatsQueue.step] at hstep
      split at hstep
      case h_1 done u todo hwriter =>
        split at hstep
        case isTrue hfails =>
          cases hstep
          exact hs.fail (hguard hfails)
        case isFalse =>
          cases hstep
          refine hs.goOn (by rw [hwriter]; intro h; cases h) fun v => ?_
          rw [hwriter]
          simp [Writer.batch]
      case h_2 =>
        cases hstep
  | commit fails =>
      simp only [StatsQueue.step] at hstep
      split at hstep
      case h_1 done hwriter =>
        cases fails with
        | true =>
            cases hstep
            exact hs.fail hguard
        | false =>
            cases hstep
            refine hs.pass ?_ (by rw [hwriter]; intro h; cases h) hguard
            rw [hwriter]
            exact List.append_nil done
      case h_2 =>
        cases hstep

/--
In every run in which no pass commits that a reset has overtaken, and none fails that
holds the last value of a user, no reset is undone and no value is lost.
-/
theorem reset_stays_and_nothing_lost
    (users : Table UserRow.id)
    {ls : List Label}
    (hguard : Along step Undisturbed (initial users) ls)
    (hrun : run step (initial users) ls = some s) :
    NotUndone s.history ∧ NothingLost s.history := by
  have hs : Inv s := run_invariant_along
    (fun _ _ _ hs hguard hstep => hs.step hguard hstep) (inv_initial users) hguard hrun
  exact ⟨hs.notUndone, hs.nothingLost⟩

end Preservation

section Users

/-- The statistics of a user that a history leaves. -/
def recorded
    (userID : String)
    (old : Stats) : List Event → Stats
  | [] => old
  | .reset :: _ => ⟨0, 0, 0⟩
  | .passed batch :: h =>
      batch.foldl (fun stats u => if u.userID = userID then u.stats else stats)
        (recorded userID old h)
  | .enqueued _ :: h | .began :: h | .failed :: h => recorded userID old h

theorem find?_foldl_updateStats
    (users : Table UserRow.id) (batch : List Update) (userID : String) :
    ((batch.foldl updateStats users).find? userID).map UserRow.stats =
      ((users.find? userID).map UserRow.stats).map fun stats =>
        batch.foldl (fun stats u => if u.userID = userID then u.stats else stats)
          stats := by
  induction batch generalizing users with
  | nil =>
      rw [List.foldl_nil]
      exact (congrFun Option.map_id _).symm
  | cons u batch ih =>
      rw [List.foldl_cons, ih]
      have hone : ((updateStats users u).find? userID).map UserRow.stats =
          ((users.find? userID).map UserRow.stats).map fun stats =>
            if u.userID = userID then u.stats else stats := by
        rw [updateStats, Table.find?_modify, Option.map_map, Option.map_map]
        refine Option.map_congr fun r hr => ?_
        rw [Function.comp_apply, Function.comp_apply,
          (Table.find?_eq_some_iff.mp hr).2]
        by_cases h : userID = u.userID
        · simp [h]
        · simp [h, Ne.symm h]
      rw [hone, Option.map_map]
      rfl

/-- The table is what the history says. -/
def Recorded
    (users : Table UserRow.id)
    (s : State) : Prop :=
  ∀ userID, (s.users.find? userID).map UserRow.stats =
    (users.find? userID).map fun r => recorded userID r.stats s.history

theorem Recorded.pass
    {users : Table UserRow.id} {s : State}
    (hs : Recorded users s)
    (batch : List Update) :
    Recorded users (s.pass batch) := by
  intro userID
  rw [State.pass, find?_foldl_updateStats, hs userID, Option.map_map]
  rfl

theorem Recorded.reset
    {users : Table UserRow.id} {s : State}
    (hs : Recorded users s) :
    Recorded users
      { s with
        users := resetAll s.users
        resetting := true
        history := .reset :: s.history } := by
  intro userID
  have hold := hs userID
  change ((resetAll s.users).find? userID).map _ =
    (users.find? userID).map fun _ => (⟨0, 0, 0⟩ : Stats)
  rw [resetAll, Table.find?_modify, Option.map_map]
  cases hnew : s.users.find? userID with
  | none =>
      rw [hnew, eq_comm, Option.map_none, Option.map_eq_none_iff] at hold
      rw [hold]
      rfl
  | some r =>
      rw [hnew, eq_comm, Option.map_some, Option.map_eq_some_iff] at hold
      obtain ⟨r₀, hr₀, -⟩ := hold
      rw [hr₀]
      rfl

theorem Recorded.step
    {users : Table UserRow.id} {s s' : State}
    (hs : Recorded users s)
    {l : Label}
    (hstep : step s l = some s') :
    Recorded users s' := by
  cases l with
  | resetTable fails =>
      simp only [StatsQueue.step] at hstep
      repeat' split at hstep
      all_goals cases hstep
      · exact hs
      · exact hs.reset
  | swap =>
      simp only [StatsQueue.step] at hstep
      repeat' split at hstep
      all_goals cases hstep
      · exact Recorded.pass (s := { s with history := .began :: s.history }) hs []
      · exact hs
  | commit fails =>
      simp only [StatsQueue.step] at hstep
      repeat' split at hstep
      all_goals cases hstep
      · exact hs
      · exact hs.pass _
  | _ =>
      simp only [StatsQueue.step] at hstep
      repeat' split at hstep
      all_goals cases hstep
      all_goals exact hs

/-- In every state reached the table is what the history of the run says. -/
theorem users_eq_recorded
    (users : Table UserRow.id)
    {ls : List Label} {s : State}
    (hrun : run step (initial users) ls = some s) :
    Recorded users s :=
  run_invariant (fun _ _ _ hs hstep => hs.step hstep) (fun _ => rfl) hrun

end Users

section OnTheWay

/-- All statistics of a user that are stored, queued or being written have a property. -/
structure OnTheWay
    (P : Stats → Prop)
    (userID : String)
    (s : State) : Prop where
  row : ∀ r ∈ s.users, r.id = userID → P r.stats
  queue : ∀ u ∈ s.queue, u.userID = userID → P u.stats
  batch : ∀ u ∈ s.writer.batch, u.userID = userID → P u.stats

/-- What the step adds for the user has the property. -/
def Adds
    (P : Stats → Prop)
    (userID : String) : Label → Prop
  | .enqueue id stats => id = userID → P stats
  | .resetTable _ => P ⟨0, 0, 0⟩
  | _ => True

variable {P : Stats → Prop}
variable {userID : String}
variable {s s' : State}

/-- The rows after a batch has been written. -/
theorem row_foldl_updateStats
    {batch : List Update} {users : Table UserRow.id}
    (hrow : ∀ r ∈ users, r.id = userID → P r.stats)
    (hbatch : ∀ u ∈ batch, u.userID = userID → P u.stats) :
    ∀ r ∈ batch.foldl updateStats users, r.id = userID → P r.stats := by
  induction batch generalizing users with
  | nil =>
      exact hrow
  | cons u batch ih =>
      refine ih (fun r hr hid => ?_) fun v hv => hbatch v (List.mem_cons_of_mem u hv)
      rw [updateStats, Table.mem_modify_iff] at hr
      obtain ⟨r₀, hr₀, rfl⟩ := hr
      split at hid
      case isTrue heq =>
        rw [if_pos heq]
        exact hbatch u List.mem_cons_self (heq.symm.trans hid)
      case isFalse hne =>
        rw [if_neg hne]
        exact hrow r₀ hr₀ hid

theorem OnTheWay.fail
    (hs : OnTheWay P userID s) :
    OnTheWay P userID s.fail :=
  ⟨hs.row, hs.queue, fun u hu => by cases hu⟩

theorem OnTheWay.pass
    {batch : List Update}
    (hs : OnTheWay P userID s)
    (hbatch : ∀ u ∈ batch, u.userID = userID → P u.stats) :
    OnTheWay P userID (s.pass batch) :=
  ⟨row_foldl_updateStats hs.row hbatch, hs.queue, fun u hu => by cases hu⟩

/-- The statements of the queue bring up nothing that was not on the way. -/
theorem OnTheWay.step
    (hs : OnTheWay P userID s)
    {l : Label}
    (hadds : Adds P userID l)
    (hstep : step s l = some s') :
    OnTheWay P userID s' := by
  cases l with
  | enqueue id stats =>
      simp only [StatsQueue.step] at hstep
      split at hstep
      · cases hstep
      · obtain rfl := Option.some.inj hstep
        refine ⟨hs.row, fun u hu hid => ?_, hs.batch⟩
        rcases (mem_queue_enqueueUserStats s id stats u).mp hu with rfl | ⟨hu, -⟩
        · exact hadds hid
        · exact hs.queue u hu hid
  | resetTable fails =>
      simp only [StatsQueue.step] at hstep
      repeat' split at hstep
      all_goals cases hstep
      · exact hs
      · refine ⟨fun r hr _ => ?_, hs.queue, hs.batch⟩
        rw [resetAll, Table.mem_modify_iff] at hr
        obtain ⟨r₀, -, rfl⟩ := hr
        exact hadds
  | resetQueue =>
      simp only [StatsQueue.step] at hstep
      split at hstep
      all_goals cases hstep
      exact ⟨hs.row, fun u hu => absurd hu (Table.not_mem_empty u), hs.batch⟩
  | swap =>
      simp only [StatsQueue.step] at hstep
      repeat' split at hstep
      all_goals cases hstep
      · have hbegan : OnTheWay P userID { s with history := .began :: s.history } :=
          ⟨hs.row, hs.queue, hs.batch⟩
        exact hbegan.pass (fun u hu => by cases hu)
      · exact ⟨hs.row, fun u hu => absurd hu (Table.not_mem_empty u), hs.queue⟩
  | begin fails order =>
      simp only [StatsQueue.step] at hstep
      cases hwriter : s.writer with
      | swapped batch =>
          simp only [hwriter] at hstep
          split at hstep
          · cases hstep
            exact hs.fail
          · split at hstep
            case isTrue hperm =>
              cases hstep
              refine ⟨hs.row, hs.queue, fun u hu => hs.batch u ?_⟩
              rw [hwriter]
              exact hperm.mem_iff.mp hu
            case isFalse =>
              cases hstep
      | _ =>
          simp [hwriter] at hstep
  | exec fails =>
      simp only [StatsQueue.step] at hstep
      split at hstep
      case h_1 done u todo hwriter =>
        split at hstep
        all_goals cases hstep
        · exact hs.fail
        · refine ⟨hs.row, hs.queue, fun v hv => hs.batch v ?_⟩
          rw [hwriter]
          simpa [Writer.batch] using hv
      case h_2 =>
        cases hstep
  | commit fails =>
      simp only [StatsQueue.step] at hstep
      split at hstep
      case h_1 done hwriter =>
        have hbatch : ∀ u ∈ done, u.userID = userID → P u.stats := by
          intro u hu
          refine hs.batch u ?_
          rw [hwriter]
          simpa [Writer.batch] using hu
        split at hstep
        all_goals cases hstep
        · exact hs.fail
        · exact hs.pass hbatch
      case h_2 =>
        cases hstep

end OnTheWay

section Examples

def examplePhil : Table UserRow.id :=
  ⟨[⟨"u_phil", ⟨0, 0, 0⟩⟩], List.nodup_singleton _⟩

def exampleStats (messages : Int) : Stats :=
  ⟨messages, 0, 0⟩

def exampleUpdate (messages : Int) (call : Nat) : Update :=
  ⟨"u_phil", exampleStats messages, call⟩

/-- A pass writes a value, then comes a reset, and then another pass. -/
def passResetPass : List Label :=
  [.enqueue "u_phil" (exampleStats 5), .swap, .begin false [exampleUpdate 5 0],
    .exec false, .commit false, .resetTable false, .resetQueue,
    .enqueue "u_phil" (exampleStats 1), .swap, .begin false [exampleUpdate 1 1],
    .exec false, .commit false]

theorem reset_stays_example :
    ∃ s, run step (initial examplePhil) passResetPass = some s ∧
      NotUndone s.history ∧ NothingLost s.history := by
  have hguard : Along step Undisturbed (initial examplePhil) passResetPass := by
    decide
  have hrun : ∃ s, run step (initial examplePhil) passResetPass = some s :=
    Option.isSome_iff_exists.mp (by decide)
  obtain ⟨s, hs⟩ := hrun
  exact ⟨s, hs, reset_stays_and_nothing_lost examplePhil hguard hs⟩

/-- A reset overtakes a pass that has taken its updates. -/
def resetOvertakesPass : List Label :=
  [.enqueue "u_phil" (exampleStats 5), .swap, .resetTable false, .resetQueue,
    .begin false [exampleUpdate 5 0], .exec false, .commit false]

/-- The transaction of a pass cannot be begun, and the next pass succeeds. -/
def failedPass : List Label :=
  [.enqueue "u_phil" (exampleStats 5), .swap, .begin true [], .swap]

/-- In the first run the reset is undone, in the second one the value is lost. -/
theorem reset_undone_and_value_lost :
    (∃ s, run step (initial examplePhil) resetOvertakesPass = some s ∧
      s.users.rows = [⟨"u_phil", exampleStats 5⟩] ∧ ¬ NotUndone s.history) ∧
    ∃ s, run step (initial examplePhil) failedPass = some s ∧
      s.users.rows = [⟨"u_phil", exampleStats 0⟩] ∧ ¬ NothingLost s.history := by
  constructor
  · refine ⟨_, rfl, rfl, fun hundone => ?_⟩
    refine hundone [.passed [exampleUpdate 5 0]]
      [.began, .enqueued (exampleUpdate 5 0)] rfl (exampleUpdate 5 0) ?_ ?_
    · exact ⟨_, List.mem_cons_self, List.mem_cons_self⟩
    · decide
  · refine ⟨_, rfl, rfl, fun hlost => ?_⟩
    have hwritten := hlost [] [] []
      [.failed, .began, .enqueued (exampleUpdate 5 0)] rfl (by decide) (by decide)
      "u_phil" (exampleUpdate 5 0) (by decide)
    obtain ⟨batch, hbatch, hu⟩ := hwritten
    have hempty : batch = [] := by simpa using hbatch
    rw [hempty] at hu
    cases hu

end Examples

end StatsQueue
end Manager
end CoopMessenger
