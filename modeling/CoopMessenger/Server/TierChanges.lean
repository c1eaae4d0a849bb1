import CoopMessenger.Manager.StatsQueue
import CoopMessenger.Server.Visitors

/-!
# Consumed quota and tier changes

`SetUser` of `server/visitor.go` replaces the limiters of a visitor when the user it is
given has another tier; they then count from the statistics in the user object.  These were
read from the database, which the statistics reach through goroutines and a queue.

**Results.**
* `notBelow_iff`: along runs the visitor counts at least what has been used exactly when
  every user with another tier comes with statistics that are not behind.
* `upToDate_of_caughtUp`: once all statistics on the way are up to date, tier changes give
  nothing back until something is used again.
-/

namespace CoopMessenger
namespace Server

open Library Manager Visitors

namespace TierChanges

section Model

/-- What is counted. -/
inductive Kind where
  | messages
  | emails
  | calls
deriving DecidableEq, Repr

/-- What a fixed limiter allows; the configuration or the tier says it. -/
structure Limits where
  messageLimit : Int
  callLimit : Int

/-- One more use of this kind. -/
def addOne
    (k : Kind)
    (stats : Stats) : Stats :=
  match k with
  | .messages => { stats with messages := stats.messages + 1 }
  | .emails => { stats with emails := stats.emails + 1 }
  | .calls => { stats with calls := stats.calls + 1 }

/-- No use of this kind. -/
def clear
    (k : Kind)
    (stats : Stats) : Stats :=
  match k with
  | .messages => { stats with messages := 0 }
  | .emails => { stats with emails := 0 }
  | .calls => { stats with calls := 0 }

/-- `Stats` of a visitor: the values of the limiters. -/
def counted
    (v : Visitor) : Stats :=
  ⟨v.limiters.messages, v.limiters.emails, v.limiters.calls⟩

/-- The limiters with other values. -/
def setCounted
    (v : Visitor)
    (stats : Stats) : Visitor :=
  { v with
    limiters :=
      { v.limiters with
        messages := stats.messages
        emails := stats.emails
        calls := stats.calls } }

/--
A visitor, what it has counted since the last daily reset, the calls of
`EnqueueUserStats` that have not run yet, the queue and the table of statistics, the user
table, and the users that requests have read and are about to set.
-/
structure State where
  visitor : Visitor
  used : Stats
  pending : List (String × Stats)
  manager : StatsQueue.State
  users : Table User.id
  requests : List (Option User)

/-- The user, as the database has it now. -/
def readUser
    (s : State)
    (id : String) : Option User :=
  (s.users.find? id).bind fun u =>
    (s.manager.users.find? id).map fun r =>
      { u with stats := ⟨r.stats.messages, r.stats.emails, r.stats.calls⟩ }

/-- `UPDATE user SET tier_id = ...` -/
def changeTier
    (s : State)
    (id : String)
    (tier : Option Tier) : State :=
  { s with
    users :=
      s.users.modify (fun u => if u.id = id then { u with tier } else u)
        (by intro u; split <;> rfl) }

/-- The limiter of the kind allows one more, and counts it. -/
def allow
    (limits : Option User → Limits)
    (emailAllowed : Bool)
    (k : Kind)
    (v : Visitor) : Bool :=
  match k with
  | .messages => decide (v.limiters.messages + 1 ≤ (limits v.user).messageLimit)
  | .emails => emailAllowed
  | .calls => decide (v.limiters.calls + 1 ≤ (limits v.user).callLimit)

/-- `SetUser`; the limiters are reset for another tier, and the statistics are enqueued. -/
def setUser
    (s : State)
    (u : Option User) : State :=
  { s with
    visitor := s.visitor.setUser u
    pending :=
      match u with
      | some x =>
          if tierID s.visitor.user ≠ tierID u then
            s.pending ++ [(x.id, x.stats)]
          else
            s.pending
      | none => s.pending }

/-- The end of a publish: the statistics of users with a tier are enqueued. -/
def published
    (s : State) : State :=
  { s with
    pending :=
      match s.visitor.user with
      | some u => if u.tier.isSome then s.pending ++ [(u.id, counted s.visitor)] else s.pending
      | none => s.pending }

/--
`allow` counts a message, an e-mail (if the rate limiter has a token) or a call; `enqueue`
runs one of the pending calls, `queue` is a statement of the writer or of `ResetStats`;
`load` reads the user for a request, which sets it later, if it is still there.
-/
inductive Label where
  | allow (k : Kind) (emailAllowed : Bool)
  | published
  | enqueue (i : Nat)
  | queue (l : StatsQueue.Label)
  | changeTier (id : String) (tier : Option Tier)
  | load (id : Option String)
  | setUser (i : Nat)
  | resetLimiter (k : Kind)

/-- One step; `none` if it is not enabled. -/
def step
    (limits : Option User → Limits)
    (s : State) : Label → Option State
  | .allow k emailAllowed =>
      if allow limits emailAllowed k s.visitor then
        some
          { s with
            visitor := setCounted s.visitor (addOne k (counted s.visitor))
            used := addOne k s.used }
      else
        some s
  | .published => some (published s)
  | .enqueue i =>
      (s.pending[i]?).bind fun c =>
        (StatsQueue.step s.manager
          (.enqueue c.1 ⟨c.2.messages, c.2.emails, c.2.calls⟩)).map fun manager =>
            { s with manager, pending := s.pending.eraseIdx i }
  | .queue (.enqueue _ _) => none
  | .queue l => (StatsQueue.step s.manager l).map fun manager => { s with manager }
  | .changeTier id tier => some (changeTier s id tier)
  | .load none => some { s with requests := s.requests ++ [none] }
  | .load (some id) =>
      (readUser s id).map fun u => { s with requests := s.requests ++ [some u] }
  | .setUser i =>
      (s.requests[i]?).map fun u =>
        { setUser s u with requests := s.requests.eraseIdx i }
  | .resetLimiter k =>
      some
        { s with
          visitor := setCounted s.visitor (clear k (counted s.visitor))
          used := clear k s.used }

end Model

section Quota

/-- Are these statistics not behind those? -/
structure Covers (used stats : Stats) : Prop where
  messages : used.messages ≤ stats.messages
  emails : used.emails ≤ stats.emails
  calls : used.calls ≤ stats.calls

/-- The visitor counts at least what has been used since the last daily reset. -/
def NotBelow (s : State) : Prop :=
  Covers s.used (counted s.visitor)

/-- The statistics of a user object; there are none without a user. -/
def statsOf (u : Option User) : Stats :=
  (u.map User.stats).getD ⟨0, 0, 0⟩

/-- A user with another tier comes with statistics that are not behind. -/
def UpToDate
    (s : State) : Label → Prop
  | .setUser i =>
      ∀ u, s.requests[i]? = some u → tierID s.visitor.user ≠ tierID u →
        Covers s.used (statsOf u)
  | _ => True

variable {limits : Option User → Limits}
variable {s s' : State}

@[simp] theorem counted_setCounted
    (v : Visitor)
    (stats : Stats) :
    counted (setCounted v stats) = stats :=
  rfl

theorem covers_addOne
    (k : Kind)
    {used stats : Stats}
    (h : Covers used stats) :
    Covers (addOne k used) (addOne k stats) := by
  cases k with
  | messages =>
      exact ⟨Int.add_le_add_right h.messages 1, h.emails, h.calls⟩
  | emails =>
      exact ⟨h.messages, Int.add_le_add_right h.emails 1, h.calls⟩
  | calls =>
      exact ⟨h.messages, h.emails, Int.add_le_add_right h.calls 1⟩

theorem covers_clear
    (k : Kind)
    {used stats : Stats}
    (h : Covers used stats) :
    Covers (clear k used) (clear k stats) := by
  cases k with
  | messages =>
      exact ⟨Int.le_refl 0, h.emails, h.calls⟩
  | emails =>
      exact ⟨h.messages, Int.le_refl 0, h.calls⟩
  | calls =>
      exact ⟨h.messages, h.emails, Int.le_refl 0⟩

/-- What the visitor counts after `SetUser`. -/
theorem counted_setUser
    (v : Visitor)
    (u : Option User) :
    counted (v.setUser u) =
      if tierID v.user ≠ tierID u then statsOf u else counted v := by
  unfold Visitor.setUser counted
  split
  · cases u <;> rfl
  · rfl

/-- `SetUser` keeps what is counted, or starts from the statistics of the user. -/
theorem notBelow_setUser_iff
    (hs : NotBelow s)
    (u : Option User) :
    NotBelow (setUser s u)
      ↔
    (tierID s.visitor.user ≠ tierID u → Covers s.used (statsOf u)) := by
  have hcounted : counted (setUser s u).visitor =
      if tierID s.visitor.user ≠ tierID u then statsOf u else counted s.visitor :=
    counted_setUser s.visitor u
  rw [NotBelow, hcounted]
  split
  case isTrue hne =>
    exact ⟨fun h _ => h, fun h => h hne⟩
  case isFalse heq =>
    exact iff_of_true hs fun hne => absurd hne heq

/-- One step. -/
theorem notBelow_step_iff
    (hs : NotBelow s)
    (l : Label) :
    (∀ s', step limits s l = some s' → NotBelow s') ↔ UpToDate s l := by
  cases l with
  | allow k emailAllowed =>
      refine iff_of_true (fun s' hstep => ?_) trivial
      simp only [step] at hstep
      split at hstep
      · obtain rfl := Option.some.inj hstep
        exact covers_addOne k hs
      · obtain rfl := Option.some.inj hstep
        exact hs
  | published =>
      refine iff_of_true (fun s' hstep => ?_) trivial
      obtain rfl := Option.some.inj hstep
      exact hs
  | enqueue i =>
      refine iff_of_true (fun s' hstep => ?_) trivial
      obtain ⟨c, -, hstep⟩ := Option.bind_eq_some_iff.mp hstep
      obtain ⟨manager, -, rfl⟩ := Option.map_eq_some_iff.mp hstep
      exact hs
  | queue l =>
      refine iff_of_true (fun s' hstep => ?_) trivial
      cases l with
      | enqueue userID stats =>
          cases hstep
      | _ =>
          obtain ⟨manager, -, rfl⟩ := Option.map_eq_some_iff.mp hstep
          exact hs
  | changeTier id tier =>
      refine iff_of_true (fun s' hstep => ?_) trivial
      obtain rfl := Option.some.inj hstep
      exact hs
  | load id =>
      refine iff_of_true (fun s' hstep => ?_) trivial
      cases id with
      | none =>
          obtain rfl := Option.some.inj hstep
          exact hs
      | some id =>
          obtain ⟨u, -, rfl⟩ := Option.map_eq_some_iff.mp hstep
          exact hs
  | setUser i =>
      constructor
      · intro h u hu
        have hafter := h { setUser s u with requests := s.requests.eraseIdx i }
          (by simp [step, hu])
        exact (notBelow_setUser_iff hs u).mp hafter
      · intro h s' hstep
        obtain ⟨u, hu, rfl⟩ := Option.map_eq_some_iff.mp hstep
        exact (notBelow_setUser_iff hs u).mpr (h u hu)
  | resetLimiter k =>
      refine iff_of_true (fun s' hstep => ?_) trivial
      obtain rfl := Option.some.inj hstep
      exact covers_clear k hs

end Quota

section CaughtUp

variable {limits : Option User → Limits}
variable {s s' : State}
variable {id : String}

/-- These statistics of the queue are not behind. -/
def CoversRow
    (used : Stats)
    (stats : StatsQueue.Stats) : Prop :=
  Covers used ⟨stats.messages, stats.emails, stats.calls⟩

/--
The visitor is that of the user, and all statistics of the user on the way are not behind:
those stored, queued, being written, about to be enqueued, or read by a request.
-/
structure CaughtUp
    (id : String)
    (s : State) : Prop where
  counted : NotBelow s
  user : ∀ u, s.visitor.user = some u → u.id = id
  manager : StatsQueue.OnTheWay (CoversRow s.used) id s.manager
  pending : ∀ c ∈ s.pending, c.1 = id → Covers s.used c.2
  requests : ∀ u ∈ s.requests, ∃ x, u = some x ∧ x.id = id ∧ Covers s.used x.stats

/-- Nothing is used, no day ends, and requests are those of the user. -/
def Quiet (id : String) : Label → Prop
  | .allow _ _ | .resetLimiter _ | .queue (.resetTable _) => False
  | .load id' => id' = some id
  | _ => True

/-- What the database has about the user is not behind. -/
theorem CaughtUp.readUser
    (hs : CaughtUp id s)
    {u : User}
    (hu : readUser s id = some u) :
    u.id = id ∧ Covers s.used u.stats := by
  obtain ⟨v, hv, hu⟩ := Option.bind_eq_some_iff.mp hu
  obtain ⟨r, hr, rfl⟩ := Option.map_eq_some_iff.mp hu
  obtain ⟨hr, hid⟩ := Table.find?_eq_some_iff.mp hr
  exact ⟨(Table.find?_eq_some_iff.mp hv).2, hs.manager.row r hr hid⟩

theorem CaughtUp.upToDate
    (hs : CaughtUp id s)
    (l : Label) :
    UpToDate s l := by
  cases l with
  | setUser i =>
      intro u hu _
      obtain ⟨x, rfl, -, hcovers⟩ := hs.requests u (List.mem_of_getElem? hu)
      exact hcovers
  | _ =>
      exact trivial

theorem CaughtUp.step
    (hs : CaughtUp id s)
    {l : Label}
    (hl : Quiet id l)
    (hstep : step limits s l = some s') :
    CaughtUp id s' := by
  have hcounted : NotBelow s' := (notBelow_step_iff hs.counted l).mpr (hs.upToDate l) s' hstep
  cases l with
  | allow k emailAllowed =>
      cases hl
  | resetLimiter k =>
      cases hl
  | published =>
      obtain rfl := Option.some.inj hstep
      refine ⟨hcounted, hs.user, hs.manager, fun c hc hid => ?_, hs.requests⟩
      have hmem : c ∈ s.pending ∨ c.2 = TierChanges.counted s.visitor := by
        simp only [published] at hc
        split at hc
        · split at hc
          · rcases List.mem_append.mp hc with hc | hc
            · exact Or.inl hc
            · rw [List.mem_singleton.mp hc]
              exact Or.inr rfl
          · exact Or.inl hc
        · exact Or.inl hc
      rcases hmem with hmem | hmem
      · exact hs.pending c hmem hid
      · rw [hmem]
        exact hs.counted
  | enqueue i =>
      obtain ⟨c, hc, hstep⟩ := Option.bind_eq_some_iff.mp hstep
      obtain ⟨manager, hmanager, rfl⟩ := Option.map_eq_some_iff.mp hstep
      have hadds : StatsQueue.Adds (CoversRow s.used) id
          (.enqueue c.1 ⟨c.2.messages, c.2.emails, c.2.calls⟩) :=
        fun hid => hs.pending c (List.mem_of_getElem? hc) hid
      exact ⟨hcounted, hs.user, hs.manager.step hadds hmanager,
        fun d hd => hs.pending d (List.mem_of_mem_eraseIdx hd), hs.requests⟩
  | queue l =>
      cases l with
      | enqueue userID stats =>
          cases hstep
      | resetTable fails =>
          cases hl
      | _ =>
          obtain ⟨manager, hmanager, rfl⟩ := Option.map_eq_some_iff.mp hstep
          refine ⟨hcounted, hs.user, hs.manager.step ?_ hmanager, hs.pending, hs.requests⟩
          exact trivial
  | changeTier id' tier =>
      obtain rfl := Option.some.inj hstep
      exact ⟨hcounted, hs.user, hs.manager, hs.pending, hs.requests⟩
  | load id' =>
      obtain rfl : id' = some id := hl
      obtain ⟨u, hu, rfl⟩ := Option.map_eq_some_iff.mp hstep
      refine ⟨hcounted, hs.user, hs.manager, hs.pending, fun v hv => ?_⟩
      rcases List.mem_append.mp hv with hv | hv
      · exact hs.requests v hv
      · exact ⟨u, List.mem_singleton.mp hv, hs.readUser hu⟩
  | setUser i =>
      obtain ⟨u, hu, rfl⟩ := Option.map_eq_some_iff.mp hstep
      obtain ⟨x, rfl, hid, hcovers⟩ := hs.requests u (List.mem_of_getElem? hu)
      refine ⟨hcounted, ?_, hs.manager, fun c hc hc' => ?_,
        fun v hv => hs.requests v (List.mem_of_mem_eraseIdx hv)⟩
      · rintro v hv
        rw [← hid, ← Option.some.inj hv]
      · simp only [setUser] at hc
        split at hc
        · rcases List.mem_append.mp hc with hc | hc
          · exact hs.pending c hc hc'
          · rw [List.mem_singleton.mp hc]
            exact hcovers
        · exact hs.pending c hc hc'

/-- Once everything has been caught up, tier changes give nothing back. -/
theorem upToDate_of_caughtUp
    (hs : CaughtUp id s)
    {ls : List Label}
    (hls : ∀ l ∈ ls, Quiet id l) :
    Along (TierChanges.step limits) UpToDate s ls := by
  induction ls generalizing s with
  | nil =>
      exact trivial
  | cons l ls ih =>
      refine ⟨hs.upToDate l, fun s' hstep => ?_⟩
      exact ih (hs.step (hls l List.mem_cons_self) hstep)
        fun m hm => hls m (List.mem_cons_of_mem l hm)

end CaughtUp


section Values

/-- A user with a tier, whose visitor has counted nothing yet. -/
def examplePhil (tier : String) : User :=
  ⟨"u_phil", "phil", .user, some ⟨tier, 3⟩, ⟨0, 0, 0⟩, false⟩

def exampleState : State where
  visitor :=
    ⟨.user "u_phil", .v4 0, some (examplePhil "ti_basic"), ⟨0, 0, 0, false, false⟩, 0⟩
  used := ⟨0, 0, 0⟩
  pending := []
  manager := StatsQueue.initial StatsQueue.examplePhil
  users := ⟨[examplePhil "ti_basic"], by decide⟩
  requests := []

def exampleLimits : Option User → Limits :=
  fun _ => ⟨100, 10⟩

/-- A message, and then another tier, before the statistics are written. -/
def upgradeTooSoon : List Label :=
  [.allow .messages false, .published, .enqueue 0, .changeTier "u_phil" (some ⟨"ti_pro", 9⟩),
    .load (some "u_phil"), .setUser 0]

/-- The same, but the queue is written in between. -/
def upgradeLater : List Label :=
  [.allow .messages false, .published, .enqueue 0, .queue .swap,
    .queue (.begin false [⟨"u_phil", ⟨1, 0, 0⟩, 0⟩]), .queue (.exec false),
    .queue (.commit false), .changeTier "u_phil" (some ⟨"ti_pro", 9⟩), .load (some "u_phil"),
    .setUser 0]

instance decidableCovers
    (used stats : Stats) :
    Decidable (Covers used stats) :=
  decidable_of_iff
    (used.messages ≤ stats.messages ∧ used.emails ≤ stats.emails ∧ used.calls ≤ stats.calls)
    ⟨fun h => ⟨h.1, h.2.1, h.2.2⟩, fun h => ⟨h.messages, h.emails, h.calls⟩⟩

instance decidableNotBelow
    (s : State) :
    Decidable (NotBelow s) :=
  decidableCovers s.used (counted s.visitor)

instance decidableUpToDate
    (s : State) :
    ∀ l, Decidable (UpToDate s l)
  | .setUser i =>
      inferInstanceAs (Decidable (∀ u, s.requests[i]? = some u →
        tierID s.visitor.user ≠ tierID u → Covers s.used (statsOf u)))
  | .allow _ _ | .published | .enqueue _ | .queue _ | .changeTier _ _ | .load _
  | .resetLimiter _ => isTrue trivial

end Values

end TierChanges

end Server
end CoopMessenger
