import CoopMessenger.Library.Runs
import Mathlib.Data.List.Count

/-!
# Connections that are closed

`Connection` of `web/src/app/Connection.js` opens a WebSocket, and a new one some time
after the old one died.  The browser delivers the events of the sockets and fires the
timers; every socket reports once that it is closed, cleanly or not, and also after
`close` has been called.

**Results.**
* `step_inv`: a socket that is not closed and a timer never wait at the same time.
* `quiet_of_along`: without an unclean report behind `close` nothing is opened any more.
* `stays_closed_iff`: with such a report the next timer opens a socket.
-/

namespace CoopMessenger
namespace Web

open Library

namespace ClientConnection

section Model

def retryBackoffSeconds : List Nat := [5, 10, 20, 30, 60, 120]

inductive ConnectionState where
  | connected
  | connecting
deriving DecidableEq, Repr

/-- What is read of a message: its event, its ID if it has one, and if it has a time. -/
structure Data where
  event : String
  id : Option String
  hasTime : Bool
deriving DecidableEq, Repr

def isNotificationEvent (event : String) : Bool :=
  event ∈ ["message", "message_delete", "message_clear", "coop_nudge"]

def isCoopSocialEvent (event : String) : Bool :=
  event = "coop_typing"

/-- A call of a listener. -/
inductive Call where
  | stateChanged (state : ConnectionState)
  | socialEvent (data : Data)
  | notification (data : Data)
deriving DecidableEq, Repr

/-- A WebSocket: the parameter of its URL, and if it has reported that it is closed. -/
structure Socket where
  since : Option String
  closed : Bool
deriving DecidableEq, Repr

/-- A timer that has not fired: its ID and its seconds. -/
structure Timer where
  id : Nat
  seconds : Nat
deriving DecidableEq, Repr

/--
A connection with all sockets that it has created, the timers that are set, the calls of
its listeners, and how many sockets there were when `close` was called.
-/
structure Connection where
  since : Option String
  ws : Option Nat
  retryCount : Nat
  retryTimeout : Option Nat
  sockets : List Socket
  timers : List Timer
  nextTimer : Nat
  calls : List Call
  closedAt : Option Nat
deriving DecidableEq, Repr

/-- What happens to a connection; a message that is not JSON has no data. -/
inductive Event where
  | opened (socket : Nat)
  | message (socket : Nat) (data : Option Data)
  | error (socket : Nat)
  | closed (socket : Nat) (wasClean : Bool)
  | timer (id : Nat)
  | close
deriving DecidableEq, Repr

namespace Connection

/-- The constructor. -/
def new (since : Option String) : Connection where
  since := since
  ws := none
  retryCount := 0
  retryTimeout := none
  sockets := []
  timers := []
  nextTimer := 0
  calls := []
  closedAt := none

/-- `start`; the handlers of the socket are the steps below. -/
def start (c : Connection) : Connection :=
  { c with
    ws := some c.sockets.length
    sockets := c.sockets ++ [⟨c.since, false⟩] }

def onopen (c : Connection) : Connection :=
  { c with
    retryCount := 0
    calls := c.calls ++ [.stateChanged .connected] }

def onmessage
    (c : Connection)
    (data : Option Data) : Connection :=
  match data with
  | none => c
  | some data =>
      if data.event = "open" then
        c
      else if isCoopSocialEvent data.event then
        { c with calls := c.calls ++ [.socialEvent data] }
      else if isNotificationEvent data.event ∧ data.id.isSome ∧ data.hasTime then
        { c with
          since := data.id
          calls := c.calls ++ [.notification data] }
      else
        c

def onclose
    (c : Connection)
    (wasClean : Bool) : Connection :=
  if wasClean then
    { c with ws := none }
  else
    let retrySeconds :=
      retryBackoffSeconds.getD (min c.retryCount (retryBackoffSeconds.length - 1)) 0
    { c with
      retryCount := c.retryCount + 1
      retryTimeout := some c.nextTimer
      timers := c.timers ++ [⟨c.nextTimer, retrySeconds⟩]
      nextTimer := c.nextTimer + 1
      calls := c.calls ++ [.stateChanged .connecting] }

/-- `clearTimeout` -/
def clearTimeout
    (c : Connection)
    (id : Nat) : Connection :=
  { c with timers := c.timers.filter fun t => t.id ≠ id }

/-- `close`; the socket that is closed reports that later on. -/
def close (c : Connection) : Connection :=
  let cleared :=
    match c.retryTimeout with
    | some id => c.clearTimeout id
    | none => c
  { cleared with
    retryTimeout := none
    ws := none
    closedAt := some c.sockets.length }

/-- The socket has reported that it is closed. -/
def markClosed
    (c : Connection)
    (socket : Nat) : Connection :=
  { c with sockets := c.sockets.modify socket fun s => { s with closed := true } }

end Connection

/-- Is there such a socket, that has not reported to be closed? -/
def Live
    (c : Connection)
    (socket : Nat) : Prop :=
  ∃ s ∈ c.sockets[socket]?, s.closed = false

instance decidableLive
    (c : Connection)
    (socket : Nat) :
    Decidable (Live c socket) :=
  match h : c.sockets[socket]? with
  | none => isFalse (by rintro ⟨s, hs, -⟩; rw [h] at hs; cases hs)
  | some s => decidable_of_iff (s.closed = false) (by simp [Live, h])

/-- One event; `none` if the browser cannot deliver it, or if `close` has been called already. -/
def step
    (c : Connection) : Event → Option Connection
  | .opened socket => if socket < c.sockets.length then some c.onopen else none
  | .message socket data => if socket < c.sockets.length then some (c.onmessage data) else none
  | .error socket => if socket < c.sockets.length then some c else none
  | .closed socket wasClean =>
      if Live c socket then some ((c.markClosed socket).onclose wasClean) else none
  | .timer id =>
      if id ∈ c.timers.map Timer.id then some (c.clearTimeout id).start else none
  | .close => if c.closedAt = none then some c.close else none

/-- No socket has been created since `close` was called. -/
def Quiet (c : Connection) : Prop :=
  ∀ n, c.closedAt = some n → c.sockets.length = n

/-- Behind `close` no socket reports that it has not been closed cleanly. -/
def CleanClose
    (c : Connection)
    (e : Event) : Prop :=
  c.closedAt ≠ none → ∀ socket, e ≠ .closed socket false

end Model

section Invariant

/-- The sockets that have not reported to be closed. -/
def live (c : Connection) : Nat :=
  c.sockets.countP fun s => !s.closed

/--
At most one socket is alive or one timer is set; before `close` it is the timer that is
known, and behind it, without unclean reports, there is none.
-/
structure Inv (c : Connection) : Prop where
  one : live c + c.timers.length ≤ 1
  known : c.closedAt = none → ∀ t ∈ c.timers, c.retryTimeout = some t.id
  quiet : ∀ n, c.closedAt = some n → c.timers = [] ∧ c.sockets.length = n

theorem Inv.congr
    {c c' : Connection}
    (h : Inv c)
    (hsockets : c'.sockets = c.sockets)
    (htimers : c'.timers = c.timers)
    (hretry : c'.retryTimeout = c.retryTimeout)
    (hclosed : c'.closedAt = c.closedAt) :
    Inv c' where
  one := by rw [live, hsockets, htimers]; exact h.one
  known := by rw [hclosed, htimers, hretry]; exact h.known
  quiet := by rw [hclosed, htimers, hsockets]; exact h.quiet

/-- A message changes none of this. -/
theorem onmessage_frame
    (c : Connection)
    (data : Option Data) :
    (c.onmessage data).sockets = c.sockets ∧ (c.onmessage data).timers = c.timers ∧
      (c.onmessage data).retryTimeout = c.retryTimeout ∧
      (c.onmessage data).closedAt = c.closedAt := by
  unfold Connection.onmessage
  split
  · exact ⟨rfl, rfl, rfl, rfl⟩
  · split
    · exact ⟨rfl, rfl, rfl, rfl⟩
    · split
      · exact ⟨rfl, rfl, rfl, rfl⟩
      · split
        · exact ⟨rfl, rfl, rfl, rfl⟩
        · exact ⟨rfl, rfl, rfl, rfl⟩

theorem length_markClosed
    (c : Connection)
    (socket : Nat) :
    (c.markClosed socket).sockets.length = c.sockets.length :=
  List.length_modify ..

theorem countP_modify
    (sockets : List Socket)
    (i : Nat)
    (h : ∃ s ∈ sockets[i]?, s.closed = false) :
    (sockets.modify i (fun s => { s with closed := true })).countP (fun s => !s.closed) + 1 =
      sockets.countP (fun s => !s.closed) := by
  obtain ⟨s, hs, hopen⟩ := h
  induction sockets generalizing i with
  | nil =>
      cases hs
  | cons t sockets ih =>
      cases i with
      | zero =>
          obtain rfl : t = s := Option.some.inj hs
          simp [hopen]
      | succ i =>
          have hrest := ih i hs
          rw [List.modify_succ_cons, List.countP_cons, List.countP_cons]
          omega

/-- A socket that reports to be closed is one less. -/
theorem live_markClosed
    {c : Connection} {socket : Nat}
    (h : Live c socket) :
    live (c.markClosed socket) + 1 = live c :=
  countP_modify c.sockets socket h

theorem inv_start
    (since : Option String) :
    Inv (Connection.new since).start where
  one := Nat.le_refl 1
  known := fun _ _ ht => absurd ht List.not_mem_nil
  quiet := fun n hn => absurd hn (Option.some_ne_none n).symm

theorem inv_onclose
    {c : Connection} {socket : Nat} {wasClean : Bool}
    (h : Inv c)
    (hlive : Live c socket)
    (hcond : c.closedAt ≠ none → wasClean = true) :
    Inv ((c.markClosed socket).onclose wasClean) := by
  have hone := h.one
  have hcount := live_markClosed hlive
  have htimers : c.timers = [] := List.length_eq_zero_iff.mp (by omega)
  cases wasClean with
  | true =>
      refine ⟨?_, ?_, ?_⟩
      · show live (c.markClosed socket) + c.timers.length ≤ 1
        omega
      · intro _ t ht
        exact absurd (htimers ▸ ht : t ∈ []) List.not_mem_nil
      · intro n hn
        exact ⟨htimers, (length_markClosed c socket).trans (h.quiet n hn).2⟩
  | false =>
      have hopen : c.closedAt = none := by
        by_contra hne
        exact absurd (hcond hne) Bool.false_ne_true
      refine ⟨?_, ?_, ?_⟩
      · show live (c.markClosed socket) + (c.timers ++ [_]).length ≤ 1
        rw [htimers, List.nil_append, List.length_singleton]
        omega
      · intro _ t ht
        have ht' : t ∈ c.timers ++ [_] := ht
        rw [htimers, List.nil_append, List.mem_singleton] at ht'
        rw [ht']
        rfl
      · intro n hn
        exact absurd (hopen.symm.trans hn) (Option.some_ne_none n).symm

theorem inv_timer
    {c : Connection} {id : Nat}
    (h : Inv c)
    (hid : id ∈ c.timers.map Timer.id) :
    Inv (c.clearTimeout id).start := by
  obtain ⟨t, ht, rfl⟩ := List.mem_map.mp hid
  have hpos := List.length_pos_of_mem ht
  have hone := h.one
  obtain ⟨t', ht'⟩ := List.length_eq_one_iff.mp (show c.timers.length = 1 from by omega)
  rw [ht', List.mem_singleton] at ht
  subst ht
  have hleft : (c.clearTimeout t.id).timers = [] := by
    simp [Connection.clearTimeout, ht']
  have hopen : c.closedAt = none := by
    by_contra hne
    obtain ⟨n, hn⟩ := Option.ne_none_iff_exists'.mp hne
    rw [(h.quiet n hn).1] at ht'
    exact absurd ht' (List.cons_ne_nil t []).symm
  refine ⟨?_, ?_, ?_⟩
  · have hlive : live (c.clearTimeout t.id).start = live c + 1 :=
      List.countP_append
    rw [hlive, show (c.clearTimeout t.id).start.timers = [] from hleft, List.length_nil]
    rw [ht', List.length_singleton] at hone
    omega
  · intro _ t' ht'
    exact absurd (hleft ▸ ht' : t' ∈ []) List.not_mem_nil
  · intro n hn
    exact absurd (hopen.symm.trans hn) (Option.some_ne_none n).symm

theorem inv_close
    {c : Connection}
    (h : Inv c)
    (hopen : c.closedAt = none) :
    Inv c.close := by
  have hleft : c.close.timers = [] ∧ c.close.sockets = c.sockets := by
    unfold Connection.close
    cases hretry : c.retryTimeout with
    | none =>
        refine ⟨List.eq_nil_iff_forall_not_mem.mpr fun t ht => ?_, rfl⟩
        exact absurd ((h.known hopen t ht).symm.trans hretry) (Option.some_ne_none _)
    | some id =>
        refine ⟨List.filter_eq_nil_iff.mpr fun t ht => ?_, rfl⟩
        have hid := Option.some.inj ((h.known hopen t ht).symm.trans hretry)
        simp [hid]
  have hone := h.one
  refine ⟨?_, ?_, ?_⟩
  · rw [live, hleft.1, hleft.2]
    unfold live at hone
    rw [List.length_nil]
    omega
  · intro _ t ht
    exact absurd (hleft.1 ▸ ht : t ∈ []) List.not_mem_nil
  · intro n hn
    exact ⟨hleft.1, by rw [hleft.2]; exact Option.some.inj hn⟩

/-- Every step keeps the invariant, behind `close` if it is no unclean report. -/
theorem step_inv
    {c c' : Connection} {e : Event}
    (h : Inv c)
    (hcond : CleanClose c e)
    (hstep : step c e = some c') :
    Inv c' := by
  cases e with
  | opened socket =>
      obtain ⟨-, hc⟩ := Option.ite_none_right_eq_some.mp hstep
      exact Option.some.inj hc ▸ h.congr rfl rfl rfl rfl
  | message socket data =>
      obtain ⟨-, hc⟩ := Option.ite_none_right_eq_some.mp hstep
      obtain ⟨hsockets, htimers, hretry, hclosed⟩ := onmessage_frame c data
      exact Option.some.inj hc ▸ h.congr hsockets htimers hretry hclosed
  | error socket =>
      obtain ⟨-, hc⟩ := Option.ite_none_right_eq_some.mp hstep
      exact Option.some.inj hc ▸ h
  | closed socket wasClean =>
      obtain ⟨hlive, hc⟩ := Option.ite_none_right_eq_some.mp hstep
      refine Option.some.inj hc ▸ inv_onclose h hlive (fun hne => ?_)
      cases wasClean with
      | true => rfl
      | false => exact absurd rfl (hcond hne socket)
  | timer id =>
      obtain ⟨hid, hc⟩ := Option.ite_none_right_eq_some.mp hstep
      exact Option.some.inj hc ▸ inv_timer h hid
  | close =>
      obtain ⟨hopen, hc⟩ := Option.ite_none_right_eq_some.mp hstep
      exact Option.some.inj hc ▸ inv_close h hopen

/-- Without an unclean report behind `close` nothing is opened any more. -/
theorem quiet_of_along
    {c c' : Connection} {es : List Event}
    (h : Inv c)
    (hcond : Along step CleanClose c es)
    (hrun : run step c es = some c') :
    Quiet c' ∧ (c'.closedAt ≠ none → c'.timers = []) := by
  have hinv := run_invariant_along (fun _ _ _ hi hc hs => step_inv hi hc hs) h hcond hrun
  refine ⟨fun n hn => (hinv.quiet n hn).2, fun hne => ?_⟩
  obtain ⟨n, hn⟩ := Option.ne_none_iff_exists'.mp hne
  exact (hinv.quiet n hn).1

end Invariant

section Retries

/-- A socket has been created since `close`, or a timer is set that will create one. -/
def Restarts (c : Connection) : Prop :=
  ∃ n, c.closedAt = some n ∧ n ≤ c.sockets.length ∧ (n < c.sockets.length ∨ c.timers ≠ [])

/-- What is set behind `close` is never taken back. -/
theorem step_restarts
    {c c' : Connection} {e : Event}
    (h : Restarts c)
    (hstep : step c e = some c') :
    Restarts c' := by
  obtain ⟨n, hn, hle, hrestart⟩ := h
  cases e with
  | opened socket =>
      obtain ⟨-, hc⟩ := Option.ite_none_right_eq_some.mp hstep
      exact Option.some.inj hc ▸ ⟨n, hn, hle, hrestart⟩
  | message socket data =>
      obtain ⟨-, hc⟩ := Option.ite_none_right_eq_some.mp hstep
      obtain ⟨hsockets, htimers, -, hclosed⟩ := onmessage_frame c data
      refine Option.some.inj hc ▸ ⟨n, hclosed.trans hn, ?_⟩
      rw [hsockets, htimers]
      exact ⟨hle, hrestart⟩
  | error socket =>
      obtain ⟨-, hc⟩ := Option.ite_none_right_eq_some.mp hstep
      exact Option.some.inj hc ▸ ⟨n, hn, hle, hrestart⟩
  | closed socket wasClean =>
      obtain ⟨-, hc⟩ := Option.ite_none_right_eq_some.mp hstep
      have hlength := length_markClosed c socket
      cases wasClean with
      | true =>
          refine Option.some.inj hc ▸ ⟨n, hn, hlength.symm ▸ hle, ?_⟩
          exact hrestart.imp_left (fun hlt => hlength.symm ▸ hlt)
      | false =>
          refine Option.some.inj hc ▸ ⟨n, hn, hlength.symm ▸ hle, Or.inr ?_⟩
          exact List.append_ne_nil_of_right_ne_nil _ (List.cons_ne_nil _ _)
  | timer id =>
      obtain ⟨-, hc⟩ := Option.ite_none_right_eq_some.mp hstep
      have hlength : (c.clearTimeout id).start.sockets.length = c.sockets.length + 1 :=
        List.length_append
      refine Option.some.inj hc ▸ ⟨n, hn, ?_, Or.inl ?_⟩
      · omega
      · omega
  | close =>
      obtain ⟨hopen, -⟩ := Option.ite_none_right_eq_some.mp hstep
      exact absurd (hopen.symm.trans hn) (Option.some_ne_none n).symm

/-- An unclean report behind `close` sets a timer. -/
theorem restarts_of_unclean
    {c c' : Connection} {e : Event}
    (h : Inv c)
    (hcond : ¬ CleanClose c e)
    (hstep : step c e = some c') :
    Restarts c' := by
  obtain ⟨hne, hunclean⟩ := Classical.not_imp.mp hcond
  obtain ⟨socket, heq⟩ := not_forall.mp hunclean
  obtain rfl := not_not.mp heq
  obtain ⟨n, hn⟩ := Option.ne_none_iff_exists'.mp hne
  obtain ⟨-, hc⟩ := Option.ite_none_right_eq_some.mp hstep
  have hlength : ((c.markClosed socket).onclose false).sockets.length = n :=
    (length_markClosed c socket).trans (h.quiet n hn).2
  refine Option.some.inj hc ▸ ⟨n, hn, Nat.le_of_eq hlength.symm, Or.inr ?_⟩
  exact List.append_ne_nil_of_right_ne_nil _ (List.cons_ne_nil _ _)

theorem restarts_of_not_along
    {c c' : Connection} {es : List Event}
    (h : Inv c)
    (hcond : ¬ Along step CleanClose c es)
    (hrun : run step c es = some c') :
    Restarts c' := by
  induction es generalizing c with
  | nil =>
      exact absurd trivial hcond
  | cons e es ih =>
      obtain ⟨c₁, hstep, hrest⟩ := run_cons_eq_some.mp hrun
      by_cases hclean : CleanClose c e
      · refine ih (step_inv h hclean hstep) (fun halong => hcond ⟨hclean, ?_⟩) hrest
        intro c₂ hstep'
        obtain rfl := Option.some.inj (hstep.symm.trans hstep')
        exact halong
      · exact run_invariant (fun _ _ _ => step_restarts) (restarts_of_unclean h hclean hstep) hrest

/--
In a run from the start, no socket reports an unclean close behind `close` just if no
socket is created behind `close`, whichever timers fire in the end.
-/
theorem stays_closed_iff
    {since : Option String} {es : List Event} {c : Connection}
    (hrun : run step (Connection.new since).start es = some c) :
    (∀ (ids : List Nat) (c' : Connection),
        run step c (ids.map Event.timer) = some c' → Quiet c')
      ↔
    Along step CleanClose (Connection.new since).start es := by
  constructor
  · intro hquiet
    by_contra hcond
    obtain ⟨n, hn, hle, hlt | hset⟩ := restarts_of_not_along (inv_start since) hcond hrun
    · have hnow := hquiet [] c rfl n hn
      omega
    · obtain ⟨t, timers, ht⟩ := List.exists_cons_of_ne_nil hset
      have hid : t.id ∈ c.timers.map Timer.id := by
        rw [ht]
        exact List.mem_cons_self
      have hfire : run step c ([t.id].map Event.timer) = some (c.clearTimeout t.id).start := by
        rw [List.map_singleton, run, step, if_pos hid]
        rfl
      have hnow := hquiet [t.id] _ hfire n hn
      have hlength : (c.clearTimeout t.id).start.sockets.length = c.sockets.length + 1 :=
        List.length_append
      omega
  · intro hcond ids c' htimers
    have halong : Along step CleanClose c (ids.map Event.timer) := by
      have hfires : ∀ e ∈ ids.map Event.timer, ∀ socket, e ≠ .closed socket false := by
        intro e he socket heq
        obtain ⟨id, -, rfl⟩ := List.mem_map.mp he
        cases heq
      have hclean : ∀ (c : Connection) (e : Event),
          (∀ socket, e ≠ .closed socket false) → CleanClose c e :=
        fun c e he _ => he
      exact (Along.of_forall hfires c).imp hclean
    have hinv := run_invariant_along (fun _ _ _ hi hc hs => step_inv hi hc hs)
      (inv_start since) hcond hrun
    exact (quiet_of_along hinv halong htimers).1

/-- A connection is closed before its socket is open; the browser fails that socket. -/
def closedEarly : List Event :=
  [.close, .error 0, .closed 0 false, .timer 0]

/-- The timer opens another socket. -/
theorem closedEarly_restarts :
    ∃ c, run step (Connection.new none).start closedEarly = some c ∧ ¬ Quiet c := by
  refine ⟨_, rfl, fun h => ?_⟩
  have hlength := h 1 rfl
  exact absurd hlength (by decide)

/-- A connection that is opened and closed, with a clean report. -/
theorem stays_closed_clean :
    (∀ (ids : List Nat) (c' : Connection),
        run step ((((Connection.new none).start.onopen).close.markClosed 0).onclose true)
          (ids.map Event.timer) = some c' → Quiet c')
      ↔
    Along step CleanClose (Connection.new none).start [.opened 0, .close, .closed 0 true] :=
  stays_closed_iff rfl

end Retries

end ClientConnection

end Web
end CoopMessenger
