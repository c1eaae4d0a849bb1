import CoopMessenger.Library.Runs
import CoopMessenger.Manager.Reservations
import CoopMessenger.Server.Revocation

/-!
# Concurrent reservations

`handleAccountReservationAdd` of `server/server_account.go` asks whether the
topic may be reserved, whether it is reserved already and how many reservations
the user holds, and then adds the reservation.  These are four database calls;
the calls of several requests interleave.

**Results.**
* `reserve_eq_iterate`: a request that runs alone does what `reserve` does.
* `reservations_safe_iff`: when interleaved requests keep topics exclusive and
  users within their limits.
* `undisturbed_in_order`: a request between whose calls nobody else adds a
  reservation meets the condition.
-/

namespace CoopMessenger
namespace Server

open Library Manager Manager.Database

namespace Reserving

section Model

/-- Where a request is; the earlier phases name their next database call. -/
inductive Phase where
  | allow (topic : String) (everyone : Permission)
  | has (topic : String) (everyone : Permission)
  | count (topic : String) (everyone : Permission)
  | add (topic : String) (everyone : Permission)
  | done
  | failed (e : HandlerError)
deriving DecidableEq, Repr

/-- A request of a user. -/
structure Request where
  id : Nat
  user : User
  phase : Phase
deriving DecidableEq

structure State where
  db : Database
  requests : Table Request.id

/-- The checks before the first call; the body is a topic and a permission. -/
def received
    (u : User) :
    Option (String × String) → Phase
  | none => .failed (.http errHTTPBadRequestJSONInvalid)
  | some (topic, everyone) =>
      if !allowedTopic topic then
        .failed (.http errHTTPBadRequestTopicInvalid)
      else
        match parsePermission everyone with
        | none => .failed (.http errHTTPBadRequestPermissionInvalid)
        | some everyone =>
            if u.isUser && u.tier.isNone then
              .failed (.http errHTTPUnauthorized)
            else
              .allow topic everyone

/-- The next database call of a request. -/
def advance
    (db : Database)
    (fails : Bool)
    (u : User) :
    Phase → Database × Phase
  | .allow topic everyone =>
      if fails || (db.allowReservation u.name topic).toOption.isNone then
        (db, .failed (.http errHTTPConflictTopicReserved))
      else if u.isUser then
        (db, .has topic everyone)
      else
        (db, .add topic everyone)
  | .has topic everyone =>
      if fails then
        (db, .failed (.manager .database))
      else if db.hasReservation u.name topic then
        (db, .add topic everyone)
      else
        (db, .count topic everyone)
  | .count topic everyone =>
      if fails then
        (db, .failed (.manager .database))
      else if u.tier.any (fun tier => decide
          (tier.reservationLimit ≤ db.reservationsCount u.name)) then
        (db, .failed (.http errHTTPTooManyRequestsLimitReservations))
      else
        (db, .add topic everyone)
  | .add topic everyone =>
      if fails then
        (db, .failed (.manager .database))
      else
        match db.addReservation u.name topic everyone with
        | .error e => (db, .failed (.manager e))
        | .ok db' => (db', .done)
  | .done => (db, .done)
  | .failed e => (db, .failed e)

/-- Is the request still to make a call? -/
def Phase.unfinished : Phase → Bool
  | .done | .failed _ => false
  | _ => true

/-- The reservation a request is about to add. -/
def Phase.adding : Phase → Option (String × Permission)
  | .add topic everyone => some (topic, everyone)
  | _ => none

/-- A request arrives, or makes its next call. -/
inductive Label where
  | start (id : Nat) (username : String) (body : Option (String × String))
  | call (id : Nat) (fails : Bool)
deriving DecidableEq, Repr

/-- One step; `none` if it is not enabled. -/
def step
    (s : State) : Label → Option State
  | .start id username body =>
      match s.db.user username with
      | none => none
      | some u =>
          (s.requests.insert? ⟨id, u, received u body⟩).map
            (fun requests => { s with requests })
  | .call id fails =>
      match s.requests.find? id with
      | none => none
      | some c =>
          if c.phase.unfinished then
            let next := advance s.db fails c.user c.phase
            some
              { db := next.1
                requests :=
                  s.requests.modify
                    (fun d => if d.id = id then { d with phase := next.2 } else d)
                    (by intro d; split <;> rfl) }
          else
            none

/-- What a finished request answers. -/
def Phase.result : Phase → Option (Except HandlerError Unit)
  | .done => some (.ok ())
  | .failed e => some (.error e)
  | _ => none

/-- The database and the answer after a request that has run to its end. -/
def finished
    (db : Database) :
    Except HandlerError Database →
      Database × Option (Except HandlerError Unit)
  | .error e => (db, some (.error e))
  | .ok db' => (db', some (.ok ()))

/-- From its first call on, a request that runs alone does what `reserve` does. -/
theorem allow_eq_iterate
    {db : Database} {u : User} {topic everyone : String} {p : Permission}
    (htopic : allowedTopic topic = true)
    (hperm : parsePermission everyone = some p)
    (htier : (u.isUser && u.tier.isNone) = false) :
    let call := fun x : Database × Phase => advance x.1 false u x.2
    let last := call (call (call (call (db, .allow topic p))))
    (last.1, last.2.result) =
      finished db (Revocation.reserve db u topic everyone) := by
  intro call last
  have hconflict : ∀ e, db.allowReservation u.name topic = .error e →
      Revocation.reserve db u topic everyone =
        .error (.http errHTTPConflictTopicReserved) := by
    intro e hallow
    simp [Revocation.reserve, htopic, hperm, htier, hallow]
  have hreserve : db.allowReservation u.name topic = .ok () →
      Revocation.reserve db u topic everyone =
        if u.isUser && !db.hasReservation u.name topic &&
            u.tier.any (fun tier => decide
              (tier.reservationLimit ≤ db.reservationsCount u.name)) then
          .error (.http errHTTPTooManyRequestsLimitReservations)
        else
          (db.addReservation u.name topic p).mapError .manager := by
    intro hallow
    simp [Revocation.reserve, htopic, hperm, htier, hallow]
  have hfailed : ∀ e, call (db, .failed e) = (db, .failed e) := fun _ => rfl
  have hadd : ∀ x, x = call (db, .add topic p) →
      call x = x ∧ (x.1, x.2.result) =
        finished db ((db.addReservation u.name topic p).mapError
          HandlerError.manager) := by
    rintro x rfl
    simp only [call, advance, Bool.false_eq_true, if_false]
    cases db.addReservation u.name topic p <;> exact ⟨rfl, rfl⟩
  obtain ⟨hstop, hresult⟩ := hadd _ rfl
  cases hallow : db.allowReservation u.name topic with
  | error e =>
      rw [hconflict e hallow]
      have hfirst : call (db, .allow topic p) =
          (db, .failed (.http errHTTPConflictTopicReserved)) := by
        simp [call, advance, hallow, Except.toOption]
      simp only [last, hfirst, hfailed]
      rfl
  | ok _ =>
      rw [hreserve hallow]
      cases huser : u.isUser with
      | false =>
          have hfirst : call (db, .allow topic p) = (db, .add topic p) := by
            simp [call, advance, hallow, huser, Except.toOption]
          simp only [last, hfirst, hstop]
          exact hresult
      | true =>
          have hfirst : call (db, .allow topic p) = (db, .has topic p) := by
            simp [call, advance, hallow, huser, Except.toOption]
          cases hhas : db.hasReservation u.name topic with
          | true =>
              have hsecond : call (db, .has topic p) = (db, .add topic p) := by
                simp [call, advance, hhas]
              simp only [last, hfirst, hsecond, hstop]
              exact hresult
          | false =>
              have hsecond : call (db, .has topic p) =
                  (db, .count topic p) := by
                simp [call, advance, hhas]
              cases hlimit : u.tier.any (fun tier => decide
                  (tier.reservationLimit ≤ db.reservationsCount u.name)) with
              | true =>
                  have hthird : call (db, .count topic p) = (db, .failed
                      (.http errHTTPTooManyRequestsLimitReservations)) := by
                    simp only [call, advance, hlimit, Bool.false_eq_true,
                      if_false, if_true]
                  simp only [last, hfirst, hsecond, hthird, hfailed]
                  rfl
              | false =>
                  have hthird : call (db, .count topic p) =
                      (db, .add topic p) := by
                    simp only [call, advance, hlimit, Bool.false_eq_true,
                      if_false]
                  simp only [last, hfirst, hsecond, hthird]
                  exact hresult

/-- A request that runs alone makes at most four calls and does what `reserve` does. -/
theorem reserve_eq_iterate
    (db : Database)
    (u : User)
    (topic everyone : String) :
    let last := (fun x : Database × Phase => advance x.1 false u x.2)^[4]
      (db, received u (some (topic, everyone)))
    (last.1, last.2.result) =
      finished db (Revocation.reserve db u topic everyone) := by
  simp only [Function.iterate_succ_apply, Function.iterate_zero, id]
  cases htopic : allowedTopic topic with
  | false =>
      have hrec : received u (some (topic, everyone)) =
          .failed (.http errHTTPBadRequestTopicInvalid) := by
        simp [received, htopic]
      simp [hrec, advance, Phase.result, finished, Revocation.reserve, htopic]
  | true =>
      cases hperm : parsePermission everyone with
      | none =>
          have hrec : received u (some (topic, everyone)) =
              .failed (.http errHTTPBadRequestPermissionInvalid) := by
            simp [received, htopic, hperm]
          simp [hrec, advance, Phase.result, finished, Revocation.reserve,
            htopic, hperm]
      | some p =>
          cases htier : u.isUser && u.tier.isNone with
          | true =>
              have hrec : received u (some (topic, everyone)) =
                  .failed (.http errHTTPUnauthorized) := by
                simp only [received, htopic, hperm, htier]
                rfl
              simp only [hrec, advance, Phase.result, Revocation.reserve,
                htopic, hperm, htier]
              rfl
          | false =>
              have hrec : received u (some (topic, everyone)) =
                  .allow topic p := by
                simp only [received, htopic, hperm, htier]
                rfl
              rw [hrec]
              exact allow_eq_iterate htopic hperm htier

end Model

section Conditions

/-- No topic is reserved by two users, and nobody is over the limit. -/
def Safe (s : State) : Prop :=
  Exclusive s.db ∧ WithinLimits s.db

/--
Whenever a reservation is added, nobody else has reserved the topic by then, and
its user is still below the limit.
-/
def InOrder
    (s : State) : Label → Prop
  | .start _ _ _ => True
  | .call id fails =>
      ∀ c ∈ s.requests, c.id = id → ∀ p ∈ c.phase.adding, fails = false →
        (s.db.addReservation c.user.name p.1 p.2).isOk = true →
          FreeOfOthers s.db c.user.name p.1 ∧ BelowLimit s.db c.user.name p.1

instance decidableInOrder
    (s : State) :
    ∀ l, Decidable (InOrder s l)
  | .start _ _ _ => isTrue trivial
  | .call id fails =>
      inferInstanceAs (Decidable (∀ c ∈ s.requests, c.id = id →
        ∀ p ∈ c.phase.adding, fails = false →
          (s.db.addReservation c.user.name p.1 p.2).isOk = true →
            FreeOfOthers s.db c.user.name p.1 ∧
              BelowLimit s.db c.user.name p.1))

theorem phase_of_adding
    {p : Phase} {topic : String} {everyone : Permission}
    (h : p.adding = some (topic, everyone)) :
    p = .add topic everyone := by
  cases p <;> cases h
  rfl

variable {s s' : State}
variable {id : Nat}
variable {fails : Bool}

/-- What a call of a request leaves behind. -/
theorem step_call
    (h : step s (.call id fails) = some s') :
    ∃ c ∈ s.requests, c.id = id ∧ c.phase.unfinished = true ∧
      s'.db = (advance s.db fails c.user c.phase).1 ∧
      ∀ d, d ∈ s'.requests ↔
        d = { c with phase := (advance s.db fails c.user c.phase).2 } ∨
          (d ∈ s.requests ∧ d.id ≠ c.id) := by
  simp only [step] at h
  split at h
  · cases h
  · rename_i c hfind
    obtain ⟨hc, rfl⟩ := Table.find?_eq_some_iff.mp hfind
    split at h
    case isFalse =>
      cases h
    case isTrue hphase =>
      cases h
      refine ⟨c, hc, rfl, hphase, rfl, fun d => ?_⟩
      exact Table.mem_modify_key_iff (by intro e; split <;> rfl) hc rfl

/-- A call writes only when it adds a reservation. -/
theorem advance_writes
    (db : Database) (fails : Bool) (u : User) (p : Phase) :
    (advance db fails u p).1 = db ∨
      ∃ topic everyone, p = .add topic everyone ∧ fails = false ∧
        db.addReservation u.name topic everyone =
          .ok (advance db fails u p).1 := by
  cases p with
  | add topic everyone =>
      cases fails with
      | true =>
          exact Or.inl rfl
      | false =>
          cases hadd : db.addReservation u.name topic everyone with
          | error e =>
              simp [advance, hadd]
          | ok db' =>
              simp [advance, hadd]
  | allow topic everyone =>
      left
      dsimp only [advance]
      repeat' split
      all_goals rfl
  | has topic everyone =>
      left
      dsimp only [advance]
      repeat' split
      all_goals rfl
  | count topic everyone =>
      left
      dsimp only [advance]
      repeat' split
      all_goals rfl
  | done =>
      exact Or.inl rfl
  | failed e =>
      exact Or.inl rfl

/-- A safe state stays safe exactly if the step is in order. -/
theorem safe_step_iff
    (l : Label)
    (h : Safe s) :
    (∀ s', step s l = some s' → Safe s') ↔ InOrder s l := by
  cases l with
  | start id username body =>
      refine iff_of_true (fun s' hstep => ?_) trivial
      simp only [step] at hstep
      split at hstep
      · cases hstep
      · obtain ⟨requests, -, rfl⟩ := Option.map_eq_some_iff.mp hstep
        exact h
  | call id fails =>
      constructor
      · rintro hsafe c hc rfl ⟨topic, everyone⟩ hadding rfl hok
        have hphase := phase_of_adding hadding
        dsimp only at hok ⊢
        obtain ⟨db', hadd⟩ : ∃ db', s.db.addReservation c.user.name topic
            everyone = .ok db' := by
          cases hadd : s.db.addReservation c.user.name topic everyone with
          | error e =>
              rw [hadd] at hok
              cases hok
          | ok db' =>
              exact ⟨db', rfl⟩
        have hfind : s.requests.find? c.id = some c :=
          Table.find?_eq_some_iff.mpr ⟨hc, rfl⟩
        have hstep : ∃ s', step s (.call c.id false) = some s' ∧
            s'.db = db' := by
          simp [step, hfind, hphase, Phase.unfinished, advance, hadd]
        obtain ⟨s', hs', rfl⟩ := hstep
        obtain ⟨hex, hlim⟩ := hsafe s' hs'
        exact ⟨(exclusive_addReservation_iff h.1 hadd).mp hex,
          (withinLimits_addReservation_iff h.2 hadd).mp hlim⟩
      · intro hin s' hstep
        obtain ⟨c, hc, rfl, -, hdb, -⟩ := step_call hstep
        rcases advance_writes s.db fails c.user c.phase with hsame |
          ⟨topic, everyone, hphase, rfl, hadd⟩
        · rw [Safe, hdb, hsame]
          exact h
        · obtain ⟨hfree, hbelow⟩ := hin c hc rfl (topic, everyone)
            (by rw [hphase]; rfl) rfl (by rw [hadd]; rfl)
          rw [Safe, hdb]
          exact ⟨(exclusive_addReservation_iff h.1 hadd).mpr hfree,
            (withinLimits_addReservation_iff h.2 hadd).mpr hbelow⟩

end Conditions

section Runs

/-- No request has arrived. -/
def initial (db : Database) : State where
  db
  requests := .empty

/--
From a database with exclusive topics and nobody over the limit, every state of
a run is safe exactly when every reservation is added in order.
-/
theorem reservations_safe_iff
    {db : Database} {ls : List Label}
    (h : Safe (initial db)) :
    Along step (fun s l => ∀ s', step s l = some s' → Safe s')
        (initial db) ls
      ↔
    Along step InOrder (initial db) ls := by
  exact Along.congr_of_invariant
    (fun s l hsafe => safe_step_iff (s := s) l hsafe)
    (fun s l s' _ hkeep hstep => hkeep s' hstep) h

/-- What the checks that a request has passed say about the database. -/
def Checked
    (db : Database)
    (u : User) : Phase → Prop
  | .has topic _ => db.allowReservation u.name topic = .ok ()
  | .count topic _ => db.allowReservation u.name topic = .ok ()
  | .add topic _ =>
      db.allowReservation u.name topic = .ok () ∧
        (u.isUser = true → db.hasReservation u.name topic = true ∨
          ∀ tier ∈ u.tier,
            db.reservationsCount u.name < tier.reservationLimit)
  | _ => True

/-- A call that adds nothing leaves its request with what it has checked. -/
theorem checked_advance
    {db : Database} {u : User} {p : Phase}
    (fails : Bool)
    (h : Checked db u p)
    (hadd : ∀ topic everyone, p ≠ .add topic everyone) :
    (advance db fails u p).1 = db ∧
      Checked db u (advance db fails u p).2 := by
  cases p with
  | allow topic everyone =>
      simp only [advance]
      split
      · exact ⟨rfl, trivial⟩
      · rename_i hok
        have hallow : db.allowReservation u.name topic = .ok () := by
          cases hcheck : db.allowReservation u.name topic with
          | error e =>
              simp [hcheck, Except.toOption] at hok
          | ok _ =>
              rfl
        split
        · exact ⟨rfl, hallow⟩
        · rename_i huser
          exact ⟨rfl, hallow, fun h => absurd h huser⟩
  | has topic everyone =>
      simp only [advance]
      split
      · exact ⟨rfl, trivial⟩
      · split
        · rename_i hhas
          exact ⟨rfl, h, fun _ => Or.inl hhas⟩
        · exact ⟨rfl, h⟩
  | count topic everyone =>
      simp only [advance]
      split
      · exact ⟨rfl, trivial⟩
      · split
        · exact ⟨rfl, trivial⟩
        · rename_i hlimit
          refine ⟨rfl, h, fun _ => Or.inr fun tier htier => ?_⟩
          rw [Option.mem_def] at htier
          simpa [htier] using hlimit
  | add topic everyone =>
      exact absurd rfl (hadd topic everyone)
  | done =>
      exact ⟨rfl, trivial⟩
  | failed e =>
      exact ⟨rfl, trivial⟩

/-- Whoever may reserve a topic finds it free of others. -/
theorem freeOfOthers_of_allowReservation
    {db : Database} {username topic id : String}
    (hid : db.userID username = some id)
    (h : db.allowReservation username topic = .ok ()) :
    FreeOfOthers db username topic := by
  intro a ha hres htopic _
  unfold allowReservation at h
  split at h
  · cases h
  · split at h
    · cases h
    · rename_i hcount
      rw [Bool.not_eq_true, List.any_eq_false] at hcount
      have hown := hcount a ha
      rw [AccessRow.reserves, decide_eq_true_eq] at hres
      simp only [htopic, decide_true, Bool.true_or, Bool.true_and, hres,
        Option.isNone_some, Bool.false_or, hid, Option.any_some,
        decide_eq_true_eq, ne_eq, not_not] at hown
      rw [hid, hown]

/-- The request adds nothing. -/
def AddsNothing
    (s : State) : Label → Prop
  | .start _ _ _ => True
  | .call id _ =>
      ∀ c ∈ s.requests, c.id = id →
        ∀ topic everyone, c.phase ≠ .add topic everyone

/-- What stays true of one request while nobody adds a reservation. -/
structure Followed
    (db : Database)
    (c : Request)
    (s : State) : Prop where
  same : s.db = db
  there : ∃ d ∈ s.requests, d.id = c.id
  checked : ∀ d ∈ s.requests, d.id = c.id →
    d.user = c.user ∧ Checked db c.user d.phase

theorem Followed.step
    {db : Database} {c : Request} {s s' : State} {l : Label}
    (h : Followed db c s)
    (hadds : AddsNothing s l)
    (hstep : step s l = some s') :
    Followed db c s' := by
  cases l with
  | start id username body =>
      simp only [Reserving.step] at hstep
      split at hstep
      · cases hstep
      · rename_i u _
        obtain ⟨requests, hins, rfl⟩ := Option.map_eq_some_iff.mp hstep
        have hmem : ∀ d, d ∈ requests ↔ d ∈ s.requests ∨
            d = ⟨id, u, received u body⟩ := fun d => Table.mem_insert?_iff hins
        obtain ⟨e, he, heid⟩ := h.there
        refine ⟨h.same, ⟨e, (hmem e).mpr (Or.inl he), heid⟩, ?_⟩
        intro d hd hid
        rcases (hmem d).mp hd with hd | rfl
        · exact h.checked d hd hid
        · have hfree := (Table.insert?_eq_some_iff.mp hins).1
          rw [Table.find?_eq_none_iff] at hfree
          exact absurd (heid.trans hid.symm) (hfree e he)
  | call id fails =>
      obtain ⟨e, he, rfl, -, hdb, hmem⟩ := step_call hstep
      have hsame : s'.db = s.db := by
        rcases advance_writes s.db fails e.user e.phase with hsame |
          ⟨topic, everyone, hphase, -, -⟩
        · rw [hdb, hsame]
        · exact absurd hphase (hadds e he rfl topic everyone)
      refine ⟨hsame.trans h.same, ?_, ?_⟩
      · obtain ⟨d, hd, hdid⟩ := h.there
        by_cases hde : d.id = e.id
        · exact ⟨_, (hmem _).mpr (Or.inl rfl), hde.symm.trans hdid⟩
        · exact ⟨d, (hmem d).mpr (Or.inr ⟨hd, hde⟩), hdid⟩
      · intro d hd hdid
        rcases (hmem d).mp hd with rfl | ⟨hd, -⟩
        · obtain ⟨huser, hchecked⟩ := h.checked e he hdid
          refine ⟨huser, ?_⟩
          rw [h.same, huser]
          exact (checked_advance fails hchecked
            (hadds e he rfl)).2
        · exact h.checked d hd hdid

/--
A request between whose first call and its last nobody adds a reservation adds
its own in order: only what happens in between can spoil the checks.
-/
theorem undisturbed_in_order
    {s s' : State} {ls : List Label} {c : Request}
    {topic : String} {everyone : Permission}
    (hc : c ∈ s.requests)
    (hphase : c.phase = .allow topic everyone)
    (huser : s.db.user c.user.name = some c.user)
    (hregular : c.user.isUser = true)
    (hquiet : Along step AddsNothing s ls)
    (hrun : run step s ls = some s')
    (fails : Bool) :
    InOrder s' (.call c.id fails) := by
  have hstart : Followed s.db c s := by
    refine ⟨rfl, ⟨c, hc, rfl⟩, fun d hd hid => ?_⟩
    have hsame : d = c := Table.eq_of_key_eq hd hc hid
    rw [hsame, hphase]
    exact ⟨rfl, trivial⟩
  have hend : Followed s.db c s' :=
    run_invariant_along (fun _ _ _ h hadds hstep => h.step hadds hstep)
      hstart hquiet hrun
  rintro d hd hid ⟨topic', everyone'⟩ hadding _ _
  obtain ⟨hduser, hchecked⟩ := hend.checked d hd hid
  rw [phase_of_adding hadding] at hchecked
  obtain ⟨hallow, hlimit⟩ := hchecked
  have huid : s.db.userID c.user.name = some c.user.id := by
    rw [userID, huser]
    rfl
  rw [hend.same, hduser]
  refine ⟨freeOfOthers_of_allowReservation huid hallow, ?_⟩
  rcases hlimit hregular with hhas | hless
  · exact Or.inl hhas
  · refine Or.inr fun v hv => ?_
    rw [huser, Option.mem_def, Option.some.injEq] at hv
    subst hv
    exact hless

/-- Nobody has reserved anything. -/
def exampleState : State :=
  initial (twoUsers .empty)

theorem safe_exampleState :
    Safe exampleState :=
  ⟨fun a ha => absurd ha (Table.not_mem_empty a), by decide⟩

/-- One after the other: the second user is refused the topic. -/
theorem second_reservation_refused :
    Along step (fun s l => ∀ s', step s l = some s' → Safe s') exampleState
      [.start 1 "alice" (some ("news", "deny-all")), .call 1 false,
        .call 1 false, .call 1 false, .call 1 false,
        .start 2 "bob" (some ("news", "deny-all")), .call 2 false] :=
  (reservations_safe_iff safe_exampleState).mpr (by decide)

/-- Both users check the topic before either adds it. -/
def exampleRace : List Label :=
  [.start 1 "alice" (some ("news", "deny-all")),
    .start 2 "bob" (some ("news", "deny-all")),
    .call 1 false, .call 2 false, .call 1 false, .call 2 false,
    .call 1 false, .call 2 false, .call 1 false, .call 2 false]

/-- Both get the reservation. -/
theorem topic_reserved_twice :
    Safe exampleState ∧
      ∃ s, run step exampleState exampleRace = some s ∧ ¬ Safe s := by
  refine ⟨safe_exampleState, ?_⟩
  have hraced : ∃ s ∈ run step exampleState exampleRace,
      ¬ Exclusive s.db := by
    decide
  obtain ⟨s, hrun, htwice⟩ := hraced
  exact ⟨s, hrun, fun hsafe => htwice hsafe.1⟩

end Runs

end Reserving

end Server
end CoopMessenger
