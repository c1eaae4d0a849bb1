import CoopMessenger.Library.Runs
import CoopMessenger.Server.WebPushStore

/-!
# Warnings before a web push subscription expires

`pruneAndNotifyWebPushSubscriptions` of `server/server_webpush.go` starts a pass that removes
expired subscriptions, selects those that will expire soon, warns one after the other, and
marks the ones that were warned.  Between any two accesses to the store, browsers renew and
remove subscriptions, and further passes may start.

**Results.**
* `inv_step`: what holds between two accesses.
* `warned_once`: under which conditions every renewal is followed by at most one warning, and
  the mark in the store is right.
* `renewed_unwarned`: a renewal during a pass loses its warning.
-/

namespace CoopMessenger
namespace Server

open Library

namespace ExpiryWarnings

open WebPushStore

section Model

/-- `WebPushExpiryDuration` and `WebPushExpiryWarningDuration`, in seconds. -/
structure Config where
  expiryDuration : Int
  expiryWarningDuration : Int

/-- How far a pass has got. -/
inductive Pass where
  | expiring
  | selecting
  | sending (rest warningSent : List SubscriptionRow)
  | removing (endpoint : String) (rest warningSent : List SubscriptionRow)
deriving DecidableEq

/-- A subscription as of its last renewal. -/
def renewal (r : SubscriptionRow) : String × Int :=
  (r.id, r.updatedAt)

/-- The warnings that push services have taken. -/
structure State where
  now : Int
  store : Store
  passes : List Pass
  warnings : List (String × Int)

/-- A pass names its place among the passes; a response is none or a status code. -/
inductive Label where
  | tick (seconds : Nat)
  | upsert (conn : Connection) (u : Upsert)
  | removeByEndpoint (conn : Connection) (endpoint : String)
  | removeByUserID (conn : Connection) (userID : String)
  | start
  | expire (pass : Nat) (conn : Connection)
  | select (pass : Nat) (ok : Bool)
  | send (pass : Nat) (response : Option Nat)
  | remove (pass : Nat) (conn : Connection)
  | mark (pass : Nat) (conn : Connection)

/-- `sendWebPushNotification` returns no error. -/
def accepted (response : Option Nat) : Bool :=
  response.any fun code => decide (200 ≤ code ∧ code ≤ 299 ∨ code = 429)

/-- `SubscriptionsExpiring` -/
def subscriptionsExpiring
    (store : Store)
    (warnAfter : Int) : List SubscriptionRow :=
  store.subscription.rows.filter fun r =>
    decide (r.warnedAt = 0 ∧ r.updatedAt ≤ warnAfter)

variable (cfg : Config)

def step (s : State) : Label → Option State
  | .tick seconds => some { s with now := s.now + seconds }
  | .upsert conn u =>
      if u.now = s.now then
        some { s with store := (upsertSubscription conn u s.store).2 }
      else
        none
  | .removeByEndpoint conn endpoint =>
      some { s with store := (removeSubscriptionsByEndpoint conn endpoint s.store).2 }
  | .removeByUserID conn userID =>
      some { s with store := (removeSubscriptionsByUserID conn userID s.store).2 }
  | .start => some { s with passes := s.passes ++ [.expiring] }
  | .expire i conn =>
      match s.passes[i]? with
      | some .expiring =>
          let r := removeExpiredSubscriptions conn (s.now - cfg.expiryDuration) s.store
          match r.1 with
          | .ok () => some { s with store := r.2, passes := s.passes.set i .selecting }
          | .error _ => some { s with store := r.2, passes := s.passes.eraseIdx i }
      | _ => none
  | .select i ok =>
      match s.passes[i]? with
      | some .selecting =>
          let rows := subscriptionsExpiring s.store (s.now - cfg.expiryWarningDuration)
          if ok && !rows.isEmpty then
            some { s with passes := s.passes.set i (.sending rows []) }
          else
            some { s with passes := s.passes.eraseIdx i }
      | _ => none
  | .send i response =>
      match s.passes[i]? with
      | some (.sending (row :: rest) warningSent) =>
          if accepted response then
            some { s with
              passes := s.passes.set i (.sending rest (warningSent ++ [row]))
              warnings := s.warnings ++ [renewal row] }
          else
            some { s with passes := s.passes.set i (.removing row.endpoint rest warningSent) }
      | _ => none
  | .remove i conn =>
      match s.passes[i]? with
      | some (.removing endpoint rest warningSent) =>
          some { s with
            store := (removeSubscriptionsByEndpoint conn endpoint s.store).2
            passes := s.passes.set i (.sending rest warningSent) }
      | _ => none
  | .mark i conn =>
      match s.passes[i]? with
      | some (.sending [] warningSent) =>
          some { s with
            store := (markExpiryWarningSent conn (warningSent.map SubscriptionRow.id)
              s.now s.store).2
            passes := s.passes.eraseIdx i }
      | _ => none

/-- A server that has just started, at some time after 1970. -/
def initial (now : Int) : State where
  now
  store := Store.new
  passes := []
  warnings := []

end Model

section Rows

variable {conn : Connection}
variable {s : Store}

/-- A row after an upsert is an old one, or it was renewed. -/
theorem mem_of_upsert
    {u : Upsert} {r : SubscriptionRow}
    (hr : r ∈ (upsertSubscription conn u s).2.subscription) :
    r ∈ s.subscription ∨ r.updatedAt = u.now ∧ r.warnedAt = 0 := by
  cases h : upsertSubscription conn u s with
  | mk result s' =>
      rw [h] at hr
      cases result with
      | error e =>
          have hsame : (upsertSubscription conn u s).2 = s :=
            inTransaction_error (e := e) (by rw [← upsertSubscription, h])
          rw [h] at hsame
          cases hsame
          exact .inl hr
      | ok _ =>
          obtain ⟨-, -, -, id, -, hwrites⟩ := upsertSubscription_eq_ok_iff.mp h
          obtain ⟨stored, hwritten⟩ := execute_writes_spec hwrites
          rcases List.mem_cons.mp (hwritten.rows.mem_iff.mp hr) with rfl | hmem
          · exact .inr ⟨rfl, rfl⟩
          · exact .inl (List.mem_filter.mp hmem).1

theorem mem_of_deleteQuery
    {p : SubscriptionRow → Bool} {s' : Store} {r : SubscriptionRow}
    (h : deleteQuery conn p s = .ok s')
    (hr : r ∈ s'.subscription) :
    r ∈ s.subscription := by
  obtain ⟨-, h⟩ := Connection.exec_eq_ok_iff.mp h
  cases h
  exact (Table.mem_delete_iff.mp hr).1

theorem mem_of_execute
    {qs : List (Store → Except Error Store)} {r : SubscriptionRow}
    (hqs : ∀ q ∈ qs, ∀ s s', q s = .ok s' → ∀ r ∈ s'.subscription, r ∈ s.subscription)
    (hr : r ∈ (execute qs s).2.subscription) :
    r ∈ s.subscription := by
  induction qs generalizing s with
  | nil =>
      exact hr
  | cons q qs ih =>
      rw [execute] at hr
      split at hr
      · exact hr
      · next s' hq =>
          exact hqs q List.mem_cons_self s s' hq r
            (ih (fun q' hq' => hqs q' (List.mem_cons_of_mem q hq')) hr)

theorem mem_of_removeByEndpoint
    {endpoint : String} {r : SubscriptionRow}
    (hr : r ∈ (removeSubscriptionsByEndpoint conn endpoint s).2.subscription) :
    r ∈ s.subscription := by
  refine mem_of_execute (fun q hq s s' h r hr => ?_) hr
  rw [List.mem_singleton.mp hq] at h
  exact mem_of_deleteQuery h hr

theorem mem_of_removeByUserID
    {userID : String} {r : SubscriptionRow}
    (hr : r ∈ (removeSubscriptionsByUserID conn userID s).2.subscription) :
    r ∈ s.subscription := by
  unfold removeSubscriptionsByUserID at hr
  split at hr
  · exact hr
  · refine mem_of_execute (fun q hq s s' h r hr => ?_) hr
    rw [List.mem_singleton.mp hq] at h
    exact mem_of_deleteQuery h hr

theorem mem_of_removeExpired
    {expired : Int} {r : SubscriptionRow}
    (hr : r ∈ (removeExpiredSubscriptions conn expired s).2.subscription) :
    r ∈ s.subscription := by
  refine mem_of_execute (fun q hq s s' h r hr => ?_) hr
  rcases List.mem_cons.mp hq with rfl | hq
  · exact mem_of_deleteQuery h hr
  · rw [List.mem_singleton.mp hq] at h
    obtain ⟨-, h⟩ := Connection.exec_eq_ok_iff.mp h
    cases h
    exact hr

theorem mem_setWarned_iff
    {id : String} {now : Int} {r : SubscriptionRow} :
    r ∈ (s.setWarned id now).subscription ↔ ∃ old ∈ s.subscription,
      (if old.id = id then { old with warnedAt := now } else old) = r := by
  rw [Store.setWarned, Table.mem_modify_iff]

/-- The marks of a transaction. -/
theorem mem_of_setWarned
    {ids : List String} {now : Int} {r : SubscriptionRow} {s' : Store}
    (h : execute (ids.map fun id =>
      conn.exec (.updateWarned id) fun s => .ok (s.setWarned id now)) s = (.ok (), s')) :
    r ∈ s'.subscription ↔ ∃ old ∈ s.subscription,
      (if old.id ∈ ids then { old with warnedAt := now } else old) = r := by
  induction ids generalizing s with
  | nil =>
      cases h
      simp
  | cons id ids ih =>
      rw [List.map_cons, execute_cons_eq_ok_iff] at h
      obtain ⟨t, ht, hrest⟩ := h
      obtain ⟨-, ht⟩ := Connection.exec_eq_ok_iff.mp ht
      cases ht
      rw [ih hrest]
      constructor
      · rintro ⟨mid, hmid, rfl⟩
        obtain ⟨old, hold, rfl⟩ := mem_setWarned_iff.mp hmid
        refine ⟨old, hold, ?_⟩
        by_cases hid : old.id = id
        · simp [hid]
        · simp [hid]
      · rintro ⟨old, hold, rfl⟩
        refine ⟨_, mem_setWarned_iff.mpr ⟨old, hold, rfl⟩, ?_⟩
        by_cases hid : old.id = id
        · simp [hid]
        · simp [hid]

theorem mem_of_mark
    {ids : List String} {now : Int} {r : SubscriptionRow}
    (hbegin : conn.refuses .begin = false)
    (hcommit : conn.refuses .commit = false)
    (hids : ∀ id ∈ ids, conn.refuses (.updateWarned id) = false) :
    r ∈ (markExpiryWarningSent conn ids now s).2.subscription ↔
      ∃ old ∈ s.subscription,
        (if old.id ∈ ids then { old with warnedAt := now } else old) = r := by
  have hok : ∃ s', execute (ids.map fun id =>
      conn.exec (.updateWarned id) fun s => .ok (s.setWarned id now)) s = (.ok (), s') := by
    clear r
    induction ids generalizing s with
    | nil =>
        exact ⟨s, rfl⟩
    | cons id ids ih =>
        obtain ⟨s', hs'⟩ := ih (s := s.setWarned id now)
          fun id' hid' => hids id' (List.mem_cons_of_mem id hid')
        refine ⟨s', ?_⟩
        rw [List.map_cons, execute_cons_eq_ok_iff]
        exact ⟨_, Connection.exec_eq_ok_iff.mpr ⟨hids id List.mem_cons_self, rfl⟩, hs'⟩
  obtain ⟨s', hs'⟩ := hok
  have hmark : markExpiryWarningSent conn ids now s = (.ok (), s') :=
    inTransaction_eq_ok_iff.mpr ⟨hbegin, hcommit, hs'⟩
  rw [hmark]
  exact mem_of_setWarned hs'

end Rows

section Invariant

variable {cfg : Config}
variable {s s' : State}

def Pass.rest : Pass → List SubscriptionRow
  | .sending rest _ | .removing _ rest _ => rest
  | _ => []

def Pass.warningSent : Pass → List SubscriptionRow
  | .sending _ warningSent | .removing _ _ warningSent => warningSent
  | _ => []

/-- What holds of the subscriptions that a pass has selected. -/
structure PassInv
    (cfg : Config)
    (now : Int)
    (warnings : List (String × Int))
    (p : Pass) : Prop where
  nodup : (p.rest.map renewal).Nodup
  old : ∀ row ∈ p.rest, row.updatedAt + cfg.expiryWarningDuration ≤ now
  fresh : ∀ row ∈ p.rest, renewal row ∉ warnings
  sent : ∀ row ∈ p.warningSent, renewal row ∈ warnings

/-- The one pass has warned this renewal. -/
def Sent
    (passes : List Pass)
    (k : String × Int) : Prop :=
  ∃ p ∈ passes, ∃ row ∈ p.warningSent, renewal row = k

/-- What holds between two accesses to the store. -/
structure Inv
    (cfg : Config)
    (s : State) : Prop where
  clock : 0 < s.now
  updated : ∀ r ∈ s.store.subscription, r.updatedAt ≤ s.now
  old : ∀ k ∈ s.warnings, k.2 + cfg.expiryWarningDuration ≤ s.now
  once : s.warnings.Nodup
  alone : s.passes.length ≤ 1
  pass : ∀ p ∈ s.passes, PassInv cfg s.now s.warnings p
  warned : ∀ r ∈ s.store.subscription, r.warnedAt ≠ 0 → renewal r ∈ s.warnings
  flagged : ∀ r ∈ s.store.subscription, renewal r ∈ s.warnings →
    r.warnedAt ≠ 0 ∨ Sent s.passes (renewal r)

/-- The subscriptions that a pass has warned were not renewed, and the database takes the
marks. -/
def Kept
    (s : State)
    (conn : Connection)
    (p : Pass) : Prop :=
  conn.refuses .begin = false ∧ conn.refuses .commit = false ∧
    ∀ row ∈ p.warningSent, conn.refuses (.updateWarned row.id) = false ∧
      ∀ r ∈ s.store.subscription, r.id = row.id → r.updatedAt = row.updatedAt

instance
    (s : State)
    (conn : Connection)
    (p : Pass) :
    Decidable (Kept s conn p) :=
  inferInstanceAs (Decidable (_ ∧ _ ∧ _))

/-- A pass starts when no other one is under way, and what it has warned is marked. -/
def Undisturbed (s : State) : Label → Prop
  | .start => s.passes = []
  | .mark i conn => ∀ p ∈ s.passes[i]?, Kept s conn p
  | _ => True

instance (s : State) : (l : Label) → Decidable (Undisturbed s l)
  | .start => inferInstanceAs (Decidable (s.passes = []))
  | .mark i conn => inferInstanceAs (Decidable (∀ p ∈ s.passes[i]?, Kept s conn p))
  | .tick _ | .upsert _ _ | .removeByEndpoint _ _ | .removeByUserID _ _ | .expire _ _
  | .select _ _ | .send _ _ | .remove _ _ => inferInstanceAs (Decidable True)

theorem eq_of_getElem?
    {passes : List Pass} {i : Nat} {p : Pass}
    (halone : passes.length ≤ 1)
    (hget : passes[i]? = some p) :
    passes = [p] ∧ i = 0 := by
  obtain ⟨hi, hp⟩ := List.getElem?_eq_some_iff.mp hget
  have hzero : i = 0 := by omega
  subst hzero
  have hlength : passes.length = 1 := by omega
  obtain ⟨q, rfl⟩ := List.length_eq_one_iff.mp hlength
  rw [List.getElem_cons_zero] at hp
  rw [hp]
  exact ⟨rfl, rfl⟩

/-- Rows go, or are renewed. -/
theorem Inv.of_rows
    {store : Store}
    (hs : Inv cfg s)
    (hpos : 0 < cfg.expiryWarningDuration)
    (hrows : ∀ r ∈ store.subscription,
      r ∈ s.store.subscription ∨ r.updatedAt = s.now ∧ r.warnedAt = 0) :
    Inv cfg { s with store } := by
  refine { hs with updated := ?_, warned := ?_, flagged := ?_ }
  · intro r hr
    rcases hrows r hr with h | ⟨h, -⟩
    · exact hs.updated r h
    · exact h.le
  · intro r hr hflag
    rcases hrows r hr with h | ⟨-, h⟩
    · exact hs.warned r h hflag
    · exact absurd h hflag
  · intro r hr hmem
    rcases hrows r hr with h | ⟨h, -⟩
    · exact hs.flagged r h hmem
    · -- a warning is older than the renewal
      have hold := hs.old _ hmem
      simp only [renewal] at hold
      omega

/-- A pass that goes on without a new warning. -/
theorem Inv.of_pass
    {passes : List Pass}
    (hs : Inv cfg s)
    (halone : passes.length ≤ 1)
    (hpass : ∀ p ∈ passes, PassInv cfg s.now s.warnings p)
    (hsent : ∀ k, Sent s.passes k → Sent passes k) :
    Inv cfg { s with passes } where
  clock := hs.clock
  updated := hs.updated
  old := hs.old
  once := hs.once
  alone := halone
  pass := hpass
  warned := hs.warned
  flagged := fun r hr hmem => (hs.flagged r hr hmem).imp_right (hsent _)

theorem passInv_of_rest
    {now : Int} {warnings : List (String × Int)} {p : Pass}
    (hrest : p.rest = [])
    (hsent : p.warningSent = []) :
    PassInv cfg now warnings p := by
  refine ⟨?_, ?_, ?_, ?_⟩
  · rw [hrest]
    exact List.nodup_nil
  · rw [hrest]
    exact nofun
  · rw [hrest]
    exact nofun
  · rw [hsent]
    exact nofun

theorem not_sent
    {p : Pass} {k : String × Int}
    (hsent : p.warningSent = []) :
    ¬ Sent [p] k := by
  rintro ⟨q, hq, row, hrow, -⟩
  rw [List.mem_singleton.mp hq, hsent] at hrow
  cases hrow

theorem inv_tick
    {seconds : Nat}
    (hs : Inv cfg s) :
    Inv cfg { s with now := s.now + seconds } := by
  have hle : s.now ≤ s.now + seconds := by omega
  refine { hs with clock := ?_, updated := ?_, old := ?_, pass := ?_ }
  · exact hs.clock.trans_le hle
  · exact fun r hr => (hs.updated r hr).trans hle
  · exact fun k hk => (hs.old k hk).trans hle
  · exact fun p hp =>
      { hs.pass p hp with old := fun row hrow => ((hs.pass p hp).old row hrow).trans hle }

theorem inv_expire
    {i : Nat} {conn : Connection}
    (hpos : 0 < cfg.expiryWarningDuration)
    (hs : Inv cfg s)
    (h : step cfg s (.expire i conn) = some s') :
    Inv cfg s' := by
  simp only [step] at h
  split at h
  · next hget =>
      obtain ⟨hpasses, rfl⟩ := eq_of_getElem? hs.alone hget
      have hstore : Inv cfg { s with
          store := (removeExpiredSubscriptions conn (s.now - cfg.expiryDuration) s.store).2 } :=
        hs.of_rows hpos fun r hr => .inl (mem_of_removeExpired hr)
      rw [hpasses] at h
      have hnone : ∀ passes k, Sent s.passes k → Sent passes k := by
        intro passes k hk
        rw [hpasses] at hk
        exact absurd hk (not_sent rfl)
      split at h
      · cases h
        refine hstore.of_pass le_rfl ?_ (hnone _)
        intro p hp
        rw [List.mem_singleton.mp hp]
        exact passInv_of_rest rfl rfl
      · cases h
        exact hstore.of_pass (Nat.zero_le 1) nofun (hnone _)
  · cases h

theorem inv_select
    {i : Nat} {ok : Bool}
    (hs : Inv cfg s)
    (h : step cfg s (.select i ok) = some s') :
    Inv cfg s' := by
  simp only [step] at h
  split at h
  · next hget =>
      obtain ⟨hpasses, rfl⟩ := eq_of_getElem? hs.alone hget
      rw [hpasses] at h
      have hnone : ∀ passes k, Sent s.passes k → Sent passes k := by
        intro passes k hk
        rw [hpasses] at hk
        exact absurd hk (not_sent rfl)
      split at h
      · cases h
        refine hs.of_pass le_rfl ?_ (hnone _)
        intro p hp
        rw [List.mem_singleton.mp hp]
        have hmem : ∀ row ∈ subscriptionsExpiring s.store (s.now - cfg.expiryWarningDuration),
            row ∈ s.store.subscription ∧ row.warnedAt = 0 ∧
              row.updatedAt ≤ s.now - cfg.expiryWarningDuration := by
          intro row hrow
          obtain ⟨hrow, hdue⟩ := List.mem_filter.mp hrow
          exact ⟨hrow, of_decide_eq_true hdue⟩
        refine ⟨?_, ?_, ?_, nofun⟩
        · have hids : (subscriptionsExpiring s.store
              (s.now - cfg.expiryWarningDuration)).Nodup :=
            (List.Nodup.of_map _ s.store.ids).filter _
          refine hids.map_on fun r hr r' hr' heq => ?_
          exact Store.eq_of_id_eq (hmem r hr).1 (hmem r' hr').1 (Prod.mk.inj heq).1
        · intro row hrow
          have hdue := (hmem row hrow).2.2
          omega
        · intro row hrow hwarned
          rcases hs.flagged row (hmem row hrow).1 hwarned with hflag | hsent
          · exact hflag (hmem row hrow).2.1
          · rw [hpasses] at hsent
            exact not_sent rfl hsent
      · cases h
        exact hs.of_pass (Nat.zero_le 1) nofun (hnone _)
  · cases h

theorem inv_send
    {i : Nat} {response : Option Nat}
    (hs : Inv cfg s)
    (h : step cfg s (.send i response) = some s') :
    Inv cfg s' := by
  simp only [step] at h
  split at h
  · next row rest warningSent hget =>
      obtain ⟨hpasses, rfl⟩ := eq_of_getElem? hs.alone hget
      rw [hpasses] at h
      have hpass := hs.pass (.sending (row :: rest) warningSent) (by rw [hpasses]; simp)
      have hnodup := hpass.nodup
      rw [Pass.rest, List.map_cons, List.nodup_cons] at hnodup
      split at h
      · cases h
        refine { hs with
          old := ?_, once := ?_, alone := le_rfl, pass := ?_, warned := ?_, flagged := ?_ }
        · intro k hk
          rcases List.mem_append.mp hk with hk | hk
          · exact hs.old k hk
          · rw [List.mem_singleton.mp hk]
            exact hpass.old row List.mem_cons_self
        · rw [List.nodup_append]
          refine ⟨hs.once, List.nodup_singleton _, fun k hk k' hk' heq => ?_⟩
          rw [heq, List.mem_singleton.mp hk'] at hk
          exact hpass.fresh row List.mem_cons_self hk
        · intro p hp
          rw [List.mem_singleton.mp hp]
          refine ⟨hnodup.2, fun r hr => hpass.old r (List.mem_cons_of_mem row hr), ?_, ?_⟩
          · intro r hr hmem
            rcases List.mem_append.mp hmem with hmem | hmem
            · exact hpass.fresh r (List.mem_cons_of_mem row hr) hmem
            · rw [← List.mem_singleton.mp hmem] at hnodup
              exact hnodup.1 (List.mem_map_of_mem hr)
          · intro r hr
            rcases List.mem_append.mp hr with hr | hr
            · exact List.mem_append_left _ (hpass.sent r hr)
            · rw [List.mem_singleton.mp hr]
              exact List.mem_append_right _ (List.mem_singleton.mpr rfl)
        · exact fun r hr hflag => List.mem_append_left _ (hs.warned r hr hflag)
        · intro r hr hmem
          rcases List.mem_append.mp hmem with hmem | hmem
          · refine (hs.flagged r hr hmem).imp_right ?_
            rw [hpasses]
            rintro ⟨p, hp, sent, hsent, heq⟩
            rw [List.mem_singleton.mp hp] at hsent
            exact ⟨_, List.mem_singleton.mpr rfl, sent, List.mem_append_left _ hsent, heq⟩
          · rw [List.mem_singleton.mp hmem]
            exact .inr ⟨_, List.mem_singleton.mpr rfl, row,
              List.mem_append_right _ (List.mem_singleton.mpr rfl), rfl⟩
      · cases h
        refine hs.of_pass le_rfl ?_ ?_
        · intro p hp
          rw [List.mem_singleton.mp hp]
          exact ⟨hnodup.2, fun r hr => hpass.old r (List.mem_cons_of_mem row hr),
            fun r hr => hpass.fresh r (List.mem_cons_of_mem row hr), hpass.sent⟩
        · rw [hpasses]
          rintro k ⟨p, hp, sent, hsent, heq⟩
          rw [List.mem_singleton.mp hp] at hsent
          exact ⟨_, List.mem_singleton.mpr rfl, sent, hsent, heq⟩
  · cases h

theorem inv_remove
    {i : Nat} {conn : Connection}
    (hpos : 0 < cfg.expiryWarningDuration)
    (hs : Inv cfg s)
    (h : step cfg s (.remove i conn) = some s') :
    Inv cfg s' := by
  simp only [step] at h
  split at h
  · next endpoint rest warningSent hget =>
      obtain ⟨hpasses, rfl⟩ := eq_of_getElem? hs.alone hget
      rw [hpasses] at h
      cases h
      have hpass := hs.pass (.removing endpoint rest warningSent) (by rw [hpasses]; simp)
      refine (hs.of_rows hpos fun r hr => .inl (mem_of_removeByEndpoint hr)).of_pass
        le_rfl ?_ ?_
      · intro p hp
        rw [List.mem_singleton.mp hp]
        exact ⟨hpass.nodup, hpass.old, hpass.fresh, hpass.sent⟩
      · change ∀ k, Sent s.passes k → _
        rw [hpasses]
        rintro k ⟨p, hp, sent, hsent, heq⟩
        rw [List.mem_singleton.mp hp] at hsent
        exact ⟨_, List.mem_singleton.mpr rfl, sent, hsent, heq⟩
  · cases h

theorem inv_mark
    {i : Nat} {conn : Connection}
    (hs : Inv cfg s)
    (hcond : Undisturbed s (.mark i conn))
    (h : step cfg s (.mark i conn) = some s') :
    Inv cfg s' := by
  simp only [step] at h
  split at h
  · next warningSent hget =>
      obtain ⟨hbegin, hcommit, hkept⟩ := hcond _ hget
      have hids : ∀ id ∈ warningSent.map SubscriptionRow.id,
          conn.refuses (.updateWarned id) = false := by
        intro id hid
        obtain ⟨row, hrow, rfl⟩ := List.mem_map.mp hid
        exact (hkept row hrow).1
      obtain ⟨hpasses, rfl⟩ := eq_of_getElem? hs.alone hget
      rw [hpasses] at h
      cases h
      have hpass := hs.pass (.sending [] warningSent) (by rw [hpasses]; simp)
      refine { hs with
        updated := ?_, alone := Nat.zero_le 1, pass := nofun, warned := ?_, flagged := ?_ }
      · intro r hr
        obtain ⟨old, hold, rfl⟩ := (mem_of_mark hbegin hcommit hids).mp hr
        have hupdated := hs.updated old hold
        split <;> exact hupdated
      · intro r hr hflag
        obtain ⟨old, hold, rfl⟩ := (mem_of_mark hbegin hcommit hids).mp hr
        split at hflag
        · next hid =>
            -- the row is still the one that was warned
            rw [if_pos hid]
            obtain ⟨row, hrow, hsame⟩ := List.mem_map.mp hid
            have hupdated := (hkept row hrow).2 old hold hsame.symm
            have hwarned := hpass.sent row hrow
            rw [renewal, hsame, ← hupdated] at hwarned
            exact hwarned
        · next hid =>
            rw [if_neg hid]
            exact hs.warned old hold hflag
      · intro r hr hmem
        obtain ⟨old, hold, rfl⟩ := (mem_of_mark hbegin hcommit hids).mp hr
        left
        split
        · exact hs.clock.ne'
        · next hid =>
            rw [if_neg hid] at hmem
            rcases hs.flagged old hold hmem with hflag | hsent
            · exact hflag
            · rw [hpasses] at hsent
              obtain ⟨p, hp, row, hrow, heq⟩ := hsent
              rw [List.mem_singleton.mp hp] at hrow
              exact absurd (List.mem_map.mpr ⟨row, hrow, (Prod.mk.inj heq).1⟩) hid
  · cases h

theorem inv_step
    (hpos : 0 < cfg.expiryWarningDuration)
    {l : Label}
    (hs : Inv cfg s)
    (hcond : Undisturbed s l)
    (h : step cfg s l = some s') :
    Inv cfg s' := by
  cases l with
  | tick seconds =>
      cases h
      exact inv_tick hs
  | upsert conn u =>
      simp only [step] at h
      split at h
      · next hnow =>
          cases h
          refine hs.of_rows hpos fun r hr => ?_
          rw [← hnow]
          exact mem_of_upsert hr
      · cases h
  | removeByEndpoint conn endpoint =>
      cases h
      exact hs.of_rows hpos fun r hr => .inl (mem_of_removeByEndpoint hr)
  | removeByUserID conn userID =>
      cases h
      exact hs.of_rows hpos fun r hr => .inl (mem_of_removeByUserID hr)
  | start =>
      cases h
      rw [show s.passes = [] from hcond]
      refine hs.of_pass le_rfl ?_ ?_
      · intro p hp
        rw [List.mem_singleton.mp hp]
        exact passInv_of_rest rfl rfl
      · rw [show s.passes = [] from hcond]
        rintro k ⟨p, hp, -⟩
        cases hp
  | expire i conn => exact inv_expire hpos hs h
  | select i ok => exact inv_select hs h
  | send i response => exact inv_send hs h
  | remove i conn => exact inv_remove hpos hs h
  | mark i conn => exact inv_mark hs hcond h

theorem inv_initial
    {now : Int}
    (hnow : 0 < now) :
    Inv cfg (initial now) where
  clock := hnow
  updated := nofun
  old := nofun
  once := List.nodup_nil
  alone := Nat.zero_le 1
  pass := nofun
  warned := nofun
  flagged := nofun

end Invariant

section Runs

variable {cfg : Config}
variable {now : Int}
variable {s : State}
variable {ls : List Label}

/--
If no two passes overlap, and nobody renews a subscription between its warning and the mark,
then no renewal is warned twice, and whenever no pass is under way a subscription has the
mark just if it was warned since its last renewal.
-/
theorem warned_once
    (hpos : 0 < cfg.expiryWarningDuration)
    (hnow : 0 < now)
    (hrun : run (step cfg) (initial now) ls = some s)
    (hcond : Along (step cfg) Undisturbed (initial now) ls) :
    s.warnings.Nodup ∧
      (s.passes = [] → ∀ r ∈ s.store.subscription,
        r.warnedAt ≠ 0 ↔ renewal r ∈ s.warnings) := by
  have hinv := run_invariant_along (fun _ _ _ hs hl h => inv_step hpos hs hl h)
    (inv_initial hnow) hcond hrun
  refine ⟨hinv.once, fun hnone r hr => ⟨hinv.warned r hr, fun hmem => ?_⟩⟩
  rcases hinv.flagged r hr hmem with hflag | ⟨p, hp, -⟩
  · exact hflag
  · rw [hnone] at hp
    cases hp

def exampleConfig : Config where
  expiryDuration := 60 * 86400
  expiryWarningDuration := 55 * 86400

def exampleConnection : Connection where
  foreignKeys := true
  refuses _ := false

/-- A browser subscribes, or renews its subscription. -/
def exampleUpsert (now : Int) : Upsert where
  endpoint := "https://updates.push.services.mozilla.com/wpush/v1/a"
  auth := "auth"
  p256dh := "p256dh"
  userID := ""
  subscriberIP := "1.2.3.4"
  topics := ["alerts"]
  now
  newID := "wps_a"

/-- A pass after 55 days, up to the warning. -/
def examplePass : List Label :=
  [.upsert exampleConnection (exampleUpsert 1), .tick (55 * 86400), .start,
    .expire 0 exampleConnection, .select 0 true, .send 0 (some 201)]

theorem warned_once_mozilla :
    ∃ s, run (step exampleConfig) (initial 1)
        (examplePass ++ [.mark 0 exampleConnection]) = some s ∧
      s.warnings = [("wps_a", 1)] ∧
      ∀ r ∈ s.store.subscription, r.warnedAt ≠ 0 ↔ renewal r ∈ s.warnings := by
  refine ⟨_, rfl, rfl, ?_⟩
  have hnow : (0 : Int) < 1 := by decide
  have hpos : 0 < exampleConfig.expiryWarningDuration := by decide
  have hcond : Along (step exampleConfig) Undisturbed (initial 1)
      (examplePass ++ [.mark 0 exampleConnection]) := by
    decide +kernel
  exact (warned_once hpos hnow rfl hcond).2 rfl

/-- A renewal during a pass: the subscription has the mark, so that no later pass warns it,
but it was not warned since. -/
theorem renewed_unwarned :
    ∃ s, run (step exampleConfig) (initial 1)
        (examplePass ++ [.upsert exampleConnection (exampleUpsert (1 + 55 * 86400)),
          .mark 0 exampleConnection]) = some s ∧
      ∃ r ∈ s.store.subscription, r.warnedAt ≠ 0 ∧ renewal r ∉ s.warnings := by
  refine ⟨_, rfl, ?_⟩
  decide +kernel

end Runs

end ExpiryWarnings
end Server
end CoopMessenger
