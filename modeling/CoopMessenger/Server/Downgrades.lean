import CoopMessenger.Library.PartialWrites
import CoopMessenger.Library.Sorting
import CoopMessenger.Manager.Accounts
import CoopMessenger.Manager.Ownership
import CoopMessenger.Manager.ProvisionedUsers
import CoopMessenger.Server.Errors
import CoopMessenger.Server.MessageCache

/-!
# Downgrades

`updateSubscriptionAndTier` of `server/server_payments.go`: a subscription gives a user
another tier, or none.  The reservations beyond the new limit are removed and the messages
of their topics expire; then the tier and the billing columns are written.

**Results.**
* `access_removeReservations`: which entries are left when reservations are removed.
* `reservations_removeReservations`: without the later reservations the first ones are left.
* `trimmed_updateSubscriptionAndTier`: what an update leaves behind.
* `updateSubscriptionAndTier_isOk`: an update goes through when topics without wildcards are
  reserved.
-/

namespace CoopMessenger
namespace Manager

open Library

section Model

/-- A topic of a user, and what everyone may do with it. -/
structure Reservation where
  topic : String
  owner : Permission
  everyone : Permission
deriving DecidableEq, Repr

namespace Database

/-- `WHERE a_user.user_id = a_user.owner_user_id AND ... ORDER BY a_user.topic` -/
def reservedRows
    (db : Database)
    (username : String) : List AccessRow :=
  orderBy (fun a => a.topic.1)
    (db.access.rows.filter fun a =>
      a.reserves && (db.userID username).any (fun id => decide (a.userId = id)))

/-- A row of the query: the entry of the user, joined with the entry of `everyone`. -/
def reservationOf
    (db : Database)
    (a : AccessRow) : Reservation where
  topic := unescapeUnderscore a.topic.1
  owner := a.permission
  everyone :=
    match (db.userID Manager.everyone).bind (fun id => db.access.find? (id, a.topic)) with
    | none => newPermission false false
    | some e => e.permission

/-- All topics that the user owns. -/
def reservations
    (db : Database)
    (username : String) : List Reservation :=
  (db.reservedRows username).map db.reservationOf

/-- The topics beyond a limit, the last one first. -/
def excessTopics
    (db : Database)
    (username : String)
    (limit : Nat) : List String :=
  ((db.reservations username).drop limit).reverse.map Reservation.topic

end Database

/-- Removes the tier from the given user. -/
def Accounts.resetTier
    (s : Accounts)
    (username : String) : Except Error Accounts :=
  if !allowedUsername username && decide (username ≠ everyone) && decide (username ≠ "") then
    .error .invalidArgument
  else
    match s.checkReservationsLimit username 0 with
    | .error e => .error e
    | .ok () => .ok { s with db := s.db.updateUserTier username none }

end Model

section Removal

variable {db db' : Database}
variable {username id : String}

namespace Database

/-- Do entries of the user, or of `everyone`, go with a reservation? -/
def goesWith
    (id : String)
    (a : AccessRow) : Bool :=
  decide (a.userId = id ∨ a.ownerUserId = some id) ||
    decide (a.userId = everyoneID ∨ a.ownerUserId = some everyoneID)

/-- One deletion after another. -/
theorem delete_delete
    (T : Table AccessRow.key)
    (p q : AccessRow → Bool) :
    (T.delete p).delete q = T.delete (fun a => p a || q a) := by
  refine Table.ext ?_
  simp only [Table.delete, List.filter_filter]
  refine List.filter_congr fun a _ => ?_
  rw [Bool.not_or, Bool.and_comm]

theorem removeReservation_eq
    (hid : db.userID username = some id)
    (topic : String) :
    db.removeReservation username topic =
      { db with access := db.access.delete (fun a =>
        goesWith id a && decide (a.topic.1 = escapeUnderscore topic)) } := by
  have hev : ∀ access, ({ db with access } : Database).userID everyone = some everyoneID :=
    fun access => userID_everyone { db with access }
  unfold removeReservation deleteTopicAccess
  simp only [hid, hev, Option.any_some, delete_delete, goesWith, Bool.and_or_distrib_right]

/-- The entries that are left when reservations are removed. -/
theorem foldl_removeReservation
    (hid : db.userID username = some id)
    (topics : List String) :
    topics.foldl (fun db topic => db.removeReservation username topic) db =
      { db with access := db.access.delete (fun a =>
        goesWith id a && decide (a.topic.1 ∈ topics.map escapeUnderscore)) } := by
  induction topics generalizing db with
  | nil =>
      have hkeep : ∀ access, access = db.access → db = { db with access } := by
        rintro access rfl
        rfl
      exact hkeep _ (Table.ext (by simp [Table.delete]))
  | cons topic topics ih =>
      have hid' : (db.removeReservation username topic).userID username = some id := by
        rw [removeReservation_eq hid]
        exact hid
      rw [List.foldl_cons, ih hid', removeReservation_eq hid]
      simp only [delete_delete, List.map_cons, List.mem_cons, Bool.decide_or,
        Bool.and_or_distrib_left]

/-- Which entries are left. -/
theorem access_removeReservations
    {topics : List String}
    (hid : db.userID username = some id)
    (h : db.removeReservations username topics = .ok db') :
    db' = { db with access := db.access.delete (fun a =>
      goesWith id a && decide (a.topic.1 ∈ topics.map escapeUnderscore)) } := by
  unfold removeReservations at h
  split at h
  · cases h
  · split at h
    · cases h
    · rw [← Except.ok.inj h]
      exact foldl_removeReservation hid topics

theorem mem_reservedRows_iff
    (hid : db.userID username = some id)
    {a : AccessRow} :
    a ∈ db.reservedRows username ↔ a ∈ db.access ∧ a.reserves = true ∧ a.userId = id := by
  simp [reservedRows, Table.mem_def, hid]

/-- Two reservations of one user are of two topics. -/
theorem eq_of_topic_eq
    (hid : db.userID username = some id)
    {a a' : AccessRow}
    (ha : a ∈ db.reservedRows username)
    (ha' : a' ∈ db.reservedRows username)
    (h : a.topic.1 = a'.topic.1) :
    a = a' := by
  obtain ⟨hmem, -, huser⟩ := (mem_reservedRows_iff hid).mp ha
  obtain ⟨hmem', -, huser'⟩ := (mem_reservedRows_iff hid).mp ha'
  exact Table.eq_of_key_eq hmem hmem'
    (Prod.ext (huser.trans huser'.symm) (Subtype.ext h))

theorem nodup_reservedRows
    (db : Database)
    (username : String) :
    (db.reservedRows username).Nodup := by
  refine (perm_orderBy.nodup_iff).mpr ?_
  exact (List.Nodup.of_map _ db.access.nodup).filter _

/-- The stored form of a topic that is allowed. -/
theorem escapeUnderscore_unescapeUnderscore
    (s : StoredPattern)
    (h : allowedTopic (unescapeUnderscore s.1) = true) :
    escapeUnderscore (unescapeUnderscore s.1) = s.1 := by
  have hpercent : '%' ∉ (unescapeUnderscore s.1).toList := by
    intro hc
    simp only [allowedTopic, Bool.and_eq_true, List.all_eq_true] at h
    exact absurd (h.2 '%' hc) (by decide)
  have hvisible : fromSQLWildcard s.1 = unescapeUnderscore s.1 := by
    rw [fromSQLWildcard, replaceChar_of_not_mem hpercent, String.ofList_toList]
  rw [← toSQLWildcard_of_allowedTopic h, ← hvisible]
  exact s.2.2

/-- The removed topics are plain ones. -/
theorem allowedTopic_of_removeReservations
    {topics : List String}
    (h : db.removeReservations username topics = .ok db') :
    ∀ topic ∈ topics, allowedTopic topic = true := by
  unfold removeReservations at h
  split at h
  · cases h
  · split at h
    case isTrue =>
      cases h
    case isFalse hall =>
      simpa using hall

/-- The stored forms of the removed topics are those of the later rows. -/
theorem mem_excessTopics_iff
    {n : Nat}
    (hall : ∀ topic ∈ db.excessTopics username n, allowedTopic topic = true)
    (p : StoredPattern) :
    p.1 ∈ (db.excessTopics username n).map escapeUnderscore
      ↔
    ∃ a ∈ (db.reservedRows username).drop n, p = a.topic := by
  have hmem : ∀ topic, topic ∈ db.excessTopics username n ↔
      ∃ a ∈ (db.reservedRows username).drop n, unescapeUnderscore a.topic.1 = topic := by
    intro topic
    simp [excessTopics, reservations, ← List.map_drop, reservationOf]
  rw [List.mem_map]
  constructor
  · rintro ⟨topic, htopic, hescape⟩
    obtain ⟨a, ha, rfl⟩ := (hmem topic).mp htopic
    rw [escapeUnderscore_unescapeUnderscore a.topic (hall _ htopic)] at hescape
    exact ⟨a, ha, Subtype.ext hescape.symm⟩
  · rintro ⟨a, ha, rfl⟩
    have htopic := (hmem _).mpr ⟨a, ha, rfl⟩
    exact ⟨_, htopic, escapeUnderscore_unescapeUnderscore a.topic (hall _ htopic)⟩

/-- An entry of the user is for one of the removed topics when it is one of the later rows. -/
theorem mem_excessTopics_iff_of_mem
    {n : Nat} {a : AccessRow}
    (hid : db.userID username = some id)
    (hall : ∀ topic ∈ db.excessTopics username n, allowedTopic topic = true)
    (ha : a ∈ db.reservedRows username) :
    a.topic.1 ∈ (db.excessTopics username n).map escapeUnderscore
      ↔
    a ∈ (db.reservedRows username).drop n := by
  rw [mem_excessTopics_iff hall]
  constructor
  · rintro ⟨b, hb, htopic⟩
    rwa [eq_of_topic_eq hid ha (List.mem_of_mem_drop hb) (congrArg Subtype.val htopic)]
  · exact fun h => ⟨a, h, rfl⟩

/-- The first rows are not among the later ones. -/
theorem not_mem_drop_of_mem_take
    {n : Nat} {a : AccessRow}
    (ha : a ∈ (db.reservedRows username).take n) :
    a ∉ (db.reservedRows username).drop n := by
  have hnodup := nodup_reservedRows db username
  rw [← List.take_append_drop n (db.reservedRows username)] at hnodup
  exact fun hdrop => (List.nodup_append.mp hnodup).2.2 a ha a hdrop rfl

/-- Without the later reservations the first ones are left. -/
theorem reservedRows_removeReservations
    {n : Nat}
    (hid : db.userID username = some id)
    (h : db.removeReservations username (db.excessTopics username n) = .ok db') :
    db'.reservedRows username = (db.reservedRows username).take n := by
  have hall := allowedTopic_of_removeReservations h
  have hown : ∀ a, (a.reserves && (db.userID username).any (fun id => decide (a.userId = id))) =
      true → goesWith id a = true := by
    intro a ha
    simp only [hid, Option.any_some, Bool.and_eq_true, decide_eq_true_eq] at ha
    simp [goesWith, ha.2]
  rw [access_removeReservations hid h]
  calc orderBy (fun a : AccessRow => a.topic.1)
        ((db.access.rows.filter fun a => !(goesWith id a &&
            decide (a.topic.1 ∈ (db.excessTopics username n).map escapeUnderscore))).filter
          fun a => a.reserves && (db.userID username).any (fun id => decide (a.userId = id)))
      = orderBy (fun a : AccessRow => a.topic.1)
          ((db.access.rows.filter fun a =>
              a.reserves && (db.userID username).any (fun id => decide (a.userId = id))).filter
            fun a => decide (a.topic.1 ∉ (db.excessTopics username n).map escapeUnderscore)) := by
        rw [List.filter_filter, List.filter_filter]
        refine congrArg _ (List.filter_congr fun a _ => ?_)
        by_cases ha : (a.reserves &&
            (db.userID username).any (fun id => decide (a.userId = id))) = true
        · simp only [ha, hown a ha, Bool.true_and, Bool.and_true, decide_not]
        · simp [ha]
    _ = (db.reservedRows username).filter fun a =>
          decide (a.topic.1 ∉ (db.excessTopics username n).map escapeUnderscore) :=
        orderBy_filter _
    _ = (db.reservedRows username).filter fun a =>
          decide (a ∉ (db.reservedRows username).drop n) :=
        List.filter_congr fun a ha => by
          rw [decide_eq_decide, mem_excessTopics_iff_of_mem hid hall ha]
    _ = (db.reservedRows username).take n :=
        filter_not_mem_drop (nodup_reservedRows db username) n

/-- The entry of `everyone` for a topic that is kept is still there. -/
theorem reservationOf_removeReservations
    {topics : List String} {a : AccessRow}
    (hid : db.userID username = some id)
    (h : db.removeReservations username topics = .ok db')
    (ha : a.topic.1 ∉ topics.map escapeUnderscore) :
    db'.reservationOf a = db.reservationOf a := by
  have hev : db'.userID Manager.everyone = db.userID Manager.everyone :=
    (userID_everyone db').trans (userID_everyone db).symm
  have hfind : ∀ id, db'.access.find? (id, a.topic) = db.access.find? (id, a.topic) := by
    intro id'
    refine Option.ext fun e => ?_
    rw [access_removeReservations hid h]
    simp only [Table.find?_eq_some_iff, Table.mem_delete_iff]
    constructor
    · exact fun he => ⟨he.1.1, he.2⟩
    · intro he
      have htopic : e.topic = a.topic := congrArg Prod.snd he.2
      refine ⟨⟨he.1, ?_⟩, he.2⟩
      rw [htopic, decide_eq_false ha, Bool.and_false]
  simp only [reservationOf, hev, hfind]

theorem reservations_removeReservations
    {n : Nat}
    (hid : db.userID username = some id)
    (h : db.removeReservations username (db.excessTopics username n) = .ok db') :
    db'.reservations username = (db.reservations username).take n := by
  have hall := allowedTopic_of_removeReservations h
  rw [reservations, reservedRows_removeReservations hid h, reservations, ← List.map_take]
  refine List.map_congr_left fun a ha => reservationOf_removeReservations hid h ?_
  rw [mem_excessTopics_iff_of_mem hid hall (List.mem_of_mem_take ha)]
  exact not_mem_drop_of_mem_take ha

end Database

end Removal

end Manager

namespace Server

open Library Manager Manager.Database

namespace Downgrades

section Model

/-- The billing columns of the user table. -/
structure Billing where
  stripeCustomerID : String
  stripeSubscriptionID : String
  stripeSubscriptionStatus : String
  stripeSubscriptionInterval : String
  stripeSubscriptionPaidUntil : Int
  stripeSubscriptionCancelAt : Int
deriving DecidableEq, Repr

/-- The accounts, the billing columns by user ID, and the message cache. -/
structure State where
  accounts : Manager.Accounts
  billing : String → Billing
  cache : MessageCache

def visitorDefaultReservationsLimit : Nat := 0

/-- The reservations a tier allows. -/
def reservationsLimit
    (tier : Option TierRow) : Nat :=
  match tier with
  | none => visitorDefaultReservationsLimit
  | some row => row.tier.reservationLimit

def maybeRemoveMessagesAndExcessReservations
    (s : State)
    (now : Nat)
    (u : User)
    (limit : Nat) : Except Manager.Error State :=
  if (s.accounts.db.reservations u.name).length ≤ limit then
    .ok s
  else
    match s.accounts.db.removeReservations u.name
        (s.accounts.db.excessTopics u.name limit) with
    | .error e => .error e
    | .ok db =>
        .ok
          { s with
            accounts := { s.accounts with db }
            cache := s.cache.expireMessages now (s.accounts.db.excessTopics u.name limit) }

/-- The tier is written if it is another one. -/
def writeTier
    (s : State)
    (u : User)
    (tier : Option TierRow) : Except Manager.Error State :=
  let written (r : Except Manager.Error Manager.Accounts) : Except Manager.Error State :=
    r.map fun accounts => { s with accounts }
  match tier with
  | none =>
      if u.tier.isSome then
        written (s.accounts.resetTier u.name)
      else
        .ok s
  | some row =>
      if tierID (some u) ≠ row.tier.id then
        written (s.accounts.changeTier u.name row.code)
      else
        .ok s

/-- `ChangeBilling` -/
def changeBilling
    (s : State)
    (username : String)
    (billing : Billing) : State :=
  { s with
    billing := fun id =>
      if s.accounts.db.userID username = some id then billing else s.billing id }

/-- A failing database call ends the request with an error as well; it is not modelled. -/
def updateSubscriptionAndTier
    (s : State)
    (now : Nat)
    (u : User)
    (tier : Option TierRow)
    (billing : Billing) : Attempt State HandlerError Unit :=
  commit s
    ((maybeRemoveMessagesAndExcessReservations s now u (reservationsLimit tier)).mapError
      .manager) fun s =>
  commit s ((writeTier s u tier).mapError .manager) fun s =>
  (changeBilling s u.name billing, .ok ())

end Model

section Trimming

variable {s s' : State}
variable {now : Nat}
variable {u : User}
variable {tier : Option TierRow}
variable {billing : Billing}

/-- The user has this tier. -/
def HasTier (u : User) : Option TierRow → Prop
  | none => u.tier = none
  | some row => tierID (some u) = row.tier.id

/-- The first reservations are left, and everything else goes that belongs to the others. -/
structure Trimmed
    (s s' : State)
    (now : Nat)
    (u : User)
    (tier : Option TierRow) : Prop where
  owned :
    s'.accounts.db.reservations u.name =
      (s.accounts.db.reservations u.name).take (reservationsLimit tier)
  intact :
    ∀ a ∈ (s.accounts.db.reservedRows u.name).take (reservationsLimit tier),
      ∀ e : AccessRow, e.topic = a.topic →
        (e ∈ s'.accounts.db.access ↔ e ∈ s.accounts.db.access)
  gone :
    ∀ a ∈ (s.accounts.db.reservedRows u.name).drop (reservationsLimit tier),
      ∀ e ∈ s'.accounts.db.access, e.topic = a.topic →
        e.userId ≠ u.id ∧ e.userId ≠ everyoneID
  others :
    ∀ e : AccessRow,
      (∀ a ∈ (s.accounts.db.reservedRows u.name).drop (reservationsLimit tier),
        e.topic ≠ a.topic) →
      (e ∈ s'.accounts.db.access ↔ e ∈ s.accounts.db.access)
  expired :
    s'.cache.rows = s.cache.rows.map (fun r =>
      if r.message.topic ∈ s.accounts.db.excessTopics u.name (reservationsLimit tier) then
        r.expire (now - 1)
      else
        r)
  tier :
    ∃ u', s'.accounts.db.user u.name = some u' ∧ HasTier u' tier

/-- The reservations are removed, and the messages of their topics expire. -/
theorem maybeRemove_facts
    {limit : Nat}
    (hu : s.accounts.db.user u.name = some u)
    (h : maybeRemoveMessagesAndExcessReservations s now u limit = .ok s') :
    s'.accounts.db.users = s.accounts.db.users ∧ s'.accounts.tiers = s.accounts.tiers ∧
      (∀ topic ∈ s.accounts.db.excessTopics u.name limit, allowedTopic topic = true) ∧
      s'.accounts.db.reservations u.name = (s.accounts.db.reservations u.name).take limit ∧
      s'.accounts.db.access = s.accounts.db.access.delete (fun a =>
        goesWith u.id a && decide (a.topic.1 ∈
          (s.accounts.db.excessTopics u.name limit).map escapeUnderscore)) ∧
      s'.cache.rows = s.cache.rows.map (fun r =>
        if r.message.topic ∈ s.accounts.db.excessTopics u.name limit then
          r.expire (now - 1)
        else
          r) := by
  have hid : s.accounts.db.userID u.name = some u.id := by
    simp [userID, hu]
  unfold maybeRemoveMessagesAndExcessReservations at h
  split at h
  case isTrue hfew =>
    obtain rfl := Except.ok.inj h
    have hnone : s.accounts.db.excessTopics u.name limit = [] := by
      simp [excessTopics, List.drop_eq_nil_of_le hfew]
    refine ⟨rfl, rfl, by simp [hnone], (List.take_of_length_le hfew).symm, ?_, ?_⟩
    · exact Table.ext (by simp [Table.delete, hnone])
    · simp [hnone]
  case isFalse =>
    split at h
    · cases h
    case h_2 db hdb =>
      obtain rfl := Except.ok.inj h
      refine ⟨?_, rfl, allowedTopic_of_removeReservations hdb,
        reservations_removeReservations hid hdb, ?_, rfl⟩
      · exact (congrArg Database.users (access_removeReservations hid hdb)).trans rfl
      · exact congrArg Database.access (access_removeReservations hid hdb)

/-- Access entries and IDs decide what is reserved. -/
theorem reservations_congr
    {db db' : Database}
    (haccess : db'.access = db.access)
    (hid : db'.userID = db.userID) :
    db'.reservations = db.reservations := by
  funext username
  simp only [reservations, reservedRows, haccess, hid]
  refine List.map_congr_left fun a _ => ?_
  simp only [reservationOf, haccess, hid]

/-- `UPDATE user SET tier_id = ...`, read back. -/
theorem user_updateUserTier
    {db : Database}
    (tier : Option Tier)
    (hu : db.user u.name = some u) :
    (db.updateUserTier u.name tier).user u.name = some { u with tier } := by
  have hmodify : (db.updateUserTier u.name tier).user =
      Function.update db.user u.name (some { u with tier }) :=
    @Provisioning.user_of_modify_name db _ u (fun u => { u with tier }) hu rfl (fun _ => rfl)
  rw [hmodify, Function.update_self]

/-- The tier is the new one, and nothing else of the user database is changed. -/
theorem writeTier_facts
    (hu : s.accounts.db.user u.name = some u)
    (htier : ∀ row ∈ tier, s.accounts.tiers.find? row.code = some row)
    (h : writeTier s u tier = .ok s') :
    s'.accounts.db.access = s.accounts.db.access ∧
      s'.accounts.db.userID = s.accounts.db.userID ∧
      s'.cache = s.cache ∧
      ∃ u', s'.accounts.db.user u.name = some u' ∧ HasTier u' tier := by
  unfold writeTier at h
  cases tier with
  | none =>
      simp only at h
      split at h
      case isTrue =>
        unfold Manager.Accounts.resetTier at h
        split at h
        · cases h
        · split at h
          · cases h
          · obtain rfl := Except.ok.inj h
            exact ⟨rfl, userID_updateUserTier _ _ _, rfl, _, user_updateUserTier none hu, rfl⟩
      case isFalse hnone =>
        obtain rfl := Except.ok.inj h
        exact ⟨rfl, rfl, rfl, u, hu, by simpa [HasTier] using hnone⟩
  | some row =>
      simp only at h
      split at h
      case isTrue =>
        unfold Manager.Accounts.changeTier Manager.Accounts.tier at h
        rw [htier row rfl] at h
        split at h
        · cases h
        · simp only at h
          split at h
          · cases h
          · obtain rfl := Except.ok.inj h
            exact ⟨rfl, userID_updateUserTier _ _ _, rfl, _,
              user_updateUserTier (some row.tier) hu, rfl⟩
      case isFalse hsame =>
        obtain rfl := Except.ok.inj h
        exact ⟨rfl, rfl, rfl, u, hu, by simpa [HasTier] using hsame⟩

/-- What an update that succeeds leaves behind. -/
theorem trimmed_updateSubscriptionAndTier
    (hu : s.accounts.db.user u.name = some u)
    (htier : ∀ row ∈ tier, s.accounts.tiers.find? row.code = some row)
    (hok : (updateSubscriptionAndTier s now u tier billing).2 = .ok ()) :
    Trimmed s (updateSubscriptionAndTier s now u tier billing).1 now u tier := by
  have hid : s.accounts.db.userID u.name = some u.id := by
    simp [userID, hu]
  unfold updateSubscriptionAndTier at hok ⊢
  cases hremove : maybeRemoveMessagesAndExcessReservations s now u (reservationsLimit tier) with
  | error e =>
      simp [hremove, commit, check, Except.mapError] at hok
  | ok s₁ =>
      cases hwrite : writeTier s₁ u tier with
      | error e =>
          simp [hremove, hwrite, commit, check, Except.mapError] at hok
      | ok s₂ =>
          simp only [hwrite, commit, check, Except.mapError]
          obtain ⟨husers, htiers, hall, howned, haccess, hcache⟩ := maybeRemove_facts hu hremove
          have hu₁ : s₁.accounts.db.user u.name = some u := by
            rw [user, husers]
            exact hu
          rw [← htiers] at htier
          obtain ⟨haccess', hid', hcache', hnew⟩ := writeTier_facts hu₁ htier hwrite
          have hmem : ∀ e, e ∈ s₂.accounts.db.access ↔ e ∈ s.accounts.db.access ∧
              (goesWith u.id e = true → ∀ a ∈ (s.accounts.db.reservedRows u.name).drop
                (reservationsLimit tier), e.topic ≠ a.topic) := by
            intro e
            rw [haccess', haccess, Table.mem_delete_iff, Bool.and_eq_false_imp,
              decide_eq_false_iff_not, mem_excessTopics_iff hall]
            simp
          constructor
          · rw [changeBilling, reservations_congr haccess' hid', howned]
          · intro a ha e htopic
            refine (hmem e).trans (and_iff_left fun _ b hb htopic' => ?_)
            have heq := eq_of_topic_eq hid (List.mem_of_mem_take ha) (List.mem_of_mem_drop hb)
              (congrArg Subtype.val (htopic.symm.trans htopic'))
            exact not_mem_drop_of_mem_take ha (heq ▸ hb)
          · intro a ha e he htopic
            have hstays : goesWith u.id e ≠ true := fun hgoes =>
              ((hmem e).mp he).2 hgoes a ha htopic
            exact ⟨fun hid => hstays (by simp [goesWith, hid]),
              fun hid => hstays (by simp [goesWith, hid])⟩
          · exact fun e hne => (hmem e).trans (and_iff_left fun _ => hne)
          · exact (congrArg MessageCache.rows hcache').trans hcache
          · exact hnew

theorem length_reservations
    (db : Database)
    (username : String) :
    (db.reservations username).length = db.reservationsCount username := by
  rw [reservations, List.length_map, reservedRows, perm_orderBy.length_eq,
    ← List.countP_eq_length_filter]
  rfl

/-- A limit that is kept is no obstacle to a tier. -/
theorem checkReservationsLimit_isOk
    {a : Manager.Accounts} {limit : Nat}
    (hu : a.db.user u.name = some u)
    (hfew : (a.db.reservations u.name).length ≤ limit) :
    a.checkReservationsLimit u.name limit = .ok () := by
  rw [length_reservations] at hfew
  simp [Manager.Accounts.checkReservationsLimit, hu, Nat.not_lt.mpr hfew]

theorem maybeRemove_isOk
    (hname : allowedUsername u.name = true)
    (hplain : ∀ r ∈ s.accounts.db.reservations u.name, allowedTopic r.topic = true)
    (limit : Nat) :
    ∃ s₁, maybeRemoveMessagesAndExcessReservations s now u limit = .ok s₁ := by
  unfold maybeRemoveMessagesAndExcessReservations
  split
  case isTrue =>
    exact ⟨s, rfl⟩
  case isFalse hmany =>
    have hne : u.name ≠ everyone := by
      intro heq
      rw [heq, not_allowedUsername_everyone] at hname
      cases hname
    have hnonempty : (s.accounts.db.excessTopics u.name limit).isEmpty = false := by
      rw [excessTopics, List.isEmpty_eq_false_iff, ← List.length_pos_iff]
      simp only [List.length_map, List.length_reverse, List.length_drop]
      omega
    have hall : (s.accounts.db.excessTopics u.name limit).any
        (fun topic => !allowedTopic topic) = false := by
      rw [List.any_eq_false]
      intro topic htopic
      obtain ⟨r, hr, rfl⟩ := List.mem_map.mp htopic
      rw [hplain r (List.mem_of_mem_drop (List.mem_reverse.mp hr))]
      decide
    unfold removeReservations
    simp [hname, hne, hnonempty, hall]

/-- An update goes through when the user's reservations are of topics without wildcards. -/
theorem updateSubscriptionAndTier_isOk
    (hu : s.accounts.db.user u.name = some u)
    (hname : allowedUsername u.name = true)
    (htier : ∀ row ∈ tier, s.accounts.tiers.find? row.code = some row)
    (hplain : ∀ r ∈ s.accounts.db.reservations u.name, allowedTopic r.topic = true) :
    (updateSubscriptionAndTier s now u tier billing).2 = .ok () := by
  obtain ⟨s₁, hremove⟩ : ∃ s₁, maybeRemoveMessagesAndExcessReservations s now u
      (reservationsLimit tier) = .ok s₁ :=
    maybeRemove_isOk hname hplain (reservationsLimit tier)
  obtain ⟨husers, htiers, -, howned, -⟩ := maybeRemove_facts hu hremove
  have hu₁ : s₁.accounts.db.user u.name = some u := by
    rw [user, husers]
    exact hu
  have hfew : (s₁.accounts.db.reservations u.name).length ≤ reservationsLimit tier := by
    rw [howned]
    exact List.length_take_le _ _
  have hlimit := checkReservationsLimit_isOk hu₁ hfew
  obtain ⟨s₂, hwrite⟩ : ∃ s₂, writeTier s₁ u tier = .ok s₂ := by
    unfold writeTier
    cases tier with
    | none =>
        simp only [reservationsLimit, visitorDefaultReservationsLimit] at hlimit
        simp only [Manager.Accounts.resetTier, hname, hlimit]
        split <;> exact ⟨_, rfl⟩
    | some row =>
        have hrow : s₁.accounts.tiers.find? row.code = some row := by
          rw [htiers]
          exact htier row rfl
        simp only [reservationsLimit] at hlimit
        simp only [Manager.Accounts.changeTier, Manager.Accounts.tier, hname, hrow, hlimit]
        split <;> exact ⟨_, rfl⟩
  simp only [updateSubscriptionAndTier, hremove, hwrite, commit, check, Except.mapError]

/-- A user of a tier with three reservations, who has two. -/
def exampleState : State where
  accounts :=
    { db :=
        { Database.initial with
          users := ⟨Database.initial.users.rows ++
            [⟨"u_phil", "phil", .user, some ⟨"ti_pro", 3⟩, ⟨0, 0, 0⟩, false⟩], by decide⟩
          names_nodup := by decide
          names_allowed := by decide
          everyone_row := by decide
          access := ⟨[⟨"u_phil", .ofPattern "beta" (by decide), true, true, some "u_phil", false⟩,
            ⟨everyoneID, .ofPattern "beta" (by decide), true, false, some "u_phil", false⟩,
            ⟨"u_phil", .ofPattern "alpha" (by decide), true, true, some "u_phil", false⟩,
            ⟨everyoneID, .ofPattern "alpha" (by decide), true, true, some "u_phil", false⟩],
            by decide⟩ }
      pass := fun _ => ""
      deleted := fun _ => false
      tiers := ⟨[⟨"pro", ⟨"ti_pro", 3⟩⟩, ⟨"basic", ⟨"ti_basic", 1⟩⟩], by decide⟩ }
  billing := fun _ => ⟨"", "", "", "", 0, 0⟩
  cache := .empty

def examplePhil : User :=
  ⟨"u_phil", "phil", .user, some ⟨"ti_pro", 3⟩, ⟨0, 0, 0⟩, false⟩

/-- A downgrade to one reservation, which is the one for `alpha`. -/
theorem trimmed_to_alpha :
    Trimmed exampleState
        (updateSubscriptionAndTier exampleState 1000 examplePhil
          (some ⟨"basic", ⟨"ti_basic", 1⟩⟩) ⟨"cus_1", "", "", "", 0, 0⟩).1
        1000 examplePhil (some ⟨"basic", ⟨"ti_basic", 1⟩⟩) ∧
      ((exampleState.accounts.db.reservations "phil").take 1).map Reservation.topic =
        ["alpha"] := by
  refine ⟨trimmed_updateSubscriptionAndTier (by decide) (by decide) ?_, by decide⟩
  decide

end Trimming

end Downgrades

end Server
end CoopMessenger
