import CoopMessenger.Library.Table
import CoopMessenger.Server.WebPush

/-!
# The store of web push subscriptions

The two tables of the store with their keys, and the statements of its operations.  Any
statement may be refused by the database, and the foreign key is enforced only on
connections where that has been turned on.

**Results.**
* `execute_writes_iff`: when the statements of an upsert go through.
* `execute_writes_spec`: what these statements write.
* `upsertSubscription_succeeds_iff`, `upsertSubscription_error`: which upserts succeed, and
  that the others change nothing.
-/

namespace CoopMessenger
namespace Server

open Library

namespace WebPushStore

section Model

structure SubscriptionRow where
  id : String
  endpoint : String
  keyAuth : String
  keyP256dh : String
  userID : String
  subscriberIP : String
  updatedAt : Int
  warnedAt : Int
deriving DecidableEq, Repr

structure TopicRow where
  subscriptionID : String
  topic : String
deriving DecidableEq, Repr

def TopicRow.key (r : TopicRow) : String × String :=
  (r.subscriptionID, r.topic)

/-- The tables; the endpoint has a unique index. -/
@[ext] structure Store where
  subscription : Table SubscriptionRow.endpoint
  ids : (subscription.rows.map SubscriptionRow.id).Nodup
  subscriptionTopic : Table TopicRow.key

def Store.new : Store where
  subscription := Table.empty
  ids := List.nodup_nil
  subscriptionTopic := Table.empty

/-- An error of the store, or one of the database. -/
inductive Error where
  | noRows
  | tooManySubscriptions
  | userIDCannotBeEmpty
  | constraint
  | refused
deriving DecidableEq, Repr

/-- What the database is asked to do. -/
inductive Statement where
  | begin
  | selectCount
  | selectID
  | insertSubscription
  | deleteTopics
  | insertTopic (topic : String)
  | updateWarned (id : String)
  | deleteSubscriptions
  | deleteOrphans
  | commit
deriving DecidableEq, Repr

/-- The connection of the pool that carries out a call. -/
structure Connection where
  foreignKeys : Bool
  refuses : Statement → Bool

/-- `SELECT COUNT(*) FROM subscription WHERE subscriber_ip = ?` -/
def Store.count
    (s : Store)
    (ip : String) : Nat :=
  s.subscription.rows.countP (fun r => decide (r.subscriberIP = ip))

/-- `DO UPDATE SET`: all columns but the ID and the endpoint. -/
def SubscriptionRow.merge
    (row old : SubscriptionRow) : SubscriptionRow :=
  { row with id := old.id, endpoint := old.endpoint }

/-- A conflict of the endpoint is resolved before the primary key is looked at. -/
def Store.insertSubscription
    (s : Store)
    (row : SubscriptionRow) : Except Error Store :=
  match h : s.subscription.insert? row with
  | some table =>
      if hid : row.id ∈ s.subscription.rows.map SubscriptionRow.id then
        .error .constraint
      else
        .ok { s with
          subscription := table
          ids := by
            rw [(Table.insert?_eq_some_iff.mp h).2, List.map_append]
            exact s.ids.append (List.nodup_singleton _) (by simpa [List.Disjoint] using hid) }
  | none =>
      .ok { s with
        subscription := s.subscription.modify
          (fun r => if r.endpoint = row.endpoint then row.merge r else r)
          (by intro r; split <;> rfl)
        ids := by
          have hid : SubscriptionRow.id ∘
              (fun r => if r.endpoint = row.endpoint then row.merge r else r) =
                SubscriptionRow.id := by
            funext r
            rw [Function.comp_apply]
            split <;> rfl
          rw [Table.modify, List.map_map, hid]
          exact s.ids }

def Store.deleteTopics
    (s : Store)
    (id : String) : Store :=
  { s with subscriptionTopic :=
      s.subscriptionTopic.delete (fun r => decide (r.subscriptionID = id)) }

def Store.insertTopic
    (s : Store)
    (foreignKeys : Bool)
    (id topic : String) : Except Error Store :=
  if foreignKeys = true ∧ id ∉ s.subscription.rows.map SubscriptionRow.id then
    .error .constraint
  else
    match s.subscriptionTopic.insert? ⟨id, topic⟩ with
    | some table => .ok { s with subscriptionTopic := table }
    | none => .error .constraint

def Store.setWarned
    (s : Store)
    (id : String)
    (now : Int) : Store :=
  { s with
    subscription := s.subscription.modify
      (fun r => if r.id = id then { r with warnedAt := now } else r)
      (by intro r; split <;> rfl)
    ids := by
      have hid : SubscriptionRow.id ∘
          (fun r => if r.id = id then { r with warnedAt := now } else r) =
            SubscriptionRow.id := by
        funext r
        rw [Function.comp_apply]
        split <;> rfl
      rw [Table.modify, List.map_map, hid]
      exact s.ids }

/-- `ON DELETE CASCADE` takes the topics along, where the foreign key is enforced. -/
def Store.deleteSubscriptions
    (s : Store)
    (foreignKeys : Bool)
    (p : SubscriptionRow → Bool) : Store where
  subscription := s.subscription.delete p
  ids := s.ids.sublist (List.filter_sublist.map _)
  subscriptionTopic := s.subscriptionTopic.delete fun t =>
    foreignKeys && s.subscription.rows.any (fun r => p r && decide (r.id = t.subscriptionID))

def Store.deleteOrphans (s : Store) : Store :=
  { s with subscriptionTopic := s.subscriptionTopic.delete fun t =>
      decide (t.subscriptionID ∉ s.subscription.rows.map SubscriptionRow.id) }

/-- A statement, unless the database refuses it. -/
def Connection.exec
    (conn : Connection)
    (q : Statement)
    (effect : Store → Except Error Store)
    (s : Store) : Except Error Store :=
  if conn.refuses q then .error .refused else effect s

/-- One statement after the other, up to the first error. -/
def execute :
    List (Store → Except Error Store) → Store → Except Error Unit × Store
  | [], s => (.ok (), s)
  | q :: qs, s =>
      match q s with
      | .error e => (.error e, s)
      | .ok s' => execute qs s'

/-- `defer tx.Rollback()` undoes whatever is not committed. -/
def inTransaction
    (conn : Connection)
    (body : Store → Except Error Unit × Store)
    (s : Store) : Except Error Unit × Store :=
  if conn.refuses .begin then
    (.error .refused, s)
  else
    match body s with
    | (.error e, _) => (.error e, s)
    | (.ok _, s') =>
        if conn.refuses .commit then (.error .refused, s) else (.ok (), s')

/-- The arguments of `UpsertSubscription`, what the clock shows, and a random ID. -/
structure Upsert where
  endpoint : String
  auth : String
  p256dh : String
  userID : String
  subscriberIP : String
  topics : List String
  now : Int
  newID : String
deriving DecidableEq, Repr

def Upsert.row
    (u : Upsert)
    (id : String) : SubscriptionRow :=
  ⟨id, u.endpoint, u.auth, u.p256dh, u.userID, u.subscriberIP, u.now, 0⟩

/-- `rows.Next` is false also when the read fails, and the error is not asked for. -/
def subscriptionID
    (conn : Connection)
    (u : Upsert)
    (s : Store) : Except Error String :=
  match (if conn.refuses .selectID then none else s.subscription.find? u.endpoint) with
  | some row => .ok row.id
  | none =>
      if WebPush.subscriptionEndpointLimitPerSubscriberIP ≤ s.count u.subscriberIP then
        .error .tooManySubscriptions
      else
        .ok u.newID

def insertTopics
    (conn : Connection)
    (id : String)
    (topics : List String) : List (Store → Except Error Store) :=
  topics.map fun topic =>
    conn.exec (.insertTopic topic) (·.insertTopic conn.foreignKeys id topic)

def writes
    (conn : Connection)
    (u : Upsert)
    (id : String) : List (Store → Except Error Store) :=
  conn.exec .insertSubscription (·.insertSubscription (u.row id)) ::
    conn.exec .deleteTopics (fun s => .ok (s.deleteTopics id)) ::
      insertTopics conn id u.topics

def upsertSubscription
    (conn : Connection)
    (u : Upsert) : Store → Except Error Unit × Store :=
  inTransaction conn fun s =>
    if conn.refuses .selectCount then
      (.error .noRows, s)
    else
      match subscriptionID conn u s with
      | .error e => (.error e, s)
      | .ok id => execute (writes conn u id) s

def markExpiryWarningSent
    (conn : Connection)
    (ids : List String)
    (now : Int) : Store → Except Error Unit × Store :=
  inTransaction conn (execute (ids.map fun id =>
    conn.exec (.updateWarned id) (fun s => .ok (s.setWarned id now))))

/-- A `DELETE` of subscriptions. -/
def deleteQuery
    (conn : Connection)
    (p : SubscriptionRow → Bool) : Store → Except Error Store :=
  conn.exec .deleteSubscriptions (fun s => .ok (s.deleteSubscriptions conn.foreignKeys p))

def removeSubscriptionsByEndpoint
    (conn : Connection)
    (endpoint : String) : Store → Except Error Unit × Store :=
  execute [deleteQuery conn fun r => decide (r.endpoint = endpoint)]

def removeSubscriptionsByUserID
    (conn : Connection)
    (userID : String)
    (s : Store) : Except Error Unit × Store :=
  if userID = "" then
    (.error .userIDCannotBeEmpty, s)
  else
    execute [deleteQuery conn fun r => decide (r.userID = userID)] s

def removeExpiredSubscriptions
    (conn : Connection)
    (expired : Int) : Store → Except Error Unit × Store :=
  execute
    [deleteQuery conn fun r => decide (r.updatedAt ≤ expired),
      conn.exec .deleteOrphans (fun s => .ok s.deleteOrphans)]

/-- A call of the store. -/
inductive Call where
  | upsert (u : Upsert)
  | removeByEndpoint (endpoint : String)
  | removeByUserID (userID : String)
  | removeExpired (expired : Int)
  | markWarned (ids : List String) (now : Int)

def perform
    (conn : Connection) : Call → Store → Except Error Unit × Store
  | .upsert u => upsertSubscription conn u
  | .removeByEndpoint endpoint => removeSubscriptionsByEndpoint conn endpoint
  | .removeByUserID userID => removeSubscriptionsByUserID conn userID
  | .removeExpired expired => removeExpiredSubscriptions conn expired
  | .markWarned ids now => markExpiryWarningSent conn ids now

end Model

section Topics

def Store.HasTopic
    (s : Store)
    (id topic : String) : Prop :=
  (⟨id, topic⟩ : TopicRow) ∈ s.subscriptionTopic

/-- The statements of an upsert whose failure is noticed. -/
def Upsert.statements (u : Upsert) : List Statement :=
  [.begin, .selectCount, .insertSubscription, .deleteTopics, .commit] ++
    u.topics.map .insertTopic

/-- No statement is refused, and no topic is given twice. -/
def Undisturbed
    (conn : Connection)
    (u : Upsert) : Prop :=
  (∀ q ∈ u.statements, conn.refuses q = false) ∧ u.topics.Nodup

end Topics

section Statements

variable {conn : Connection} {s s' : Store}

/-- Two subscriptions with one ID are the same. -/
theorem Store.eq_of_id_eq
    {r r' : SubscriptionRow}
    (hr : r ∈ s.subscription) (hr' : r' ∈ s.subscription)
    (h : r.id = r'.id) :
    r = r' :=
  List.inj_on_of_nodup_map s.ids hr hr' h

theorem Connection.exec_eq_ok_iff
    {q : Statement} {effect : Store → Except Error Store} :
    conn.exec q effect s = .ok s' ↔ conn.refuses q = false ∧ effect s = .ok s' := by
  rw [Connection.exec]
  split
  case isTrue h =>
    simp [h]
  case isFalse h =>
    simp [h]

theorem execute_cons_eq_ok_iff
    {q : Store → Except Error Store} {qs : List (Store → Except Error Store)} :
    execute (q :: qs) s = (.ok (), s') ↔
      ∃ t, q s = .ok t ∧ execute qs t = (.ok (), s') := by
  rw [execute]
  cases q s with
  | error e =>
      simp
  | ok t =>
      simp

theorem inTransaction_eq_ok_iff
    {body : Store → Except Error Unit × Store} :
    inTransaction conn body s = (.ok (), s') ↔
      conn.refuses .begin = false ∧ conn.refuses .commit = false ∧ body s = (.ok (), s') := by
  rw [inTransaction]
  split
  case isTrue h =>
    simp [h]
  case isFalse h =>
    rw [Bool.not_eq_true] at h
    obtain ⟨r, t⟩ := body s
    cases r with
    | error e =>
        simp
    | ok a =>
        cases conn.refuses .commit <;> simp [h]

/-- What is not committed leaves nothing behind. -/
theorem inTransaction_error
    {body : Store → Except Error Unit × Store} {e : Error}
    (h : (inTransaction conn body s).1 = .error e) :
    (inTransaction conn body s).2 = s := by
  rw [inTransaction] at h ⊢
  split at h
  case isTrue hbegin =>
    rw [if_pos hbegin]
  case isFalse hbegin =>
    rw [if_neg hbegin]
    split at h
    · rfl
    · split at h
      case isTrue hcommit =>
        rw [if_pos hcommit]
      case isFalse hcommit =>
        cases h

/-- A known endpoint keeps its ID. -/
theorem insertSubscription_known
    {row old : SubscriptionRow}
    (hold : old ∈ s.subscription)
    (hendpoint : old.endpoint = row.endpoint) :
    ∃ s', s.insertSubscription row = .ok s' ∧ s'.subscriptionTopic = s.subscriptionTopic ∧
      s'.subscription.rows.Perm (row.merge old ::
        s.subscription.rows.filter (fun r => decide (r.endpoint ≠ old.endpoint))) := by
  have hnone : s.subscription.insert? row = none :=
    Table.insert?_eq_none_iff.mpr ⟨old, hold, hendpoint⟩
  have hkey : ∀ r, SubscriptionRow.endpoint
      (if r.endpoint = row.endpoint then row.merge r else r) = r.endpoint := by
    intro r
    split <;> rfl
  have hmem : row.merge old ∈ s.subscription.modify
      (fun r => if r.endpoint = row.endpoint then row.merge r else r) hkey :=
    (Table.mem_modify_key_iff hkey hold hendpoint).mpr (Or.inl rfl)
  rw [Store.insertSubscription]
  split
  case h_1 table htable =>
    rw [hnone] at htable
    cases htable
  case h_2 =>
    refine ⟨_, rfl, rfl, (Table.perm_of_mem hmem).trans ?_⟩
    rw [Table.others_modify_key hkey hendpoint]

/-- The ID of a new endpoint must be new, too. -/
theorem insertSubscription_new
    {row : SubscriptionRow}
    (hnew : ∀ r ∈ s.subscription, r.endpoint ≠ row.endpoint)
    (hid : ∀ r ∈ s.subscription, r.id ≠ row.id) :
    ∃ s', s.insertSubscription row = .ok s' ∧ s'.subscriptionTopic = s.subscriptionTopic ∧
      s'.subscription.rows.Perm (row ::
        s.subscription.rows.filter (fun r => decide (r.endpoint ≠ row.endpoint))) := by
  have hfilter : s.subscription.rows.filter (fun r => decide (r.endpoint ≠ row.endpoint)) =
      s.subscription.rows := by
    rw [List.filter_eq_self]
    exact fun r hr => decide_eq_true (hnew r hr)
  rw [Store.insertSubscription]
  split
  case h_1 table htable =>
    have hfree : row.id ∉ s.subscription.rows.map SubscriptionRow.id := by
      intro hmem
      obtain ⟨r, hr, heq⟩ := List.mem_map.mp hmem
      exact hid r hr heq
    rw [dif_neg hfree]
    refine ⟨_, rfl, rfl, ?_⟩
    rw [hfilter, (Table.insert?_eq_some_iff.mp htable).2]
    exact List.perm_append_singleton row s.subscription.rows
  case h_2 hnone =>
    obtain ⟨r, hr, hkey⟩ := Table.insert?_eq_none_iff.mp hnone
    exact absurd hkey (hnew r hr)

theorem insertSubscription_taken
    {row r : SubscriptionRow}
    (hnew : ∀ r ∈ s.subscription, r.endpoint ≠ row.endpoint)
    (hr : r ∈ s.subscription)
    (hid : r.id = row.id) :
    s.insertSubscription row = .error .constraint := by
  rw [Store.insertSubscription]
  split
  case h_1 table htable =>
    rw [dif_pos (List.mem_map.mpr ⟨r, hr, hid⟩)]
  case h_2 hnone =>
    obtain ⟨r, hr, hkey⟩ := Table.insert?_eq_none_iff.mp hnone
    exact absurd hkey (hnew r hr)

theorem insertTopic_eq_ok_iff
    {foreignKeys : Bool} {id topic : String} :
    s.insertTopic foreignKeys id topic = .ok s' ↔
      (foreignKeys = true → ∃ r ∈ s.subscription, r.id = id) ∧ ¬s.HasTopic id topic ∧
        s'.subscription = s.subscription ∧
        s'.subscriptionTopic.rows = s.subscriptionTopic.rows ++ [⟨id, topic⟩] := by
  have hstored : id ∈ s.subscription.rows.map SubscriptionRow.id ↔
      ∃ r ∈ s.subscription, r.id = id := List.mem_map
  have hfree : s.subscriptionTopic.find? (id, topic) = none ↔ ¬s.HasTopic id topic := by
    rw [Table.find?_eq_none_iff]
    constructor
    · exact fun h hmem => h _ hmem rfl
    · rintro h ⟨id', topic'⟩ hr heq
      obtain ⟨rfl, rfl⟩ := Prod.mk.inj heq
      exact h hr
  rw [Store.insertTopic]
  split
  case isTrue h =>
    constructor
    · intro heq
      cases heq
    · rintro ⟨hkey, -⟩
      exact absurd (hstored.mpr (hkey h.1)) h.2
  case isFalse h =>
    have hkey : foreignKeys = true → ∃ r ∈ s.subscription, r.id = id := by
      intro hon
      by_contra hnot
      exact h ⟨hon, fun hmem => hnot (hstored.mp hmem)⟩
    cases htable : s.subscriptionTopic.insert? ⟨id, topic⟩ with
    | none =>
        obtain ⟨⟨id', topic'⟩, hr, heq⟩ := Table.insert?_eq_none_iff.mp htable
        obtain ⟨rfl, rfl⟩ := Prod.mk.inj heq
        simp only [reduceCtorEq, false_iff, not_and]
        exact fun _ hnot => absurd hr hnot
    | some table =>
        obtain ⟨hnone, hrows⟩ := Table.insert?_eq_some_iff.mp htable
        simp only [Except.ok.injEq]
        constructor
        · rintro rfl
          exact ⟨hkey, hfree.mp hnone, rfl, hrows⟩
        · rintro ⟨-, -, hsub, htopics⟩
          exact Store.ext hsub.symm (Table.ext (hrows.trans htopics.symm))

end Statements

section Topics

variable {conn : Connection} {s s' : Store}

/-- The topics are stored one by one, each for the first time. -/
theorem execute_insertTopics_iff
    {id : String} {topics : List String} :
    execute (insertTopics conn id topics) s = (.ok (), s') ↔
      (∀ topic ∈ topics, conn.refuses (.insertTopic topic) = false) ∧ topics.Nodup ∧
        (∀ topic ∈ topics, ¬s.HasTopic id topic) ∧
        (conn.foreignKeys = true → topics ≠ [] → ∃ r ∈ s.subscription, r.id = id) ∧
        s'.subscription = s.subscription ∧
        s'.subscriptionTopic.rows = s.subscriptionTopic.rows ++ topics.map (⟨id, ·⟩) := by
  induction topics generalizing s with
  | nil =>
      simp only [insertTopics, List.map_nil, execute, Prod.mk.injEq, true_and,
        List.not_mem_nil, false_implies, implies_true, List.nodup_nil, ne_eq, not_true,
        List.append_nil]
      constructor
      · rintro rfl
        exact ⟨rfl, rfl⟩
      · rintro ⟨hsub, htopics⟩
        exact Store.ext hsub.symm (Table.ext htopics.symm)
  | cons topic topics ih =>
      rw [insertTopics, List.map_cons, execute_cons_eq_ok_iff]
      constructor
      · rintro ⟨t, ht, hrest⟩
        obtain ⟨hok, ht⟩ := Connection.exec_eq_ok_iff.mp ht
        obtain ⟨hkey, hnot, hsub, hrows⟩ := insertTopic_eq_ok_iff.mp ht
        obtain ⟨hoks, hnodup, hnots, -, hsub', hrows'⟩ := ih.mp hrest
        have hhas : ∀ topic', t.HasTopic id topic' ↔
            s.HasTopic id topic' ∨ topic' = topic := by
          intro topic'
          rw [Store.HasTopic, Table.mem_def, hrows]
          simp [Store.HasTopic, Table.mem_def]
        refine ⟨?_, ?_, ?_, fun hon _ => hkey hon, hsub'.trans hsub, ?_⟩
        · exact List.forall_mem_cons.mpr ⟨hok, hoks⟩
        · refine List.nodup_cons.mpr ⟨fun hmem => ?_, hnodup⟩
          exact hnots topic hmem ((hhas topic).mpr (Or.inr rfl))
        · refine List.forall_mem_cons.mpr ⟨hnot, fun topic' hmem hs => ?_⟩
          exact hnots topic' hmem ((hhas topic').mpr (Or.inl hs))
        · rw [hrows', hrows, List.map_cons, List.append_assoc, List.singleton_append]
      · rintro ⟨hoks, hnodup, hnots, hkey, hsub, hrows⟩
        obtain ⟨hok, hoks⟩ := List.forall_mem_cons.mp hoks
        obtain ⟨hfresh, hnodup⟩ := List.nodup_cons.mp hnodup
        obtain ⟨hnot, hnots⟩ := List.forall_mem_cons.mp hnots
        have hstored : conn.foreignKeys = true → ∃ r ∈ s.subscription, r.id = id :=
          fun hon => hkey hon (List.cons_ne_nil _ _)
        have hfree : (⟨id, topic⟩ : TopicRow).key ∉
            s.subscriptionTopic.rows.map TopicRow.key := by
          intro hmem
          obtain ⟨⟨id', topic'⟩, hr, heq⟩ := List.mem_map.mp hmem
          obtain ⟨rfl, rfl⟩ := Prod.mk.inj heq
          exact hnot hr
        refine ⟨{ s with subscriptionTopic :=
          ⟨s.subscriptionTopic.rows ++ [⟨id, topic⟩], ?_⟩ }, ?_, ?_⟩
        · rw [List.map_append]
          exact s.subscriptionTopic.nodup.append (List.nodup_singleton _)
            (by simpa [List.Disjoint] using hfree)
        · exact Connection.exec_eq_ok_iff.mpr
            ⟨hok, insertTopic_eq_ok_iff.mpr ⟨hstored, hnot, rfl, rfl⟩⟩
        · refine ih.mpr ⟨hoks, hnodup, fun topic' hmem hhas => ?_, fun hon _ => hstored hon,
            hsub, ?_⟩
          · rcases List.mem_append.mp hhas with hhas | hhas
            · exact hnots topic' hmem hhas
            · obtain ⟨-, rfl⟩ := TopicRow.mk.inj (List.mem_singleton.mp hhas)
              exact hfresh hmem
          · rw [hrows, List.map_cons, List.append_assoc, List.singleton_append]

end Topics

section Upserts

variable {conn : Connection} {s s' : Store} {u : Upsert} {id : String}

/-- The endpoint has a subscription, or its new ID is free. -/
def Storable
    (u : Upsert)
    (s : Store)
    (id : String) : Prop :=
  (∃ r ∈ s.subscription, r.endpoint = u.endpoint) ∨ ∀ r ∈ s.subscription, r.id ≠ id

/-- The topics refer to a subscription, where that is checked. -/
def Referable
    (conn : Connection)
    (u : Upsert)
    (s : Store)
    (id : String) : Prop :=
  conn.foreignKeys = true → u.topics ≠ [] →
    (∃ r ∈ s.subscription, r.endpoint = u.endpoint) → ∃ r ∈ s.subscription, r.id = id

/-- What an upsert writes under an ID. -/
structure Written
    (u : Upsert)
    (s : Store)
    (id : String)
    (s' : Store)
    (stored : String) : Prop where
  known : ∀ r ∈ s.subscription, r.endpoint = u.endpoint → r.id = stored
  new : (∀ r ∈ s.subscription, r.endpoint ≠ u.endpoint) → stored = id
  rows : s'.subscription.rows.Perm (u.row stored ::
    s.subscription.rows.filter (fun r => decide (r.endpoint ≠ u.endpoint)))
  topics : ∀ i topic, s'.HasTopic i topic ↔
    if i = id then topic ∈ u.topics else s.HasTopic i topic

/-- The first statement of the writes. -/
theorem insertSubscription_row
    (h : Storable u s id) :
    ∃ t stored, s.insertSubscription (u.row id) = .ok t ∧
      t.subscriptionTopic = s.subscriptionTopic ∧
      (∀ r ∈ s.subscription, r.endpoint = u.endpoint → r.id = stored) ∧
      ((∀ r ∈ s.subscription, r.endpoint ≠ u.endpoint) → stored = id) ∧
      t.subscription.rows.Perm (u.row stored ::
        s.subscription.rows.filter (fun r => decide (r.endpoint ≠ u.endpoint))) := by
  by_cases hknown : ∃ r ∈ s.subscription, r.endpoint = u.endpoint
  · obtain ⟨old, hold, hendpoint⟩ := hknown
    have hrow : old.endpoint = (u.row id).endpoint := hendpoint
    obtain ⟨t, ht, htopics, hrows⟩ := insertSubscription_known hold hrow
    have hmerge : (u.row id).merge old = u.row old.id := by
      simp [SubscriptionRow.merge, Upsert.row, hendpoint]
    rw [hmerge, hendpoint] at hrows
    refine ⟨t, old.id, ht, htopics, fun r hr he => ?_, fun hnew => ?_, hrows⟩
    · rw [Table.eq_of_key_eq hr hold (he.trans hendpoint.symm)]
    · exact absurd hendpoint (hnew old hold)
  · have hnew : ∀ r ∈ s.subscription, r.endpoint ≠ (u.row id).endpoint :=
      fun r hr he => hknown ⟨r, hr, he⟩
    obtain ⟨t, ht, htopics, hrows⟩ :=
      insertSubscription_new hnew (h.resolve_left hknown)
    exact ⟨t, id, ht, htopics, fun r hr he => absurd he (hnew r hr), fun _ => rfl, hrows⟩

theorem hasTopic_deleteTopics
    (i topic : String) :
    (s.deleteTopics id).HasTopic i topic ↔ i ≠ id ∧ s.HasTopic i topic := by
  simp [Store.HasTopic, Store.deleteTopics, and_comm]

/-- When the statements of an upsert go through, and what they write. -/
theorem execute_writes_iff :
    (∃ s', execute (writes conn u id) s = (.ok (), s')) ↔
      conn.refuses .insertSubscription = false ∧ conn.refuses .deleteTopics = false ∧
        (∀ topic ∈ u.topics, conn.refuses (.insertTopic topic) = false) ∧ u.topics.Nodup ∧
        Storable u s id ∧ Referable conn u s id := by
  constructor
  · rintro ⟨s', h⟩
    rw [writes, execute_cons_eq_ok_iff] at h
    obtain ⟨t, ht, h⟩ := h
    obtain ⟨hinsert, ht⟩ := Connection.exec_eq_ok_iff.mp ht
    rw [execute_cons_eq_ok_iff] at h
    obtain ⟨t', ht', h⟩ := h
    obtain ⟨hdelete, ht'⟩ := Connection.exec_eq_ok_iff.mp ht'
    cases ht'
    obtain ⟨hoks, hnodup, -, hkey, -⟩ := execute_insertTopics_iff.mp h
    have hstorable : Storable u s id := by
      by_contra hnot
      simp only [Storable, not_or, not_exists, not_and, not_forall, not_not] at hnot
      obtain ⟨hnew, r, hr, hid⟩ := hnot
      have htaken : s.insertSubscription (u.row id) = .error .constraint :=
        insertSubscription_taken hnew hr hid
      rw [htaken] at ht
      cases ht
    refine ⟨hinsert, hdelete, hoks, hnodup, hstorable, fun hon htopics hknown => ?_⟩
    obtain ⟨t', stored, ht', -, hstored, -, hrows⟩ := insertSubscription_row hstorable
    obtain rfl : t = t' := Except.ok.inj (ht.symm.trans ht')
    obtain ⟨r, hr, hid⟩ := hkey hon htopics
    have hmem := hrows.mem_iff.mp hr
    rcases List.mem_cons.mp hmem with rfl | hmem
    · obtain ⟨old, hold, hendpoint⟩ := hknown
      exact ⟨old, hold, (hstored old hold hendpoint).trans hid⟩
    · exact ⟨r, (List.mem_filter.mp hmem).1, hid⟩
  · rintro ⟨hinsert, hdelete, hoks, hnodup, hstorable, hreferable⟩
    obtain ⟨t, stored, ht, -, hstored, hnew, hrows⟩ := insertSubscription_row hstorable
    have hkey : conn.foreignKeys = true → u.topics ≠ [] →
        ∃ r ∈ (t.deleteTopics id).subscription, r.id = id := by
      intro hon htopics
      by_cases hknown : ∃ r ∈ s.subscription, r.endpoint = u.endpoint
      · obtain ⟨r, hr, hid⟩ := hreferable hon htopics hknown
        by_cases he : r.endpoint = u.endpoint
        · refine ⟨u.row stored, hrows.mem_iff.mpr List.mem_cons_self, ?_⟩
          exact (hstored r hr he).symm.trans hid
        · refine ⟨r, hrows.mem_iff.mpr (List.mem_cons_of_mem _ ?_), hid⟩
          exact List.mem_filter.mpr ⟨hr, decide_eq_true he⟩
      · refine ⟨u.row stored, hrows.mem_iff.mpr List.mem_cons_self, hnew fun r hr he => ?_⟩
        exact hknown ⟨r, hr, he⟩
    have hrefs : ∀ topic ∈ u.topics, ¬(t.deleteTopics id).HasTopic id topic :=
      fun topic _ hmem => ((hasTopic_deleteTopics id topic).mp hmem).1 rfl
    have htable : (((t.deleteTopics id).subscriptionTopic.rows ++
        u.topics.map (TopicRow.mk id)).map TopicRow.key).Nodup := by
      rw [List.map_append, List.map_map]
      refine (t.deleteTopics id).subscriptionTopic.nodup.append ?_ ?_
      · exact hnodup.map fun a b hab => (Prod.mk.inj hab).2
      · intro k hk hk'
        obtain ⟨r, hr, rfl⟩ := List.mem_map.mp hk
        obtain ⟨topic, htopic, heq⟩ := List.mem_map.mp hk'
        obtain ⟨hid, htop⟩ := Prod.mk.inj heq
        refine hrefs topic htopic ?_
        have hrow : (⟨id, topic⟩ : TopicRow) = r := by
          cases r
          exact congrArg₂ TopicRow.mk hid htop
        rw [Store.HasTopic, hrow]
        exact hr
    refine ⟨{ t.deleteTopics id with subscriptionTopic := ⟨_, htable⟩ }, ?_⟩
    rw [writes, execute_cons_eq_ok_iff]
    refine ⟨t, Connection.exec_eq_ok_iff.mpr ⟨hinsert, ht⟩, ?_⟩
    rw [execute_cons_eq_ok_iff]
    refine ⟨t.deleteTopics id, Connection.exec_eq_ok_iff.mpr ⟨hdelete, rfl⟩, ?_⟩
    exact execute_insertTopics_iff.mpr ⟨hoks, hnodup, hrefs, hkey, rfl, rfl⟩

theorem execute_writes_spec
    (h : execute (writes conn u id) s = (.ok (), s')) :
    ∃ stored, Written u s id s' stored := by
  have hstorable := (execute_writes_iff.mp ⟨s', h⟩).2.2.2.2.1
  obtain ⟨t, stored, ht, htopics, hstored, hnew, hrows⟩ := insertSubscription_row hstorable
  rw [writes, execute_cons_eq_ok_iff] at h
  obtain ⟨t₁, ht₁, h⟩ := h
  obtain rfl : t = t₁ :=
    Except.ok.inj (ht.symm.trans (Connection.exec_eq_ok_iff.mp ht₁).2)
  rw [execute_cons_eq_ok_iff] at h
  obtain ⟨t₂, ht₂, h⟩ := h
  obtain ⟨-, ht₂⟩ := Connection.exec_eq_ok_iff.mp ht₂
  cases ht₂
  obtain ⟨-, -, -, -, hsub, hrows'⟩ := execute_insertTopics_iff.mp h
  refine ⟨stored, hstored, hnew, ?_, fun i topic => ?_⟩
  · rw [hsub]
    exact hrows
  · have hhas : s'.HasTopic i topic ↔
        (t.deleteTopics id).HasTopic i topic ∨ (i = id ∧ topic ∈ u.topics) := by
      rw [Store.HasTopic, Table.mem_def, hrows', List.mem_append, List.mem_map]
      refine or_congr Iff.rfl ?_
      constructor
      · rintro ⟨topic', hmem, heq⟩
        obtain ⟨rfl, rfl⟩ := TopicRow.mk.inj heq
        exact ⟨rfl, hmem⟩
      · rintro ⟨rfl, hmem⟩
        exact ⟨topic, hmem, rfl⟩
    rw [hhas, hasTopic_deleteTopics, Store.HasTopic, Store.HasTopic, htopics]
    by_cases hid : i = id
    · simp [hid]
    · simp [hid]

end Upserts

section Answers

variable {conn : Connection} {s s' : Store} {u : Upsert} {id : String}

theorem subscriptionID_known
    {old : SubscriptionRow}
    (hold : old ∈ s.subscription)
    (hendpoint : old.endpoint = u.endpoint)
    (hread : conn.refuses .selectID = false) :
    subscriptionID conn u s = .ok old.id := by
  have hfind : s.subscription.find? u.endpoint = some old :=
    Table.find?_eq_some_iff.mpr ⟨hold, hendpoint⟩
  rw [subscriptionID, hread, if_neg Bool.false_ne_true, hfind]

/-- An endpoint that is new, or seems to be. -/
theorem subscriptionID_unknown
    (h : conn.refuses .selectID = true ∨ ∀ r ∈ s.subscription, r.endpoint ≠ u.endpoint) :
    subscriptionID conn u s =
      if WebPush.subscriptionEndpointLimitPerSubscriberIP ≤ s.count u.subscriberIP then
        .error .tooManySubscriptions
      else
        .ok u.newID := by
  have hnone : (if conn.refuses .selectID then none
      else s.subscription.find? u.endpoint) = none := by
    split
    case isTrue =>
      rfl
    case isFalse hread =>
      exact Table.find?_eq_none_iff.mpr (h.resolve_left hread)
  rw [subscriptionID, hnone]

theorem upsertSubscription_eq_ok_iff :
    upsertSubscription conn u s = (.ok (), s') ↔
      conn.refuses .begin = false ∧ conn.refuses .commit = false ∧
        conn.refuses .selectCount = false ∧
        ∃ id, subscriptionID conn u s = .ok id ∧
          execute (writes conn u id) s = (.ok (), s') := by
  rw [upsertSubscription, inTransaction_eq_ok_iff]
  refine and_congr_right fun _ => and_congr_right fun _ => ?_
  cases conn.refuses .selectCount with
  | true =>
      simp
  | false =>
      cases subscriptionID conn u s <;> simp

/-- Which upserts succeed. -/
theorem upsertSubscription_succeeds_iff :
    (∃ s', upsertSubscription conn u s = (.ok (), s')) ↔
      Undisturbed conn u ∧ ∃ id, subscriptionID conn u s = .ok id ∧ Storable u s id ∧
        Referable conn u s id := by
  simp only [upsertSubscription_eq_ok_iff, Undisturbed, Upsert.statements,
    List.forall_mem_append, List.forall_mem_cons, List.forall_mem_map]
  constructor
  · rintro ⟨s', hbegin, hcommit, hcount, id, hid, hwrites⟩
    obtain ⟨hinsert, hdelete, hoks, hnodup, hstorable, hreferable⟩ :=
      execute_writes_iff.mp ⟨s', hwrites⟩
    exact ⟨⟨⟨⟨hbegin, hcount, hinsert, hdelete, hcommit, by simp⟩, hoks⟩, hnodup⟩, id, hid,
      hstorable, hreferable⟩
  · rintro ⟨⟨⟨⟨hbegin, hcount, hinsert, hdelete, hcommit, -⟩, hoks⟩, hnodup⟩, id, hid,
      hstorable, hreferable⟩
    obtain ⟨s', hwrites⟩ := execute_writes_iff.mpr
      ⟨hinsert, hdelete, hoks, hnodup, hstorable, hreferable⟩
    exact ⟨s', hbegin, hcommit, hcount, id, hid, hwrites⟩

/-- A known endpoint whose ID is read needs nothing else. -/
theorem succeeds_of_known
    {old : SubscriptionRow}
    (hundisturbed : Undisturbed conn u)
    (hread : conn.refuses .selectID = false)
    (hold : old ∈ s.subscription)
    (hendpoint : old.endpoint = u.endpoint) :
    ∃ s', upsertSubscription conn u s = (.ok (), s') :=
  upsertSubscription_succeeds_iff.mpr ⟨hundisturbed, old.id,
    subscriptionID_known hold hendpoint hread, Or.inl ⟨old, hold, hendpoint⟩,
    fun _ _ _ => ⟨old, hold, rfl⟩⟩

theorem upsertSubscription_error
    {u : Upsert} {s : Store} {e : Error}
    (h : (upsertSubscription conn u s).1 = .error e) :
    (upsertSubscription conn u s).2 = s :=
  inTransaction_error h

end Answers

end WebPushStore
end Server
end CoopMessenger
