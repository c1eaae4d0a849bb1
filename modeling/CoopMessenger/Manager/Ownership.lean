import CoopMessenger.Manager.Reservations

/-!
# Who owns a topic

A reservation is two rows of `user_access`: the entry of the owner and the entry
of `everyone`, both with the owner in `owner_user_id`.  This module says what the
kinds of writes do to such pairs: a deletion removes the rows of a user together
with the rows the user owns, a reservation adds a pair, and a grant overwrites
entries by entries without owner.

**Results.**
* `Dropped.owned`: deletions keep the pairs together.
* `paired_addReservation`, `keepsOwners_addReservation`: so does a reservation that was allowed.
* `Granted.owned_iff`: when grants do.
-/

namespace CoopMessenger
namespace Manager

open Library

namespace Database

section Invariant

/-- The owner of an entry of `everyone` holds an entry for the topic as well. -/
def Paired (db : Database) : Prop :=
  ∀ e ∈ db.access, e.userId = everyoneID → ∀ x ∈ e.ownerUserId,
    ∃ a ∈ db.access, a.userId = x ∧ a.topic = e.topic ∧ a.ownerUserId = some x

/-- No topic has two owners, and the two rows of a reservation stay together. -/
structure Owned (db : Database) : Prop where
  exclusive : Exclusive db
  paired : Paired db

/-- Who asks for a write. -/
inductive Requester where
  | admin
  | user (id : String)
  | anonymous
deriving DecidableEq, Repr

/-- The requester as a logged-in user. -/
def Requester.ofUser (u : User) : Requester :=
  if u.role = .admin then .admin else .user u.id

/-- May the requester dispose of what this user owns? -/
def Requester.owns (x : String) : Requester → Prop
  | .admin => True
  | .user id => id = x
  | .anonymous => False

/-- Entries lose their owner only when the owner or an admin asks for it. -/
def KeepsOwners
    (r : Requester)
    (db db' : Database) : Prop :=
  ∀ a ∈ db.access, ∀ x ∈ a.ownerUserId, ∀ b ∈ db'.access,
    b.key = a.key → b.ownerUserId = none → r.owns x

end Invariant

section Deletions

/--
A deletion: with the entry of an owner goes the entry of `everyone` that belongs
to it.
-/
structure Dropped (db db' : Database) : Prop where
  sub : ∀ a ∈ db'.access, a ∈ db.access
  pair :
    ∀ a ∈ db.access, a.reserves = true → a ∉ db'.access →
      ∀ e ∈ db'.access, e.userId = everyoneID → e.topic = a.topic →
        e.ownerUserId ≠ some a.userId

variable {db db' db'' : Database}
variable {r : Requester}

/-- A write to other tables deletes nothing. -/
theorem dropped_of_access_eq
    (h : db'.access = db.access) :
    Dropped db db' := by
  constructor
  · intro a ha
    rwa [← h]
  · intro a ha _ hnot
    rw [h] at hnot
    exact absurd ha hnot

/-- One deletion after another. -/
theorem Dropped.trans
    (h : Dropped db db')
    (h' : Dropped db' db'') :
    Dropped db db'' := by
  constructor
  · exact fun a ha => h.sub a (h'.sub a ha)
  · intro a ha hres hnot e he
    by_cases hmid : a ∈ db'.access
    · exact h'.pair a hmid hres hnot e he
    · exact h.pair a ha hres hmid e (h'.sub e he)

/-- Deletions keep the pairs together. -/
theorem Dropped.owned
    (h : Dropped db db')
    (hdb : Owned db) :
    Owned db' := by
  constructor
  · intro a ha b hb
    exact hdb.exclusive a (h.sub a ha) b (h.sub b hb)
  · intro e he hev x hx
    obtain ⟨a, ha, rfl, htopic, hown⟩ := hdb.paired e (h.sub e he) hev x hx
    refine ⟨a, ?_, rfl, htopic, hown⟩
    by_contra hnot
    exact h.pair a ha (by simp [AccessRow.reserves, hown]) hnot e he hev
      htopic.symm hx

/-- A deletion leaves no entry without owner that had one. -/
theorem Dropped.keepsOwners
    (h : Dropped db db') :
    KeepsOwners r db db' := by
  intro a ha x hx b hb hkey hnone
  obtain rfl := Table.eq_of_key_eq (h.sub b hb) ha hkey
  rw [hnone] at hx
  cases hx

/-- A user goes together with what the user owns. -/
theorem dropped_of_filter
    (id : String)
    (p : AccessRow → Bool)
    (hp : ∀ a e : AccessRow, e.topic = a.topic → p e = p a)
    (haccess : db'.access = db.access.delete
      (fun a => decide (a.userId = id ∨ a.ownerUserId = some id) && p a)) :
    Dropped db db' := by
  constructor
  · intro a ha
    rw [haccess, Table.mem_delete_iff] at ha
    exact ha.1
  · intro a ha hres hnot e he _ htopic hown
    rw [AccessRow.reserves, decide_eq_true_eq] at hres
    rw [haccess, Table.mem_delete_iff] at hnot he
    have hsame := hp a e htopic
    simp only [Bool.and_eq_false_iff, decide_eq_false_iff_not, not_or,
      ha, true_and, Bool.not_eq_false] at hnot he
    have ha' : a.userId = id := by
      by_contra hne
      exact absurd hnot (by simp [hres, hne])
    rcases he.2 with hne | hfalse
    · exact hne.2 (by rw [hown, ha'])
    · refine absurd hnot ?_
      simp [← hsame, hfalse]

/-- `RemoveReservations`, as far as the entries of one topic go. -/
def removeReservation
    (db : Database)
    (username topic : String) : Database :=
  (db.deleteTopicAccess username (escapeUnderscore topic)).deleteTopicAccess
    everyone (escapeUnderscore topic)

/-- Deletes the access entries of the user and of `everyone` for the topics. -/
def removeReservations
    (db : Database)
    (username : String)
    (topics : List String) : Except Error Database :=
  if !allowedUsername username || decide (username = everyone) ||
      topics.isEmpty then
    .error .invalidArgument
  else if topics.any (fun topic => !allowedTopic topic) then
    .error .invalidArgument
  else
    .ok (topics.foldl (fun db topic => db.removeReservation username topic) db)

theorem dropped_deleteTopicAccess
    (db : Database)
    (username topic : String) :
    Dropped db (db.deleteTopicAccess username topic) := by
  cases hid : db.userID username with
  | none =>
      refine dropped_of_filter "" (fun _ => false) (fun _ _ _ => rfl) ?_
      simp [deleteTopicAccess, hid]
  | some id =>
      refine dropped_of_filter id (fun a => decide (a.topic.1 = topic)) ?_ ?_
      · intro a e htopic
        rw [htopic]
      · simp [deleteTopicAccess, hid]

theorem dropped_deleteUserAccess
    (db : Database)
    (username : String) :
    Dropped db (db.deleteUserAccess username) := by
  cases hid : db.userID username with
  | none =>
      refine dropped_of_filter "" (fun _ => false) (fun _ _ _ => rfl) ?_
      simp [deleteUserAccess, hid]
  | some id =>
      refine dropped_of_filter id (fun _ => true) (fun _ _ _ => rfl) ?_
      simp [deleteUserAccess, hid]

theorem dropped_empty
    (db : Database) :
    Dropped db { db with access := .empty } :=
  ⟨fun a ha => absurd ha (Table.not_mem_empty a),
    fun _ _ _ _ e he => absurd he (Table.not_mem_empty e)⟩

/-- A revocation deletes. -/
theorem dropped_resetAccess
    {username topicPattern : String}
    (h : db.resetAccess username topicPattern = .ok db') :
    Dropped db db' := by
  unfold resetAccess at h
  split at h
  · cases h
  · split at h
    · cases h
    · split at h
      · cases h
        exact dropped_empty db
      · split at h
        · cases h
          exact dropped_deleteUserAccess db username
        · cases h
          exact dropped_deleteTopicAccess db username _

/-- The end of reservations deletes. -/
theorem dropped_removeReservations
    {username : String} {topics : List String}
    (h : db.removeReservations username topics = .ok db') :
    Dropped db db' := by
  have hall : ∀ db : Database, Dropped db (topics.foldl
      (fun db topic => db.removeReservation username topic) db) := by
    clear h
    induction topics with
    | nil =>
        exact fun db => dropped_of_access_eq rfl
    | cons topic topics ih =>
        intro db
        have hfirst : Dropped db (db.removeReservation username topic) :=
          (dropped_deleteTopicAccess db username _).trans
            (dropped_deleteTopicAccess _ everyone _)
        exact hfirst.trans (ih _)
  unfold removeReservations at h
  split at h
  · cases h
  · split at h
    · cases h
    · cases h
      exact hall db

/-- A change of role deletes the entries of a new admin. -/
theorem dropped_changeRole
    {username : String} {role : Role}
    (h : db.changeRole username role = .ok db') :
    Dropped db db' := by
  have hrole : Dropped db (db.updateUserRole username role) :=
    dropped_of_access_eq rfl
  unfold changeRole at h
  split at h
  · cases h
  · split at h
    · cases h
    · split at h
      · cases h
        exact hrole.trans (dropped_deleteUserAccess _ username)
      · cases h
        exact hrole

/-- The removal of a user deletes, if foreign keys are enforced. -/
theorem dropped_removeUser
    {foreignKeys : Bool} {username : String}
    (h : db.removeUser foreignKeys username = .ok db') :
    Dropped db db' := by
  unfold removeUser at h
  split at h
  · cases h
  · split at h
    case isFalse =>
      cases h
    case isTrue hname =>
      have huser : Dropped db (db.deleteUser username hname) :=
        dropped_of_access_eq rfl
      split at h
      case h_1 id _ =>
        cases h
        refine huser.trans ?_
        refine dropped_of_filter id (fun _ => true) (fun _ _ _ => rfl) ?_
        simp [cascade]
      case h_2 =>
        cases h
        exact huser

end Deletions

section Reservation

variable {db db' : Database}
variable {r : Requester}
variable {username topic : String}
variable {perm : Permission}

/-- The entries after a reservation was added. -/
theorem mem_access_addReservation
    (h : db.addReservation username topic perm = .ok db') :
    ∃ id, ∃ t : StoredPattern, db.userID username = some id ∧
      id ≠ everyoneID ∧
      ∀ a, a ∈ db'.access ↔
        a = ⟨everyoneID, t, perm.isRead, perm.isWrite, some id, false⟩ ∨
        a = ⟨id, t, true, true, some id, false⟩ ∨
        (a ∈ db.access ∧ a.key ≠ (id, t) ∧ a.key ≠ (everyoneID, t)) := by
  obtain ⟨id, ht, -, hid, hne, -, -, hperm⟩ := addReservation_eq_ok h
  refine ⟨id, storedTopic topic ht, hid, hne, fun a => ?_⟩
  rw [Table.mem_def, hperm.mem_iff]
  simp [Table.mem_def]

/-- A reservation adds or renews a pair. -/
theorem paired_addReservation
    (hdb : Paired db)
    (h : db.addReservation username topic perm = .ok db') :
    Paired db' := by
  obtain ⟨id, t, -, hne, hmem⟩ := mem_access_addReservation h
  have hown : (⟨id, t, true, true, some id, false⟩ : AccessRow) ∈ db'.access :=
    (hmem _).mpr (Or.inr (Or.inl rfl))
  intro e he hev x hx
  rcases (hmem e).mp he with rfl | rfl | ⟨he, -, hother⟩
  · obtain rfl := Option.some.inj hx
    exact ⟨_, hown, rfl, rfl, rfl⟩
  · exact absurd hev hne
  · obtain ⟨a, ha, rfl, htopic, haown⟩ := hdb e he hev x hx
    by_cases hkey : a.key = (id, t)
    · obtain ⟨rfl, rfl⟩ := Prod.mk.inj hkey
      exact ⟨_, hown, rfl, htopic, rfl⟩
    · refine ⟨a, (hmem a).mpr (Or.inr (Or.inr ⟨ha, hkey, ?_⟩)), rfl, htopic,
        haown⟩
      rintro hkey'
      refine hother ?_
      rw [← hkey']
      exact Prod.ext (hev.trans (Prod.mk.inj hkey').1.symm) htopic.symm

/-- A reservation leaves no entry without owner that had one. -/
theorem keepsOwners_addReservation
    (h : db.addReservation username topic perm = .ok db') :
    KeepsOwners r db db' := by
  obtain ⟨id, t, -, -, hmem⟩ := mem_access_addReservation h
  intro a ha x hx b hb hkey hnone
  rcases (hmem b).mp hb with rfl | rfl | ⟨hb, -⟩
  · cases hnone
  · cases hnone
  · obtain rfl := Table.eq_of_key_eq hb ha hkey
    rw [hnone] at hx
    cases hx

end Reservation

section Grants

/-- Grants to a user: the entries for these patterns have no owner any more. -/
structure Granted
    (db db' : Database)
    (id : String)
    (ts : List StoredPattern) : Prop where
  new : ∀ t ∈ ts, ∃ a ∈ db'.access, a.key = (id, t) ∧ a.ownerUserId = none
  old : ∀ a ∈ db.access, (∀ t ∈ ts, a.key ≠ (id, t)) → a ∈ db'.access
  only :
    ∀ a ∈ db'.access,
      (a.ownerUserId = none ∧ ∃ t ∈ ts, a.key = (id, t)) ∨
        (a ∈ db.access ∧ ∀ t ∈ ts, a.key ≠ (id, t))

/--
The entry that a grant overwrites, if it has an owner, is at the disposal of the
requester, and is not the half of a pair.
-/
def Harmless
    (r : Requester)
    (db : Database)
    (id : String)
    (t : StoredPattern) : Prop :=
  ∀ a ∈ db.access, a.key = (id, t) → ∀ x ∈ a.ownerUserId,
    r.owns x ∧
      (x = id → ∀ e ∈ db.access, e.userId = everyoneID → e.topic = t →
        e.key ≠ a.key → e.ownerUserId ≠ some x)

variable {db db' db'' : Database}
variable {r : Requester}
variable {id : String}
variable {ts : List StoredPattern}

/-- One grant. -/
theorem granted_allowAccess
    {username topicPattern : String} {permission : Permission}
    (h : db.allowAccess username topicPattern permission = .ok db') :
    ∃ id, ∃ hp : allowedTopicPattern topicPattern = true,
      db.userID username = some id ∧
        Granted db db' id [.ofPattern topicPattern hp] := by
  obtain ⟨id, hp, hid, -, -, hmem⟩ := allowAccess_eq_ok h
  refine ⟨id, hp, hid, ?_, ?_, ?_⟩
  · intro t ht
    rw [List.mem_singleton] at ht
    subst ht
    exact ⟨_, (hmem _).mpr (Or.inl rfl), rfl, rfl⟩
  · intro a ha hkey
    exact (hmem a).mpr (Or.inr ⟨ha, hkey _ (List.mem_singleton_self _)⟩)
  · intro a ha
    rcases (hmem a).mp ha with rfl | ⟨ha, hkey⟩
    · exact Or.inl ⟨rfl, _, List.mem_singleton_self _, rfl⟩
    · refine Or.inr ⟨ha, fun t ht => ?_⟩
      rw [List.mem_singleton] at ht
      subst ht
      exact hkey

theorem Granted.nil
    (db : Database)
    (id : String) :
    Granted db db id [] := by
  constructor
  · intro t ht
    cases ht
  · exact fun a ha _ => ha
  · refine fun a ha => Or.inr ⟨ha, fun t ht => ?_⟩
    cases ht

/-- Only the access table matters for what the grants do. -/
theorem Granted.of_access_eq
    (h : Granted db' db'' id ts)
    (haccess : db'.access = db.access) :
    Granted db db'' id ts := by
  constructor
  · exact h.new
  · intro a ha
    rw [← haccess] at ha
    exact h.old a ha
  · intro a ha
    rw [← haccess]
    exact h.only a ha

/-- Grants to one user, one after another. -/
theorem Granted.append
    {ts' : List StoredPattern}
    (h : Granted db db' id ts)
    (h' : Granted db' db'' id ts') :
    Granted db db'' id (ts ++ ts') := by
  constructor
  · intro t ht
    by_cases hlater : t ∈ ts'
    · exact h'.new t hlater
    · have hfirst : t ∈ ts := (List.mem_append.mp ht).resolve_right hlater
      obtain ⟨a, ha, hkey, hnone⟩ := h.new t hfirst
      refine ⟨a, h'.old a ha ?_, hkey, hnone⟩
      rintro t' ht' hkey'
      rw [hkey] at hkey'
      exact hlater ((Prod.mk.inj hkey').2 ▸ ht')
  · intro a ha hkey
    refine h'.old a (h.old a ha ?_) ?_
    · exact fun t ht => hkey t (List.mem_append_left _ ht)
    · exact fun t ht => hkey t (List.mem_append_right _ ht)
  · intro a ha
    rcases h'.only a ha with ⟨hnone, t, ht, hkey⟩ | ⟨ha, hkey'⟩
    · exact Or.inl ⟨hnone, t, List.mem_append_right _ ht, hkey⟩
    · rcases h.only a ha with ⟨hnone, t, ht, hkey⟩ | ⟨ha, hkey⟩
      · exact Or.inl ⟨hnone, t, List.mem_append_left _ ht, hkey⟩
      · refine Or.inr ⟨ha, fun t ht => ?_⟩
        rcases List.mem_append.mp ht with ht | ht
        · exact hkey t ht
        · exact hkey' t ht

/-- An entry with an owner has not been written by the grants. -/
theorem Granted.mem_of_owned
    (h : Granted db db' id ts)
    {a : AccessRow} {x : String}
    (ha : a ∈ db'.access)
    (hx : a.ownerUserId = some x) :
    a ∈ db.access ∧ ∀ t ∈ ts, a.key ≠ (id, t) := by
  rcases h.only a ha with ⟨hnone, -⟩ | hold
  · rw [hx] at hnone
    cases hnone
  · exact hold

/-- Grants never give a topic a second owner. -/
theorem Granted.exclusive
    (h : Granted db db' id ts)
    (hdb : Exclusive db) :
    Exclusive db' := by
  intro a ha b hb hares hbres
  have haown : a.ownerUserId = some a.userId := by
    simpa [AccessRow.reserves] using hares
  have hbown : b.ownerUserId = some b.userId := by
    simpa [AccessRow.reserves] using hbres
  exact hdb a (h.mem_of_owned ha haown).1 b (h.mem_of_owned hb hbown).1 hares
    hbres

/-- Grants respect ownership exactly when every one of them is harmless. -/
theorem Granted.owned_iff
    (h : Granted db db' id ts)
    (hdb : Owned db) :
    Owned db' ∧ KeepsOwners r db db' ↔ ∀ t ∈ ts, Harmless r db id t := by
  constructor
  · rintro ⟨hdb', hkeeps⟩ t ht a ha hkey x hx
    refine ⟨?_, ?_⟩
    · obtain ⟨b, hb, hbkey, hnone⟩ := h.new t ht
      exact hkeeps a ha x hx b hb (hbkey.trans hkey.symm) hnone
    · rintro rfl e he hev htopic hne hown
      have hkept : ∀ t' ∈ ts, e.key ≠ (x, t') := by
        intro t' _ hekey
        obtain ⟨hex, -⟩ := Prod.mk.inj hekey
        refine hne ?_
        rw [hkey, ← htopic]
        exact Prod.ext hex rfl
      obtain ⟨b, hb, hbid, hbtopic, hbown⟩ :=
        hdb'.paired e (h.old e he hkept) hev x hown
      refine (h.mem_of_owned hb hbown).2 t ht ?_
      exact Prod.ext hbid (hbtopic.trans htopic)
  · intro hharmless
    refine ⟨⟨h.exclusive hdb.exclusive, ?_⟩, ?_⟩
    · intro e he hev x hx
      obtain ⟨he, hekey⟩ := h.mem_of_owned he hx
      obtain ⟨a, ha, haid, htopic, hown⟩ := hdb.paired e he hev x hx
      refine ⟨a, h.old a ha ?_, haid, htopic, hown⟩
      intro t ht hkey
      have hx' : x = id := haid.symm.trans (Prod.mk.inj hkey).1
      refine (hharmless t ht a ha hkey x hown).2 hx' e he hev ?_ ?_ hx
      · exact htopic.symm.trans (Prod.mk.inj hkey).2
      · exact fun heq => hekey t ht (heq.trans hkey)
    · intro a ha x hx b hb hkey hnone
      rcases h.only b hb with ⟨-, t, ht, hbkey⟩ | ⟨hb, -⟩
      · exact (hharmless t ht a ha (hkey.symm.trans hbkey) x hx).1
      · obtain rfl := Table.eq_of_key_eq hb ha hkey
        rw [hnone] at hx
        cases hx

end Grants

end Database

end Manager
end CoopMessenger
