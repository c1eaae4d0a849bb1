import CoopMessenger.Manager.Reservations
import CoopMessenger.Server.Revocation

/-!
# Leaving a topic

The `/flieg` command removes the entry of a user for a topic.  Whether that
takes access away depends on what decides next: a wider entry of the user, an
entry of `everyone`, or the default access.

**Results.**
* `selectTopicPerms_leave`: leaving removes rows from every ranked result.
* `leave_never_grants_iff`: when leaving gives no new access.
-/

namespace CoopMessenger
namespace Server

open Library Manager Manager.Database

namespace Leaving

section Model

/-- The database after `/flieg`. -/
def leave
    (db : Database)
    (u : User)
    (topic : String) : Database :=
  (Revocation.handleFlieg (Revocation.initial db []) u topic).1.db

/-- The rows that leaving removes. -/
def leaves
    (db : Database)
    (username topic : String)
    (a : AccessRow) : Bool :=
  !"dm_".toList.isPrefixOf topic.toList && allowedTopicPattern topic &&
    (db.userID username).any
      (fun id => decide (a.userId = id ∨ a.ownerUserId = some id)) &&
    decide (a.topic.1 = toSQLWildcard topic)

/-- What the first of the ranked entries grants, or else the default access. -/
def decided
    (defaultAccess : Permission) :
    List Entry → Permission
  | [] => defaultAccess
  | e :: _ => e.row.permission

/--
Whenever the entry that decides is one that the user leaves, what decides next
grants no more.
-/
def LeavesNoMore
    (db : Database)
    (defaultAccess : Permission)
    (u : User)
    (topic : String) : Prop :=
  ∀ p e rest, selectTopicPerms db u.name p = e :: rest →
    leaves db u.name topic e.row = true →
      let next := decided defaultAccess
        (rest.filter (fun e => !leaves db u.name topic e.row))
      (next.isRead = true → e.row.permission.isRead = true) ∧
        (next.isWrite = true → e.row.permission.isWrite = true)

end Model

section Effect

variable {db : Database}
variable {defaultAccess : Permission}
variable {u : User}
variable {topic : String}

/-- Leaving deletes rows, and does nothing else. -/
theorem leave_eq
    (db : Database) (u : User) (topic : String) :
    leave db u topic =
      { db with access := db.access.delete (leaves db u.name topic) } := by
  have hkeep : (∀ a, leaves db u.name topic a = false) →
      db = { db with access := db.access.delete (leaves db u.name topic) } := by
    intro hnone
    have haccess : db.access.delete (leaves db u.name topic) = db.access := by
      refine Table.ext (List.filter_eq_self.mpr fun a _ => ?_)
      simp [hnone a]
    rw [haccess]
  unfold leave Revocation.handleFlieg
  split
  case isTrue hempty =>
    apply hkeep
    intro a
    subst hempty
    simp [leaves, allowedTopicPattern]
  case isFalse hempty =>
    split
    case isTrue hdm =>
      apply hkeep
      intro a
      simp only [leaves, hdm, Bool.not_true, Bool.false_and]
    case isFalse hdm =>
      dsimp only [Revocation.initial, resetAccess]
      by_cases hname : (!allowedUsername u.name && decide (u.name ≠ everyone) &&
          decide (u.name ≠ "")) = true
      · rw [if_pos hname]
        apply hkeep
        intro a
        cases hid : db.userID u.name with
        | none =>
            simp [leaves, hid]
        | some id =>
            rcases name_of_userID hid with heveryone | hallowed
            · simp [heveryone] at hname
            · simp [hallowed] at hname
      · rw [if_neg hname]
        cases hpattern : allowedTopicPattern topic with
        | false =>
            rw [if_pos (by simp [hempty])]
            apply hkeep
            intro a
            simp [leaves, hpattern]
        | true =>
            have hleaves : leaves db u.name topic = fun a =>
                (db.userID u.name).any
                  (fun id => decide (a.userId = id ∨ a.ownerUserId = some id)) &&
                decide (a.topic.1 = toSQLWildcard topic) := by
              funext a
              simp only [leaves, hpattern, Bool.eq_false_of_not_eq_true hdm,
                Bool.not_false, Bool.true_and]
            rw [if_neg (by simp), if_neg (fun h => hempty h.2), if_neg hempty,
              hleaves]
            rfl

/-- Leaving removes rows from every ranked result. -/
theorem selectTopicPerms_leave
    (username p : String) :
    selectTopicPerms (leave db u topic) username p =
      (selectTopicPerms db username p).filter
        (fun e => !leaves db u.name topic e.row) := by
  have hentries : (leave db u topic).entries =
      db.entries.filter (fun e => !leaves db u.name topic e.row) := by
    rw [leave_eq, entries, entries, Table.delete, List.filterMap_filter,
      List.filter_filterMap]
    refine List.filterMap_congr fun a _ => ?_
    cases hleaves : leaves db u.name topic a with
    | true =>
        cases db.users.find? a.userId <;> simp [hleaves, Option.filter]
    | false =>
        cases db.users.find? a.userId <;> simp [hleaves, Option.filter]
  rw [selectTopicPerms, hentries, selectTopicPerms, ← orderByDesc_filter,
    List.filter_filter, List.filter_filter]
  simp only [Bool.and_comm]

/-- The decision for a user who is not an administrator. -/
theorem authorize_eq_decided
    (hadmin : u.role ≠ .admin)
    (p : String) (perm : Permission) :
    authorize db defaultAccess (some u) p perm =
      resolvePerms (decided defaultAccess (selectTopicPerms db u.name p))
        perm := by
  have hname : usernameOf (some u) = u.name := rfl
  have hordinary : isAdmin (some u) = false := by
    simpa [isAdmin] using hadmin
  rw [authorize_eq_top hordinary, hname]
  cases selectTopicPerms db u.name p <;> rfl

/-- When leaving gives no new access. -/
theorem leave_never_grants_iff
    (db : Database)
    (defaultAccess : Permission)
    (u : User)
    (topic : String) :
    (∀ p perm,
      authorize (leave db u topic) defaultAccess (some u) p perm = .ok () →
        authorize db defaultAccess (some u) p perm = .ok ())
      ↔
    u.role = .admin ∨ LeavesNoMore db defaultAccess u topic := by
  by_cases hadmin : u.role = .admin
  · simp [authorize, isAdmin, hadmin]
  simp only [authorize_eq_decided hadmin, selectTopicPerms_leave,
    resolvePerms_eq_ok_iff, hadmin, false_or]
  constructor
  · intro hmono p e rest hselect hleaves
    have hafter : (selectTopicPerms db u.name p).filter
        (fun e => !leaves db u.name topic e.row) =
        rest.filter (fun e => !leaves db u.name topic e.row) := by
      simp [hselect, hleaves]
    constructor
    · intro hread
      have hbefore := hmono p .read (Or.inl ⟨rfl, by rwa [hafter]⟩)
      rw [hselect] at hbefore
      simpa [decided] using hbefore
    · intro hwrite
      have hbefore := hmono p .write (Or.inr ⟨rfl, by rwa [hafter]⟩)
      rw [hselect] at hbefore
      simpa [decided] using hbefore
  · intro hless p perm hafter
    cases hselect : selectTopicPerms db u.name p with
    | nil =>
        rwa [hselect] at hafter
    | cons e rest =>
        rw [hselect] at hafter
        cases hleaves : leaves db u.name topic e.row with
        | false =>
            simpa [hleaves, decided] using hafter
        | true =>
            obtain ⟨hread, hwrite⟩ := hless p e rest hselect hleaves
            rw [List.filter_cons_of_neg (by simp [hleaves])] at hafter
            rcases hafter with ⟨hperm, hnext⟩ | ⟨hperm, hnext⟩
            · exact Or.inl ⟨hperm, hread hnext⟩
            · exact Or.inr ⟨hperm, hwrite hnext⟩

end Effect

section Example

def exampleUser : User :=
  ⟨"u_a", "alice", .user, some ⟨"basic", 1⟩, ⟨0, 0, 0⟩, false⟩

theorem allowedTopicPattern_news :
    allowedTopicPattern "news" = true := by
  decide

/-- The stored form of `news`. -/
def exampleTopic : StoredPattern :=
  .ofPattern "news" allowedTopicPattern_news

/-- Everyone may read and write `news`, but alice may not. -/
def exampleDatabase : Database :=
  twoUsers
    { rows :=
        [⟨"u_a", exampleTopic, false, false, none, false⟩,
          ⟨everyoneID, exampleTopic, true, true, none, false⟩]
      nodup := by decide }

/-- By leaving, alice gets rid of the entry that denies her access. -/
theorem leaving_lifts_denial :
    authorize exampleDatabase .denyAll (some exampleUser) "news" .read ≠
        .ok () ∧
      authorize (leave exampleDatabase exampleUser "news") .denyAll
        (some exampleUser) "news" .read = .ok () := by
  constructor <;> decide

end Example

end Leaving

end Server
end CoopMessenger
