import CoopMessenger.Manager.Reservations

/-!
# Member profiles

`ProfilesByTopic` of `user/manager.go` lists the profiles of the users who have
an access entry for a topic.  Its query compares the stored patterns with the
topic as it is given.

**Results.**
* `mem_profilesByTopic_iff`: which profiles the query returns.
* `listsMembers_iff`: when these are the profiles of the members.
-/

namespace CoopMessenger
namespace Manager

open Library

section Model

/-- The columns of `user_profile` that the listing reads. -/
structure ProfileText where
  userId : String
  displayName : String
  bio : String
  avatarId : String
  lastSeen : Int
deriving DecidableEq, Repr

structure Profile where
  username : String
  displayName : String
  bio : String
  avatarURL : String
  lastSeen : Int
deriving DecidableEq, Repr

/-- A user joined with its profile row, which may be missing. -/
def profileOf
    (u : User) :
    Option ProfileText → Profile
  | none => ⟨u.name, "", "", "", 0⟩
  | some t =>
      ⟨u.name, t.displayName, t.bio,
        if t.avatarId = "" then "" else "/v1/coop/profile/avatar/" ++ t.avatarId,
        t.lastSeen⟩

/-- Returns all profiles for users with access to a topic. -/
def profilesByTopic
    (db : Database)
    (texts : Table ProfileText.userId)
    (topic : String) : List Profile :=
  (db.access.rows.filter (fun a => decide (a.topic.1 = topic))).filterMap
    (fun a =>
      ((db.users.find? a.userId).filter
        (fun u => decide (u.role ≠ .anonymous))).map
          (fun u => profileOf u (texts.find? u.id)))

/-- The user is not anonymous and has an entry whose visible pattern is the topic. -/
def IsMember
    (db : Database)
    (topic : String)
    (u : User) : Prop :=
  u ∈ db.users ∧ u.role ≠ .anonymous ∧
    ∃ a ∈ db.access, a.userId = u.id ∧ a.topic.visible = topic

/-- One profile for each member, and no other. -/
def ListsMembers
    (db : Database)
    (texts : Table ProfileText.userId)
    (topic : String) : Prop :=
  ((profilesByTopic db texts topic).map Profile.username).Nodup ∧
    ∀ p, p ∈ profilesByTopic db texts topic ↔
      ∃ u, IsMember db topic u ∧ p = profileOf u (texts.find? u.id)

end Model

section Listing

variable {db : Database}
variable {texts : Table ProfileText.userId}
variable {topic : String}

@[simp] theorem profileOf_username
    (u : User) (t : Option ProfileText) :
    (profileOf u t).username = u.name := by
  cases t <;> rfl

/-- The profiles of the users with an entry stored as the text of the topic. -/
theorem mem_profilesByTopic_iff
    {p : Profile} :
    p ∈ profilesByTopic db texts topic
      ↔
    ∃ u ∈ db.users, u.role ≠ .anonymous ∧
      (∃ a ∈ db.access, a.userId = u.id ∧ a.topic.1 = topic) ∧
      p = profileOf u (texts.find? u.id) := by
  simp only [profilesByTopic, List.mem_filterMap, List.mem_filter,
    decide_eq_true_eq, Option.map_eq_some_iff, Option.filter_eq_some_iff,
    Table.find?_eq_some_iff]
  constructor
  · rintro ⟨a, ⟨ha, htopic⟩, u, ⟨⟨hu, hid⟩, hrole⟩, rfl⟩
    exact ⟨u, hu, hrole, ⟨a, ha, hid.symm, htopic⟩, rfl⟩
  · rintro ⟨u, hu, hrole, ⟨a, ha, hid, htopic⟩, rfl⟩
    exact ⟨a, ⟨ha, htopic⟩, u, ⟨⟨hu, hid.symm⟩, hrole⟩, rfl⟩

/-- Nobody is listed twice: a user has one entry for each stored pattern. -/
theorem nodup_profilesByTopic :
    ((profilesByTopic db texts topic).map Profile.username).Nodup := by
  have hrows : (db.access.rows.filter
      (fun a => decide (a.topic.1 = topic))).Pairwise
        (fun a b => a.userId ≠ b.userId) := by
    have hkeys : (db.access.rows.filter
        (fun a => decide (a.topic.1 = topic))).Pairwise
          (fun a b => a.key ≠ b.key) :=
      (List.pairwise_map.mp db.access.nodup).sublist List.filter_sublist
    refine hkeys.imp_of_mem ?_
    intro a b ha hb hne hid
    have hatopic : a.topic.1 = topic := by
      simpa using (List.mem_filter.mp ha).2
    have hbtopic : b.topic.1 = topic := by
      simpa using (List.mem_filter.mp hb).2
    exact hne (Prod.ext hid (Subtype.ext (hatopic.trans hbtopic.symm)))
  rw [List.Nodup, List.pairwise_map, profilesByTopic, List.pairwise_filterMap]
  refine hrows.imp ?_
  intro a b hne p hp q hq hname
  simp only [Option.map_eq_some_iff, Option.filter_eq_some_iff,
    Table.find?_eq_some_iff] at hp hq
  obtain ⟨u, ⟨⟨hu, hid⟩, -⟩, rfl⟩ := hp
  obtain ⟨w, ⟨⟨hw, hid'⟩, -⟩, rfl⟩ := hq
  rw [profileOf_username, profileOf_username] at hname
  have huw := Database.eq_of_name_eq hu hw hname
  exact hne (by rw [← hid, ← hid', huw])

/-- Text with an underscore is no stored pattern unless a backslash goes before. -/
theorem stored_ne_of_underscore
    (s : StoredPattern)
    (h : allowedTopic topic = true)
    (hunder : '_' ∈ topic.toList) :
    s.1 ≠ topic := by
  intro heq
  have hback : '\\' ∈ escapeUnderscoreChars
      (replaceChar '*' '%' s.visible.toList) := by
    have hmem : '_' ∈ escapeUnderscoreChars
        (replaceChar '*' '%' s.visible.toList) := by
      have hstored : toSQLWildcard s.visible = s.1 := s.2.2
      rw [← heq, ← hstored] at hunder
      simpa [toSQLWildcard, escapeUnderscore] using hunder
    obtain ⟨c, hmemc, hmem⟩ := List.mem_flatMap.mp hmem
    refine List.mem_flatMap.mpr ⟨c, hmemc, ?_⟩
    by_cases hc : c = '_'
    · simp [hc]
    · rw [if_neg hc] at hmem
      exact absurd (List.mem_singleton.mp hmem).symm hc
  have htopic : '\\' ∈ topic.toList := by
    have hstored : toSQLWildcard s.visible = s.1 := s.2.2
    rw [← heq, ← hstored]
    simpa [toSQLWildcard, escapeUnderscore] using hback
  simp only [allowedTopic, Bool.and_eq_true, List.all_eq_true] at h
  exact absurd (h.2 '\\' htopic) (by decide)

/-- Without underscores there is nothing to escape. -/
theorem escapeUnderscore_of_no_underscore
    (hunder : '_' ∉ topic.toList) :
    escapeUnderscore topic = topic := by
  have hchars : ∀ s : List Char, '_' ∉ s → escapeUnderscoreChars s = s := by
    intro s hs
    induction s with
    | nil =>
        rfl
    | cons c s ih =>
        rw [List.mem_cons, not_or] at hs
        rw [escapeUnderscoreChars_cons, if_neg (Ne.symm hs.1), ih hs.2]
        rfl
  rw [escapeUnderscore, hchars _ hunder, String.ofList_toList]

/-- When the listing consists of the profiles of the members. -/
theorem listsMembers_iff
    (db : Database)
    (texts : Table ProfileText.userId)
    {topic : String}
    (h : allowedTopic topic = true) :
    ListsMembers db texts topic
      ↔
    '_' ∉ topic.toList ∨ ∀ u, ¬ IsMember db topic u := by
  by_cases hunder : '_' ∈ topic.toList
  · have hempty : ∀ p, p ∉ profilesByTopic db texts topic := by
      intro p hp
      obtain ⟨u, -, -, ⟨a, -, -, htopic⟩, -⟩ := mem_profilesByTopic_iff.mp hp
      exact stored_ne_of_underscore a.topic h hunder htopic
    constructor
    · intro hlists
      refine Or.inr fun u hu => ?_
      exact hempty _ ((hlists.2 (profileOf u (texts.find? u.id))).mpr
        ⟨u, hu, rfl⟩)
    · rintro (hno | hnone)
      · exact absurd hunder hno
      · refine ⟨nodup_profilesByTopic, fun p => ?_⟩
        constructor
        · intro hp
          exact absurd hp (hempty p)
        · rintro ⟨u, hu, -⟩
          exact absurd hu (hnone u)
  · refine iff_of_true ⟨nodup_profilesByTopic, fun p => ?_⟩ (Or.inl hunder)
    have hstored : ∀ a : AccessRow, a.topic.1 = topic ↔
        a.topic.visible = topic := by
      intro a
      rw [← stored_eq_escapeUnderscore_iff h,
        escapeUnderscore_of_no_underscore hunder]
    simp only [mem_profilesByTopic_iff, IsMember, hstored]
    constructor
    · rintro ⟨u, hu, hrole, hentry, rfl⟩
      exact ⟨u, ⟨hu, hrole, hentry⟩, rfl⟩
    · rintro ⟨u, ⟨hu, hrole, hentry⟩, rfl⟩
      exact ⟨u, hu, hrole, hentry, rfl⟩

end Listing

section Example

/-- Alice gets access to a group, and is not listed. -/
theorem group_member_not_listed :
    ∃ db, (twoUsers .empty).allowAccess "alice" "grp_a" .readWrite = .ok db ∧
      ¬ ListsMembers db .empty "grp_a" := by
  refine ⟨_, rfl, fun h => ?_⟩
  have hlisted := (h.2 (profileOf
    ⟨"u_a", "alice", .user, some ⟨"basic", 1⟩, ⟨0, 0, 0⟩, false⟩ none)).mpr
      ⟨_, ⟨by decide, by decide, _, List.mem_cons_self, rfl, by decide⟩,
        rfl⟩
  revert hlisted
  decide

/-- In a topic without underscores she is. -/
theorem topic_member_listed :
    ∃ db, (twoUsers .empty).allowAccess "alice" "group" .readWrite = .ok db ∧
      ListsMembers db .empty "group" :=
  ⟨_, rfl, (listsMembers_iff _ _ (by decide)).mpr (Or.inl (by decide))⟩

end Example

end Manager
end CoopMessenger
