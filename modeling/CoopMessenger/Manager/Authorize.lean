import CoopMessenger.Library.Ranking
import CoopMessenger.Manager.Database

/-!
# Authorization

`authorize` is the access check of `user/manager.go`: one query selects the
entries of the user and of `everyone` that match the topic, ranks them, and the
first one decides.  Over it stands the documented precedence: which entries
apply and which one decides, in terms of the patterns a user sees.

The two differ in how patterns match (`LIKE` ignores the case of ASCII letters)
and in how long a pattern is (the stored form doubles every underscore).

**Results.**
* `authorize_eq_of_firstWriter`, `authorize_eq_of_none`: what the query decides.
* `documented_of_longestAgree`: if both readings put the same entries first,
  the code follows the documentation.
* `longestAgree_of_documented`: only then, once the permissions may vary.
-/

namespace CoopMessenger
namespace Manager

open Library

/-- An access entry joined with the name of its user. -/
structure Entry where
  name : String
  row : AccessRow
deriving DecidableEq

section Query

/-- `FROM user_access a JOIN user u ON u.id = a.user_id` -/
def Database.entries
    (db : Database) : List Entry :=
  db.access.rows.filterMap
    (fun a => (db.users.find? a.userId).map (fun u => ⟨u.name, a⟩))

theorem mem_entries_iff
    {db : Database} {e : Entry} :
    e ∈ db.entries
      ↔
    e.row ∈ db.access ∧
      ∃ u ∈ db.users, u.id = e.row.userId ∧ u.name = e.name := by
  simp only [Database.entries, List.mem_filterMap, Option.map_eq_some_iff,
    Table.find?_eq_some_iff]
  constructor
  · rintro ⟨a, ha, u, ⟨hu, hid⟩, rfl⟩
    exact ⟨ha, u, hu, hid, rfl⟩
  · rintro ⟨ha, u, hu, hid, hname⟩
    exact ⟨e.row, ha, u, ⟨hu, hid⟩, by rw [hname]⟩

/-- An entry is determined by its user and its pattern. -/
theorem entry_eq_of_key_eq
    {db : Database} {e e' : Entry}
    (he : e ∈ db.entries) (he' : e' ∈ db.entries)
    (h : e.row.key = e'.row.key) :
    e = e' := by
  obtain ⟨ha, u, hu, hid, hname⟩ := mem_entries_iff.mp he
  obtain ⟨ha', u', hu', hid', hname'⟩ := mem_entries_iff.mp he'
  have hrow : e.row = e'.row := Table.eq_of_key_eq ha ha' h
  have huser : u = u' := by
    apply Table.eq_of_key_eq hu hu'
    rw [hid, hid', hrow]
  cases e
  cases e'
  simp_all

/-- The name of an entry is `everyone` or one that a user can have. -/
theorem entry_name
    {db : Database} {e : Entry}
    (he : e ∈ db.entries) :
    e.name = everyone ∨ allowedUsername e.name = true := by
  obtain ⟨-, u, hu, -, hname⟩ := mem_entries_iff.mp he
  rw [← hname]
  exact db.names_allowed u hu

/-- `u.user, LENGTH(a.topic), a.write` -/
def topicPermsKey
    (e : Entry) : String ×ₗ Nat ×ₗ Bool :=
  toLex (e.name, toLex (e.row.topic.1.toList.length, e.row.write))

/-- The entries of the user and of `everyone` that match the topic, ranked. -/
def selectTopicPerms
    (db : Database)
    (username topic : String) : List Entry :=
  orderByDesc topicPermsKey
    (db.entries.filter (fun e =>
      (decide (e.name = everyone) || decide (e.name = username)) &&
        sqlLike '\\' topic e.row.topic.1))

/-- Does `base` cover the requested permission? -/
def resolvePerms
    (base perm : Permission) : Except Error Unit :=
  if perm = .read ∧ base.isRead = true then
    .ok ()
  else if perm = .write ∧ base.isWrite = true then
    .ok ()
  else
    .error .unauthorized

/-- The name under which a user is looked up; `none` is the anonymous user. -/
def usernameOf (user : Option User) : String :=
  (user.map User.name).getD everyone

/-- May the user access the topic with the requested permission? -/
def authorize
    (db : Database)
    (defaultAccess : Permission)
    (user : Option User)
    (topic : String)
    (perm : Permission) : Except Error Unit :=
  if isAdmin user then
    .ok ()
  else
    match (selectTopicPerms db (usernameOf user) topic).head? with
    | none => resolvePerms defaultAccess perm
    | some e => resolvePerms e.row.permission perm

theorem resolvePerms_eq_ok_iff
    {base perm : Permission} :
    resolvePerms base perm = .ok ()
      ↔
    (perm = .read ∧ base.isRead = true) ∨
      (perm = .write ∧ base.isWrite = true) := by
  unfold resolvePerms
  split
  case isTrue h =>
    simp [h]
  case isFalse h =>
    split
    case isTrue h' =>
      simp [h']
    case isFalse h' =>
      simp only [reduceCtorEq, false_iff]
      rintro (hread | hwrite)
      · exact h hread
      · exact h' hwrite

/-- The first of the ranked entries decides, or else the default access. -/
theorem authorize_eq_top
    {db : Database} {defaultAccess : Permission} {user : Option User}
    (hadmin : isAdmin user = false)
    (topic : String) (perm : Permission) :
    authorize db defaultAccess user topic perm =
      resolvePerms
        (((selectTopicPerms db (usernameOf user) topic).head?.map
          (fun e => e.row.permission)).getD defaultAccess) perm := by
  rw [authorize, hadmin, if_neg (by decide)]
  cases (selectTopicPerms db (usernameOf user) topic).head? <;> rfl

/-- The database after a grant whose key is free: one more entry, scanned last. -/
theorem entries_allowAccess
    {db db' : Database} {username topic : String} {permission : Permission}
    (hfree : ∀ a ∈ db.access, db.userID username = some a.userId →
      a.topic.1 ≠ toSQLWildcard topic)
    (h : db.allowAccess username topic permission = .ok db') :
    ∃ row : AccessRow,
      db'.entries = db.entries ++ [⟨username, row⟩] ∧
      db'.access.rows = db.access.rows ++ [row] ∧
      db.userID username = some row.userId ∧
      row.topic.1 = toSQLWildcard topic ∧ row.permission = permission ∧
      row.write = permission.isWrite := by
  unfold Database.allowAccess at h
  split at h
  · cases h
  · split at h
    case isFalse =>
      cases h
    case isTrue hp =>
      unfold Database.upsertUserAccess at h
      cases hid : db.userID username with
      | none =>
          simp [hid] at h
      | some id =>
          obtain ⟨u, hu, hname, huid⟩ := Database.userID_eq_some_iff.mp hid
          simp only [hid, if_true, Except.ok.injEq] at h
          have hnone : db.access.find? (id, StoredPattern.ofPattern topic hp) =
              none := by
            refine Table.find?_eq_none_iff.mpr fun a ha hkey => ?_
            obtain ⟨haid, hatopic⟩ := Prod.mk.inj hkey
            refine hfree a ha (by rw [hid, ← haid]) ?_
            rw [hatopic, StoredPattern.ofPattern_val]
          have hrows : db'.access.rows = db.access.rows ++
              [⟨id, .ofPattern topic hp, permission.isRead,
                permission.isWrite, none, false⟩] := by
            rw [← h]
            refine Table.rows_upsert_of_free ?_ ?_
            · exact fun _ => rfl
            · exact hnone
          have husers : db'.users = db.users := by
            rw [← h]
          have hfind : db.users.find? id = some u :=
            Table.find?_eq_some_iff.mpr ⟨hu, huid⟩
          refine ⟨_, ?_, hrows, rfl, rfl, newPermission_bits permission, rfl⟩
          rw [Database.entries, hrows, husers, List.filterMap_append,
            Database.entries]
          simp [hfind, hname]

end Query

section Precedence

variable (select : StoredPattern → Bool)
variable (length : StoredPattern → Nat)

/-- An entry of the user or of `everyone` whose pattern selects the topic. -/
def Applies
    (db : Database)
    (username : String)
    (e : Entry) : Prop :=
  e ∈ db.entries ∧ (e.name = username ∨ e.name = everyone) ∧
    select e.row.topic = true

/-- Own entries come first, then longer patterns. -/
def precedence
    (username : String)
    (e : Entry) : Bool ×ₗ Nat :=
  toLex (decide (e.name = username), length e.row.topic)

theorem precedence_le_iff
    {username : String} {e e' : Entry} :
    precedence length username e ≤ precedence length username e'
      ↔
    decide (e.name = username) < decide (e'.name = username) ∨
      (decide (e.name = username) = decide (e'.name = username) ∧
        length e.row.topic ≤ length e'.row.topic) :=
  Prod.Lex.toLex_le_toLex

/-- No applicable entry precedes this one. -/
def Foremost
    (db : Database)
    (username : String) : Entry → Prop :=
  Best (Applies select db username) (precedence length username)

/-- A foremost entry; one that grants write access if there is such a one. -/
def FirstWriter
    (db : Database)
    (username : String) : Entry → Prop :=
  Best (Applies select db username)
    (fun e => toLex (precedence length username e, e.row.write))

/-- An applicable entry gives a foremost one. -/
theorem exists_foremost
    {db : Database} {username : String} {e : Entry}
    (he : Applies select db username e) :
    ∃ m, Foremost select length db username m := by
  classical
  have hmem : e ∈ db.entries.filter
      (fun x => decide (Applies select db username x)) := by
    simp [he, he.1]
  obtain ⟨m, hm, hmax⟩ :=
    exists_best (precedence length username) hmem
  have hiff : ∀ x,
      x ∈ db.entries.filter (fun x => decide (Applies select db username x))
        ↔ Applies select db username x := by
    intro x
    simp only [List.mem_filter, decide_eq_true_eq, and_iff_right_iff_imp]
    exact fun hx => hx.1
  exact ⟨m, (hiff m).mp hm, fun y hy => hmax y ((hiff y).mpr hy)⟩

/-- If a foremost entry is the only one that grants anything, it decides. -/
theorem FirstWriter.eq_of_only
    {db : Database} {username : String} {e m : Entry}
    (he : FirstWriter select length db username e)
    (hm : Foremost select length db username m)
    (hwrite : m.row.write = true)
    (honly : ∀ x ∈ db.entries, x.row.write = true → x = m) :
    e = m :=
  Best.eq_of_only he hm hwrite (fun x hx => honly x hx.1)

end Precedence

section Readings

/-- The pattern selects the topic in the query. -/
def likes
    (topic : String)
    (s : StoredPattern) : Bool :=
  sqlLike '\\' topic s.1

/-- `LENGTH(a.topic)` -/
def storedLength (s : StoredPattern) : Nat :=
  s.1.toList.length

/-- The user-visible pattern matches the topic. -/
def globs
    (topic : String)
    (s : StoredPattern) : Bool :=
  globMatch s.visible topic

/-- The length of the user-visible pattern. -/
def visibleLength (s : StoredPattern) : Nat :=
  s.visible.toList.length

/-- What the user-visible pattern matches, the query selects. -/
theorem likes_of_globs
    {topic : String} {s : StoredPattern}
    (h : globs topic s = true) :
    likes topic s = true := by
  have hs := sqlLike_of_globMatch s.2.1 h
  rwa [s.2.2] at hs

/-- A pattern without `*` matches exactly one topic. -/
theorem globs_of_no_star
    {topic : String} {s : StoredPattern}
    (h : '*' ∉ s.visible.toList) :
    globs topic s = true ↔ s.visible = topic :=
  globMatch_of_no_star h topic

/-- Stored patterns are longer by the number of their underscores. -/
theorem storedLength_eq
    (s : StoredPattern) :
    storedLength s = visibleLength s + s.visible.toList.count '_' := by
  have h := length_toSQLWildcard s.visible
  rwa [StoredPattern.visible, s.2.2] at h

/--
What the documentation promises: admins pass, otherwise the first applicable
entry decides, and the default access if there is none.
-/
inductive Documented
    (db : Database)
    (defaultAccess : Permission)
    (user : Option User)
    (topic : String)
    (perm : Permission) : Except Error Unit → Prop
  | admin
      (hadmin : isAdmin user = true) :
      Documented db defaultAccess user topic perm (.ok ())
  | entry
      (hadmin : isAdmin user = false)
      {e : Entry}
      (he : FirstWriter (globs topic) visibleLength db (usernameOf user) e) :
      Documented db defaultAccess user topic perm
        (resolvePerms e.row.permission perm)
  | default
      (hadmin : isAdmin user = false)
      (hnone : ∀ e, ¬ Applies (globs topic) db (usernameOf user) e) :
      Documented db defaultAccess user topic perm
        (resolvePerms defaultAccess perm)

/--
The entries that come first are the same whether patterns are read as the query
reads them or as the user sees them.  This does not depend on what they grant.
-/
def LongestAgree
    (db : Database)
    (username topic : String) : Prop :=
  ∀ e,
    Foremost (likes topic) storedLength db username e
      ↔
    Foremost (globs topic) visibleLength db username e

end Readings

section Code

variable {db : Database}
variable {defaultAccess perm : Permission}
variable {user : Option User}
variable {topic : String}

theorem applies_likes_iff
    {username : String} {e : Entry} :
    e ∈ selectTopicPerms db username topic
      ↔
    Applies (likes topic) db username e := by
  simp only [selectTopicPerms, orderByDesc, List.mem_insertionSort,
    List.mem_filter, Bool.and_eq_true, Bool.or_eq_true, decide_eq_true_eq,
    Applies, likes, or_comm]

/-- Between the user's entries and those of `everyone`, names order as owners. -/
theorem name_le_iff
    {username : String} {e e' : Entry}
    (he : Applies (likes topic) db username e)
    (he' : Applies (likes topic) db username e') :
    (e.name < e'.name ↔
      decide (e.name = username) < decide (e'.name = username)) ∧
    (e.name = e'.name ↔
      decide (e.name = username) = decide (e'.name = username)) := by
  have hlt : ∀ x, Applies (likes topic) db username x →
      x.name ≠ everyone → everyone < x.name := by
    intro x hx hne
    rcases entry_name hx.1 with hname | hname
    · exact absurd hname hne
    · exact everyone_lt_of_allowedUsername hname
  by_cases hown : e.name = username
  · by_cases hown' : e'.name = username
    · simp [hown, hown']
    · have heveryone := he'.2.1.resolve_left hown'
      have hne : e.name ≠ everyone := by
        rw [hown, ← heveryone]
        exact Ne.symm hown'
      have hgt := hlt e he hne
      rw [heveryone] at hown' ⊢
      rw [hown] at hne hgt ⊢
      have hnlt : ¬ username < everyone := not_lt_of_gt hgt
      simp [hown', hne, hnlt]
  · have heveryone := he.2.1.resolve_left hown
    by_cases hown' : e'.name = username
    · have hne : e'.name ≠ everyone := by
        rw [hown', ← heveryone]
        exact Ne.symm hown
      have hgt := hlt e' he' hne
      rw [heveryone] at hown ⊢
      rw [hown'] at hne hgt ⊢
      simp [hown, hgt]
    · have heveryone' := he'.2.1.resolve_left hown'
      rw [heveryone] at hown
      simp [heveryone, heveryone', hown]

/-- The ranking of the query, in terms of precedence. -/
theorem topicPermsKey_le
    {username : String} {e e' : Entry}
    (he : Applies (likes topic) db username e)
    (he' : Applies (likes topic) db username e')
    (h : topicPermsKey e ≤ topicPermsKey e') :
    toLex (precedence storedLength username e, e.row.write) ≤
      toLex (precedence storedLength username e', e'.row.write) := by
  obtain ⟨hlt, heq⟩ := name_le_iff he he'
  simp only [topicPermsKey, Prod.Lex.toLex_le_toLex] at h
  simp only [precedence, Prod.Lex.toLex_le_toLex, Prod.Lex.toLex_lt_toLex,
    EmbeddingLike.apply_eq_iff_eq, Prod.mk.injEq, storedLength]
  rcases h with hname | ⟨hname, hlen | ⟨hlen, hwrite⟩⟩
  · exact Or.inl (Or.inl (hlt.mp hname))
  · exact Or.inl (Or.inr ⟨heq.mp hname, hlen⟩)
  · exact Or.inr ⟨⟨heq.mp hname, hlen⟩, hwrite⟩

/-- The first row of the query is a foremost entry, writers first. -/
theorem firstWriter_of_head
    {username : String} {e : Entry}
    (h : (selectTopicPerms db username topic).head? = some e) :
    FirstWriter (likes topic) storedLength db username e := by
  obtain ⟨hmem, hmax⟩ := top_best h
  have hiff : ∀ x,
      x ∈ db.entries.filter (fun e =>
        (decide (e.name = everyone) || decide (e.name = username)) &&
          sqlLike '\\' topic e.row.topic.1)
        ↔ Applies (likes topic) db username x := by
    intro x
    rw [← applies_likes_iff, selectTopicPerms, orderByDesc,
      List.mem_insertionSort]
  have hbest : Best (Applies (likes topic) db username) topicPermsKey e :=
    ⟨(hiff e).mp hmem, fun y hy => hmax y ((hiff y).mpr hy)⟩
  exact hbest.mono (fun y z hy hz hle => topicPermsKey_le hy hz hle)

/-- Without an applicable entry the default access decides. -/
theorem authorize_eq_of_none
    (defaultAccess perm : Permission)
    (hadmin : isAdmin user = false)
    (hnone : ∀ e, ¬ Applies (likes topic) db (usernameOf user) e) :
    authorize db defaultAccess user topic perm =
      resolvePerms defaultAccess perm := by
  have hempty : selectTopicPerms db (usernameOf user) topic = [] := by
    rw [List.eq_nil_iff_forall_not_mem]
    intro e he
    exact hnone e (applies_likes_iff.mp he)
  simp [authorize, hadmin, hempty]

/-- With one, a foremost entry decides, one with write access first. -/
theorem authorize_eq_of_firstWriter
    (defaultAccess perm : Permission)
    (hadmin : isAdmin user = false)
    {e : Entry}
    (he : Applies (likes topic) db (usernameOf user) e) :
    ∃ m, FirstWriter (likes topic) storedLength db (usernameOf user) m ∧
      authorize db defaultAccess user topic perm =
        resolvePerms m.row.permission perm := by
  cases hhead : (selectTopicPerms db (usernameOf user) topic).head? with
  | none =>
      rw [List.head?_eq_none_iff] at hhead
      have hmem := applies_likes_iff.mpr he
      simp [hhead] at hmem
  | some m =>
      exact ⟨m, firstWriter_of_head hhead, by simp [authorize, hadmin, hhead]⟩

/-- Where both readings agree the code follows the documentation. -/
theorem documented_of_longestAgree
    (h : LongestAgree db (usernameOf user) topic) :
    Documented db defaultAccess user topic perm
      (authorize db defaultAccess user topic perm) := by
  cases hadmin : isAdmin user with
  | true =>
      have hok : authorize db defaultAccess user topic perm = .ok () := by
        simp [authorize, hadmin]
      rw [hok]
      exact .admin hadmin
  | false =>
      by_cases hsome : ∃ e, Applies (likes topic) db (usernameOf user) e
      · obtain ⟨e, he⟩ := hsome
        obtain ⟨m, hm, heq⟩ :=
          authorize_eq_of_firstWriter defaultAccess perm hadmin he
        rw [heq]
        have hfirst := (h m).mp hm.of_lex
        refine .entry hadmin (hfirst.lex ?_)
        intro z hz
        have hlike := (h z).mpr hz
        have hle := hm.2 z hlike.1
        rw [Prod.Lex.toLex_le_toLex] at hle
        rcases hle with hlt | ⟨-, hle⟩
        · exact absurd (hlike.2 m hm.1) (not_le_of_gt hlt)
        · exact hle
      · rw [not_exists] at hsome
        rw [authorize_eq_of_none defaultAccess perm hadmin hsome]
        refine .default hadmin ?_
        rintro e ⟨hmem, hname, hglob⟩
        exact hsome e ⟨hmem, hname, likes_of_globs hglob⟩

end Code

section Permissions

/-- The entry with another permission. -/
def AccessRow.withPermission
    (a : AccessRow)
    (p : Permission) : AccessRow :=
  { a with read := p.isRead, write := p.isWrite }

@[simp] theorem AccessRow.permission_withPermission
    (a : AccessRow) (p : Permission) :
    (a.withPermission p).permission = p :=
  newPermission_bits p

/-- The database whose entries grant what `perms` says. -/
def Database.withPermissions
    (db : Database)
    (perms : String × StoredPattern → Permission) : Database :=
  { db with
    access :=
      db.access.modify (fun a => a.withPermission (perms a.key))
        (fun _ => rfl) }

/-- The entry of that database for the same user and pattern. -/
def Entry.withPermissions
    (perms : String × StoredPattern → Permission)
    (e : Entry) : Entry :=
  { e with row := e.row.withPermission (perms e.row.key) }

variable {db : Database}
variable (perms : String × StoredPattern → Permission)

theorem mem_access_withPermissions_iff
    {a : AccessRow} :
    a ∈ (db.withPermissions perms).access
      ↔
    ∃ b ∈ db.access, b.withPermission (perms b.key) = a := by
  refine Table.mem_modify_iff ?_
  exact fun _ => rfl

/-- Some assignment of permissions is the one the database has. -/
theorem exists_withPermissions_eq
    (db : Database) :
    ∃ perms, db.withPermissions perms = db := by
  refine ⟨fun k => ((db.access.find? k).map AccessRow.permission).getD .denyAll,
    ?_⟩
  have hrows : db.access.rows.map (fun a => a.withPermission
      (((db.access.find? a.key).map AccessRow.permission).getD .denyAll)) =
      db.access.rows := by
    refine (List.map_congr_left ?_).trans (List.map_id _)
    intro a ha
    have hfind : db.access.find? a.key = some a :=
      Table.find?_eq_some_iff.mpr ⟨ha, rfl⟩
    simp [hfind, AccessRow.withPermission, AccessRow.permission]
  simp only [Database.withPermissions, Table.modify, hrows]

theorem mem_entries_withPermissions_iff
    {e : Entry} :
    e ∈ (db.withPermissions perms).entries
      ↔
    ∃ e₀ ∈ db.entries, e₀.withPermissions perms = e := by
  rw [mem_entries_iff, mem_access_withPermissions_iff]
  constructor
  · rintro ⟨⟨a, ha, hrow⟩, u, hu, hid, hname⟩
    rw [← hrow] at hid
    exact ⟨⟨e.name, a⟩, mem_entries_iff.mpr ⟨ha, u, hu, hid, hname⟩,
      by simp [Entry.withPermissions, hrow]⟩
  · rintro ⟨e₀, he₀, rfl⟩
    obtain ⟨ha, huser⟩ := mem_entries_iff.mp he₀
    exact ⟨⟨e₀.row, ha, rfl⟩, huser⟩

variable (select : StoredPattern → Bool)
variable (length : StoredPattern → Nat)
variable {username : String}

theorem applies_withPermissions_iff
    {e : Entry} :
    Applies select (db.withPermissions perms) username e
      ↔
    ∃ e₀, Applies select db username e₀ ∧ e₀.withPermissions perms = e := by
  unfold Applies
  rw [mem_entries_withPermissions_iff]
  constructor
  · rintro ⟨⟨e₀, he₀, rfl⟩, hname, hselect⟩
    exact ⟨e₀, ⟨he₀, hname, hselect⟩, rfl⟩
  · rintro ⟨e₀, ⟨he₀, hname, hselect⟩, rfl⟩
    exact ⟨⟨e₀, he₀, rfl⟩, hname, hselect⟩

/-- Which entries come first does not depend on what they grant. -/
theorem foremost_withPermissions_iff
    {e : Entry}
    (he : e ∈ db.entries) :
    Foremost select length (db.withPermissions perms) username
        (e.withPermissions perms)
      ↔
    Foremost select length db username e := by
  constructor
  · rintro ⟨happ, hmax⟩
    obtain ⟨e₀, hm₀, heq⟩ := (applies_withPermissions_iff perms select).mp happ
    have hkey : e₀.row.key = e.row.key := by
      have := congrArg (fun x : Entry => x.row.key) heq
      exact this
    rw [entry_eq_of_key_eq hm₀.1 he hkey] at hm₀
    refine ⟨hm₀, ?_⟩
    intro y hy
    exact hmax (y.withPermissions perms)
      ((applies_withPermissions_iff perms select).mpr ⟨y, hy, rfl⟩)
  · rintro ⟨happ, hmax⟩
    refine ⟨(applies_withPermissions_iff perms select).mpr ⟨e, happ, rfl⟩, ?_⟩
    intro y hy
    obtain ⟨y₀, hy₀, rfl⟩ := (applies_withPermissions_iff perms select).mp hy
    exact hmax y₀ hy₀

/-- The agreement of the two readings does not depend on it either. -/
theorem longestAgree_withPermissions
    {topic : String}
    (h : LongestAgree db username topic) :
    LongestAgree (db.withPermissions perms) username topic := by
  intro e
  by_cases he : e ∈ (db.withPermissions perms).entries
  · obtain ⟨e₀, he₀, rfl⟩ := (mem_entries_withPermissions_iff _).mp he
    rw [foremost_withPermissions_iff _ _ _ he₀,
      foremost_withPermissions_iff _ _ _ he₀]
    exact h e₀
  · constructor
    · intro hlike
      exact absurd hlike.1.1 he
    · intro hglob
      exact absurd hglob.1.1 he

/-- Everything for one user and pattern, nothing for all others. -/
def loneWriter
    (e : Entry)
    (k : String × StoredPattern) : Permission :=
  if k = e.row.key then .readWrite else .denyAll

/-- The lone writer is the only entry with write access. -/
theorem eq_of_loneWriter
    {e x : Entry}
    (he : e ∈ db.entries)
    (hx : x ∈ (db.withPermissions (loneWriter e)).entries)
    (hwrite : x.row.write = true) :
    x = e.withPermissions (loneWriter e) := by
  obtain ⟨x₀, hx₀, rfl⟩ := (mem_entries_withPermissions_iff _).mp hx
  by_cases hkey : x₀.row.key = e.row.key
  · rw [entry_eq_of_key_eq hx₀ he hkey]
  · simp [Entry.withPermissions, AccessRow.withPermission, loneWriter, hkey,
      Permission.isWrite] at hwrite

theorem loneWriter_write
    (e : Entry) :
    (e.withPermissions (loneWriter e)).row.write = true := by
  simp [Entry.withPermissions, AccessRow.withPermission, loneWriter,
    Permission.isWrite]

theorem resolvePerms_write_eq_ok_iff
    {base : Permission} :
    resolvePerms base .write = .ok () ↔ base.isWrite = true := by
  unfold resolvePerms
  cases h : base.isWrite <;> simp

end Permissions

section Exactness

variable {db : Database}
variable {defaultAccess perm : Permission}
variable {user : Option User}
variable {topic : String}

/-- The outcomes documented for a user who is no admin. -/
theorem Documented.inv
    {r : Except Error Unit}
    (h : Documented db defaultAccess user topic perm r)
    (hadmin : isAdmin user = false) :
    (∃ e, FirstWriter (globs topic) visibleLength db (usernameOf user) e ∧
      r = resolvePerms e.row.permission perm) ∨
    ((∀ e, ¬ Applies (globs topic) db (usernameOf user) e) ∧
      r = resolvePerms defaultAccess perm) := by
  cases h with
  | admin hadmin' =>
      rw [hadmin] at hadmin'
      exact absurd hadmin' (by decide)
  | entry _ he =>
      exact Or.inl ⟨_, he, rfl⟩
  | default _ hnone =>
      exact Or.inr ⟨hnone, rfl⟩

/-- If the lone writer comes first in the query, it grants write access. -/
theorem authorize_loneWriter
    (defaultAccess : Permission)
    {e : Entry}
    (hadmin : isAdmin user = false)
    (hfirst : Foremost (likes topic) storedLength db (usernameOf user) e) :
    authorize (db.withPermissions (loneWriter e)) defaultAccess user topic
      .write = .ok () := by
  have he : e ∈ db.entries := hfirst.1.1
  have hfirst' := (foremost_withPermissions_iff (loneWriter e) (likes topic)
    storedLength he).mpr hfirst
  obtain ⟨m, hm, heq⟩ :=
    authorize_eq_of_firstWriter defaultAccess .write hadmin hfirst'.1
  have hme := hm.eq_of_only (likes topic) storedLength hfirst'
    (loneWriter_write e) (fun x hx hw => eq_of_loneWriter he hx hw)
  rw [heq, resolvePerms_write_eq_ok_iff, AccessRow.permission,
    isWrite_newPermission, hme]
  exact loneWriter_write e

/-- The entries the query puts first are those the documentation puts first. -/
theorem foremost_globs_of_documented
    (hadmin : isAdmin user = false)
    (h : ∀ perms perm,
      Documented (db.withPermissions perms) defaultAccess user topic perm
        (authorize (db.withPermissions perms) defaultAccess user topic perm))
    {e : Entry}
    (hfirst : Foremost (likes topic) storedLength db (usernameOf user) e) :
    Foremost (globs topic) visibleLength db (usernameOf user) e := by
  have he : e ∈ db.entries := hfirst.1.1
  have hdoc := h (loneWriter e) .write
  rw [authorize_loneWriter defaultAccess hadmin hfirst] at hdoc
  rcases hdoc.inv hadmin with ⟨x, hx, hok⟩ | ⟨hnone, hok⟩
  · have hwrite := resolvePerms_write_eq_ok_iff.mp hok.symm
    rw [AccessRow.permission, isWrite_newPermission] at hwrite
    have hxe := eq_of_loneWriter he hx.1.1 hwrite
    have hglob := Best.of_lex hx
    rw [hxe] at hglob
    exact (foremost_withPermissions_iff _ _ _ he).mp hglob
  · exfalso
    -- No entry applies as documented, so the default decides, whatever `e` says.
    have hnone' : ∀ x, ¬ Applies (globs topic) db (usernameOf user) x := by
      intro x hx
      exact hnone _ ((applies_withPermissions_iff _ _).mpr ⟨x, hx, rfl⟩)
    obtain ⟨m, hm, heq⟩ :=
      authorize_eq_of_firstWriter defaultAccess .write hadmin
        ((applies_withPermissions_iff (fun _ => .denyAll)
          (likes topic)).mpr ⟨e, hfirst.1, rfl⟩)
    obtain ⟨m₀, -, rfl⟩ := (applies_withPermissions_iff _ _).mp hm.1
    rcases (h (fun _ => .denyAll) .write).inv hadmin with
      ⟨x, hx, -⟩ | ⟨-, hdeny⟩
    · obtain ⟨x₀, hx₀, -⟩ := (applies_withPermissions_iff _ _).mp hx.1
      exact hnone' x₀ hx₀
    · rw [heq, ← hok] at hdeny
      have := resolvePerms_write_eq_ok_iff.mp hdeny
      simp [Entry.withPermissions, Permission.isWrite] at this

/-- If the code follows the documentation for all permissions, both readings
put the same entries first. -/
theorem longestAgree_of_documented
    (hadmin : isAdmin user = false)
    (h : ∀ perms perm,
      Documented (db.withPermissions perms) defaultAccess user topic perm
        (authorize (db.withPermissions perms) defaultAccess user topic perm)) :
    LongestAgree db (usernameOf user) topic := by
  intro e
  constructor
  · exact foremost_globs_of_documented hadmin h
  · intro hglob
    by_contra hlike
    have he : e ∈ db.entries := hglob.1.1
    have happ : Applies (likes topic) db (usernameOf user) e :=
      ⟨he, hglob.1.2.1, likes_of_globs hglob.1.2.2⟩
    have hglob' := (foremost_withPermissions_iff (loneWriter e) (globs topic)
      visibleLength he).mpr hglob
    obtain ⟨m, hm, heq⟩ :=
      authorize_eq_of_firstWriter defaultAccess .write hadmin
        ((applies_withPermissions_iff (loneWriter e)
          (likes topic)).mpr ⟨e, happ, rfl⟩)
    have hdeny : authorize (db.withPermissions (loneWriter e)) defaultAccess
        user topic .write ≠ .ok () := by
      intro hok
      rw [heq, resolvePerms_write_eq_ok_iff, AccessRow.permission,
        isWrite_newPermission] at hok
      have hfirst := Best.of_lex hm
      rw [eq_of_loneWriter he hm.1.1 hok] at hfirst
      exact hlike ((foremost_withPermissions_iff _ _ _ he).mp hfirst)
    rcases (h (loneWriter e) .write).inv hadmin with
      ⟨x, hx, hres⟩ | ⟨hnone, -⟩
    · have hxe := hx.eq_of_only (globs topic) visibleLength hglob'
        (loneWriter_write e) (fun y hy hw => eq_of_loneWriter he hy hw)
      apply hdeny
      rw [hres, resolvePerms_write_eq_ok_iff, AccessRow.permission,
        isWrite_newPermission, hxe]
      exact loneWriter_write e
    · exact hnone _ hglob'.1

/--
For given users and patterns, `authorize` follows the documented precedence
under all permissions exactly when the user is an admin or both readings of the
patterns put the same entries first.
-/
theorem authorize_documented_iff
    (db : Database)
    (defaultAccess : Permission)
    (user : Option User)
    (topic : String) :
    (∀ perms perm,
      Documented (db.withPermissions perms) defaultAccess user topic perm
        (authorize (db.withPermissions perms) defaultAccess user topic perm))
      ↔
    isAdmin user = true ∨ LongestAgree db (usernameOf user) topic := by
  constructor
  · intro h
    cases hadmin : isAdmin user with
    | true =>
        exact Or.inl rfl
    | false =>
        exact Or.inr (longestAgree_of_documented hadmin h)
  · rintro (hadmin | hagree) perms perm
    · have hok : authorize (db.withPermissions perms) defaultAccess user topic
          perm = .ok () := by
        simp [authorize, hadmin]
      rw [hok]
      exact .admin hadmin
    · exact documented_of_longestAgree
        (longestAgree_withPermissions perms hagree)

/-- `everyone` may read and write `Secret`. -/
def secretDatabase : Database :=
  { Database.initial with
    access :=
      { rows := [⟨everyoneID, .ofPattern "Secret" (by decide), true, true,
          none, false⟩]
        nodup := by decide } }

/-- `everyone` may read and write `*xx*`, but not access `__*`. -/
def underscoreDatabase : Database :=
  { Database.initial with
    access :=
      { rows :=
          [⟨everyoneID, .ofPattern "*xx*" (by decide), true, true,
              none, false⟩,
            ⟨everyoneID, .ofPattern "__*" (by decide), false, false,
              none, false⟩]
        nodup := by decide } }

/--
The entry for `Secret` opens the topic `secret`, and the shorter pattern `__*`
precedes `*xx*` on the topic `__xx`.
-/
theorem authorize_not_documented :
    ¬ Documented secretDatabase .denyAll none "secret" .read
        (authorize secretDatabase .denyAll none "secret" .read) ∧
    ¬ Documented underscoreDatabase .denyAll none "__xx" .read
        (authorize underscoreDatabase .denyAll none "__xx" .read) := by
  constructor
  · have hok : authorize secretDatabase .denyAll none "secret" .read =
        .ok () := by
      decide +kernel
    rw [hok]
    intro h
    rcases h.inv rfl with ⟨e, he, -⟩ | ⟨-, hres⟩
    · have hnone : ∀ x ∈ secretDatabase.entries,
          globs "secret" x.row.topic = false := by
        decide
      have hglob := he.1.2.2
      rw [hnone e he.1.1] at hglob
      exact absurd hglob (by decide)
    · exact absurd hres (by decide)
  · have hdeny : authorize underscoreDatabase .denyAll none "__xx" .read =
        .error .unauthorized := by
      decide
    rw [hdeny]
    intro h
    obtain ⟨wide, hwide, hname, hfour⟩ :
        ∃ w, Applies (globs "__xx") underscoreDatabase everyone w ∧
          w.name = everyone ∧ visibleLength w.row.topic = 4 :=
      ⟨⟨everyone, ⟨everyoneID, .ofPattern "*xx*" (by decide), true, true,
          none, false⟩⟩,
        ⟨by decide, Or.inl rfl, by decide⟩, rfl,
        by decide⟩
    rcases h.inv rfl with ⟨e, he, hres⟩ | ⟨hnone, -⟩
    · have hlong : ∀ x ∈ underscoreDatabase.entries,
          4 ≤ visibleLength x.row.topic →
            resolvePerms x.row.permission .read = .ok () := by
        decide
      have hlen : 4 ≤ visibleLength e.row.topic := by
        have hle := (Best.of_lex he).2 wide hwide
        rcases (precedence_le_iff _).mp hle with hlt | ⟨-, hle⟩
        · rw [hname, usernameOf] at hlt
          exact absurd hlt (by simp)
        · rwa [hfour] at hle
      rw [hlong e he.1.1 hlen] at hres
      exact absurd hres (by decide)
    · exact hnone wide hwide

end Exactness

end Manager
end CoopMessenger
