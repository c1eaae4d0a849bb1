import CoopMessenger.Manager.Provisioning
import Mathlib.Data.List.Perm.Subperm

/-!
# Provisioned access entries and tokens

The second and the third part of a run.  Each is a loop over a map of lists; the
invariants `Written` and `Created` say what the rows are after some of the entries.

**Results.**
* `exists_maybeProvisionGrants`: the provisioned entries are those of the configuration.
* `exists_maybeProvisionTokens`: the same for tokens.
-/

namespace CoopMessenger
namespace Manager
namespace Provisioning

open Library

section Access

variable {b : Bcrypt}
variable {conf : Config}
variable {db db₀ db' : Database}

/-- Is the entry overwritten by the grant? -/
def Covers
    (db : Database)
    (p : String × Grant)
    (a : AccessRow) : Prop :=
  ∃ id, db.userID p.1 = some id ∧
    (a.userId = id ∨ a.ownerUserId = some id) ∧
      a.topic.1 = toSQLWildcard p.2.topicPattern

/-- The grants of the list were written. -/
structure Written
    (db₀ : Database)
    (ps : List (String × Grant))
    (db : Database) : Prop where
  users : db.users = db₀.users
  topicMeta : db.topicMeta = db₀.topicMeta
  contacts : db.contacts = db₀.contacts
  profiles : db.profiles = db₀.profiles
  access :
    ∀ a, a ∈ db.access ↔
      (∃ p ∈ ps, IsGrantRow db₀ p a) ∨
        (a ∈ db₀.access ∧ ∀ p ∈ ps, ¬ Covers db₀ p a)

theorem written_nil
    (db : Database) :
    Written db [] db :=
  ⟨rfl, rfl, rfl, rfl, by simp⟩

/-- A grant overwrites what was there, and nothing else. -/
theorem exists_provisionGrant
    {username id : String} {g : Grant}
    (hid : db.userID username = some id)
    (hp : allowedTopicPattern g.topicPattern = true) :
    ∃ db', provisionGrant db username g = .ok db' ∧
      db'.users = db.users ∧ db'.topicMeta = db.topicMeta ∧
      db'.contacts = db.contacts ∧ db'.profiles = db.profiles ∧
      ∀ a, a ∈ db'.access ↔
        a = ⟨id, .ofPattern g.topicPattern hp, g.permission.isRead,
          g.permission.isWrite, none, true⟩ ∨
        (a ∈ db.access ∧ ¬ Covers db (username, g) a) := by
  have hname : (!allowedUsername username && decide (username ≠ everyone)) =
      false := by
    rcases Database.name_of_userID hid with heveryone | hallowed
    · simp [heveryone]
    · simp [hallowed]
  have hpattern : g.topicPattern ≠ "" := by
    intro h
    rw [h] at hp
    exact absurd hp (by decide)
  have hreset : db.resetAccess username g.topicPattern =
      .ok (db.deleteTopicAccess username (toSQLWildcard g.topicPattern)) := by
    simp only [Database.resetAccess, hname, Bool.false_and, Bool.false_eq_true,
      if_false, hp, Bool.not_true, hpattern, and_false]
  generalize hdb₁ : db.deleteTopicAccess username
    (toSQLWildcard g.topicPattern) = db₁ at hreset
  have hid₁ : db₁.userID username = some id := by
    rw [← hdb₁]
    exact hid
  have hok : ∃ db', db₁.upsertUserAccess username
      (.ofPattern g.topicPattern hp) g.permission.isRead g.permission.isWrite ""
        true = .ok db' := by
    refine Database.upsertUserAccess_eq_ok_iff.mpr ?_
    rw [hid₁]
    rfl
  obtain ⟨db', hdb'⟩ := hok
  refine ⟨db', ?_, ?_, ?_, ?_, ?_, fun a => ?_⟩
  · unfold provisionGrant
    rw [hreset]
    change (db₁.allowAccessTx username g.topicPattern g.permission true).mapError
      _ = _
    simp only [Database.allowAccessTx, hname, Bool.false_eq_true, if_false, hp,
      dif_pos, hdb']
    rfl
  all_goals
    have hwrite := hdb'
    simp only [Database.upsertUserAccess, hid₁, Except.ok.injEq] at hwrite
  · rw [← hwrite, ← hdb₁]
    rfl
  · rw [← hwrite, ← hdb₁]
    rfl
  · rw [← hwrite, ← hdb₁]
    rfl
  · rw [← hwrite, ← hdb₁]
    rfl
  · have hreset₁ : a ∈ db₁.access ↔
        a ∈ db.access ∧ ¬ Covers db (username, g) a := by
      rw [← hdb₁, Database.deleteTopicAccess, Table.mem_delete_iff]
      refine and_congr_right fun _ => ?_
      rw [hid, ← Bool.not_eq_true]
      refine not_congr ?_
      simp [Covers, hid]
    rw [Database.mem_access_upsertUserAccess hid₁ hdb' a, hreset₁]
    refine or_congr Iff.rfl (and_iff_left_of_imp fun h hkey => h.2 ?_)
    obtain ⟨huser, htopic⟩ := Prod.mk.inj hkey
    refine ⟨id, hid, Or.inl huser, ?_⟩
    rw [htopic, StoredPattern.ofPattern_val]

/-- A grant that was written before is not overwritten by another one. -/
theorem not_covers_of_isGrantRow
    {p q : String × Grant} {a : AccessRow}
    (hp : allowedTopicPattern p.2.topicPattern = true)
    (hne : (q.1, q.2.topicPattern) ≠ (p.1, p.2.topicPattern))
    (ha : IsGrantRow db q a) :
    ¬ Covers db p a := by
  rintro ⟨id, hid, howner, htopic⟩
  obtain ⟨id', hq, hid', rfl⟩ := ha
  have huser : id' = id := by
    rcases howner with h | h
    · exact h
    · cases h
  subst huser
  have hpattern : q.2.topicPattern = p.2.topicPattern := by
    rw [← fromSQLWildcard_toSQLWildcard hq, ← fromSQLWildcard_toSQLWildcard hp]
    exact congrArg fromSQLWildcard htopic
  exact hne (Prod.ext (Database.userID_injective hid' hid) hpattern)

theorem Written.userID
    {ps : List (String × Grant)}
    (h : Written db₀ ps db) :
    db.userID = db₀.userID :=
  Database.userID_congr h.users

/-- One more grant is written. -/
theorem Written.grant
    {ps : List (String × Grant)} {username : String} {g : Grant}
    (h : Written db₀ ps db)
    (hid : (db₀.userID username).isSome = true)
    (hp : allowedTopicPattern g.topicPattern = true)
    (hnew : (username, g.topicPattern) ∉ ps.map (fun p => (p.1, p.2.topicPattern))) :
    ∃ db', provisionGrant db username g = .ok db' ∧
      Written db₀ (ps ++ [(username, g)]) db' := by
  obtain ⟨id, hid⟩ := Option.isSome_iff_exists.mp hid
  have hid' : db.userID username = some id := by rw [h.userID, hid]
  obtain ⟨db', hdb', husers, hmeta, hcontacts, hprofiles, haccess⟩ :=
    exists_provisionGrant hid' hp
  refine ⟨db', hdb', husers.trans h.users, hmeta.trans h.topicMeta,
    hcontacts.trans h.contacts, hprofiles.trans h.profiles, fun a => ?_⟩
  have hcovers : Covers db (username, g) a ↔ Covers db₀ (username, g) a := by
    simp only [Covers, h.userID]
  have hrow : IsGrantRow db₀ (username, g) a ↔
      a = ⟨id, .ofPattern g.topicPattern hp, g.permission.isRead,
        g.permission.isWrite, none, true⟩ := by
    simp only [IsGrantRow, hid, Option.some.injEq]
    constructor
    · rintro ⟨id', hp', rfl, rfl⟩
      rfl
    · rintro rfl
      exact ⟨id, hp, rfl, rfl⟩
  rw [haccess, h.access, hcovers, ← hrow]
  have hkept : ∀ p ∈ ps, IsGrantRow db₀ p a → ¬ Covers db₀ (username, g) a := by
    intro p hmem ha
    refine not_covers_of_isGrantRow hp ?_ ha
    exact fun heq => hnew (heq ▸ List.mem_map.mpr ⟨p, hmem, rfl⟩)
  constructor
  · rintro (ha | ⟨⟨p, hmem, ha⟩ | ⟨ha, hall⟩, hnot⟩)
    · exact Or.inl ⟨(username, g), by simp, ha⟩
    · exact Or.inl ⟨p, List.mem_append.mpr (Or.inl hmem), ha⟩
    · refine Or.inr ⟨ha, fun p hmem => ?_⟩
      rcases List.mem_append.mp hmem with hmem | hmem
      · exact hall p hmem
      · rw [List.mem_singleton.mp hmem]
        exact hnot
  · rintro (⟨p, hmem, ha⟩ | ⟨ha, hall⟩)
    · rcases List.mem_append.mp hmem with hmem | hmem
      · exact Or.inr ⟨Or.inl ⟨p, hmem, ha⟩, hkept p hmem ha⟩
      · rw [List.mem_singleton.mp hmem] at ha
        exact Or.inl ha
    · refine Or.inr ⟨Or.inr ⟨ha, fun p hmem => ?_⟩, ?_⟩
      · exact hall p (List.mem_append.mpr (Or.inl hmem))
      · exact hall (username, g) (by simp)

theorem Written.grants
    {ps : List (String × Grant)} {username : String} {grants : List Grant}
    (h : Written db₀ ps db)
    (hid : (db₀.userID username).isSome = true)
    (hp : ∀ g ∈ grants, allowedTopicPattern g.topicPattern = true)
    (hnodup : ((ps ++ grants.map (fun g => (username, g))).map
      (fun p => (p.1, p.2.topicPattern))).Nodup) :
    ∃ db', provisionGrants username db grants = .ok db' ∧
      Written db₀ (ps ++ grants.map (fun g => (username, g))) db' := by
  induction grants generalizing ps db with
  | nil =>
      exact ⟨db, rfl, by simpa using h⟩
  | cons g rest ih =>
      have hsplit : ps ++ (g :: rest).map (fun g => (username, g)) =
          (ps ++ [(username, g)]) ++ rest.map (fun g => (username, g)) := by
        simp
      rw [hsplit] at hnodup ⊢
      have hnew : (username, g.topicPattern) ∉
          ps.map (fun p => (p.1, p.2.topicPattern)) := by
        have hfirst := (List.map_append ▸ hnodup).of_append_left
        rw [List.map_append, List.nodup_append] at hfirst
        intro hmem
        exact hfirst.2.2 _ hmem _ (by simp) rfl
      obtain ⟨db₁, hdb₁, hwritten⟩ := h.grant hid (hp g List.mem_cons_self) hnew
      obtain ⟨db', hdb', hdone⟩ := ih hwritten
        (fun g' hg' => hp g' (List.mem_cons_of_mem g hg')) hnodup
      refine ⟨db', ?_, hdone⟩
      simp only [provisionGrants, hdb₁]
      exact hdb'

theorem checkAccess_of_valid
    (hvalid : Valid b conf)
    {p : String × List Grant}
    (hp : p ∈ conf.access) :
    checkAccess conf p.1 = .ok () := by
  unfold checkAccess
  rcases hvalid.accessUsers p hp with heveryone | ⟨u, hu, hname, hrole⟩
  · split
    case h_1 =>
      rw [if_neg (not_not.mpr heveryone)]
    case h_2 u hfind =>
      have hallowed := (hvalid.users u (List.mem_of_find?_eq_some hfind)).1
      have hname : u.name = p.1 := by simpa using List.find?_some hfind
      rw [hname, heveryone, not_allowedUsername_everyone] at hallowed
      cases hallowed
  · split
    case h_1 hnone =>
      have hmissing := List.find?_eq_none.mp hnone u hu
      simp [hname] at hmissing
    case h_2 v hfind =>
      have hname' : v.name = p.1 := by simpa using List.find?_some hfind
      have hsame : v = u := List.inj_on_of_nodup_map hvalid.names
        (List.mem_of_find?_eq_some hfind) hu (hname'.trans hname.symm)
      rw [hsame, if_neg hrole]

/-- The grants of a configuration are written. -/
theorem Written.provisionAccess
    {ps : List (String × Grant)} {rest : List (String × List Grant)}
    (h : Written db₀ ps db)
    (hcheck : ∀ p ∈ rest, checkAccess conf p.1 = .ok () ∧
      (db₀.userID p.1).isSome = true)
    (hp : ∀ p ∈ rest, ∀ g ∈ p.2, allowedTopicPattern g.topicPattern = true)
    (hnodup : ((ps ++ rest.flatMap (fun p => p.2.map (fun g => (p.1, g)))).map
      (fun p => (p.1, p.2.topicPattern))).Nodup) :
    ∃ db', provisionAccess conf db rest = .ok db' ∧
      Written db₀ (ps ++ rest.flatMap (fun p => p.2.map (fun g => (p.1, g)))) db' := by
  induction rest generalizing ps db with
  | nil =>
      exact ⟨db, rfl, by simpa using h⟩
  | cons p rest ih =>
      obtain ⟨username, grants⟩ := p
      rw [List.flatMap_cons, ← List.append_assoc] at hnodup ⊢
      obtain ⟨hok, hid⟩ := hcheck _ List.mem_cons_self
      have hfirst := (List.map_append ▸ hnodup).of_append_left
      obtain ⟨db₁, hdb₁, hwritten⟩ := h.grants hid (hp _ List.mem_cons_self) hfirst
      obtain ⟨db', hdb', hdone⟩ := ih hwritten
        (fun q hq => hcheck q (List.mem_cons_of_mem _ hq))
        (fun q hq => hp q (List.mem_cons_of_mem _ hq)) hnodup
      refine ⟨db', ?_, hdone⟩
      simp only [Provisioning.provisionAccess, hok, hdb₁]
      exact hdb'

/-- The provisioned entries are replaced by those of the configuration. -/
theorem exists_maybeProvisionGrants
    (hvalid : Valid b conf)
    (hids : ∀ p ∈ conf.access, (db.userID p.1).isSome = true) :
    ∃ db', maybeProvisionGrants conf db = .ok db' ∧
      Written { db with access := db.access.delete AccessRow.provisioned }
        conf.grants db' := by
  have hpatterns : ∀ p ∈ conf.access, ∀ g ∈ p.2,
      allowedTopicPattern g.topicPattern = true := by
    intro p hp g hg
    exact hvalid.patterns (p.1, g) (List.mem_flatMap.mpr
      ⟨p, hp, List.mem_map.mpr ⟨g, hg, rfl⟩⟩)
  have hcheck : ∀ p ∈ conf.access, checkAccess conf p.1 = .ok () ∧
      (db.userID p.1).isSome = true :=
    fun p hp => ⟨checkAccess_of_valid hvalid hp, hids p hp⟩
  exact (written_nil _).provisionAccess hcheck hpatterns hvalid.grants

end Access

section Tokens

variable {conf : Config}
variable {draws : Draws}
variable {db : Database}
variable {T T₀ : Table TokenRow.token}

/-- The row of a token after it was created. -/
def writtenToken
    (draws : Draws)
    (T : Table TokenRow.token)
    (userID : String)
    (t : ConfigToken) : TokenRow :=
  match T.find? t.value with
  | none => tokenRow draws userID t
  | some old =>
      { old with userId := userID, label := t.label, expires := 0, provisioned := true }

theorem writtenToken_token
    (draws : Draws) (T : Table TokenRow.token) (userID : String)
    (t : ConfigToken) :
    (writtenToken draws T userID t).token = t.value := by
  unfold writtenToken
  split
  case h_1 =>
    rfl
  case h_2 old hold =>
    exact (Table.find?_eq_some_iff.mp hold).2

theorem writtenToken_userId
    (draws : Draws) (T : Table TokenRow.token) (userID : String)
    (t : ConfigToken) :
    (writtenToken draws T userID t).userId = userID := by
  unfold writtenToken
  split <;> rfl

/-- The token is there, and all others are as before. -/
def HoldsToken
    (draws : Draws)
    (T : Table TokenRow.token)
    (userID : String)
    (t : ConfigToken)
    (T' : Table TokenRow.token) : Prop :=
  ∀ q, q ∈ T' ↔
    q = writtenToken draws T userID t ∨ (q ∈ T ∧ q.token ≠ t.value)

theorem exists_upsertToken
    {userID : String} {t : ConfigToken}
    (hfree : ∀ q ∈ T, q.token = t.value → q.userId = userID) :
    ∃ T', upsertToken T (tokenRow draws userID t) = .ok T' ∧
      HoldsToken draws T userID t T' := by
  have htoken : (tokenRow draws userID t).token = t.value := rfl
  unfold upsertToken
  cases hfind : T.find? t.value with
  | none =>
      simp only [htoken, hfind]
      refine ⟨_, rfl, fun q => ?_⟩
      have hnone := Table.find?_eq_none_iff.mp hfind
      have hrows : (T.upsert (tokenRow draws userID t) id (fun _ => rfl)).rows =
          T.rows ++ [tokenRow draws userID t] :=
        Table.rows_upsert_of_free (fun _ => rfl) hfind
      rw [Table.mem_def, hrows, List.mem_append, List.mem_singleton]
      simp only [writtenToken, hfind]
      constructor
      · rintro (hq | rfl)
        · exact Or.inr ⟨hq, hnone q hq⟩
        · exact Or.inl rfl
      · rintro (rfl | ⟨hq, -⟩)
        · exact Or.inr rfl
        · exact Or.inl hq
  | some old =>
      obtain ⟨hold, hvalue⟩ := Table.find?_eq_some_iff.mp hfind
      have huser : old.userId = (tokenRow draws userID t).userId :=
        hfree old hold hvalue
      simp only [htoken, hfind, if_pos huser]
      refine ⟨_, rfl, fun q => ?_⟩
      rw [Table.mem_modify_key_iff _ hold hvalue]
      refine or_congr_left ?_
      have hself : old = { old with userId := userID } := by
        rw [← hfree old hold hvalue]
      simp only [writtenToken, hfind]
      rw [hself]
      exact Iff.rfl

/-- Nothing is pruned as long as the user has few tokens. -/
theorem mem_deleteExcessTokens
    {userID : String}
    (hfew : (T.rows.filter (fun t => decide (t.userId = userID))).length ≤
      tokenMaxCount)
    (q : TokenRow) :
    q ∈ deleteExcessTokens T userID ↔ q ∈ T := by
  rw [deleteExcessTokens, Table.mem_delete_iff]
  refine and_iff_left_of_imp fun hq => ?_
  by_contra h
  obtain ⟨huser, hpruned⟩ := Bool.and_eq_true_iff.mp (by simpa using h :
    (decide (q.userId = userID) && !decide (q.token ∈
      ((tokensByExpiry T userID).take tokenMaxCount).map TokenRow.token)) = true)
  have hlength : (tokensByExpiry T userID).length ≤ tokenMaxCount := by
    rw [tokensByExpiry, orderByDesc, List.length_insertionSort]
    exact hfew
  have hmem : q ∈ tokensByExpiry T userID := by
    rw [tokensByExpiry, orderByDesc, List.mem_insertionSort]
    exact List.mem_filter.mpr ⟨hq, huser⟩
  rw [List.take_of_length_le hlength] at hpruned
  simp only [Bool.not_eq_true', decide_eq_false_iff_not] at hpruned
  exact hpruned (List.mem_map_of_mem hmem)

theorem exists_createTokenTx
    {userID : String} {t : ConfigToken}
    (hfree : ∀ q ∈ T, q.token = t.value → q.userId = userID)
    (hfew : ∀ T', HoldsToken draws T userID t T' →
      (T'.rows.filter (fun q => decide (q.userId = userID))).length ≤
        tokenMaxCount) :
    ∃ T', createTokenTx T (tokenRow draws userID t) = .ok T' ∧
      HoldsToken draws T userID t T' := by
  have hupsert : ∃ T', upsertToken T (tokenRow draws userID t) = .ok T' ∧
      HoldsToken draws T userID t T' :=
    exists_upsertToken hfree
  obtain ⟨T₁, hT₁, hholds⟩ := hupsert
  unfold createTokenTx
  rw [hT₁]
  change ∃ T', (if T₁.rows.countP (fun r => decide (r.userId = userID)) ≥
      tokenMaxCount then
    (pure (deleteExcessTokens T₁ userID) : Except Error (Table TokenRow.token))
      else pure T₁) = .ok T' ∧ _
  split
  case isTrue =>
    refine ⟨_, rfl, fun q => ?_⟩
    exact (mem_deleteExcessTokens (hfew T₁ hholds) q).trans (hholds q)
  case isFalse =>
    exact ⟨T₁, rfl, hholds⟩

/-- The tokens of the list were created. -/
def Created
    (draws : Draws)
    (db : Database)
    (T₀ : Table TokenRow.token)
    (ps : List (String × ConfigToken))
    (T : Table TokenRow.token) : Prop :=
  ∀ q, q ∈ T ↔
    (∃ p ∈ ps, ∃ userID, db.userID p.1 = some userID ∧
      q = writtenToken draws T₀ userID p.2) ∨
    (q ∈ T₀ ∧ q.token ∉ ps.map (fun p => p.2.value))

/-- The tokens can be created: they are those of their users, who have few. -/
structure TokensFit
    (conf : Config)
    (db : Database)
    (T₀ : Table TokenRow.token) : Prop where
  values : (conf.tokenList.map (fun p => p.2.value)).Nodup
  free :
    ∀ p ∈ conf.tokenList, ∀ q ∈ T₀, q.token = p.2.value →
      db.userID p.1 = some q.userId
  limit :
    ∀ p ∈ conf.tokens, ∀ userID, db.userID p.1 = some userID →
      (T₀.rows.filter (isOther conf userID)).length +
        (listedTokens conf p.1).length ≤ tokenMaxCount

theorem tokenValues_eq :
    conf.tokenValues = conf.tokenList.map (fun p => p.2.value) := by
  simp only [Config.tokenValues, Config.tokenList, List.map_flatMap, List.map_map]
  rfl

/-- A token that is not created yet is as it was. -/
theorem Created.find?
    {ps : List (String × ConfigToken)} {value : String}
    (h : Created draws db T₀ ps T)
    (hnew : value ∉ ps.map (fun p => p.2.value)) :
    T.find? value = T₀.find? value := by
  apply Option.ext
  intro q
  rw [Table.find?_eq_some_iff, Table.find?_eq_some_iff, h]
  constructor
  · rintro ⟨⟨p, hp, userID, -, rfl⟩ | ⟨hq, -⟩, hvalue⟩
    · rw [writtenToken_token] at hvalue
      exact absurd (List.mem_map.mpr ⟨p, hp, hvalue⟩) hnew
    · exact ⟨hq, hvalue⟩
  · rintro ⟨hq, rfl⟩
    exact ⟨Or.inr ⟨hq, hnew⟩, rfl⟩

/-- The tokens of a user while those of the configuration are created are few. -/
theorem Created.few
    {ps : List (String × ConfigToken)} {p : String × List ConfigToken}
    {userID : String}
    (h : Created draws db T₀ ps T)
    (hfit : TokensFit conf db T₀)
    (hclean : ∀ q ∈ T₀, q.provisioned = true → q.token ∈ conf.tokenValues)
    (hps : ∀ q ∈ ps, q ∈ conf.tokenList)
    (hp : p ∈ conf.tokens)
    (hid : db.userID p.1 = some userID) :
    (T.rows.filter (fun q => decide (q.userId = userID))).length ≤
      tokenMaxCount := by
  generalize hother : T₀.rows.filter (isOther conf userID) = other
  have hlimit : other.length + (listedTokens conf p.1).length ≤ tokenMaxCount := by
    rw [← hother]
    exact hfit.limit p hp userID hid
  have hlength : (other.map TokenRow.token ++
      (listedTokens conf p.1).map (fun p => p.2.value)).length =
        other.length + (listedTokens conf p.1).length := by
    rw [List.length_append, List.length_map, List.length_map]
  rw [← hlength] at hlimit
  rw [← List.length_map TokenRow.token]
  refine Nat.le_trans (List.Nodup.subperm ?_ fun value hvalue => ?_).length_le hlimit
  · exact T.nodup.sublist (List.filter_sublist.map _)
  · obtain ⟨q, hq, rfl⟩ := List.mem_map.mp hvalue
    obtain ⟨hq, huser⟩ := List.mem_filter.mp hq
    have huser : q.userId = userID := of_decide_eq_true huser
    have hlisted : ∀ r ∈ conf.tokenList, r.2.value = q.token →
        db.userID r.1 = some q.userId → q.token ∈
          (listedTokens conf p.1).map (fun p => p.2.value) := by
      intro r hr hvalue hr'
      refine List.mem_map.mpr ⟨r, List.mem_filter.mpr ⟨hr, ?_⟩, hvalue⟩
      exact decide_eq_true (Database.userID_injective hr' (huser ▸ hid))
    rw [List.mem_append]
    rcases (h q).mp hq with ⟨r, hr, id, hid', rfl⟩ | ⟨hq₀, -⟩
    · right
      refine hlisted r (hps r hr) (writtenToken_token _ _ _ _).symm ?_
      rw [writtenToken_userId]
      exact hid'
    · by_cases hconf : q.token ∈ conf.tokenValues
      · right
        rw [tokenValues_eq] at hconf
        obtain ⟨r, hr, hvalue⟩ := List.mem_map.mp hconf
        exact hlisted r hr hvalue (hfit.free r hr q hq₀ hvalue.symm)
      · left
        refine List.mem_map.mpr ⟨q, ?_, rfl⟩
        rw [← hother]
        refine List.mem_filter.mpr ⟨hq₀, ?_⟩
        have hflag : q.provisioned = false := by
          by_contra hflag
          exact hconf (hclean q hq₀ (by simpa using hflag))
        simp [isOther, huser, hconf, hflag]

/-- One more token is created. -/
theorem Created.token
    {ps : List (String × ConfigToken)} {p : String × List ConfigToken}
    {t : ConfigToken} {userID : String}
    (h : Created draws db T₀ ps T)
    (hfit : TokensFit conf db T₀)
    (hclean : ∀ q ∈ T₀, q.provisioned = true → q.token ∈ conf.tokenValues)
    (hps : ∀ q ∈ ps ++ [(p.1, t)], q ∈ conf.tokenList)
    (hp : p ∈ conf.tokens)
    (hid : db.userID p.1 = some userID)
    (hnew : t.value ∉ ps.map (fun p => p.2.value)) :
    ∃ T', createTokenTx T (tokenRow draws userID t) = .ok T' ∧
      Created draws db T₀ (ps ++ [(p.1, t)]) T' := by
  have hsame : writtenToken draws T userID t = writtenToken draws T₀ userID t := by
    rw [writtenToken, writtenToken, h.find? hnew]
  have hcreated : ∀ T', HoldsToken draws T userID t T' →
      Created draws db T₀ (ps ++ [(p.1, t)]) T' := by
    intro T' hT' q
    rw [hT' q, h q, hsame]
    constructor
    · rintro (rfl | ⟨⟨r, hr, id, hr', rfl⟩ | ⟨hq, hnot⟩, hne⟩)
      · exact Or.inl ⟨(p.1, t), by simp, userID, hid, rfl⟩
      · exact Or.inl ⟨r, List.mem_append.mpr (Or.inl hr), id, hr', rfl⟩
      · refine Or.inr ⟨hq, ?_⟩
        rw [List.map_append, List.mem_append, not_or]
        exact ⟨hnot, by simpa using hne⟩
    · rintro (⟨r, hr, id, hr', rfl⟩ | ⟨hq, hnot⟩)
      · rcases List.mem_append.mp hr with hr | hr
        · refine Or.inr ⟨Or.inl ⟨r, hr, id, hr', rfl⟩, ?_⟩
          rw [writtenToken_token]
          exact fun heq => hnew (heq ▸ List.mem_map.mpr ⟨r, hr, rfl⟩)
        · rw [List.mem_singleton.mp hr] at hr' ⊢
          left
          rw [Option.some.inj (hr'.symm.trans hid)]
      · rw [List.map_append, List.mem_append, not_or] at hnot
        exact Or.inr ⟨Or.inr ⟨hq, hnot.1⟩, by simpa using hnot.2⟩
  have hfree : ∀ q ∈ T, q.token = t.value → q.userId = userID := by
    intro q hq hvalue
    have hq₀ : T₀.find? t.value = some q := by
      rw [← h.find? hnew]
      exact Table.find?_eq_some_iff.mpr ⟨hq, hvalue⟩
    have howner := hfit.free (p.1, t) (hps _ (by simp)) q
      (Table.find?_eq_some_iff.mp hq₀).1 hvalue
    exact (Option.some.inj (howner.symm.trans hid))
  obtain ⟨T', hT', hholds⟩ := exists_createTokenTx hfree
    (fun T' hT' => (hcreated T' hT').few hfit hclean hps hp hid)
  exact ⟨T', hT', hcreated T' hholds⟩

theorem Created.createTokens
    {ps : List (String × ConfigToken)} {p : String × List ConfigToken}
    {tokens : List ConfigToken} {userID : String}
    (h : Created draws db T₀ ps T)
    (hfit : TokensFit conf db T₀)
    (hclean : ∀ q ∈ T₀, q.provisioned = true → q.token ∈ conf.tokenValues)
    (hps : ∀ q ∈ ps ++ tokens.map (fun t => (p.1, t)), q ∈ conf.tokenList)
    (hp : p ∈ conf.tokens)
    (hid : db.userID p.1 = some userID)
    (hnodup : ((ps ++ tokens.map (fun t => (p.1, t))).map
      (fun p => p.2.value)).Nodup) :
    ∃ T', createTokens draws userID T tokens = .ok T' ∧
      Created draws db T₀ (ps ++ tokens.map (fun t => (p.1, t))) T' := by
  induction tokens generalizing ps T with
  | nil =>
      exact ⟨T, rfl, by simpa using h⟩
  | cons t rest ih =>
      have hsplit : ps ++ (t :: rest).map (fun t => (p.1, t)) =
          (ps ++ [(p.1, t)]) ++ rest.map (fun t => (p.1, t)) := by
        simp
      rw [hsplit] at hnodup hps ⊢
      have hnew : t.value ∉ ps.map (fun p => p.2.value) := by
        have hfirst := (List.map_append ▸ hnodup).of_append_left
        rw [List.map_append, List.nodup_append] at hfirst
        intro hmem
        exact hfirst.2.2 _ hmem _ (by simp) rfl
      obtain ⟨T₁, hT₁, hcreated⟩ := h.token hfit hclean
        (fun q hq => hps q (List.mem_append.mpr (Or.inl hq))) hp hid hnew
      obtain ⟨T', hT', hdone⟩ := ih hcreated hps hnodup
      refine ⟨T', ?_, hdone⟩
      simp only [Provisioning.createTokens, hT₁]
      exact hT'

theorem Created.provisionTokens
    {ps : List (String × ConfigToken)} {rest : List (String × List ConfigToken)}
    (h : Created draws db T₀ ps T)
    (hfit : TokensFit conf db T₀)
    (hclean : ∀ q ∈ T₀, q.provisioned = true → q.token ∈ conf.tokenValues)
    (hps : ∀ q ∈ ps ++ rest.flatMap (fun p => p.2.map (fun t => (p.1, t))),
      q ∈ conf.tokenList)
    (hrest : ∀ p ∈ rest, p ∈ conf.tokens ∧ (db.userID p.1).isSome = true ∧
      (p.1 ∈ conf.users.map ConfigUser.name ∨ p.1 = everyone))
    (hnodup : ((ps ++ rest.flatMap (fun p => p.2.map (fun t => (p.1, t)))).map
      (fun p => p.2.value)).Nodup) :
    ∃ T', provisionTokens conf draws db T rest = .ok T' ∧
      Created draws db T₀
        (ps ++ rest.flatMap (fun p => p.2.map (fun t => (p.1, t)))) T' := by
  induction rest generalizing ps T with
  | nil =>
      exact ⟨T, rfl, by simpa using h⟩
  | cons p rest ih =>
      rw [List.flatMap_cons, ← List.append_assoc] at hnodup hps ⊢
      obtain ⟨hp, hsome, huser⟩ := hrest p List.mem_cons_self
      obtain ⟨userID, hid⟩ := Option.isSome_iff_exists.mp hsome
      have hfirst := (List.map_append ▸ hnodup).of_append_left
      obtain ⟨T₁, hT₁, hcreated⟩ := h.createTokens hfit hclean
        (fun q hq => hps q (List.mem_append.mpr (Or.inl hq))) hp hid hfirst
      obtain ⟨T', hT', hdone⟩ := ih hcreated hps
        (fun q hq => hrest q (List.mem_cons_of_mem p hq)) hnodup
      refine ⟨T', ?_, hdone⟩
      have hcheck : ¬ (p.1 ∉ conf.users.map ConfigUser.name ∧ p.1 ≠ everyone) := by
        rintro ⟨hnot, hne⟩
        exact huser.elim hnot hne
      obtain ⟨username, tokens⟩ := p
      simp only [Provisioning.provisionTokens, if_neg hcheck, hid, hT₁]
      exact hT'

/-- Fewer tokens fit as well. -/
theorem TokensFit.of_subset
    {T' : Table TokenRow.token}
    (h : TokensFit conf db T₀)
    (hsub : ∀ t ∈ T', t ∈ T₀) :
    TokensFit conf db T' := by
  refine ⟨h.values, fun p hp q hq => h.free p hp q (hsub q hq),
    fun p hp userID hid => ?_⟩
  refine Nat.le_trans (Nat.add_le_add_right ?_ _) (h.limit p hp userID hid)
  refine (List.Nodup.subperm ?_ fun t ht => ?_).length_le
  · exact (T'.nodup.of_map TokenRow.token).filter _
  · obtain ⟨ht, hcond⟩ := List.mem_filter.mp ht
    exact List.mem_filter.mpr ⟨hsub t ht, hcond⟩

/-- The provisioned tokens are replaced by those of the configuration. -/
def TokensDone
    (conf : Config)
    (draws : Draws)
    (db : Database)
    (T T' : Table TokenRow.token) : Prop :=
  ∀ q, q ∈ T' ↔
    (∃ p ∈ conf.tokenList, ∃ userID, db.userID p.1 = some userID ∧
      q = writtenToken draws T userID p.2) ∨
    (q ∈ T ∧ q.token ∉ conf.tokenValues ∧ q.provisioned = false)

theorem exists_maybeProvisionTokens
    (hsub : ∀ t ∈ T, t ∈ T₀)
    (hfit : TokensFit conf db T)
    (husers : ∀ p ∈ conf.tokens, (db.userID p.1).isSome = true ∧
      (p.1 ∈ conf.users.map ConfigUser.name ∨ p.1 = everyone)) :
    ∃ T', maybeProvisionTokens conf draws db T₀ T = .ok T' ∧
      TokensDone conf draws db T T' := by
  unfold maybeProvisionTokens
  dsimp only
  generalize hT₁ : T.delete (fun t => decide (t.token ∈
    (T₀.rows.filter (fun t =>
      t.provisioned && !decide (t.token ∈ conf.tokenValues))).map
        TokenRow.token)) = T₁
  have hmem : ∀ q, q ∈ T₁ ↔
      q ∈ T ∧ (q.provisioned = true → q.token ∈ conf.tokenValues) := by
    intro q
    rw [← hT₁, Table.mem_delete_iff]
    refine and_congr_right fun hq => ?_
    rw [decide_eq_false_iff_not]
    constructor
    · intro hnot hflag
      by_contra hvalue
      refine hnot (List.mem_map.mpr ⟨q, List.mem_filter.mpr ⟨hsub q hq, ?_⟩, rfl⟩)
      simp [hflag, hvalue]
    · intro himp hstale
      obtain ⟨r, hr, hsame⟩ := List.mem_map.mp hstale
      obtain ⟨hr, hcond⟩ := List.mem_filter.mp hr
      have heq : r = q := Table.eq_of_key_eq hr (hsub q hq) hsame
      rw [heq] at hcond
      simp only [Bool.and_eq_true, Bool.not_eq_true', decide_eq_false_iff_not] at hcond
      exact hcond.2 (himp hcond.1)
  have hstart : Created draws db T₁ [] T₁ := fun q => by simp
  have hcreated : ∃ T', provisionTokens conf draws db T₁ conf.tokens = .ok T' ∧
      Created draws db T₁ ([] ++ conf.tokenList) T' := hstart.provisionTokens
    (hfit.of_subset fun t ht => ((hmem t).mp ht).1)
    (fun q hq => ((hmem q).mp hq).2) (fun q hq => hq)
    (fun p hp => ⟨hp, husers p hp⟩) hfit.values
  obtain ⟨T', hT', hdone⟩ := hcreated
  refine ⟨T', hT', fun q => ?_⟩
  rw [hdone q, List.nil_append]
  refine or_congr ?_ ?_
  · have hwritten : ∀ p ∈ conf.tokenList, ∀ userID,
        writtenToken draws T₁ userID p.2 = writtenToken draws T userID p.2 := by
      intro p hp userID
      have hfind : T₁.find? p.2.value = T.find? p.2.value := by
        apply Option.ext
        intro r
        rw [Table.find?_eq_some_iff, Table.find?_eq_some_iff, hmem]
        refine and_congr_left fun hvalue => and_iff_left fun _ => ?_
        rw [hvalue, tokenValues_eq]
        exact List.mem_map.mpr ⟨p, hp, rfl⟩
      rw [writtenToken, writtenToken, hfind]
    constructor
    · rintro ⟨p, hp, userID, hid, rfl⟩
      exact ⟨p, hp, userID, hid, hwritten p hp userID⟩
    · rintro ⟨p, hp, userID, hid, rfl⟩
      exact ⟨p, hp, userID, hid, (hwritten p hp userID).symm⟩
  · rw [hmem, tokenValues_eq]
    constructor
    · rintro ⟨⟨hq, himp⟩, hnot⟩
      exact ⟨hq, hnot, by
        by_contra h
        exact hnot (himp (by simpa using h))⟩
    · rintro ⟨hq, hnot, hflag⟩
      refine ⟨⟨hq, fun h => ?_⟩, hnot⟩
      rw [hflag] at h
      cases h

end Tokens

end Provisioning
end Manager
end CoopMessenger
