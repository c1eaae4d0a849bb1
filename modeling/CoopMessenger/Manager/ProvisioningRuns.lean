import CoopMessenger.Manager.ProvisionedRows
import CoopMessenger.Manager.ProvisionedUsers

/-!
# Runs of provisioning

The parts of a run are put together.

**Results.**
* `provision_establishes`: a run establishes the configuration, in whatever order its
  maps are iterated, and a second run changes nothing.
* `provision_of_established`: a run over a database that holds the configuration
  already changes nothing.
-/

namespace CoopMessenger
namespace Manager
namespace Provisioning

open Library

section Orders

variable {b : Bcrypt}
variable {conf conf' : Config}
variable {foreignKeys : Bool}
variable {draws : Draws}
variable {s : Store}

theorem SameMaps.grants
    (h : SameMaps conf conf') :
    conf'.grants.Perm conf.grants :=
  h.access.flatMap_right _

theorem SameMaps.tokenList
    (h : SameMaps conf conf') :
    conf'.tokenList.Perm conf.tokenList :=
  h.tokens.flatMap_right _

theorem SameMaps.tokenValues
    (h : SameMaps conf conf')
    (value : String) :
    value ∈ conf'.tokenValues ↔ value ∈ conf.tokenValues :=
  (h.tokens.flatMap_right _).mem_iff

theorem SameMaps.listedTokens
    (h : SameMaps conf conf')
    (username : String) :
    (listedTokens conf' username).length = (listedTokens conf username).length :=
  (h.tokenList.filter _).length_eq

theorem SameMaps.isOther
    (h : SameMaps conf conf') :
    isOther conf' = isOther conf := by
  funext userID t
  simp only [Provisioning.isOther, h.tokenValues]

theorem SameMaps.otherTokens
    (h : SameMaps conf conf')
    (draws : Draws)
    (s : Store)
    (username : String) :
    otherTokens conf' draws s username = otherTokens conf draws s username := by
  rw [Provisioning.otherTokens, Provisioning.otherTokens, h.isOther]

theorem SameMaps.isStale
    (h : SameMaps conf conf') :
    isStale conf' = isStale conf := by
  funext x
  rw [Provisioning.isStale, Provisioning.isStale, h.users]

/-- The order does not matter for validity. -/
theorem SameMaps.valid
    (h : SameMaps conf conf')
    (hvalid : Valid b conf) :
    Valid b conf' where
  enabled := h.enabled.trans hvalid.enabled
  names := h.users ▸ hvalid.names
  users := h.users ▸ hvalid.users
  accessUsers := by
    intro p hp
    rw [h.users]
    exact hvalid.accessUsers p (h.access.mem_iff.mp hp)
  patterns := fun p hp => hvalid.patterns p (h.grants.mem_iff.mp hp)
  grants := (h.grants.map _).nodup_iff.mpr hvalid.grants
  tokenUsers := by
    intro p hp
    rw [h.users]
    exact hvalid.tokenUsers p (h.tokens.mem_iff.mp hp)
  tokens := (h.tokenList.map _).nodup_iff.mpr hvalid.tokens

theorem SameMaps.applicable
    (h : SameMaps conf conf')
    (happ : Applicable conf foreignKeys draws s) :
    Applicable conf' foreignKeys draws s where
  active := h.users ▸ happ.active
  fresh := h.users ▸ happ.fresh
  free := by
    intro p hp t ht hvalue
    rw [GoesWithUser, h.isStale]
    exact happ.free p (h.tokenList.mem_iff.mp hp) t ht hvalue
  limit := by
    intro p hp
    rw [h.listedTokens, h.otherTokens]
    exact happ.limit p (h.tokens.mem_iff.mp hp)

theorem SameMaps.established
    (h : SameMaps conf conf')
    (hs : Established b conf s) :
    Established b conf' s where
  users := h.users ▸ hs.users
  gone := h.users ▸ hs.gone
  access := by
    intro a
    simp only [h.grants.mem_iff]
    exact hs.access a
  tokensListed := by
    simp only [h.tokenList.mem_iff]
    exact hs.tokensListed
  tokensThere := fun p hp => hs.tokensThere p (h.tokenList.mem_iff.mp hp)

theorem SameMaps.maybeProvisionUsers
    (h : SameMaps conf conf') :
    maybeProvisionUsers b conf' foreignKeys draws s =
      maybeProvisionUsers b conf foreignKeys draws s := by
  have hstale : ∀ (rows : List User) (s : Store),
      removeStale conf' foreignKeys s rows = removeStale conf foreignKeys s rows := by
    intro rows
    induction rows with
    | nil =>
        exact fun _ => rfl
    | cons u rest ih =>
        intro s
        simp only [removeStale, h.isStale, ih]
  unfold Provisioning.maybeProvisionUsers
  rw [hstale, h.users]

end Orders

section Runs

variable {b : Bcrypt}
variable {conf conf' : Config}
variable {foreignKeys : Bool}
variable {draws : Draws}
variable {s s₁ s' s'' : Store}

/-- The user of an entry is everyone, or a user of the configuration. -/
def Named
    (conf : Config)
    (username : String) : Prop :=
  username = everyone ∨ username ∈ conf.users.map ConfigUser.name

theorem Valid.named_access
    (hvalid : Valid b conf)
    {p : String × List Grant}
    (hp : p ∈ conf.access) :
    Named conf p.1 := by
  refine (hvalid.accessUsers p hp).imp_right ?_
  rintro ⟨u, hu, hname, -⟩
  exact List.mem_map.mpr ⟨u, hu, hname⟩

theorem Valid.named_tokens
    (hvalid : Valid b conf)
    {p : String × List ConfigToken}
    (hp : p ∈ conf.tokens) :
    Named conf p.1 :=
  (hvalid.tokenUsers p hp).imp_right fun ⟨u, hu, hname⟩ =>
    List.mem_map.mpr ⟨u, hu, hname⟩

theorem Valid.named_tokenList
    (hvalid : Valid b conf)
    {p : String × ConfigToken}
    (hp : p ∈ conf.tokenList) :
    Named conf p.1 := by
  obtain ⟨q, hq, hp⟩ := List.mem_flatMap.mp hp
  obtain ⟨t, -, rfl⟩ := List.mem_map.mp hp
  exact hvalid.named_tokens hq

theorem Valid.ne_everyone
    (hvalid : Valid b conf)
    {u : ConfigUser}
    (hu : u ∈ conf.users) :
    u.name ≠ everyone := by
  intro h
  have hallowed := (hvalid.users u hu).1
  rw [h, not_allowedUsername_everyone] at hallowed
  cases hallowed

/-- The IDs of the users of entries once users are written. -/
theorem UsersDone.userID
    (hvalid : Valid b conf)
    (hdone : UsersDone conf foreignKeys draws s s₁)
    {username : String}
    (hnamed : Named conf username) :
    s₁.accounts.db.userID username = some (userIDFor draws s username) := by
  rcases hnamed with rfl | hmem
  · have hnot : everyone ∉ conf.users.map ConfigUser.name := by
      intro hmem
      obtain ⟨u, hu, hname⟩ := List.mem_map.mp hmem
      exact hvalid.ne_everyone hu hname
    obtain ⟨x, hx, hid, hname⟩ := s.accounts.db.everyone_row
    have hx₁ : x ∈ s₁.accounts.db.users := by
      refine (hdone.others x (hname ▸ hnot)).mpr ⟨hx, ?_⟩
      simp [Provisioning.isStale, hname]
    have hfound : s.accounts.db.userID everyone = some x.id :=
      Database.userID_eq_some_iff.mpr ⟨x, hx, hname, rfl⟩
    rw [userIDFor, hfound]
    exact Database.userID_eq_some_iff.mpr ⟨x, hx₁, hname, rfl⟩
  · obtain ⟨u, hu, rfl⟩ := List.mem_map.mp hmem
    have hlookup := (hdone.listed u hu).1
    rw [Database.userID, hlookup, userIDFor, Database.userID]
    cases hx : s.accounts.db.user u.name with
    | some x =>
        exact congrArg some (expectedUser_id_of_some hx)
    | none =>
        exact congrArg some (expectedUser_id_of_none hx)

/-- The tokens fit once users are written. -/
theorem tokensFit_of_applicable
    (hvalid : Valid b conf)
    (happ : Applicable conf foreignKeys draws s)
    (hdone : UsersDone conf foreignKeys draws s s₁) :
    TokensFit conf s₁.accounts.db s₁.tokens where
  values := hvalid.tokens
  free := by
    intro p hp q hq hvalue
    obtain ⟨hq₀, hstays⟩ := hdone.tokens q hq
    rw [hdone.userID hvalid (hvalid.named_tokenList hp)]
    exact congrArg some
      ((happ.free p hp q hq₀ hvalue).resolve_right hstays).symm
  limit := by
    intro p hp userID hid
    rw [hdone.userID hvalid (hvalid.named_tokens hp), Option.some.injEq] at hid
    subst hid
    refine Nat.le_trans (Nat.add_le_add_right ?_ _) (happ.limit p hp)
    refine (List.Nodup.subperm ?_ fun t ht => ?_).length_le
    · exact (s₁.tokens.nodup.of_map TokenRow.token).filter _
    · obtain ⟨ht, hcond⟩ := List.mem_filter.mp ht
      exact List.mem_filter.mpr ⟨(hdone.tokens t ht).1, hcond⟩

/-- A run after its users are written, from `s₁`. -/
structure Settled
    (conf : Config)
    (draws : Draws)
    (s₁ s' : Store) : Prop where
  pass : s'.accounts.pass = s₁.accounts.pass
  deleted : s'.accounts.deleted = s₁.accounts.deleted
  tiers : s'.accounts.tiers = s₁.accounts.tiers
  written :
    Written
      { s₁.accounts.db with
        access := s₁.accounts.db.access.delete AccessRow.provisioned }
      conf.grants s'.accounts.db
  tokens : TokensDone conf draws s₁.accounts.db s₁.tokens s'.tokens

/-- A run goes on after its users are written. -/
theorem exists_settled
    (hvalid : Valid b conf)
    (husers : maybeProvisionUsers b conf foreignKeys draws s = .ok s₁)
    (hids : ∀ n, Named conf n → (s₁.accounts.db.userID n).isSome = true)
    (hsub : ∀ t ∈ s₁.tokens, t ∈ s.tokens)
    (hfit : TokensFit conf s₁.accounts.db s₁.tokens) :
    ∃ s', provision b conf foreignKeys draws s = .ok s' ∧
      Settled conf draws s₁ s' := by
  obtain ⟨db, hdb, hwritten⟩ := exists_maybeProvisionGrants hvalid
    fun p hp => hids p.1 (hvalid.named_access hp)
  have hid : db.userID = s₁.accounts.db.userID := hwritten.userID
  have hfit' : TokensFit conf db s₁.tokens := by
    refine ⟨hfit.values, ?_, ?_⟩
    · rw [hid]
      exact hfit.free
    · rw [hid]
      exact hfit.limit
  have hlisted : ∀ p ∈ conf.tokens, (db.userID p.1).isSome = true ∧
      (p.1 ∈ conf.users.map ConfigUser.name ∨ p.1 = everyone) := by
    intro p hp
    rw [hid]
    exact ⟨hids p.1 (hvalid.named_tokens hp), (hvalid.named_tokens hp).symm⟩
  have htokens : ∃ T, maybeProvisionTokens conf draws db s.tokens s₁.tokens = .ok T ∧
      TokensDone conf draws db s₁.tokens T :=
    exists_maybeProvisionTokens hsub hfit' hlisted
  obtain ⟨tokens, htokens, hdone⟩ := htokens
  refine ⟨⟨{ s₁.accounts with db }, tokens⟩, ?_, rfl, rfl, rfl, hwritten, ?_⟩
  · unfold provision
    rw [hvalid.enabled, husers]
    change (maybeProvisionGrants conf s₁.accounts.db >>= _) = _
    rw [hdb]
    change (maybeProvisionTokens conf draws db s.tokens s₁.tokens >>= _) = _
    rw [htokens]
    rfl
  · unfold TokensDone at hdone ⊢
    rw [← hid]
    exact hdone

theorem Settled.userID
    (h : Settled conf draws s₁ s') :
    s'.accounts.db.userID = s₁.accounts.db.userID :=
  h.written.userID

theorem Settled.user
    (h : Settled conf draws s₁ s') :
    s'.accounts.db.user = s₁.accounts.db.user := by
  funext username
  rw [Database.user, h.written.users]
  rfl

/-- The result does not depend on the order of the maps. -/
theorem Settled.same
    (h : Settled conf draws s₁ s')
    (h' : Settled conf' draws s₁ s'')
    (hmaps : SameMaps conf conf') :
    SameStore s' s'' where
  users := h'.written.users.trans h.written.users.symm
  access := by
    intro a
    rw [h'.written.access, h.written.access]
    simp only [hmaps.grants.mem_iff]
  topicMeta := h'.written.topicMeta.trans h.written.topicMeta.symm
  contacts := h'.written.contacts.trans h.written.contacts.symm
  profiles := h'.written.profiles.trans h.written.profiles.symm
  pass := h'.pass.trans h.pass.symm
  deleted := h'.deleted.trans h.deleted.symm
  tiers := h'.tiers.trans h.tiers.symm
  tokens := by
    intro t
    rw [h'.tokens t, h.tokens t]
    simp only [hmaps.tokenList.mem_iff, hmaps.tokenValues]

theorem isGrantRow_provisioned
    {db : Database} {p : String × Grant} {a : AccessRow}
    (h : IsGrantRow db p a) :
    a.provisioned = true := by
  obtain ⟨id, hp, -, rfl⟩ := h
  rfl

theorem isGrantRow_congr
    {db db' : Database}
    (hid : db'.userID = db.userID)
    (p : String × Grant) (a : AccessRow) :
    IsGrantRow db' p a ↔ IsGrantRow db p a := by
  unfold IsGrantRow
  rw [hid]

/-- Entries that are not provisioned are those that no grant overwrites. -/
theorem Settled.access_of_not_provisioned
    (h : Settled conf draws s₁ s')
    {a : AccessRow}
    (ha : a ∈ s'.accounts.db.access)
    (hflag : a.provisioned = false) :
    ∀ p ∈ conf.grants, ¬ Covers s'.accounts.db p a := by
  intro p hp
  rcases (h.written.access a).mp ha with ⟨q, hq, hrow⟩ | ⟨-, hnot⟩
  · rw [isGrantRow_provisioned hrow] at hflag
    cases hflag
  · unfold Covers
    rw [h.userID]
    exact hnot p hp

/-- A token of the configuration after a run. -/
theorem isTokenRow_writtenToken
    {db : Database} {T : Table TokenRow.token}
    {p : String × ConfigToken} {userID : String}
    (hid : db.userID p.1 = some userID) :
    IsTokenRow db p (writtenToken draws T userID p.2) := by
  refine ⟨?_, writtenToken_token _ _ _ _, ?_⟩
  · rw [writtenToken_userId]
    exact hid
  · unfold writtenToken
    split <;> exact ⟨rfl, rfl, rfl⟩

/-- After a run the database holds what the configuration says. -/
theorem Settled.established
    (hvalid : Valid b conf)
    (hdone : UsersDone conf foreignKeys draws s s₁)
    (h : Settled conf draws s₁ s') :
    Established b conf s' where
  users := by
    intro u hu
    obtain ⟨huser, hpass, hdeleted⟩ := hdone.listed u hu
    rw [← h.user] at huser
    rw [← h.pass] at hpass
    rw [← h.deleted] at hdeleted
    have hrole : (expectedUser draws s.accounts u).role = u.role ∧
        (expectedUser draws s.accounts u).provisioned = true := by
      unfold expectedUser
      split <;> exact ⟨rfl, rfl⟩
    refine ⟨_, (Database.user_eq_some_iff.mp huser).1, expectedUser_name _ _ _,
      hrole.1, hrole.2, hpass, fun password hpassword => ?_⟩
    simp only [Accounts.authenticate, if_neg (hvalid.ne_everyone hu), huser, hdeleted,
      Bool.false_eq_true, if_false, hpass, hpassword, if_true]
  gone := by
    intro x hx hflag
    have hx₁ : x ∈ s₁.accounts.db.users := by
      have husers : s'.accounts.db.users = s₁.accounts.db.users := h.written.users
      rwa [husers] at hx
    by_cases hlisted : x.name ∈ conf.users.map ConfigUser.name
    · exact Or.inr hlisted
    · left
      have hstale := ((hdone.others x hlisted).mp hx₁).2
      simpa [isStale, hflag, hlisted] using hstale
  access := by
    intro a
    rw [h.written.access a]
    simp only [isGrantRow_congr h.userID]
    constructor
    · rintro ⟨hrow | ⟨hkept, -⟩, hflag⟩
      · exact hrow
      · rw [(Table.mem_delete_iff.mp hkept).2] at hflag
        cases hflag
    · rintro ⟨p, hp, hrow⟩
      exact ⟨Or.inl ⟨p, hp, hrow⟩, isGrantRow_provisioned hrow⟩
  tokensListed := by
    intro t ht hflag
    rcases (h.tokens t).mp ht with ⟨p, hp, userID, hid, rfl⟩ | ⟨-, -, hnot⟩
    · refine ⟨p, hp, isTokenRow_writtenToken ?_⟩
      rw [h.userID]
      exact hid
    · rw [hnot] at hflag
      cases hflag
  tokensThere := by
    intro p hp
    have hid := hdone.userID hvalid (hvalid.named_tokenList hp)
    refine ⟨_, (h.tokens _).mpr (Or.inl ⟨p, hp, _, hid, rfl⟩), ?_⟩
    refine isTokenRow_writtenToken ?_
    rw [h.userID]
    exact hid

/-- The tokens of a configuration that is established fit. -/
theorem Established.tokensFit
    (hvalid : Valid b conf)
    (hs : Established b conf s)
    (hlimit : ∀ p ∈ conf.tokens, ∀ userID, s.accounts.db.userID p.1 = some userID →
      (s.tokens.rows.filter (isOther conf userID)).length +
        (listedTokens conf p.1).length ≤ tokenMaxCount) :
    TokensFit conf s.accounts.db s.tokens := by
  refine ⟨hvalid.tokens, fun p hp q hq hvalue => ?_, hlimit⟩
  obtain ⟨t, ht, hrow⟩ := hs.tokensThere p hp
  rw [← Table.eq_of_key_eq ht hq (hrow.2.1.trans hvalue.symm)]
  exact hrow.1

/-- A token that is as configured is written as it is. -/
theorem writtenToken_of_isTokenRow
    {db : Database} {T : Table TokenRow.token}
    {p : String × ConfigToken} {t : TokenRow} {userID : String}
    (ht : t ∈ T)
    (hrow : IsTokenRow db p t)
    (hid : db.userID p.1 = some userID) :
    writtenToken draws T userID p.2 = t := by
  obtain ⟨huser, hvalue, hlabel, hexpires, hflag⟩ := hrow
  have hfind : T.find? p.2.value = some t :=
    Table.find?_eq_some_iff.mpr ⟨ht, hvalue⟩
  have huser' : userID = t.userId := Option.some.inj (hid.symm.trans huser)
  unfold writtenToken
  rw [hfind, huser', ← hlabel, ← hexpires, ← hflag]

/-- A run over a database that holds the configuration changes nothing. -/
theorem provision_of_established
    (hvalid : Valid b conf)
    (hs : Established b conf s)
    (hkept : ∀ a ∈ s.accounts.db.access, a.provisioned = false →
      ∀ p ∈ conf.grants, ¬ Covers s.accounts.db p a)
    (hfit : TokensFit conf s.accounts.db s.tokens) :
    ∃ s', provision b conf foreignKeys draws s = .ok s' ∧ SameStore s s' := by
  have hlookup : ∀ u ∈ conf.users, ∃ x, s.accounts.db.user u.name = some x ∧
      x.provisioned = true ∧ s.accounts.pass x.id = u.hash ∧ x.role = u.role := by
    intro u hu
    obtain ⟨x, hx, hname, hrole, hflag, hpass, -⟩ := hs.users u hu
    exact ⟨x, Database.user_eq_some_iff.mpr ⟨hx, hname⟩, hflag, hpass, hrole⟩
  have hstale : ∀ x ∈ s.accounts.db.users, isStale conf x = false := by
    intro x hx
    cases hflag : x.provisioned with
    | false =>
        simp [isStale, hflag]
    | true =>
        rcases hs.gone x hx hflag with hname | hname
        · simp [isStale, hname]
        · exact isStale_of_listed hname
  have husers : maybeProvisionUsers b conf foreignKeys draws s = .ok s :=
    maybeProvisionUsers_of_done (fun u hu => hvalid.ne_everyone hu) hlookup hstale
  have hids : ∀ n, Named conf n → (s.accounts.db.userID n).isSome = true := by
    rintro n (rfl | hmem)
    · obtain ⟨x, hx, -, hname⟩ := s.accounts.db.everyone_row
      rw [Database.userID_eq_some_iff.mpr ⟨x, hx, hname, rfl⟩]
      rfl
    · obtain ⟨u, hu, rfl⟩ := List.mem_map.mp hmem
      obtain ⟨x, hx, -⟩ := hlookup u hu
      rw [Database.userID, hx]
      rfl
  obtain ⟨s', hs', h⟩ := exists_settled hvalid husers hids (fun t ht => ht) hfit
  refine ⟨s', hs', h.written.users, fun a => ?_, h.written.topicMeta,
    h.written.contacts, h.written.profiles, h.pass, h.deleted, h.tiers, fun t => ?_⟩
  · rw [h.written.access a, Table.mem_delete_iff]
    constructor
    · rintro (hrow | ⟨⟨ha, -⟩, -⟩)
      · exact ((hs.access a).mpr hrow).1
      · exact ha
    · intro ha
      cases hflag : a.provisioned with
      | true =>
          exact Or.inl ((hs.access a).mp ⟨ha, hflag⟩)
      | false =>
          exact Or.inr ⟨⟨ha, rfl⟩, hkept a ha hflag⟩
  · rw [h.tokens t]
    constructor
    · rintro (⟨p, hp, userID, hid, rfl⟩ | ⟨ht, -⟩)
      · obtain ⟨q, hq, hrow⟩ := hs.tokensThere p hp
        rw [writtenToken_of_isTokenRow hq hrow hid]
        exact hq
      · exact ht
    · intro ht
      cases hflag : t.provisioned with
      | true =>
          obtain ⟨p, hp, hrow⟩ := hs.tokensListed t ht hflag
          exact Or.inl ⟨p, hp, t.userId, hrow.1,
            (writtenToken_of_isTokenRow ht hrow hrow.1).symm⟩
      | false =>
          refine Or.inr ⟨ht, fun hvalue => ?_, rfl⟩
          rw [tokenValues_eq] at hvalue
          obtain ⟨p, hp, hvalue⟩ := List.mem_map.mp hvalue
          obtain ⟨q, hq, hrow⟩ := hs.tokensThere p hp
          rw [← Table.eq_of_key_eq hq ht (hrow.2.1.trans hvalue), hrow.2.2.2.2] at hflag
          cases hflag

/-- The tokens fit after a run as they did before. -/
theorem Settled.tokensFit
    (hvalid : Valid b conf)
    (hfit : TokensFit conf s₁.accounts.db s₁.tokens)
    (hs' : Established b conf s')
    (h : Settled conf draws s₁ s') :
    TokensFit conf s'.accounts.db s'.tokens := by
  refine hs'.tokensFit hvalid fun p hp userID hid => ?_
  rw [h.userID] at hid
  refine Nat.le_trans (Nat.add_le_add_right ?_ _) (hfit.limit p hp userID hid)
  refine (List.Nodup.subperm ?_ fun t ht => ?_).length_le
  · exact (s'.tokens.nodup.of_map TokenRow.token).filter _
  · obtain ⟨ht, hcond⟩ := List.mem_filter.mp ht
    refine List.mem_filter.mpr ⟨?_, hcond⟩
    rcases (h.tokens t).mp ht with ⟨q, hq, id, -, rfl⟩ | ⟨ht₁, -⟩
    · have hlisted : q.2.value ∈ conf.tokenValues := by
        rw [tokenValues_eq]
        exact List.mem_map.mpr ⟨q, hq, rfl⟩
      simp [isOther, writtenToken_token, hlisted] at hcond
    · exact ht₁

/--
A run establishes the configuration.  The order in which the maps are iterated does
not matter, and neither a second run nor one in another order changes anything.
-/
theorem provision_establishes
    (hvalid : Valid b conf)
    (happ : Applicable conf foreignKeys draws s) :
    ∃ s', provision b conf foreignKeys draws s = .ok s' ∧
      Established b conf s' ∧
      ∀ conf', SameMaps conf conf' →
        (∃ s'', provision b conf' foreignKeys draws s = .ok s'' ∧
          SameStore s' s'') ∧
        ∀ foreignKeys' draws', ∃ s'',
          provision b conf' foreignKeys' draws' s' = .ok s'' ∧ SameStore s' s'' := by
  obtain ⟨s₁, husers, hdone⟩ := exists_maybeProvisionUsers hvalid happ
  have hfit := tokensFit_of_applicable hvalid happ hdone
  have hids : ∀ n, Named conf n → (s₁.accounts.db.userID n).isSome = true := by
    intro n hn
    rw [hdone.userID hvalid hn]
    rfl
  have hsub : ∀ t ∈ s₁.tokens, t ∈ s.tokens := fun t ht => (hdone.tokens t ht).1
  obtain ⟨s', hs', h⟩ := exists_settled hvalid husers hids hsub hfit
  have hestablished := h.established hvalid hdone
  refine ⟨s', hs', hestablished, fun conf' hmaps => ⟨?_, fun foreignKeys' draws' => ?_⟩⟩
  · have happ' := hmaps.applicable happ
    have hvalid' := hmaps.valid hvalid
    have husers' : maybeProvisionUsers b conf' foreignKeys draws s = .ok s₁ :=
      hmaps.maybeProvisionUsers.trans husers
    obtain ⟨s₂, husers₂, hdone₂⟩ := exists_maybeProvisionUsers hvalid' happ'
    have hsame : s₂ = s₁ := Except.ok.inj (husers₂.symm.trans husers')
    rw [hsame] at hdone₂
    have hids' : ∀ n, Named conf' n → (s₁.accounts.db.userID n).isSome = true := by
      intro n hn
      rw [hdone₂.userID hvalid' hn]
      rfl
    obtain ⟨s'', hs'', h'⟩ := exists_settled hvalid' husers' hids' hsub
      (tokensFit_of_applicable hvalid' happ' hdone₂)
    exact ⟨s'', hs'', h.same h' hmaps⟩
  · have hvalid' := hmaps.valid hvalid
    have hestablished' := hmaps.established hestablished
    have hfit' := h.tokensFit hvalid hfit hestablished
    refine provision_of_established hvalid' hestablished' ?_
      (hestablished'.tokensFit hvalid' ?_)
    · intro a ha hflag p hp
      exact h.access_of_not_provisioned ha hflag p (hmaps.grants.mem_iff.mp hp)
    · intro p hp userID hid
      rw [hmaps.isOther, hmaps.listedTokens]
      exact hfit'.limit p (hmaps.tokens.mem_iff.mp hp) userID hid

end Runs

section Examples

/-- A hash function that can be evaluated. -/
def exampleBcrypt : Bcrypt where
  generateFromPassword _ password :=
    if password.utf8ByteSize ≤ 72 then some ("$2a$10$" ++ password) else none
  compareHashAndPassword hash password :=
    decide (hash = "$2a$10$" ++ password)
  cost hash := if "$2a$10$".toList.isPrefixOf hash.toList then some 10 else none
  minCost := 10

/-- A user with an entry and a token. -/
def exampleConfig : Config where
  provisionEnabled := true
  users := [⟨"phil", "$2a$10$secret", .user⟩]
  access := [("phil", [⟨"alerts", .readWrite⟩]), (everyone, [⟨"news*", .read⟩])]
  tokens := [("phil", [⟨"tk_7eevizlsiwf9yi4uxsrs83r4352o0", "backup"⟩])]

def exampleDraws : Draws where
  userID username := "u_" ++ username
  now _ := 1700000000

/-- The database of an account with these tokens. -/
def exampleStore
    (u : User)
    (tokens : Table TokenRow.token)
    (hid : u.id ≠ everyoneID)
    (hname : allowedUsername u.name = true)
    (hne : u.name ≠ everyone) : Store where
  accounts :=
    { db :=
        { Database.initial with
          users :=
            ⟨[⟨everyoneID, everyone, .anonymous, none, ⟨0, 0, 0⟩, false⟩, u],
              by simpa using hid.symm⟩
          names_nodup := by simpa using hne.symm
          names_allowed := by
            intro v hv
            rcases List.mem_cons.mp hv with rfl | hv
            · exact Or.inl rfl
            · rw [List.mem_singleton.mp hv]
              exact Or.inr hname
          everyone_row := ⟨_, List.mem_cons_self, rfl, rfl⟩ }
      pass := fun _ => "$2a$10$other"
      deleted := fun _ => false
      tiers := .empty }
  tokens

/-- A user of an earlier configuration. -/
def staleUser : User :=
  ⟨"u_ben", "ben", .user, none, ⟨0, 0, 0⟩, true⟩

/-- The database that an earlier configuration left. -/
def staleStore : Store :=
  exampleStore staleUser
    ⟨[⟨"u_ben", "tk_f099we8uzj7xi5qshzajwp6jffvkz", "", 0, "0.0.0.0", 0, true⟩],
      by decide⟩
    (by decide) (by decide +kernel) (by decide +kernel)

theorem valid_exampleConfig :
    Valid exampleBcrypt exampleConfig where
  enabled := rfl
  names := by decide
  users := by
    intro u hu
    rw [List.mem_singleton.mp hu]
    exact ⟨by decide +kernel, rfl, by rfl⟩
  accessUsers := by decide
  patterns := by decide +kernel
  grants := by decide +kernel
  tokenUsers := by decide
  tokens := by decide +kernel

theorem applicable_staleStore :
    Applicable exampleConfig true exampleDraws staleStore where
  active := fun _ _ _ _ => rfl
  fresh := by
    intro u hu _
    rw [List.mem_singleton.mp hu]
    refine ⟨fun x hx => ?_, fun v hv _ _ => List.mem_singleton.mp hv⟩
    rcases List.mem_cons.mp hx with rfl | hx
    · decide
    · rw [List.mem_singleton.mp hx]
      decide
  free := by
    intro p hp t ht hvalue
    rw [List.mem_singleton.mp ht] at hvalue
    rw [List.mem_singleton.mp hp] at hvalue
    exact absurd hvalue (by decide)
  limit := by decide +kernel

/-- The configuration is established over what an earlier one left. -/
theorem provision_over_earlier_configuration :
    ∃ s', provision exampleBcrypt exampleConfig true exampleDraws staleStore = .ok s' ∧
      Established exampleBcrypt exampleConfig s' := by
  obtain ⟨s', hs', hestablished, -⟩ :=
    provision_establishes valid_exampleConfig applicable_staleStore
  exact ⟨s', hs', hestablished⟩

/-- One of many tokens. -/
def exampleToken
    (i : Nat) : ConfigToken :=
  ⟨"tk_" ++ toString (10 + i) ++ "000000000000000000000000000", ""⟩

theorem exampleToken_injective
    {i j : Nat}
    (h : (exampleToken i).value = (exampleToken j).value) :
    i = j := by
  dsimp only [exampleToken] at h
  have hrepr : (10 + i).repr = (10 + j).repr :=
    (String.append_right_inj _).mp ((String.append_left_inj _).mp h)
  have hdigits := congrArg (fun s => Nat.ofDigitChars 10 s.toList 0) hrepr
  simp only [Nat.toList_repr, Nat.ofDigitChars_ten_toDigits] at hdigits
  exact Nat.add_left_cancel hdigits

/-- A configuration with one token more than are kept. -/
def crowdedConfig : Config :=
  { exampleConfig with
    tokens := [("phil", (List.range (tokenMaxCount + 1)).map exampleToken)] }

theorem valid_crowdedConfig :
    Valid exampleBcrypt crowdedConfig :=
  { valid_exampleConfig with
    tokenUsers := by
      intro p hp
      rw [List.mem_singleton.mp hp]
      exact Or.inr ⟨_, List.mem_singleton_self _, rfl⟩
    tokens := by
      have hvalues : crowdedConfig.tokenList.map (fun p => p.2.value) =
          (List.range (tokenMaxCount + 1)).map (fun i => (exampleToken i).value) :=
        rfl
      rw [hvalues]
      exact List.nodup_range.map fun i j h => exampleToken_injective h }

/-- A user has at most 60 tokens: one of those in the configuration is missing. -/
theorem provisioned_token_pruned :
    Valid exampleBcrypt crowdedConfig ∧
      ∃ s', provision exampleBcrypt crowdedConfig true exampleDraws staleStore =
        .ok s' ∧ ¬ Established exampleBcrypt crowdedConfig s' := by
  refine ⟨valid_crowdedConfig, ?_⟩
  have hrun : (provision exampleBcrypt crowdedConfig true exampleDraws
      staleStore).toOption.map (fun s => s.tokens.rows.length) =
        some tokenMaxCount := by
    decide +kernel
  cases h : provision exampleBcrypt crowdedConfig true exampleDraws staleStore with
  | error e =>
      rw [h] at hrun
      cases hrun
  | ok s' =>
      rw [h] at hrun
      refine ⟨s', rfl, fun hestablished => ?_⟩
      have hall : (crowdedConfig.tokenList.map (fun p => p.2.value)).length ≤
          (s'.tokens.rows.map TokenRow.token).length := by
        refine (valid_crowdedConfig.tokens.subperm fun value hvalue => ?_).length_le
        obtain ⟨p, hp, rfl⟩ := List.mem_map.mp hvalue
        obtain ⟨t, ht, -, htoken, -⟩ := hestablished.tokensThere p hp
        exact List.mem_map.mpr ⟨t, ht, htoken⟩
      have hlisted : (crowdedConfig.tokenList.map (fun p => p.2.value)).length =
          tokenMaxCount + 1 := by
        decide +kernel
      have hrows : s'.tokens.rows.length = tokenMaxCount := Option.some.inj hrun
      rw [hlisted, List.length_map, hrows] at hall
      exact absurd hall (Nat.not_succ_le_self _)

end Examples

end Provisioning
end Manager
end CoopMessenger
