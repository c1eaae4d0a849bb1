import CoopMessenger.Library.Lines
import CoopMessenger.Manager.ProvisioningRuns
import CoopMessenger.Util.Trimming

/-!
# Users, access entries and tokens of the configuration file

`parseUsers`, `parseAccess` and `parseTokens` of `cmd/serve.go` read the settings
`auth-users`, `auth-access` and `auth-tokens`, from which the database is provisioned.

**Results.**
* `valid_iff`: what is accepted can be provisioned, unless something is listed twice.
* `provision_parsed`: it is then established.
* `parseSettings_error`: an error names the first line that cannot be read.
-/

namespace CoopMessenger
namespace Cmd

open Library
open Manager
open Provisioning

section Model

def userEveryone : String := "everyone"

/-- `DefaultUserPasswordBcryptCost`, also the cost that the manager is configured with. -/
def defaultUserPasswordBcryptCost : Nat := 10

/-- The hash function with the cost that the server requires. -/
def withCost (b : Bcrypt) : Bcrypt :=
  { b with minCost := defaultUserPasswordBcryptCost }

/-- `^tk_[-_A-Za-z0-9]{29}$` -/
def validToken (token : String) : Bool :=
  "tk_".toList.isPrefixOf token.toList &&
    decide (token.toList.length = 32) && (token.toList.drop 3).all topicChar

/-- What is wrong with a line. -/
inductive SettingError where
  | usersFormat (line : String)
  | usersName (line : String)
  | usersHash (line : String) (e : Error)
  | usersRole (line role : String)
  | accessFormat (line : String)
  | accessMissing (line username : String)
  | accessName (line username : String)
  | accessRole (line username : String)
  | accessPattern (line topic : String)
  | accessPermission (line permission : String)
  | tokensFormat (line : String)
  | tokensMissing (line username : String)
  | tokensName (line username : String)
  | tokensValue (line token : String)
deriving DecidableEq, Repr

/-- The line that an error names. -/
def SettingError.line : SettingError → String
  | .usersFormat line | .usersName line | .usersHash line _ | .usersRole line _
  | .accessFormat line | .accessMissing line _ | .accessName line _ | .accessRole line _
  | .accessPattern line _ | .accessPermission line _
  | .tokensFormat line | .tokensMissing line _ | .tokensName line _
  | .tokensValue line _ => line

/-- The text of an error; `message` is that of the user manager. -/
def SettingError.text (message : Error → String) : SettingError → String
  | .usersFormat line => s!"invalid auth-users: {line}, expected format: 'name:hash:role'"
  | .usersName line => s!"invalid auth-users: {line}, username invalid"
  | .usersHash line e =>
      s!"invalid auth-users: {line}, password hash invalid, " ++ message e
  | .usersRole line role =>
      s!"invalid auth-users: {line}, role {role} is not allowed, " ++
        "allowed roles are 'admin' or 'user'"
  | .accessFormat line =>
      s!"invalid auth-access: {line}, expected format: 'user:topic:permission'"
  | .accessMissing line username =>
      s!"invalid auth-access: {line}, user {username} is not provisioned"
  | .accessName line username =>
      s!"invalid auth-access: {line}, username {username} invalid"
  | .accessRole line username =>
      s!"invalid auth-access: {line}, user {username} is not a regular user, " ++
        "only regular users can have ACL entries"
  | .accessPattern line topic =>
      s!"invalid auth-access: {line}, topic pattern {topic} invalid"
  | .accessPermission line permission =>
      s!"invalid auth-access: {line}, permission {permission} invalid, invalid permission"
  | .tokensFormat line =>
      s!"invalid auth-tokens: {line}, expected format: 'user:token[:label]'"
  | .tokensMissing line username =>
      s!"invalid auth-tokens: {line}, user {username} is not provisioned"
  | .tokensName line username =>
      s!"invalid auth-tokens: {line}, username {username} invalid"
  | .tokensValue line token =>
      s!"invalid auth-tokens: {line}, token {token} invalid, " ++
        "use 'ntfy token generate' to generate a random token"

/-- The roles by their names. -/
def roleOf (s : String) : Option Role :=
  match s with
  | "admin" => some .admin
  | "user" => some .user
  | "anonymous" => some .anonymous
  | _ => none

/-- `strings.Split(line, ":")` -/
def parts (line : String) : List String :=
  (line.toList.splitOn ':').map String.ofList

variable (b : Bcrypt)

def parseUserLine (line : String) : Except SettingError ConfigUser :=
  match parts line with
  | [name, hash, roleText] =>
      let username := Util.trim name
      let passwordHash := Util.trim hash
      if !allowedUsername username then
        .error (.usersName line)
      else
        match validPasswordHash (withCost b) passwordHash, roleOf (Util.trim roleText) with
        | .error e, _ => .error (.usersHash line e)
        | .ok (), none => .error (.usersRole line (Util.trim roleText))
        | .ok (), some role =>
            if !allowedRole role then
              .error (.usersRole line (Util.trim roleText))
            else
              .ok ⟨username, passwordHash, role⟩
  | _ => .error (.usersFormat line)

def parseUsers (usersRaw : List String) : Except SettingError (List ConfigUser) :=
  usersRaw.mapM (parseUserLine b)

variable (users : List ConfigUser)

/-- May entries be given for this user? -/
def checkAccessUser (line username : String) : Except SettingError Unit :=
  if username = everyone then
    .ok ()
  else
    match users.find? fun u => decide (u.name = username) with
    | none => .error (.accessMissing line username)
    | some u =>
        if !allowedUsername username then
          .error (.accessName line username)
        else if u.role ≠ .user then
          .error (.accessRole line username)
        else
          .ok ()

def parseAccessLine (line : String) : Except SettingError (String × Grant) :=
  match parts line with
  | [name, pattern, permissionText] =>
      let username := if Util.trim name = userEveryone then everyone else Util.trim name
      match checkAccessUser users line username with
      | .error e => .error e
      | .ok () =>
          let topic := Util.trim pattern
          if !allowedTopicPattern topic then
            .error (.accessPattern line topic)
          else
            match parsePermission (Util.trim permissionText) with
            | none => .error (.accessPermission line permissionText)
            | some permission => .ok (username, ⟨topic, permission⟩)
  | _ => .error (.accessFormat line)

def parseAccess
    (accessRaw : List String) : Except SettingError (List (String × List Grant)) :=
  (accessRaw.mapM (parseAccessLine users)).map collectLists

def parseTokenLine (line : String) : Except SettingError (String × ConfigToken) :=
  let parse := fun name value label =>
    let username := Util.trim name
    let token := Util.trim value
    if (users.find? fun u => decide (u.name = username)).isNone then
      .error (.tokensMissing line username)
    else if !allowedUsername username then
      .error (.tokensName line username)
    else if !validToken token then
      .error (.tokensValue line token)
    else
      .ok (username, ⟨token, label⟩)
  match parts line with
  | [name, value] => parse name value ""
  | [name, value, label] => parse name value label
  | _ => .error (.tokensFormat line)

def parseTokens
    (tokensRaw : List String) : Except SettingError (List (String × List ConfigToken)) :=
  (tokensRaw.mapM (parseTokenLine users)).map collectLists

/-- The lines of the three settings. -/
structure AuthSettings where
  users : List String
  access : List String
  tokens : List String

/-- The configuration that the manager gets. -/
def parseSettings (settings : AuthSettings) : Except SettingError Config := do
  let users ← parseUsers b settings.users
  let access ← parseAccess users settings.access
  let tokens ← parseTokens users settings.tokens
  return ⟨true, users, access, tokens⟩

end Model

section Lines

/-- A part of a line, without the white space around it. -/
def field
    (i : Nat)
    (line : String) : String :=
  Util.trim ((parts line).getD i "")

/-- The user of an access entry. -/
def accessUser (line : String) : String :=
  if field 0 line = userEveryone then everyone else field 0 line

/-- Nothing is listed twice. -/
structure Distinct (settings : AuthSettings) : Prop where
  users : (settings.users.map (field 0)).Nodup
  access : (settings.access.map fun line => (accessUser line, field 1 line)).Nodup
  tokens : (settings.tokens.map (field 1)).Nodup

variable {b : Bcrypt}
variable {users : List ConfigUser}
variable {line : String}

theorem parseUserLine_spec
    {u : ConfigUser}
    (h : parseUserLine b line = .ok u) :
    u.name = field 0 line ∧ allowedUsername u.name = true ∧ allowedRole u.role = true ∧
      validPasswordHash (withCost b) u.hash = .ok () := by
  unfold parseUserLine at h
  split at h
  · next name hash roleText hparts =>
      dsimp only at h
      split at h
      · cases h
      · next hname =>
          split at h
          · cases h
          · cases h
          · next role hhash hrole =>
              split at h
              · cases h
              · next hallowed =>
                  cases h
                  rw [Bool.not_eq_true, Bool.not_eq_false'] at hname hallowed
                  exact ⟨by simp [field, hparts], hname, hallowed, hhash⟩
  · cases h

theorem checkAccessUser_spec
    {username : String}
    (h : checkAccessUser users line username = .ok ()) :
    username = everyone ∨ ∃ u ∈ users, u.name = username ∧ u.role ≠ .admin := by
  unfold checkAccessUser at h
  split at h
  · next heveryone => exact .inl heveryone
  · split at h
    · cases h
    · next u hu =>
        split at h
        · cases h
        · split at h
          · cases h
          · next hrole =>
              refine .inr ⟨u, List.mem_of_find?_eq_some hu, ?_, ?_⟩
              · simpa using List.find?_some hu
              · rw [not_not.mp hrole]
                decide

theorem parseAccessLine_spec
    {p : String × Grant}
    (h : parseAccessLine users line = .ok p) :
    (p.1, p.2.topicPattern) = (accessUser line, field 1 line) ∧
      allowedTopicPattern p.2.topicPattern = true ∧
      (p.1 = everyone ∨ ∃ u ∈ users, u.name = p.1 ∧ u.role ≠ .admin) := by
  unfold parseAccessLine at h
  split at h
  · next name pattern permissionText hparts =>
      dsimp only at h
      split at h
      · cases h
      · next huser =>
          split at h
          · cases h
          · next hpattern =>
              split at h
              · cases h
              · cases h
                rw [Bool.not_eq_true, Bool.not_eq_false'] at hpattern
                refine ⟨?_, hpattern, checkAccessUser_spec huser⟩
                simp [accessUser, field, hparts]
  · cases h

theorem parseTokenLine_spec
    {p : String × ConfigToken}
    (h : parseTokenLine users line = .ok p) :
    p.2.value = field 1 line ∧ ∃ u ∈ users, u.name = p.1 := by
  have hparse : ∃ name value label rest, parts line = name :: value :: rest ∧
      (users.find? fun u => decide (u.name = Util.trim name)).isSome = true ∧
      p = (Util.trim name, ⟨Util.trim value, label⟩) := by
    unfold parseTokenLine at h
    dsimp only at h
    split at h
    · next name value hparts =>
        split at h
        · cases h
        · next hfound =>
            rw [← Option.not_isSome, Bool.not_eq_true', Bool.not_eq_false] at hfound
            split at h
            · cases h
            · split at h
              · cases h
              · cases h
                exact ⟨name, value, "", [], hparts, hfound, rfl⟩
    · next name value label hparts =>
        split at h
        · cases h
        · next hfound =>
            rw [← Option.not_isSome, Bool.not_eq_true', Bool.not_eq_false] at hfound
            split at h
            · cases h
            · split at h
              · cases h
              · cases h
                exact ⟨name, value, label, [label], hparts, hfound, rfl⟩
    · cases h
  obtain ⟨name, value, label, rest, hparts, hfound, rfl⟩ := hparse
  obtain ⟨u, hu⟩ := Option.isSome_iff_exists.mp hfound
  refine ⟨by simp [field, hparts], u, List.mem_of_find?_eq_some hu, ?_⟩
  simpa using List.find?_some hu

theorem line_of_parseUserLine
    {e : SettingError}
    (h : parseUserLine b line = .error e) :
    e.line = line := by
  unfold parseUserLine at h
  dsimp only at h
  split at h
  · split at h
    · cases h
      rfl
    · split at h
      · cases h
        rfl
      · cases h
        rfl
      · split at h
        · cases h
          rfl
        · cases h
  · cases h
    rfl

theorem line_of_checkAccessUser
    {e : SettingError} {username : String}
    (h : checkAccessUser users line username = .error e) :
    e.line = line := by
  unfold checkAccessUser at h
  split at h
  · cases h
  · split at h
    · cases h
      rfl
    · split at h
      · cases h
        rfl
      · split at h
        · cases h
          rfl
        · cases h

theorem line_of_parseAccessLine
    {e : SettingError}
    (h : parseAccessLine users line = .error e) :
    e.line = line := by
  unfold parseAccessLine at h
  dsimp only at h
  split at h
  · split at h
    · next hcheck =>
        cases h
        exact line_of_checkAccessUser hcheck
    · split at h
      · cases h
        rfl
      · split at h
        · cases h
          rfl
        · cases h
  · cases h
    rfl

theorem line_of_parseTokenLine
    {e : SettingError}
    (h : parseTokenLine users line = .error e) :
    e.line = line := by
  unfold parseTokenLine at h
  dsimp only at h
  split at h
  case h_3 =>
    cases h
    rfl
  all_goals
    split at h
    · cases h
      rfl
    · split at h
      · cases h
        rfl
      · split at h
        · cases h
          rfl
        · cases h

end Lines

section Configurations

variable {b : Bcrypt}
variable {settings : AuthSettings}
variable {conf conf' : Config}

/-- The lines that a configuration was read from. -/
structure Parsed
    (b : Bcrypt)
    (settings : AuthSettings)
    (conf : Config) : Prop where
  enabled : conf.provisionEnabled = true
  users : settings.users.mapM (parseUserLine b) = .ok conf.users
  access : ∃ entries, settings.access.mapM (parseAccessLine conf.users) = .ok entries ∧
    conf.access = collectLists entries
  tokens : ∃ entries, settings.tokens.mapM (parseTokenLine conf.users) = .ok entries ∧
    conf.tokens = collectLists entries

theorem map_eq_ok
    {ε α β : Type} {x : Except ε α} {f : α → β} {y : β}
    (h : x.map f = .ok y) :
    ∃ a, x = .ok a ∧ y = f a := by
  cases x with
  | error e => cases h
  | ok a => exact ⟨a, rfl, (Except.ok.inj h).symm⟩

theorem parsed_of_parseSettings
    (h : parseSettings b settings = .ok conf) :
    Parsed b settings conf := by
  obtain ⟨users, husers, h⟩ := exists_of_bind_eq_ok h
  obtain ⟨access, haccess, h⟩ := exists_of_bind_eq_ok h
  obtain ⟨tokens, htokens, h⟩ := exists_of_bind_eq_ok h
  cases h
  exact ⟨rfl, husers, map_eq_ok haccess, map_eq_ok htokens⟩

/-- The users, entries and tokens of the configuration are those of the lines. -/
theorem Parsed.names
    (h : Parsed b settings conf) :
    conf.users.map ConfigUser.name = settings.users.map (field 0) :=
  map_eq_of_mapM h.users fun _ _ hline => (parseUserLine_spec hline).1

theorem Parsed.grants
    (h : Parsed b settings conf) :
    (conf.grants.map fun p => (p.1, p.2.topicPattern)).Perm
      (settings.access.map fun line => (accessUser line, field 1 line)) := by
  obtain ⟨entries, hentries, haccess⟩ := h.access
  have hread := map_eq_of_mapM (g := fun p => (p.1, p.2.topicPattern)) hentries
    fun _ _ hline => (parseAccessLine_spec hline).1
  rw [Config.grants, haccess, ← hread]
  exact (perm_entries_collectLists entries).map _

theorem Parsed.tokenList
    (h : Parsed b settings conf) :
    (conf.tokenList.map fun p => p.2.value).Perm (settings.tokens.map (field 1)) := by
  obtain ⟨entries, hentries, htokens⟩ := h.tokens
  have hread := map_eq_of_mapM (g := fun p => p.2.value) hentries
    fun _ _ hline => (parseTokenLine_spec hline).1
  rw [Config.tokenList, htokens, ← hread]
  exact (perm_entries_collectLists entries).map _

/-- What is accepted can be provisioned, unless something is listed twice. -/
theorem Parsed.valid_iff
    (h : Parsed b settings conf) :
    Valid (withCost b) conf ↔ Distinct settings := by
  constructor
  · intro hvalid
    refine ⟨?_, ?_, ?_⟩
    · rw [← h.names]
      exact hvalid.names
    · exact h.grants.nodup_iff.mp hvalid.grants
    · exact h.tokenList.nodup_iff.mp hvalid.tokens
  · intro hdistinct
    refine ⟨h.enabled, ?_, ?_, ?_, ?_, ?_, ?_, ?_⟩
    · rw [h.names]
      exact hdistinct.users
    · exact forall_of_mapM h.users fun _ _ hline => (parseUserLine_spec hline).2
    · intro p hp
      obtain ⟨entries, hentries, haccess⟩ := h.access
      rw [haccess] at hp
      obtain ⟨entry, hentry, hkey⟩ := mem_keys_collectLists hp
      rw [← hkey]
      exact forall_of_mapM hentries (fun _ _ hline => (parseAccessLine_spec hline).2.2)
        entry hentry
    · intro p hp
      obtain ⟨entries, hentries, haccess⟩ := h.access
      rw [Config.grants, haccess] at hp
      exact forall_of_mapM hentries (fun _ _ hline => (parseAccessLine_spec hline).2.1)
        p ((perm_entries_collectLists entries).mem_iff.mp hp)
    · exact h.grants.nodup_iff.mpr hdistinct.access
    · intro p hp
      obtain ⟨entries, hentries, htokens⟩ := h.tokens
      rw [htokens] at hp
      obtain ⟨entry, hentry, hkey⟩ := mem_keys_collectLists hp
      rw [← hkey]
      exact .inr (forall_of_mapM hentries (fun _ _ hline => (parseTokenLine_spec hline).2)
        entry hentry)
    · exact h.tokenList.nodup_iff.mpr hdistinct.tokens

theorem symm_sameMaps
    (h : SameMaps conf conf') :
    SameMaps conf' conf :=
  ⟨h.enabled.symm, h.users.symm, h.access.symm, h.tokens.symm⟩

/-- A valid configuration is established. -/
theorem exists_established
    {foreignKeys : Bool} {draws : Draws} {s : Store}
    (hvalid : Valid b conf)
    (happ : Applicable conf foreignKeys draws s) :
    ∃ s', provision b conf foreignKeys draws s = .ok s' ∧ Established b conf s' := by
  obtain ⟨s₁, husers, hdone⟩ := exists_maybeProvisionUsers hvalid happ
  have hids : ∀ n, Named conf n → (s₁.accounts.db.userID n).isSome = true := by
    intro n hn
    rw [hdone.userID hvalid hn]
    rfl
  obtain ⟨s', hs', h⟩ := exists_settled hvalid husers hids
    (fun t ht => (hdone.tokens t ht).1) (tokensFit_of_applicable hvalid happ hdone)
  exact ⟨s', hs', h.established hvalid hdone⟩

/-- A user with an entry and a token, and an entry for everyone. -/
def exampleSettings : AuthSettings where
  users := ["phil : $2a$10$secret : user"]
  access := ["phil:alerts:rw", "everyone:news*:read-only"]
  tokens := ["phil:tk_7eevizlsiwf9yi4uxsrs83r4352o0:backup"]

theorem parse_exampleSettings :
    parseSettings exampleBcrypt exampleSettings = .ok exampleConfig := by
  rfl

/-- The lines before this one are read. -/
def FirstBad
    {α : Type}
    (parse : String → Except SettingError α)
    (lines : List String)
    (line : String) : Prop :=
  ∃ before after, lines = before ++ line :: after ∧ ∃ values, before.mapM parse = .ok values

theorem firstBad_of_mapM
    {α : Type} {parse : String → Except SettingError α} {lines : List String}
    {e : SettingError}
    (hparse : ∀ line e, parse line = .error e → e.line = line)
    (h : lines.mapM parse = .error e) :
    FirstBad parse lines e.line := by
  obtain ⟨before, line, after, hlines, hbefore, hline⟩ := mapM_eq_error_iff.mp h
  exact ⟨before, after, by rw [hparse line e hline, hlines], hbefore⟩

/-- An error names the first line that cannot be read. -/
theorem parseSettings_error
    {e : SettingError}
    (h : parseSettings b settings = .error e) :
    FirstBad (parseUserLine b) settings.users e.line ∨
      ∃ users, parseUsers b settings.users = .ok users ∧
        (FirstBad (parseAccessLine users) settings.access e.line ∨
          FirstBad (parseTokenLine users) settings.tokens e.line) := by
  unfold parseSettings at h
  cases husers : parseUsers b settings.users with
  | error e' =>
      rw [husers] at h
      cases h
      exact .inl (firstBad_of_mapM (fun _ _ => line_of_parseUserLine) husers)
  | ok users =>
      refine .inr ⟨users, rfl, ?_⟩
      rw [husers] at h
      change (parseAccess users settings.access).bind _ = _ at h
      cases haccess : settings.access.mapM (parseAccessLine users) with
      | error e' =>
          rw [parseAccess, haccess] at h
          cases h
          exact .inl (firstBad_of_mapM (fun _ _ => line_of_parseAccessLine) haccess)
      | ok entries =>
          rw [parseAccess, haccess] at h
          change (parseTokens users settings.tokens).bind _ = _ at h
          cases htokens : settings.tokens.mapM (parseTokenLine users) with
          | error e' =>
              rw [parseTokens, htokens] at h
              cases h
              exact .inr (firstBad_of_mapM (fun _ _ => line_of_parseTokenLine) htokens)
          | ok tokens =>
              rw [parseTokens, htokens] at h
              cases h

end Configurations

end Cmd
end CoopMessenger
