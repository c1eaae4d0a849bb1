import CoopMessenger.Server.Credentials

/-!
# Logins of the web client

A `fetch` of the web client carries the credentials of a user in a header, and a
WebSocket carries them in its URL.

**Results.**
* `cut_bytesOf_iff`: which names a header gives back.
* `login_agrees`: both ways a user is the same one to the server, with its own credentials
  unless the name has a colon or is empty.
-/

namespace CoopMessenger
namespace Web

open Library Util Server

namespace Logins

open Credentials ForwardedAddresses

section Model

/-- The record of a user for a server; what is absent is `none`. -/
structure User where
  username : String
  password : Option String
  token : Option String
deriving DecidableEq, Repr

/-- A value that is neither absent nor empty. -/
def given (value : Option String) : Option String :=
  value.filter fun s => decide (s ≠ "")

def encodeBase64 (s : String) : String :=
  String.ofList (Base64.encode stdEncoding true (bytesOf s))

def encodeBase64Url (s : String) : String :=
  String.ofList (Base64.encode urlEncoding false (bytesOf s))

def basicAuth (username password : String) : String :=
  "Basic " ++ encodeBase64 (username ++ ":" ++ password)

def bearerAuth (token : String) : String :=
  "Bearer " ++ token

/-- `maybeWithAuth`: the value of the header, if there is one. -/
def maybeWithAuth (user : User) : Option String :=
  match given user.password with
  | some password => some (basicAuth user.username password)
  | none => (given user.token).map bearerAuth

/-- `authParam` -/
def authParam (user : User) : String :=
  match given user.password with
  | some password => encodeBase64Url (basicAuth user.username password)
  | none => encodeBase64Url (bearerAuth (user.token.getD "undefined"))

/-- The query string of `wsUrl`. -/
def wsQuery
    (since : Option String)
    (user : User) : String :=
  let params := ((given since).map fun since => "since=" ++ since).toList ++
    ["auth=" ++ authParam user]
  "&".intercalate params

/-- The query string of `topicUrlJsonPoll` and `topicUrlJsonPollWithSince`. -/
def pollQuery (since : Option String) : String :=
  match given since with
  | some since => "poll=1&since=" ++ since
  | none => "poll=1"

/-- The browser sends no `Authorization` header with a WebSocket. -/
def wsRequest (remoteAddr : List Char) : Request :=
  ⟨fun _ => [], remoteAddr⟩

/-- A header has one byte for each character. -/
def fetchRequest
    (remoteAddr : List Char)
    (user : User) : Request :=
  let r : Request := ⟨fun _ => [], remoteAddr⟩
  match maybeWithAuth user with
  | some value => r.withLines "Authorization".toList [value.toList.map byteOfChar]
  | none => r

/-- A token as the server makes them. -/
def isToken (token : String) : Bool :=
  decide (token ≠ "") && token.toList.all fun c => c.isAlphanum || c == '_'

/-- A message ID as the server makes them. -/
def isMessageID (id : String) : Bool :=
  id.toList.all Char.isAlphanum

/-- A user with a password, or with a token of the server. -/
def User.isUsable (user : User) : Bool :=
  (given user.password).isSome || (given user.token).any isToken

/-- The credentials of the user. -/
def User.login (user : User) : Login :=
  match given user.password with
  | some password => .password (bytesOf user.username) (bytesOf password)
  | none => .token (bytesOf (user.token.getD ""))

end Model

section Texts

theorem toNat_lt_of_isAlphanum
    {c : Char}
    (h : (c.isAlphanum || c == '_') = true) :
    c.toNat < 128 := by
  delta Char.isAlphanum Char.isAlpha Char.isUpper Char.isLower Char.isDigit at h
  simp only [Bool.or_eq_true, Bool.and_eq_true, decide_eq_true_eq, beq_iff_eq,
    UInt32.le_iff_toNat_le, ge_iff_le] at h
  rcases h with ((h | h) | h) | rfl
  · exact Nat.lt_of_le_of_lt h.2 (by decide)
  · exact Nat.lt_of_le_of_lt h.2 (by decide)
  · exact Nat.lt_of_le_of_lt h.2 (by decide)
  · decide

theorem isSpace_of_isAlphanum
    {c : Char}
    (h : (c.isAlphanum || c == '_') = true) :
    isSpace c = false := by
  have hlt := toNat_lt_of_isAlphanum h
  have hall : ∀ n < 128, ((Char.ofNat n).isAlphanum || Char.ofNat n == '_') = true →
      isSpace (Char.ofNat n) = false := by
    decide +kernel
  have hc := hall c.toNat hlt
  rw [Char.ofNat_toNat] at hc
  exact hc h

theorem isPlain_of_isAlphanum
    {c : Char}
    (h : (c.isAlphanum || c == '_') = true) :
    byteOfChar c ∉ [(37 : UInt8), 38, 43, 59, 61] := by
  have hlt := toNat_lt_of_isAlphanum h
  have hall : ∀ n < 128, ((Char.ofNat n).isAlphanum || Char.ofNat n == '_') = true →
      byteOfChar (Char.ofNat n) ∉ [(37 : UInt8), 38, 43, 59, 61] := by
    decide +kernel
  have hc := hall c.toNat hlt
  rw [Char.ofNat_toNat] at hc
  exact hc h

variable {username password token : String}

theorem bytesOf_encodeBase64
    (s : String) :
    bytesOf (encodeBase64 s) = Encoding.encodeToString stdEncoding true (bytesOf s) := by
  rw [encodeBase64, bytesOf_eq_encode, String.toList_ofList,
    encodeToString_eq_encode stdEncoding_lt]

theorem bytesOf_encodeBase64Url
    (s : String) :
    bytesOf (encodeBase64Url s) = Encoding.encodeToString urlEncoding false (bytesOf s) := by
  rw [encodeBase64Url, bytesOf_eq_encode, String.toList_ofList,
    encodeToString_eq_encode urlEncoding_lt]

theorem bytesOf_basicAuth :
    bytesOf (basicAuth username password) =
      Credentials.basicAuth (bytesOf username) (bytesOf password) := by
  have hcolon : bytesOf ":" = [58] := by
    decide
  rw [basicAuth, bytesOf_append, bytesOf_encodeBase64, bytesOf_append, bytesOf_append, hcolon,
    Credentials.basicAuth, List.append_assoc]
  rfl

theorem bytesOf_bearerAuth :
    bytesOf (bearerAuth token) = Credentials.bearerAuth (bytesOf token) := by
  rw [bearerAuth, bytesOf_append, Credentials.bearerAuth]

/-- A header of ASCII characters is the bytes of its text. -/
theorem map_byteOfChar
    {value : String}
    (h : ∀ c ∈ value.toList, c.toNat < 128) :
    value.toList.map byteOfChar = bytesOf value := by
  rw [bytesOf_eq_encode, encode_of_lt h]

theorem toNat_lt_basicAuth :
    ∀ c ∈ (basicAuth username password).toList, c.toNat < 128 := by
  have hscheme : ∀ c ∈ "Basic ".toList, c.toNat < 128 := List.all_iff_forall_prop.mp (by decide)
  intro c hc
  rw [basicAuth, String.toList_append, List.mem_append] at hc
  rcases hc with hc | hc
  · exact hscheme c hc
  · rw [encodeBase64, String.toList_ofList] at hc
    rcases Base64.mem_encode hc with hmem | ⟨-, rfl⟩
    · exact stdEncoding_lt c hmem
    · decide

theorem toNat_lt_bearerAuth
    (htoken : isToken token = true) :
    ∀ c ∈ (bearerAuth token).toList, c.toNat < 128 := by
  have hscheme : ∀ c ∈ "Bearer ".toList, c.toNat < 128 := List.all_iff_forall_prop.mp (by decide)
  intro c hc
  rw [bearerAuth, String.toList_append, List.mem_append] at hc
  rw [isToken, Bool.and_eq_true] at htoken
  rcases hc with hc | hc
  · exact hscheme c hc
  · exact toNat_lt_of_isAlphanum (List.all_eq_true.mp htoken.2 c hc)

/-- A token has no white space around it. -/
theorem trimBytes_token
    (htoken : isToken token = true) :
    trimBytes (32 :: bytesOf token) = bytesOf token := by
  have htext : 32 :: bytesOf token = bytesOf (" " ++ token) := by
    rw [bytesOf_append]
    rfl
  rw [isToken, Bool.and_eq_true] at htoken
  have hspace : ∀ c ∈ token.toList, isSpace c = false := fun c hc =>
    isSpace_of_isAlphanum (List.all_eq_true.mp htoken.2 c hc)
  have htrim : trim (" " ++ token) = token := by
    have hblank : trimSpace (" ".toList ++ token.toList) = trimSpace token.toList :=
      trimSpace_append_left (List.all_iff_forall_prop.mp (by decide))
    rw [trim, String.toList_append, hblank, trimSpace_eq_self, String.ofList_toList]
    · exact fun c hc => hspace c (List.mem_of_mem_head? hc)
    · exact fun c hc => hspace c (List.mem_of_mem_getLast? hc)
  rw [htext, trimBytes_bytesOf, htrim]

/-- A header with a token has no white space around it. -/
theorem trimBytes_bearerAuth
    (htoken : isToken token = true) :
    trimBytes (bytesOf (bearerAuth token)) = bytesOf (bearerAuth token) := by
  rw [isToken, Bool.and_eq_true, decide_eq_true_eq] at htoken
  have hspace : ∀ c ∈ token.toList, isSpace c = false := fun c hc =>
    isSpace_of_isAlphanum (List.all_eq_true.mp htoken.2 c hc)
  have hne : token.toList ≠ [] := fun h => htoken.1 (String.toList_eq_nil_iff.mp h)
  have htrim : trim (bearerAuth token) = bearerAuth token := by
    rw [trim, trimSpace_eq_self, String.ofList_toList]
    · intro c hc
      have hB : c = 'B' := by
        rw [bearerAuth, String.toList_append] at hc
        simpa using hc.symm
      rw [hB]
      decide
    · intro c hc
      rw [bearerAuth, String.toList_append, List.getLast?_append_of_ne_nil _ hne] at hc
      exact hspace c (List.mem_of_mem_getLast? hc)
  rw [trimBytes_bytesOf, htrim]

/-- The name is what is before the first colon. -/
theorem cut_bytesOf_iff
    (username password : String) :
    cut 58 (bytesOf username ++ 58 :: bytesOf password) = (bytesOf username, bytesOf password) ↔
      ':' ∉ username.toList := by
  have hcolon : 58 ∈ bytesOf username ↔ ':' ∈ username.toList := by
    rw [bytesOf_eq_encode]
    exact mem_encode_iff (by decide) _
  constructor
  · intro hcut hmem
    have hname := congrArg Prod.fst hcut
    have hnot : 58 ∉ (cut 58 (bytesOf username ++ 58 :: bytesOf password)).1 := by
      intro h
      have := List.mem_takeWhile_imp h
      simp at this
    rw [hname] at hnot
    exact hnot (hcolon.mpr hmem)
  · intro hmem
    exact cut_append fun h => hmem (hcolon.mp h)

end Texts

section Requests

variable {user : User}
variable {since : Option String}

/-- What the client puts into the header, and into the parameter once more encoded. -/
def authText (user : User) : String :=
  match given user.password with
  | some password => basicAuth user.username password
  | none => bearerAuth (user.token.getD "undefined")

theorem authParam_eq :
    authParam user = encodeBase64Url (authText user) := by
  unfold authParam authText
  cases given user.password <;> rfl

theorem eq_some_of_given
    {value : Option String} {s : String}
    (h : given value = some s) :
    value = some s ∧ s ≠ "" := by
  rw [given, Option.filter_eq_some_iff, decide_eq_true_eq] at h
  exact h

/-- A usable user has a password, or a token of the server. -/
theorem User.isUsable_cases
    (h : user.isUsable = true) :
    (∃ password, given user.password = some password) ∨
      ∃ token, given user.password = none ∧ user.token = some token ∧ isToken token = true := by
  cases hpassword : given user.password with
  | some password =>
      exact .inl ⟨password, rfl⟩
  | none =>
      rw [User.isUsable, hpassword, Option.isSome_none, Bool.false_or, Option.any_eq_true] at h
      obtain ⟨token, htoken, hvalid⟩ := h
      exact .inr ⟨token, rfl, (eq_some_of_given htoken).1, hvalid⟩

theorem maybeWithAuth_eq
    (h : user.isUsable = true) :
    maybeWithAuth user = some (authText user) := by
  rcases User.isUsable_cases h with ⟨password, hpassword⟩ | ⟨token, hpassword, htoken, hvalid⟩
  · rw [maybeWithAuth, authText, hpassword]
  · rw [isToken, Bool.and_eq_true, decide_eq_true_eq] at hvalid
    have hgiven : given user.token = some token := by
      rw [given, Option.filter_eq_some_iff, decide_eq_true_eq]
      exact ⟨htoken, hvalid.1⟩
    rw [maybeWithAuth, authText, hpassword]
    dsimp only
    rw [hgiven, htoken]
    rfl

theorem toNat_lt_authText
    (h : user.isUsable = true) :
    ∀ c ∈ (authText user).toList, c.toNat < 128 := by
  rcases User.isUsable_cases h with ⟨password, hpassword⟩ | ⟨token, hpassword, htoken, hvalid⟩
  · rw [authText, hpassword]
    exact toNat_lt_basicAuth
  · rw [authText, hpassword, htoken]
    exact toNat_lt_bearerAuth hvalid

theorem trimBytes_authText
    (h : user.isUsable = true) :
    trimBytes (bytesOf (authText user)) = bytesOf (authText user) := by
  rcases User.isUsable_cases h with ⟨password, hpassword⟩ | ⟨token, hpassword, htoken, hvalid⟩
  · rw [authText, hpassword]
    dsimp only
    rw [bytesOf_basicAuth, trimBytes_basicAuth]
  · rw [authText, hpassword, htoken]
    exact trimBytes_bearerAuth hvalid

theorem authText_ne_empty :
    bytesOf (authText user) ≠ [] := by
  have hstart : ∀ start rest : String, start ≠ "" → bytesOf (start ++ rest) ≠ [] := by
    intro start rest hne hnil
    rw [bytesOf_append, List.append_eq_nil_iff, bytesOf_eq_nil_iff] at hnil
    exact hne hnil.1
  unfold authText
  cases given user.password with
  | some password =>
      exact hstart _ _ (by decide)
  | none =>
      exact hstart _ _ (by decide)

/-- The names and values of the URL of a WebSocket. -/
def wsPairs
    (since : Option String)
    (user : User) : List (List UInt8 × List UInt8) :=
  ((given since).map fun s => (bytesOf "since", bytesOf s)).toList ++
    [(bytesOf "auth", bytesOf (authParam user))]

theorem bytesOf_wsQuery :
    bytesOf (wsQuery since user) = queryText (wsPairs since user) := by
  have hsince : bytesOf "since=" = bytesOf "since" ++ [61] := by
    decide
  have hauth : bytesOf "auth=" = bytesOf "auth" ++ [61] := by
    decide
  have hamp : bytesOf "&" = [38] := by
    decide
  unfold wsQuery wsPairs queryText
  cases given since with
  | none =>
      have hjoin : "&".intercalate ["auth=" ++ authParam user] = "auth=" ++ authParam user :=
        rfl
      simp [hjoin, bytesOf_append, hauth]
  | some s =>
      have hjoin : "&".intercalate ["since=" ++ s, "auth=" ++ authParam user] =
          "since=" ++ s ++ "&" ++ ("auth=" ++ authParam user) :=
        rfl
      simp [hjoin, bytesOf_append, hauth, hsince, hamp, List.intercalate]

theorem isPlainQuery_messageID
    {id : String}
    (h : isMessageID id = true) :
    isPlainQuery (bytesOf id) = true := by
  have halnum : ∀ c ∈ id.toList, (c.isAlphanum || c == '_') = true := by
    intro c hc
    rw [Bool.or_eq_true]
    exact .inl (List.all_eq_true.mp h c hc)
  rw [bytesOf_eq_encode, encode_of_lt fun c hc => toNat_lt_of_isAlphanum (halnum c hc),
    isPlainQuery, List.all_eq_true]
  intro b hb
  obtain ⟨c, hc, rfl⟩ := List.mem_map.mp hb
  exact decide_eq_true (isPlain_of_isAlphanum (halnum c hc))

/-- The server reads the URL of a WebSocket as the client wrote it. -/
theorem parseQuery_wsQuery
    (hsince : ∀ id, since = some id → isMessageID id = true) :
    parseQuery (bytesOf (wsQuery since user)) = wsPairs since user := by
  rw [bytesOf_wsQuery, parseQuery_queryText]
  intro p hp
  rw [wsPairs, List.mem_append, List.mem_singleton] at hp
  rcases hp with hp | rfl
  · cases hgiven : given since with
    | none =>
        rw [hgiven] at hp
        cases hp
    | some id =>
        rw [hgiven] at hp
        simp only [Option.map_some, Option.toList_some, List.mem_singleton] at hp
        rw [hp]
        exact ⟨by rfl, isPlainQuery_messageID (hsince id (eq_some_of_given hgiven).1)⟩
  · refine ⟨by rfl, ?_⟩
    rw [authParam_eq, bytesOf_encodeBase64Url]
    exact isPlainQuery_encodeToString _

theorem parseQuery_pollQuery
    (hsince : ∀ id, since = some id → isMessageID id = true) :
    parseQuery (bytesOf (pollQuery since)) = (bytesOf "poll", bytesOf "1") ::
      ((given since).map fun s => (bytesOf "since", bytesOf s)).toList := by
  have htext : bytesOf (pollQuery since) = queryText ((bytesOf "poll", bytesOf "1") ::
      ((given since).map fun s => (bytesOf "since", bytesOf s)).toList) := by
    have hpoll : bytesOf "poll=1&since=" =
        bytesOf "poll" ++ 61 :: bytesOf "1" ++ 38 :: (bytesOf "since" ++ [61]) := by
      decide
    unfold pollQuery queryText
    cases given since with
    | none =>
        rfl
    | some s =>
        simp [bytesOf_append, hpoll, List.intercalate]
  rw [htext, parseQuery_queryText]
  intro p hp
  rcases List.mem_cons.mp hp with rfl | hp
  · decide
  · cases hgiven : given since with
    | none =>
        rw [hgiven] at hp
        cases hp
    | some id =>
        rw [hgiven] at hp
        simp only [Option.map_some, Option.toList_some, List.mem_singleton] at hp
        rw [hp]
        exact ⟨by rfl, isPlainQuery_messageID (hsince id (eq_some_of_given hgiven).1)⟩

/-- Over a WebSocket the server reads the text of the credentials. -/
theorem readAuthHeader_wsRequest
    (remoteAddr : List Char)
    (hsince : ∀ id, since = some id → isMessageID id = true)
    (h : user.isUsable = true) :
    readAuthHeader (wsRequest remoteAddr) (bytesOf (wsQuery since user)) =
      some (bytesOf (authText user)) := by
  have hpairs : parseQuery (bytesOf (wsQuery since user)) = wsPairs since user :=
    parseQuery_wsQuery hsince
  rw [readAuthHeader_param authText_ne_empty ?_ ?_, trimBytes_authText h]
  · rw [hpairs, wsPairs]
    cases given since with
    | none =>
        rfl
    | some id =>
        rfl
  · rw [hpairs, wsPairs, authParam_eq, bytesOf_encodeBase64Url]
    cases given since with
    | none =>
        rfl
    | some id =>
        rfl

theorem readAuthHeader_fetchRequest
    (remoteAddr : List Char)
    (hsince : ∀ id, since = some id → isMessageID id = true)
    (h : user.isUsable = true) :
    readAuthHeader (fetchRequest remoteAddr user) (bytesOf (pollQuery since)) =
      some (bytesOf (authText user)) := by
  have hquery : Credentials.readQueryParam (bytesOf (pollQuery since))
      ["authorization", "auth"] = [] := by
    rw [Credentials.readQueryParam, parseQuery_pollQuery hsince]
    cases given since with
    | none =>
        rfl
    | some id =>
        rfl
  have hheader : (fetchRequest remoteAddr user).get "Authorization".toList =
      bytesOf (authText user) := by
    rw [fetchRequest, maybeWithAuth_eq h]
    dsimp only
    rw [map_byteOfChar (toNat_lt_authText h), Request.get, Request.withLines]
    dsimp only
    rw [if_pos rfl]
    rfl
  rw [readAuthHeader_header hquery, hheader, trimBytes_authText h]

/-- What the server asks the user manager with. -/
theorem authenticate_authText
    (h : user.isUsable = true) :
    supportedAuthHeader (bytesOf (authText user)) = true ∧
      (authenticate (bytesOf (authText user)) = some user.login ↔
        ∀ password, given user.password = some password →
          user.username ≠ "" ∧ ':' ∉ user.username.toList) := by
  rcases User.isUsable_cases h with ⟨password, hpassword⟩ | ⟨token, hpassword, htoken, hvalid⟩
  · rw [authText, User.login, hpassword]
    dsimp only
    rw [bytesOf_basicAuth, authenticate_basicAuth]
    refine ⟨supportedAuthHeader_basicAuth, ?_⟩
    have hcut := cut_bytesOf_iff user.username password
    constructor
    · intro hlogin p hp
      dsimp only at hlogin
      rw [Option.some.injEq] at hlogin
      split at hlogin
      · cases hlogin
      · next hname =>
          rw [Login.password.injEq] at hlogin
          refine ⟨?_, hcut.mp (Prod.ext hlogin.1 hlogin.2)⟩
          rintro hempty
          rw [hlogin.1, bytesOf_eq_nil_iff] at hname
          exact hname hempty
    · intro hname
      obtain ⟨hne, hcolon⟩ := hname password rfl
      dsimp only
      rw [hcut.mpr hcolon]
      dsimp only
      rw [if_neg (mt (bytesOf_eq_nil_iff _).mp hne)]
  · rw [authText, User.login, hpassword, htoken]
    dsimp only [Option.getD_some]
    rw [bytesOf_bearerAuth, authenticate_bearerAuth, trimBytes_token hvalid]
    refine ⟨supportedAuthHeader_bearerAuth, fun _ p hp => ?_, fun _ => rfl⟩
    cases hp

theorem asked_wsRequest
    (wsAddr fetchAddr : List Char)
    (hsince : ∀ id, since = some id → isMessageID id = true)
    (h : user.isUsable = true) :
    asked (wsRequest wsAddr) (bytesOf (wsQuery since user)) =
        .ok (some (authenticate (bytesOf (authText user)))) ∧
      asked (fetchRequest fetchAddr user) (bytesOf (pollQuery since)) =
        .ok (some (authenticate (bytesOf (authText user)))) := by
  obtain ⟨hsupported, -⟩ := authenticate_authText h
  unfold asked
  rw [readAuthHeader_wsRequest wsAddr hsince h, readAuthHeader_fetchRequest fetchAddr hsince h]
  dsimp only
  rw [if_pos hsupported]
  exact ⟨rfl, rfl⟩

/--
Over a WebSocket and by a `fetch`, from wherever they come, a user is the same one to the
server; it asks with the credentials of the user just if the name is not empty and has no
colon.
-/
theorem login_agrees
    (user : User)
    (since : Option String)
    (wsAddr fetchAddr : List Char)
    (hsince : ∀ id, since = some id → isMessageID id = true)
    (h : user.isUsable = true) :
    (∀ (υ : Type) (userManager : Option (Login → Option υ)) (authAllowed : Bool),
      maybeAuthenticate userManager authAllowed (wsRequest wsAddr)
          (bytesOf (wsQuery since user)) =
        maybeAuthenticate userManager authAllowed (fetchRequest fetchAddr user)
          (bytesOf (pollQuery since))) ∧
      (asked (wsRequest wsAddr) (bytesOf (wsQuery since user)) =
          .ok (some (some user.login)) ↔
        ∀ password, given user.password = some password →
          user.username ≠ "" ∧ ':' ∉ user.username.toList) := by
  obtain ⟨hws, hfetch⟩ := asked_wsRequest wsAddr fetchAddr hsince h
  constructor
  · intro υ userManager authAllowed
    simp only [maybeAuthenticate, hws, hfetch]
  · rw [hws, Except.ok.injEq, Option.some.injEq]
    exact (authenticate_authText h).2

def phil : User where
  username := "phil"
  password := some "pässword"
  token := none

theorem login_agrees_phil :
    asked (wsRequest []) (bytesOf (wsQuery (some "LFPmpSqdCmUq") phil)) =
      .ok (some (some (.password (bytesOf "phil") (bytesOf "pässword")))) := by
  have hsince : ∀ id, some "LFPmpSqdCmUq" = some id → isMessageID id = true := by
    rintro _ ⟨⟩
    decide
  refine (login_agrees phil (some "LFPmpSqdCmUq") [] [] hsince (by decide)).2.mpr ?_
  rintro _ -
  decide

end Requests

end Logins
end Web
end CoopMessenger
