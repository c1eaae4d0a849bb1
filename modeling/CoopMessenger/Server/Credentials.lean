import CoopMessenger.Server.ForwardedAddresses
import CoopMessenger.Util.Encodings

/-!
# Credentials

`maybeAuthenticate` of `server/server.go`: credentials come in the header
`Authorization` or, encoded once more, in a query parameter.  They are a name and a
password, or a token.

**Results.**
* `readAuthHeader_param`: what the parameter says is what the header would say.
* `authenticate_basicAuth`, `authenticate_bearerAuth`: what the user manager is asked with.
-/

namespace CoopMessenger
namespace Server

open Library Util

namespace Credentials

open ForwardedAddresses

section Model

/-- What the user manager is asked with. -/
inductive Login where
  | password (username password : List UInt8)
  | token (token : List UInt8)
deriving DecidableEq, Repr

/-- Why a request has no visitor of its own. -/
inductive Refusal where
  | malformed
  | tooManyRequestsLimitAuthFailure
  | unauthorized
deriving DecidableEq, Repr

/-- `readQueryParam`: the first parameter that is not empty, trimmed. -/
def readQueryParam
    (rawQuery : List UInt8)
    (names : List String) : List UInt8 :=
  (((names.map fun name => getValue (parseQuery rawQuery) (bytesOf (lower name))).find?
    fun value => decide (value ≠ [])).map trimBytes).getD []

/-- The value of the header or of the parameter; a parameter that is no base64 is an error. -/
def readAuthHeader
    (r : Request)
    (rawQuery : List UInt8) : Option (List UInt8) :=
  let queryParam := readQueryParam rawQuery ["authorization", "auth"]
  if queryParam ≠ [] then
    (Encoding.decodeString urlEncoding false queryParam).map trimBytes
  else
    some (trimBytes (r.get "Authorization".toList))

/-- The value starts with `Basic` or `Bearer` and a space, in any letter case. -/
def supportedAuthHeader (value : List UInt8) : Bool :=
  let value := (runes value).map (·.map toLower)
  ("basic ".toList.map some).isPrefixOf value || ("bearer ".toList.map some).isPrefixOf value

/-- `ascii.EqualFold` -/
def equalFold (s t : List UInt8) : Bool :=
  s.map (fun b => (charOfByte b).toLower) == t.map (fun b => (charOfByte b).toLower)

/-- `parseBasicAuth` -/
def parseBasicAuth (auth : List UInt8) : Option (List UInt8 × List UInt8) :=
  let start := bytesOf "Basic "
  if auth.length < start.length ∨ !equalFold (auth.take start.length) start then
    none
  else
    match Encoding.decodeString stdEncoding true (auth.drop start.length) with
    | some text => if 58 ∈ text then some (cut 58 text) else none -- ':'
    | none => none

/-- A password without a name is a token. -/
def authenticateBasicAuth (value : List UInt8) : Option Login :=
  (parseBasicAuth value).map fun (username, password) =>
    if username = [] then .token password else .password username password

/-- `authenticate`, up to the question to the user manager. -/
def authenticate (header : List UInt8) : Option Login :=
  let start := bytesOf "Bearer"
  if start.isPrefixOf header then
    some (.token (trimBytes (header.drop start.length)))
  else
    authenticateBasicAuth header

/-- The outcome of the credentials before the user manager is asked. -/
def asked
    (r : Request)
    (rawQuery : List UInt8) : Except Refusal (Option (Option Login)) :=
  match readAuthHeader r rawQuery with
  | none => .error .malformed
  | some header => .ok (if supportedAuthHeader header then some (authenticate header) else none)

/-- The user of the request; without credentials it has none. -/
def maybeAuthenticate
    {υ : Type}
    (userManager : Option (Login → Option υ))
    (authAllowed : Bool)
    (r : Request)
    (rawQuery : List UInt8) : Except Refusal (Option υ) := do
  let some manager := userManager | return none
  let some login ← asked r rawQuery | return none
  if !authAllowed then
    throw .tooManyRequestsLimitAuthFailure
  match login.bind manager with
  | some user => return some user
  | none => throw .unauthorized

/-- `BasicAuth` -/
def basicAuth (username password : List UInt8) : List UInt8 :=
  bytesOf "Basic " ++ Encoding.encodeToString stdEncoding true (username ++ 58 :: password)

/-- `BearerAuth` -/
def bearerAuth (token : List UInt8) : List UInt8 :=
  bytesOf "Bearer " ++ token

end Model

section Headers

variable {r : Request}
variable {rawQuery value : List UInt8}

theorem encodeToString_ne_nil
    (A : Base64.Alphabet)
    (padded : Bool)
    {bytes : List UInt8}
    (h : bytes ≠ []) :
    Encoding.encodeToString A padded bytes ≠ [] := by
  cases bytes with
  | nil =>
      exact absurd rfl h
  | cons a rest =>
      intro hnil
      rw [Encoding.encodeToString, List.map_eq_nil_iff] at hnil
      cases rest with
      | nil =>
          cases hnil
      | cons b rest =>
          cases rest with
          | nil =>
              cases hnil
          | cons c rest =>
              cases hnil

theorem encodeToString_eq_encode
    {A : Base64.Alphabet}
    (hchars : ∀ c ∈ A.chars, c.toNat < 128)
    (padded : Bool)
    (bytes : List UInt8) :
    Encoding.encodeToString A padded bytes = encode (Base64.encode A padded bytes) := by
  rw [encode_of_lt, Encoding.encodeToString]
  intro c hc
  rcases Base64.mem_encode hc with hmem | ⟨-, rfl⟩
  · exact hchars c hmem
  · decide

theorem isSpace_stdEncoding :
    ∀ c ∈ '=' :: stdEncoding.chars, isSpace c = false :=
  List.all_iff_forall_prop.mp (by decide +kernel)

theorem isSpace_urlEncoding :
    ∀ c ∈ urlEncoding.chars, isSpace c = false :=
  List.all_iff_forall_prop.mp (by decide +kernel)

theorem isPlainQuery_urlEncoding :
    ∀ c ∈ urlEncoding.chars, byteOfChar c ∉ [(37 : UInt8), 38, 43, 59, 61] :=
  List.all_iff_forall_prop.mp (by decide +kernel)

/-- The encoding for URLs needs no escapes in a query. -/
theorem isPlainQuery_encodeToString
    (bytes : List UInt8) :
    isPlainQuery (Encoding.encodeToString urlEncoding false bytes) = true := by
  rw [isPlainQuery, List.all_eq_true]
  intro b hb
  obtain ⟨c, hc, rfl⟩ := List.mem_map.mp hb
  rw [decide_eq_true_eq]
  rcases Base64.mem_encode hc with hmem | ⟨hpadded, -⟩
  · exact isPlainQuery_urlEncoding c hmem
  · cases hpadded

theorem trimBytes_encodeToString
    (bytes : List UInt8) :
    trimBytes (Encoding.encodeToString urlEncoding false bytes) =
      Encoding.encodeToString urlEncoding false bytes := by
  have hspace : ∀ c ∈ Base64.encode urlEncoding false bytes, isSpace c = false := by
    intro c hc
    rcases Base64.mem_encode hc with hmem | ⟨hpadded, -⟩
    · exact isSpace_urlEncoding c hmem
    · cases hpadded
  rw [encodeToString_eq_encode urlEncoding_lt, trimBytes_encode, trimSpace_eq_self]
  · exact fun c hc => hspace c (List.mem_of_mem_head? hc)
  · exact fun c hc => hspace c (List.mem_of_mem_getLast? hc)

/-- Without the parameters the header counts. -/
theorem readAuthHeader_header
    (hquery : readQueryParam rawQuery ["authorization", "auth"] = []) :
    readAuthHeader r rawQuery = some (trimBytes (r.get "Authorization".toList)) := by
  rw [readAuthHeader, hquery]
  rfl

/-- What the parameter says is what the header would say. -/
theorem readAuthHeader_param
    (hvalue : value ≠ [])
    (hfirst : getValue (parseQuery rawQuery) (bytesOf "authorization") = [])
    (hauth : getValue (parseQuery rawQuery) (bytesOf "auth") =
      Encoding.encodeToString urlEncoding false value) :
    readAuthHeader r rawQuery = some (trimBytes value) := by
  have hlower : lower "authorization" = "authorization" ∧ lower "auth" = "auth" := by
    decide
  have hne := encodeToString_ne_nil urlEncoding false hvalue
  have hparam : readQueryParam rawQuery ["authorization", "auth"] =
      Encoding.encodeToString urlEncoding false value := by
    simp only [readQueryParam, List.map_cons, List.map_nil, hlower, hfirst, hauth]
    rw [List.find?_cons_of_neg (by simp), List.find?_cons_of_pos (by simpa using hne)]
    exact trimBytes_encodeToString value
  simp only [readAuthHeader, hparam]
  rw [if_pos hne, decodeString_encodeToString urlEncoding_lt]
  rfl

end Headers

section Logins

variable {username password token : List UInt8}

/-- A header of a name and a password has no white space around it. -/
theorem trimBytes_basicAuth :
    trimBytes (basicAuth username password) = basicAuth username password := by
  have hspace : ∀ c ∈ Base64.encode stdEncoding true (username ++ 58 :: password),
      isSpace c = false := by
    intro c hc
    refine isSpace_stdEncoding c (List.mem_cons.mpr ?_)
    rcases Base64.mem_encode hc with hmem | ⟨-, hpad⟩
    · exact .inr hmem
    · exact .inl hpad
  have hne : Base64.encode stdEncoding true (username ++ 58 :: password) ≠ [] := by
    intro hnil
    have hbytes : username ++ 58 :: password ≠ [] := by
      simp
    refine encodeToString_ne_nil stdEncoding true hbytes ?_
    rw [Encoding.encodeToString, hnil]
    rfl
  rw [basicAuth, encodeToString_eq_encode stdEncoding_lt, bytesOf_eq_encode, ← encode_append,
    trimBytes_encode, trimSpace_eq_self]
  · intro c hc
    have hB : c = 'B' := by
      simpa using hc.symm
    rw [hB]
    decide
  · intro c hc
    rw [List.getLast?_append_of_ne_nil _ hne] at hc
    exact hspace c (List.mem_of_mem_getLast? hc)

theorem supportedAuthHeader_basicAuth :
    supportedAuthHeader (basicAuth username password) = true := by
  have hrunes : runes (basicAuth username password) =
      "Basic ".toList.map some ++
        runes (Encoding.encodeToString stdEncoding true (username ++ 58 :: password)) :=
    runes_bytesOf_append "Basic " _
  rw [supportedAuthHeader, hrunes]
  rfl

theorem parseBasicAuth_basicAuth :
    parseBasicAuth (basicAuth username password) = some (cut 58 (username ++ 58 :: password)) := by
  have hlength : (bytesOf "Basic ").length = 6 := by
    decide
  have hstart : (basicAuth username password).take (bytesOf "Basic ").length =
      bytesOf "Basic " :=
    List.take_left
  have hrest : (basicAuth username password).drop (bytesOf "Basic ").length =
      Encoding.encodeToString stdEncoding true (username ++ 58 :: password) :=
    List.drop_left
  have hlong : ¬ (basicAuth username password).length < (bytesOf "Basic ").length := by
    rw [basicAuth, List.length_append]
    omega
  have hfold : equalFold (bytesOf "Basic ") (bytesOf "Basic ") = true := by
    rw [equalFold, beq_self_eq_true]
  simp only [parseBasicAuth, hstart, hrest, hlong, hfold,
    decodeString_encodeToString stdEncoding_lt]
  simp

/-- The name ends at the first colon. -/
theorem authenticate_basicAuth :
    authenticate (basicAuth username password) =
      let (name, rest) := cut 58 (username ++ 58 :: password)
      some (if name = [] then .token rest else .password name rest) := by
  have hbearer : (bytesOf "Bearer").isPrefixOf (basicAuth username password) = false := by
    rw [← Bool.not_eq_true, List.isPrefixOf_iff_prefix]
    rintro ⟨rest, hrest⟩
    have hhead : (bytesOf "Bearer" ++ rest)[1]? = (basicAuth username password)[1]? := by
      rw [hrest]
    have hB : (bytesOf "Bearer")[1]? = some 101 ∧ (bytesOf "Basic ")[1]? = some 97 := by
      decide
    rw [basicAuth, List.getElem?_append_left (by decide),
      List.getElem?_append_left (by decide), hB.1, hB.2] at hhead
    cases hhead
  rw [authenticate, hbearer, authenticateBasicAuth, parseBasicAuth_basicAuth]
  rfl

theorem supportedAuthHeader_bearerAuth :
    supportedAuthHeader (bearerAuth token) = true := by
  have hrunes : runes (bearerAuth token) = "Bearer ".toList.map some ++ runes token :=
    runes_bytesOf_append "Bearer " _
  rw [supportedAuthHeader, hrunes]
  rfl

theorem authenticate_bearerAuth :
    authenticate (bearerAuth token) = some (.token (trimBytes (32 :: token))) := by
  have hsplit : bearerAuth token = bytesOf "Bearer" ++ 32 :: token := by
    have htext : bytesOf "Bearer " = bytesOf "Bearer" ++ [32] := by
      decide
    rw [bearerAuth, htext, List.append_assoc]
    rfl
  have hbearer : (bytesOf "Bearer").isPrefixOf (bytesOf "Bearer" ++ 32 :: token) = true :=
    List.isPrefixOf_iff_prefix.mpr (List.prefix_append _ _)
  simp only [authenticate, hsplit, hbearer, if_true, List.drop_left]

end Logins

end Credentials
end Server
end CoopMessenger
