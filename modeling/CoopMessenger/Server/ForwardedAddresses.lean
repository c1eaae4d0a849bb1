import CoopMessenger.Util.NetIP
import CoopMessenger.Util.Runes
import CoopMessenger.Util.Trimming

/-!
# Forwarded addresses

`extractIPAddress` of `server/util.go`: behind a proxy the address of a visitor is
the last one of a header that is in no trusted network.  Of several header lines of
that name only the first one is read.

**Results.**
* `addresses_append_comma`: a comma ends the entries before it, whatever the bytes.
* `extractIPAddressFromHeader_eq`: what is read is the last untrusted address of the
  first line.
* `forwarded_address_unspoofable_iff`: for how many client lines the client has no
  influence on the address.
-/

namespace CoopMessenger
namespace Server

open Util Util.NetIP

namespace ForwardedAddresses

section Model

/-- The header lines by canonical name, and the address of the socket as text. -/
structure Request where
  header : List Char → List (List UInt8)
  remoteAddr : List Char

def isTokenChar (c : Char) : Bool :=
  c.isAlphanum || c ∈ "!#$%&'*+-.^_|~".toList || c.toNat = 96

/-- Upper case at the start and after a hyphen, lower case elsewhere. -/
def capitalize :
    Bool → List Char → List Char
  | _, [] => []
  | upper, c :: rest =>
      (if upper then c.toUpper else c.toLower) :: capitalize (c == '-') rest

/-- `textproto.CanonicalMIMEHeaderKey` -/
def canonicalMIMEHeaderKey (name : List Char) : List Char :=
  if name.all isTokenChar then capitalize true name else name

/-- `Header.Get`: the first line of that name. -/
def Request.get
    (r : Request)
    (name : List Char) : List UInt8 :=
  ((r.header (canonicalMIMEHeaderKey name)).head?).getD []

/-- One to three digits, as many as there are. -/
def shortNumber (s : List Char) : List Char :=
  (s.takeWhile Char.isDigit).take 3

/-- So many short numbers with a dot after each, and a last one. -/
def dottedNumbers :
    Nat → List Char → Option (List Char)
  | n, s =>
      let number := shortNumber s
      if number = [] then
        none
      else
        match n, s.drop number.length with
        | 0, _ => some number
        | n + 1, '.' :: rest => (dottedNumbers n rest).map (number ++ '.' :: ·)
        | _, _ => none

/-- Hexadecimal digits and colons in brackets. -/
def bracketed (s : List Char) : Option (List Char) :=
  let inside := s.takeWhile (fun c => isHexDigit c || c == ':')
  if inside ≠ [] ∧ (s.drop inside.length).head? = some ']' then
    some ('[' :: inside ++ [']'])
  else
    none

/-- What `forwardedHeaderRegex` captures if it matches here. -/
def matchHere (s : List Char) : Option (List Char) :=
  if (s.take 4).map Char.toLower = "for=".toList then
    let rest := trimPrefix ['"'] (s.drop 4)
    match rest with
    | '[' :: rest => bracketed rest
    | rest => dottedNumbers 3 rest
  else
    none

/-- What `forwardedHeaderRegex` captures at its first match, after such a character. -/
def findForwarded :
    Option Char → List Char → Option (List Char)
  | _, [] => none
  | before, c :: rest =>
      let boundary := !(before.any fun b => b.isAlphanum || b == '_')
      match if boundary then matchHere (c :: rest) else none with
      | some address => some address
      | none => findForwarded (some c) rest

/-- The brackets around an address are left out. -/
def unbracket (s : List Char) : List Char :=
  if s.head? = some '[' ∧ s.getLast? = some ']' then
    s.tail.dropLast
  else
    s

/-- The address of an entry, in either of the formats. -/
def parseEntry (entry : List Char) : Option Addr :=
  match findForwarded none entry with
  | some address => parseAddr (unbracket address)
  | none => parseAddr entry

def trusted
    (prefixes : List Prefix)
    (addr : Addr) : Bool :=
  prefixes.any (·.contains addr)

/-- `strings.ToLower` -/
def lowerText (bytes : List UInt8) : List Char :=
  (replaceInvalid (runes bytes)).map toLower

/-- `extractIPAddressFromHeader` -/
def extractIPAddressFromHeader
    (r : Request)
    (forwardedHeader : List Char)
    (trustedPrefixes : List Prefix) : Option Addr :=
  let value := trimSpace (lowerText (r.get forwardedHeader))
  if value = [] then
    none
  else
    let addrsStrs := ((value.splitOn ',').filter (fun part => !part.isEmpty)).map trimSpace
    let validAddrs := addrsStrs.filterMap parseEntry
    (validAddrs.filter (fun addr => !trusted trustedPrefixes addr)).getLast?

/-- `extractIPAddress` -/
def extractIPAddress
    (r : Request)
    (behindProxy : Bool)
    (proxyForwardedHeader : List Char)
    (proxyTrustedPrefixes : List Prefix) : Addr :=
  let socket :=
    match parseAddrPort r.remoteAddr with
    | some (addr, _) => addr
    | none => ipv4Unspecified
  if behindProxy ∧ proxyForwardedHeader ≠ [] then
    (extractIPAddressFromHeader r proxyForwardedHeader proxyTrustedPrefixes).getD socket
  else
    socket

/-- The untrusted addresses of a text, from left to right. -/
def addresses
    (prefixes : List Prefix)
    (bytes : List UInt8) : List Addr :=
  ((((lowerText bytes).splitOn ',').map trimSpace).filterMap parseEntry).filter
    (fun addr => !trusted prefixes addr)

/-- How the proxy passes on the address of its client. -/
inductive Way where
  | ownLine
  | suffix
deriving DecidableEq, Repr

/-- The header lines after the proxy has added its part to those of the client. -/
def received :
    Way → List (List UInt8) → List UInt8 → List (List UInt8)
  | .ownLine, client, proxy => client ++ [proxy]
  | .suffix, [], proxy => [proxy]
  | .suffix, [line], proxy => [line ++ (String.utf8EncodeChar ',' ++ proxy)]
  | .suffix, line :: client, proxy => line :: received .suffix client proxy

/-- The request with these lines of one name. -/
def Request.withLines
    (r : Request)
    (name : List Char)
    (lines : List (List UInt8)) : Request where
  header := fun n => if n = canonicalMIMEHeaderKey name then lines else r.header n
  remoteAddr := r.remoteAddr

/-- Whatever so many client lines say, the address is this one. -/
def Unspoofable
    (r : Request)
    (name : List Char)
    (prefixes : List Prefix)
    (way : Way)
    (n : Nat)
    (proxy : List UInt8)
    (addr : Addr) : Prop :=
  ∀ client : List (List UInt8), client.length = n →
    extractIPAddress (r.withLines name (received way client proxy)) true name prefixes =
      addr

/-- The proxy's part arrives in the only line. -/
def OneLine :
    Way → Nat → Prop
  | .ownLine, n => n = 0
  | .suffix, n => n ≤ 1

end Model

section Entries

variable {prefixes : List Prefix}

theorem lowerText_append_comma
    (line proxy : List UInt8) :
    lowerText (line ++ (String.utf8EncodeChar ',' ++ proxy)) =
      lowerText line ++ ',' :: lowerText proxy := by
  simp [lowerText, runes_append_encode, replaceInvalid, show toLower ',' = ',' from rfl]

/-- A comma ends the entries before it, whatever the bytes. -/
theorem addresses_append_comma
    (line proxy : List UInt8) :
    addresses prefixes (line ++ (String.utf8EncodeChar ',' ++ proxy)) =
      addresses prefixes line ++ addresses prefixes proxy := by
  simp [addresses, lowerText_append_comma, List.splitOn_append_cons_self]

theorem filterMap_parseEntry
    (parts : List (List Char)) :
    ((parts.filter (fun part => !part.isEmpty)).map trimSpace).filterMap parseEntry =
      (parts.map trimSpace).filterMap parseEntry := by
  induction parts with
  | nil =>
      rfl
  | cons part parts ih =>
      cases part with
      | nil =>
          exact ih
      | cons c part =>
          rw [List.filter_cons_of_pos (by rfl), List.map_cons, List.map_cons,
            List.filterMap_cons, List.filterMap_cons, ih]

/-- What is read is the last untrusted address of the first line. -/
theorem extractIPAddressFromHeader_eq
    (r : Request)
    (name : List Char)
    (prefixes : List Prefix) :
    extractIPAddressFromHeader r name prefixes =
      (addresses prefixes (r.get name)).getLast? := by
  have hparts := @map_trimSpace_splitOn ',' (by decide) (lowerText (r.get name))
  unfold extractIPAddressFromHeader addresses
  extract_lets value addrsStrs validAddrs
  split
  · next hempty =>
      rw [show trimSpace (lowerText (r.get name)) = [] from hempty] at hparts
      rw [← hparts]
      rfl
  · rw [show validAddrs = _ from filterMap_parseEntry (value.splitOn ',')]
    rw [show (value.splitOn ',').map trimSpace = _ from hparts]

theorem extractIPAddress_behindProxy
    {r : Request} {name : List Char} {addr : Addr}
    (hname : name ≠ [])
    (haddr : (addresses prefixes (r.get name)).getLast? = some addr) :
    extractIPAddress r true name prefixes = addr := by
  rw [extractIPAddress, if_pos ⟨rfl, hname⟩, extractIPAddressFromHeader_eq, haddr,
    Option.getD_some]

end Entries

section Lines

variable {prefixes : List Prefix} {r : Request} {name : List Char}

theorem get_withLines
    (lines : List (List UInt8)) :
    (r.withLines name lines).get name = lines.head?.getD [] := by
  simp [Request.get, Request.withLines]

/-- The first line is the proxy's part, possibly after one line of the client. -/
theorem received_of_length
    {way : Way} {client : List (List UInt8)}
    (proxy : List UInt8)
    (hlength : (received way client proxy).length = 1) :
    received way client proxy = [proxy] ∨
      ∃ line, received way client proxy =
        [line ++ (String.utf8EncodeChar ',' ++ proxy)] := by
  match way, client with
  | .ownLine, [] =>
      exact Or.inl rfl
  | .ownLine, line :: client =>
      simp [received] at hlength
  | .suffix, [] =>
      exact Or.inl rfl
  | .suffix, [line] =>
      exact Or.inr ⟨line, rfl⟩
  | .suffix, line :: line' :: client =>
      cases client <;> simp [received] at hlength

theorem length_received
    (way : Way)
    (client : List (List UInt8))
    (proxy : List UInt8) :
    (received way client proxy).length =
      match way with
      | .ownLine => client.length + 1
      | .suffix => max client.length 1 := by
  cases way with
  | ownLine =>
      simp [received]
  | suffix =>
      induction client with
      | nil =>
          rfl
      | cons line client ih =>
          cases client with
          | nil =>
              rfl
          | cons line' client =>
              simp only [received, List.length_cons] at ih ⊢
              omega

/-- With more than one line the first one is the client's. -/
theorem head?_received
    {way : Way} {client : List (List UInt8)} {line : List UInt8}
    (proxy : List UInt8)
    (hlength : (received way (line :: client) proxy).length ≠ 1) :
    (received way (line :: client) proxy).head? = some line := by
  match way, client with
  | .ownLine, client =>
      rfl
  | .suffix, [] =>
      exact absurd rfl hlength
  | .suffix, line' :: client =>
      rfl

end Lines

section Spoofing

variable {prefixes : List Prefix}

theorem lowerText_bytesOf
    (s : String) :
    lowerText (bytesOf s) = s.toList.map toLower := by
  rw [lowerText, runes_bytesOf, replaceInvalid_map_some]

/-- No network contains an address with a zone. -/
theorem trusted_zone
    (bits : BitVec 128)
    (c : Char)
    (zone : List Char) :
    trusted prefixes (.v6 bits (c :: zone)) = false := by
  refine List.any_eq_false.mpr fun net _ => ?_
  cases net <;> simp [Prefix.contains]

theorem addresses_zoned :
    addresses prefixes (bytesOf "::1%a") = [.v6 1 ['a']] ∧
      addresses prefixes (bytesOf "::1%b") = [.v6 1 ['b']] := by
  have ha : ((("::1%a".toList.map toLower).splitOn ',').map trimSpace).filterMap
      parseEntry = [.v6 1 ['a']] := by
    decide
  have hb : ((("::1%b".toList.map toLower).splitOn ',').map trimSpace).filterMap
      parseEntry = [.v6 1 ['b']] := by
    decide
  rw [addresses, addresses, lowerText_bytesOf, lowerText_bytesOf, ha, hb]
  exact ⟨List.filter_cons_of_pos (by rw [trusted_zone]; rfl),
    List.filter_cons_of_pos (by rw [trusted_zone]; rfl)⟩

/--
The address is the last untrusted one of the proxy's part, whatever so many client
lines say, if and only if the header arrives as one line.
-/
theorem forwarded_address_unspoofable_iff
    (r : Request)
    (way : Way)
    (n : Nat)
    {name : List Char}
    (hname : name ≠ [])
    {proxy : List UInt8} {addr : Addr}
    (haddr : (addresses prefixes proxy).getLast? = some addr) :
    Unspoofable r name prefixes way n proxy addr ↔ OneLine way n := by
  have hlines : ∀ client : List (List UInt8), client.length = n →
      ((received way client proxy).length = 1 ↔ OneLine way n) := by
    rintro client rfl
    rw [length_received]
    cases way with
    | ownLine =>
        simp [OneLine]
    | suffix =>
        simp [OneLine]
  constructor
  · intro h
    by_contra hmany
    -- the client may send two different zoned addresses, which no network contains
    have hspoofed : ∀ {line : List UInt8} {spoofed : Addr},
        addresses prefixes line = [spoofed] → spoofed = addr := by
      intro line spoofed hline
      obtain ⟨n, rfl⟩ : ∃ m, n = m + 1 := by
        refine ⟨n - 1, ?_⟩
        cases way <;> simp only [OneLine] at hmany <;> omega
      have hclient := h (line :: List.replicate n []) (by simp)
      have hmany' : (received way (line :: List.replicate n []) proxy).length ≠ 1 :=
        fun hone => hmany ((hlines _ (by simp)).mp hone)
      rw [extractIPAddress_behindProxy hname] at hclient
      · exact hclient
      · rw [get_withLines, head?_received proxy hmany', Option.getD_some, hline,
          List.getLast?_singleton]
    have hzones := (hspoofed addresses_zoned.1).trans (hspoofed addresses_zoned.2).symm
    simp at hzones
  · intro hone client hclient
    refine extractIPAddress_behindProxy hname ?_
    rw [get_withLines]
    rcases received_of_length proxy ((hlines client hclient).mpr hone) with h | ⟨line, h⟩
    · rw [h, List.head?_cons, Option.getD_some, haddr]
    · rw [h, List.head?_cons, Option.getD_some, addresses_append_comma,
        List.getLast?_append, haddr]
      rfl

/-- A header with the address of the client, in the proxy's own line or as a suffix. -/
theorem appended_address_unspoofable :
    (addresses [.v4 0x0a000000 8] (bytesOf "203.0.113.9, 10.0.0.1")).getLast? =
        some (.v4 0xcb007109) ∧
      (Unspoofable ⟨fun _ => [], "10.0.0.1:4711".toList⟩ "X-Forwarded-For".toList
        [.v4 0x0a000000 8] .suffix 1 (bytesOf "203.0.113.9, 10.0.0.1")
        (.v4 0xcb007109) ↔ OneLine .suffix 1) := by
  have haddr : (addresses [.v4 0x0a000000 8] (bytesOf "203.0.113.9, 10.0.0.1")).getLast? =
      some (.v4 0xcb007109) := by
    rw [addresses, lowerText_bytesOf]
    decide
  exact ⟨haddr, forwarded_address_unspoofable_iff _ .suffix 1 (by decide) haddr⟩

/-- A client that sends a line of its own chooses its address. -/
theorem client_line_spoofs :
    ¬ ∀ (r : Request) (name : List Char) (prefixes : List Prefix) (way : Way) (n : Nat)
      (proxy : List UInt8) (addr : Addr), name ≠ [] →
        (addresses prefixes proxy).getLast? = some addr →
          Unspoofable r name prefixes way n proxy addr := by
  intro h
  have haddr : (addresses [] (bytesOf "203.0.113.9")).getLast? = some (.v4 0xcb007109) := by
    rw [addresses, lowerText_bytesOf]
    decide
  have hspoofed : (addresses [] (bytesOf "1.2.3.4")).getLast? = some (.v4 0x01020304) := by
    rw [addresses, lowerText_bytesOf]
    decide
  have hline := h ⟨fun _ => [], "10.0.0.1:4711".toList⟩ "X-Forwarded-For".toList []
    .ownLine 1 (bytesOf "203.0.113.9") _ (by decide) haddr [bytesOf "1.2.3.4"] rfl
  rw [extractIPAddress_behindProxy (by decide)
    (by rw [get_withLines]; exact hspoofed)] at hline
  exact absurd hline (by decide)

end Spoofing

end ForwardedAddresses
end Server
end CoopMessenger
