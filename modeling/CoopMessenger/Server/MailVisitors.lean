import CoopMessenger.Server.ForwardedAddresses

/-!
# Visitors that send mail

`publishMessage` of `server/smtp_server.go` makes up a request for a mail.  Its
remote address has no port, and the forwarded header is set to the address of the
sender before the title and the credentials are.

**Results.**
* `splitHostPort_peerText`: the host of a peer's address is the text of its IP.
* `parseAddrPort_toText`: without a port the address of a socket is not read.
* `mail_visitor_is_peer_iff`: for which configurations and peers the visitor of a
  mail is its sender.
-/

namespace CoopMessenger
namespace Server

open Util Util.NetIP

namespace MailVisitors

open ForwardedAddresses

section Model

/-- The end of a TCP connection. -/
inductive Peer where
  | v4 (bits : BitVec 32) (port : Fin 65536)
  | v6 (bits : BitVec 128) (port : Fin 65536)
deriving DecidableEq, Repr

/-- The IP of a peer; a mapped address is written as the IPv4 address it is. -/
def Peer.ip :
    Peer → Addr
  | .v4 bits _ => .v4 bits
  | .v6 bits _ => if is4In6 bits then .v4 (unmapped bits) else .v6 bits []

def Peer.port :
    Peer → Fin 65536
  | .v4 _ port | .v6 _ port => port

/-- `net.JoinHostPort` -/
def joinHostPort (host port : List Char) : List Char :=
  if ':' ∈ host then
    '[' :: host ++ "]:".toList ++ port
  else
    host ++ ':' :: port

/-- `TCPAddr.String` -/
def Peer.toText (peer : Peer) : List Char :=
  joinHostPort peer.ip.toText (Nat.toDigits 10 peer.port)

/-- `net.SplitHostPort` -/
def splitHostPort (s : List Char) : Option (List Char × List Char) :=
  if ':' ∉ s then
    none
  else
    let host := (s.rdropWhile (· != ':')).dropLast
    let port := s.rtakeWhile (· != ':')
    match host with
    | '[' :: inner =>
        if inner.getLast? = some ']' ∧ ']' ∉ inner.dropLast ∧ '[' ∉ inner ∧
            '[' ∉ port ∧ ']' ∉ port then
          some (inner.dropLast, port)
        else
          none
    | host =>
        if ':' ∈ host ∨ '[' ∈ s ∨ ']' ∈ s then none else some (host, port)

structure Config where
  behindProxy : Bool
  proxyForwardedHeader : List Char
  proxyTrustedPrefixes : List Prefix

/-- What a mail and its session add to the headers. -/
structure Mail where
  title : List UInt8
  token : List UInt8
  basicAuth : List UInt8

/-- `Header.Set` -/
def set
    (r : Request)
    (name : List Char)
    (value : List UInt8) : Request :=
  r.withLines name [value]

/-- `Header.Add` -/
def add
    (r : Request)
    (name : List Char)
    (value : List UInt8) : Request :=
  r.withLines name (r.header (canonicalMIMEHeaderKey name) ++ [value])

def textBytes (s : List Char) : List UInt8 :=
  bytesOf (String.ofList s)

def withTitle
    (m : Mail)
    (r : Request) : Request :=
  if m.title ≠ [] then set r "Title".toList m.title else r

def withCredentials
    (m : Mail)
    (r : Request) : Request :=
  if m.token ≠ [] then
    add r "Authorization".toList (bytesOf "Bearer " ++ m.token)
  else if m.basicAuth ≠ [] then
    add r "Authorization".toList (bytesOf "Basic " ++ m.basicAuth)
  else
    r

/-- The request that `publishMessage` makes up for a mail from this address. -/
def publishMessage
    (cfg : Config)
    (remote : List Char)
    (m : Mail) : Request :=
  let remoteAddr :=
    match splitHostPort remote with
    | some (host, _) => host
    | none => remote
  let req : Request := ⟨fun _ => [], remoteAddr⟩
  withCredentials m (withTitle m (set req cfg.proxyForwardedHeader (textBytes remoteAddr)))

/-- The visitor address of a mail from the peer. -/
def visitorAddress
    (cfg : Config)
    (peer : Peer)
    (m : Mail) : Addr :=
  extractIPAddress (publishMessage cfg peer.toText m) cfg.behindProxy
    cfg.proxyForwardedHeader cfg.proxyTrustedPrefixes

/-- The forwarded header is where the title of a mail is put. -/
def isTitle (cfg : Config) : Bool :=
  canonicalMIMEHeaderKey cfg.proxyForwardedHeader = "Title".toList

end Model

section Sockets

/-- A text up to its last colon, and after it. -/
theorem split_lastColon
    (before : List Char)
    {after : List Char}
    (hafter : ':' ∉ after) :
    ((before ++ ':' :: after).rdropWhile (· != ':')).dropLast = before ∧
      (before ++ ':' :: after).rtakeWhile (· != ':') = after := by
  have hreverse : ∀ c ∈ after.reverse, (c != ':') = true := by
    intro c hc
    rw [bne_iff_ne]
    rintro rfl
    exact hafter (List.mem_reverse.mp hc)
  constructor
  · rw [List.rdropWhile, List.reverse_append, List.reverse_cons, List.append_assoc,
      List.dropWhile_append_of_pos hreverse]
    simp
  · rw [List.rtakeWhile, List.reverse_append, List.reverse_cons, List.append_assoc,
      List.takeWhile_append_of_pos hreverse]
    simp

theorem port_spec
    (port : Nat) :
    ∀ c ∈ Nat.toDigits 10 port, c ≠ ':' ∧ c ≠ '[' ∧ c ≠ ']' := by
  intro c hc
  have hdigit := Nat.isDigit_of_mem_toDigits (by decide) (by decide) hc
  refine ⟨?_, ?_, ?_⟩ <;> rintro rfl <;> exact absurd hdigit (by decide)

theorem ip_zone
    (peer : Peer) :
    ∀ bits zone, peer.ip = .v6 bits zone → zone = [] := by
  intro bits zone h
  unfold Peer.ip at h
  split at h
  · cases h
  · split at h
    · cases h
    · cases h
      rfl

theorem ip_bracket
    (peer : Peer) :
    ∀ c ∈ peer.ip.toText, (c != '[' && c != ']') = true :=
  forall_mem_toText (p := fun c => c != '[' && c != ']') (by decide) (ip_zone peer)

/-- The host of a peer's address is the text of its IP. -/
theorem splitHostPort_peerText
    (peer : Peer) :
    splitHostPort peer.toText =
      some (peer.ip.toText, Nat.toDigits 10 peer.port) := by
  have hbracket := ip_bracket peer
  have hport := port_spec peer.port
  have hcolon : ':' ∉ Nat.toDigits 10 peer.port := fun hc => (hport _ hc).1 rfl
  have hopen : '[' ∉ peer.ip.toText := fun hc => absurd (hbracket _ hc) (by decide)
  have hclose : ']' ∉ peer.ip.toText := fun hc => absurd (hbracket _ hc) (by decide)
  have hopen' : '[' ∉ Nat.toDigits 10 peer.port := fun hc => (hport _ hc).2.1 rfl
  have hclose' : ']' ∉ Nat.toDigits 10 peer.port := fun hc => (hport _ hc).2.2 rfl
  unfold Peer.toText joinHostPort
  split
  · have hsplit := split_lastColon ('[' :: peer.ip.toText ++ [']']) hcolon
    have htext : '[' :: peer.ip.toText ++ "]:".toList ++ Nat.toDigits 10 peer.port =
        ('[' :: peer.ip.toText ++ [']']) ++ ':' :: Nat.toDigits 10 peer.port := by
      simp
    rw [htext, splitHostPort, if_neg (by simp), hsplit.1, hsplit.2]
    simp [hopen, hclose, hopen', hclose']
  · next hhost =>
      have hsplit := split_lastColon peer.ip.toText hcolon
      rw [splitHostPort, if_neg (by simp), hsplit.1, hsplit.2]
      dsimp only
      split
      · next inner hinner =>
          exact absurd (hinner ▸ List.mem_cons_self) hopen
      · simp [hhost, hopen, hclose, hopen', hclose']

/-- An IPv6 address without brackets is not read as an address with a port. -/
theorem parseAddrPort_addressText
    (bits : BitVec 128) :
    parseAddrPort (addressText bits) = none := by
  obtain ⟨hex, rest, htext, hcolon, hhex⟩ := exists_addressText bits
  -- the last colon is the port's, so another one is left in the host
  obtain ⟨after, before, hrest, hafter⟩ :=
    List.eq_append_cons_of_mem (List.mem_reverse.mpr hcolon)
  have hlast : addressText bits = (hex ++ ':' :: before.reverse) ++ ':' :: after.reverse := by
    rw [htext, ← List.reverse_reverse rest, hrest]
    simp
  have hcolon' : ':' ∉ after.reverse := by
    simpa using hafter
  have hsplit := split_lastColon (hex ++ ':' :: before.reverse) hcolon'
  rw [hlast, parseAddrPort, if_neg (by simp), hsplit.1, hsplit.2]
  dsimp only
  split
  · rfl
  · split
    · next inner hinner =>
        exfalso
        cases hex with
        | nil =>
            simp at hinner
        | cons c hex =>
            simp only [List.cons_append, List.cons.injEq] at hinner
            exact absurd (hhex c List.mem_cons_self) (by rw [hinner.1]; decide)
    · rw [parseAddr_colon hhex]
      split
      · next bits' hparsed =>
          exact absurd hparsed (parseIPv6_ne_v4 _ _)
      · rfl

/-- Without a port the address of a socket is not read. -/
theorem parseAddrPort_toText
    (peer : Peer) :
    parseAddrPort peer.ip.toText = none := by
  cases hip : peer.ip with
  | v4 bits =>
      rw [parseAddrPort, if_pos]
      intro hcolon
      rcases mem_of_mem_intercalate hcolon with hc | ⟨text, htext, hc⟩
      · cases hc
      · obtain ⟨n, -, rfl⟩ := List.mem_map.mp htext
        exact notMem_toDigits (by decide) hc
  | v6 bits zone =>
      rw [ip_zone peer bits zone hip, Addr.toText, if_pos rfl, List.append_nil]
      exact parseAddrPort_addressText bits

end Sockets

section Headers

theorem get_set
    (r : Request)
    (name other : List Char)
    (value : List UInt8) :
    (set r name value).get other =
      if canonicalMIMEHeaderKey other = canonicalMIMEHeaderKey name then value
      else r.get other := by
  unfold set Request.get Request.withLines
  dsimp only
  split
  · rfl
  · rfl

/-- A line that is added does not come first. -/
theorem get_withCredentials
    {r : Request} {name : List Char}
    (hlines : r.header (canonicalMIMEHeaderKey name) ≠ [])
    (m : Mail) :
    (withCredentials m r).get name = r.get name := by
  have hadd : ∀ value, (add r "Authorization".toList value).get name = r.get name := by
    intro value
    unfold add Request.get Request.withLines
    dsimp only
    split
    · next heq =>
        rw [← heq]
        cases hheader : r.header (canonicalMIMEHeaderKey name) with
        | nil =>
            exact absurd hheader hlines
        | cons line lines =>
            rfl
    · rfl
  unfold withCredentials
  split
  · exact hadd _
  · split
    · exact hadd _
    · rfl

theorem get_publishMessage
    (cfg : Config)
    (peer : Peer)
    (m : Mail) :
    (publishMessage cfg peer.toText m).get cfg.proxyForwardedHeader =
      if isTitle cfg = true ∧ m.title ≠ [] then m.title
      else textBytes peer.ip.toText := by
  have htitle : canonicalMIMEHeaderKey "Title".toList = "Title".toList := by
    decide
  rw [publishMessage, splitHostPort_peerText]
  dsimp only
  rw [get_withCredentials]
  · unfold withTitle isTitle
    by_cases hm : m.title = []
    · simp [hm, get_set]
    · rw [if_pos hm, get_set, get_set, htitle]
      simp [hm]
  · unfold withTitle
    split
    · unfold set Request.withLines
      dsimp only
      split <;> simp
    · simp [set, Request.withLines]

theorem remoteAddr_publishMessage
    (cfg : Config)
    (peer : Peer)
    (m : Mail) :
    (publishMessage cfg peer.toText m).remoteAddr = peer.ip.toText := by
  rw [publishMessage, splitHostPort_peerText]
  unfold withCredentials withTitle
  split <;> split <;> first | rfl | (split <;> rfl)

/-- An entry of the header without an equals sign is an address by itself. -/
theorem findForwarded_eq_none
    {before : Option Char} {s : List Char}
    (hs : ∀ c ∈ s, c.toLower ≠ '=') :
    findForwarded before s = none := by
  induction s generalizing before with
  | nil =>
      rfl
  | cons c s ih =>
      have hmatch : matchHere (c :: s) = none := by
        refine if_neg fun hstart => ?_
        have hmem : '=' ∈ ((c :: s).take 4).map Char.toLower := by
          rw [hstart]
          decide
        obtain ⟨d, hd, heq⟩ := List.mem_map.mp hmem
        exact hs d (List.mem_of_mem_take hd) heq
      rw [findForwarded, hmatch, ite_self]
      exact ih fun d hd => hs d (List.mem_cons_of_mem _ hd)

/-- The text of an IP is read back from the header. -/
theorem addresses_textBytes
    (prefixes : List Prefix)
    (peer : Peer) :
    addresses prefixes (textBytes peer.ip.toText) =
      if trusted prefixes peer.ip = true then [] else [peer.ip] := by
  have hchars : ∀ c ∈ peer.ip.toText,
      (toLower c == c && c != ',' && !isSpace c && c.toLower != '=') = true :=
    forall_mem_toText
      (p := fun c => toLower c == c && c != ',' && !isSpace c && c.toLower != '=')
      (by decide) (ip_zone peer)
  simp only [Bool.and_eq_true, beq_iff_eq, bne_iff_ne, Bool.not_eq_true'] at hchars
  have hlower : lowerText (textBytes peer.ip.toText) = peer.ip.toText := by
    rw [textBytes, lowerText_bytesOf, String.toList_ofList]
    exact (List.map_congr_left (g := id) fun c hc => (hchars c hc).1.1.1).trans
      (List.map_id _)
  have hsplit : peer.ip.toText.splitOn ',' = [peer.ip.toText] :=
    List.splitOn_eq_singleton fun hc => (hchars _ hc).1.1.2 rfl
  have htrim : trimSpace peer.ip.toText = peer.ip.toText :=
    trimSpace_eq_self
      (fun c hc => (hchars c (List.mem_of_mem_head? hc)).1.2)
      (fun c hc => (hchars c (List.mem_of_mem_getLast? hc)).1.2)
  have hentry : parseEntry peer.ip.toText = some peer.ip := by
    rw [parseEntry, findForwarded_eq_none fun c hc => (hchars c hc).2]
    exact parseAddr_toText peer.ip
  rw [addresses, hlower, hsplit]
  simp only [List.map_cons, List.map_nil, htrim, List.filterMap_cons, hentry,
    List.filterMap_nil]
  cases htrusted : trusted prefixes peer.ip <;> simp [htrusted]

end Headers

section Visitor

/-- Without a usable header the visitor of a mail is unspecified. -/
theorem visitorAddress_eq
    (cfg : Config)
    (peer : Peer)
    (m : Mail) :
    visitorAddress cfg peer m =
      if cfg.behindProxy = true ∧ cfg.proxyForwardedHeader ≠ [] then
        (addresses cfg.proxyTrustedPrefixes
          (if isTitle cfg = true ∧ m.title ≠ [] then m.title
          else textBytes peer.ip.toText)).getLast?.getD ipv4Unspecified
      else
        ipv4Unspecified := by
  rw [visitorAddress, extractIPAddress, extractIPAddressFromHeader_eq,
    get_publishMessage, remoteAddr_publishMessage, parseAddrPort_toText]

theorem isTitle_nonempty
    {cfg : Config}
    (htitle : isTitle cfg = true) :
    cfg.proxyForwardedHeader ≠ [] := by
  intro hempty
  rw [isTitle, hempty] at htitle
  exact absurd htitle (by decide)

/-- With the header `Title` a mail can claim to come from anywhere. -/
theorem visitorAddress_title
    {cfg : Config}
    (hproxy : cfg.behindProxy = true)
    (htitle : isTitle cfg = true)
    (peer : Peer) :
    visitorAddress cfg peer ⟨bytesOf "::1%a", [], []⟩ = .v6 1 ['a'] := by
  have hne : bytesOf "::1%a" ≠ [] := by
    decide
  rw [visitorAddress_eq, if_pos ⟨hproxy, isTitle_nonempty htitle⟩, if_pos ⟨htitle, hne⟩,
    addresses_zoned.1]
  rfl

/--
The visitor of every mail from a peer is the peer's IP if and only if the server reads
a forwarded header that the title does not overwrite and does not trust the IP, or the
IP is unspecified itself.
-/
theorem mail_visitor_is_peer_iff
    (cfg : Config)
    (peer : Peer) :
    (∀ m : Mail, visitorAddress cfg peer m = peer.ip) ↔
      (cfg.behindProxy = true ∧ cfg.proxyForwardedHeader ≠ [] ∧ isTitle cfg = false ∧
          trusted cfg.proxyTrustedPrefixes peer.ip = false) ∨
        (peer.ip = ipv4Unspecified ∧ ¬(cfg.behindProxy = true ∧ isTitle cfg = true)) := by
  by_cases htitle : cfg.behindProxy = true ∧ isTitle cfg = true
  · refine iff_of_false (fun h => ?_) (by simp [htitle.2, htitle.1])
    have hip := h ⟨bytesOf "::1%a", [], []⟩
    rw [visitorAddress_title htitle.1 htitle.2] at hip
    exact absurd (ip_zone peer _ _ hip.symm) (by simp)
  · have hvisitor : ∀ m : Mail, visitorAddress cfg peer m =
        if cfg.behindProxy = true ∧ cfg.proxyForwardedHeader ≠ [] ∧
            trusted cfg.proxyTrustedPrefixes peer.ip = false then
          peer.ip
        else
          ipv4Unspecified := by
      intro m
      rw [visitorAddress_eq]
      by_cases hread : cfg.behindProxy = true ∧ cfg.proxyForwardedHeader ≠ []
      · have hother : isTitle cfg = false := by
          simpa [hread.1] using htitle
        rw [if_pos hread, if_neg (by simp [hother]), addresses_textBytes]
        cases htrusted : trusted cfg.proxyTrustedPrefixes peer.ip with
        | true =>
            simp
        | false =>
            simp [hread]
      · rw [if_neg hread, if_neg fun h => hread ⟨h.1, h.2.1⟩]
    constructor
    · intro h
      have hm := h ⟨[], [], []⟩
      rw [hvisitor] at hm
      split at hm
      · next hread =>
          have hother : isTitle cfg = false := by
            simpa [hread.1] using htitle
          exact Or.inl ⟨hread.1, hread.2.1, hother, hread.2.2⟩
      · exact Or.inr ⟨hm.symm, htitle⟩
    · rintro (⟨hproxy, hname, -, huntrusted⟩ | ⟨hip, -⟩) m
      · rw [hvisitor, if_pos ⟨hproxy, hname, huntrusted⟩]
      · rw [hvisitor, hip, ite_self]

/-- Without a proxy all mail has the unspecified address. -/
theorem mail_without_proxy_unspecified :
    ¬ ∀ (cfg : Config) (peer : Peer) (m : Mail), visitorAddress cfg peer m = peer.ip := by
  intro h
  have hmail := h ⟨false, "X-Forwarded-For".toList, []⟩ (.v4 0x01020304 4711) ⟨[], [], []⟩
  rw [visitorAddress_eq, if_neg (by simp)] at hmail
  exact absurd hmail (by decide)

end Visitor

end MailVisitors
end Server
end CoopMessenger
