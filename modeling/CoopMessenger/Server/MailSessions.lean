import CoopMessenger.Library.Histories
import CoopMessenger.Manager.Types
import CoopMessenger.Server.Credentials
import CoopMessenger.Server.MailBodies
import CoopMessenger.Server.MailVisitors
import Mathlib.Logic.Function.Basic

/-!
# Mail sessions

The SMTP server of `server/smtp_server.go`: clients log in, name a recipient and send a
mail, on any number of connections at once.  A mail becomes a request to the HTTP handler;
the recipient's address has the topic and maybe a token.

The library calls a session for the commands of one connection in their order.  It passes
on one recipient at most, no mail without a recipient, and resets the session after each
mail.

**Results.**
* `inv_step`: what the steps so far say about a session.
* `counts_eq`: every mail and every recipient that is refused is counted once.
* `mail_to_recipient`: where a mail is published, and with whose credentials.
-/

namespace CoopMessenger
namespace Server

open Library Manager Util

namespace MailSessions

open ForwardedAddresses Credentials

section Model

/-- A mail that is read: its body and its `Subject`. -/
structure Message where
  body : MailBodies.Mail
  subject : String

/-- The packages of the standard library that read mails and URLs. -/
structure Parsers where
  bodies : MailBodies.Library
  parseAddressList : List Char → Option (List (List Char))
  readMessage : List UInt8 → Option Message
  decodeHeader : String → Option String
  parseURL : String → Bool

structure Config where
  baseURL : String
  smtpServerDomain : List Char
  smtpServerAddrPrefix : List Char
  messageSizeLimit : Nat
  proxy : MailVisitors.Config

inductive Error where
  | parse
  | tooManyRecipients
  | invalidDomain
  | invalidAddress
  | invalidTopic
deriving DecidableEq, Repr

/-- `smtpSession`, without its connection -/
structure Session where
  topic : List Char
  token : List Char
  basicAuth : List UInt8
deriving DecidableEq, Repr

/-- A request that a session makes up. -/
structure Posted where
  url : String
  request : Request
  body : List UInt8

variable (P : Parsers)
variable (conf : Config)

/-- The topic and the token behind it; what is behind a token is left out. -/
def splitToken (name : List Char) : List Char × List Char :=
  match name.splitOn '+' with
  | topic :: token :: _ => (topic, token)
  | _ => (name, [])

/-- The topic and the token of a recipient, as `Rcpt` reads them. -/
def parseRecipient (addresses : List Char) : Except Error (List Char × List Char) :=
  match P.parseAddressList addresses with
  | none => .error .parse
  | some [address] =>
      let domain := '@' :: conf.smtpServerDomain
      if !domain.isSuffixOf address then
        .error .invalidDomain
      else
        let name := trimSuffix domain address
        if conf.smtpServerAddrPrefix ≠ [] ∧ !conf.smtpServerAddrPrefix.isPrefixOf name then
          .error .invalidAddress
        else
          let recipient := splitToken (trimPrefix conf.smtpServerAddrPrefix name)
          if !allowedTopic (String.ofList recipient.1) then
            .error .invalidTopic
          else
            .ok recipient
  | some _ => .error .tooManyRecipients

def Session.authPlain
    (s : Session)
    (username password : List UInt8) : Session :=
  { s with basicAuth := Encoding.encodeToString stdEncoding true (username ++ 58 :: password) }

def Session.rcpt
    (s : Session)
    (topic token : List Char) : Session :=
  { s with topic, token }

def Session.reset (s : Session) : Session :=
  { s with topic := [] }

def Session.logout (s : Session) : Session :=
  { s with basicAuth := [] }

/-- The title and the text of a mail; a title without a text is the text. -/
def titleAndText (raw : List UInt8) : Option (String × List UInt8) := do
  let msg ← P.readMessage raw
  let body ← (MailBodies.readMailBody P.bodies msg.body).toOption
  let body := trimBytes body
  let body := if conf.messageSizeLimit < body.length then body.take conf.messageSizeLimit else body
  let title ← if trim msg.subject ≠ "" then P.decodeHeader (trim msg.subject) else some ""
  if title ≠ "" ∧ body = [] then
    some ("", bytesOf title)
  else
    some (title, body)

/-- `Data` up to the call of the handler; a mail that cannot be read makes no request. -/
def Session.data
    (s : Session)
    (peer : MailVisitors.Peer)
    (raw : List UInt8) : Option Posted := do
  let (title, message) ← titleAndText P conf raw
  let url := conf.baseURL ++ "/" ++ String.ofList s.topic
  if P.parseURL url then
    some {
      url
      request := MailVisitors.publishMessage conf.proxy peer.toText
        ⟨bytesOf title, encode s.token, s.basicAuth⟩
      body := message }
  else
    none

/-- What is left to do for the last command of a session. -/
inductive Pending where
  | refused
  | sent (ok : Bool)
deriving DecidableEq, Repr

/-- A connection, with what the library keeps about it. -/
structure Connection where
  session : Session
  fromReceived : Bool
  recipients : Nat
  pending : Option Pending
deriving DecidableEq, Repr

/-- `smtpBackend` and the connections by their number; `server` is behind the handler. -/
structure State (η : Type) where
  connections : Nat → Connection
  success : Nat
  failure : Nat
  server : η

/-- The commands, and the two ways a session counts what it has done. -/
inductive Label where
  | authPlain (conn : Nat) (username password : List UInt8)
  | mail (conn : Nat)
  | rcpt (conn : Nat) (addresses : List Char)
  | data (conn : Nat) (raw : List UInt8)
  | reset (conn : Nat)
  | logout (conn : Nat)
  | countRefused (conn : Nat)
  | countSent (conn : Nat)
deriving DecidableEq, Repr

/-- The connection of the step. -/
def Label.conn : Label → Nat
  | .authPlain conn _ _ | .mail conn | .rcpt conn _ | .data conn _ | .reset conn
  | .logout conn | .countRefused conn | .countSent conn => conn

def newConnection : Connection :=
  ⟨⟨[], [], []⟩, false, 0, none⟩

variable {η : Type}

def State.set
    (s : State η)
    (conn : Nat)
    (c : Connection) : State η :=
  { s with connections := Function.update s.connections conn c }

def initial (server : η) : State η :=
  ⟨fun _ => newConnection, 0, 0, server⟩

variable (peer : Nat → MailVisitors.Peer)
variable (handler : η → Posted → η × Bool)

/-- A command of a connection whose last command is done. -/
def step
    (s : State η) : Label → Option (State η)
  | .authPlain conn username password =>
      let c := s.connections conn
      if c.pending ≠ none then
        none
      else
        some (s.set conn { c with session := c.session.authPlain username password })
  | .mail conn =>
      let c := s.connections conn
      if c.pending ≠ none then none else some (s.set conn { c with fromReceived := true })
  | .rcpt conn addresses =>
      let c := s.connections conn
      if c.pending ≠ none ∨ !c.fromReceived ∨ 1 ≤ c.recipients then
        none
      else
        match parseRecipient P conf addresses with
        | .error _ => some (s.set conn { c with pending := some .refused })
        | .ok (topic, token) =>
            some (s.set conn
              { c with session := c.session.rcpt topic token, recipients := c.recipients + 1 })
  | .data conn raw =>
      let c := s.connections conn
      if c.pending ≠ none ∨ !c.fromReceived ∨ c.recipients = 0 then
        none
      else
        match c.session.data P conf (peer conn) raw with
        | none => some (s.set conn { c with pending := some (.sent false) })
        | some posted =>
            let (server, ok) := handler s.server posted
            some { s.set conn { c with pending := some (.sent ok) } with server }
  | .reset conn =>
      let c := s.connections conn
      if c.pending ≠ none then
        none
      else
        some (s.set conn
          { c with session := c.session.reset, fromReceived := false, recipients := 0 })
  | .logout conn =>
      let c := s.connections conn
      if c.pending ≠ none then
        none
      else
        some (s.set conn { c with session := c.session.logout })
  | .countRefused conn =>
      let c := s.connections conn
      if c.pending = some .refused then
        some { s.set conn { c with pending := none } with failure := s.failure + 1 }
      else
        none
  | .countSent conn =>
      let c := s.connections conn
      match c.pending with
      | some (.sent ok) =>
          let done : Connection := ⟨c.session.reset, false, 0, none⟩
          some { s.set conn done with
            success := if ok then s.success + 1 else s.success
            failure := if ok then s.failure else s.failure + 1 }
      | _ => none

end Model

section Histories

variable {P : Parsers}
variable {conf : Config}
variable {η : Type}
variable {peer : Nat → MailVisitors.Peer}
variable {handler : η → Posted → η × Bool}
variable {s s' : State η}
variable {ls : List Label}
variable {l : Label}
variable {conn : Nat}
variable {c : Connection}

/-- The step names a recipient of the connection, or forgets it. -/
def recipientWrite
    (P : Parsers)
    (conf : Config)
    (conn : Nat) : Label → Option (Option (List Char × List Char))
  | .rcpt other addresses =>
      if other = conn then (parseRecipient P conf addresses).toOption.map some else none
  | .reset other | .countSent other => if other = conn then some none else none
  | _ => none

/-- The step logs the connection in, or out. -/
def loginWrite (conn : Nat) : Label → Option (Option (List UInt8 × List UInt8))
  | .authPlain other username password =>
      if other = conn then some (some (username, password)) else none
  | .logout other => if other = conn then some none else none
  | _ => none

/-- The name and the password that the connection is logged in with. -/
def lastLogin
    (conn : Nat)
    (ls : List Label) : Option (List UInt8 × List UInt8) :=
  (lastWritten (loginWrite conn) ls).join

def loginText : Option (List UInt8 × List UInt8) → List UInt8
  | some (username, password) =>
      Encoding.encodeToString stdEncoding true (username ++ 58 :: password)
  | none => []

/-- What the steps so far say about a connection. -/
structure Agrees
    (P : Parsers)
    (conf : Config)
    (ls : List Label)
    (conn : Nat)
    (c : Connection) : Prop where
  recipient : c.recipients ≠ 0 →
    lastWritten (recipientWrite P conf conn) ls = some (some (c.session.topic, c.session.token))
  login : c.session.basicAuth = loginText (lastLogin conn ls)

theorem agrees_newConnection :
    Agrees P conf [] conn newConnection :=
  ⟨fun h => absurd rfl h, rfl⟩

/-- A step of one connection says nothing about another one. -/
theorem Agrees.concat_other
    (h : Agrees P conf ls conn c)
    (hne : l.conn ≠ conn) :
    Agrees P conf (ls ++ [l]) conn c := by
  have hrecipient : recipientWrite P conf conn l = none := by
    cases l <;> first | rfl | exact if_neg hne
  have hlogin : loginWrite conn l = none := by
    cases l <;> first | rfl | exact if_neg hne
  constructor
  · intro hc
    rw [lastWritten_of_not_write hrecipient]
    exact h.recipient hc
  · rw [lastLogin, lastWritten_of_not_write hlogin]
    exact h.login

/-- A step that changes neither the recipient nor the login. -/
theorem Agrees.concat_same
    {c' : Connection}
    (h : Agrees P conf ls conn c)
    (hrecipient : recipientWrite P conf conn l = none)
    (hlogin : loginWrite conn l = none)
    (hsession : c'.session = c.session)
    (hrecipients : c'.recipients = c.recipients) :
    Agrees P conf (ls ++ [l]) conn c' := by
  constructor
  · intro hc
    rw [lastWritten_of_not_write hrecipient, hsession]
    exact h.recipient (hrecipients ▸ hc)
  · rw [lastLogin, lastWritten_of_not_write hlogin, hsession]
    exact h.login

theorem step_frame
    (h : step P conf peer handler s l = some s')
    (hne : l.conn ≠ conn) :
    s'.connections conn = s.connections conn := by
  have hset : ∀ (t : State η) other c', other ≠ conn →
      (t.set other c').connections conn = t.connections conn :=
    fun t other c' hother => Function.update_of_ne (Ne.symm hother) _ _
  cases l with
  | authPlain other username password =>
      simp only [step] at h
      split at h <;> cases h
      exact hset _ _ _ hne
  | mail other =>
      simp only [step] at h
      split at h <;> cases h
      exact hset _ _ _ hne
  | rcpt other addresses =>
      simp only [step] at h
      split at h
      · cases h
      · split at h <;> cases h <;> exact hset _ _ _ hne
  | data other raw =>
      simp only [step] at h
      split at h
      · cases h
      · split at h <;> cases h <;> exact hset _ _ _ hne
  | reset other =>
      simp only [step] at h
      split at h <;> cases h
      exact hset _ _ _ hne
  | logout other =>
      simp only [step] at h
      split at h <;> cases h
      exact hset _ _ _ hne
  | countRefused other =>
      simp only [step] at h
      split at h <;> cases h
      exact hset _ _ _ hne
  | countSent other =>
      simp only [step] at h
      split at h <;> cases h
      exact hset _ _ _ hne

theorem connections_set
    (s : State η)
    (conn : Nat)
    (c : Connection) :
    (s.set conn c).connections conn = c :=
  Function.update_self _ _ _

/-- What the connection of the step is said to be. -/
theorem agrees_step
    (h : step P conf peer handler s l = some s')
    (hs : Agrees P conf ls l.conn (s.connections l.conn)) :
    Agrees P conf (ls ++ [l]) l.conn (s'.connections l.conn) := by
  cases l with
  | authPlain conn username password =>
      simp only [step] at h
      split at h <;> cases h
      have hlogin : loginWrite conn (.authPlain conn username password) =
          some (some (username, password)) :=
        if_pos rfl
      constructor
      · intro hc
        rw [Label.conn, connections_set] at hc ⊢
        rw [lastWritten_of_not_write rfl]
        exact hs.recipient hc
      · rw [Label.conn, connections_set, lastLogin, lastWritten_of_write hlogin]
        rfl
  | mail conn =>
      simp only [step] at h
      split at h <;> cases h
      rw [Label.conn, connections_set]
      exact hs.concat_same rfl rfl rfl rfl
  | rcpt conn addresses =>
      simp only [step] at h
      split at h
      · cases h
      · split at h
        · next herror =>
            cases h
            rw [Label.conn, connections_set]
            refine hs.concat_same ?_ rfl rfl rfl
            simp [recipientWrite, herror, Except.toOption]
        · next topic token hok =>
            cases h
            have hwrite : recipientWrite P conf conn (.rcpt conn addresses) =
                some (some (topic, token)) := by
              simp [recipientWrite, hok, Except.toOption]
            constructor
            · intro hc
              rw [Label.conn, connections_set, lastWritten_of_write hwrite]
              rfl
            · rw [Label.conn, connections_set, lastLogin, lastWritten_of_not_write rfl]
              exact hs.login
  | data conn raw =>
      simp only [step] at h
      split at h
      · cases h
      · split at h
        · cases h
          rw [Label.conn, connections_set]
          exact hs.concat_same rfl rfl rfl rfl
        · cases h
          rw [Label.conn]
          exact (connections_set s conn _).symm ▸ hs.concat_same rfl rfl rfl rfl
  | reset conn =>
      simp only [step] at h
      split at h <;> cases h
      rw [Label.conn, connections_set]
      refine ⟨fun hc => absurd rfl hc, ?_⟩
      rw [lastLogin, lastWritten_of_not_write rfl]
      exact hs.login
  | logout conn =>
      simp only [step] at h
      split at h <;> cases h
      have hlogin : loginWrite conn (.logout conn) = some none :=
        if_pos rfl
      constructor
      · intro hc
        rw [Label.conn, connections_set] at hc ⊢
        rw [lastWritten_of_not_write rfl]
        exact hs.recipient hc
      · rw [Label.conn, connections_set, lastLogin, lastWritten_of_write hlogin]
        rfl
  | countRefused conn =>
      simp only [step] at h
      split at h <;> cases h
      rw [Label.conn]
      exact (connections_set s conn _).symm ▸ hs.concat_same rfl rfl rfl rfl
  | countSent conn =>
      simp only [step] at h
      split at h <;> cases h
      rw [Label.conn]
      refine (connections_set s conn _).symm ▸ ⟨fun hc => absurd rfl hc, ?_⟩
      rw [lastLogin, lastWritten_of_not_write rfl]
      exact hs.login

theorem inv_step
    (hs : ∀ conn, Agrees P conf ls conn (s.connections conn))
    (h : step P conf peer handler s l = some s') :
    ∀ conn, Agrees P conf (ls ++ [l]) conn (s'.connections conn) := by
  intro conn
  by_cases hconn : l.conn = conn
  · rw [← hconn]
    exact agrees_step h (hs l.conn)
  · rw [step_frame h hconn]
    exact (hs conn).concat_other hconn

theorem agrees_of_run
    {server : η}
    (hrun : run (step P conf peer handler) (initial server) ls = some s) :
    ∀ conn, Agrees P conf ls conn (s.connections conn) := by
  have hpres : ∀ (ls : List Label) (s : State η) (l : Label) (s' : State η),
      (∀ conn, Agrees P conf ls conn (s.connections conn)) →
        step P conf peer handler s l = some s' →
          ∀ conn, Agrees P conf (ls ++ [l]) conn (s'.connections conn) :=
    fun _ _ _ _ hs hstep => inv_step hs hstep
  exact run_history hpres (fun _ => agrees_newConnection) hrun

end Histories

section Counters

variable {P : Parsers}
variable {conf : Config}
variable {η : Type}
variable {peer : Nat → MailVisitors.Peer}
variable {handler : η → Posted → η × Bool}
variable {s s' : State η}
variable {ls : List Label}
variable {l : Label}

/-- The step ends with a reply that is counted. -/
def begins
    (P : Parsers)
    (conf : Config) : Label → Bool
  | .rcpt _ addresses => (parseRecipient P conf addresses).toOption.isNone
  | .data _ _ => true
  | _ => false

def isCount : Label → Bool
  | .countRefused _ | .countSent _ => true
  | _ => false

/-- How many steps of the connection are of this kind. -/
def tally
    (p : Label → Bool)
    (conn : Nat)
    (ls : List Label) : Nat :=
  ls.countP fun l => p l && l.conn == conn

theorem tally_concat
    (p : Label → Bool)
    (conn : Nat)
    (ls : List Label)
    (l : Label) :
    tally p conn (ls ++ [l]) = tally p conn ls + if p l && l.conn == conn then 1 else 0 := by
  rw [tally, List.countP_append, List.countP_singleton, tally]

/-- What is begun is counted, or about to be. -/
def Counted
    (P : Parsers)
    (conf : Config)
    (ls : List Label)
    (s : State η) : Prop :=
  s.success + s.failure = ls.countP isCount ∧
    ∀ conn, tally (begins P conf) conn ls =
      tally isCount conn ls + if (s.connections conn).pending.isSome then 1 else 0

/-- The one thing that a step does to the counters and to what is about to be counted. -/
theorem step_counts
    (h : step P conf peer handler s l = some s') :
    s'.success + s'.failure = s.success + s.failure + (if isCount l then 1 else 0) ∧
      (if begins P conf l then 1 else 0) +
          (if (s.connections l.conn).pending.isSome then 1 else 0) =
        (if isCount l then 1 else 0) +
          (if (s'.connections l.conn).pending.isSome then 1 else 0) := by
  cases l with
  | authPlain conn username password =>
      simp only [step] at h
      split at h <;> cases h
      exact ⟨rfl, by rw [Label.conn, connections_set]; rfl⟩
  | mail conn =>
      simp only [step] at h
      split at h <;> cases h
      exact ⟨rfl, by rw [Label.conn, connections_set]; rfl⟩
  | rcpt conn addresses =>
      simp only [step] at h
      split at h
      · cases h
      · next hidle =>
          rw [not_or, not_not] at hidle
          split at h
          · next herror =>
              cases h
              refine ⟨rfl, ?_⟩
              rw [Label.conn, connections_set, hidle.1]
              simp [begins, herror, Except.toOption, isCount]
          · next hok =>
              cases h
              refine ⟨rfl, ?_⟩
              rw [Label.conn, connections_set]
              simp [begins, hok, Except.toOption, isCount]
  | data conn raw =>
      simp only [step] at h
      split at h
      · cases h
      · next hidle =>
          rw [not_or, not_not] at hidle
          split at h
          · cases h
            refine ⟨rfl, ?_⟩
            rw [Label.conn, connections_set, hidle.1]
            rfl
          · cases h
            refine ⟨rfl, ?_⟩
            have hself := connections_set s conn
            rw [Label.conn, hidle.1]
            exact (hself _).symm ▸ rfl
  | reset conn =>
      simp only [step] at h
      split at h <;> cases h
      exact ⟨rfl, by rw [Label.conn, connections_set]; rfl⟩
  | logout conn =>
      simp only [step] at h
      split at h <;> cases h
      exact ⟨rfl, by rw [Label.conn, connections_set]; rfl⟩
  | countRefused conn =>
      simp only [step] at h
      split at h
      · next hpending =>
          cases h
          refine ⟨(Nat.add_assoc _ _ _).symm, ?_⟩
          rw [Label.conn, hpending]
          exact (connections_set s conn _).symm ▸ rfl
      · cases h
  | countSent conn =>
      simp only [step] at h
      split at h
      · next ok hpending =>
          cases h
          constructor
          · cases ok
            · exact (Nat.add_assoc _ _ _).symm
            · exact Nat.add_right_comm _ _ _
          · rw [Label.conn, hpending]
            exact (connections_set s conn _).symm ▸ rfl
      · cases h

/-- Every mail and every recipient that is refused is counted once. -/
theorem counts_eq
    {server : η}
    (hrun : run (step P conf peer handler) (initial server) ls = some s) :
    Counted P conf ls s := by
  have hpres : ∀ (ls : List Label) (s : State η) (l : Label) (s' : State η),
      Counted P conf ls s → step P conf peer handler s l = some s' →
        Counted P conf (ls ++ [l]) s' := by
    intro ls s l s' hs hstep
    obtain ⟨hcounters, hpending⟩ := step_counts hstep
    constructor
    · rw [hcounters, hs.1, List.countP_append, List.countP_singleton]
    · intro conn
      rw [tally_concat, tally_concat, hs.2 conn]
      by_cases hconn : l.conn = conn
      · rw [← hconn]
        simp only [beq_self_eq_true, Bool.and_true]
        omega
      · rw [step_frame hstep hconn]
        simp [hconn]
  have hinitial : Counted P conf [] (initial server) :=
    ⟨rfl, fun _ => rfl⟩
  exact run_history hpres hinitial hrun

end Counters

section Recipients

variable {P : Parsers}
variable {conf : Config}

/-- A topic that is accepted is a valid name. -/
theorem allowedTopic_of_parseRecipient
    {addresses topic token : List Char}
    (h : parseRecipient P conf addresses = .ok (topic, token)) :
    allowedTopic (String.ofList topic) = true := by
  simp only [parseRecipient] at h
  split at h
  · cases h
  · split at h
    · cases h
    · split at h
      · cases h
      · split at h
        · cases h
        · next htopic =>
            rw [Except.ok.injEq] at h
            rw [h] at htopic
            simpa using htopic
  · cases h

/-- The value of the header that a mail's request gets. -/
def authorization
    (token : List Char)
    (login : Option (List UInt8 × List UInt8)) : List UInt8 :=
  if token ≠ [] then
    bearerAuth (encode token)
  else
    match login with
    | some (username, password) => basicAuth username password
    | none => []

theorem encode_eq_nil_iff
    (s : List Char) :
    encode s = [] ↔ s = [] := by
  constructor
  · intro h
    cases s with
    | nil =>
        rfl
    | cons c s =>
        have hlength := congrArg List.length h
        have hpos := c.utf8Size_pos
        rw [encode_cons, List.length_append, String.length_utf8EncodeChar, List.length_nil]
          at hlength
        omega
  · rintro rfl
    rfl

theorem canonical_authorization :
    canonicalMIMEHeaderKey "Authorization".toList = "Authorization".toList := by
  decide

/-- The credentials of a session in a request that has none. -/
theorem get_withCredentials
    {r : Request} {title : List UInt8}
    (hr : r.header "Authorization".toList = [])
    (token : List Char)
    (login : Option (List UInt8 × List UInt8)) :
    (MailVisitors.withCredentials ⟨title, encode token, loginText login⟩ r).get
        "Authorization".toList = authorization token login := by
  have hadd : ∀ value,
      (MailVisitors.add r "Authorization".toList value).get "Authorization".toList = value := by
    intro value
    unfold MailVisitors.add Request.withLines Request.get
    dsimp only
    rw [if_pos rfl, canonical_authorization, hr]
    rfl
  unfold MailVisitors.withCredentials authorization
  dsimp only
  by_cases htoken : token = []
  · have hnil : encode token = [] := (encode_eq_nil_iff token).mpr htoken
    rw [if_neg (not_not.mpr hnil), if_neg (not_not.mpr htoken)]
    cases login with
    | none =>
        rw [if_neg (by simp [loginText]), Request.get, canonical_authorization, hr]
        rfl
    | some login =>
        obtain ⟨username, password⟩ := login
        have hne : loginText (some (username, password)) ≠ [] :=
          encodeToString_ne_nil stdEncoding true (by simp)
        rw [if_pos hne, hadd]
        rfl
  · rw [if_pos (mt (encode_eq_nil_iff token).mp htoken), if_pos htoken, hadd]
    rfl

/-- The request that `publishMessage` makes up has the credentials of the session. -/
theorem get_authorization
    {cfg : MailVisitors.Config} {remote : List Char} {title : List UInt8}
    (hforwarded : canonicalMIMEHeaderKey cfg.proxyForwardedHeader ≠ "Authorization".toList)
    (token : List Char)
    (login : Option (List UInt8 × List UInt8)) :
    (MailVisitors.publishMessage cfg remote ⟨title, encode token, loginText login⟩).get
        "Authorization".toList = authorization token login := by
  have htitle : canonicalMIMEHeaderKey "Title".toList ≠ "Authorization".toList := by
    decide
  have hset : ∀ (r : Request) name value, canonicalMIMEHeaderKey name ≠ "Authorization".toList →
      r.header "Authorization".toList = [] →
        (MailVisitors.set r name value).header "Authorization".toList = [] := by
    intro r name value hother hr
    unfold MailVisitors.set Request.withLines
    exact (if_neg (Ne.symm hother)).trans hr
  -- neither the forwarded header nor the title is the one of the credentials
  have hempty : ∀ (m : MailVisitors.Mail) (r : Request), r.header "Authorization".toList = [] →
      (MailVisitors.withTitle m r).header "Authorization".toList = [] := by
    intro m r hr
    unfold MailVisitors.withTitle
    split
    · exact hset _ _ _ htitle hr
    · exact hr
  exact get_withCredentials (hempty _ _ (hset ⟨fun _ => [], _⟩ _ _ hforwarded rfl)) token login

/-- Credentials without parameters are what the header says. -/
theorem asked_congr
    {r r' : Request}
    (h : r.get "Authorization".toList = r'.get "Authorization".toList) :
    asked r [] = asked r' [] := by
  have hquery : readQueryParam [] ["authorization", "auth"] = [] := by
    rfl
  unfold asked
  rw [readAuthHeader_header hquery, readAuthHeader_header hquery, h]

variable {η : Type}
variable {peer : Nat → MailVisitors.Peer}
variable {handler : η → Posted → η × Bool}
variable {s s' : State η}

theorem recipients_of_data
    {conn : Nat} {raw : List UInt8}
    (h : step P conf peer handler s (.data conn raw) = some s') :
    (s.connections conn).recipients ≠ 0 := by
  simp only [step] at h
  split at h
  · cases h
  · next hready =>
      simp only [not_or] at hready
      exact hready.2.2

/--
In every run over any connections, a mail is published to the topic of the recipient that
its own connection has named last, and not forgotten since.  The handler is asked for the
user as by a request with the token of that recipient, or else with the last login of the
connection.
-/
theorem mail_to_recipient
    (P : Parsers)
    (conf : Config)
    {η : Type}
    (peer : Nat → MailVisitors.Peer)
    (handler : η → Posted → η × Bool)
    {server : η} {s s' : State η} {ls : List Label} {conn : Nat} {raw : List UInt8}
    (hforwarded : canonicalMIMEHeaderKey conf.proxy.proxyForwardedHeader ≠
      "Authorization".toList)
    (hrun : run (step P conf peer handler) (initial server) ls = some s)
    (hdata : step P conf peer handler s (.data conn raw) = some s') :
    ∃ before addresses topic token after,
      ls = before ++ .rcpt conn addresses :: after ∧
      parseRecipient P conf addresses = .ok (topic, token) ∧
      (∀ l ∈ after, recipientWrite P conf conn l = none) ∧
      allowedTopic (String.ofList topic) = true ∧
      ∀ posted, (s.connections conn).session.data P conf (peer conn) raw = some posted →
        posted.url = conf.baseURL ++ "/" ++ String.ofList topic ∧
        ∀ r : Request,
          r.get "Authorization".toList = authorization token (lastLogin conn ls) →
            asked posted.request [] = asked r [] := by
  have hagrees := agrees_of_run hrun conn
  obtain ⟨before, l, after, hsplit, hwrite, hafter⟩ :=
    lastWritten_eq_some_iff.mp (hagrees.recipient (recipients_of_data hdata))
  -- the step that names a recipient is a command of this connection
  obtain ⟨addresses, rfl, hparsed⟩ : ∃ addresses, l = .rcpt conn addresses ∧
      parseRecipient P conf addresses =
        .ok ((s.connections conn).session.topic, (s.connections conn).session.token) := by
    cases l with
    | rcpt other addresses =>
        rw [recipientWrite] at hwrite
        split at hwrite
        · next hother =>
            cases hparse : parseRecipient P conf addresses with
            | error e =>
                rw [hparse] at hwrite
                cases hwrite
            | ok recipient =>
                rw [hparse] at hwrite
                cases hwrite
                exact ⟨addresses, by rw [hother], hparse⟩
        · cases hwrite
    | reset other =>
        rw [recipientWrite] at hwrite
        split at hwrite <;> cases hwrite
    | countSent other =>
        rw [recipientWrite] at hwrite
        split at hwrite <;> cases hwrite
    | authPlain | mail | data | logout | countRefused =>
        cases hwrite
  refine ⟨before, addresses, _, _, after, hsplit, hparsed, hafter,
    allowedTopic_of_parseRecipient hparsed, ?_⟩
  intro posted hposted
  rw [Session.data, Option.bind_eq_bind, Option.bind_eq_some_iff] at hposted
  obtain ⟨⟨title, message⟩, -, hposted⟩ := hposted
  dsimp only at hposted
  split at hposted
  · cases hposted
    refine ⟨rfl, fun r hr => asked_congr ?_⟩
    dsimp only
    rw [hagrees.login, get_authorization hforwarded, hr]
  · cases hposted

/-- A mail with a text only. -/
def plainParsers : Parsers where
  bodies := MailBodies.noDecoder
  parseAddressList := fun addresses => some [addresses]
  readMessage := fun raw => some ⟨.leaf ⟨none, "", raw⟩, ""⟩
  decodeHeader := some
  parseURL := fun _ => true

def ntfyConfig : Config where
  baseURL := "https://ntfy.sh"
  smtpServerDomain := "ntfy.sh".toList
  smtpServerAddrPrefix := "ntfy-".toList
  messageSizeLimit := 4096
  proxy := ⟨false, "X-Forwarded-For".toList, []⟩

/-- Another connection names another recipient in between. -/
def twoConnections : List Label :=
  [.mail 0, .rcpt 0 "ntfy-alerts+tk_abc@ntfy.sh".toList, .mail 1,
    .rcpt 1 "ntfy-news@ntfy.sh".toList]

def localPeer : Nat → MailVisitors.Peer :=
  fun _ => .v4 0 0

def countingHandler : Nat → Posted → Nat × Bool :=
  fun n _ => (n + 1, true)

theorem mail_to_recipient_alerts :
    ∃ posted, (Session.mk "alerts".toList "tk_abc".toList []).data plainParsers
        ntfyConfig (.v4 0 0) (bytesOf "Hi") = some posted ∧
      posted.url = "https://ntfy.sh/alerts" ∧
        asked posted.request [] = .ok (some (some (.token (bytesOf "tk_abc")))) := by
  obtain ⟨before, addresses, topic, token, after, hsplit, hparsed, -, -, hposted⟩ :=
    mail_to_recipient plainParsers ntfyConfig localPeer countingHandler (by decide)
      (show run (step plainParsers ntfyConfig localPeer countingHandler) (initial 0)
        twoConnections = some _ from rfl)
      (show step plainParsers ntfyConfig localPeer countingHandler _ (.data 0 (bytesOf "Hi")) =
        some _ from rfl)
  have hmem : Label.rcpt 0 addresses ∈ twoConnections := by
    rw [hsplit]
    exact List.mem_append_right _ List.mem_cons_self
  have haddresses : addresses = "ntfy-alerts+tk_abc@ntfy.sh".toList := by
    simpa [twoConnections] using hmem
  rw [haddresses] at hparsed
  have hrecipient : (topic, token) = ("alerts".toList, "tk_abc".toList) := by
    have hread : parseRecipient plainParsers ntfyConfig "ntfy-alerts+tk_abc@ntfy.sh".toList =
        .ok ("alerts".toList, "tk_abc".toList) := by
      decide
    rw [hread, Except.ok.injEq] at hparsed
    exact hparsed.symm
  rw [Prod.mk.injEq] at hrecipient
  obtain ⟨rfl, rfl⟩ := hrecipient
  obtain ⟨posted, h⟩ : ∃ posted, (Session.mk "alerts".toList "tk_abc".toList []).data
      plainParsers ntfyConfig (.v4 0 0) (bytesOf "Hi") = some posted :=
    ⟨_, rfl⟩
  obtain ⟨hurl, hasked⟩ := hposted posted h
  refine ⟨posted, h, hurl, ?_⟩
  -- a request with the token of the recipient in its header
  rw [hasked ⟨fun _ => [bytesOf "Bearer tk_abc"], []⟩ (by decide)]
  decide +kernel

/-- A mail on one connection, and on another a recipient that is refused. -/
def oneSentOneRefused : List Label :=
  [.mail 0, .rcpt 0 "ntfy-alerts@ntfy.sh".toList, .data 0 (bytesOf "Hi"), .mail 1,
    .rcpt 1 "news@example.com".toList, .countRefused 1, .countSent 0]

theorem counts_eq_oneSentOneRefused :
    ∃ s, run (step plainParsers ntfyConfig localPeer countingHandler) (initial 0)
        oneSentOneRefused = some s ∧
      s.success = 1 ∧ s.failure = 1 ∧
      Counted plainParsers ntfyConfig oneSentOneRefused s := by
  obtain ⟨s, hrun, hsuccess⟩ : ∃ s, run (step plainParsers ntfyConfig localPeer countingHandler)
      (initial 0) oneSentOneRefused = some s ∧ s.success = 1 :=
    ⟨_, rfl, rfl⟩
  have hcounted := counts_eq hrun
  have htotal : oneSentOneRefused.countP isCount = 2 := by
    decide
  refine ⟨s, hrun, hsuccess, ?_, hcounted⟩
  have hsum := hcounted.1
  omega

end Recipients

end MailSessions
end Server
end CoopMessenger
