import CoopMessenger.Server.Parameters
import CoopMessenger.Util.Cuts
import CoopMessenger.Util.Peek
import CoopMessenger.Util.Trimming

/-!
# Bodies at the size limit

A body is peeked up to the message size limit, and the limit counts as reached by a body
that just fits.  A mail session cuts the text of a mail to the limit, so that what it
publishes reaches it too.

**Results.**
* `limitReached_iff`: when the peeked body reaches the limit.
* `peek_of_reader`: peeking takes the same of a body however it arrives.
* `handlePublishBody_plain`: when a body without a mode becomes a file.
* `publishedAsText_iff`: which bodies and mails are published as text.
* `isPlain_publishMessage`: a mail asks for no file, whatever its title.
-/

namespace CoopMessenger
namespace Server

open Library Manager Util

namespace MessageSizes

open Publish

section Peeking

/-- `PeekedReadCloser` -/
structure Peeked where
  peekedBytes : List UInt8
  limitReached : Bool
deriving DecidableEq, Repr

/-- `Peek`, of a body that can be read. -/
def peek
    (underlying : List UInt8)
    (limit : Nat) : Peeked :=
  let peeked := underlying.take limit
  ⟨peeked, decide (peeked.length = limit)⟩

theorem limitReached_iff
    (underlying : List UInt8)
    (limit : Nat) :
    (peek underlying limit).limitReached = true ↔ limit ≤ underlying.length := by
  simp only [peek, List.length_take, decide_eq_true_eq]
  omega

/-- What the body is depends on its bytes only, however they arrive. -/
theorem peek_of_reader
    {σ : Type}
    (R : Reader UInt8 σ)
    {s : σ}
    (hend : R.ending s = .eof)
    (limit : Nat) :
    ∃ r, peekFrom R s limit = .ok r ∧
      peek (R.rest s) limit = ⟨r.peekedBytes, r.limitReached⟩ := by
  obtain ⟨r, hpeek, -, -, hbytes, hreached⟩ := peekFrom_spec R hend limit
  refine ⟨r, hpeek, ?_⟩
  have hflag : (peek (R.rest s) limit).limitReached = r.limitReached :=
    Bool.eq_iff_iff.mpr ((limitReached_iff _ _).trans hreached.symm)
  rw [← hflag, hbytes, peek]

end Peeking

section Mails

variable (P : Parsers)
variable (cfg : Config)

/-- A mail: the text that `readMailBody` returns, and the header `Subject`. -/
structure Mail where
  text : String
  subject : String

/-- A message as the mail session fills it. -/
structure MailMessage where
  title : String
  message : List UInt8
deriving DecidableEq, Repr

/-- The trimmed text, cut to the message size limit. -/
def mailBody (mail : Mail) : List UInt8 :=
  let body := bytesOf (trim mail.text)
  if cfg.messageSizeLimit < body.length then
    body.take cfg.messageSizeLimit
  else
    body

/-- The decoded subject; a subject that cannot be decoded refuses the mail. -/
def mailTitle (mail : Mail) : Option String :=
  if trim mail.subject ≠ "" then
    P.decodeHeader (trim mail.subject)
  else
    some ""

/-- `Data`, from the text of the mail on; a title without a text is the text. -/
def newMailMessage (mail : Mail) : Option MailMessage :=
  (mailTitle P mail).map fun title =>
    if title ≠ "" ∧ mailBody cfg mail = [] then
      ⟨"", bytesOf title⟩
    else
      ⟨title, mailBody cfg mail⟩

/-- What the session adds to the request of a mail. -/
structure Session where
  topic : String
  authorization : String
  proxyForwardedHeader : String
  remoteAddr : String

/-- The request that `publishMessage` makes up. -/
def publishMessage
    (s : Session)
    (m : MailMessage) : Request where
  method := "POST"
  path := "/" ++ s.topic
  header := fun name =>
    if m.title ≠ "" ∧ lower name = "title" then
      m.title
    else if lower name = lower s.proxyForwardedHeader then
      s.remoteAddr
    else if lower name = "authorization" then
      s.authorization
    else
      ""
  query := fun _ => ""
  body := m.message

end Mails

section Statement

variable (P : Parsers)
variable (cfg : Config)
variable (v : Visit)
variable (req : Request)
variable (c : MessageCache)
variable (topic : String)

/--
A request for a message without filename, attachment, template or UnifiedPush; a request
with a poll ID is no message.
-/
structure IsPlain : Prop where
  filename : readParam P req ["x-filename", "filename", "file", "f"] = ""
  attach : readParam P req ["x-attach", "attach", "a"] = ""
  template : readParam P req ["x-template", "template", "tpl"] = ""
  unifiedpush : readBoolParam P req false ["x-unifiedpush", "unifiedpush", "up"] = false
  contentEncoding : readParam P req ["content-encoding"] ≠ "aes128gcm"
  pollID : readParam P req ["x-poll-id", "poll-id"] = ""

/-- The parameters and the limits let the request pass. -/
def IsAccepted : Prop :=
  ∃ m p, draft P cfg v req topic = .ok (m, p)

/-- The text of a message for this body; an empty body leaves the message parameter. -/
def messageText (param text : String) : String :=
  let message := if text = "" then param else trim text
  if message = "" then emptyMessageBody else message

/-- The body is the text of the message, and no file is attached. -/
structure CarriesText (param : String) (m : Message) : Prop where
  text : ∃ text, req.body = bytesOf text ∧ m.message = messageText param text
  noAttachment : m.attachment = none

/-- A plain request that is accepted is published with its body as the text. -/
def PublishedAsText : Prop :=
  IsPlain P req → ∀ m p, draft P cfg v req topic = .ok (m, p) →
    ∃ m', (handlePublishInternal P cfg v req c topic).map Prod.fst = .ok m' ∧
      CarriesText req m.message m'

end Statement

section Drafts

variable {P : Parsers}
variable {cfg : Config}
variable {v : Visit}
variable {req : Request}
variable {m : Message}
variable {p : Params}
variable {topic : String}

theorem parsePublishParams_modes
    {now : Nat} {m m' : Message}
    (h : parsePublishParams P req cfg now m = .ok (m', p)) :
    p.template = readParam P req ["x-template", "template", "tpl"] ∧
      (readBoolParam P req false ["x-unifiedpush", "unifiedpush", "up"] = false →
        readParam P req ["content-encoding"] ≠ "aes128gcm" → p.unifiedpush = false) := by
  obtain ⟨firebase, email, call, priorityStr, m₀, -, hparsed⟩ := parsePublishParams_eq h
  have hp := congrArg Prod.snd hparsed
  simp only [parsePollID] at hp
  split at hp
  · rw [← hp]
    dsimp only
    exact ⟨rfl, fun _ _ => rfl⟩
  · rw [← hp]
    dsimp only
    refine ⟨rfl, fun hparam hencoding => ?_⟩
    rw [hparam, decide_eq_false hencoding, Bool.or_false]

/-- A plain request is for a message, and its body has no mode of its own. -/
theorem draft_plain
    (hplain : IsPlain P req)
    (h : draft P cfg v req topic = .ok (m, p)) :
    m.event = .message ∧ m.attachment = none ∧ p.unifiedpush = false ∧
      templateEnabled p.template = false := by
  unfold draft at h
  obtain ⟨⟨m₀, p₀⟩, hparams, h⟩ := exists_of_bind_eq_ok h
  obtain ⟨call, -, h⟩ := exists_of_bind_eq_ok h
  have hfields := parsePublishParams_fields hparams
  have hmodes := parsePublishParams_modes hparams
  have hpoll : m₀.pollID = "" := hfields.pollID.trans hplain.pollID
  have hattachment : m₀.attachment = none := by
    rw [hfields.attachment]
    simp [attachmentParam, hplain.filename, hplain.attach, newDefaultMessage, newMessage]
  have htemplate : p₀.template = "" := hmodes.1.trans hplain.template
  simp only [Except.ok.injEq, Prod.mk.injEq] at h
  obtain ⟨rfl, rfl⟩ := h
  refine ⟨?_, ?_, hmodes.2 hplain.unifiedpush hplain.contentEncoding, ?_⟩
  · simp [hpoll, apply_ite Message.event, hfields.event, newDefaultMessage, newMessage]
  · simp [hpoll, apply_ite Message.attachment, hattachment]
  · simp [htemplate, templateEnabled]

end Drafts

section Bodies

variable {P : Parsers}
variable {cfg : Config}
variable {v : Visit}
variable {req : Request}
variable {m m' : Message}
variable {p : Params}
variable {c : MessageCache}
variable {topic text : String}

/-- A body without a mode is text unless it reaches the limit or is no text. -/
theorem handlePublishBody_plain
    (hplain : IsPlain P req)
    (h : draft P cfg v req topic = .ok (m, p))
    (bytesUsed : Nat) :
    handlePublishBody P cfg v req p bytesUsed m =
      if (peek req.body cfg.messageSizeLimit).limitReached = false ∧
          (decodeUTF8 (peek req.body cfg.messageSizeLimit).peekedBytes).isSome then
        handleBodyAsTextMessage cfg req m
      else
        handleBodyAsAttachment P cfg v req bytesUsed m := by
  obtain ⟨hevent, hattachment, hup, htemplate⟩ := draft_plain hplain h
  have hreached : (peek req.body cfg.messageSizeLimit).limitReached = false ↔
      req.body.length < cfg.messageSizeLimit := by
    rw [← Bool.not_eq_true, limitReached_iff, not_le]
  simp only [handlePublishBody, hevent, hattachment, hup, htemplate, hreached, Option.any_none,
    Bool.false_eq_true, if_false, reduceCtorEq]
  rfl

theorem withDefaultMessage_of_none
    (h : m.attachment = none) :
    withDefaultMessage m = m := by
  rw [withDefaultMessage, h]

theorem handleBodyAsTextMessage_text
    (hbody : req.body = bytesOf text)
    (hsize : req.body.length < cfg.messageSizeLimit)
    (hattachment : m.attachment = none) :
    handleBodyAsTextMessage cfg req m =
      .ok (if text = "" then m else { m with message := trim text }) := by
  have hpeeked : peekedBytes cfg req = bytesOf text := by
    rw [peekedBytes, List.take_of_length_le (Nat.le_of_lt hsize), hbody]
  rw [handleBodyAsTextMessage, hpeeked, decodeUTF8_bytesOf]
  by_cases hempty : text = ""
  · have hnil : (bytesOf text).isEmpty = true := by
      rw [(bytesOf_eq_nil_iff text).mpr hempty, List.isEmpty_nil]
    simp only [hnil, if_true, if_pos hempty]
    exact congrArg Except.ok (withDefaultMessage_of_none hattachment)
  · have hcons : (bytesOf text).isEmpty = false := by
      rw [List.isEmpty_eq_false_iff]
      exact mt (bytesOf_eq_nil_iff text).mp hempty
    simp only [hcons, if_neg hempty, Bool.false_eq_true, if_false]
    exact congrArg Except.ok (withDefaultMessage_of_none hattachment)

theorem handleBodyAsAttachment_attachment
    (h : handleBodyAsAttachment P cfg v req bytesUsed m = .ok m') :
    m'.attachment ≠ none := by
  unfold handleBodyAsAttachment at h
  split at h <;> cases h
  exact Option.some_ne_none _

theorem published_fields
    (x : List UInt8)
    (m : Message) :
    (fillEmptyMessage (m.withPreview x)).attachment = m.attachment ∧
      (fillEmptyMessage (m.withPreview x)).message =
        if m.message = "" then emptyMessageBody else m.message := by
  rw [fillEmptyMessage]
  by_cases hempty : m.message = ""
  · have hpreview : (m.withPreview x).message = "" := hempty
    rw [if_pos hpreview, if_pos hempty]
    exact ⟨rfl, rfl⟩
  · have hpreview : ¬(m.withPreview x).message = "" := hempty
    rw [if_neg hpreview, if_neg hempty]
    exact ⟨rfl, rfl⟩

/-- A body below the limit is the text of the message. -/
theorem handlePublishInternal_below
    (hplain : IsPlain P req)
    (hdraft : draft P cfg v req topic = .ok (m, p))
    (hbody : req.body = bytesOf text)
    (hsize : req.body.length < cfg.messageSizeLimit) :
    ∃ m', (handlePublishInternal P cfg v req c topic).map Prod.fst = .ok m' ∧
      CarriesText req m.message m' := by
  have hattachment := (draft_plain hplain hdraft).2.1
  have hreached : (peek req.body cfg.messageSizeLimit).limitReached = false := by
    rw [← Bool.not_eq_true, limitReached_iff]
    omega
  have hvalid : (decodeUTF8 (peek req.body cfg.messageSizeLimit).peekedBytes).isSome := by
    rw [peek, List.take_of_length_le (Nat.le_of_lt hsize), hbody, decodeUTF8_bytesOf]
    rfl
  have haccepted := (handlePublishBody_plain hplain hdraft
    (attachmentBytesUsed v c)).trans (if_pos ⟨hreached, hvalid⟩)
  rw [handleBodyAsTextMessage_text hbody hsize hattachment] at haccepted
  refine ⟨_, handlePublishInternal_of_accepted hdraft haccepted, ⟨text, hbody, ?_⟩, ?_⟩
  · rw [(published_fields _ _).2, messageText, apply_ite Message.message]
  · rw [(published_fields _ _).1, apply_ite Message.attachment, ite_self]
    exact hattachment

/-- A body that reaches the limit is no text. -/
theorem handlePublishInternal_reached
    (hplain : IsPlain P req)
    (hdraft : draft P cfg v req topic = .ok (m, p))
    (hsize : cfg.messageSizeLimit ≤ req.body.length)
    (h : (handlePublishInternal P cfg v req c topic).map Prod.fst = .ok m') :
    m'.attachment ≠ none := by
  have hreached : ¬((peek req.body cfg.messageSizeLimit).limitReached = false ∧
      (decodeUTF8 (peek req.body cfg.messageSizeLimit).peekedBytes).isSome) := by
    rw [(limitReached_iff _ _).mpr hsize]
    simp
  have hbody := handlePublishBody_plain hplain hdraft (attachmentBytesUsed v c)
  rw [if_neg hreached] at hbody
  cases hfile : handleBodyAsAttachment P cfg v req (attachmentBytesUsed v c) m with
  | error e =>
      rw [handlePublishInternal_of_refused hdraft (hbody.trans hfile)] at h
      cases h
  | ok m₁ =>
      rw [handlePublishInternal_of_accepted hdraft (hbody.trans hfile), Except.ok.injEq] at h
      rw [← h, (published_fields _ _).1]
      exact handleBodyAsAttachment_attachment hfile

theorem not_publishedAsText
    (hplain : IsPlain P req)
    (haccepted : IsAccepted P cfg v req topic)
    (hsize : cfg.messageSizeLimit ≤ req.body.length) :
    ¬PublishedAsText P cfg v req c topic := by
  obtain ⟨m, p, hdraft⟩ := haccepted
  intro h
  obtain ⟨m', hpublished, hcarries⟩ := h hplain m p hdraft
  exact handlePublishInternal_reached hplain hdraft hsize hpublished hcarries.noAttachment

/-- Whether a plain body that is accepted is published as text. -/
theorem publishedAsText_iff_below
    (hbody : req.body.length < cfg.messageSizeLimit → ∃ text, req.body = bytesOf text) :
    PublishedAsText P cfg v req c topic ↔
      (IsPlain P req → IsAccepted P cfg v req topic →
        req.body.length < cfg.messageSizeLimit) := by
  constructor
  · intro h hplain haccepted
    by_contra hsize
    exact not_publishedAsText hplain haccepted (not_lt.mp hsize) h
  · intro h hplain m p hdraft
    have hsize := h hplain ⟨m, p, hdraft⟩
    obtain ⟨text, htext⟩ := hbody hsize
    exact handlePublishInternal_below hplain hdraft htext hsize

end Bodies

section MailBodies

variable {P : Parsers}
variable {cfg : Config}
variable {mail : Mail}
variable {m : MailMessage}

theorem length_mailBody
    (cfg : Config)
    (mail : Mail) :
    (mailBody cfg mail).length =
      min (trim mail.text).utf8ByteSize cfg.messageSizeLimit := by
  simp only [mailBody, apply_ite List.length, List.length_take, length_bytesOf]
  split
  · exact min_comm _ _
  · next hfits =>
      exact (min_eq_left (not_lt.mp hfits)).symm

/-- The title stands in for a text that is missing. -/
theorem message_newMailMessage
    (h : newMailMessage P cfg mail = some m) :
    ∃ title, mailTitle P mail = some title ∧
      m.message = if mailBody cfg mail = [] then bytesOf title else mailBody cfg mail := by
  obtain ⟨title, htitle, rfl⟩ := Option.map_eq_some_iff.mp h
  refine ⟨title, htitle, ?_⟩
  by_cases hbody : mailBody cfg mail = []
  · by_cases hempty : title = ""
    · rw [if_neg (fun h => h.1 hempty), if_pos hbody, hbody]
      exact ((bytesOf_eq_nil_iff title).mpr hempty).symm
    · rw [if_pos ⟨hempty, hbody⟩, if_pos hbody]
  · rw [if_neg (fun h => hbody h.2), if_neg hbody]

theorem mailBody_eq_nil_iff
    (hlimit : 0 < cfg.messageSizeLimit) :
    mailBody cfg mail = [] ↔ trim mail.text = "" := by
  have hlength := length_mailBody cfg mail
  rw [← List.length_eq_zero_iff, hlength, ← bytesOf_eq_nil_iff, ← List.length_eq_zero_iff,
    length_bytesOf]
  omega

/-- A mail fits if its text is below the limit, and its title if that is the text. -/
def MailFits
    (P : Parsers)
    (cfg : Config)
    (mail : Mail) : Prop :=
  (trim mail.text).utf8ByteSize < cfg.messageSizeLimit ∧
    (trim mail.text = "" → ∀ title, mailTitle P mail = some title →
      title.utf8ByteSize < cfg.messageSizeLimit)

/-- What a mail comes to is below the limit only if the mail fits. -/
theorem length_message_lt_iff
    (h : newMailMessage P cfg mail = some m) :
    m.message.length < cfg.messageSizeLimit ↔ MailFits P cfg mail := by
  obtain ⟨title, htitle, hmessage⟩ := message_newMailMessage h
  have hlength := length_mailBody cfg mail
  rw [hmessage, MailFits]
  constructor
  · intro hsize
    have hlimit : 0 < cfg.messageSizeLimit := by omega
    split at hsize
    · next hnil =>
        have hempty := (mailBody_eq_nil_iff hlimit).mp hnil
        refine ⟨by rw [hempty]; exact hlimit, fun _ title' htitle' => ?_⟩
        rw [htitle, Option.some.injEq] at htitle'
        rwa [length_bytesOf, htitle'] at hsize
    · next hcons =>
        have htext := mt (mailBody_eq_nil_iff hlimit).mpr hcons
        exact ⟨by omega, fun hempty => absurd hempty htext⟩
  · rintro ⟨htext, hempty⟩
    have hlimit : 0 < cfg.messageSizeLimit := by omega
    split
    · next hnil =>
        rw [length_bytesOf]
        exact hempty ((mailBody_eq_nil_iff hlimit).mp hnil) title htitle
    · omega

/-- What a mail comes to is a text, unless it is cut. -/
theorem exists_text_of_fits
    (h : newMailMessage P cfg mail = some m)
    (hfits : MailFits P cfg mail) :
    ∃ text, m.message = bytesOf text := by
  obtain ⟨title, -, hmessage⟩ := message_newMailMessage h
  have hbody : mailBody cfg mail = bytesOf (trim mail.text) := by
    rw [mailBody]
    refine if_neg ?_
    rw [length_bytesOf]
    exact Nat.lt_asymm hfits.1
  rw [hmessage]
  split
  · exact ⟨title, rfl⟩
  · exact ⟨_, hbody⟩

/-- No header of a mail is a parameter unless the forwarded header is named like it. -/
theorem readParam_publishMessage
    {s : Session} {names : List String}
    (hdecode : P.decodeHeader "" = some "")
    (hnames : ∀ name ∈ names, lower name ≠ "title" ∧ lower name ≠ "authorization" ∧
      lower name ≠ lower s.proxyForwardedHeader) :
    readParam P (publishMessage s m) names = "" := by
  have hquery : readQueryParam (publishMessage s m) names = "" := by
    have hnone : (names.map (fun name => (publishMessage s m).query (lower name))).find?
        (fun value => decide (value ≠ "")) = none := by
      simp [publishMessage]
    rw [readQueryParam, hnone]
    rfl
  have hheader : readHeaderParam P (publishMessage s m) names = "" := by
    have hnone : (names.map (fun name => trim (maybeDecodeHeader P name
        ((publishMessage s m).header name)))).find? (fun value => decide (value ≠ "")) =
          none := by
      rw [List.find?_eq_none]
      intro value hvalue
      obtain ⟨name, hname, rfl⟩ := List.mem_map.mp hvalue
      obtain ⟨htitle, hauth, hforwarded⟩ := hnames name hname
      have hempty : (publishMessage s m).header name = "" := by
        simp [publishMessage, htitle, hauth, hforwarded]
      rw [hempty, maybeDecodeHeader, hdecode, Option.getD_some, maybeIgnoreSpecialHeader,
        ite_self]
      decide
    rw [readHeaderParam, hnone]
    rfl
  simp only [readParam, hheader, hquery, ite_self]

/-- The parameters that make a request other than plain. -/
def modeParams : List String :=
  ["x-filename", "filename", "file", "f", "x-attach", "attach", "a", "x-template", "template",
    "tpl", "x-unifiedpush", "unifiedpush", "up", "content-encoding", "x-poll-id", "poll-id"]

/-- A mail asks for no file, whatever its title is. -/
theorem isPlain_publishMessage
    {s : Session}
    (hdecode : P.decodeHeader "" = some "")
    (hforwarded : lower s.proxyForwardedHeader ∉ modeParams) :
    IsPlain P (publishMessage s m) := by
  have hempty : ∀ names : List String, names ⊆ modeParams →
      readParam P (publishMessage s m) names = "" := by
    intro names hsubset
    refine readParam_publishMessage hdecode fun name hname => ?_
    have hmode := hsubset hname
    have hlower : ∀ name ∈ modeParams, lower name = name ∧ name ≠ "title" ∧
        name ≠ "authorization" := by
      decide
    obtain ⟨heq, htitle, hauth⟩ := hlower name hmode
    rw [heq]
    exact ⟨htitle, hauth, fun h => hforwarded (h ▸ hmode)⟩
  constructor
  case unifiedpush =>
    rw [readBoolParam, hempty _ (by decide)]
    rfl
  case contentEncoding =>
    rw [hempty _ (by decide)]
    decide
  all_goals exact hempty _ (by decide)

end MailBodies

section Claim

/--
A body is published as text just if it is below the limit; a mail is, just if its trimmed
text is (and the title, if it is the text).
-/
theorem publishedAsText_iff
    (P : Parsers)
    (cfg : Config)
    (v : Visit)
    (c : MessageCache) :
    (∀ req topic text, req.body = bytesOf text →
      (PublishedAsText P cfg v req c topic ↔
        (IsPlain P req → IsAccepted P cfg v req topic →
          req.body.length < cfg.messageSizeLimit))) ∧
    ∀ s mail m, newMailMessage P cfg mail = some m →
      (PublishedAsText P cfg v (publishMessage s m) c s.topic ↔
        (IsPlain P (publishMessage s m) →
          IsAccepted P cfg v (publishMessage s m) s.topic → MailFits P cfg mail)) := by
  constructor
  · intro req topic text hbody
    exact publishedAsText_iff_below fun _ => ⟨text, hbody⟩
  · intro s mail m hmail
    rw [← length_message_lt_iff hmail]
    exact publishedAsText_iff_below fun hsize =>
      exists_text_of_fits hmail ((length_message_lt_iff hmail).mp hsize)

end Claim

section Example

def sizeParsers : Parsers where
  decodeHeader := some
  urlPath := fun _ => none
  parseFutureTime := fun _ _ => none
  parseActions := fun _ => .error "invalid"
  mimetype := fun _ => ("text/plain; charset=utf-8", ".txt")
  templateFile := fun _ => .error errHTTPBadRequestTemplateFileNotFound
  renderTemplate := fun tpl _ => .ok tpl

def sizeConfig : Config where
  defaultAccess := .readWrite
  messageSizeLimit := 4096
  messageDelayMin := 10
  messageDelayMax := 259200
  baseURL := "https://ntfy.sh"
  attachmentCacheDir := "/var/cache/ntfy"
  smtpSender := false
  twilioAccount := ""
  visitorSubscriberRateLimiting := false

def sizeVisit : Visit where
  user := none
  ip := .invalid
  phoneNumbers := []
  limits := ⟨43200, 104857600, 15728640, 10800⟩
  exempt := false
  hasRateVisitor := false
  messageAllowed := true
  emailAllowed := false
  callAllowed := false
  bandwidthAllowed := fun _ => true
  fileCacheRemaining := some 5368709120
  now := 1000
  messageID := "nnnnnnnnnnnn"
  pollRequestID := "pppppppppppp"

def sizeRequest (body : List UInt8) : Request where
  method := "POST"
  path := "/news"
  header := fun _ => ""
  query := fun _ => ""
  body

def sizeSession : Session where
  topic := "news"
  authorization := ""
  proxyForwardedHeader := "X-Forwarded-For"
  remoteAddr := "1.2.3.4"

/-- So many letters. -/
def letters (n : Nat) : String :=
  String.ofList (List.replicate n 'a')

theorem isAccepted_of_isOk
    {P : Parsers} {cfg : Config} {v : Visit} {req : Request} {topic : String}
    (h : (draft P cfg v req topic).isOk = true) :
    IsAccepted P cfg v req topic := by
  cases hdraft : draft P cfg v req topic with
  | error e =>
      rw [hdraft] at h
      cases h
  | ok d =>
      exact ⟨d.1, d.2, hdraft⟩

theorem bytesOf_letters
    (n : Nat) :
    bytesOf (letters n) = List.replicate n 97 := by
  rw [letters, bytesOf_ofList]
  induction n with
  | zero =>
      rfl
  | succ n ih =>
      rw [List.replicate_succ, List.flatMap_cons, ih]
      rfl

theorem trim_letters
    (n : Nat) :
    trim (letters n) = letters n := by
  have hletter : ∀ c ∈ List.replicate n 'a', isSpace c = false := by
    intro c hc
    rw [(List.mem_replicate.mp hc).2]
    decide
  rw [trim, letters, String.toList_ofList, trimSpace_eq_self]
  · exact fun c hc => hletter c (List.mem_of_head? hc)
  · exact fun c hc => hletter c (List.mem_of_getLast? hc)

/-- A request and a mail below the limit are published as text. -/
theorem short_texts_published :
    PublishedAsText sizeParsers sizeConfig sizeVisit (sizeRequest (bytesOf "hi")) .empty
        "news" ∧
      PublishedAsText sizeParsers sizeConfig sizeVisit
        (publishMessage sizeSession ⟨"", bytesOf "hi"⟩) .empty "news" := by
  have hclaim := publishedAsText_iff sizeParsers sizeConfig sizeVisit .empty
  have hmail : newMailMessage sizeParsers sizeConfig ⟨"hi\n", ""⟩ =
      some ⟨"", bytesOf "hi"⟩ := by
    decide +kernel
  constructor
  · exact (hclaim.1 (sizeRequest (bytesOf "hi")) "news" "hi" rfl).mpr fun _ _ => by
      decide +kernel
  · exact (hclaim.2 sizeSession ⟨"hi\n", ""⟩ _ hmail).mpr fun _ _ =>
      ⟨by decide +kernel, fun h => absurd h (by decide +kernel)⟩

/-- A body of just the limit is no text, and neither is what is left of a longer mail. -/
theorem full_texts_not_text :
    (bytesOf (letters 4096)).length = sizeConfig.messageSizeLimit ∧
      ¬PublishedAsText sizeParsers sizeConfig sizeVisit
        (sizeRequest (bytesOf (letters 4096))) .empty "news" ∧
      newMailMessage sizeParsers sizeConfig ⟨letters 5000, ""⟩ =
        some ⟨"", bytesOf (letters 4096)⟩ ∧
      ¬PublishedAsText sizeParsers sizeConfig sizeVisit
        (publishMessage sizeSession ⟨"", bytesOf (letters 4096)⟩) .empty "news" := by
  have hlength : (bytesOf (letters 4096)).length = sizeConfig.messageSizeLimit := by
    rw [bytesOf_letters, List.length_replicate]
    rfl
  have hcut : mailBody sizeConfig ⟨letters 5000, ""⟩ = bytesOf (letters 4096) := by
    have hlong : sizeConfig.messageSizeLimit < (List.replicate 5000 (97 : UInt8)).length := by
      rw [List.length_replicate]
      decide
    rw [mailBody, trim_letters, bytesOf_letters, if_pos hlong, List.take_replicate,
      bytesOf_letters]
    rfl
  have hplain : IsPlain sizeParsers (sizeRequest (bytesOf (letters 4096))) := by
    constructor <;> decide +kernel
  have hmail : IsPlain sizeParsers
      (publishMessage sizeSession ⟨"", bytesOf (letters 4096)⟩) :=
    isPlain_publishMessage rfl (by decide +kernel)
  have haccepted : IsAccepted sizeParsers sizeConfig sizeVisit
      (sizeRequest (bytesOf (letters 4096))) "news" :=
    isAccepted_of_isOk (by decide +kernel)
  have hmailAccepted : IsAccepted sizeParsers sizeConfig sizeVisit
      (publishMessage sizeSession ⟨"", bytesOf (letters 4096)⟩) "news" :=
    isAccepted_of_isOk (by decide +kernel)
  have hmessage : newMailMessage sizeParsers sizeConfig ⟨letters 5000, ""⟩ =
      some ⟨"", bytesOf (letters 4096)⟩ := by
    rw [newMailMessage, hcut]
    rfl
  generalize bytesOf (letters 4096) = body at *
  exact ⟨hlength, not_publishedAsText hplain haccepted hlength.ge, hmessage,
    not_publishedAsText hmail hmailAccepted hlength.ge⟩

end Example

end MessageSizes
end Server
end CoopMessenger
