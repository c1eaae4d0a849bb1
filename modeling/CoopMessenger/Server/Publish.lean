import CoopMessenger.Manager.Authorize
import CoopMessenger.Server.Errors
import CoopMessenger.Server.MessageCache
import CoopMessenger.Util.Text

/-!
# Publishing a message

`handlePublish` of `server/server.go`: the parameters of the request, the limits,
the preview of the message replied to, and the body, which becomes the message
text or an attachment.  What other packages parse is a parameter.  What visitors,
clocks and random sources answer to one request is collected in a record.

**Results.**
* `handlePublishBody_preview`: the body is handled alike whatever the preview.
* `handlePublishBody_mono`: a body that is accepted is accepted if less of the
  attachment quota is used.
* `handlePublishBody_anti`: what is refused stays refused if more of it is used.
-/

namespace CoopMessenger
namespace Server

open Library Manager Util

namespace Publish

section Requests

/-- The texts of a template file. -/
structure TemplateFile where
  title : Option String
  message : Option String
  priority : Option String
deriving DecidableEq, Repr

/--
What other packages compute: MIME words, paths of URLs, times, actions, MIME
types with their extensions, and templates.
-/
structure Parsers where
  decodeHeader : String → Option String
  urlPath : String → Option String
  parseFutureTime : String → Nat → Option Int
  parseActions : String → Except String (List Action)
  mimetype : List UInt8 → String × String
  templateFile : String → Except ErrHTTP TemplateFile
  renderTemplate : String → List UInt8 → Except ErrHTTP String

/-- The settings that a publish reads. -/
structure Config where
  defaultAccess : Permission
  messageSizeLimit : Nat
  messageDelayMin : Nat
  messageDelayMax : Nat
  baseURL : String
  attachmentCacheDir : String
  smtpSender : Bool
  twilioAccount : String
  visitorSubscriberRateLimiting : Bool

/-- A request, with its headers and query parameters by name. -/
structure Request where
  method : String
  path : String
  header : String → String
  query : String → String
  body : List UInt8

/-- `visitorLimits` -/
structure Limits where
  messageExpiryDuration : Nat
  attachmentTotalSizeLimit : Nat
  attachmentFileSizeLimit : Nat
  attachmentExpiryDuration : Nat

/--
What the publisher, the rate visitor, the file cache, the clock and the random
source answer to the request.  Without a file cache, `fileCacheRemaining` is `none`.
-/
structure Visit where
  user : Option User
  ip : Visitors.Addr
  phoneNumbers : List String
  limits : Limits
  exempt : Bool
  hasRateVisitor : Bool
  messageAllowed : Bool
  emailAllowed : Bool
  callAllowed : Bool
  bandwidthAllowed : Nat → Bool
  fileCacheRemaining : Option Nat
  now : Nat
  messageID : String
  pollRequestID : String

end Requests

section Parameters

variable (P : Parsers)
variable (req : Request)

/-- `^u=\d,\s*(i|\d)$|^u=\d$` -/
def isPriorityHeader : List Char → Bool
  | ['u', '=', d] => d.isDigit
  | 'u' :: '=' :: d :: ',' :: rest =>
      d.isDigit &&
        match rest.dropWhile (fun c => c ∈ ['\t', '\n', '\x0c', '\r', ' ']) with
        | [c] => c == 'i' || c.isDigit
        | _ => false
  | _ => false

/-- Ignores the `Priority` header that proxies add. -/
def maybeIgnoreSpecialHeader
    (name value : String) : String :=
  if lower name = "priority" ∧ isPriorityHeader (trim value).toList then
    ""
  else
    value

def maybeDecodeHeader
    (name value : String) : String :=
  maybeIgnoreSpecialHeader name ((P.decodeHeader value).getD value)

def readHeaderParam
    (names : List String) : String :=
  ((names.map
      (fun name => trim (maybeDecodeHeader P name (req.header name)))).find?
    (fun value => decide (value ≠ ""))).getD ""

def readQueryParam
    (names : List String) : String :=
  (((names.map (fun name => req.query (lower name))).find?
    (fun value => decide (value ≠ ""))).map trim).getD ""

/-- The first value among the headers, or else among the query parameters. -/
def readParam
    (names : List String) : String :=
  let value := readHeaderParam P req names
  if value ≠ "" then value else readQueryParam req names

def toBool (value : String) : Bool :=
  value ∈ ["1", "yes", "true"]

def isBoolValue (value : String) : Bool :=
  value ∈ ["1", "yes", "true", "0", "no", "false"]

def readBoolParam
    (defaultValue : Bool)
    (names : List String) : Bool :=
  let value := lower (readParam P req names)
  if value = "" then defaultValue else toBool value

def readCommaSeparatedParam
    (names : List String) : List String :=
  (splitNoEmpty (readParam P req names) ',').map trim

/-- `templateMode`: empty, a boolean value for inline templates, or a file name. -/
def templateEnabled (template : String) : Bool :=
  decide (template ≠ "")

def templateInlineMode (template : String) : Bool :=
  templateEnabled template && isBoolValue template

def templateFileMode (template : String) : Bool :=
  templateEnabled template && !isBoolValue template

/-- `^https?://` -/
def isURL (s : String) : Bool :=
  "http://".toList.isPrefixOf s.toList || "https://".toList.isPrefixOf s.toList

/-- `^\+\d{1,100}$` -/
def isPhoneNumber (s : String) : Bool :=
  match s.toList with
  | '+' :: digits =>
      digits.length ≥ 1 && digits.length ≤ 100 && digits.all Char.isDigit
  | _ => false

def parsePriority (priority : String) : Option Nat :=
  match trim (lower priority) with
  | "" => some 0
  | "1" | "min" => some 1
  | "2" | "low" => some 2
  | "3" | "default" => some 3
  | "4" | "high" => some 4
  | "5" | "max" | "urgent" => some 5
  | _ => none

/-- What the parameters say besides the message itself. -/
structure Params where
  cache : Bool
  firebase : Bool
  email : String
  call : String
  template : String
  unifiedpush : Bool
  priorityStr : String
deriving DecidableEq, Repr

/-- The sequence ID from the path, from a parameter, or the message's own ID. -/
def parseSequenceID
    (m : Message) : Except ErrHTTP Message :=
  match req.path.toList.splitOn '/' with
  | [[], topic, sequenceID] =>
      if req.method ≠ "GET" ∧ allowedTopic (String.ofList topic) = true ∧
          allowedTopic (String.ofList sequenceID) = true then
        .ok { m with sequenceID := String.ofList sequenceID }
      else
        fromParam
  | _ => fromParam
where
  fromParam : Except ErrHTTP Message :=
    let sequenceID := readParam P req ["x-sequence-id", "sequence-id", "sid"]
    if sequenceID = "" then
      .ok { m with sequenceID := m.id }
    else if allowedTopic sequenceID then
      .ok { m with sequenceID }
    else
      .error errHTTPBadRequestSequenceIDInvalid

/-- The name of an external attachment that comes without one. -/
def attachmentName (url : String) : String :=
  let name :=
    match P.urlPath url with
    | some path =>
        if pathBase path = "." ∨ pathBase path = "/" then "" else pathBase path
    | none => ""
  if name = "" then "attachment" else name

def parseAttachment
    (m : Message) : Except ErrHTTP Message :=
  let filename := readParam P req ["x-filename", "filename", "file", "f"]
  let attach := readParam P req ["x-attach", "attach", "a"]
  if attach ≠ "" then
    if isURL attach then
      let name := if filename ≠ "" then filename else attachmentName P attach
      .ok { m with attachment := some ⟨name, "", 0, 0, attach⟩ }
    else
      .error errHTTPBadRequestAttachmentURLInvalid
  else if filename ≠ "" then
    .ok { m with attachment := some ⟨filename, "", 0, 0, ""⟩ }
  else
    .ok m

/-- The time of a delayed message. -/
def parseDelay
    (cfg : Config)
    (now : Nat)
    (cache : Bool)
    (email call : String)
    (m : Message) : Except ErrHTTP Message :=
  let delayStr := readParam P req ["x-delay", "delay", "x-at", "at", "x-in", "in"]
  if delayStr = "" then
    .ok m
  else if !cache then
    .error errHTTPBadRequestDelayNoCache
  else if email ≠ "" then
    .error errHTTPBadRequestDelayNoEmail
  else if call ≠ "" then
    .error errHTTPBadRequestDelayNoCall
  else
    match P.parseFutureTime delayStr now with
    | none => .error errHTTPBadRequestDelayCannotParse
    | some delay =>
        if delay < now + cfg.messageDelayMin then
          .error errHTTPBadRequestDelayTooSmall
        else if now + cfg.messageDelayMax < delay then
          .error errHTTPBadRequestDelayTooLarge
        else
          .ok { m with time := delay.toNat }

def parseIcon
    (m : Message) : Except ErrHTTP Message :=
  let icon := readParam P req ["x-icon", "icon"]
  if icon = "" then
    .ok m
  else if isURL icon then
    .ok { m with icon }
  else
    .error errHTTPBadRequestIconURLInvalid

def parseEmail
    (cfg : Config) : Except ErrHTTP String :=
  let email :=
    readParam P req ["x-email", "x-e-mail", "email", "e-mail", "mail", "e"]
  if !cfg.smtpSender && decide (email ≠ "") then
    .error errHTTPBadRequestEmailDisabled
  else
    .ok email

def parseCall
    (cfg : Config) : Except ErrHTTP String :=
  let call := readParam P req ["x-call", "call"]
  if call ≠ "" ∧ cfg.twilioAccount = "" then
    .error errHTTPBadRequestPhoneCallsDisabled
  else if call ≠ "" ∧ !isBoolValue call ∧ !isPhoneNumber call then
    .error errHTTPBadRequestPhoneNumberInvalid
  else
    .ok call

/-- The message text, with literal newlines but in inline templates. -/
def parseMessageParam
    (template : String)
    (m : Message) : Message :=
  let messageStr := readParam P req ["x-message", "message", "m"]
  let messageStr :=
    if templateInlineMode template then
      messageStr
    else
      String.ofList (unescapeNewlines messageStr.toList)
  if messageStr ≠ "" then { m with message := messageStr } else m

/-- The priority, which is parsed later if there is a template. -/
def parsePriorityParam
    (template : String)
    (m : Message) : Except ErrHTTP (Message × String) :=
  let priorityStr := readParam P req ["x-priority", "priority", "prio", "p"]
  if templateEnabled template then
    .ok (m, priorityStr)
  else
    match parsePriority priorityStr with
    | some priority => .ok ({ m with priority }, "")
    | none => .error errHTTPBadRequestPriorityInvalid

def parseActionsParam
    (m : Message) : Except ErrHTTP Message :=
  let actionsStr := readParam P req ["x-actions", "actions", "action"]
  if actionsStr = "" then
    .ok m
  else
    match P.parseActions actionsStr with
    | .ok actions => .ok { m with actions }
    | .error e => .error (errHTTPBadRequestActionsInvalid.wrap e)

def parseContentType (m : Message) : Message :=
  let contentType := readParam P req ["content-type", "content_type"]
  let markdown := readBoolParam P req false ["x-markdown", "markdown", "md"]
  if markdown ∨ lower contentType = "text/markdown" then
    { m with contentType := "text/markdown" }
  else
    m

/-- A poll request is neither cached nor sent by email. -/
def parsePollID
    (p : Params)
    (m : Message) : Message × Params :=
  let pollID := readParam P req ["x-poll-id", "poll-id"]
  if pollID ≠ "" then
    ({ m with pollID },
      { p with cache := false, email := "", unifiedpush := false })
  else
    ({ m with pollID }, p)

/-- Reads the parameters of the request into the message. -/
def parsePublishParams
    (cfg : Config)
    (now : Nat)
    (m : Message) : Except ErrHTTP (Message × Params) := do
  let m ← parseSequenceID P req m
  let cache := readBoolParam P req true ["x-cache", "cache"]
  let firebase := readBoolParam P req true ["x-firebase", "firebase"]
  let m ← parseAttachment P req
    { m with
      title := readParam P req ["x-title", "title", "t"]
      click := readParam P req ["x-click", "click"] }
  let m ← parseIcon P req m
  let email ← parseEmail P req cfg
  let call ← parseCall P req cfg
  let template := readParam P req ["x-template", "template", "tpl"]
  let (m, priorityStr) ←
    parsePriorityParam P req template (parseMessageParam P req template m)
  let m ← parseDelay P req cfg now cache email call
    { m with
      tags := readCommaSeparatedParam P req ["x-tags", "tags", "tag", "ta"]
      replyTo := readParam P req ["x-reply-to", "reply-to"] }
  let m ← parseActionsParam P req m
  let unifiedpush :=
    readBoolParam P req false ["x-unifiedpush", "unifiedpush", "up"] ||
      decide (readParam P req ["content-encoding"] = "aes128gcm")
  .ok (parsePollID P req
    ⟨cache, firebase && !unifiedpush, email, call, template, unifiedpush,
      priorityStr⟩
    (parseContentType P req m))

end Parameters

section Allowances

variable (cfg : Config)
variable (v : Visit)

/-- The phone number to call, which must be a verified one of the user. -/
def convertPhoneNumber
    (u : Option User)
    (phoneNumbers : List String)
    (phoneNumber : String) : Except ErrHTTP String :=
  match u, phoneNumbers with
  | none, _ => .error errHTTPBadRequestAnonymousCallsNotAllowed
  | some _, [] => .error errHTTPBadRequestPhoneNumberNotVerified
  | some _, first :: _ =>
      if toBool phoneNumber then
        .ok first
      else if phoneNumber ∈ phoneNumbers then
        .ok phoneNumber
      else
        .error errHTTPBadRequestPhoneNumberNotVerified

/-- The limits that a publish is subject to; the result is the number to call. -/
def checkLimits
    (p : Params) : Except ErrHTTP String :=
  if p.unifiedpush ∧ cfg.visitorSubscriberRateLimiting ∧ !v.hasRateVisitor then
    .error errHTTPInsufficientStorageUnifiedPush
  else if !v.exempt ∧ !v.messageAllowed then
    .error errHTTPTooManyRequestsLimitMessages
  else if p.email ≠ "" ∧ !v.emailAllowed then
    .error errHTTPTooManyRequestsLimitEmails
  else if p.call ≠ "" then
    match convertPhoneNumber v.user v.phoneNumbers p.call with
    | .error e => .error e
    | .ok call =>
        if v.callAllowed then
          .ok call
        else
          .error errHTTPTooManyRequestsLimitCalls
  else
    .ok ""

end Allowances

section Body

variable (P : Parsers)
variable (cfg : Config)
variable (v : Visit)
variable (req : Request)

/-- `jsonBodyBytesLimit` -/
def jsonBodyBytesLimit : Nat := 131072

/-- `defaultAttachmentMessage` -/
def defaultAttachmentMessage (name : String) : String :=
  "You received a file: " ++ name

/-- The bytes of the body up to the message size limit. -/
def peekedBytes : List UInt8 :=
  req.body.take cfg.messageSizeLimit

def handleBodyAsMessageAutoDetect
    (m : Message) : Message :=
  match decodeUTF8 (peekedBytes cfg req) with
  | some text => { m with message := text }
  | none =>
      { m with
        message := String.ofList (base64 (peekedBytes cfg req))
        encoding := "base64" }

/-- A message that consists of a named attachment says so. -/
def withDefaultMessage (m : Message) : Message :=
  match m.attachment with
  | some a =>
      if a.name ≠ "" ∧ m.message = "" then
        { m with message := defaultAttachmentMessage a.name }
      else m
  | none => m

def handleBodyAsTextMessage
    (m : Message) : Except ErrHTTP Message :=
  match decodeUTF8 (peekedBytes cfg req) with
  | none => .error errHTTPBadRequestMessageNotUTF8
  | some text =>
      -- an empty body does not override the message
      if (peekedBytes cfg req).isEmpty then
        .ok (withDefaultMessage m)
      else
        .ok (withDefaultMessage { m with message := trim text })

/-- Render a text, if there is one. -/
def renderOptional
    (source : List UInt8)
    (old : String) :
    Option String → Except ErrHTTP String
  | none => .ok old
  | some tpl => P.renderTemplate tpl source

/-- Render the priority and parse it. -/
def renderPriority
    (source : List UInt8)
    (old : Nat) :
    Option String → Except ErrHTTP Nat
  | none => .ok old
  | some tpl =>
      match P.renderTemplate tpl source with
      | .error e => .error e
      | .ok rendered =>
          match parsePriority rendered with
          | some priority => .ok priority
          | none => .error errHTTPBadRequestPriorityInvalid

/-- `^[-_A-Za-z0-9]+$` -/
def allowedTemplateName (name : String) : Bool :=
  !name.toList.isEmpty && name.toList.all topicChar

def renderTemplateFromFile
    (name : String)
    (source : List UInt8)
    (m : Message) : Except ErrHTTP Message := do
  if !allowedTemplateName name then
    .error errHTTPBadRequestTemplateFileNotFound
  let tpl ← P.templateFile name
  let message ← renderOptional P source m.message tpl.message
  let title ← renderOptional P source m.title tpl.title
  let priority ← renderPriority P source m.priority tpl.priority
  .ok { m with message, title, priority }

def renderTemplateFromParams
    (source : List UInt8)
    (priorityStr : String)
    (m : Message) : Except ErrHTTP Message := do
  let message ← P.renderTemplate m.message source
  let title ← P.renderTemplate m.title source
  let priority ← renderPriority P source m.priority
    (if priorityStr = "" then none else some priorityStr)
  .ok { m with message, title, priority }

def renderTemplates
    (template priorityStr : String)
    (source : List UInt8)
    (m : Message) : Except ErrHTTP Message :=
  if templateFileMode template then
    renderTemplateFromFile P template source m
  else
    renderTemplateFromParams P source priorityStr m

def handleBodyAsTemplatedTextMessage
    (template priorityStr : String)
    (m : Message) : Except ErrHTTP Message := do
  let limit := max cfg.messageSizeLimit jsonBodyBytesLimit
  if limit ≤ req.body.length then
    .error errHTTPEntityTooLargeJSONBody
  let m ← renderTemplates P template priorityStr (req.body.take limit) m
  if cfg.messageSizeLimit < m.title.utf8ByteSize ∨
      cfg.messageSizeLimit < m.message.utf8ByteSize then
    .error errHTTPBadRequestTemplateMessageTooLarge
  .ok m

/-- The MIME type and the extension. -/
def detectContentType
    (bytes : List UInt8)
    (filename : String) : String × String :=
  if ".apk".toList.isSuffixOf (lower filename).toList then
    ("application/vnd.android.package-archive", ".apk")
  else
    let (mimeType, ext) := P.mimetype bytes
    (mimeType, if ext = "" then ".bin" else ext)

/-- Does the announced size respect what remains of the quota, and the file limit? -/
def announcedSizeFits
    (remaining : Nat) : Bool :=
  (parseInt (req.header "Content-Length")).all (fun contentLength : Int =>
    decide (contentLength ≤ remaining) &&
      decide (contentLength ≤ v.limits.attachmentFileSizeLimit))

/-- Can the body be written?  Nothing is written of an empty one. -/
def bodyFits
    (remaining : Nat) : Bool :=
  req.body.isEmpty ||
    (v.bandwidthAllowed req.body.length &&
      decide (req.body.length ≤ v.limits.attachmentFileSizeLimit) &&
      decide (req.body.length ≤ remaining) &&
      v.fileCacheRemaining.all (fun rest => decide (req.body.length ≤ rest)))

/--
Why the body cannot be stored as a file, if it cannot; `bytesUsed` is what the
files of the visitor take up.
-/
def attachmentRefusal
    (bytesUsed : Nat)
    (m : Message) : Option ErrHTTP :=
  let remaining := v.limits.attachmentTotalSizeLimit - bytesUsed
  if v.fileCacheRemaining.isNone ∨ cfg.baseURL = "" ∨
      cfg.attachmentCacheDir = "" then
    some errHTTPBadRequestAttachmentsDisallowed
  else if v.now + v.limits.attachmentExpiryDuration < m.time then
    some errHTTPBadRequestAttachmentsExpiryBeforeDelivery
  else if announcedSizeFits v req remaining && bodyFits v req remaining then
    none
  else
    some errHTTPEntityTooLargeAttachment

/-- The message with the body as its attachment. -/
def withAttachment (m : Message) : Message :=
  let given := (m.attachment.map Attachment.name).getD ""
  let type := (detectContentType P (peekedBytes cfg req) given).1
  let ext := (detectContentType P (peekedBytes cfg req) given).2
  let name := if given = "" then "attachment" ++ ext else given
  { m with
    message :=
      if m.message = "" then defaultAttachmentMessage name else m.message
    attachment :=
      some
        ⟨name, type, req.body.length, v.now + v.limits.attachmentExpiryDuration,
          cfg.baseURL ++ "/file/" ++ m.id ++ ext⟩ }

def handleBodyAsAttachment
    (bytesUsed : Nat)
    (m : Message) : Except ErrHTTP Message :=
  match attachmentRefusal cfg v req bytesUsed m with
  | some e => .error e
  | none => .ok (withAttachment P cfg v req m)

/-- Decides whether the body is an attachment or the message. -/
def handlePublishBody
    (p : Params)
    (bytesUsed : Nat)
    (m : Message) : Except ErrHTTP Message :=
  if m.event = .pollRequest then
    .ok m
  else if p.unifiedpush then
    .ok (handleBodyAsMessageAutoDetect cfg req m)
  else if (m.attachment.any (fun a => decide (a.url ≠ ""))) then
    handleBodyAsTextMessage cfg req m
  else if (m.attachment.any (fun a => decide (a.name ≠ ""))) then
    handleBodyAsAttachment P cfg v req bytesUsed m
  else if templateEnabled p.template then
    handleBodyAsTemplatedTextMessage P cfg req p.template p.priorityStr m
  else if req.body.length < cfg.messageSizeLimit ∧
      (decodeUTF8 (peekedBytes cfg req)).isSome then
    handleBodyAsTextMessage cfg req m
  else
    handleBodyAsAttachment P cfg v req bytesUsed m

end Body

section Handler

variable (P : Parsers)
variable (cfg : Config)
variable (v : Visit)
variable (req : Request)

def emptyMessageBody : String := "triggered"

/-- The first bytes of the message that is replied to. -/
def replyPreview
    (c : MessageCache)
    (replyTo : String) : List UInt8 :=
  if replyTo = "" then
    []
  else
    match c.message? replyTo with
    | some orig => (bytesOf orig.message).take 100
    | none => []

/-- How much of the attachment quota the visitor uses. -/
def attachmentBytesUsed
    (c : MessageCache) : Nat :=
  match v.user with
  | some u => c.attachmentBytesUsedByUser v.now u.id
  | none => c.attachmentBytesUsedBySender v.now v.ip

/-- The message as it is before the body is read, but for the preview. -/
def draft
    (topic : String) : Except ErrHTTP (Message × Params) := do
  let (m, p) ← parsePublishParams P req cfg v.now
    (newDefaultMessage v.messageID v.now topic "")
  let _ ← checkLimits cfg v p
  let m :=
    if m.pollID ≠ "" then
      newPollRequestMessage v.pollRequestID v.now topic m.pollID
    else m
  let m :=
    { m with
      sender := v.ip
      user := maybeUserID v.user
      senderName := (v.user.map User.name).getD "" }
  .ok
    (if p.cache then
      { m with expires := m.time + v.limits.messageExpiryDuration }
    else m, p)

/-- Every published message has a text. -/
def fillEmptyMessage (m : Message) : Message :=
  if m.message = "" then { m with message := emptyMessageBody } else m

def handlePublishInternal
    (c : MessageCache)
    (topic : String) : Except ErrHTTP (Message × MessageCache) := do
  let (m, p) ← draft P cfg v req topic
  let m := m.withPreview (replyPreview c m.replyTo)
  let m ← handlePublishBody P cfg v req p (attachmentBytesUsed v c) m
  let m := fillEmptyMessage m
  if p.cache then
    match (c.deleteScheduledBySequenceID topic m.sequenceID).addMessages
        v.now [m] with
    | .ok c => .ok (m, c)
    | .error _ => .error errHTTPInternalError
  else
    .ok (m, c)

/-- The message in a response. -/
def forJSON (m : Message) : Message :=
  if m.sequenceID = m.id then { m with sequenceID := "" } else m

/-- The response, the message that subscribers get, and the new cache. -/
structure Published where
  response : Message
  message : Message
  cache : MessageCache

/-- `authorizeTopicWrite` and `handlePublish` -/
def handlePublish
    (db : Database)
    (c : MessageCache)
    (topic : String) : Except ErrHTTP Published :=
  match authorize db cfg.defaultAccess v.user topic .write with
  | .error _ => .error errHTTPForbidden
  | .ok () =>
      match handlePublishInternal P cfg v req c topic with
      | .error e => .error e
      | .ok (m, c) => .ok ⟨forJSON m, m, c⟩

end Handler

section ParameterLemmas

variable {P : Parsers}
variable {cfg : Config}
variable {v : Visit}
variable {req : Request}
variable {p : Params}
variable {m m' : Message}

theorem parseSequenceID_event
    (h : parseSequenceID P req m = .ok m') :
    m'.event = m.event := by
  simp only [parseSequenceID, parseSequenceID.fromParam] at h
  repeat' split at h
  all_goals cases h
  all_goals rfl

theorem parseAttachment_event
    (h : parseAttachment P req m = .ok m') :
    m'.event = m.event := by
  simp only [parseAttachment] at h
  repeat' split at h
  all_goals cases h
  all_goals rfl

theorem parseIcon_eq
    (h : parseIcon P req m = .ok m') :
    ∃ icon, m' = { m with icon } ∧
      (readParam P req ["x-icon", "icon"] = "" → icon = m.icon) ∧
      (readParam P req ["x-icon", "icon"] ≠ "" →
        icon = readParam P req ["x-icon", "icon"]) := by
  simp only [parseIcon] at h
  split at h
  · next hempty =>
      cases h
      exact ⟨m.icon, rfl, fun _ => rfl, fun h => absurd hempty h⟩
  · next hgiven =>
      split at h <;> cases h
      exact ⟨_, rfl, fun h => absurd h hgiven, fun _ => rfl⟩

theorem parseMessageParam_eq
    (P : Parsers)
    (req : Request)
    (template : String)
    (m : Message) :
    ∃ message, parseMessageParam P req template m = { m with message } := by
  unfold parseMessageParam
  extract_lets messageStr text
  by_cases hempty : text ≠ ""
  · exact ⟨text, if_pos hempty⟩
  · exact ⟨m.message, if_neg hempty⟩

theorem parsePriorityParam_eq
    {template priorityStr : String}
    (h : parsePriorityParam P req template m = .ok (m', priorityStr)) :
    ∃ priority, m' = { m with priority } ∧ (template = "" →
      parsePriority (readParam P req ["x-priority", "priority", "prio", "p"]) =
        some priority) := by
  simp only [parsePriorityParam] at h
  split at h
  · next htemplate =>
      cases h
      refine ⟨m.priority, rfl, ?_⟩
      rintro rfl
      cases htemplate
  · split at h
    · next priority hpriority =>
        cases h
        exact ⟨priority, rfl, fun _ => hpriority⟩
    · cases h

theorem parseDelay_eq
    {now : Nat} {cache : Bool} {email call : String}
    (h : parseDelay P req cfg now cache email call m = .ok m') :
    ∃ time, m' = { m with time } := by
  simp only [parseDelay] at h
  repeat' split at h
  all_goals cases h
  · exact ⟨m.time, rfl⟩
  · exact ⟨_, rfl⟩

theorem parseActionsParam_eq
    (h : parseActionsParam P req m = .ok m') :
    ∃ actions, m' = { m with actions } ∧
      (readParam P req ["x-actions", "actions", "action"] = "" →
        actions = m.actions) ∧
      (readParam P req ["x-actions", "actions", "action"] ≠ "" →
        P.parseActions (readParam P req ["x-actions", "actions", "action"]) =
          .ok actions) := by
  simp only [parseActionsParam] at h
  split at h
  · next hempty =>
      cases h
      exact ⟨m.actions, rfl, fun _ => rfl, fun h => absurd hempty h⟩
  · next hgiven =>
      split at h
      · next actions hactions =>
          cases h
          exact ⟨actions, rfl, fun h => absurd h hgiven, fun _ => hactions⟩
      · cases h

theorem parseContentType_eq
    (P : Parsers)
    (req : Request)
    (m : Message) :
    ∃ contentType, parseContentType P req m = { m with contentType } := by
  simp only [parseContentType]
  split
  · exact ⟨_, rfl⟩
  · exact ⟨m.contentType, rfl⟩

theorem parsePollID_eq
    (p : Params)
    (m : Message) :
    (parsePollID P req p m).1 =
      { m with pollID := readParam P req ["x-poll-id", "poll-id"] } := by
  simp only [parsePollID]
  split <;> rfl

theorem parsePollID_spec
    {p₀ : Params} {m₀ : Message}
    (h : parsePollID P req p₀ m₀ = (m', p)) :
    m'.event = m₀.event ∧ (p.cache = true → m'.pollID = "") := by
  simp only [parsePollID] at h
  split at h
  case isTrue =>
    cases h
    exact ⟨rfl, by simp⟩
  case isFalse hpoll =>
    cases h
    exact ⟨rfl, fun _ => by simpa using hpoll⟩

/-- The modes that the parameters ask for, before poll requests are told apart. -/
theorem parsePublishParams_eq
    {now : Nat}
    (h : parsePublishParams P req cfg now m = .ok (m', p)) :
    ∃ firebase email call priorityStr m₀, m₀.event = m.event ∧
      parsePollID P req
        ⟨readBoolParam P req true ["x-cache", "cache"], firebase, email, call,
          readParam P req ["x-template", "template", "tpl"],
          readBoolParam P req false ["x-unifiedpush", "unifiedpush", "up"] ||
            decide (readParam P req ["content-encoding"] = "aes128gcm"), priorityStr⟩
        m₀ = (m', p) := by
  unfold parsePublishParams at h
  extract_lets cache firebase template unifiedpush at h
  obtain ⟨m₁, h₁, h⟩ := exists_of_bind_eq_ok h
  obtain ⟨m₂, h₂, h⟩ := exists_of_bind_eq_ok h
  obtain ⟨m₃, h₃, h⟩ := exists_of_bind_eq_ok h
  obtain ⟨email, -, h⟩ := exists_of_bind_eq_ok h
  obtain ⟨call, -, h⟩ := exists_of_bind_eq_ok h
  obtain ⟨⟨m₄, priorityStr⟩, h₄, h⟩ := exists_of_bind_eq_ok h
  obtain ⟨m₅, h₅, h⟩ := exists_of_bind_eq_ok h
  obtain ⟨m₆, h₆, h⟩ := exists_of_bind_eq_ok h
  have hparsed := Except.ok.inj h
  have hsequence := parseSequenceID_event h₁
  have hattachment := parseAttachment_event h₂
  dsimp only at hattachment
  obtain ⟨icon, hm₃, -⟩ := parseIcon_eq h₃
  subst hm₃
  obtain ⟨message, hmessage⟩ := parseMessageParam_eq P req template _
  rw [hmessage] at h₄
  obtain ⟨priority, hm₄, -⟩ := parsePriorityParam_eq h₄
  dsimp only at hm₄
  subst hm₄
  obtain ⟨time, hm₅⟩ := parseDelay_eq h₅
  dsimp only at hm₅
  subst hm₅
  obtain ⟨actions, hm₆, -⟩ := parseActionsParam_eq h₆
  obtain ⟨contentType, hm₇⟩ := parseContentType_eq P req m₆
  refine ⟨firebase && !unifiedpush, email, call, priorityStr,
    parseContentType P req m₆, ?_, hparsed⟩
  rw [hm₇, hm₆]
  exact hattachment.trans hsequence

/-- The parameters leave the event as it is, and no poll request is cached. -/
theorem parsePublishParams_spec
    {now : Nat}
    (h : parsePublishParams P req cfg now m = .ok (m', p)) :
    m'.event = m.event ∧ (p.cache = true → m'.pollID = "") := by
  obtain ⟨firebase, email, call, priorityStr, m₀, hevent, hparsed⟩ :=
    parsePublishParams_eq h
  have hpoll := parsePollID_spec hparsed
  exact ⟨hpoll.1.trans hevent, hpoll.2⟩

/-- A message that is cached is of a kind that is stored. -/
theorem draft_storable
    {topic : String}
    (h : draft P cfg v req topic = .ok (m, p))
    (hcache : p.cache = true) :
    m.event.storable = true := by
  unfold draft at h
  obtain ⟨⟨m₀, p₀⟩, hparams, h⟩ := exists_of_bind_eq_ok h
  obtain ⟨call, -, h⟩ := exists_of_bind_eq_ok h
  have hspec := parsePublishParams_spec hparams
  simp only [Except.ok.injEq, Prod.mk.injEq] at h
  obtain ⟨rfl, rfl⟩ := h
  simp [hcache, hspec.2 hcache, hspec.1, newDefaultMessage, newMessage,
    Event.storable]

end ParameterLemmas

section BodyLemmas

variable {P : Parsers}
variable {cfg : Config}
variable {v : Visit}
variable {req : Request}
variable {p : Params}
variable {m m' : Message}
variable {bytesUsed bytesUsed' : Nat}

theorem withDefaultMessage_preview
    (x : List UInt8) :
    withDefaultMessage (m.withPreview x) =
      (withDefaultMessage m).withPreview x := by
  unfold withDefaultMessage
  rw [Message.withPreview_attachment]
  cases m.attachment with
  | none =>
      rfl
  | some a =>
      by_cases hname : a.name ≠ "" ∧ m.message = ""
      · refine (if_pos hname).trans ?_
        simp [hname, Message.withPreview]
      · refine (if_neg hname).trans ?_
        simp only [if_neg hname]

theorem handleBodyAsTextMessage_preview
    (x : List UInt8) :
    handleBodyAsTextMessage cfg req (m.withPreview x) =
      (handleBodyAsTextMessage cfg req m).map (Message.withPreview x) := by
  unfold handleBodyAsTextMessage
  split
  · rfl
  · split
    · rw [withDefaultMessage_preview]
      rfl
    · next text _ _ =>
        have htext : withDefaultMessage
            (({ m with message := trim text } : Message).withPreview x) = _ :=
          withDefaultMessage_preview x
        exact congrArg Except.ok htext

theorem handleBodyAsAttachment_preview
    (x : List UInt8) :
    handleBodyAsAttachment P cfg v req bytesUsed (m.withPreview x) =
      (handleBodyAsAttachment P cfg v req bytesUsed m).map
        (Message.withPreview x) := by
  have hrefusal : attachmentRefusal cfg v req bytesUsed (m.withPreview x) =
      attachmentRefusal cfg v req bytesUsed m := by
    rfl
  rw [handleBodyAsAttachment, handleBodyAsAttachment, hrefusal]
  cases attachmentRefusal cfg v req bytesUsed m <;> rfl

theorem renderTemplateFromFile_preview
    (x : List UInt8)
    (name : String)
    (source : List UInt8) :
    renderTemplateFromFile P name source (m.withPreview x) =
      (renderTemplateFromFile P name source m).map (Message.withPreview x) := by
  simp only [renderTemplateFromFile, Message.withPreview]
  cases allowedTemplateName name with
  | false =>
      rfl
  | true =>
      cases P.templateFile name with
      | error e =>
          rfl
      | ok tpl =>
          cases hmessage : renderOptional P source m.message tpl.message with
          | error e =>
              simp [hmessage, Except.map, bind, Except.bind]
          | ok message =>
              cases htitle : renderOptional P source m.title tpl.title with
              | error e =>
                  simp [hmessage, htitle, Except.map, bind, Except.bind]
              | ok title =>
                  cases hpriority : renderPriority P source m.priority
                      tpl.priority with
                  | error e =>
                      simp [hmessage, htitle, hpriority, Except.map, bind,
                        Except.bind]
                  | ok priority =>
                      simp [hmessage, htitle, hpriority, Except.map, bind,
                        Except.bind, Message.withPreview]

theorem renderTemplateFromParams_preview
    (x : List UInt8)
    (source : List UInt8)
    (priorityStr : String) :
    renderTemplateFromParams P source priorityStr (m.withPreview x) =
      (renderTemplateFromParams P source priorityStr m).map
        (Message.withPreview x) := by
  simp only [renderTemplateFromParams, Message.withPreview]
  cases P.renderTemplate m.message source with
  | error e =>
      rfl
  | ok message =>
      cases P.renderTemplate m.title source with
      | error e =>
          rfl
      | ok title =>
          cases renderPriority P source m.priority
              (if priorityStr = "" then none else some priorityStr) <;> rfl

theorem renderTemplates_preview
    (x : List UInt8)
    (template priorityStr : String)
    (source : List UInt8) :
    renderTemplates P template priorityStr source (m.withPreview x) =
      (renderTemplates P template priorityStr source m).map
        (Message.withPreview x) := by
  unfold renderTemplates
  split
  · exact renderTemplateFromFile_preview x template source
  · exact renderTemplateFromParams_preview x source priorityStr

theorem handleBodyAsTemplatedTextMessage_preview
    (x : List UInt8)
    (template priorityStr : String) :
    handleBodyAsTemplatedTextMessage P cfg req template priorityStr
        (m.withPreview x) =
      (handleBodyAsTemplatedTextMessage P cfg req template priorityStr m).map
        (Message.withPreview x) := by
  simp only [handleBodyAsTemplatedTextMessage, renderTemplates_preview]
  split
  · rfl
  · cases renderTemplates P template priorityStr
        (req.body.take (max cfg.messageSizeLimit jsonBodyBytesLimit)) m with
    | error e =>
        rfl
    | ok rendered =>
        by_cases hlarge : cfg.messageSizeLimit < rendered.title.utf8ByteSize ∨
            cfg.messageSizeLimit < rendered.message.utf8ByteSize
        · simp [hlarge, Message.withPreview, Except.map, bind, Except.bind]
        · simp [hlarge, Message.withPreview, Except.map, bind, Except.bind]

/-- The preview plays no part when the body is handled. -/
theorem handlePublishBody_preview
    (x : List UInt8) :
    handlePublishBody P cfg v req p bytesUsed (m.withPreview x) =
      (handlePublishBody P cfg v req p bytesUsed m).map
        (Message.withPreview x) := by
  have hdetect : handleBodyAsMessageAutoDetect cfg req (m.withPreview x) =
      (handleBodyAsMessageAutoDetect cfg req m).withPreview x := by
    unfold handleBodyAsMessageAutoDetect
    split <;> rfl
  unfold handlePublishBody
  simp only [Message.withPreview_event, Message.withPreview_attachment, hdetect,
    handleBodyAsTextMessage_preview, handleBodyAsAttachment_preview,
    handleBodyAsTemplatedTextMessage_preview]
  repeat' split
  all_goals rfl

theorem withDefaultMessage_eq
    (m : Message) :
    ∃ message, withDefaultMessage m = { m with message } := by
  unfold withDefaultMessage
  split
  · split
    · exact ⟨_, rfl⟩
    · exact ⟨m.message, rfl⟩
  · exact ⟨m.message, rfl⟩

theorem handleBodyAsMessageAutoDetect_eq
    (cfg : Config)
    (req : Request)
    (m : Message) :
    ∃ message encoding,
      handleBodyAsMessageAutoDetect cfg req m = { m with message, encoding } := by
  unfold handleBodyAsMessageAutoDetect
  split
  · exact ⟨_, m.encoding, rfl⟩
  · exact ⟨_, _, rfl⟩

theorem handleBodyAsTextMessage_eq
    (h : handleBodyAsTextMessage cfg req m = .ok m') :
    ∃ message, m' = { m with message } := by
  unfold handleBodyAsTextMessage at h
  split at h
  · cases h
  · split at h
    · cases h
      exact withDefaultMessage_eq m
    · cases h
      obtain ⟨message, hmessage⟩ := withDefaultMessage_eq { m with message := trim _ }
      exact ⟨message, hmessage⟩

theorem renderTemplates_eq
    {template priorityStr : String} {source : List UInt8}
    (h : renderTemplates P template priorityStr source m = .ok m') :
    ∃ message title priority, m' = { m with message, title, priority } := by
  unfold renderTemplates at h
  split at h
  · unfold renderTemplateFromFile at h
    split at h
    · cases h
    · obtain ⟨tpl, -, h⟩ := exists_of_bind_eq_ok h
      obtain ⟨message, -, h⟩ := exists_of_bind_eq_ok h
      obtain ⟨title, -, h⟩ := exists_of_bind_eq_ok h
      obtain ⟨priority, -, h⟩ := exists_of_bind_eq_ok h
      cases h
      exact ⟨message, title, priority, rfl⟩
  · unfold renderTemplateFromParams at h
    obtain ⟨message, -, h⟩ := exists_of_bind_eq_ok h
    obtain ⟨title, -, h⟩ := exists_of_bind_eq_ok h
    obtain ⟨priority, -, h⟩ := exists_of_bind_eq_ok h
    cases h
    exact ⟨message, title, priority, rfl⟩

theorem handleBodyAsTemplatedTextMessage_eq
    {template priorityStr : String}
    (h : handleBodyAsTemplatedTextMessage P cfg req template priorityStr m =
      .ok m') :
    ∃ message title priority, m' = { m with message, title, priority } := by
  simp only [handleBodyAsTemplatedTextMessage] at h
  split at h
  · cases h
  · obtain ⟨rendered, hrendered, h⟩ := exists_of_bind_eq_ok h
    split at h
    · cases h
    · cases h
      exact renderTemplates_eq hrendered

/-- The attachment of a body has a name and a URL. -/
theorem handleBodyAsAttachment_eq
    (h : handleBodyAsAttachment P cfg v req bytesUsed m = .ok m') :
    ∃ message a, m' = { m with message, attachment := some a } ∧
      a.name ≠ "" ∧ a.url ≠ "" := by
  unfold handleBodyAsAttachment at h
  split at h
  · cases h
  · cases h
    refine ⟨_, _, rfl, ?_, ?_⟩
    · dsimp only
      split
      · simp [String.append_eq_empty_iff]
      · assumption
    · simp [String.append_eq_empty_iff]

/-- Handling the body changes at most what it says, and how. -/
theorem handlePublishBody_changes
    (h : handlePublishBody P cfg v req p bytesUsed m = .ok m') :
    ∃ message title priority encoding attachment,
      m' = { m with message, title, priority, encoding, attachment } := by
  unfold handlePublishBody at h
  split at h
  · cases h
    exact ⟨m.message, m.title, m.priority, m.encoding, m.attachment, rfl⟩
  · split at h
    · cases h
      obtain ⟨message, encoding, hm⟩ := handleBodyAsMessageAutoDetect_eq cfg req m
      exact ⟨message, m.title, m.priority, encoding, m.attachment, hm⟩
    · split at h
      · obtain ⟨message, hm⟩ := handleBodyAsTextMessage_eq h
        exact ⟨message, m.title, m.priority, m.encoding, m.attachment, hm⟩
      · split at h
        · obtain ⟨message, a, hm, -⟩ := handleBodyAsAttachment_eq h
          exact ⟨message, m.title, m.priority, m.encoding, some a, hm⟩
        · split at h
          · obtain ⟨message, title, priority, hm⟩ :=
              handleBodyAsTemplatedTextMessage_eq h
            exact ⟨message, title, priority, m.encoding, m.attachment, hm⟩
          · split at h
            · obtain ⟨message, hm⟩ := handleBodyAsTextMessage_eq h
              exact ⟨message, m.title, m.priority, m.encoding, m.attachment, hm⟩
            · obtain ⟨message, a, hm, -⟩ := handleBodyAsAttachment_eq h
              exact ⟨message, m.title, m.priority, m.encoding, some a, hm⟩

/-- The event stays as it is when the body is handled. -/
theorem handlePublishBody_event
    (h : handlePublishBody P cfg v req p bytesUsed m = .ok m') :
    m'.event = m.event := by
  obtain ⟨message, title, priority, encoding, attachment, rfl⟩ :=
    handlePublishBody_changes h
  rfl

/-- Only a body that is stored as a file is weighed against the quota. -/
theorem handlePublishBody_quota
    (p : Params)
    (m : Message) :
    (∀ n n', handlePublishBody P cfg v req p n m =
      handlePublishBody P cfg v req p n' m) ∨
    ∀ n, handlePublishBody P cfg v req p n m =
      handleBodyAsAttachment P cfg v req n m := by
  unfold handlePublishBody
  repeat' split
  all_goals first
    | exact Or.inl fun _ _ => rfl
    | exact Or.inr fun _ => rfl

/-- What fits into less fits into more. -/
theorem fits_mono
    {remaining remaining' : Nat}
    (hle : remaining ≤ remaining')
    (h : (announcedSizeFits v req remaining && bodyFits v req remaining) =
      true) :
    (announcedSizeFits v req remaining' && bodyFits v req remaining') = true := by
  simp only [announcedSizeFits, bodyFits, Bool.and_eq_true, Bool.or_eq_true,
    Option.all_eq_true, decide_eq_true_eq] at h ⊢
  obtain ⟨hannounced, hbody⟩ := h
  refine ⟨?_, ?_⟩
  · intro n hn
    obtain ⟨hquota, hfile⟩ := hannounced n hn
    exact ⟨by omega, hfile⟩
  · rcases hbody with hempty | ⟨⟨⟨hbandwidth, hfile⟩, hquota⟩, hcache⟩
    · exact Or.inl hempty
    · exact Or.inr ⟨⟨⟨hbandwidth, hfile⟩, hquota.trans hle⟩, hcache⟩

/-- More of the quota used refuses what less refuses. -/
theorem attachmentRefusal_anti
    {e : ErrHTTP}
    (hle : bytesUsed ≤ bytesUsed')
    (h : attachmentRefusal cfg v req bytesUsed m = some e) :
    attachmentRefusal cfg v req bytesUsed' m = some e := by
  have hremaining : v.limits.attachmentTotalSizeLimit - bytesUsed' ≤
      v.limits.attachmentTotalSizeLimit - bytesUsed := by
    omega
  simp only [attachmentRefusal] at h ⊢
  split at h
  case isTrue hdisallowed =>
    rw [if_pos hdisallowed]
    exact h
  case isFalse hdisallowed =>
    rw [if_neg hdisallowed]
    split at h
    case isTrue hexpiry =>
      rw [if_pos hexpiry]
      exact h
    case isFalse hexpiry =>
      rw [if_neg hexpiry]
      split at h
      case isTrue =>
        cases h
      case isFalse hfits =>
        rw [if_neg (mt (fits_mono hremaining) hfits)]
        exact h

/-- What is refused stays refused when more of the quota is used. -/
theorem handlePublishBody_anti
    {e : ErrHTTP}
    (hle : bytesUsed ≤ bytesUsed')
    (h : handlePublishBody P cfg v req p bytesUsed m = .error e) :
    handlePublishBody P cfg v req p bytesUsed' m = .error e := by
  rcases handlePublishBody_quota p m with hquota | hquota
  · rw [hquota bytesUsed' bytesUsed, h]
  · rw [hquota, handleBodyAsAttachment] at h ⊢
    cases hrefusal : attachmentRefusal cfg v req bytesUsed m with
    | none =>
        simp [hrefusal] at h
    | some e' =>
        rw [hrefusal] at h
        cases h
        rw [attachmentRefusal_anti hle hrefusal]

/-- What is accepted is accepted alike when less of the quota is used. -/
theorem handlePublishBody_mono
    (hle : bytesUsed ≤ bytesUsed')
    (h : handlePublishBody P cfg v req p bytesUsed' m = .ok m') :
    handlePublishBody P cfg v req p bytesUsed m = .ok m' := by
  rcases handlePublishBody_quota p m with hquota | hquota
  · rw [hquota bytesUsed bytesUsed', h]
  · rw [hquota, handleBodyAsAttachment] at h ⊢
    cases hrefusal : attachmentRefusal cfg v req bytesUsed m with
    | none =>
        cases hrefusal' : attachmentRefusal cfg v req bytesUsed' m with
        | none =>
            simpa [hrefusal'] using h
        | some e =>
            simp [hrefusal'] at h
    | some e =>
        rw [attachmentRefusal_anti hle hrefusal] at h
        cases h

/-- Once the quota is used up, using more of it makes no difference. -/
theorem handlePublishBody_exhausted
    (hle : v.limits.attachmentTotalSizeLimit ≤ bytesUsed) :
    handlePublishBody P cfg v req p bytesUsed m =
      handlePublishBody P cfg v req p v.limits.attachmentTotalSizeLimit m := by
  rcases handlePublishBody_quota p m with hquota | hquota
  · exact hquota _ _
  · have hremaining : v.limits.attachmentTotalSizeLimit - bytesUsed =
        v.limits.attachmentTotalSizeLimit - v.limits.attachmentTotalSizeLimit := by
      omega
    simp only [hquota, handleBodyAsAttachment, attachmentRefusal, hremaining]

end BodyLemmas

section HandlerLemmas

variable {P : Parsers}
variable {cfg : Config}
variable {v : Visit}
variable {req : Request}
variable {p : Params}
variable {m m' : Message}
variable {c : MessageCache}
variable {topic : String}

theorem fillEmptyMessage_event
    (m : Message) :
    (fillEmptyMessage m).event = m.event := by
  simp only [fillEmptyMessage, apply_ite Message.event, ite_self]

/-- A body that is refused fails the request. -/
theorem handlePublishInternal_of_refused
    {e : ErrHTTP}
    (hdraft : draft P cfg v req topic = .ok (m, p))
    (hbody : handlePublishBody P cfg v req p (attachmentBytesUsed v c) m =
      .error e) :
    handlePublishInternal P cfg v req c topic = .error e := by
  simp [handlePublishInternal, hdraft, handlePublishBody_preview, hbody,
    bind, Except.bind, Except.map]

/-- A body that is accepted is published, with the preview. -/
theorem handlePublishInternal_of_accepted
    (hdraft : draft P cfg v req topic = .ok (m, p))
    (hbody : handlePublishBody P cfg v req p (attachmentBytesUsed v c) m =
      .ok m') :
    (handlePublishInternal P cfg v req c topic).map Prod.fst =
      .ok (fillEmptyMessage (m'.withPreview (replyPreview c m.replyTo))) := by
  have hevent : (fillEmptyMessage (m'.withPreview
      (replyPreview c m.replyTo))).event = m.event := by
    rw [fillEmptyMessage_event, Message.withPreview_event]
    exact handlePublishBody_event hbody
  simp only [handlePublishInternal, hdraft, handlePublishBody_preview, hbody,
    bind, Except.bind, Except.map]
  cases hcache : p.cache with
  | true =>
      have hstorable := draft_storable hdraft hcache
      simp [MessageCache.addMessages, hevent, hstorable]
  | false =>
      rfl

end HandlerLemmas

end Publish

end Server
end CoopMessenger
