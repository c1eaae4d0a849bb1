import CoopMessenger.Server.JsonPublish
import CoopMessenger.Server.MessageRows

/-!
# Stored copies and live copies

A message that a request publishes is sent to the subscribers and stored; clients
that were offline get what `readMessage` makes of the row.  Deletions, clearings and
nudges are stored as they are.  A published message is, unless its tags are one empty
tag, or it is a UnifiedPush message with the name of a file but no attachment.

**Results.**
* `handlePublishBody_eq`: what handling the body can do to a message.
* `sameJSON_iff_keeps`: when the stored copy has the JSON of the live one.
-/

namespace CoopMessenger
namespace Server

open Library Manager Util

namespace StoredCopies

open MessageRows Publish

section Handlers

/-- Is the message stored?  Not if a parameter says so, and no poll request is. -/
def isStored
    (P : Parsers)
    (req : Request) : Bool :=
  readBoolParam P req true ["x-cache", "cache"] &&
    decide (readParam P req ["x-poll-id", "poll-id"] = "")

def isUnifiedPush
    (P : Parsers)
    (req : Request) : Bool :=
  readBoolParam P req false ["x-unifiedpush", "unifiedpush", "up"] ||
    decide (readParam P req ["content-encoding"] = "aes128gcm")

/-- The third part of the path. -/
def sequenceIDFromPath (path : String) : Except ErrHTTP String :=
  match path.toList.splitOn '/' with
  | _ :: _ :: sequenceID :: _ => .ok (String.ofList sequenceID)
  | _ => .error errHTTPBadRequestSequenceIDInvalid

def newActionMessage
    (id : String)
    (now : Nat)
    (event : Event)
    (topic sequenceID : String) : Message :=
  { newMessage id now event topic "" with sequenceID }

/-- Builds the message of a deletion or a clearing. -/
def handleActionMessage
    (v : Visit)
    (path topic : String)
    (event : Event) : Except ErrHTTP Message :=
  if !v.exempt && !v.messageAllowed then
    .error errHTTPTooManyRequestsLimitMessages
  else
    (sequenceIDFromPath path).map fun sequenceID =>
      { newActionMessage v.messageID v.now event topic sequenceID with
        sender := v.ip
        user := maybeUserID v.user
        expires := v.now + v.limits.messageExpiryDuration }

/--
Builds the message of a nudge; `allowed` is what the rate limiter says, and
`topicError` what the lookup of the topic does.
-/
def handleNudge
    (db : Database)
    (cfg : Config)
    (v : Visit)
    (u : User)
    (topic : String)
    (allowed : Bool)
    (topicError : Option ErrHTTP) : Except ErrHTTP Message :=
  if topic = "" then
    .error (errHTTPBadRequest.wrap "topic required")
  else
    match authorize db cfg.defaultAccess (some u) topic .write with
    | .error _ => .error errHTTPForbidden
    | .ok () =>
        if !allowed then
          .error (errHTTPTooManyRequests.wrap
            "nudge rate limit exceeded (max 1 per 30s)")
        else
          match topicError with
          | some e => .error e
          | none =>
              .ok { newMessage v.messageID v.now .coopNudge topic "" with
                senderName := u.name
                sender := v.ip
                user := maybeUserID v.user
                expires := v.now + v.limits.messageExpiryDuration }

/-- The requests that send and store a message. -/
inductive Call where
  | publish (req : Request)
  | delete
  | clear
  | nudge

/-- A request builds a message that is sent to the subscribers and stored. -/
inductive Builds
    (P : Parsers)
    (cfg : Config) : Call → Message → Prop where
  | publish
      {v : Visit} {req : Request} {c c' : MessageCache} {topic : String} {m : Message}
      (hpublish : handlePublishInternal P cfg v req c topic = .ok (m, c'))
      (hstored : isStored P req = true) :
      Builds P cfg (.publish req) m
  | delete
      {v : Visit} {path topic : String} {m : Message}
      (h : handleActionMessage v path topic .messageDelete = .ok m) :
      Builds P cfg .delete m
  | clear
      {v : Visit} {path topic : String} {m : Message}
      (h : handleActionMessage v path topic .messageClear = .ok m) :
      Builds P cfg .clear m
  | nudge
      {db : Database} {v : Visit} {u : User} {topic : String} {allowed : Bool}
      {topicError : Option ErrHTTP} {m : Message}
      (h : handleNudge db cfg v u topic allowed topicError = .ok m) :
      Builds P cfg .nudge m

end Handlers

section Bodies

variable {P : Parsers}
variable {cfg : Config}
variable {v : Visit}
variable {req : Request}
variable {p : Params}
variable {m m' : Message}
variable {bytesUsed : Nat}

/-- What handling the body can do to a message that is not a poll request. -/
theorem handlePublishBody_eq
    (hevent : m.event ≠ .pollRequest)
    (h : handlePublishBody P cfg v req p bytesUsed m = .ok m') :
    ∃ message title priority encoding attachment,
      m' = { m with message, title, priority, encoding, attachment } ∧
        if p.unifiedpush then
          attachment = m.attachment
        else
          (attachment = m.attachment ∧ ∀ a ∈ m.attachment, a.url ≠ "" ∨ a.name = "") ∨
            ∃ a, attachment = some a ∧ Complete a := by
  unfold handlePublishBody at h
  rw [if_neg hevent] at h
  split at h
  · next hup =>
      obtain ⟨message, encoding, hm⟩ := handleBodyAsMessageAutoDetect_eq cfg req m
      cases h
      refine ⟨message, m.title, m.priority, encoding, m.attachment, hm, ?_⟩
      rw [if_pos hup]
  · next hup =>
      simp only [if_neg hup]
      split at h
      · next hurl =>
          obtain ⟨message, rfl⟩ := handleBodyAsTextMessage_eq h
          refine ⟨message, m.title, m.priority, m.encoding, m.attachment, rfl,
            Or.inl ⟨rfl, fun a ha => Or.inl ?_⟩⟩
          rw [Option.mem_def.mp ha] at hurl
          simpa using hurl
      · split at h
        · obtain ⟨message, a, rfl, ha⟩ := handleBodyAsAttachment_eq h
          exact ⟨message, m.title, m.priority, m.encoding, some a, rfl,
            Or.inr ⟨a, rfl, ha⟩⟩
        · next hname =>
            have hunnamed : ∀ a ∈ m.attachment, a.url ≠ "" ∨ a.name = "" := by
              intro a ha
              rw [Option.mem_def.mp ha] at hname
              exact Or.inr (by simpa using hname)
            split at h
            · obtain ⟨message, title, priority, rfl⟩ :=
                handleBodyAsTemplatedTextMessage_eq h
              exact ⟨message, title, priority, m.encoding, m.attachment, rfl,
                Or.inl ⟨rfl, hunnamed⟩⟩
            · split at h
              · obtain ⟨message, rfl⟩ := handleBodyAsTextMessage_eq h
                exact ⟨message, m.title, m.priority, m.encoding, m.attachment, rfl,
                  Or.inl ⟨rfl, hunnamed⟩⟩
              · obtain ⟨message, a, rfl, ha⟩ := handleBodyAsAttachment_eq h
                exact ⟨message, m.title, m.priority, m.encoding, some a, rfl,
                  Or.inr ⟨a, rfl, ha⟩⟩

end Bodies

section Params

variable {P : Parsers}
variable {cfg : Config}
variable {v : Visit}
variable {req : Request}
variable {p : Params}
variable {m m' : Message}
variable {topic : String}

/-- What the parameters say about storing and about UnifiedPush. -/
theorem parsePublishParams_params
    {now : Nat}
    (h : parsePublishParams P req cfg now m = .ok (m', p)) :
    p.cache = isStored P req ∧
      (isStored P req = true → p.unifiedpush = isUnifiedPush P req) := by
  obtain ⟨firebase, email, call, priorityStr, m₀, -, hparsed⟩ := parsePublishParams_eq h
  have hstores : (readBoolParam P req true ["x-cache", "cache"] &&
      decide (readParam P req ["x-poll-id", "poll-id"] = "")) = isStored P req := rfl
  have hp := congrArg Prod.snd hparsed
  simp only [parsePollID] at hp
  split at hp
  · next hpoll =>
      have hnot : isStored P req = false := by
        rw [← hstores, decide_eq_false hpoll, Bool.and_false]
      rw [← hp, hnot]
      dsimp only
      exact ⟨rfl, fun hstored => by cases hstored⟩
  · next hpoll =>
      rw [not_not] at hpoll
      rw [decide_eq_true hpoll, Bool.and_true] at hstores
      rw [← hp]
      dsimp only
      exact ⟨hstores, fun _ => rfl⟩

/-- The message before the body is read. -/
theorem draft_fields
    (hstored : isStored P req = true)
    (h : draft P cfg v req topic = .ok (m, p)) :
    p.unifiedpush = isUnifiedPush P req ∧ m.event = .message ∧ m.pollID = "" ∧
      m.tags = readCommaSeparatedParam P req ["x-tags", "tags", "tag", "ta"] ∧
      m.attachment = attachmentParam P req ∧
      (m.actions = [] ∨ ∃ text, P.parseActions text = .ok m.actions) := by
  unfold draft at h
  obtain ⟨⟨m₀, p₀⟩, hparams, h⟩ := exists_of_bind_eq_ok h
  obtain ⟨call, -, h⟩ := exists_of_bind_eq_ok h
  have hfields := parsePublishParams_fields hparams
  have hsettings := parsePublishParams_params hparams
  have hpoll : m₀.pollID = "" := by
    rw [hfields.pollID]
    simp only [isStored, Bool.and_eq_true, decide_eq_true_eq] at hstored
    exact hstored.2
  have hactions : m₀.actions = [] ∨ ∃ text, P.parseActions text = .ok m₀.actions := by
    by_cases hnone : readParam P req ["x-actions", "actions", "action"] = ""
    · exact Or.inl (hfields.noActions hnone)
    · exact Or.inr ⟨_, hfields.actions hnone⟩
  have hattachment : m₀.attachment = attachmentParam P req := by
    rw [hfields.attachment]
    exact Option.or_none
  simp only [Except.ok.injEq, Prod.mk.injEq] at h
  obtain ⟨rfl, rfl⟩ := h
  refine ⟨hsettings.2 hstored, ?_⟩
  simp only [hpoll, ne_eq, not_true_eq_false, if_false]
  split
  · exact ⟨hfields.event, rfl, hfields.tags, hattachment, hactions⟩
  · exact ⟨hfields.event, rfl, hfields.tags, hattachment, hactions⟩

/-- The attachment of the parameters has a name, and a URL if one is given. -/
theorem attachmentParam_spec
    {a : Attachment}
    (h : attachmentParam P req = some a) :
    a.name ≠ "" ∧ a.url = readParam P req ["x-attach", "attach", "a"] := by
  unfold attachmentParam at h
  extract_lets filename attach at h
  have hattach : attach = readParam P req ["x-attach", "attach", "a"] := rfl
  rw [← hattach]
  clear_value filename attach
  clear hattach
  split at h
  · have ha := Option.some.inj h
    subst ha
    refine ⟨?_, rfl⟩
    dsimp only
    split
    · assumption
    · unfold attachmentName
      extract_lets name
      split
      · decide
      · assumption
  · next hempty =>
      rw [not_not] at hempty
      split at h
      · next hname =>
          have ha := Option.some.inj h
          subst ha
          exact ⟨hname, hempty.symm⟩
      · cases h

/-- Tags of a parameter have no commas. -/
theorem comma_notMem_readCommaSeparatedParam
    {names : List String} {t : String}
    (ht : t ∈ readCommaSeparatedParam P req names) :
    ',' ∉ t.toList := by
  simp only [readCommaSeparatedParam, splitNoEmpty, List.map_map, List.mem_map,
    Function.comp_apply] at ht
  obtain ⟨part, hpart, rfl⟩ := ht
  have hsplit : part ∈ (readParam P req names).toList.splitOn ',' :=
    List.mem_of_mem_filter hpart
  intro hmem
  rw [trim, String.toList_ofList, String.toList_ofList] at hmem
  exact notMem_of_mem_splitOn hsplit (trimSpace_subset _ hmem)

/-- Only a file name without a URL makes an attachment that is not complete. -/
theorem attachmentParam_complete_iff
    (P : Parsers)
    (req : Request) :
    (∀ a ∈ attachmentParam P req, Complete a) ↔
      ¬ (readParam P req ["x-attach", "attach", "a"] = "" ∧
        readParam P req ["x-filename", "filename", "file", "f"] ≠ "") := by
  constructor
  · rintro hcomplete ⟨hattach, hfilename⟩
    have hsome : attachmentParam P req = some
        ⟨readParam P req ["x-filename", "filename", "file", "f"], "", 0, 0, ""⟩ := by
      unfold attachmentParam
      extract_lets filename attach
      rw [if_neg (not_not_intro hattach), if_pos hfilename]
    exact (hcomplete _ hsome).2 rfl
  · intro hnot a ha
    obtain ⟨hname, hurl⟩ := attachmentParam_spec (Option.mem_def.mp ha)
    refine ⟨hname, fun hempty => hnot ⟨hurl.symm.trans hempty, fun hfilename => ?_⟩⟩
    have hnone : attachmentParam P req = none := by
      unfold attachmentParam
      extract_lets filename attach
      rw [if_neg (not_not_intro (hurl.symm.trans hempty)),
        if_neg (not_not_intro hfilename)]
    rw [hnone] at ha
    cases ha

end Params

section Copies

variable {A : Addresses}
variable {P : Parsers}
variable {cfg : Config}
variable {now : Nat}

/-- Requests whose message survives the cache. -/
def Call.Keeps (P : Parsers) : Call → Prop
  | .publish req =>
      readCommaSeparatedParam P req ["x-tags", "tags", "tag", "ta"] ≠ [""] ∧
        ¬ (isUnifiedPush P req = true ∧
          readParam P req ["x-attach", "attach", "a"] = "" ∧
          readParam P req ["x-filename", "filename", "file", "f"] ≠ "")
  | .delete | .clear | .nudge => True

/-- A message without tags and attachment survives the cache. -/
theorem sameJSON_of_plain
    {m : Message}
    (hevent : m.event.storable = true)
    (hpoll : m.pollID = "")
    (htags : m.tags = [])
    (hactions : m.actions = [])
    (hattachment : m.attachment = none) :
    SameJSON A now m := by
  rw [sameJSON_iff hevent hpoll (by simp [htags]) (by simp [hactions])]
  simp [htags, hattachment]

theorem sameJSON_handleActionMessage
    {v : Visit} {path topic : String} {event : Event} {m : Message}
    (hevent : event.storable = true)
    (h : handleActionMessage v path topic event = .ok m) :
    SameJSON A now m := by
  unfold handleActionMessage at h
  split at h
  · cases h
  · cases hsequence : sequenceIDFromPath path with
    | error e =>
        rw [hsequence] at h
        cases h
    | ok sequenceID =>
        rw [hsequence] at h
        cases h
        exact sameJSON_of_plain hevent rfl rfl rfl rfl

theorem sameJSON_handleNudge
    {db : Database} {v : Visit} {u : User} {topic : String} {allowed : Bool}
    {topicError : Option ErrHTTP} {m : Message}
    (h : handleNudge db cfg v u topic allowed topicError = .ok m) :
    SameJSON A now m := by
  unfold handleNudge at h
  split at h
  · cases h
  · split at h
    · cases h
    · split at h
      · cases h
      · split at h
        · cases h
        · cases h
          exact sameJSON_of_plain rfl rfl rfl rfl rfl

/-- What is known of a published message that is stored. -/
structure StoredFields
    (P : Parsers)
    (req : Request)
    (m : Message) : Prop where
  event : m.event = .message
  pollID : m.pollID = ""
  tags : m.tags = readCommaSeparatedParam P req ["x-tags", "tags", "tag", "ta"]
  actions : m.actions = [] ∨ ∃ text, P.parseActions text = .ok m.actions
  unifiedPush : isUnifiedPush P req = true → m.attachment = attachmentParam P req
  complete : isUnifiedPush P req = false → ∀ a ∈ m.attachment, Complete a

theorem handlePublishInternal_fields
    {v : Visit} {req : Request} {c c' : MessageCache} {topic : String} {m : Message}
    (hpublish : handlePublishInternal P cfg v req c topic = .ok (m, c'))
    (hstored : isStored P req = true) :
    StoredFields P req m := by
  unfold handlePublishInternal at hpublish
  obtain ⟨⟨m₀, p⟩, hdraft, hpublish⟩ := exists_of_bind_eq_ok hpublish
  obtain ⟨m₁, hbody, hpublish⟩ := exists_of_bind_eq_ok hpublish
  obtain ⟨hup, hevent, hpoll, htags, hattachment, hactions⟩ :=
    draft_fields hstored hdraft
  have hm : m = fillEmptyMessage m₁ := by
    simp only at hpublish
    split at hpublish
    · split at hpublish
      · cases hpublish
        rfl
      · cases hpublish
    · cases hpublish
      rfl
  obtain ⟨text, hfill⟩ : ∃ message, fillEmptyMessage m₁ = { m₁ with message } := by
    unfold fillEmptyMessage
    split
    · exact ⟨_, rfl⟩
    · exact ⟨m₁.message, rfl⟩
  have hnoPoll : (m₀.withPreview (replyPreview c m₀.replyTo)).event ≠ .pollRequest := by
    rw [Message.withPreview_event, hevent]
    decide
  obtain ⟨message, title, priority, encoding, attachment, hm₁, hkept⟩ :=
    handlePublishBody_eq hnoPoll hbody
  rw [Message.withPreview_attachment, hup, hattachment] at hkept
  rw [hfill, hm₁] at hm
  subst hm
  refine ⟨hevent, hpoll, htags, hactions, fun h => ?_, fun h a ha => ?_⟩
  · rw [if_pos h] at hkept
    exact hkept
  · rw [if_neg (by simp [h])] at hkept
    dsimp only at ha
    rcases hkept with ⟨hparam, hurl⟩ | ⟨b, hb, hcomplete⟩
    · rw [hparam] at ha
      obtain ⟨hname, -⟩ := attachmentParam_spec (Option.mem_def.mp ha)
      exact ⟨hname, (hurl a ha).resolve_right hname⟩
    · rw [hb, Option.mem_some_iff] at ha
      rwa [← ha]

theorem sameJSON_publish_iff
    {E : Actions.Environment}
    {v : Visit} {req : Request} {c c' : MessageCache} {topic : String} {m : Message}
    (hparser : P.parseActions = Actions.toParser E)
    (hpublish : handlePublishInternal P cfg v req c topic = .ok (m, c'))
    (hstored : isStored P req = true) :
    SameJSON A now m ↔ Call.Keeps P (.publish req) := by
  have hfields := handlePublishInternal_fields hpublish hstored
  have htags : ∀ t ∈ m.tags, ',' ∉ t.toList := by
    rw [hfields.tags]
    exact fun t => comma_notMem_readCommaSeparatedParam
  have hmaps : ∀ a ∈ m.actions, Actions.HasMaps a := by
    rcases hfields.actions with hnone | ⟨text, htext⟩
    · simp [hnone]
    · rw [hparser, Actions.toParser] at htext
      split at htext
      · next parsed hparsed =>
          cases htext
          exact Actions.parseActions_hasMaps hparsed
      · cases htext
      · cases htext
  rw [sameJSON_iff (by rw [hfields.event]; rfl) hfields.pollID htags hmaps,
    hfields.tags, Call.Keeps]
  refine and_congr_right fun _ => ?_
  cases hup : isUnifiedPush P req with
  | true =>
      rw [hfields.unifiedPush hup, attachmentParam_complete_iff]
      simp
  | false =>
      simp only [Bool.false_eq_true, false_and, not_false_eq_true, iff_true]
      exact hfields.complete hup

/-- The stored copy has the JSON of the live one exactly if nothing gets lost. -/
theorem sameJSON_iff_keeps
    {E : Actions.Environment} {call : Call} {m : Message}
    (hparser : P.parseActions = Actions.toParser E)
    (h : Builds P cfg call m) :
    SameJSON A now m ↔ call.Keeps P := by
  cases h with
  | publish hpublish hstored =>
      exact sameJSON_publish_iff hparser hpublish hstored
  | delete h =>
      exact iff_of_true (sameJSON_handleActionMessage rfl h) trivial
  | clear h =>
      exact iff_of_true (sameJSON_handleActionMessage rfl h) trivial
  | nudge h =>
      exact iff_of_true (sameJSON_handleNudge h) trivial

end Copies

section PushMessages

/-- A UnifiedPush message with the name of a file. -/
def pushRequest : Request where
  method := "PUT"
  path := "/up"
  header := fun n =>
    if n = "x-unifiedpush" then "1" else if n = "x-filename" then "a.txt" else ""
  query := fun _ => ""
  body := bytesOf "hi"

def pushVisit : Visit where
  user := none
  ip := .invalid
  phoneNumbers := []
  limits := ⟨43200, 0, 0, 10800⟩
  exempt := false
  hasRateVisitor := true
  messageAllowed := true
  emailAllowed := true
  callAllowed := true
  bandwidthAllowed := fun _ => true
  fileCacheRemaining := none
  now := 1000
  messageID := "mmmmmmmmmmmm"
  pollRequestID := "pppppppppppp"

def noAddresses : Addresses where
  toText := fun _ => ""
  parseAddr := fun _ => none

set_option maxRecDepth 100000 in
theorem pushRequest_published :
    ∃ m c', handlePublishInternal plainParsers plainConfig pushVisit pushRequest .empty
      "up" = .ok (m, c') := by
  exact ⟨_, _, rfl⟩

/-- The attachment of the live message is missing in the stored copy. -/
theorem attachment_lost :
    ∃ m, Builds plainParsers plainConfig (.publish pushRequest) m ∧
      ¬ SameJSON noAddresses 1000 m := by
  obtain ⟨m, c', hpublish⟩ := pushRequest_published
  have hstored : isStored plainParsers pushRequest = true := by
    decide
  refine ⟨m, .publish hpublish hstored, ?_⟩
  rw [sameJSON_publish_iff rfl hpublish hstored]
  rintro ⟨-, hnot⟩
  exact hnot (by decide)

theorem push_copy_decided :
    ∃ m, Builds plainParsers plainConfig (.publish pushRequest) m ∧
      (SameJSON noAddresses 1000 m ↔ Call.Keeps plainParsers (.publish pushRequest)) := by
  obtain ⟨m, c', hpublish⟩ := pushRequest_published
  have hbuilds : Builds plainParsers plainConfig (.publish pushRequest) m :=
    .publish hpublish (by decide)
  exact ⟨m, hbuilds, sameJSON_iff_keeps rfl hbuilds⟩

end PushMessages

end StoredCopies

end Server
end CoopMessenger
