import CoopMessenger.Server.FileCache
import CoopMessenger.Server.Publish

/-!
# Publishes that fail

`handlePublishInternal` of `server/server.go` with what can go wrong on the way, and with
what has been done by then: the file of the body is written first, the message goes to
the subscribers next, then the scheduled messages of the sequence are deleted, and the
message is added to the cache last.  Nothing of it is undone if a later step fails.

**Results.**
* `handlePublishBody_spec`: when the body is accepted, and when a file is there then.
* `handlePublishInternal_agrees`: if nothing goes wrong, the result is the one of `Publish`.
* `failed_publish_clean_iff`: which requests leave nothing behind when they fail.
-/

namespace CoopMessenger
namespace Server

open Library Manager Util

namespace FailedPublishes

open Publish (Parsers Config Visit Request Params)

section Model

/--
What goes wrong during a request, and who listens on the topic.  The body can fail to be
read when it is peeked and after that; the file can fail to be opened, written, closed and
removed.
-/
structure Circumstances where
  contextMissing : Bool
  peekFails : Bool
  restFails : Bool
  infoFails : Bool
  openFails : Bool
  diskFails : Bool
  closeFails : Bool
  unlinkFails : Bool
  keptFiles : List String
  deleteFails : Bool
  addFails : Bool
  publishedAt : Nat
  subscribers : List Nat
  webPushPublicKey : String
  webPushEndpoints : List String

inductive Receiver where
  | subscriber (id : Nat)
  | webPush (endpoint : String)
deriving DecidableEq, Repr

/-- The cache with its queue, if there is one, the files, and what was received. -/
structure State where
  cache : MessageCache
  queue : Option (List Message)
  files : List String
  received : List (Receiver × Message)

def Circumstances.receivers (x : Circumstances) : List Receiver :=
  x.subscribers.map .subscriber ++
    if x.webPushPublicKey = "" then [] else x.webPushEndpoints.map .webPush

/-- `Publish` of the topic, and `publishToWebPushEndpoints` -/
def State.publish
    (s : State)
    (x : Circumstances)
    (m : Message) : State :=
  { s with received := s.received ++ x.receivers.map fun r => (r, m) }

def State.withFile
    (s : State)
    (name : String) : State :=
  { s with files := name :: s.files }

/-- `Write` of the file cache; a file that cannot be completed is removed. -/
def writeFile
    (x : Circumstances)
    (name : String)
    (fits : Bool)
    (s : State) : Except ErrHTTP Unit × State :=
  let left := if x.unlinkFails then s.withFile name else s
  if !FileCache.validFileID name then
    (.error errHTTPInternalError, s)
  else if name ∈ s.files then
    (.error errHTTPInternalError, s)
  else if x.openFails then
    (.error errHTTPInternalError, s)
  else if x.restFails || x.diskFails then
    (.error errHTTPInternalError, left)
  else if !fits then
    (.error errHTTPEntityTooLargeAttachment, left)
  else if x.closeFails then
    (.error errHTTPInternalError, left)
  else
    (.ok (), s.withFile name)

variable (P : Parsers)
variable (cfg : Config)
variable (v : Visit)
variable (req : Request)
variable (x : Circumstances)

/-- What remains of the attachment quota. -/
def remaining (s : State) : Nat :=
  v.limits.attachmentTotalSizeLimit - Publish.attachmentBytesUsed v s.cache

def handleBodyAsAttachment
    (m : Message)
    (s : State) : Except ErrHTTP Message × State :=
  if v.fileCacheRemaining.isNone ∨ cfg.baseURL = "" ∨ cfg.attachmentCacheDir = "" then
    (.error errHTTPBadRequestAttachmentsDisallowed, s)
  else if x.infoFails then
    (.error errHTTPInternalError, s)
  else if v.now + v.limits.attachmentExpiryDuration < m.time then
    (.error errHTTPBadRequestAttachmentsExpiryBeforeDelivery, s)
  else if !Publish.announcedSizeFits v req (remaining v s) then
    (.error errHTTPEntityTooLargeAttachment, s)
  else
    match writeFile x m.id (Publish.bodyFits v req (remaining v s)) s with
    | (.error e, s) => (.error e, s)
    | (.ok (), s) => (.ok (Publish.withAttachment P cfg v req m), s)

/-- A result that depends on the rest of the body. -/
def afterRest
    (result : Except ErrHTTP Message) : Except ErrHTTP Message :=
  if x.restFails then .error errHTTPInternalError else result

def handlePublishBody
    (p : Params)
    (m : Message)
    (s : State) : Except ErrHTTP Message × State :=
  if m.event = .pollRequest then
    (afterRest x (.ok m), s)
  else if p.unifiedpush then
    (.ok (Publish.handleBodyAsMessageAutoDetect cfg req m), s)
  else if m.attachment.any (fun a => decide (a.url ≠ "")) then
    (Publish.handleBodyAsTextMessage cfg req m, s)
  else if m.attachment.any (fun a => decide (a.name ≠ "")) then
    handleBodyAsAttachment P cfg v req x m s
  else if Publish.templateEnabled p.template then
    (afterRest x
      (Publish.handleBodyAsTemplatedTextMessage P cfg req p.template p.priorityStr m), s)
  else if req.body.length < cfg.messageSizeLimit ∧
      (decodeUTF8 (Publish.peekedBytes cfg req)).isSome then
    (Publish.handleBodyAsTextMessage cfg req m, s)
  else
    handleBodyAsAttachment P cfg v req x m s

/-- Is the row a scheduled message of the sequence? -/
def isScheduled
    (topic sequenceID : String)
    (r : StoredMessage) : Bool :=
  decide (r.message.topic = topic) && decide (r.message.sequenceID = sequenceID) &&
    !r.published

/-- The state without the scheduled messages of the sequence, and without their files. -/
def State.deleteScheduled
    (s : State)
    (topic sequenceID : String) : State :=
  let ids := ((s.cache.rows.filter (isScheduled topic sequenceID)).map
    fun r => r.message.id).takeWhile FileCache.validFileID
  { s with
    cache := s.cache.deleteScheduledBySequenceID topic sequenceID
    files :=
      if v.fileCacheRemaining.isSome then
        s.files.filter fun f => decide (f ∈ x.keptFiles) || !decide (f ∈ ids)
      else
        s.files }

/-- `AddMessage` -/
def State.addMessage
    (s : State)
    (m : Message) : Except ErrHTTP Unit × State :=
  match s.queue with
  | some q => (.ok (), { s with queue := some (q ++ [m]) })
  | none =>
      if x.addFails then
        (.error errHTTPInternalError, s)
      else
        match s.cache.addMessages x.publishedAt [m] with
        | .error _ => (.error errHTTPInternalError, s)
        | .ok cache => (.ok (), { s with cache })

/-- Deletes the scheduled messages of the sequence, and adds the message. -/
def State.store
    (s : State)
    (topic : String)
    (m : Message) : Except ErrHTTP Unit × State :=
  if x.deleteFails then
    (.error errHTTPInternalError, s)
  else
    (s.deleteScheduled v x topic m.sequenceID).addMessage x m

/-- The message as it is before the body is read. -/
def prepare
    (topic : String)
    (s : State) : Except ErrHTTP (Message × Params) :=
  (Publish.draft P cfg v req topic).map fun (m, p) =>
    (m.withPreview (Publish.replyPreview s.cache m.replyTo), p)

def handlePublishInternal
    (topic : String)
    (s : State) : Except ErrHTTP Message × State :=
  if x.contextMissing then
    (.error errHTTPInternalError, s)
  else if x.peekFails then
    (.error errHTTPInternalError, s)
  else
    match prepare P cfg v req topic s with
    | .error e => (.error e, s)
    | .ok (m, p) =>
        match handlePublishBody P cfg v req x p m s with
        | (.error e, s) => (.error e, s)
        | (.ok m, s) =>
            let m := Publish.fillEmptyMessage m
            let delayed := decide (x.publishedAt < m.time)
            let s := if delayed then s else s.publish x m
            if p.cache then
              match s.store v x topic m with
              | (.error e, s) => (.error e, s)
              | (.ok (), s) => (.ok m, s)
            else
              (.ok m, s)

/-- A request that fails leaves everything as it was. -/
def FailsClean
    (topic : String)
    (s : State) : Prop :=
  ∀ e, (handlePublishInternal P cfg v req x topic s).1 = .error e →
    (handlePublishInternal P cfg v req x topic s).2 = s

end Model

section Conditions

variable (P : Parsers)
variable (cfg : Config)
variable (v : Visit)
variable (req : Request)
variable (x : Circumstances)

/-- Does the body become a file? -/
def isFileBody
    (p : Params)
    (m : Message) : Bool :=
  !decide (m.event = .pollRequest) && !p.unifiedpush &&
    !m.attachment.any (fun a => decide (a.url ≠ "")) &&
    (m.attachment.any (fun a => decide (a.name ≠ "")) ||
      (!Publish.templateEnabled p.template &&
        !(decide (req.body.length < cfg.messageSizeLimit) &&
          (decodeUTF8 (Publish.peekedBytes cfg req)).isSome)))

/-- Is the file opened to be written? -/
def fileOpened
    (m : Message)
    (s : State) : Bool :=
  v.fileCacheRemaining.isSome && decide (cfg.baseURL ≠ "") &&
    decide (cfg.attachmentCacheDir ≠ "") && !x.infoFails &&
    decide (m.time ≤ v.now + v.limits.attachmentExpiryDuration) &&
    Publish.announcedSizeFits v req (remaining v s) && FileCache.validFileID m.id &&
    decide (m.id ∉ s.files) && !x.openFails

/-- Is an opened file completed? -/
def fileCompleted
    (s : State) : Bool :=
  !x.restFails && !x.diskFails && Publish.bodyFits v req (remaining v s) && !x.closeFails

/-- Is the rest of the body read that becomes no file? -/
def readsRest
    (p : Params)
    (m : Message) : Bool :=
  decide (m.event = .pollRequest) ||
    (!p.unifiedpush && !m.attachment.any (fun a => decide (a.url ≠ "")) &&
      Publish.templateEnabled p.template)

/-- Is the body accepted? -/
def bodyAccepted
    (p : Params)
    (m : Message)
    (s : State) : Bool :=
  if isFileBody cfg req p m then
    fileOpened cfg v req x m s && fileCompleted v req x s
  else
    (Publish.handlePublishBody P cfg v req p (Publish.attachmentBytesUsed v s.cache) m).isOk &&
      !(readsRest p m && x.restFails)

/-- The message goes to nobody when it is published. -/
def Unheard (m : Message) : Prop :=
  x.publishedAt < m.time ∨ x.receivers = []

/--
A file that was opened can be removed again if it cannot be completed.  If the cache
fails after the body was accepted, then the message goes to nobody, it has no file, and
the sequence has no scheduled message if it is the insert that fails.
-/
def FailsEarly
    (topic : String)
    (s : State) : Prop :=
  x.contextMissing = true ∨ x.peekFails = true ∨
    ∀ m p, prepare P cfg v req topic s = .ok (m, p) →
      (isFileBody cfg req p m = true → fileOpened cfg v req x m s = true →
        fileCompleted v req x s = false → x.unlinkFails = false) ∧
      (bodyAccepted P cfg v req x p m s = true → p.cache = true →
        (x.deleteFails = true ∨ (s.queue = none ∧ x.addFails = true)) →
          Unheard x m ∧ isFileBody cfg req p m = false ∧
            (x.deleteFails = false →
              ∀ r ∈ s.cache.rows, isScheduled topic m.sequenceID r = false))

end Conditions

section Frames

variable {P : Parsers}
variable {cfg : Config}
variable {v : Visit}
variable {req : Request}
variable {m m' : Message}

/-- What the body does not change. -/
def frame (m : Message) : String × Nat × String × Event :=
  (m.id, m.time, m.sequenceID, m.event)

theorem publishBody_frame
    {p : Params} {bytesUsed : Nat}
    (h : Publish.handlePublishBody P cfg v req p bytesUsed m = .ok m') :
    frame m' = frame m := by
  obtain ⟨message, title, priority, encoding, attachment, rfl⟩ :=
    Publish.handlePublishBody_changes h
  rfl

theorem fillEmptyMessage_frame
    (m : Message) :
    frame (Publish.fillEmptyMessage m) = frame m := by
  unfold Publish.fillEmptyMessage
  split <;> rfl

end Frames

section Bodies

variable {P : Parsers}
variable {cfg : Config}
variable {v : Visit}
variable {req : Request}
variable {x : Circumstances}

/-- A file is there if it was completed, or opened and not removed. -/
theorem writeFile_spec
    (name : String)
    (fits : Bool)
    (s : State) :
    let opened := FileCache.validFileID name && decide (name ∉ s.files) && !x.openFails
    let completed := !x.restFails && !x.diskFails && fits && !x.closeFails
    (writeFile x name fits s).2 =
        (if opened && (completed || x.unlinkFails) then s.withFile name else s) ∧
      ((opened && completed) = true → (writeFile x name fits s).1 = .ok ()) ∧
      ((opened && completed) = false → ∃ e, (writeFile x name fits s).1 = .error e) := by
  unfold writeFile
  by_cases hvalid : FileCache.validFileID name = true
  · by_cases hfresh : name ∈ s.files
    · simp [hvalid, hfresh]
    · cases hopen : x.openFails with
      | true =>
          simp [hvalid, hfresh]
      | false =>
          cases x.restFails <;> cases x.diskFails <;> cases fits <;> cases x.closeFails <;>
            simp [hvalid, hfresh]
  · simp [hvalid]

theorem handleBodyAsAttachment_spec
    (m : Message)
    (s : State) :
    (handleBodyAsAttachment P cfg v req x m s).2 =
        (if fileOpened cfg v req x m s && (fileCompleted v req x s || x.unlinkFails) then
          s.withFile m.id else s) ∧
      ((fileOpened cfg v req x m s && fileCompleted v req x s) = true →
        (handleBodyAsAttachment P cfg v req x m s).1 =
          .ok (Publish.withAttachment P cfg v req m)) ∧
      ((fileOpened cfg v req x m s && fileCompleted v req x s) = false →
        ∃ e, (handleBodyAsAttachment P cfg v req x m s).1 = .error e) := by
  unfold handleBodyAsAttachment
  split
  · next hdisallowed =>
      have hclosed : fileOpened cfg v req x m s = false := by
        rcases hdisallowed with h | h | h <;> simp [fileOpened, h]
      simp [hclosed]
  · next hallowed =>
      obtain ⟨hcache, hurl, hdir⟩ := not_or.mp hallowed |>.imp_right not_or.mp
      cases hinfo : x.infoFails with
      | true =>
          simp [fileOpened, hinfo]
      | false =>
          by_cases hexpiry : v.now + v.limits.attachmentExpiryDuration < m.time
          · simp [fileOpened, hexpiry]
          · cases hannounced : Publish.announcedSizeFits v req (remaining v s) with
            | false =>
                simp [fileOpened, hannounced, hexpiry]
            | true =>
                have hopened : fileOpened cfg v req x m s =
                    (FileCache.validFileID m.id && decide (m.id ∉ s.files) &&
                      !x.openFails) := by
                  have hsome : v.fileCacheRemaining.isSome = true := by
                    simpa [Option.isSome_iff_ne_none] using hcache
                  simp [fileOpened, hinfo, hannounced, hsome, hurl, hdir, not_lt.mp hexpiry]
                obtain ⟨hstate, hok, herror⟩ := writeFile_spec (x := x) m.id
                  (Publish.bodyFits v req (remaining v s)) s
                rw [hopened]
                simp only [Bool.false_eq_true, if_false, if_neg hexpiry, Bool.not_true]
                cases hwrite : writeFile x m.id (Publish.bodyFits v req (remaining v s)) s with
                | mk result s' =>
                    rw [hwrite] at hstate hok herror
                    refine ⟨?_, fun h => ?_, fun h => ?_⟩
                    · cases result <;> exact hstate
                    · obtain rfl : result = .ok () := hok h
                      rfl
                    · obtain ⟨e, rfl⟩ : ∃ e, result = .error e := herror h
                      exact ⟨e, rfl⟩

/-- The body becomes a file, also where nothing goes wrong. -/
theorem handlePublishBody_of_file
    {p : Params} {m : Message}
    (hfile : isFileBody cfg req p m = true)
    (s : State) :
    handlePublishBody P cfg v req x p m s = handleBodyAsAttachment P cfg v req x m s ∧
      ∀ bytesUsed, Publish.handlePublishBody P cfg v req p bytesUsed m =
        Publish.handleBodyAsAttachment P cfg v req bytesUsed m := by
  unfold handlePublishBody Publish.handlePublishBody
  unfold isFileBody at hfile
  generalize m.attachment.any (fun a => decide (a.url ≠ "")) = url at hfile ⊢
  generalize m.attachment.any (fun a => decide (a.name ≠ "")) = name at hfile ⊢
  simp only [Bool.and_eq_true, Bool.or_eq_true, Bool.not_eq_true',
    decide_eq_false_iff_not] at hfile
  obtain ⟨⟨⟨hpoll, hpush⟩, rfl⟩, hkind⟩ := hfile
  cases name with
  | true =>
      simp [hpoll, hpush]
  | false =>
      obtain ⟨htemplate, htext⟩ := hkind.resolve_left (by simp)
      have hlarge : ¬(req.body.length < cfg.messageSizeLimit ∧
          (decodeUTF8 (Publish.peekedBytes cfg req)).isSome = true) := by
        rintro ⟨hsmall, hvalid⟩
        simp [hsmall, hvalid] at htext
      simp [hpoll, hpush, htemplate, hlarge]

theorem handlePublishBody_of_no_file
    {p : Params} {m : Message}
    (hfile : isFileBody cfg req p m = false)
    (s : State) :
    handlePublishBody P cfg v req x p m s =
      (if readsRest p m then
        afterRest x
          (Publish.handlePublishBody P cfg v req p (Publish.attachmentBytesUsed v s.cache) m)
      else
        Publish.handlePublishBody P cfg v req p (Publish.attachmentBytesUsed v s.cache) m,
      s) := by
  unfold handlePublishBody Publish.handlePublishBody readsRest
  unfold isFileBody at hfile
  generalize m.attachment.any (fun a => decide (a.url ≠ "")) = url at hfile ⊢
  generalize m.attachment.any (fun a => decide (a.name ≠ "")) = name at hfile ⊢
  by_cases hpoll : m.event = .pollRequest
  · simp [hpoll]
  cases hpush : p.unifiedpush with
  | true =>
      simp [hpoll]
  | false =>
      cases url with
      | true =>
          simp [hpoll]
      | false =>
          cases name with
          | true =>
              simp [hpoll, hpush] at hfile
          | false =>
              cases htemplate : Publish.templateEnabled p.template with
              | true =>
                  simp [hpoll]
              | false =>
                  have htext : req.body.length < cfg.messageSizeLimit ∧
                      (decodeUTF8 (Publish.peekedBytes cfg req)).isSome = true := by
                    simpa [hpoll, hpush, htemplate] using hfile
                  simp [hpoll, htext]

/--
There is a file if one was opened, and completed or not removed; nothing else changes.
-/
theorem handlePublishBody_spec
    (p : Params)
    (m : Message)
    (s : State) :
    (handlePublishBody P cfg v req x p m s).2 =
        (if isFileBody cfg req p m && fileOpened cfg v req x m s &&
            (fileCompleted v req x s || x.unlinkFails) then
          s.withFile m.id else s) ∧
      (∀ m', (handlePublishBody P cfg v req x p m s).1 = .ok m' →
        bodyAccepted P cfg v req x p m s = true ∧ frame m' = frame m) ∧
      (∀ e, (handlePublishBody P cfg v req x p m s).1 = .error e →
        bodyAccepted P cfg v req x p m s = false) := by
  unfold bodyAccepted
  cases hfile : isFileBody cfg req p m with
  | true =>
      rw [(handlePublishBody_of_file hfile s).1]
      obtain ⟨hstate, hok, herror⟩ := @handleBodyAsAttachment_spec P cfg v req x m s
      refine ⟨by rw [hstate, Bool.true_and], fun m' h => ?_, fun e h => ?_⟩
      · cases haccepted : fileOpened cfg v req x m s && fileCompleted v req x s with
        | true =>
            rw [hok haccepted] at h
            cases h
            exact ⟨by simp, rfl⟩
        | false =>
            obtain ⟨e, he⟩ := herror haccepted
            rw [he] at h
            cases h
      · cases haccepted : fileOpened cfg v req x m s && fileCompleted v req x s with
        | true =>
            rw [hok haccepted] at h
            cases h
        | false =>
            simp
  | false =>
      rw [handlePublishBody_of_no_file hfile]
      cases hrest : readsRest p m && x.restFails with
      | true =>
          rw [Bool.and_eq_true] at hrest
          refine ⟨by simp, fun m' h => ?_, fun e h => by simp⟩
          simp [afterRest, hrest] at h
      | false =>
          have hresult : ∀ result, (if readsRest p m then afterRest x result else result) =
              result := by
            intro result
            unfold afterRest
            cases hreads : readsRest p m with
            | true =>
                rw [hreads, Bool.true_and] at hrest
                simp [hrest]
            | false =>
                rfl
          simp only [hresult]
          refine ⟨by simp, fun m' h => ?_, fun e h => ?_⟩
          · exact ⟨by simp [h, Except.isOk, Except.toBool], publishBody_frame h⟩
          · simp [h, Except.isOk, Except.toBool]

end Bodies

section Requests

variable {P : Parsers}
variable {cfg : Config}
variable {v : Visit}
variable {req : Request}
variable {x : Circumstances}
variable {topic : String}

theorem withFile_ne
    (s : State)
    (name : String) :
    s.withFile name ≠ s := by
  intro h
  have hlength := congrArg (fun s => s.files.length) h
  simp [State.withFile] at hlength

theorem publish_eq_self_iff
    {s : State} {m : Message} :
    s.publish x m = s ↔ x.receivers = [] := by
  constructor
  · intro h
    have hreceived := congrArg State.received h
    simpa [State.publish] using hreceived
  · intro h
    simp [State.publish, h]

/-- The state after the message went out, if it is not delayed. -/
theorem sent_eq_self_iff
    {s : State} {m : Message} :
    (if decide (x.publishedAt < m.time) then s else s.publish x m) = s ↔ Unheard x m := by
  by_cases hdelayed : x.publishedAt < m.time
  · simp [hdelayed, Unheard]
  · simp [hdelayed, Unheard, publish_eq_self_iff]

theorem deleteScheduled_cache_eq_iff
    {s : State} {sequenceID : String} :
    (s.deleteScheduled v x topic sequenceID).cache = s.cache
      ↔
    ∀ r ∈ s.cache.rows, isScheduled topic sequenceID r = false := by
  have hrows : (s.deleteScheduled v x topic sequenceID).cache.rows =
      s.cache.rows.filter fun r => !isScheduled topic sequenceID r :=
    rfl
  have hcache : (s.deleteScheduled v x topic sequenceID).cache = s.cache ↔
      (s.deleteScheduled v x topic sequenceID).cache.rows = s.cache.rows := by
    refine ⟨fun h => by rw [h], fun h => ?_⟩
    obtain ⟨⟨rows, lastRowID, increasing, bounded⟩, queue, files, received⟩ := s
    simpa [State.deleteScheduled, MessageCache.deleteScheduledBySequenceID,
      MessageCache.filter] using h
  rw [hcache, hrows, List.filter_eq_self]
  simp

/-- Deleting the scheduled messages changes nothing if there are none. -/
theorem deleteScheduled_eq_self
    {s : State} {sequenceID : String}
    (h : ∀ r ∈ s.cache.rows, isScheduled topic sequenceID r = false) :
    s.deleteScheduled v x topic sequenceID = s := by
  have hcache := deleteScheduled_cache_eq_iff (v := v) (x := x).mpr h
  have hnone : s.cache.rows.filter (isScheduled topic sequenceID) = [] := by
    simpa using h
  have hfiles : (s.deleteScheduled v x topic sequenceID).files = s.files := by
    simp [State.deleteScheduled, hnone]
  obtain ⟨cache, queue, files, received⟩ := s
  simp only [State.deleteScheduled] at hcache hfiles ⊢
  rw [hcache, hfiles]

/-- What is left when the insert fails. -/
theorem deleted_eq_self_iff
    {s s' : State} {sequenceID : String}
    (hcache : s'.cache = s.cache) :
    s'.deleteScheduled v x topic sequenceID = s
      ↔
    s' = s ∧ ∀ r ∈ s.cache.rows, isScheduled topic sequenceID r = false := by
  constructor
  · intro h
    have hrows : ∀ r ∈ s.cache.rows, isScheduled topic sequenceID r = false := by
      rw [← hcache]
      refine deleteScheduled_cache_eq_iff (v := v) (x := x).mp ?_
      rw [h, hcache]
    refine ⟨?_, hrows⟩
    rw [← deleteScheduled_eq_self (v := v) (x := x) (s := s') (hcache ▸ hrows), h]
  · rintro ⟨rfl, hrows⟩
    exact deleteScheduled_eq_self hrows

/-- What is left by the body of a request. -/
theorem body_state_eq_self_iff
    {p : Params} {m : Message} {s : State} :
    (handlePublishBody P cfg v req x p m s).2 = s
      ↔
    ¬(isFileBody cfg req p m = true ∧ fileOpened cfg v req x m s = true ∧
      (fileCompleted v req x s = true ∨ x.unlinkFails = true)) := by
  rw [(handlePublishBody_spec p m s).1]
  split
  · next h =>
      simp only [Bool.and_eq_true, Bool.or_eq_true] at h
      exact iff_of_false (withFile_ne s m.id) fun hno => hno ⟨h.1.1, h.1.2, h.2⟩
  · next h =>
      simp only [Bool.and_eq_true, Bool.or_eq_true] at h
      exact iff_of_true rfl fun hno => h ⟨⟨hno.1, hno.2.1⟩, hno.2.2⟩

/-- A request fails clean if its body is refused without a trace. -/
theorem clean_of_refused
    {p : Params} {m : Message} {s : State}
    (hrefused : bodyAccepted P cfg v req x p m s = false) :
    (handlePublishBody P cfg v req x p m s).2 = s
      ↔
    (isFileBody cfg req p m = true → fileOpened cfg v req x m s = true →
      fileCompleted v req x s = false → x.unlinkFails = false) := by
  rw [body_state_eq_self_iff]
  unfold bodyAccepted at hrefused
  cases hfile : isFileBody cfg req p m with
  | false =>
      simp
  | true =>
      rw [hfile, if_pos rfl] at hrefused
      cases hopened : fileOpened cfg v req x m s with
      | false =>
          simp
      | true =>
          rw [hopened, Bool.true_and] at hrefused
          simp [hrefused]

theorem body_state_of_accepted
    {p : Params} {m : Message} {s : State}
    (haccepted : bodyAccepted P cfg v req x p m s = true) :
    ((handlePublishBody P cfg v req x p m s).2 = s ↔ isFileBody cfg req p m = false) ∧
      (handlePublishBody P cfg v req x p m s).2.cache = s.cache ∧
      (handlePublishBody P cfg v req x p m s).2.queue = s.queue ∧
      (handlePublishBody P cfg v req x p m s).2.received = s.received := by
  refine ⟨?_, ?_⟩
  · rw [body_state_eq_self_iff]
    unfold bodyAccepted at haccepted
    cases hfile : isFileBody cfg req p m with
    | false =>
        simp
    | true =>
        rw [hfile, if_pos rfl, Bool.and_eq_true] at haccepted
        simp [haccepted]
  · rw [(handlePublishBody_spec p m s).1]
    split <;> exact ⟨rfl, rfl, rfl⟩

/-- Storing fails if the deletion does, or the insert when there is no queue. -/
theorem store_spec
    {m : Message} {s : State}
    (hstorable : m.event.storable = true) :
    (x.deleteFails = true →
      s.store v x topic m = (.error errHTTPInternalError, s)) ∧
    (x.deleteFails = false → s.queue = none → x.addFails = true →
      s.store v x topic m =
        (.error errHTTPInternalError, s.deleteScheduled v x topic m.sequenceID)) ∧
    (x.deleteFails = false → ¬(s.queue = none ∧ x.addFails = true) →
      (s.store v x topic m).1 = .ok ()) := by
  have hqueue : (s.deleteScheduled v x topic m.sequenceID).queue = s.queue := rfl
  refine ⟨fun h => by rw [State.store, if_pos h], fun h hnone hadd => ?_, fun h hok => ?_⟩
  · rw [State.store, if_neg (by simp [h]), State.addMessage, hqueue, hnone]
    simp [hadd]
  · rw [State.store, if_neg (by simp [h]), State.addMessage, hqueue]
    cases hq : s.queue with
    | some q =>
        rfl
    | none =>
        have hadd : x.addFails = false := by
          simpa [hq] using hok
        simp [hadd, MessageCache.addMessages, hstorable]

theorem prepare_storable
    {m : Message} {p : Params} {s : State}
    (h : prepare P cfg v req topic s = .ok (m, p))
    (hcache : p.cache = true) :
    m.event.storable = true := by
  unfold prepare at h
  cases hdraft : Publish.draft P cfg v req topic with
  | error e =>
      rw [hdraft] at h
      cases h
  | ok result =>
      obtain ⟨m₀, p₀⟩ := result
      rw [hdraft] at h
      cases h
      rw [Message.withPreview_event]
      exact Publish.draft_storable hdraft hcache

/-- A request whose body is accepted fails clean if the cache does not fail, or early. -/
theorem clean_of_accepted
    {m₁ m : Message} {s s₁ : State}
    (hcache : s₁.cache = s.cache)
    (hqueue : s₁.queue = s.queue)
    (hreceived : s₁.received = s.received)
    (hframe : frame m₁ = frame m)
    (hstorable : m.event.storable = true) :
    (∀ e, ((if decide (x.publishedAt < m₁.time) then s₁ else s₁.publish x m₁).store v x
        topic m₁).1 = .error e →
      ((if decide (x.publishedAt < m₁.time) then s₁ else s₁.publish x m₁).store v x
        topic m₁).2 = s)
      ↔
    (x.deleteFails = true ∨ (s.queue = none ∧ x.addFails = true) →
      Unheard x m ∧ s₁ = s ∧
        (x.deleteFails = false →
          ∀ r ∈ s.cache.rows, isScheduled topic m.sequenceID r = false)) := by
  have htime : m₁.time = m.time := congrArg (fun f => f.2.1) hframe
  have hsequence : m₁.sequenceID = m.sequenceID := congrArg (fun f => f.2.2.1) hframe
  have hevent : m₁.event = m.event := congrArg (fun f => f.2.2.2) hframe
  generalize hs₂ : (if decide (x.publishedAt < m₁.time) then s₁ else s₁.publish x m₁) = s₂
  have hcache₂ : s₂.cache = s.cache := by
    rw [← hs₂, ← hcache]
    split <;> rfl
  have hqueue₂ : s₂.queue = s.queue := by
    rw [← hs₂, ← hqueue]
    split <;> rfl
  have hunheard : Unheard x m₁ ↔ Unheard x m := by
    rw [Unheard, Unheard, htime]
  have hself : s₂ = s ↔ Unheard x m ∧ s₁ = s := by
    constructor
    · intro h
      -- the messages that were received tell whether this one was
      have hheard : Unheard x m₁ := by
        by_contra hno
        obtain ⟨hdelayed, hnone⟩ := not_or.mp hno
        rw [if_neg (by simpa using hdelayed)] at hs₂
        have hlist : s₁.received ++ x.receivers.map (fun r => (r, m₁)) = s.received := by
          rw [← h, ← hs₂]
          rfl
        exact hnone (by simpa [hreceived] using hlist)
      rw [sent_eq_self_iff.mpr hheard] at hs₂
      exact ⟨hunheard.mp hheard, hs₂.trans h⟩
    · rintro ⟨hheard, rfl⟩
      rw [← hs₂]
      exact sent_eq_self_iff.mpr (hunheard.mpr hheard)
  obtain ⟨hdelete, hadd, hok⟩ := @store_spec v x topic m₁ s₂ (hevent ▸ hstorable)
  rw [hqueue₂] at hadd hok
  cases hdeletes : x.deleteFails with
  | true =>
      simp [hdelete hdeletes, hself]
  | false =>
      by_cases hadds : s.queue = none ∧ x.addFails = true
      · rw [hadd hdeletes hadds.1 hadds.2, hsequence]
        simp [hadds, deleted_eq_self_iff hcache₂, hself, and_assoc]
      · rw [hok hdeletes hadds]
        simp [hadds]

end Requests

section Agreement

variable {P : Parsers}
variable {cfg : Config}
variable {v : Visit}
variable {req : Request}
variable {x : Circumstances}
variable {topic : String}

/-- Nothing goes wrong, and there is no queue. -/
structure Smooth
    (x : Circumstances)
    (s : State) : Prop where
  context : x.contextMissing = false
  peek : x.peekFails = false
  rest : x.restFails = false
  info : x.infoFails = false
  opened : x.openFails = false
  disk : x.diskFails = false
  closed : x.closeFails = false
  delete : x.deleteFails = false
  add : x.addFails = false
  queue : s.queue = none

theorem handleBodyAsAttachment_agrees
    {m : Message} {s : State}
    (hsmooth : Smooth x s)
    (hvalid : FileCache.validFileID m.id = true)
    (hfresh : m.id ∉ s.files) :
    (handleBodyAsAttachment P cfg v req x m s).1 =
      Publish.handleBodyAsAttachment P cfg v req
        (Publish.attachmentBytesUsed v s.cache) m := by
  unfold handleBodyAsAttachment Publish.handleBodyAsAttachment Publish.attachmentRefusal
  split
  · rfl
  · rw [if_neg (by simp [hsmooth.info])]
    split
    · rfl
    · by_cases hannounced : Publish.announcedSizeFits v req (remaining v s) = true
      · by_cases hfits : Publish.bodyFits v req (remaining v s) = true
        · rw [if_neg (by simp [hannounced]), if_pos]
          · simp [writeFile, hvalid, hfresh, hsmooth.opened, hsmooth.rest, hsmooth.disk,
              hsmooth.closed, hfits]
          · exact Bool.and_eq_true_iff.mpr ⟨hannounced, hfits⟩
        · rw [if_neg (by simp [hannounced]), if_neg]
          · simp [writeFile, hvalid, hfresh, hsmooth.opened, hsmooth.rest, hsmooth.disk, hfits]
          · exact fun h => hfits (Bool.and_eq_true_iff.mp h).2
      · rw [if_pos (by simp [hannounced]), if_neg]
        exact fun h => hannounced (Bool.and_eq_true_iff.mp h).1

theorem handlePublishBody_agrees
    {p : Params} {m : Message} {s : State}
    (hsmooth : Smooth x s)
    (hvalid : FileCache.validFileID m.id = true)
    (hfresh : m.id ∉ s.files) :
    (handlePublishBody P cfg v req x p m s).1 =
      Publish.handlePublishBody P cfg v req p (Publish.attachmentBytesUsed v s.cache) m := by
  cases hfile : isFileBody cfg req p m with
  | true =>
      obtain ⟨hbody, hpublish⟩ := handlePublishBody_of_file (P := P) (v := v) (x := x) hfile s
      rw [hbody, hpublish, handleBodyAsAttachment_agrees hsmooth hvalid hfresh]
  | false =>
      rw [handlePublishBody_of_no_file hfile]
      simp [afterRest, hsmooth.rest]

/-- If nothing goes wrong, the result is the one of the model without failures. -/
theorem handlePublishInternal_agrees
    {s : State}
    (hsmooth : Smooth x s)
    (hfile : ∀ m p, prepare P cfg v req topic s = .ok (m, p) →
      FileCache.validFileID m.id = true ∧ m.id ∉ s.files) :
    (handlePublishInternal P cfg v req x topic s).1 =
      (Publish.handlePublishInternal P cfg v req s.cache topic).map Prod.fst := by
  have hprepare : prepare P cfg v req topic s = (Publish.draft P cfg v req topic).map
      fun (m, p) => (m.withPreview (Publish.replyPreview s.cache m.replyTo), p) :=
    rfl
  unfold handlePublishInternal Publish.handlePublishInternal
  rw [if_neg (by simp [hsmooth.context]), if_neg (by simp [hsmooth.peek])]
  cases hdraft : Publish.draft P cfg v req topic with
  | error e =>
      rw [hprepare, hdraft]
      rfl
  | ok draft =>
      obtain ⟨m, p⟩ := draft
      rw [hdraft] at hprepare
      generalize hm : m.withPreview (Publish.replyPreview s.cache m.replyTo) = m' at hprepare
      have hprepared : prepare P cfg v req topic s = .ok (m', p) := by
        rw [hprepare, ← hm]
        rfl
      obtain ⟨hvalid, hfresh⟩ := hfile m' p hprepared
      have hbody := @handlePublishBody_agrees P cfg v req x p m' s hsmooth hvalid hfresh
      simp only [hprepared, bind, Except.bind, hm, ← hbody]
      obtain ⟨-, hok, -⟩ := @handlePublishBody_spec P cfg v req x p m' s
      cases hresult : handlePublishBody P cfg v req x p m' s with
      | mk result s₁ =>
          cases result with
          | error e =>
              rfl
          | ok m₁ =>
              cases hcached : p.cache with
              | false =>
                  simp [Except.map]
              | true =>
                  obtain ⟨-, hframe⟩ := hok m₁ (by rw [hresult])
                  have hevent : (Publish.fillEmptyMessage m₁).event = m'.event :=
                    congrArg (fun f => f.2.2.2) ((fillEmptyMessage_frame m₁).trans hframe)
                  have hstorable : (Publish.fillEmptyMessage m₁).event.storable = true :=
                    hevent ▸ prepare_storable hprepared hcached
                  have hstored := fun s => (@store_spec v x topic _ s hstorable).2.2 hsmooth.delete (by simp [hsmooth.add])
                  dsimp only
                  rw [if_pos rfl]
                  generalize hs₂ : (if decide (x.publishedAt < _) then s₁ else _) = s₂
                  cases hstore : s₂.store v x topic (Publish.fillEmptyMessage m₁) with
                  | mk stored s₃ =>
                      have hok := hstored s₂
                      rw [hstore] at hok
                      obtain rfl : stored = .ok () := hok
                      simp [MessageCache.addMessages, hstorable, Except.map]

end Agreement

section Example

/-- Parsers of plain requests. -/
def plainParsers : Parsers where
  decodeHeader := some
  urlPath := fun _ => none
  parseFutureTime := fun _ _ => none
  parseActions := fun _ => .error "invalid"
  mimetype := fun _ => ("application/octet-stream", "")
  templateFile := fun _ => .error errHTTPBadRequestTemplateFileNotFound
  renderTemplate := fun tpl _ => .ok tpl

def plainConfig : Config where
  defaultAccess := .readWrite
  messageSizeLimit := 4096
  messageDelayMin := 10
  messageDelayMax := 259200
  baseURL := ""
  attachmentCacheDir := ""
  smtpSender := false
  twilioAccount := ""
  visitorSubscriberRateLimiting := false

def plainVisit : Visit where
  user := none
  ip := .invalid
  phoneNumbers := []
  limits := ⟨43200, 0, 0, 0⟩
  exempt := false
  hasRateVisitor := false
  messageAllowed := true
  emailAllowed := false
  callAllowed := false
  bandwidthAllowed := fun _ => true
  fileCacheRemaining := none
  now := 1000
  messageID := "nnnnnnnnnnnn"
  pollRequestID := "pppppppppppp"

def plainRequest : Request where
  method := "POST"
  path := "/news"
  header := fun _ => ""
  query := fun _ => ""
  body := [104, 105]

/-- Nothing goes wrong but the insert, and one subscriber listens. -/
def insertFails : Circumstances where
  contextMissing := false
  peekFails := false
  restFails := false
  infoFails := false
  openFails := false
  diskFails := false
  closeFails := false
  unlinkFails := false
  keptFiles := []
  deleteFails := false
  addFails := true
  publishedAt := 1000
  subscribers := [1]
  webPushPublicKey := ""
  webPushEndpoints := []

def nothingYet : State where
  cache := .empty
  queue := none
  files := []
  received := []

end Example

end FailedPublishes
end Server
end CoopMessenger
