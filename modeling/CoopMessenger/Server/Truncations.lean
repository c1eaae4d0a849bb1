import CoopMessenger.Server.JsonPublish
import CoopMessenger.Util.Cuts

/-!
# Texts that are cut

The preview of a reply, the metadata of a topic, the term of a user search, and the
message and the alert of a Firebase message are cut at a number of bytes, each in its own
way.  A cut inside a character leaves bytes that are no text.

**Results.**
* `keepsText_shorten_iff`: when a text that is cut to a limit is a prefix of it.
* `keepsText_alert_iff`: the same for the alert, which ends with an ellipsis.
* `keepsText_data_iff`: the same for the message, which is cut by what is too much.
* `truncations_iff`: which texts are kept by each of the places.
-/

namespace CoopMessenger
namespace Server

open Library Util

namespace Truncations

section Limits

/-- `if len(s) > limit { s = s[:limit] }` -/
def shorten
    (limit : Nat)
    (s : List UInt8) : List UInt8 :=
  if limit < s.length then s.take limit else s

theorem keepsText_shorten_iff
    (limit : Nat)
    (s : String) :
    KeepsText "" s (shorten limit (bytesOf s)) ↔
      s.utf8ByteSize ≤ limit ∨ IsBoundary s limit := by
  have htake : shorten limit (bytesOf s) = (bytesOf s).take limit := by
    rw [shorten]
    split
    · rfl
    · next hfits =>
        exact (List.take_of_length_le (not_lt.mp hfits)).symm
  rw [htake, keepsText_take_iff]

/-- `apiTopicMetaUpdateRequest` -/
structure TopicMetaUpdateRequest where
  displayName : String
  description : String

/-- The name and the description that `handleTopicMetaUpdate` stores. -/
def metaTexts (req : TopicMetaUpdateRequest) : List UInt8 × List UInt8 :=
  (shorten 100 (bytesOf req.displayName), shorten 500 (bytesOf req.description))

/-- The term that `handleUserSearch` searches for. -/
def searchTerm (query : String) : Except ErrHTTP (List UInt8) :=
  if (bytesOf query).length < 2 then
    .error (errHTTPBadRequest.wrap "query must be at least 2 characters")
  else
    .ok (shorten 50 (bytesOf query))

end Limits

section Firebase

/-- The keys of a Firebase message with their values. -/
abbrev Data : Type := List (String × List UInt8)

/-- `ApsAlert` -/
structure Alert where
  title : String
  body : List UInt8
deriving DecidableEq, Repr

/-- `APNSConfig`: an alert, or else a silent background message. -/
structure APNSConfig where
  alert : Option Alert
  customData : Data
deriving DecidableEq, Repr

structure FirebaseMessage where
  topic : String
  data : Data
  highPriority : Bool
  apns : Option APNSConfig
deriving DecidableEq, Repr

def fcmMessageLimit : Nat := 4000
def fcmApnsBodyMessageLimit : Nat := 100

def maybeTruncateAPNSBodyMessage (s : List UInt8) : List UInt8 :=
  if fcmApnsBodyMessageLimit ≤ s.length then
    let overBy := s.length - fcmApnsBodyMessageLimit + 3
    s.take (s.length - overBy) ++ bytesOf "..."
  else
    s

/-- What is cut off a message if it is serialized to so many bytes. -/
def fcmOver (size : Nat) : Nat :=
  size - fcmMessageLimit + 16

/-- The serialization is that of another package. -/
def maybeTruncateFCMMessage
    (marshal : FirebaseMessage → Option (List UInt8))
    (m : FirebaseMessage) : FirebaseMessage :=
  match marshal m with
  | none => m
  | some s =>
      if fcmMessageLimit < s.length then
        let overBy := fcmOver s.length
        match m.data.lookup "message" with
        | some message =>
            if overBy < message.length then
              { m with
                data := Dictionary.set "message" (message.take (message.length - overBy))
                  (Dictionary.set "truncated" (bytesOf "1") m.data) }
            else
              m
        | none => m
      else
        m

def createAPNSAlertConfig
    (m : Message)
    (data : Data) : APNSConfig :=
  ⟨some ⟨m.title, maybeTruncateAPNSBodyMessage (bytesOf m.message)⟩, data⟩

def createAPNSBackgroundConfig (data : Data) : APNSConfig :=
  ⟨none, data⟩

/-- `toPollRequest`; the ID and the time of a new message are overwritten. -/
def toPollRequest (m : Message) : Message :=
  { newPollRequestMessage m.id m.time m.topic m.id with
    priority := m.priority
    contentType := m.contentType
    encoding := m.encoding }

/-- Writes texts under their keys. -/
def withTexts
    (texts : List (String × String))
    (data : Data) : Data :=
  texts.foldl (fun data e => Dictionary.set e.1 (bytesOf e.2) data) data

/-- What the data say of actions, of an attachment, and of a poll. -/
def optionalTexts (m : Message) : List (String × String) :=
  (if m.actions = [] then []
    else [("actions", String.ofList (Actions.marshalActions m.actions))]) ++
  (match m.attachment with
    | none => []
    | some a =>
        [("attachment_name", a.name), ("attachment_type", a.type),
          ("attachment_size", toString a.size),
          ("attachment_expires", toString a.expires), ("attachment_url", a.url)]) ++
  (if m.pollID = "" then [] else [("poll_id", m.pollID)])

/-- The data of a message that is sent along. -/
def messageData (m : Message) : Data :=
  withTexts
    ([("id", m.id), ("time", toString m.time), ("event", MessageJSON.eventText m.event),
        ("topic", m.topic), ("sequence_id", m.sequenceID),
        ("priority", toString m.priority), ("tags", Publish.joinTags m.tags),
        ("click", m.click), ("icon", m.icon), ("title", m.title)] ++
      ("message", m.message) :: ("content_type", m.contentType) ::
        ("encoding", m.encoding) :: optionalTexts m) []

/-- May anonymous users read the topic?  Without an auther they may. -/
abbrev Auther : Type := Option (String → Bool)

def Auther.readable
    (auther : Auther)
    (topic : String) : Bool :=
  auther.all fun read => read topic

/-- The message as Firebase is to know it, its data, and what Apple devices get. -/
def firebaseParts
    (m : Message)
    (auther : Auther) : Message × Data × Option APNSConfig :=
  match m.event with
  | .keepalive | .open =>
      let data := withTexts [("id", m.id), ("time", toString m.time),
        ("event", MessageJSON.eventText m.event), ("topic", m.topic)] []
      (m, data, some (createAPNSBackgroundConfig data))
  | .pollRequest =>
      let data := withTexts [("id", m.id), ("time", toString m.time),
        ("event", MessageJSON.eventText m.event), ("topic", m.topic),
        ("message", newMessageBody), ("poll_id", m.pollID)] []
      (m, data, some (createAPNSAlertConfig m data))
  | .messageDelete | .messageClear =>
      let data := withTexts [("id", m.id), ("time", toString m.time),
        ("event", MessageJSON.eventText m.event), ("topic", m.topic),
        ("sequence_id", m.sequenceID)] []
      (m, data, some (createAPNSBackgroundConfig data))
  | .message =>
      let m := if auther.readable m.topic then m else toPollRequest m
      let data := messageData m
      (m, data, some (createAPNSAlertConfig m data))
  | .coopNudge => (m, [], none)

/-- The message as it is before it is cut. -/
def uncutMessage
    (m : Message)
    (auther : Auther) : FirebaseMessage :=
  let parts := firebaseParts m auther
  ⟨parts.1.topic, parts.2.1, decide (4 ≤ parts.1.priority), parts.2.2⟩

def toFirebaseMessage
    (marshal : FirebaseMessage → Option (List UInt8))
    (m : Message)
    (auther : Auther) : FirebaseMessage :=
  maybeTruncateFCMMessage marshal (uncutMessage m auther)

end Firebase

section Cuts

/-- A text that is not longer, or has a character that ends there. -/
def IsWholeAt
    (s : String)
    (n : Nat) : Prop :=
  s.utf8ByteSize ≤ n ∨ IsBoundary s n

theorem keepsText_alert_iff
    (s : String) :
    KeepsText "..." s (maybeTruncateAPNSBodyMessage (bytesOf s)) ↔
      s.utf8ByteSize < 100 ∨ IsBoundary s 97 := by
  by_cases hlong : fcmApnsBodyMessageLimit ≤ s.utf8ByteSize
  · have hcut : maybeTruncateAPNSBodyMessage (bytesOf s) =
        (bytesOf s).take 97 ++ bytesOf "..." := by
      have hkept : s.utf8ByteSize - (s.utf8ByteSize - fcmApnsBodyMessageLimit + 3) = 97 := by
        rw [fcmApnsBodyMessageLimit] at *
        omega
      rw [maybeTruncateAPNSBodyMessage, length_bytesOf, if_pos hlong]
      simp only [hkept]
    rw [fcmApnsBodyMessageLimit] at hlong
    rw [hcut, keepsText_append_iff (by omega), or_iff_right (by omega)]
  · have hwhole : maybeTruncateAPNSBodyMessage (bytesOf s) = bytesOf s := by
      rw [maybeTruncateAPNSBodyMessage, length_bytesOf, if_neg hlong]
    rw [hwhole, iff_true_left (keepsText_self _ s)]
    exact Or.inl (not_le.mp hlong)

/-- The text fits, or is shorter than what is too much, or is cut after a character. -/
def FcmKeeps
    (text : String)
    (size : Nat) : Prop :=
  size ≤ fcmMessageLimit ∨ text.utf8ByteSize ≤ fcmOver size ∨
    IsBoundary text (text.utf8ByteSize - fcmOver size)

theorem keepsText_data_iff
    {marshal : FirebaseMessage → Option (List UInt8)}
    {m : FirebaseMessage} {text : String}
    (h : m.data.lookup "message" = some (bytesOf text)) :
    ∃ out, (maybeTruncateFCMMessage marshal m).data.lookup "message" = some out ∧
      (KeepsText "" text out ↔ ∀ s, marshal m = some s → FcmKeeps text s.length) := by
  cases hmarshal : marshal m with
  | none =>
      refine ⟨bytesOf text, ?_, iff_of_true (keepsText_self _ text) (by simp)⟩
      simp only [maybeTruncateFCMMessage, hmarshal, h]
  | some s =>
      have hsome : (∀ s', some s = some s' → FcmKeeps text s'.length) ↔
          FcmKeeps text s.length := by
        simp
      rw [hsome]
      by_cases hlarge : fcmMessageLimit < s.length
      · by_cases hover : fcmOver s.length < text.utf8ByteSize
        · refine ⟨(bytesOf text).take (text.utf8ByteSize - fcmOver s.length), ?_, ?_⟩
          · simp only [maybeTruncateFCMMessage, hmarshal, if_pos hlarge, h, length_bytesOf,
              if_pos hover, Dictionary.lookup_set_self]
          · have hpos : 0 < fcmOver s.length := by
              rw [fcmOver]
              omega
            rw [keepsText_take_iff, FcmKeeps, or_iff_right (not_le.mpr hlarge),
              or_iff_right (not_le.mpr hover), or_iff_right (by omega)]
        · refine ⟨bytesOf text, ?_, iff_of_true (keepsText_self _ text)
            (Or.inr (Or.inl (not_lt.mp hover)))⟩
          simp only [maybeTruncateFCMMessage, hmarshal, if_pos hlarge, h, length_bytesOf,
            if_neg hover]
      · refine ⟨bytesOf text, ?_, iff_of_true (keepsText_self _ text)
          (Or.inl (not_lt.mp hlarge))⟩
        simp only [maybeTruncateFCMMessage, hmarshal, if_neg hlarge, h]

end Cuts

section Data

theorem lookup_withTexts_of_not_mem
    {k : String} {texts : List (String × String)} {data : Data}
    (hk : k ∉ texts.map Prod.fst) :
    (withTexts texts data).lookup k = data.lookup k := by
  induction texts generalizing data with
  | nil =>
      rfl
  | cons e texts ih =>
      rw [List.map_cons, List.mem_cons, not_or] at hk
      rw [withTexts, List.foldl_cons]
      exact (ih hk.2).trans (Dictionary.lookup_set_of_ne hk.1 _ _)

theorem lookup_withTexts
    {k v : String} {before after : List (String × String)} {data : Data}
    (hk : k ∉ after.map Prod.fst) :
    (withTexts (before ++ (k, v) :: after) data).lookup k = some (bytesOf v) := by
  have hsplit : withTexts (before ++ (k, v) :: after) data =
      withTexts after (Dictionary.set k (bytesOf v) (withTexts before data)) := by
    rw [withTexts, List.foldl_append, List.foldl_cons]
    rfl
  rw [hsplit, lookup_withTexts_of_not_mem hk, Dictionary.lookup_set_self]

theorem lookup_messageData
    (m : Message) :
    (messageData m).lookup "message" = some (bytesOf m.message) := by
  refine lookup_withTexts ?_
  simp only [List.map_cons, List.mem_cons, not_or]
  refine ⟨by decide, by decide, ?_⟩
  simp only [optionalTexts, List.map_append, List.mem_append, not_or]
  refine ⟨⟨?_, ?_⟩, ?_⟩
  · split <;> simp
  · split <;> simp
  · split <;> simp

end Data

section Claim

variable {marshal : FirebaseMessage → Option (List UInt8)}
variable {m : Message}
variable {auther : Auther}

theorem maybeTruncateFCMMessage_apns
    (m : FirebaseMessage) :
    (maybeTruncateFCMMessage marshal m).apns = m.apns := by
  simp only [maybeTruncateFCMMessage]
  repeat' split
  all_goals rfl

/-- A message that everyone may read is sent with its text, and with an alert. -/
theorem toFirebaseMessage_texts
    (hevent : m.event = .message)
    (hread : auther.readable m.topic = true) :
    (∃ out, (toFirebaseMessage marshal m auther).data.lookup "message" = some out ∧
      (KeepsText "" m.message out ↔
        ∀ s, marshal (uncutMessage m auther) = some s → FcmKeeps m.message s.length)) ∧
    ∃ apns alert, (toFirebaseMessage marshal m auther).apns = some apns ∧
      apns.alert = some alert ∧
      (KeepsText "..." m.message alert.body ↔
        m.message.utf8ByteSize < 100 ∨ IsBoundary m.message 97) := by
  have hparts : firebaseParts m auther =
      (m, messageData m, some (createAPNSAlertConfig m (messageData m))) := by
    rw [firebaseParts, hevent]
    simp only [hread, if_true]
  constructor
  · have hdata : (uncutMessage m auther).data = messageData m := by
      simp only [uncutMessage, hparts]
    have hlookup := lookup_messageData m
    rw [← hdata] at hlookup
    exact keepsText_data_iff hlookup
  · refine ⟨createAPNSAlertConfig m (messageData m), _, ?_, rfl, keepsText_alert_iff _⟩
    simp only [toFirebaseMessage, maybeTruncateFCMMessage_apns, uncutMessage, hparts]

/--
Each place keeps a prefix of the text (with its ellipsis at most) just for the texts that
are not cut, or are cut after a character.
-/
theorem truncations_iff
    (marshal : FirebaseMessage → Option (List UInt8))
    (auther : Auther)
    (c : MessageCache) :
    (∀ replyTo orig, replyTo ≠ "" → c.message? replyTo = some orig →
      (KeepsText "" orig.message (Publish.replyPreview c replyTo) ↔
        IsWholeAt orig.message 100)) ∧
    (∀ req, (KeepsText "" req.displayName (metaTexts req).1 ↔
        IsWholeAt req.displayName 100) ∧
      (KeepsText "" req.description (metaTexts req).2 ↔ IsWholeAt req.description 500)) ∧
    (∀ query term, searchTerm query = .ok term →
      (KeepsText "" query term ↔ IsWholeAt query 50)) ∧
    ∀ m, m.event = .message → auther.readable m.topic = true →
      (∃ out, (toFirebaseMessage marshal m auther).data.lookup "message" = some out ∧
        (KeepsText "" m.message out ↔
          ∀ s, marshal (uncutMessage m auther) = some s →
            FcmKeeps m.message s.length)) ∧
      ∃ apns alert, (toFirebaseMessage marshal m auther).apns = some apns ∧
        apns.alert = some alert ∧
        (KeepsText "..." m.message alert.body ↔
          m.message.utf8ByteSize < 100 ∨ IsBoundary m.message 97) := by
  refine ⟨?_, ?_, ?_, fun m => toFirebaseMessage_texts⟩
  · intro replyTo orig hreply horig
    rw [Publish.replyPreview, if_neg hreply, horig]
    exact keepsText_take_iff
  · intro req
    exact ⟨keepsText_shorten_iff 100 _, keepsText_shorten_iff 500 _⟩
  · intro query term hterm
    rw [searchTerm] at hterm
    split at hterm
    · cases hterm
    · rw [← Except.ok.inj hterm]
      exact keepsText_shorten_iff 50 query

end Claim

section Example

/-- A greeting in the topic news. -/
def greeting : Message :=
  newDefaultMessage "mmmmmmmmmmmm" 1000 "news" "hi"

def greetingCache : MessageCache where
  rows := [⟨1, greeting, true⟩]
  lastRowID := 1
  increasing := List.pairwise_singleton _ _
  bounded := by
    simp

/-- The fields of the greeting in JSON. -/
def greetingFields : String :=
  "\"click\":\"\",\"content_type\":\"\",\"encoding\":\"\",\"event\":\"message\"," ++
    "\"icon\":\"\",\"id\":\"mmmmmmmmmmmm\",\"message\":\"hi\",\"priority\":\"0\"," ++
    "\"sequence_id\":\"\",\"tags\":\"\",\"time\":\"1000\",\"title\":\"\",\"topic\":\"news\""

/-- What the greeting is serialized to. -/
def greetingText : String :=
  "\x7b\"topic\":\"news\",\"data\":\x7b" ++ greetingFields ++
    "\x7d,\"apns\":\x7b\"payload\":\x7b\"aps\":\x7b\"alert\":\x7b\"body\":\"hi\"\x7d," ++
    "\"mutable-content\":1\x7d," ++ greetingFields ++ "\x7d\x7d\x7d"

/-- Short texts are kept at each place. -/
theorem short_texts_kept :
    KeepsText "" "hi" (Publish.replyPreview greetingCache "mmmmmmmmmmmm") ∧
      KeepsText "" "Friends" (metaTexts ⟨"Friends", ""⟩).1 ∧
      (∃ term, searchTerm "ben" = .ok term ∧ KeepsText "" "ben" term) ∧
      ∃ out, (toFirebaseMessage (fun _ => some (bytesOf greetingText)) greeting
          none).data.lookup "message" = some out ∧
        KeepsText "" "hi" out := by
  obtain ⟨hpreview, hmeta, hsearch, hfirebase⟩ :=
    truncations_iff (fun _ => some (bytesOf greetingText)) none greetingCache
  refine ⟨?_, ?_, ?_, ?_⟩
  · exact (hpreview "mmmmmmmmmmmm" greeting (by decide) (by decide)).mpr
      (Or.inl (by decide))
  · exact (hmeta ⟨"Friends", ""⟩).1.mpr (Or.inl (by decide))
  · exact ⟨bytesOf "ben", rfl, (hsearch "ben" _ rfl).mpr (Or.inl (by decide))⟩
  · obtain ⟨⟨out, hout, hkeeps⟩, -⟩ := hfirebase greeting rfl rfl
    refine ⟨out, hout, hkeeps.mpr fun s hs => Or.inl ?_⟩
    rw [← Option.some.inj hs]
    decide +kernel

/-- Ninety-nine letters and an umlaut. -/
def longName : String :=
  String.ofList (List.replicate 99 'a') ++ "ä"

/-- A name, a term and an alert that are cut inside a character. -/
theorem umlauts_cut :
    ¬KeepsText "" longName (metaTexts ⟨longName, ""⟩).1 ∧
      (∃ query term, searchTerm query = .ok term ∧ ¬KeepsText "" query term) ∧
      ∃ text, ¬KeepsText "..." text (maybeTruncateAPNSBodyMessage (bytesOf text)) := by
  refine ⟨?_, ?_, ?_⟩
  · rw [metaTexts, keepsText_shorten_iff]
    decide +kernel
  · let query := String.ofList (List.replicate 49 'a') ++ "ä"
    refine ⟨query, shorten 50 (bytesOf query), rfl, ?_⟩
    rw [keepsText_shorten_iff]
    decide +kernel
  · refine ⟨String.ofList (List.replicate 96 'a') ++ "äbc", ?_⟩
    rw [keepsText_alert_iff]
    decide +kernel

end Example

end Truncations
end Server
end CoopMessenger
